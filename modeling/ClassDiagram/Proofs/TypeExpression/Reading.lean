import ClassDiagram.Proofs.TypeExpression.Grammar
import Mathlib.Data.List.Basic
/-!
# Reading is deriving

The reader accepts a text with an expression exactly if the grammar derives the expression from the
text. In one direction a derivation is followed through the reader, above brackets that stay open.
In the other, the characters taken so far are at every moment accounted for by the phase and the
open brackets.
-/

namespace ClassDiagram.TypeExpression

/-! ## Runs of the reader -/

/-- The state behind some characters, if all of them can stand there. -/
def State.steps (s : State) : List Char → Option State
  | [] => some s
  | c :: l => (s.step c).bind (·.steps l)

theorem State.steps_append {s : State} {l m : List Char} :
    s.steps (l ++ m) = (s.steps l).bind (·.steps m) := by
  induction l generalizing s with
  | nil => rfl
  | cons c l ih => cases h : s.step c <;> simp [steps, h, ih]

theorem State.run_eq_ok {s : State} {index : Nat} {l : List Char} {e : TypeExpression} :
    s.run index l = .ok e ↔ ∃ last, s.steps l = some last ∧ last.result? = some e := by
  induction l generalizing s index with
  | nil => cases h : s.result? <;> simp [run, steps, h]
  | cons c l ih => cases h : s.step c <;> simp [run, steps, h, ih]

theorem read_eq_ok {text : String} {e : TypeExpression} :
    read text = .ok e ↔ ∃ last, State.start.steps text.toList = some last ∧ last.result? = some e :=
  State.run_eq_ok

/-! ## What a derivation does to the reader -/

variable {stack : List Opened} {l : List Char}

/-- Blanks change nothing outside a name. -/
theorem step_blank {s : State} {c : Char} (hs : ∀ reversed, s.phase ≠ .naming reversed)
    (hc : Text.isBlank c = true) : s.step c = some s := by
  obtain ⟨h₁, h₂, h₃⟩ := ne_of_isBlank hc
  cases hp : s.phase with
  | naming reversed => exact absurd hp (hs reversed)
  | _ => simp [State.step, h₁, h₂, h₃, hp, hc]

theorem steps_blanks {s : State} (hs : ∀ reversed, s.phase ≠ .naming reversed) (hl : Blanks l) :
    s.steps l = some s := by
  induction l with
  | nil => rfl
  | cons c l ih =>
    rw [State.steps, step_blank hs (hl c List.mem_cons_self)]
    exact ih fun d hd => hl d (List.mem_cons_of_mem c hd)

theorem steps_naming (reversed : List Char) (hl : ∀ c ∈ l, endsName c = false) :
    State.steps ⟨.naming reversed, stack⟩ l = some ⟨.naming (l.reverse ++ reversed), stack⟩ := by
  induction l generalizing reversed with
  | nil => rfl
  | cons c l ih =>
    have hc : endsName c = false := hl c List.mem_cons_self
    obtain ⟨h₁, h₂, h₃⟩ := ne_of_not_endsName hc
    simpa [State.steps, State.step, h₁, h₂, h₃, hc] using
      ih (c :: reversed) fun d hd => hl d (List.mem_cons_of_mem c hd)

theorem steps_name (hl : IsName l) :
    State.steps ⟨.blank, stack⟩ l = some ⟨.naming l.reverse, stack⟩ := by
  obtain ⟨hne, hhead, hon⟩ := hl
  cases l with
  | nil => exact absurd rfl hne
  | cons c l =>
    have hc := hhead c rfl
    obtain ⟨h₁, h₂, h₃⟩ := ne_of_not_endsName (hon c List.mem_cons_self)
    have hrest : State.steps ⟨.naming [c], stack⟩ l = some ⟨.naming (l.reverse ++ [c]), stack⟩ :=
      steps_naming [c] fun d hd => hon d (List.mem_cons_of_mem c hd)
    simpa [State.steps, State.step, h₁, h₂, h₃, hc] using hrest

/-- Behind a name and the blanks after it, the name can take arguments or stand for itself. -/
theorem steps_behind_name (name : List Char) (stack : List Opened) (hl : Blanks l)
    (hs : StopsName l) :
    ∃ phase, State.steps ⟨.naming name.reverse, stack⟩ l = some ⟨phase, stack⟩ ∧
      phase.name? = some (String.ofList name) ∧
      phase.expression? = some (.node (String.ofList name) []) := by
  cases l with
  | nil => exact ⟨_, rfl, by simp [Phase.name?, nameOf], by simp [Phase.expression?, nameOf]⟩
  | cons c l =>
    have hc : Text.isBlank c = true := hl c List.mem_cons_self
    obtain ⟨h₁, h₂, h₃⟩ := ne_of_isBlank hc
    have hstep : State.step ⟨.naming name.reverse, stack⟩ c =
        some ⟨.named (String.ofList name), stack⟩ := by
      simp [State.step, h₁, h₂, h₃, hs c rfl, State.pause, nameOf]
    have hrest : State.steps ⟨.named (String.ofList name), stack⟩ l =
        some ⟨.named (String.ofList name), stack⟩ :=
      steps_blanks (by simp) fun d hd => hl d (List.mem_cons_of_mem c hd)
    exact ⟨.named (String.ofList name), by rw [State.steps, hstep]; exact hrest, rfl, rfl⟩

theorem steps_before_and_name {before name : List Char} (hb : Blanks before) (hn : IsName name) :
    State.steps ⟨.blank, stack⟩ (before ++ name) = some ⟨.naming name.reverse, stack⟩ := by
  rw [State.steps_append, steps_blanks (by simp) hb]
  exact steps_name hn

mutual

/-- The reader follows the derivation of an expression and leaves open brackets as they are. -/
theorem Derives.steps {l : List Char} {e : TypeExpression} :
    Derives l e → ∀ stack, ∃ phase, State.steps ⟨.blank, stack⟩ l = some ⟨phase, stack⟩ ∧
      phase.expression? = some e
  | .bare hb hn hbehind hs, stack => by
    obtain ⟨phase, hsteps, -, hphase⟩ := steps_behind_name _ stack hbehind hs
    refine ⟨phase, ?_, hphase⟩
    rw [State.steps_append, steps_before_and_name hb hn]
    exact hsteps
  | @Derives.generic before name gap inner behind as hb hn hg hs hall hbehind, stack => by
    obtain ⟨phase, hgap, hname, -⟩ := steps_behind_name name stack hg hs
    -- The name, its bracket, the arguments above the brackets open so far, and the closing bracket.
    obtain ⟨inside, last, finished, hinner, hlast, hargs⟩ :=
      hall.steps (String.ofList name) [] stack
    have hopen : State.step ⟨phase, stack⟩ '<' =
        some ⟨.blank, ⟨String.ofList name, []⟩ :: stack⟩ := by
      simp [State.step, State.open?, hname]
    have hclose : State.step ⟨inside, ⟨String.ofList name, finished⟩ :: stack⟩ '>' =
        some ⟨.closed (.node (String.ofList name) as), stack⟩ := by
      simpa [State.step, State.close?, hlast] using hargs
    refine ⟨.closed (.node (String.ofList name) as), ?_, rfl⟩
    simp only [State.steps_append, steps_before_and_name hb hn, hgap, State.steps, hopen, hinner,
      hclose, Option.bind_some]
    exact steps_blanks (by simp) hbehind

/-- The reader follows the derivation of arguments up to the last one, which is still open. -/
theorem DerivesAll.steps {l : List Char} {es : List TypeExpression} :
    DerivesAll l es → ∀ name finished stack, ∃ phase last finished',
      State.steps ⟨.blank, ⟨name, finished⟩ :: stack⟩ l = some ⟨phase, ⟨name, finished'⟩ :: stack⟩ ∧
        phase.expression? = some last ∧ (last :: finished').reverse = finished.reverse ++ es
  | .one he, name, finished, stack => by
    obtain ⟨phase, hsteps, hphase⟩ := he.steps (⟨name, finished⟩ :: stack)
    exact ⟨phase, _, finished, hsteps, hphase, List.reverse_cons⟩
  | @DerivesAll.more l m e es he hes, name, finished, stack => by
    obtain ⟨phase, hsteps, hphase⟩ := he.steps (⟨name, finished⟩ :: stack)
    obtain ⟨inside, last, finished', hrest, hlast, hargs⟩ := hes.steps name (e :: finished) stack
    have hnext : State.step ⟨phase, ⟨name, finished⟩ :: stack⟩ ',' =
        some ⟨.blank, ⟨name, e :: finished⟩ :: stack⟩ := by
      simp [State.step, State.next?, hphase]
    refine ⟨inside, last, finished', ?_, hlast, by simp [hargs]⟩
    simp only [State.steps_append, hsteps, State.steps, hnext, Option.bind_some]
    exact hrest

end

/-! ## What the reader has taken -/

/-- The characters of the innermost argument, or of the whole, that lead to a phase. -/
inductive Phase.Spells : Phase → List Char → Prop
  | blank {before : List Char} : Blanks before → Spells .blank before
  | naming {before name : List Char} :
    Blanks before → IsName name → Spells (.naming name.reverse) (before ++ name)
  | named {before name behind : List Char} :
    Blanks before → IsName name → Blanks behind → behind ≠ [] → StopsName behind →
      Spells (.named (String.ofList name)) (before ++ name ++ behind)
  | closed {l : List Char} {e : TypeExpression} :
    Derives l e → e.isGeneric → Spells (.closed e) l

/-- The characters of finished arguments, each with the comma behind it. -/
inductive Finished : List TypeExpression → List Char → Prop
  | nil : Finished [] []
  | cons {es : List TypeExpression} {e : TypeExpression} {l m : List Char} :
    Finished es l → Derives m e → Finished (e :: es) (l ++ (m ++ [',']))

/-- The characters that lead to open brackets, up to where the innermost argument begins. -/
inductive Opens : List Opened → List Char → Prop
  | nil : Opens [] []
  | cons {outer : List Opened} {es : List TypeExpression} {m before name gap l : List Char} :
    Opens outer m → Blanks before → IsName name → Blanks gap → StopsName gap → Finished es l →
      Opens (⟨String.ofList name, es⟩ :: outer) (m ++ (before ++ name ++ gap ++ '<' :: l))

/-- The characters lead to the state. -/
def State.Spells (s : State) (l : List Char) : Prop :=
  ∃ outer inner, l = outer ++ inner ∧ Opens s.stack outer ∧ s.phase.Spells inner

theorem Finished.derivesAll {es fs : List TypeExpression} {l m : List Char} (h : Finished es l)
    (hm : DerivesAll m fs) : DerivesAll (l ++ m) (es.reverse ++ fs) := by
  induction h generalizing m fs with
  | nil => exact hm
  | cons _ he ih => simpa using ih (.more he hm)

/-- A phase with an expression has taken characters that derive it. -/
theorem Phase.Spells.derives {phase : Phase} {l : List Char} {e : TypeExpression}
    (h : phase.Spells l) (he : phase.expression? = some e) : Derives l e := by
  cases h with
  | blank _ => simp [Phase.expression?] at he
  | @naming before name hb hn =>
    obtain rfl : .node (String.ofList name) [] = e := by
      simpa [Phase.expression?, nameOf] using he
    simpa using @Derives.bare before name [] hb hn (by simp [Blanks]) (by simp [StopsName])
  | named hb hn hbehind _ hs =>
    obtain rfl := Option.some.inj he
    exact .bare hb hn hbehind hs
  | closed hd _ =>
    obtain rfl := Option.some.inj he
    exact hd

/-- A phase with a name has taken the name and blanks around it. -/
theorem Phase.Spells.name {phase : Phase} {l : List Char} {n : String} (h : phase.Spells l)
    (hn : phase.name? = some n) :
    ∃ before name gap, l = before ++ name ++ gap ∧ n = String.ofList name ∧ Blanks before ∧
      IsName name ∧ Blanks gap ∧ StopsName gap := by
  cases h with
  | blank _ => simp [Phase.name?] at hn
  | @naming before name hb hname =>
    obtain rfl : String.ofList name = n := by simpa [Phase.name?, nameOf] using hn
    exact ⟨before, name, [], by simp, rfl, hb, hname, by simp [Blanks], by simp [StopsName]⟩
  | named hb hname hbehind _ hs =>
    obtain rfl := Option.some.inj hn
    exact ⟨_, _, _, rfl, rfl, hb, hname, hbehind, hs⟩
  | closed _ _ => simp [Phase.name?] at hn

/-- Blanks behind a closing bracket belong to the expression. -/
theorem Derives.append_blank {l : List Char} {e : TypeExpression} {c : Char} (h : Derives l e)
    (he : e.isGeneric) (hc : Text.isBlank c = true) : Derives (l ++ [c]) e := by
  cases h with
  | bare _ _ _ _ => simp [isGeneric, arguments] at he
  | generic hb hn hg hs hall hbehind =>
    have hmore : Blanks (_ ++ [c]) := blanks_append.2 ⟨hbehind, by simpa [Blanks] using hc⟩
    simpa using Derives.generic hb hn hg hs hall hmore

section Step

variable {s next : State} {l : List Char} {c : Char}

theorem State.Spells.open? (h : s.Spells l) (hs : s.open? = some next) :
    next.Spells (l ++ ['<']) := by
  obtain ⟨outer, inner, rfl, houter, hinner⟩ := h
  obtain ⟨n, hn, rfl⟩ := Option.map_eq_some_iff.1 hs
  obtain ⟨before, name, gap, rfl, rfl, hb, hname, hg, hstop⟩ := hinner.name hn
  refine ⟨_, [], ?_, .cons houter hb hname hg hstop .nil, .blank (by simp [Blanks])⟩
  simp

theorem State.Spells.next? (h : s.Spells l) (hs : s.next? = some next) :
    next.Spells (l ++ [',']) := by
  obtain ⟨outer, inner, rfl, houter, hinner⟩ := h
  obtain ⟨phase, stack⟩ := s
  cases he : phase.expression? with
  | none => simp [State.next?, he] at hs
  | some e =>
    cases houter with
    | nil => simp [State.next?, he] at hs
    | cons hm hb hname hg hstop hl =>
      obtain rfl : _ = next := by simpa [State.next?, he] using hs
      refine ⟨_, [], ?_, .cons hm hb hname hg hstop (.cons hl (hinner.derives he)),
        .blank (by simp [Blanks])⟩
      simp

theorem State.Spells.close? (h : s.Spells l) (hs : s.close? = some next) :
    next.Spells (l ++ ['>']) := by
  obtain ⟨outer, inner, rfl, houter, hinner⟩ := h
  obtain ⟨phase, stack⟩ := s
  cases he : phase.expression? with
  | none => simp [State.close?, he] at hs
  | some e =>
    cases houter with
    | nil => simp [State.close?, he] at hs
    | @cons out es m before name gap l hm hb hname hg hstop hl =>
      obtain rfl : _ = next := by simpa [State.close?, he] using hs
      -- The finished arguments and the one that ends here are all arguments of the innermost name.
      have hall := hl.derivesAll (.one (hinner.derives he))
      have hd := @Derives.generic before name gap _ [] _ hb hname hg hstop hall (by simp [Blanks])
      refine ⟨m, before ++ name ++ gap ++ '<' :: (l ++ inner) ++ ['>'], by simp, hm, ?_⟩
      simpa using Phase.Spells.closed hd (by simp [isGeneric, arguments])

/-- A character that is no bracket and no comma is taken into the phase. -/
theorem State.Spells.step_phase (h : s.Spells l) (h₁ : c ≠ '<') (h₂ : c ≠ ',') (h₃ : c ≠ '>')
    (hs : s.step c = some next) : next.Spells (l ++ [c]) := by
  obtain ⟨outer, inner, rfl, houter, hinner⟩ := h
  obtain ⟨phase, stack⟩ := s
  suffices hphase : next.stack = stack ∧ next.phase.Spells (inner ++ [c]) by
    exact ⟨outer, inner ++ [c], by simp, hphase.1 ▸ houter, hphase.2⟩
  simp only [State.step, h₁, h₂, h₃, ↓reduceIte] at hs
  -- The phases differ in what they take: a blank, or else a character of a name.
  cases hinner with
  | blank hb =>
    by_cases hc : Text.isBlank c = true
    · obtain rfl : _ = next := by simpa [hc] using hs
      exact ⟨rfl, .blank (blanks_append.2 ⟨hb, by simpa [Blanks] using hc⟩)⟩
    · obtain rfl : _ = next := by simpa [hc] using hs
      have hname : IsName [c] := by
        refine ⟨by simp, by simpa using hc, ?_⟩
        simpa using fun hend => hc (isBlank_of_endsName hend h₁ h₂ h₃)
      exact ⟨rfl, .naming hb hname⟩
  | @naming before name hb hname =>
    by_cases hc : endsName c = true
    · obtain rfl : _ = next := by simpa [hc] using hs
      have hblank := isBlank_of_endsName hc h₁ h₂ h₃
      refine ⟨rfl, ?_⟩
      simpa [State.pause, nameOf] using Phase.Spells.named hb hname
        (by simpa [Blanks] using hblank) (by simp) (by simpa [StopsName] using hc)
    · obtain rfl : _ = next := by simpa [hc] using hs
      have hmore : IsName (name ++ [c]) := by
        refine ⟨by simp, ?_, ?_⟩
        · intro d hd
          rw [List.head?_append_of_ne_nil _ hname.ne_nil] at hd
          exact hname.head_not_blank d hd
        · intro d hd
          rcases List.mem_append.1 hd with hd | hd
          · exact hname.goes_on d hd
          · simpa [List.mem_singleton.1 hd] using hc
      refine ⟨rfl, ?_⟩
      simpa using Phase.Spells.naming hb hmore
  | @named before name behind hb hname hbehind hne hstop =>
    by_cases hc : Text.isBlank c = true
    · obtain rfl : _ = next := by simpa [hc] using hs
      have hmore : Blanks (behind ++ [c]) := blanks_append.2 ⟨hbehind, by simpa [Blanks] using hc⟩
      have hstill : StopsName (behind ++ [c]) := by
        intro d hd
        rw [List.head?_append_of_ne_nil _ hne] at hd
        exact hstop d hd
      refine ⟨rfl, ?_⟩
      simpa using Phase.Spells.named hb hname hmore (by simp) hstill
    · simp [hc] at hs
  | closed hd he =>
    by_cases hc : Text.isBlank c = true
    · obtain rfl : _ = next := by simpa [hc] using hs
      exact ⟨rfl, .closed (hd.append_blank he hc) he⟩
    · simp [hc] at hs

/-- Every character that the reader takes is accounted for. -/
theorem State.Spells.step (h : s.Spells l) (hs : s.step c = some next) :
    next.Spells (l ++ [c]) := by
  by_cases h₁ : c = '<'
  · subst h₁
    exact h.open? (by simpa [State.step] using hs)
  · by_cases h₂ : c = ','
    · subst h₂
      exact h.next? (by simpa [State.step] using hs)
    · by_cases h₃ : c = '>'
      · subst h₃
        exact h.close? (by simpa [State.step] using hs)
      · exact h.step_phase h₁ h₂ h₃ hs

theorem State.Spells.steps {m : List Char} (h : s.Spells l) (hs : s.steps m = some next) :
    next.Spells (l ++ m) := by
  induction m generalizing s l with
  | nil =>
    obtain rfl := Option.some.inj hs
    simpa using h
  | cons c m ih =>
    obtain ⟨after, hafter, hs⟩ := Option.bind_eq_some_iff.1 hs
    simpa using ih (h.step hafter) hs

end Step

theorem State.spells_start : State.start.Spells [] :=
  ⟨[], [], rfl, .nil, .blank (by simp [Blanks])⟩

/-- Where no bracket is open, the expression that ends there is derived from all characters. -/
theorem State.Spells.derives {s : State} {l : List Char} {e : TypeExpression} (h : s.Spells l)
    (he : s.result? = some e) : Derives l e := by
  obtain ⟨outer, inner, rfl, houter, hinner⟩ := h
  obtain ⟨phase, stack⟩ := s
  cases houter with
  | nil => exact hinner.derives he
  | cons => simp [State.result?] at he

/-! ## The language of the reader -/

theorem read_eq_ok_iff {text : String} {e : TypeExpression} :
    read text = .ok e ↔ Derives text.toList e := by
  rw [read_eq_ok]
  constructor
  · rintro ⟨last, hsteps, hlast⟩
    simpa using (State.spells_start.steps hsteps).derives hlast
  · intro h
    obtain ⟨phase, hsteps, hphase⟩ := h.steps []
    exact ⟨_, hsteps, hphase⟩

/-- The characters of a text derive one expression at most. -/
theorem Derives.unique {l : List Char} {e f : TypeExpression} (he : Derives l e)
    (hf : Derives l f) : e = f := by
  have hread : ∀ {g}, Derives l g → read (String.ofList l) = .ok g := fun hg =>
    read_eq_ok_iff.2 (by simpa using hg)
  exact Except.ok.inj ((hread he).symm.trans (hread hf))

end ClassDiagram.TypeExpression
