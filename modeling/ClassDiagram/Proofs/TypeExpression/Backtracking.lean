import ClassDiagram.Proofs.TypeExpression.Refusal
import Mathlib.Data.List.TakeWhile
/-!
# Reading with second thoughts

A reader of type expressions that is put together from small readers. Each of them takes characters
or fails, and what fails is taken back where the grammar leaves a choice: arguments that cannot be
read to their end are given up together with their bracket, and so is a comma that no expression
follows. The reader so ends up at a place before the mistake; what it reports is the furthest of all
the failures on the way, those at the same place put together.

```text
expression ::= padded (name [ arguments ])
arguments  ::= padded "<" expression (padded "," expression)* ">"
```

Main statements: this reader and the automaton agree on every text, on the expression of an accepted
one and on the fault of a refused one; and both accept exactly what the grammar derives.
-/

namespace ClassDiagram.TypeExpression.Backtracking

/-! ## Small readers -/

/-- A place in a text: the number of the bytes before it, and the characters from there on. -/
structure Place where
  index : Nat
  rest : List Char

namespace Place

/-- The place behind a run of characters, as long as it can be. -/
def behind (p : Place) (test : Char → Bool) : Place where
  index := p.index + (String.ofList (p.rest.takeWhile test)).utf8ByteSize
  rest := p.rest.dropWhile test

/-- The place behind blanks. -/
def skip (p : Place) : Place := p.behind Text.isBlank

/-- The fault of finding none of what is expected at the place. -/
def fault (p : Place) (expected : List Expectation) : Fault := ⟨p.rest.head?, expected, p.index⟩

end Place

/-- The furthest failure, after one more failure at a place. -/
def note (f : Fault) (p : Place) (x : Expectation) : Fault :=
  if f.index < p.index then p.fault [x]
  else if f.index = p.index ∧ x ∉ f.expected then { f with expected := f.expected ++ [x] }
  else f

/-- What a reader comes to: a result and the place behind it, unless it fails, and the furthest
failure so far. -/
structure Attempt (α : Type) where
  result : Option (α × Place)
  fault : Fault

namespace Attempt

variable {α β : Type}

/-- Goes on behind a result. -/
def andThen (x : Attempt α) (next : α → Place → Fault → Attempt β) : Attempt β :=
  match x.result with
  | some (a, p) => next a p x.fault
  | none => ⟨none, x.fault⟩

@[simp] theorem andThen_some (a : α) (p : Place) (f : Fault)
    (next : α → Place → Fault → Attempt β) :
    andThen ⟨some (a, p), f⟩ next = next a p f := rfl

@[simp] theorem andThen_none (f : Fault) (next : α → Place → Fault → Attempt β) :
    andThen ⟨none, f⟩ next = ⟨none, f⟩ := rfl

/-- Takes a failure back: nothing was read, up to the place. -/
def orNothing (x : Attempt α) (p : Place) : Attempt (Option α) :=
  match x.result with
  | some (a, q) => ⟨some (some a, q), x.fault⟩
  | none => ⟨some (none, p), x.fault⟩

end Attempt

/-- Reads one character. -/
def single (c : Char) (x : Expectation) (p : Place) (f : Fault) : Attempt Unit :=
  match p.rest with
  | d :: rest => if d = c then ⟨some ((), ⟨p.index + c.utf8Size, rest⟩), f⟩ else ⟨none, note f p x⟩
  | [] => ⟨none, note f p x⟩

/-- Reads one character with blanks around it. -/
def padded (c : Char) (x : Expectation) (p : Place) (f : Fault) : Attempt Unit :=
  (single c x p.skip f).andThen fun _ q f => ⟨some ((), q.skip), f⟩

/-- Reads a name, of as many characters as it can have. -/
def name (p : Place) (f : Fault) : Attempt String :=
  let q := p.behind (!endsName ·)
  match p.rest.takeWhile (!endsName ·) with
  | [] => ⟨none, note f q .nameCharacter⟩
  | c :: l => ⟨some (String.ofList (c :: l), q), note f q .nameCharacter⟩

mutual

/-- Reads an expression with blanks around it. The depth bounds the brackets and commas. -/
def expression : Nat → Place → Fault → Attempt TypeExpression
  | 0, _, f => ⟨none, f⟩
  | depth + 1, p, f =>
    (name p.skip f).andThen fun n p f =>
      ((arguments depth p f).orNothing p).andThen fun as p f =>
        ⟨some (.node n (as.getD []), p.skip), f⟩

/-- Reads arguments with their brackets. -/
def arguments : Nat → Place → Fault → Attempt (List TypeExpression)
  | 0, _, f => ⟨none, f⟩
  | depth + 1, p, f =>
    (padded '<' .openBracket p f).andThen fun _ p f =>
      (expression depth p f).andThen fun e p f =>
        (more depth [e] p f).andThen fun es p f =>
          (single '>' .closeBracket p f).andThen fun _ p f => ⟨some (es, p), f⟩

/-- Reads what follows the arguments `es`, which are in reverse: any number of commas, each with an
argument behind it. -/
def more : Nat → List TypeExpression → Place → Fault → Attempt (List TypeExpression)
  | 0, _, _, f => ⟨none, f⟩
  | depth + 1, es, p, f =>
    let next := (padded ',' .comma p f).andThen fun _ p f => expression depth p f
    match next.result with
    | some (e, q) => more depth (e :: es) q next.fault
    | none => ⟨some (es.reverse, p), next.fault⟩

end

/-- Reads a text that is one expression. -/
def read (text : String) : Except Fault TypeExpression :=
  let start : Place := ⟨0, text.toList⟩
  let x := expression (text.toList.length + 1) start (start.fault [])
  match x.result with
  | some (e, p) => if p.rest.isEmpty then .ok e else .error (note x.fault p .endOfText)
  | none => .error x.fault

/-! ## Places -/

namespace Place

variable {p q : Place} {test : Char → Bool}

theorem behind_eq_self (h : p.rest.takeWhile test = []) : p.behind test = p := by
  have hdrop : p.rest.dropWhile test = p.rest := by
    simpa [h] using List.takeWhile_append_dropWhile (p := test) (l := p.rest)
  simp [behind, h, hdrop]

theorem index_lt_behind (h : p.rest.takeWhile test ≠ []) : p.index < (p.behind test).index := by
  obtain ⟨c, l, hl⟩ := List.exists_cons_of_ne_nil h
  simp only [behind, hl, String.ofList_cons, String.utf8ByteSize_append,
    String.utf8ByteSize_singleton]
  have := c.utf8Size_pos
  omega

theorem length_behind_lt (h : p.rest.takeWhile test ≠ []) :
    (p.behind test).rest.length < p.rest.length := by
  have hlength := congrArg List.length (List.takeWhile_append_dropWhile (p := test) (l := p.rest))
  have hpos := List.length_pos_of_ne_nil h
  simp only [List.length_append, behind] at hlength ⊢
  omega

theorem behind_eq_or_lt (p : Place) (test : Char → Bool) :
    p.behind test = p ∨ p.index < (p.behind test).index := by
  by_cases h : p.rest.takeWhile test = []
  · exact .inl (behind_eq_self h)
  · exact .inr (index_lt_behind h)

theorem index_le_behind (p : Place) (test : Char → Bool) : p.index ≤ (p.behind test).index :=
  Nat.le_add_right ..

theorem head_behind (p : Place) (test : Char → Bool) :
    ∀ c ∈ (p.behind test).rest.head?, test c = false := by
  intro c hc
  have hhead := List.head?_dropWhile_not test p.rest
  rwa [show (p.rest.dropWhile test).head? = some c from hc] at hhead

theorem behind_of_head (h : ∀ c ∈ p.rest.head?, test c = false) : p.behind test = p := by
  obtain ⟨index, rest⟩ := p
  cases rest with
  | nil => rfl
  | cons c rest => simp [behind, h c rfl]

theorem length_behind_le (p : Place) (test : Char → Bool) :
    (p.behind test).rest.length ≤ p.rest.length := (List.dropWhile_suffix test).length_le

/-- If a name ends at the place, it does so also if there are blanks. -/
theorem stopsName_takeWhile (p : Place) (hp : StopsName p.rest) :
    StopsName (p.rest.takeWhile test) := by
  intro c hc
  refine hp c ?_
  cases hrest : p.rest with
  | nil => simp [hrest] at hc
  | cons d rest =>
    rw [hrest, List.takeWhile_cons] at hc
    split at hc <;> simp_all

end Place

/-! ## Furthest failures -/

/-- The furthest failure is one of what is expected at the place, or one before the place if nothing
is. -/
def Trails (f : Fault) (p : Place) (expected : List Expectation) : Prop :=
  f = p.fault expected ∨ f.index < p.index ∧ expected = []

variable {f : Fault} {p q : Place} {expected : List Expectation} {x : Expectation}

theorem Trails.index_le (h : Trails f p expected) : f.index ≤ p.index := by
  rcases h with rfl | ⟨h, -⟩
  · exact Nat.le_refl _
  · exact Nat.le_of_lt h

theorem Trails.of_lt (h : Trails f p expected) (hq : p.index < q.index) : Trails f q [] :=
  .inr ⟨Nat.lt_of_le_of_lt h.index_le hq, rfl⟩

theorem Trails.behind (h : Trails f p []) (test : Char → Bool) : Trails f (p.behind test) [] := by
  rcases p.behind_eq_or_lt test with heq | hlt
  · rwa [heq]
  · exact h.of_lt hlt

theorem Trails.note (h : Trails f p expected) (hx : x ∉ expected) :
    note f p x = p.fault (expected ++ [x]) := by
  rcases h with rfl | ⟨h, rfl⟩
  · simp [Backtracking.note, Place.fault, hx]
  · simp [Backtracking.note, h]

theorem note_of_lt (h : p.index < f.index) : note f p x = f := by
  simp [note, Nat.not_lt.2 (Nat.le_of_lt h), Nat.ne_of_gt h]

/-! ## The automaton at a place -/

/-- What the automaton comes to from a place on. -/
def runAt (s : State) (p : Place) : Except Fault TypeExpression := s.run p.index p.rest

theorem run_append {s t : State} {l m : List Char} (h : s.steps l = some t) (index : Nat) :
    s.run index (l ++ m) = t.run (index + (String.ofList l).utf8ByteSize) m := by
  induction l generalizing s index with
  | nil =>
    obtain rfl := Option.some.inj h
    simp
  | cons c l ih =>
    obtain ⟨next, hnext, h⟩ := Option.bind_eq_some_iff.1 h
    rw [List.cons_append, State.run, hnext, String.ofList_cons, String.utf8ByteSize_append,
      String.utf8ByteSize_singleton, ← Nat.add_assoc]
    exact ih h _

theorem runAt_behind {s t : State} {test : Char → Bool}
    (h : s.steps (p.rest.takeWhile test) = some t) : runAt s p = runAt t (p.behind test) := by
  have hrun := run_append (m := p.rest.dropWhile test) h p.index
  rwa [List.takeWhile_append_dropWhile] at hrun

theorem runAt_skip {s : State} (hs : ∀ reversed, s.phase ≠ .naming reversed) :
    runAt s p = runAt s p.skip :=
  runAt_behind (steps_blanks hs fun _ => List.mem_takeWhile_imp)

theorem runAt_cons {s next : State} {c : Char} {rest : List Char} {index : Nat}
    (h : s.step c = some next) :
    runAt s ⟨index, c :: rest⟩ = runAt next ⟨index + c.utf8Size, rest⟩ := by
  simp [runAt, State.run, h]

/-- Where nothing that is left can stand, the fault is that of the place. -/
theorem runAt_eq_error {s : State} (hnil : p.rest = [] → s.result? = none)
    (hcons : ∀ c ∈ p.rest.head?, s.step c = none) : runAt s p = .error (p.fault s.expected) := by
  obtain ⟨index, rest⟩ := p
  cases rest with
  | nil => simp [runAt, State.run, hnil rfl, Place.fault]
  | cons c rest => simp [runAt, State.run, hcons c rfl, Place.fault]

/-! ## How the readers come out -/

/-- What may stand next in the phase, apart from what may follow an expression. -/
def ownExpected : Phase → List Expectation
  | .blank => [.nameCharacter]
  | .naming _ => [.nameCharacter, .openBracket]
  | .named _ => [.openBracket]
  | .closed _ => []

/-- An expression that has come to its end at the place: only what follows an expression can stand
there, and the furthest failure is that of going on with the expression. -/
structure Ends (e : TypeExpression) (phase : Phase) (p : Place) (f : Fault) : Prop where
  expression : phase.expression? = some e
  not_blank : ∀ c ∈ p.rest.head?, Text.isBlank c = false
  halts : ∀ c ∈ p.rest.head?, c ≠ ',' → c ≠ '>' → ∀ stack, State.step ⟨phase, stack⟩ c = none
  trails : Trails f p (ownExpected phase)

/-- How reading an expression at a place comes out, as against the automaton with the brackets of
`stack` open. -/
inductive ExpressionOutcome (stack : List Opened) (p : Place) : Attempt TypeExpression → Prop
  /-- The automaton comes to the end of the same expression. -/
  | settled {e : TypeExpression} {q : Place} {phase : Phase} {f : Fault} :
    runAt ⟨.blank, stack⟩ p = runAt ⟨phase, stack⟩ q → Ends e phase q f →
      q.rest.length < p.rest.length → ExpressionOutcome stack p ⟨some (e, q), f⟩
  /-- The automaton fails further on, and the reader has gone back to a bracket. -/
  | doomed {e : TypeExpression} {q : Place} {f : Fault} :
    runAt ⟨.blank, stack⟩ p = .error f → q.rest.head? = some '<' → q.index < f.index →
      ExpressionOutcome stack p ⟨some (e, q), f⟩
  | failed {f : Fault} :
    runAt ⟨.blank, stack⟩ p = .error f → ExpressionOutcome stack p ⟨none, f⟩

/-- How reading arguments comes out directly behind a name. -/
inductive ArgumentsOutcome (l : List Char) (stack : List Opened) (p : Place) :
    Attempt (List TypeExpression) → Prop
  | absent : (∀ c ∈ p.skip.rest.head?, c ≠ '<') →
    ArgumentsOutcome l stack p ⟨none, note (p.fault [.nameCharacter]) p.skip .openBracket⟩
  | settled {as : List TypeExpression} {q : Place} {f : Fault} :
    runAt ⟨.naming l.reverse, stack⟩ p = runAt ⟨.closed (.node (String.ofList l) as), stack⟩ q →
      Trails f q [] → q.rest.length < p.rest.length →
      ArgumentsOutcome l stack p ⟨some (as, q), f⟩
  | doomed {f : Fault} :
    runAt ⟨.naming l.reverse, stack⟩ p = .error f → p.skip.rest.head? = some '<' →
      p.skip.index < f.index → ArgumentsOutcome l stack p ⟨none, f⟩

/-- How reading more arguments comes out, behind an argument that ends in a phase. -/
inductive MoreOutcome (name : String) (finished : List TypeExpression) (outer : List Opened)
    (phase : Phase) (p : Place) : Attempt (List TypeExpression) → Prop
  /-- The automaton comes to the end of the last argument, and no comma follows. -/
  | settled {last : TypeExpression} {finished' : List TypeExpression} {phase' : Phase} {q : Place}
      {f g : Fault} :
    runAt ⟨phase, ⟨name, finished⟩ :: outer⟩ p = runAt ⟨phase', ⟨name, finished'⟩ :: outer⟩ q →
      Ends last phase' q g → (∀ c ∈ q.rest.head?, c ≠ ',') → f = note g q .comma →
      q.rest.length ≤ p.rest.length →
      MoreOutcome name finished outer phase p ⟨some ((last :: finished').reverse, q), f⟩
  /-- The automaton fails further on, and the reader has gone back to a bracket or a comma. -/
  | doomed {es : List TypeExpression} {q : Place} {c : Char} {f : Fault} :
    runAt ⟨phase, ⟨name, finished⟩ :: outer⟩ p = .error f → q.rest.head? = some c → c ≠ '>' →
      q.index < f.index → MoreOutcome name finished outer phase p ⟨some (es, q), f⟩

theorem expected_eq {phase : Phase} {stack : List Opened} {e : TypeExpression}
    (he : phase.expression? = some e) :
    State.expected ⟨phase, stack⟩ = ownExpected phase ++ State.follow ⟨phase, stack⟩ := by
  cases phase with
  | blank => simp [Phase.expression?] at he
  | _ => rfl

theorem comma_notMem (phase : Phase) : .comma ∉ ownExpected phase := by
  cases phase <;> simp [ownExpected]

theorem closeBracket_notMem (phase : Phase) : .closeBracket ∉ ownExpected phase := by
  cases phase <;> simp [ownExpected]

theorem endOfText_notMem (phase : Phase) : .endOfText ∉ ownExpected phase := by
  cases phase <;> simp [ownExpected]

/-- An expression with blanks behind it has come to its end. -/
theorem ends_skip {e : TypeExpression} {p : Place} {f : Fault} (hp : Trails f p []) :
    Ends e (.closed e) p.skip f where
  expression := rfl
  not_blank := p.head_behind _
  halts c hc h₂ h₃ stack := by
    have hblank : Text.isBlank c = false := p.head_behind _ c hc
    by_cases h₁ : c = '<'
    · simp [State.step, State.open?, Phase.name?, h₁]
    · simp [State.step, h₁, h₂, h₃, hblank]
  trails := hp.behind _

/-! ## The readers against the automaton -/

variable {depth : Nat} {stack : List Opened} {l : List Char}

/-- A text that no name begins is refused where the name should stand. -/
theorem runAt_eq_error_of_no_name (hp : ∀ c ∈ p.rest.head?, Text.isBlank c = false)
    (hname : p.rest.takeWhile (!endsName ·) = []) :
    runAt ⟨.blank, stack⟩ p = .error (p.fault [.nameCharacter]) := by
  refine runAt_eq_error (fun _ => by cases stack <;> rfl) fun c hc => ?_
  have hends : endsName c = true := by
    cases hrest : p.rest with
    | nil => simp [hrest] at hc
    | cons d rest =>
      obtain rfl : d = c := by simpa [hrest] using hc
      by_contra hgoes
      simp [hrest, List.takeWhile_cons, hgoes] at hname
  by_cases h₁ : c = '<'
  · simp [State.step, State.open?, Phase.name?, h₁]
  by_cases h₂ : c = ','
  · simp [State.step, State.next?, Phase.expression?, h₂]
  by_cases h₃ : c = '>'
  · simp [State.step, State.close?, Phase.expression?, h₃]
  -- Only a blank ends a name besides, and there is none.
  · exact absurd (isBlank_of_endsName hends h₁ h₂ h₃) (by simp [hp c hc])

/-- Blanks behind a name end it. -/
theorem steps_blanks_behind_name {run : List Char} (hne : run ≠ []) (hrun : Blanks run)
    (hstops : StopsName run) :
    State.steps ⟨.naming l.reverse, stack⟩ run = some ⟨.named (String.ofList l), stack⟩ := by
  cases run with
  | nil => exact absurd rfl hne
  | cons c run =>
    obtain ⟨h₁, h₂, h₃⟩ := ne_of_isBlank (hrun c List.mem_cons_self)
    have hstep : State.step ⟨.naming l.reverse, stack⟩ c =
        some ⟨.named (String.ofList l), stack⟩ := by
      simp [State.step, h₁, h₂, h₃, hstops c rfl, State.pause, nameOf]
    rw [State.steps, hstep]
    exact steps_blanks (by simp) fun d hd => hrun d (List.mem_cons_of_mem c hd)

/-- A name without a bracket behind it and the blanks after it has come to its end. -/
theorem ends_name (hp : StopsName p.rest)
    (hopen : ∀ c ∈ p.skip.rest.head?, c ≠ '<') :
    ∃ phase, runAt ⟨.naming l.reverse, stack⟩ p = runAt ⟨phase, stack⟩ p.skip ∧
      Ends (.node (String.ofList l) []) phase p.skip
        (note (p.fault [.nameCharacter]) p.skip .openBracket) := by
  rcases p.behind_eq_or_lt Text.isBlank with hsame | hlt
  · have hskip : p.skip = p := hsame
    rw [hskip] at hopen ⊢
    have hblank : ∀ c ∈ p.rest.head?, Text.isBlank c = false := by
      rw [← hskip]
      exact p.head_behind _
    refine ⟨.naming l.reverse, rfl, by simp [Phase.expression?, nameOf], hblank, ?_, .inl ?_⟩
    · intro c hc h₂ h₃ stack
      exact absurd (isBlank_of_endsName (hp c hc) (hopen c hc) h₂ h₃) (by simp [hblank c hc])
    · exact Trails.note (.inl rfl) (by simp)
  · have hstops : StopsName (p.rest.takeWhile Text.isBlank) := p.stopsName_takeWhile hp
    have hne : p.rest.takeWhile Text.isBlank ≠ [] := by
      intro hnil
      simp [Place.behind, hnil] at hlt
    have hsteps : State.steps ⟨.naming l.reverse, stack⟩ (p.rest.takeWhile Text.isBlank) =
        some ⟨.named (String.ofList l), stack⟩ :=
      steps_blanks_behind_name hne (fun _ => List.mem_takeWhile_imp) hstops
    refine ⟨.named (String.ofList l), runAt_behind hsteps, rfl, p.head_behind _, ?_, .inl ?_⟩
    · intro c hc h₂ h₃ stack
      have hblank : Text.isBlank c = false := p.head_behind _ c hc
      simp [State.step, hopen c hc, h₂, h₃, hblank]
    · exact Trails.note (.inr ⟨hlt, rfl⟩) (by simp)

/-! ### One character -/

theorem single_eq_some {c : Char} (hp : p.rest.head? = some c) :
    ∃ rest, p.rest = c :: rest ∧
      single c x p f = ⟨some ((), ⟨p.index + c.utf8Size, rest⟩), f⟩ := by
  obtain ⟨index, rest⟩ := p
  cases rest with
  | nil => simp at hp
  | cons d rest =>
    obtain rfl := Option.some.inj hp
    exact ⟨rest, rfl, by simp [single]⟩

theorem single_eq_none {c : Char} (hp : ∀ d ∈ p.rest.head?, d ≠ c) :
    single c x p f = ⟨none, note f p x⟩ := by
  obtain ⟨index, rest⟩ := p
  cases rest with
  | nil => rfl
  | cons d rest => simp [single, hp d rfl]

/-- A character with blanks around it is read, or it is not there and the failure is noted behind
the blanks. -/
theorem padded_cases (c : Char) (x : Expectation) (p : Place) (f : Fault) :
    (∃ rest q, p.skip.rest = c :: rest ∧ (⟨p.skip.index + c.utf8Size, rest⟩ : Place).skip = q ∧
      padded c x p f = ⟨some ((), q), f⟩ ∧ p.skip.index < q.index ∧
        q.rest.length < p.rest.length) ∨
    (∀ d ∈ p.skip.rest.head?, d ≠ c) ∧ padded c x p f = ⟨none, note f p.skip x⟩ := by
  by_cases hhead : p.skip.rest.head? = some c
  · obtain ⟨rest, hrest, hsingle⟩ := single_eq_some (x := x) (f := f) hhead
    refine .inl ⟨rest, _, hrest, rfl, by simp [padded, hsingle], ?_, ?_⟩
    · have hafter := Place.index_le_behind ⟨p.skip.index + c.utf8Size, rest⟩ Text.isBlank
      exact Nat.lt_of_lt_of_le (Nat.lt_add_of_pos_right c.utf8Size_pos) hafter
    · have hafter := Place.length_behind_le ⟨p.skip.index + c.utf8Size, rest⟩ Text.isBlank
      have hbefore : p.skip.rest.length ≤ p.rest.length := p.length_behind_le _
      rw [hrest, List.length_cons] at hbefore
      exact Nat.lt_of_le_of_lt hafter hbefore
  · have hnone : ∀ d ∈ p.skip.rest.head?, d ≠ c := by
      rintro d hd rfl
      exact hhead hd
    exact .inr ⟨hnone, by simp [padded, single_eq_none hnone]⟩

theorem index_le_of_runAt {s : State} (hf : runAt s p = .error f) : p.index ≤ f.index := by
  obtain ⟨front, rest, last, -, -, -, rfl⟩ := State.of_run_eq_error hf
  exact Nat.le_add_right ..

/-! ### More arguments -/

theorem more_of_some {es : List TypeExpression} {e : TypeExpression} {g : Fault}
    (h : (padded ',' .comma p f).andThen (fun _ p f => expression depth p f) = ⟨some (e, q), g⟩) :
    more (depth + 1) es p f = more depth (e :: es) q g := by
  simp only [more, h]

theorem more_of_none {es : List TypeExpression} {g : Fault}
    (h : (padded ',' .comma p f).andThen (fun _ p f => expression depth p f) = ⟨none, g⟩) :
    more (depth + 1) es p f = ⟨some (es.reverse, p), g⟩ := by
  simp only [more, h]

/-- At a bracket that was gone back to there is no comma, and the furthest failure is kept. -/
theorem more_at_bracket {es : List TypeExpression} (hp : p.rest.head? = some '<')
    (hf : p.index < f.index) : more (depth + 1) es p f = ⟨some (es.reverse, p), f⟩ := by
  have hskip : p.skip = p :=
    Place.behind_of_head (by simp [hp, show Text.isBlank '<' = false by decide])
  have hcomma : single ',' .comma p f = ⟨none, f⟩ := by
    rw [single_eq_none (by simp [hp]), note_of_lt hf]
  exact more_of_none (by simp [padded, hskip, hcomma])

theorem more_outcome {name : String} {finished : List TypeExpression} {e : TypeExpression}
    {phase : Phase}
    (hexpression : ∀ p f stack, p.rest.length < depth → Trails f p [] →
      ExpressionOutcome stack p (expression depth p f))
    (hmore : ∀ finished e phase p f, p.rest.length < depth → Ends e phase p f →
      MoreOutcome name finished stack phase p (more depth (e :: finished) p f))
    (hp : p.rest.length < depth + 1) (he : Ends e phase p f) :
    MoreOutcome name finished stack phase p (more (depth + 1) (e :: finished) p f) := by
  have hskip : p.skip = p := Place.behind_of_head he.not_blank
  have hcases := padded_cases ',' .comma p f
  rw [hskip] at hcases
  rcases hcases with ⟨rest, q, hrest, hq, hpadded, hlt, hlength⟩ | ⟨hnone, hpadded⟩
  · have hcomma : p.rest.head? = some ',' := by simp [hrest]
    have hrun : runAt ⟨phase, ⟨name, finished⟩ :: stack⟩ p =
        runAt ⟨.blank, ⟨name, e :: finished⟩ :: stack⟩ q := by
      rw [← hq, ← runAt_skip (by simp), ← runAt_cons (s := ⟨phase, ⟨name, finished⟩ :: stack⟩)
        (by simp [State.step, State.next?, he.expression]), ← hrest]
    have hnext := hexpression q f (⟨name, e :: finished⟩ :: stack) (by omega) (he.trails.of_lt hlt)
    generalize hx : expression depth q f = x at hnext
    have hand : (padded ',' .comma p f).andThen (fun _ p f => expression depth p f) = x := by
      rw [hpadded, ← hx, Attempt.andThen_some]
    cases hnext with
    | @settled e' q' phase' f' hrun' he' hlength' =>
      rw [more_of_some hand]
      have hrest := hmore (e :: finished) e' phase' q' f' (by omega) he'
      generalize more depth (e' :: e :: finished) q' f' = y at hrest
      cases hrest with
      | settled hrun'' he'' hnone hf hlength'' =>
        exact .settled ((hrun.trans hrun').trans hrun'') he'' hnone hf (by omega)
      | doomed hrun'' hhead hc hf =>
        exact .doomed ((hrun.trans hrun').trans hrun'') hhead hc hf
    | @doomed e' q' f' hrun' hhead hf' =>
      obtain ⟨d, rfl⟩ : ∃ d, depth = d + 1 := ⟨depth - 1, by omega⟩
      rw [more_of_some hand, more_at_bracket hhead hf']
      exact .doomed (hrun.trans hrun') hhead (by decide) hf'
    | @failed f' hrun' =>
      rw [more_of_none hand]
      exact .doomed (hrun.trans hrun') hcomma (by decide)
        (Nat.lt_of_lt_of_le hlt (index_le_of_runAt hrun'))
  · rw [more_of_none (g := note f p .comma) (by rw [hpadded, Attempt.andThen_none])]
    exact .settled rfl he hnone rfl (Nat.le_refl _)

/-! ### Arguments -/

/-- Behind a name and the blanks after it a bracket opens. -/
theorem runAt_open (hp : StopsName p.rest) {rest : List Char} (hrest : p.skip.rest = '<' :: rest) :
    runAt ⟨.naming l.reverse, stack⟩ p =
      runAt ⟨.blank, ⟨String.ofList l, []⟩ :: stack⟩ ⟨p.skip.index + '<'.utf8Size, rest⟩ := by
  obtain ⟨phase, hsteps, hname, -⟩ := steps_behind_name l stack (l := p.rest.takeWhile Text.isBlank)
    (fun _ => List.mem_takeWhile_imp) (p.stopsName_takeWhile hp)
  have hstep : State.step ⟨phase, stack⟩ '<' =
      some ⟨.blank, ⟨String.ofList l, []⟩ :: stack⟩ := by
    simp [State.step, State.open?, hname]
  calc runAt ⟨.naming l.reverse, stack⟩ p
      = runAt ⟨phase, stack⟩ p.skip := runAt_behind hsteps
    _ = runAt ⟨phase, stack⟩ ⟨p.skip.index, '<' :: rest⟩ := by rw [← hrest]
    _ = _ := runAt_cons hstep

/-- Arguments that have come to their end are closed, or else refused where they end. -/
theorem runAt_close (name : String) (finished : List TypeExpression) (stack : List Opened)
    {e : TypeExpression} {phase : Phase} (he : Ends e phase p f)
    (hcomma : ∀ c ∈ p.rest.head?, c ≠ ',') :
    (∃ rest, p.rest = '>' :: rest ∧ runAt ⟨phase, ⟨name, finished⟩ :: stack⟩ p =
        runAt ⟨.closed (.node name (e :: finished).reverse), stack⟩
          ⟨p.index + '>'.utf8Size, rest⟩) ∨
      (∀ c ∈ p.rest.head?, c ≠ '>') ∧ runAt ⟨phase, ⟨name, finished⟩ :: stack⟩ p =
        .error (note (note f p .comma) p .closeBracket) := by
  by_cases hclose : p.rest.head? = some '>'
  · obtain ⟨index, rest⟩ := p
    obtain ⟨rest, rfl⟩ : ∃ m, rest = '>' :: m := by
      cases rest with
      | nil => simp at hclose
      | cons c rest => exact ⟨rest, by simpa using hclose⟩
    exact .inl ⟨rest, rfl, runAt_cons (by simp [State.step, State.close?, he.expression])⟩
  · have hclose : ∀ c ∈ p.rest.head?, c ≠ '>' := by
      rintro c hc rfl
      exact hclose hc
    refine .inr ⟨hclose, ?_⟩
    rw [runAt_eq_error (fun _ => rfl) fun c hc => he.halts c hc (hcomma c hc) (hclose c hc) _,
      expected_eq he.expression, he.trails.note (comma_notMem phase),
      Trails.note (.inl rfl) (by simp [closeBracket_notMem])]
    simp [State.follow]

/-- Behind an open bracket, the arguments are read up to the closing one, or else the fault is the
automaton's. -/
theorem arguments_behind_bracket {n : String}
    (hexpression : ∀ p f stack, p.rest.length < depth → Trails f p [] →
      ExpressionOutcome stack p (expression depth p f))
    (hmore : ∀ finished e phase p f, p.rest.length < depth → Ends e phase p f →
      MoreOutcome n finished stack phase p (more depth (e :: finished) p f))
    (hp : p.rest.length < depth) (hf : Trails f p []) {x : Attempt (List TypeExpression)}
    (hx : x = (expression depth p f).andThen fun e p f =>
      (more depth [e] p f).andThen fun es p f =>
        (single '>' .closeBracket p f).andThen fun _ p f => ⟨some (es, p), f⟩) :
    (∃ as q f', x = ⟨some (as, q), f'⟩ ∧
      runAt ⟨.blank, ⟨n, []⟩ :: stack⟩ p = runAt ⟨.closed (.node n as), stack⟩ q ∧
      Trails f' q [] ∧ q.rest.length < p.rest.length) ∨
    ∃ f', x = ⟨none, f'⟩ ∧ runAt ⟨.blank, ⟨n, []⟩ :: stack⟩ p = .error f' := by
  subst hx
  have hfirst := hexpression p f (⟨n, []⟩ :: stack) hp hf
  generalize expression depth p f = x at hfirst
  cases hfirst with
  | failed hrun => exact .inr ⟨_, rfl, hrun⟩
  | @doomed e q f' hrun hhead hindex =>
    obtain ⟨d, rfl⟩ : ∃ d, depth = d + 1 := ⟨depth - 1, by omega⟩
    refine .inr ⟨f', ?_, hrun⟩
    rw [Attempt.andThen_some, more_at_bracket hhead hindex, Attempt.andThen_some,
      single_eq_none (by simp [hhead]), note_of_lt hindex, Attempt.andThen_none]
  | @settled e q phase f' hfirst he hlength =>
    rw [Attempt.andThen_some]
    have hothers := hmore [] e phase q f' (by omega) he
    generalize more depth [e] q f' = y at hothers
    cases hothers with
    | @doomed es q' c f'' hrun hhead hc hindex =>
      refine .inr ⟨f'', ?_, hfirst.trans hrun⟩
      rw [Attempt.andThen_some, single_eq_none (by simp [hhead, hc]), note_of_lt hindex,
        Attempt.andThen_none]
    | @settled last finished phase' q' f'' g hothers hlast hcomma hg hlength' =>
      subst hg
      rw [Attempt.andThen_some]
      rcases runAt_close n finished stack hlast hcomma with
        ⟨rest, hrest, hclose⟩ | ⟨hnone, hclose⟩
      · have hsingle : single '>' .closeBracket q' (note g q' .comma) =
            ⟨some ((), ⟨q'.index + '>'.utf8Size, rest⟩), note g q' .comma⟩ := by
          simp [single, hrest]
        have htrails : Trails (note g q' .comma) q' (ownExpected phase' ++ [.comma]) :=
          .inl (hlast.trails.note (comma_notMem phase'))
        refine .inl ⟨_, _, note g q' .comma, ?_, (hfirst.trans hothers).trans hclose, ?_, ?_⟩
        · rw [hsingle, Attempt.andThen_some]
        · exact htrails.of_lt (Nat.lt_add_of_pos_right '>'.utf8Size_pos)
        · simp only [hrest, List.length_cons] at hlength' ⊢
          omega
      · refine .inr ⟨note (note g q' .comma) q' .closeBracket, ?_,
          (hfirst.trans hothers).trans hclose⟩
        rw [single_eq_none hnone, Attempt.andThen_none]

theorem arguments_outcome
    (hexpression : ∀ p f stack, p.rest.length < depth → Trails f p [] →
      ExpressionOutcome stack p (expression depth p f))
    (hmore : ∀ name finished stack e phase p f, p.rest.length < depth → Ends e phase p f →
      MoreOutcome name finished stack phase p (more depth (e :: finished) p f))
    (hp : p.rest.length < depth + 1) (hstops : StopsName p.rest) :
    ArgumentsOutcome l stack p (arguments (depth + 1) p (p.fault [.nameCharacter])) := by
  rcases padded_cases '<' .openBracket p (p.fault [.nameCharacter]) with
    ⟨rest, q, hrest, hq, hpadded, hlt, hlength⟩ | ⟨hopen, hpadded⟩
  · have hrun : runAt ⟨.naming l.reverse, stack⟩ p =
        runAt ⟨.blank, ⟨String.ofList l, []⟩ :: stack⟩ q := by
      rw [runAt_open hstops hrest, ← hq, ← runAt_skip (by simp)]
    have htrails : Trails (p.fault [.nameCharacter]) q [] :=
      .inr ⟨Nat.lt_of_le_of_lt (p.index_le_behind _) hlt, rfl⟩
    rw [arguments, hpadded, Attempt.andThen_some]
    rcases arguments_behind_bracket hexpression (hmore (String.ofList l) · stack) (by omega)
        htrails rfl with ⟨as, q', f, hx, hrest', htrails', hlength'⟩ | ⟨f, hx, hrest'⟩
    · rw [hx]
      exact .settled (hrun.trans hrest') htrails' (by omega)
    · rw [hx]
      exact .doomed (hrun.trans hrest') (by simp [hrest])
        (Nat.lt_of_lt_of_le hlt (index_le_of_runAt hrest'))
  · simp only [arguments, hpadded]
    exact .absent hopen

/-! ### Expressions -/

theorem name_of_nil (hp : p.rest.takeWhile (!endsName ·) = []) :
    name p f = ⟨none, note f p .nameCharacter⟩ := by
  simp [name, hp, Place.behind_eq_self hp]

theorem name_of_ne {c : Char} (hp : p.rest.takeWhile (!endsName ·) = c :: l) :
    name p f = ⟨some (String.ofList (c :: l), p.behind (!endsName ·)),
      note f (p.behind (!endsName ·)) .nameCharacter⟩ := by
  simp [name, hp]

theorem isName_takeWhile (hp : ∀ c ∈ p.rest.head?, Text.isBlank c = false)
    (hname : p.rest.takeWhile (!endsName ·) ≠ []) :
    IsName (p.rest.takeWhile (!endsName ·)) where
  ne_nil := hname
  head_not_blank c hc := by
    cases hrest : p.rest with
    | nil => simp [hrest] at hc
    | cons d rest =>
      rw [hrest, List.takeWhile_cons] at hc
      split at hc <;> simp_all
  goes_on c hc := by simpa using List.mem_takeWhile_imp hc

theorem expression_outcome
    (harguments : ∀ l stack p, p.rest.length < depth → StopsName p.rest →
      ArgumentsOutcome l stack p (arguments depth p (p.fault [.nameCharacter])))
    (hp : p.rest.length < depth + 1) (hf : Trails f p []) :
    ExpressionOutcome stack p (expression (depth + 1) p f) := by
  have hblank : ∀ c ∈ p.skip.rest.head?, Text.isBlank c = false := p.head_behind _
  have hskip : runAt ⟨.blank, stack⟩ p = runAt ⟨.blank, stack⟩ p.skip := runAt_skip (by simp)
  have hbefore : p.skip.rest.length ≤ p.rest.length := p.length_behind_le _
  have htrails : Trails f p.skip [] := hf.behind _
  cases hname : p.skip.rest.takeWhile (!endsName ·) with
  | nil =>
    have hfault : note f p.skip .nameCharacter = p.skip.fault [.nameCharacter] :=
      htrails.note List.not_mem_nil
    simp only [expression, name_of_nil hname, Attempt.andThen, hfault]
    exact .failed (hskip.trans (runAt_eq_error_of_no_name hblank hname))
  | cons c l =>
    have hne : p.skip.rest.takeWhile (!endsName ·) ≠ [] := by simp [hname]
    have hlt := Place.index_lt_behind hne
    have hlength := Place.length_behind_lt hne
    have hstops : StopsName (p.skip.behind (!endsName ·)).rest := fun c hc => by
      simpa using p.skip.head_behind (!endsName ·) c hc
    have hisName : IsName (c :: l) := hname ▸ isName_takeWhile hblank hne
    have hrun : runAt ⟨.blank, stack⟩ p =
        runAt ⟨.naming (c :: l).reverse, stack⟩ (p.skip.behind (!endsName ·)) :=
      hskip.trans (runAt_behind (by rw [hname]; exact steps_name hisName))
    rw [expression, name_of_ne hname, Attempt.andThen_some]
    generalize p.skip.behind (!endsName ·) = q at *
    have hfault : note f q .nameCharacter = q.fault [.nameCharacter] :=
      (htrails.of_lt hlt).note List.not_mem_nil
    have hskipped : q.skip.rest.length ≤ q.rest.length := q.length_behind_le _
    have houtcome := harguments (c :: l) stack q (by omega) hstops
    rw [hfault]
    generalize arguments depth q (q.fault [.nameCharacter]) = x at houtcome
    cases houtcome with
    | absent hopen =>
      obtain ⟨phase, hrest, hends⟩ := ends_name hstops hopen
      exact .settled (hrun.trans hrest) hends (by omega)
    | @settled as q' f' hrest htrails hlength' =>
      have hskipped' : q'.skip.rest.length ≤ q'.rest.length := q'.length_behind_le _
      exact .settled ((hrun.trans hrest).trans (runAt_skip (by simp))) (ends_skip htrails)
        (by omega)
    | doomed hrest hhead hindex => exact .doomed (hrun.trans hrest) hhead hindex

/-! ### Whole texts -/

/-- With enough depth each reader comes out as it should. -/
theorem outcomes (depth : Nat) :
    (∀ p f stack, p.rest.length < depth → Trails f p [] →
      ExpressionOutcome stack p (expression depth p f)) ∧
    (∀ l stack p, p.rest.length < depth → StopsName p.rest →
      ArgumentsOutcome l stack p (arguments depth p (p.fault [.nameCharacter]))) ∧
    (∀ name finished stack e phase p f, p.rest.length < depth → Ends e phase p f →
      MoreOutcome name finished stack phase p (more depth (e :: finished) p f)) := by
  induction depth with
  | zero => simp
  | succ depth ih =>
    obtain ⟨hexpression, harguments, hmore⟩ := ih
    refine ⟨fun p f stack => ?_, fun l stack p => ?_, fun name finished stack e phase p f => ?_⟩
    · exact expression_outcome harguments
    · exact arguments_outcome hexpression hmore
    · exact more_outcome hexpression (hmore name · stack)

/-- With no bracket open, the automaton stops where an expression has come to its end. -/
theorem runAt_end {e : TypeExpression} {phase : Phase} (he : Ends e phase p f) :
    runAt ⟨phase, []⟩ p =
      if p.rest.isEmpty then .ok e else .error (note f p .endOfText) := by
  by_cases hrest : p.rest = []
  · simp [runAt, hrest, State.run, State.result?, he.expression]
  · have hnone : ∀ c ∈ p.rest.head?, State.step ⟨phase, []⟩ c = none := by
      intro c hc
      by_cases h₂ : c = ','
      · simp [h₂, State.step, State.next?]
      by_cases h₃ : c = '>'
      · simp [h₃, State.step, State.close?]
      exact he.halts c hc h₂ h₃ []
    rw [runAt_eq_error (fun h => absurd h hrest) hnone, expected_eq he.expression,
      he.trails.note (endOfText_notMem phase)]
    simp [hrest, State.follow]

theorem read_eq (text : String) : read text = TypeExpression.read text := by
  have houtcome := (outcomes (text.toList.length + 1)).1 ⟨0, text.toList⟩ _ []
    (Nat.lt_succ_self _) (.inl rfl)
  have hread : TypeExpression.read text = runAt ⟨.blank, []⟩ ⟨0, text.toList⟩ := rfl
  simp only [read]
  generalize expression (text.toList.length + 1) ⟨0, text.toList⟩
    (Place.fault ⟨0, text.toList⟩ []) = x at houtcome
  cases houtcome with
  | failed hrun => exact (hread.trans hrun).symm
  | @doomed e q f hrun hhead hindex =>
    have hrest : q.rest.isEmpty = false := by
      cases h : q.rest <;> simp_all
    simp only [hrest, note_of_lt hindex]
    exact (hread.trans hrun).symm
  | @settled e q phase f hrun hends hlength =>
    rw [hread, hrun, runAt_end hends]

/-- The fault of a refused text stands behind the longest beginning that a type expression can have,
however far before it the reader gives up. -/
theorem faults_point_at_the_first_wrong_place (text : String) :
    read text = TypeExpression.read text ∧
      ∀ f, read text = .error f → ∃ front rest, f.PointsBetween front rest text :=
  ⟨read_eq text, fun _ hf => exists_pointsBetween ((read_eq text).symm.trans hf)⟩

/-- The second argument is given up with its comma, and then the bracket before the first one, which
leaves the reader behind the second byte. The fault is that a name follows a name. -/
theorem fault_behind_given_up_arguments :
    read "é<ü, A B>" = .error ⟨some 'B', [.openBracket, .comma, .closeBracket], 9⟩ ∧
      ∃ front rest, Fault.PointsBetween ⟨some 'B', [.openBracket, .comma, .closeBracket], 9⟩
        front rest "é<ü, A B>" := by
  have hread : read "é<ü, A B>" = .error ⟨some 'B', [.openBracket, .comma, .closeBracket], 9⟩ := by
    rw [read_eq]
    rfl
  exact ⟨hread, (faults_point_at_the_first_wrong_place _).2 _ hread⟩

end ClassDiagram.TypeExpression.Backtracking

namespace ClassDiagram.TypeExpression

/-- The reader accepts exactly what the grammar derives, with the one expression that it derives,
and so does the one with second thoughts. An expression whose names are names is read back from
however it is laid out. -/
theorem reads_exactly_the_grammar :
    (∀ text e, read text = .ok e ↔ Derives text.toList e) ∧
      (∀ text e, Backtracking.read text = .ok e ↔ Derives text.toList e) ∧
      (∀ l e f, Derives l e → Derives l f → e = f) ∧
      ∀ e (layout : Layout), WellNamed e → (∀ way, (layout way).Proper) →
        read (String.ofList (render layout [] e)) = .ok e ∧
          Backtracking.read (String.ofList (render layout [] e)) = .ok e := by
  simp only [Backtracking.read_eq, and_self]
  refine ⟨fun text e => read_eq_ok_iff, fun text e => read_eq_ok_iff, fun l e f => Derives.unique,
    ?_⟩
  intro e layout he hl
  rw [read_eq_ok_iff, String.toList_ofList]
  exact derives_render hl [] e he

/-- Blanks of several kinds around the whole and around a second argument. -/
def airyLayout : Layout
  | [] => { before := [' ', '\u00a0'], behindName := [' '], behindBracket := ['\u3000'] }
  | [1] => { before := ['\u3000'], behindName := [' '] }
  | _ => {}

/-- Blanks that end no name belong to the name they stand in, and are left out before one. -/
theorem reads_padded :
    read " \u00a0List <Cat\u00a0,\u3000Dog >\u3000" =
        .ok (.node "List" [.node "Cat\u00a0" [], .node "Dog" []]) ∧
      Backtracking.read " \u00a0List <Cat\u00a0,\u3000Dog >\u3000" =
        .ok (.node "List" [.node "Cat\u00a0" [], .node "Dog" []]) := by
  have hl : ∀ way, (airyLayout way).Proper := by
    intro way
    unfold airyLayout
    split <;> constructor <;> decide
  have he : WellNamed (.node "List" [.node "Cat\u00a0" [], .node "Dog" []]) := by
    refine ⟨?_, ⟨?_, trivial⟩, ⟨?_, trivial⟩, trivial⟩ <;> decide
  exact reads_exactly_the_grammar.2.2.2 _ airyLayout he hl

end ClassDiagram.TypeExpression
