import ClassDiagram.Proofs.TypeExpression.Reading
/-!
# Refused texts

What the reader says of a text that it refuses. A text is viable if some type expression begins with
it. The characters that the reader has taken are viable at every moment, because brackets that are
open can always be closed, and once a character cannot stand where it does, no text that goes on
behind it is a type expression.
-/

namespace ClassDiagram.TypeExpression

/-- Some type expression begins with the text, or is the text. -/
def Viable (text : String) : Prop := ∃ rest e, read (text ++ rest) = .ok e

/-- The character that is expected, where it is one only. -/
def Expectation.character? : Expectation → Option Char
  | openBracket => some '<'
  | comma => some ','
  | closeBracket => some '>'
  | nameCharacter | endOfText => none

/-! ## Going on -/

/-- Behind a finished expression every bracket that is open can be closed. -/
theorem State.exists_rest_of_expression (stack : List Opened) {phase : Phase} {e : TypeExpression}
    (he : phase.expression? = some e) :
    ∃ l last, State.steps ⟨phase, stack⟩ l = some last ∧ last.result?.isSome := by
  induction stack generalizing phase e with
  | nil => exact ⟨[], _, rfl, by simp [result?, he]⟩
  | cons o outer ih =>
    have hclosed : Phase.expression? (.closed (.node o.name (e :: o.finished).reverse)) =
        some (.node o.name (e :: o.finished).reverse) := rfl
    obtain ⟨l, last, hl, hlast⟩ := ih hclosed
    refine ⟨'>' :: l, last, ?_, hlast⟩
    simpa [steps, step, close?, he] using hl

/-- Every state can be gone on from to an expression. -/
theorem State.exists_rest (s : State) :
    ∃ l last, s.steps l = some last ∧ last.result?.isSome := by
  obtain ⟨phase, stack⟩ := s
  cases he : phase.expression? with
  | some e => exact exists_rest_of_expression stack he
  | none =>
    obtain rfl : phase = .blank := by cases phase <;> simp_all [Phase.expression?]
    -- Any name will do.
    have hname : Phase.expression? (.naming ['T']) = some (.node "T" []) := rfl
    obtain ⟨l, last, hl, hlast⟩ := exists_rest_of_expression stack hname
    refine ⟨'T' :: l, last, ?_, hlast⟩
    simpa [steps, step, Text.isBlank] using hl

theorem viable_iff {text : String} : Viable text ↔ (State.start.steps text.toList).isSome := by
  rw [Option.isSome_iff_exists]
  constructor
  · rintro ⟨rest, e, hread⟩
    obtain ⟨last, hlast, -⟩ := read_eq_ok.1 hread
    rw [String.toList_append, State.steps_append] at hlast
    obtain ⟨s, hs, -⟩ := Option.bind_eq_some_iff.1 hlast
    exact ⟨s, hs⟩
  · rintro ⟨s, hs⟩
    obtain ⟨l, last, hl, hlast⟩ := s.exists_rest
    obtain ⟨e, he⟩ := Option.isSome_iff_exists.1 hlast
    refine ⟨String.ofList l, e, read_eq_ok.2 ⟨last, ?_, he⟩⟩
    rw [String.toList_append, String.toList_ofList, State.steps_append, hs]
    exact hl

/-! ## What could stand next -/

section Expected

variable {s : State} {c : Char}

theorem State.mem_expected_iff {x : Expectation} (hx : x.character? = some c) :
    x ∈ s.expected ↔ (s.step c).isSome := by
  obtain ⟨phase, stack⟩ := s
  cases x <;> cases hx <;> cases phase <;> cases stack <;>
    simp [expected, follow, step, open?, next?, close?, Phase.name?, Phase.expression?]

theorem State.nameCharacter_mem_expected_iff (hc : endsName c = false)
    (hblank : Text.isBlank c = false) : .nameCharacter ∈ s.expected ↔ (s.step c).isSome := by
  obtain ⟨phase, stack⟩ := s
  obtain ⟨h₁, h₂, h₃⟩ := ne_of_not_endsName hc
  cases phase <;> cases stack <;> simp [expected, follow, step, h₁, h₂, h₃, hc, hblank]

theorem State.endOfText_mem_expected_iff : .endOfText ∈ s.expected ↔ s.result?.isSome := by
  obtain ⟨phase, stack⟩ := s
  cases phase <;> cases stack <;> simp [expected, follow, result?, Phase.expression?]

end Expected

/-! ## The place of a fault -/

/-- A fault stands behind the characters that could be taken. -/
theorem State.of_run_eq_error {s : State} {index : Nat} {l : List Char} {f : Fault}
    (hf : s.run index l = .error f) :
    ∃ front rest last, l = front ++ rest ∧ s.steps front = some last ∧
      (∀ c ∈ rest.head?, last.step c = none) ∧
      f = ⟨rest.head?, last.expected, index + (String.ofList front).utf8ByteSize⟩ := by
  induction l generalizing s index with
  | nil =>
    cases hresult : s.result? with
    | some e => simp [run, hresult] at hf
    | none => exact ⟨[], [], s, by simp_all [run, steps]⟩
  | cons c l ih =>
    cases hstep : s.step c with
    | none => exact ⟨[], c :: l, s, by simp_all [run, steps]⟩
    | some next =>
      obtain ⟨front, rest, last, rfl, hsteps, hnone, rfl⟩ :=
        ih (by simpa [run, hstep] using hf)
      refine ⟨c :: front, rest, last, by simp, by simp [steps, hstep, hsteps], hnone, ?_⟩
      rw [String.ofList_cons, String.utf8ByteSize_append, String.utf8ByteSize_singleton,
        Nat.add_assoc]

/-- What the fault of a refused text has to tell, said without the reader's states: `front` is the
longest viable beginning of the text, and `rest` is what follows it. -/
structure Fault.PointsBetween (f : Fault) (front rest text : String) : Prop where
  text_eq : text = front ++ rest
  viable : Viable front
  longest : ∀ front' rest', text = front' ++ rest' → Viable front' →
    front'.utf8ByteSize ≤ front.utf8ByteSize
  index_eq : f.index = front.utf8ByteSize
  found_eq : f.found = rest.toList.head?
  character_mem_iff : ∀ x c, x.character? = some c → (x ∈ f.expected ↔ Viable (front.push c))
  nameCharacter_mem_iff : ∀ c, endsName c = false → Text.isBlank c = false →
    (.nameCharacter ∈ f.expected ↔ Viable (front.push c))
  endOfText_mem_iff : .endOfText ∈ f.expected ↔ ∃ e, read front = .ok e

/-- No beginning of a text is viable that goes on where a character cannot stand. -/
theorem prefix_of_viable {front rest : List Char} {last : State}
    (hfront : State.start.steps front = some last) (hlast : ∀ c ∈ rest.head?, last.step c = none)
    {front' : String} (hbegins : front'.toList <+: front ++ rest) (hviable : Viable front') :
    front'.toList <+: front := by
  rcases List.prefix_or_prefix_of_prefix hbegins (List.prefix_append front rest) with h | h
  · exact h
  obtain ⟨more, hmore⟩ := h
  cases more with
  | nil => simp [← hmore]
  | cons c more =>
    have hc : rest.head? = some c := by
      rw [← hmore, List.prefix_append_right_inj] at hbegins
      obtain ⟨rest', rfl⟩ := hbegins
      rfl
    rw [viable_iff, ← hmore, State.steps_append, hfront] at hviable
    simp [State.steps, hlast c hc] at hviable

theorem exists_pointsBetween {text : String} {f : Fault} (hf : read text = .error f) :
    ∃ front rest, f.PointsBetween front rest text := by
  obtain ⟨front, rest, last, htext, hfront, hlast, rfl⟩ := State.of_run_eq_error hf
  have hviable : ∀ c, Viable ((String.ofList front).push c) ↔ (last.step c).isSome := by
    intro c
    rw [viable_iff, String.toList_push, String.toList_ofList, State.steps_append, hfront]
    simp [State.steps]
  refine ⟨String.ofList front, String.ofList rest, ?_, ?_, ?_, ?_, ?_, ?_, ?_, ?_⟩
  · rw [← String.ofList_append, ← htext, String.ofList_toList]
  · simp [viable_iff, hfront]
  · rintro front' rest' rfl hfront'
    have hbegins : front'.toList <+: front ++ rest := by simp [← htext]
    obtain ⟨more, rfl⟩ := prefix_of_viable hfront hlast hbegins hfront'
    simp [String.ofList_append]
  · simp
  · simp
  · intro x c hx
    rw [hviable, State.mem_expected_iff hx]
  · intro c hc hblank
    rw [hviable, State.nameCharacter_mem_expected_iff hc hblank]
  · rw [State.endOfText_mem_expected_iff, Option.isSome_iff_exists]
    simp [read_eq_ok, hfront]

end ClassDiagram.TypeExpression
