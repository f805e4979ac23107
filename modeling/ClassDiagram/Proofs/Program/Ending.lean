import ClassDiagram.Program
import ClassDiagram.Proofs.Outcome
/-!
# How runs end

Most runs are for one line, which they write at their very end. So a run either breaks down before,
or what it leaves apart from messages is what the place of the line has taken of it. The exit code
tells whether that is all of it, and whether a failure could be told of.
-/

namespace ClassDiagram

namespace Surroundings

/-- The place takes all of the text. -/
def Takes (s : Surroundings) (place : Place) (text : String) : Prop :=
  s.writing place text = .whole

/-- The place takes the first bytes of the text and no more. -/
def Cuts (s : Surroundings) (place : Place) (text : String) (length : Nat) : Prop :=
  ∃ fault, s.writing place text = .cut length fault

/-- Messages are taken. -/
def Hears (s : Surroundings) : Prop := ∀ text, s.Takes (.stream .messages) text

/-- Both streams take what is written to them. -/
def HasStreams (s : Surroundings) : Prop := ∀ stream text, s.Takes (.stream stream) text

variable {s : Surroundings} {place : Place} {text : String}

theorem HasStreams.hears (h : s.HasStreams) : s.Hears := h .messages

theorem result_eq_ok : (s.writing place text).result = .ok () ↔ s.Takes place text := by
  unfold Takes
  cases s.writing place text <;> simp [Writing.result]

theorem place_of_mem_effects {e : Effect} (he : e ∈ s.effects place text) : e.place = place := by
  unfold effects at he
  cases hw : s.writing place text <;> simp_all [Writing.effects]

theorem Takes.effects_eq (h : s.Takes place text) :
    s.effects place text = [⟨place, text.toUTF8⟩] := by
  rw [effects, h, Writing.effects]

end Surroundings

namespace Program

/-- There is nothing but messages among the effects. -/
def OnlyMessages (effects : List Effect) : Prop := ∀ e ∈ effects, e.place = .stream .messages

variable {s : Surroundings} {effects : List Effect} {place : Place} {line : String}

theorem onlyMessages_effects (s : Surroundings) (text : String) :
    OnlyMessages (s.effects (.stream .messages) text) := fun _ => s.place_of_mem_effects

theorem OnlyMessages.append {effects' : List Effect} (h : OnlyMessages effects)
    (h' : OnlyMessages effects') : OnlyMessages (effects ++ effects') := by
  intro e he
  exact (List.mem_append.1 he).elim (h e) (h' e)

theorem OnlyMessages.output_eq (h : OnlyMessages effects) (exitCode : Nat) :
    Outcome.output ⟨exitCode, effects⟩ = [] := by
  unfold OnlyMessages at h
  simpa [Outcome.output, List.filter_eq_nil_iff] using h

/-- The output is what it is of all effects; the exit code does not matter to it. -/
theorem output_append (exitCode exitCode' : Nat) (effects effects' : List Effect) :
    Outcome.output ⟨exitCode, effects ++ effects'⟩ =
      Outcome.output ⟨exitCode', effects⟩ ++ Outcome.output ⟨exitCode', effects'⟩ :=
  List.filter_append ..

/-! ## Ends of any kind -/

/-- Whatever is told at the end, the output is there before. -/
theorem output_die (p : Panic) : (die s p effects).output = Outcome.output ⟨101, effects⟩ := by
  rw [die, output_append 101 101, (onlyMessages_effects s _).output_eq, List.append_nil]

theorem output_conclude (x : Except Breakdown Unit) (exitCode : Nat) :
    (conclude s effects x).output = Outcome.output ⟨exitCode, effects⟩ := by
  unfold conclude
  split
  · rfl
  · exact output_die _
  next b _ =>
    have htold : Outcome.output ⟨1, effects ++ s.effects (.stream .messages) (b.text ++ "\n")⟩ =
        Outcome.output ⟨exitCode, effects⟩ := by
      rw [output_append 1 exitCode, (onlyMessages_effects s _).output_eq, List.append_nil]
    dsimp only
    split
    · exact htold
    · exact (output_die _).trans htold

theorem exitCode_conclude_eq_zero {x : Except Breakdown Unit} :
    (conclude s effects x).exitCode = 0 ↔ x = .ok () := by
  unfold conclude
  split
  · simp
  · simp [die]
  · dsimp only
    split <;> simp [die]

/-- The end of a run that has come to its line, or to a breakdown before. -/
def ended (s : Surroundings) (place : Place) (broken : IoFault → Breakdown)
    (effects : List Effect) : Except Breakdown String → Outcome
  | .ok line => conclude s (effects ++ s.effects place (line ++ "\n"))
      ((s.writing place (line ++ "\n")).result.mapError broken)
  | .error b => conclude s effects (.error b)

variable {broken : IoFault → Breakdown} {x : Except Breakdown String}

theorem exitCode_ended_eq_zero : (ended s place broken effects x).exitCode = 0 ↔
    ∃ line, x = .ok line ∧ s.Takes place (line ++ "\n") := by
  cases x with
  | error b => simp [ended, exitCode_conclude_eq_zero]
  | ok line =>
    simp [ended, exitCode_conclude_eq_zero, Except.mapError_eq_ok, s.result_eq_ok]

section

variable (hplace : place ≠ .stream .messages) (heffects : OnlyMessages effects)

include hplace heffects

theorem output_ended_ok :
    (ended s place broken effects (.ok line)).output = s.effects place (line ++ "\n") := by
  have hall : ∀ e ∈ s.effects place (line ++ "\n"), e.place ≠ .stream .messages := by
    intro e he
    rwa [s.place_of_mem_effects he]
  rw [ended, output_conclude _ 0, output_append 0 0, heffects.output_eq, List.nil_append,
    Outcome.output, List.filter_eq_self]
  simpa using hall

/-- A run succeeds with a line exactly if it has come to it and the place takes it. -/
theorem ended_eq_ok : (ended s place broken effects x).exitCode = 0 ∧
    (ended s place broken effects x).output = [⟨place, (line ++ "\n").toUTF8⟩] ↔
      x = .ok line ∧ s.Takes place (line ++ "\n") := by
  rw [exitCode_ended_eq_zero]
  constructor
  · rintro ⟨⟨line', rfl, htakes⟩, hout⟩
    rw [output_ended_ok hplace heffects, htakes.effects_eq] at hout
    obtain rfl : line' = line := by
      simpa [String.toByteArray_inj, String.append_left_inj] using hout
    exact ⟨rfl, htakes⟩
  · rintro ⟨rfl, htakes⟩
    exact ⟨⟨line, rfl, htakes⟩, by rw [output_ended_ok hplace heffects, htakes.effects_eq]⟩

end

end Program

end ClassDiagram
