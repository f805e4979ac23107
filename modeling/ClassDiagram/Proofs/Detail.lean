import ClassDiagram.CommandLine.Command
/-!
# Details as sets

A detail has the groups that are put into it and no others, whether they come one by one or by
choices on the command line. The choice of all groups begins anew with the full set, which forgets
nothing: no choice ever takes a group out. The same holds where a detail is kept in a word with one
bit for each group.
-/

/-- If each step of a fold adds what it covers and takes nothing out, then the fold adds what any of
its steps covers. -/
theorem List.foldl_adds_iff {α β σ : Type} {add : σ → α → σ} {contains : σ → β → Bool}
    {covers : α → β → Prop}
    (hadd : ∀ s a b, contains (add s a) b = true ↔ contains s b = true ∨ covers a b) (l : List α)
    (s : σ) (b : β) :
    contains (l.foldl add s) b = true ↔ contains s b = true ∨ ∃ a ∈ l, covers a b := by
  induction l generalizing s with
  | nil => simp
  | cons a l ih => simp [ih, hadd, or_assoc]

namespace ClassDiagram

open CommandLine

/-! ## Choices -/

namespace CommandLine.DetailChoice

variable {choices : List DetailChoice} {g : MemberGroup}

/-- What a choice puts into a detail. -/
def Covers : DetailChoice → MemberGroup → Prop
  | group k, g => k = g
  | all, _ => True

/-- The group is chosen, by itself or with all others. -/
def Chosen (choices : List DetailChoice) (g : MemberGroup) : Prop :=
  group g ∈ choices ∨ all ∈ choices

instance : Decidable (Chosen choices g) := inferInstanceAs (Decidable (_ ∨ _))

theorem exists_covers_iff : (∃ c ∈ choices, c.Covers g) ↔ Chosen choices g := by
  constructor
  · rintro ⟨c | -, hc, hcovers⟩
    · cases hcovers
      exact .inl hc
    · exact .inr hc
  · rintro (hc | hc)
    · exact ⟨_, hc, rfl⟩
    · exact ⟨_, hc, trivial⟩

end CommandLine.DetailChoice

/-! ## Characteristic functions -/

theorem MemberGroup.mem_all (g : MemberGroup) : g ∈ all := by
  cases g <;> decide

namespace Detail

/-- A detail is no more than the groups in it. -/
theorem ext_contains {d d' : Detail} (h : ∀ g, d.contains g = true ↔ d'.contains g = true) :
    d = d' := by
  simp only [← Bool.eq_iff_iff] at h
  obtain ⟨_, _, _, _⟩ := d
  obtain ⟨_, _, _, _⟩ := d'
  rw [mk.injEq]
  exact ⟨h .publicProperties, h .privateProperties, h .publicMethods, h .privateMethods⟩

theorem contains_insert_iff (d : Detail) (g k : MemberGroup) :
    (d.insert g).contains k = true ↔ d.contains k = true ∨ g = k := by
  rw [contains_insert, Bool.or_eq_true, decide_eq_true_eq, eq_comm (a := k)]

theorem contains_ofList_iff {groups : List MemberGroup} {g : MemberGroup} :
    (ofList groups).contains g = true ↔ g ∈ groups := by
  rw [ofList, List.foldl_adds_iff contains_insert_iff]
  simp

end Detail

namespace CommandLine.DetailChoice

variable {choices choices' : List DetailChoice} {groups : List MemberGroup} {g : MemberGroup}

/-- Every choice adds what it covers. All groups together have nothing to take out. -/
theorem contains_add_iff (d : Detail) (c : DetailChoice) (g : MemberGroup) :
    (add d c).contains g = true ↔ d.contains g = true ∨ c.Covers g := by
  cases c with
  | group k => exact d.contains_insert_iff k g
  | all => simp [add, Covers]

theorem contains_detail_iff : (detail choices).contains g = true ↔ Chosen choices g := by
  rw [detail, List.foldl_adds_iff contains_add_iff, exists_covers_iff]
  simp

/-- Choices of the same groups come to the same detail, and no others do. -/
theorem detail_eq_detail_iff :
    detail choices = detail choices' ↔ ∀ g, Chosen choices g ↔ Chosen choices' g := by
  simp only [← contains_detail_iff]
  exact ⟨fun h g => by rw [h], Detail.ext_contains⟩

theorem detail_eq_ofList (h : ∀ g, Chosen choices g ↔ g ∈ groups) :
    detail choices = .ofList groups :=
  Detail.ext_contains fun g => by rw [contains_detail_iff, h, Detail.contains_ofList_iff]

end CommandLine.DetailChoice

/-! ## Words -/

/-- The bit of a group. -/
def MemberGroup.bit : MemberGroup → BitVec 8
  | publicProperties => 0b0001
  | privateProperties => 0b0010
  | publicMethods => 0b0100
  | privateMethods => 0b1000

/-- No two groups share a bit. -/
theorem MemberGroup.bit_and_bit_eq_zero_iff (g k : MemberGroup) : g.bit &&& k.bit = 0 ↔ g ≠ k := by
  cases g <;> cases k <;> decide

/-- A set of groups as a word. -/
structure DetailWord where
  bits : BitVec 8
deriving DecidableEq, Repr

namespace DetailWord

/-- The empty set. -/
def none : DetailWord := ⟨0⟩

/-- Sets the bit of a group. -/
def insert (w : DetailWord) (g : MemberGroup) : DetailWord := ⟨w.bits ||| g.bit⟩

/-- The bit of the group is set. -/
def contains (w : DetailWord) (g : MemberGroup) : Bool := w.bits &&& g.bit != 0

/-- The word of the groups in a list. -/
def ofList (groups : List MemberGroup) : DetailWord := groups.foldl insert none

/-- The word of all groups. -/
def all : DetailWord := ofList MemberGroup.all

/-- Adds what is chosen. -/
def add (w : DetailWord) : DetailChoice → DetailWord
  | .group g => w.insert g
  | .all => all

/-- The word of all choices together. -/
def ofChoices (choices : List DetailChoice) : DetailWord := choices.foldl add none

/-- The detail that the word stands for. -/
def detail (w : DetailWord) : Detail where
  publicProperties := w.contains .publicProperties
  privateProperties := w.contains .privateProperties
  publicMethods := w.contains .publicMethods
  privateMethods := w.contains .privateMethods

variable {groups : List MemberGroup} {choices : List DetailChoice} {g : MemberGroup}

theorem contains_detail (w : DetailWord) (g : MemberGroup) :
    w.detail.contains g = w.contains g := by
  cases g <;> rfl

@[simp] theorem contains_none : none.contains g = false := by
  simp [contains, none]

theorem contains_insert_iff (w : DetailWord) (g k : MemberGroup) :
    (w.insert g).contains k = true ↔ w.contains k = true ∨ g = k := by
  have hbits : (w.bits ||| g.bit) &&& k.bit = 0 ↔ w.bits &&& k.bit = 0 ∧ g.bit &&& k.bit = 0 := by
    rw [BitVec.and_or_distrib_right]
    exact BitVec.or_eq_zero_iff
  rw [contains, contains, insert, bne_iff_ne, bne_iff_ne, ne_eq, hbits,
    Decidable.not_and_iff_not_or_not, g.bit_and_bit_eq_zero_iff k, Decidable.not_not]

theorem contains_ofList_iff : (ofList groups).contains g = true ↔ g ∈ groups := by
  rw [ofList, List.foldl_adds_iff contains_insert_iff]
  simp

theorem contains_all : all.contains g = true := by
  rw [all, contains_ofList_iff]
  exact g.mem_all

theorem contains_add_iff (w : DetailWord) (c : DetailChoice) (g : MemberGroup) :
    (w.add c).contains g = true ↔ w.contains g = true ∨ c.Covers g := by
  cases c with
  | group k => exact w.contains_insert_iff k g
  | all => simp [add, contains_all, DetailChoice.Covers]

theorem contains_ofChoices_iff :
    (ofChoices choices).contains g = true ↔ DetailChoice.Chosen choices g := by
  rw [ofChoices, List.foldl_adds_iff contains_add_iff, DetailChoice.exists_covers_iff]
  simp

/-- What is collected in a word stands for what is collected in a characteristic function. -/
theorem detail_ofList (groups : List MemberGroup) : (ofList groups).detail = .ofList groups :=
  Detail.ext_contains fun g => by
    rw [contains_detail, contains_ofList_iff, Detail.contains_ofList_iff]

theorem detail_ofChoices (choices : List DetailChoice) :
    (ofChoices choices).detail = DetailChoice.detail choices :=
  Detail.ext_contains fun g => by
    rw [contains_detail, contains_ofChoices_iff, DetailChoice.contains_detail_iff]

end DetailWord

end ClassDiagram
