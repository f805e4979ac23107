import ClassDiagram.Proofs.Outcome
import ClassDiagram.Resolver.Basic
import Mathlib.Data.List.TakeDrop
import Mathlib.Data.List.TakeWhile
/-!
# Identifiers in answers

What it means that an answer of the drawing service names an identifier, said of the characters of
the answer. Main statement: such an answer has exactly one identifier, which is put behind the image
host, and every other answer is refused as a whole.
-/

namespace ClassDiagram

open Text

/-! ## Trimmed texts -/

/-- The characters are what is left of a text without the blanks at its two ends. -/
structure IsTrimOf (trimmed text : List Char) : Prop where
  ends : ∃ front back, text = front ++ trimmed ++ back ∧
    (∀ c ∈ front, isBlank c = true) ∧ ∀ c ∈ back, isBlank c = true
  head : ∀ c ∈ trimmed.head?, isBlank c = false
  last : ∀ c ∈ trimmed.getLast?, isBlank c = false

variable {l m trimmed text : List Char}

theorem dropWhile_blanks_append (hl : ∀ c ∈ l, isBlank c = true)
    (hm : ∀ c ∈ m.head?, isBlank c = false) : (l ++ m).dropWhile isBlank = m := by
  rw [List.dropWhile_append_of_pos hl]
  cases m with
  | nil => rfl
  | cons c m => exact List.dropWhile_cons_of_neg (by simp [hm c rfl])

theorem head_dropWhile_blank (l : List Char) :
    ∀ c ∈ (l.dropWhile isBlank).head?, isBlank c = false := by
  intro c hc
  have hhead := List.head?_dropWhile_not isBlank l
  rwa [Option.mem_def.1 hc] at hhead

theorem trimBlank_eq_of_isTrimOf (h : IsTrimOf trimmed text) : trimBlank text = trimmed := by
  obtain ⟨⟨front, back, rfl, hfront, hback⟩, hhead, hlast⟩ := h
  cases trimmed with
  | nil =>
    have hall : ∀ c ∈ front ++ [] ++ back, isBlank c = true := by
      simpa [or_imp, forall_and] using And.intro hfront hback
    rw [trimBlank, List.dropWhile_eq_nil_iff.2 hall]
    rfl
  | cons c trimmed =>
    have hfore : (front ++ (c :: trimmed ++ back)).dropWhile isBlank = c :: trimmed ++ back :=
      dropWhile_blanks_append hfront hhead
    have haft : (back.reverse ++ (c :: trimmed).reverse).dropWhile isBlank =
        (c :: trimmed).reverse :=
      dropWhile_blanks_append (fun c hc => hback c (List.mem_reverse.1 hc))
        (List.head?_reverse ▸ hlast)
    rw [trimBlank, List.append_assoc, hfore, List.reverse_append, haft, List.reverse_reverse]

theorem isTrimOf_trimBlank (text : List Char) : IsTrimOf (trimBlank text) text := by
  obtain ⟨back, hback, hsplit⟩ : ∃ back, (∀ c ∈ back, isBlank c = true) ∧
      trimBlank text ++ back = text.dropWhile isBlank := by
    refine ⟨((text.dropWhile isBlank).reverse.takeWhile isBlank).reverse,
      fun c hc => List.mem_takeWhile_imp (List.mem_reverse.1 hc), ?_⟩
    rw [trimBlank, ← List.reverse_append, List.takeWhile_append_dropWhile, List.reverse_reverse]
  refine ⟨⟨text.takeWhile isBlank, back, ?_, fun c hc => List.mem_takeWhile_imp hc, hback⟩,
    fun c hc => ?_, fun c hc => ?_⟩
  · rw [List.append_assoc, hsplit, List.takeWhile_append_dropWhile]
  -- What comes first once the blanks in front are gone still does once those behind are gone.
  · refine head_dropWhile_blank text c ?_
    rw [← hsplit, List.head?_append, Option.mem_def.1 hc]
    rfl
  · rw [trimBlank, List.getLast?_reverse] at hc
    exact head_dropWhile_blank _ c hc

theorem isTrimOf_iff : IsTrimOf trimmed text ↔ trimmed = trimBlank text :=
  ⟨fun h => (trimBlank_eq_of_isTrimOf h).symm, fun h => h ▸ isTrimOf_trimBlank text⟩

/-! ## Identifiers -/

/-- The answer names the identifier: without the blanks at its ends it is the identifier, which is
not empty and has no dot in it, then a dot, then anything. -/
def NamesIdentifier (answer identifier : String) : Prop :=
  ∃ rest, IsTrimOf (identifier.toList ++ '.' :: rest) answer.toList ∧ identifier ≠ "" ∧
    '.' ∉ identifier.toList

theorem span_dot_eq_iff {front rest : List Char} :
    l.span (· != '.') = (front, '.' :: rest) ↔ '.' ∉ front ∧ l = front ++ '.' :: rest := by
  rw [List.span_eq_takeWhile_dropWhile, Prod.mk.injEq]
  constructor
  · rintro ⟨rfl, hrest⟩
    refine ⟨fun hdot => absurd (List.mem_takeWhile_imp hdot) (by decide), ?_⟩
    rw [← hrest, List.takeWhile_append_dropWhile]
  · rintro ⟨hdot, rfl⟩
    have hfront : ∀ c ∈ front, (c != '.') = true := by
      intro c hc
      exact bne_iff_ne.2 fun heq => hdot (heq ▸ hc)
    rw [List.takeWhile_append_of_pos hfront, List.dropWhile_append_of_pos hfront]
    simp

variable {imageHost answer identifier url : String}

theorem namesIdentifier_iff :
    NamesIdentifier answer identifier ↔ ∃ rest, identifier ≠ "" ∧
      (trimBlank answer.toList).span (· != '.') = (identifier.toList, '.' :: rest) := by
  simp only [NamesIdentifier, isTrimOf_iff, span_dot_eq_iff]
  constructor
  · rintro ⟨rest, htrim, hne, hdot⟩
    exact ⟨rest, hne, hdot, htrim.symm⟩
  · rintro ⟨rest, hne, hdot, htrim⟩
    exact ⟨rest, htrim.symm, hne, hdot⟩

theorem urlFromAnswer_of_names (h : NamesIdentifier answer identifier) :
    (urlFromAnswer imageHost answer).result = .ok (imageHost ++ identifier) := by
  obtain ⟨rest, hne, hspan⟩ := namesIdentifier_iff.1 h
  cases hidentifier : identifier.toList with
  | nil => exact absurd (String.toList_eq_nil_iff.1 hidentifier) hne
  | cons c l =>
    have hbuilt : String.ofList (c :: l) = identifier := by
      rw [← hidentifier, String.ofList_toList]
    rw [urlFromAnswer, hspan, hidentifier, Traced.result_pure, hbuilt]

theorem urlFromAnswer_of_not_names (h : ∀ identifier, ¬ NamesIdentifier answer identifier) :
    (urlFromAnswer imageHost answer).result = .error (.malformedResponse answer) := by
  unfold urlFromAnswer
  split
  · next c identifier d rest hspan =>
    -- The span ends at a dot, so there is an identifier after all.
    have hd : d = '.' := by
      have hhead := List.head?_dropWhile_not (· != '.') (trimBlank answer.toList)
      rw [List.span_eq_takeWhile_dropWhile, Prod.mk.injEq] at hspan
      rw [hspan.2] at hhead
      simpa using hhead
    subst hd
    refine absurd (namesIdentifier_iff.2 ⟨rest, ?_, ?_⟩) (h (String.ofList (c :: identifier)))
    · simp
    · rw [hspan, String.toList_ofList]
  · rfl

end ClassDiagram
