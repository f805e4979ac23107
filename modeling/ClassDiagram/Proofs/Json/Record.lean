import ClassDiagram.Proofs.Json.Scanning
/-!
# Records in written documents

A record is read from an object member by member: each member that names a field, and one that the
draft does not have yet, takes the draft one step further. If the last draft makes a record, then
that is what the object is read as.
-/

namespace ClassDiagram.Json

namespace Scan

variable {l : List Char}

/-! ## Punctuation -/

theorem reads_moreMembers_end (turn : Turn) :
    (moreMembers turn).Reads ('\x7d' :: l) false ('\x7d' :: l) :=
  (reads_peekToken_cons (by decide)).bind reads_pure

theorem reads_moreMembers_first : (moreMembers .first).Reads ('\x22' :: l) true ('\x22' :: l) :=
  (reads_peekToken_cons (by decide)).bind reads_pure

theorem reads_moreMembers_later :
    (moreMembers .later).Reads (',' :: '\x22' :: l) true ('\x22' :: l) := by
  refine (reads_peekToken_cons (by decide)).bind ?_
  exact reads_skip.bind ((reads_peekToken_cons (by decide)).bind reads_pure)

theorem reads_closeObject : closeObject.Reads ('\x7d' :: l) () l :=
  (reads_peekToken_cons (by decide)).bind reads_skip

theorem reads_colon : colon.Reads (':' :: l) () l :=
  (reads_peekToken_cons (by decide)).bind reads_skip

theorem reads_endOfText : endOfText.Reads [] () [] :=
  (reads_peekToken (by simp)).bind reads_pure

end Scan

namespace Record

open Scan

variable {δ α : Type} {r : Record δ α} {d d' d'' : δ} {a : α} {key : String} {v : Value}
  {ms : List (String × Value)} {l : List Char}

/-! ## Members -/

/-- The members lead from one draft of the record to another. Each of them is a field that the draft
does not have yet. -/
inductive Fills (r : Record δ α) : δ → List (String × Value) → δ → Prop
  | nil {d : δ} : Fills r d [] d
  | cons {d d' d'' : δ} {f : Field δ} {key : String} {v : Value} {ms : List (String × Value)} :
    r.fields.find? (fun f => f.name == key) = some f → f.isSet d = false → (f.scan d).ReadsAs v d' →
      Fills r d' ms d'' → Fills r d ((key, v) :: ms) d''

/-- A field that the draft does not have yet is read into it. -/
theorem reads_member {f : Field δ} (hf : r.fields.find? (fun f => f.name == key) = some f)
    (hd : f.isSet d = false) (hv : (f.scan d).ReadsAs v d') :
    (r.member key d).Reads (':' :: (v.compact ++ l)) d' l := by
  simp only [member, hf, hd, Bool.false_eq_true, if_false]
  exact reads_colon.bind (hv l)

/-- The members after the first one. -/
theorem reads_members (h : r.Fills d ms d') {budget : List Char}
    (hbudget : ms.length < budget.length) :
    (r.members budget .later d).Reads (Value.compactMembers ms ++ l) d' ('\x7d' :: l) := by
  induction h generalizing budget with
  | nil =>
    obtain ⟨x, budget, rfl⟩ := List.exists_cons_of_length_pos hbudget
    exact (reads_moreMembers_end .later).bind reads_pure
  | cons hf hd hv _ ih =>
    obtain ⟨x, budget, rfl⟩ := List.exists_cons_of_length_pos (Nat.zero_lt_of_lt hbudget)
    have hrest := @ih budget (by simpa using hbudget)
    simp only [Value.compactMembers, writeText, List.cons_append, List.append_assoc]
    refine reads_moreMembers_later.bind (reads_skip.bind ?_)
    exact (reads_text _).bind ((reads_member hf hd hv).bind hrest)

theorem length_lt_length_compactMembers (ms : List (String × Value)) :
    ms.length < (Value.compactMembers ms).length := by
  induction ms with
  | nil => simp [Value.compactMembers]
  | cons m ms ih =>
    simp only [Value.compactMembers, List.cons_append, List.length_cons, List.length_append]
    omega

/-- If its members lead to a draft of a record, then the object is read as that record. -/
theorem scan_readsAs (h : r.Fills r.blank ms d) (ha : r.finish d = .ok a) :
    r.scan.ReadsAs (.object ms) a := by
  intro l
  suffices hmembers : ∃ m, (Value.object ms).compact ++ l = '\x7b' :: m ∧
      (r.members m .first r.blank).Reads m d ('\x7d' :: l) by
    obtain ⟨m, hcompact, hmembers⟩ := hmembers
    have hcomplete : (r.complete d).Reads ('\x7d' :: l) a ('\x7d' :: l) := by
      simp only [complete, ha]
      exact reads_pure
    rw [hcompact]
    refine (reads_peekToken_cons (by decide)).bind (reads_skip.bind ?_)
    exact Reads.bind (reads_lookahead (f := fun budget => r.members budget .first r.blank) hmembers)
      (hcomplete.bind (reads_closeObject.bind reads_pure))
  cases h with
  | nil => exact ⟨_, rfl, (reads_moreMembers_end .first).bind reads_pure⟩
  | @cons _ d' _ f key v ms hf hd hv hms =>
    refine ⟨'\x22' :: (key.toList.flatMap escapeChar ++ '\x22' :: ':' ::
      (v.compact ++ (Value.compactMembers ms ++ l))), by simp [Value.compact, writeText], ?_⟩
    have hlength := length_lt_length_compactMembers ms
    refine reads_moreMembers_first.bind (reads_skip.bind ?_)
    refine (reads_text key).bind ((reads_member hf hd hv).bind (reads_members hms ?_))
    simp only [List.length_append, List.length_cons]
    omega

/-- The text of a document that is read as a record is read as that record. -/
theorem read_compactText (h : r.scan.ReadsAs v a) : r.read v.compactText = .ok a := by
  have hscan : r.scan.Reads v.compact a [] := by simpa using h []
  have hall : (do let a ← r.scan; endOfText; pure a : Scan α).Reads v.compact a [] :=
    hscan.bind (reads_endOfText.bind reads_pure)
  obtain ⟨index, hread⟩ := hall 0
  have htext : Cursor.ofText v.compactText = ⟨v.compact, 0⟩ := by
    rw [Cursor.ofText, Value.compactText, String.toList_ofList]
  rw [read, htext, StateT.run, hread]

end Record

end ClassDiagram.Json
