import ClassDiagram.Proofs.Outcome
import ClassDiagram.Registry
import Mathlib.Data.List.Nodup
import Mathlib.Data.List.Perm.Subperm
/-!
# Lineages

The walk from a type to the bases above it. The walk meets no type twice, whatever the bases look
like, and it needs no more steps than there are slots.
-/

namespace ClassDiagram.Registry

variable {r : Registry} {h : Handle}

/-! ## Occupied slots -/

/-- The slot of the handle is occupied. -/
def IsRegistered (r : Registry) (h : Handle) : Prop := h.slot < r.size

instance : Decidable (r.IsRegistered h) := inferInstanceAs (Decidable (h.slot < r.size))

theorem isRegistered_iff : r.IsRegistered h ↔ ∃ d, r.get? h = some d := by
  simp [IsRegistered, get?, size, Array.getElem?_eq_some_iff]

theorem isRegistered_of_get? {d : Description} (hd : r.get? h = some d) : r.IsRegistered h :=
  isRegistered_iff.2 ⟨d, hd⟩

theorem get?_eq_none : r.get? h = none ↔ ¬ r.IsRegistered h := by
  rw [isRegistered_iff]
  cases r.get? h <;> simp

@[simp] theorem describe_eq_ok {d : Description} : r.describe h = .ok d ↔ r.get? h = some d := by
  unfold describe
  cases r.get? h <;> simp

theorem describe_of_not_isRegistered (hr : ¬ r.IsRegistered h) :
    r.describe h = .error (.unknownType h) := by
  simp [describe, get?_eq_none.2 hr]

/-- There are no more different registered handles than slots. -/
theorem length_le_size_of_nodup {l : List Handle} (hn : l.Nodup)
    (hl : ∀ a ∈ l, r.IsRegistered a) : l.length ≤ r.size := by
  -- The slots of the handles are different numbers below the number of slots.
  have hs : (l.map Handle.slot).Nodup := hn.map fun _ _ => Handle.slot_injective
  have hsub : l.map Handle.slot ⊆ List.range r.size := by
    intro n hmem
    obtain ⟨a, ha, rfl⟩ := List.mem_map.1 hmem
    exact List.mem_range.2 (hl a ha)
  simpa using (List.subperm_of_subset hs hsub).length_le

/-! ## The walk -/

variable {steps : Nat} {met l : List Handle}

/-- One step of the walk. -/
theorem climb_succ_eq_ok :
    r.climb (steps + 1) met h = .ok l ↔ ∃ d, r.get? h = some d ∧
      match d.base with
      | none => l = []
      | some base => if base ∈ met then l = []
        else ∃ above, r.climb steps (base :: met) base = .ok above ∧ l = base :: above := by
  simp only [climb, Except.bind_eq_ok, describe_eq_ok]
  refine exists_congr fun d => and_congr_right fun _ => ?_
  cases d.base with
  | none => exact Except.pure_eq_ok.trans eq_comm
  | some base =>
    by_cases hb : base ∈ met
    · simpa only [if_pos hb] using Except.pure_eq_ok.trans eq_comm
    · simp only [if_neg hb, Except.bind_eq_ok, Except.pure_eq_ok, @eq_comm _ l]

/-- The walk meets only types that it has not met before. -/
theorem nodup_climb (hl : r.climb steps met h = .ok l) : l.Nodup ∧ ∀ a ∈ l, a ∉ met := by
  induction steps generalizing met h l with
  | zero =>
    obtain rfl : l = [] := by simpa [climb, eq_comm] using hl
    simp
  | succ steps ih =>
    obtain ⟨d, -, hl⟩ := climb_succ_eq_ok.1 hl
    cases hb : d.base with
    | none => simp_all
    | some base =>
      simp only [hb] at hl
      split at hl
      · simp [hl]
      · rename_i hbase
        obtain ⟨above, habove, rfl⟩ := hl
        obtain ⟨hn, hnew⟩ := ih habove
        -- What is above the base avoids the base, because the walk from there has met it.
        refine ⟨List.nodup_cons.2 ⟨fun hmem => hnew base hmem List.mem_cons_self, hn⟩, ?_⟩
        intro a ha
        rcases List.mem_cons.1 ha with rfl | ha
        · exact hbase
        · exact fun hmem => hnew a ha (List.mem_cons_of_mem base hmem)

/-- No type is its own ancestor, and none is an ancestor twice. -/
theorem nodup_ancestors (hl : r.ancestors h = .ok l) : l.Nodup ∧ h ∉ l := by
  obtain ⟨hn, hnew⟩ := nodup_climb hl
  exact ⟨hn, fun hmem => hnew h hmem List.mem_cons_self⟩

/-- A walk that meets registered types only ends by itself: once the steps and the types met
outnumber the slots by two, more steps change nothing. -/
theorem climb_add (hn : met.Nodup) (hmet : ∀ a ∈ met, a ≠ h → r.IsRegistered a) (hh : h ∈ met)
    (hs : r.size + 2 ≤ steps + met.length) (extra : Nat) :
    r.climb (steps + extra) met h = r.climb steps met h := by
  induction steps generalizing met h with
  | zero =>
    -- No step is left although so many types were met: more than there are.
    have hrest : (met.erase h).length ≤ r.size :=
      length_le_size_of_nodup (hn.erase h) fun a ha =>
        hmet a (List.mem_of_mem_erase ha) ((hn.mem_erase_iff.1 ha).1)
    rw [List.length_erase_of_mem hh] at hrest
    omega
  | succ steps ih =>
    rw [Nat.add_right_comm]
    unfold climb
    cases hd : r.describe h with
    | error e => rfl
    | ok d =>
      have hreg := isRegistered_of_get? (describe_eq_ok.1 hd)
      simp only [Except.ok_bind]
      cases d.base with
      | none => rfl
      | some base =>
        by_cases hbase : base ∈ met
        · simp only [if_pos hbase]
        · simp only [if_neg hbase]
          -- One step fewer, but one more type was met.
          rw [ih (List.nodup_cons.2 ⟨hbase, hn⟩) _ List.mem_cons_self (by simp; omega)]
          intro a ha hne
          rcases List.mem_cons.1 ha with rfl | ha
          · exact absurd rfl hne
          · by_cases hah : a = h
            · exact hah ▸ hreg
            · exact hmet a ha hah

/-- The bound on the steps of the walk is no bound on its length. -/
theorem climb_eq_ancestors (extra : Nat) :
    r.climb (r.size + 1 + extra) [h] h = r.ancestors h :=
  climb_add (by simp) (by simp) List.mem_cons_self (by simp) extra

/-- The walk succeeds where no base dangles. -/
theorem exists_climb_eq_ok (hh : r.IsRegistered h)
    (hbase : ∀ a d b, r.get? a = some d → d.base = some b → r.IsRegistered b) :
    ∃ l, r.climb steps met h = .ok l := by
  induction steps generalizing met h with
  | zero => exact ⟨[], rfl⟩
  | succ steps ih =>
    obtain ⟨d, hd⟩ := isRegistered_iff.1 hh
    simp only [climb_succ_eq_ok]
    cases hb : d.base with
    | none => exact ⟨[], d, hd, by simp [hb]⟩
    | some base =>
      by_cases hmet : base ∈ met
      · exact ⟨[], d, hd, by simp [hb, hmet]⟩
      · obtain ⟨above, habove⟩ : ∃ l, r.climb steps (base :: met) base = .ok l :=
          ih (hbase h d base hd hb)
        exact ⟨base :: above, d, hd, by simp [hb, hmet, habove]⟩

end ClassDiagram.Registry
