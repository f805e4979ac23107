import ClassDiagram.Proofs.Lineage
/-!
# Steps of a registry

What registering, constructing and editing do to the slots, slot by slot.
-/

namespace ClassDiagram

theorem Edit.fixed_applyAll {edits : List Edit} {d : Description} :
    (Edit.applyAll edits d).name = d.name ∧ (Edit.applyAll edits d).kind = d.kind ∧
      (Edit.applyAll edits d).definition = d.definition ∧
      (Edit.applyAll edits d).arguments = d.arguments := by
  induction edits generalizing d with
  | nil => exact ⟨rfl, rfl, rfl, rfl⟩
  | cons e edits ih =>
    have happly : (Edit.apply d e).name = d.name ∧ (Edit.apply d e).kind = d.kind ∧
        (Edit.apply d e).definition = d.definition ∧ (Edit.apply d e).arguments = d.arguments := by
      cases e <;> exact ⟨rfl, rfl, rfl, rfl⟩
    obtain ⟨hname, hkind, hdefinition, harguments⟩ := happly
    obtain ⟨hname', hkind', hdefinition', harguments'⟩ := ih (d := Edit.apply d e)
    exact ⟨hname'.trans hname, hkind'.trans hkind, hdefinition'.trans hdefinition,
      harguments'.trans harguments⟩

namespace Registry

variable {r r' : Registry} {h k : Handle} {d t : Description} {c c' : Construction}

/-! ## New slots -/

@[simp] theorem size_push : (r.push d).size = r.size + 1 := by simp [push, size]

theorem get?_push : (r.push d).get? h = if h.slot = r.size then some d else r.get? h :=
  Array.getElem?_push

theorem IsRegistered.push (hh : r.IsRegistered h) : (r.push d).IsRegistered h := by
  unfold IsRegistered at hh ⊢
  rw [size_push]
  omega

theorem slot_nextHandle_le : r.nextHandle.slot ≤ r.size := by
  rw [nextHandle, Handle.slot_ofNat]
  exact Nat.mod_le ..

theorem isRegistered_nextHandle : (r.push d).IsRegistered r.nextHandle := by
  rw [IsRegistered, size_push]
  exact Nat.lt_succ_of_le slot_nextHandle_le

/-! ## Constructions -/

/-- The registry behind a new construction from the definition that `t` describes. -/
def withInstance (r : Registry) (t : Description) (c : Construction) : Registry :=
  { r.push (instanceOf t c) with constructed := (c, r.nextHandle) :: r.constructed }

@[simp] theorem size_withInstance : (r.withInstance t c).size = r.size + 1 := size_push

theorem get?_withInstance : (r.withInstance t c).get? h =
    if h.slot = r.size then some (instanceOf t c) else r.get? h := get?_push

theorem constructed?_withInstance : (r.withInstance t c).constructed? c' =
    if c' = c then some r.nextHandle else r.constructed? c' := by
  simp only [withInstance, constructed?, List.lookup_cons]
  by_cases hc : c' = c
  · simp [hc]
  · simp [hc, beq_eq_false_iff_ne.2 hc]

theorem discard_describe_eq_ok :
    (∃ u, (discard (r.describe h) : Except Failure PUnit) = .ok u) ↔ r.IsRegistered h := by
  rw [isRegistered_iff]
  simp only [← describe_eq_ok]
  cases r.describe h with
  | error e => simp [discard, Functor.mapConst, Except.map]
  | ok d => simp [discard, Functor.mapConst, Except.map]

theorem forM_describe_eq_ok {l : List Handle} :
    (∃ u, (l.forM fun a => discard (r.describe a)) = .ok u) ↔ ∀ a ∈ l, r.IsRegistered a := by
  induction l with
  | nil => simp [pure, Except.pure]
  | cons a l ih =>
    rw [List.forall_mem_cons, ← discard_describe_eq_ok, ← ih]
    simp only [List.forM_eq_forM, List.forM_cons, Except.bind_eq_ok]
    constructor
    · rintro ⟨u, v, ha, hl⟩
      exact ⟨⟨v, ha⟩, u, hl⟩
    · rintro ⟨⟨v, ha⟩, u, hl⟩
      exact ⟨u, v, ha, hl⟩

theorem template_eq_ok : r.template c = .ok d ↔
    (∀ a ∈ c.arguments, r.IsRegistered a) ∧
      ∃ t, r.get? c.definition = some t ∧ d = instanceOf t c := by
  simp only [template, Except.bind_eq_ok, describe_eq_ok, Except.pure_eq_ok, @eq_comm _ d]
  constructor
  · rintro ⟨u, hargs, t, ht⟩
    exact ⟨forM_describe_eq_ok.1 ⟨u, hargs⟩, t, ht⟩
  · rintro ⟨hargs, t, ht⟩
    obtain ⟨u, hu⟩ := forM_describe_eq_ok.2 hargs
    exact ⟨u, hu, t, ht⟩

/-- A construction is found, or else it is new, and its arguments and definition are there. -/
theorem construct_eq_ok : (r.construct c).result = .ok (h, r') ↔
    (r.constructed? c = some h ∧ r' = r) ∨
      (r.constructed? c = none ∧ (∀ a ∈ c.arguments, r.IsRegistered a) ∧
        ∃ t, r.get? c.definition = some t ∧ h = r.nextHandle ∧ r' = r.withInstance t c) := by
  unfold construct
  -- A known construction is answered at once; a new one runs through its template.
  cases hc : r.constructed? c with
  | some k => simp [eq_comm]
  | none =>
    simp only [reduceCtorEq, false_and, true_and, false_or, Traced.result_bind,
      Traced.result_liftM, Except.bind_eq_ok, template_eq_ok, register, Traced.result_report,
      Traced.result_pure, Except.ok.injEq, Prod.exists, Prod.mk.injEq]
    constructor
    · rintro ⟨_, ⟨hargs, t, ht, rfl⟩, _, _, ⟨_, rfl, rfl⟩, rfl, rfl⟩
      exact ⟨hargs, t, ht, rfl, rfl⟩
    · rintro ⟨hargs, t, ht, rfl, rfl⟩
      exact ⟨_, ⟨hargs, t, ht, rfl⟩, _, _, ⟨(), rfl, rfl⟩, rfl, rfl⟩

/-! ## Edits -/

/-- The registry with another description in the slot of a handle. -/
def replace (r : Registry) (h : Handle) (d : Description) : Registry :=
  { r with slots := r.slots.setIfInBounds h.slot d }

@[simp] theorem size_replace : (r.replace h d).size = r.size := by simp [replace, size]

theorem get?_replace (hh : r.IsRegistered h) :
    (r.replace h d).get? k = if k = h then some d else r.get? k := by
  simp only [replace, get?, Array.getElem?_setIfInBounds]
  by_cases hk : k = h
  · subst hk
    simpa [IsRegistered, size] using hh
  · have hslot : h.slot ≠ k.slot := fun he => hk (Handle.slot_injective he.symm)
    simp [hslot, hk]

theorem edit_eq_ok {edits : List Edit} : r.edit h edits = .ok r' ↔
    ∃ d, r.get? h = some d ∧ r' = r.replace h (Edit.applyAll edits d) := by
  unfold edit
  cases r.get? h with
  | none => simp
  | some d => simp [replace, eq_comm]

end Registry

end ClassDiagram
