import ClassDiagram.Proofs.Steps
import ClassDiagram.Session
/-!
# Growth over sessions

A step changes a registry in one of a few ways, and none of them takes anything back: slots stay
occupied, a type keeps its name, its kind, and what it was constructed from, and a construction that
was made stays made. What holds of one step holds of a whole session.
-/

namespace ClassDiagram

/-- The step only looks at the registry. -/
def Step.Asks : Step → Prop
  | register _ | construct _ | edit _ _ => False
  | _ => True

namespace Registry

variable {r r' r'' : Registry}

/-! ## Single steps -/

/-- The ways in which a step changes a registry. -/
inductive Change (r : Registry) : Registry → Prop
  | unchanged : Change r r
  | registered (d : Description) : Change r (r.push d)
  | constructed {c : Construction} {t : Description} (hnew : r.constructed? c = none)
      (hargs : ∀ a ∈ c.arguments, r.IsRegistered a) (ht : r.get? c.definition = some t) :
      Change r (r.withInstance t c)
  | edited {h : Handle} {d : Description} (hd : r.get? h = some d) (edits : List Edit) :
      Change r (r.replace h (Edit.applyAll edits d))

/-- A step that constructs answers with the handle, in the registry behind the construction. -/
theorem result_run_construct {c : Construction} {x : Answer} :
    ((Step.construct c).run r).result = .ok (x, r') ↔
      ∃ h, (r.construct c).result = .ok (h, r') ∧ x = .handle h := by
  simp only [Step.run, Traced.result_bind, Traced.result_pure, Except.bind_eq_ok, Except.ok.injEq,
    Prod.exists, Prod.mk.injEq]
  constructor
  · rintro ⟨h, _, hh, rfl, rfl⟩
    exact ⟨h, hh, rfl⟩
  · rintro ⟨h, hh, rfl⟩
    exact ⟨h, r', hh, rfl, rfl⟩

/-- What a step makes of a registry if it succeeds. -/
inductive Effect (r : Registry) : Step → Registry → Prop
  | registered (d : Description) : Effect r (.register d) (r.push d)
  | found {c : Construction} {h : Handle} (hc : r.constructed? c = some h) :
      Effect r (.construct c) r
  | constructed {c : Construction} {t : Description} (hnew : r.constructed? c = none)
      (hargs : ∀ a ∈ c.arguments, r.IsRegistered a) (ht : r.get? c.definition = some t) :
      Effect r (.construct c) (r.withInstance t c)
  | edited {h : Handle} {d : Description} (hd : r.get? h = some d) (edits : List Edit) :
      Effect r (.edit h edits) (r.replace h (Edit.applyAll edits d))
  | asked {s : Step} (hs : s.Asks) : Effect r s r

theorem effect_of_run {s : Step} {x : Answer} (hs : (s.run r).result = .ok (x, r')) :
    r.Effect s r' := by
  cases s with
  | register d =>
    simp only [Step.run, register, Traced.result_bind, Traced.result_report, Traced.result_pure,
      Except.ok_bind, Except.ok.injEq, Prod.mk.injEq] at hs
    exact hs.2 ▸ .registered d
  | construct c =>
    obtain ⟨h, hmade, -⟩ := result_run_construct.1 hs
    rcases construct_eq_ok.1 hmade with ⟨hc, rfl⟩ | ⟨hnew, hargs, t, ht, -, rfl⟩
    · exact .found hc
    · exact .constructed hnew hargs ht
  | edit h edits =>
    simp only [Step.run, Traced.result_bind, Traced.result_liftM, Traced.result_pure,
      Except.bind_eq_ok, edit_eq_ok, Except.ok.injEq, Prod.mk.injEq] at hs
    obtain ⟨_, ⟨d, hd, rfl⟩, _, -, -, rfl⟩ := hs
    exact .edited hd edits
  | find name =>
    simp only [Step.run, Traced.result_pure, Except.ok.injEq, Prod.mk.injEq] at hs
    exact hs.2 ▸ .asked trivial
  | _ =>
    -- What only looks gives the registry back.
    simp only [Step.run, Traced.result_bind, Traced.result_liftM, Traced.result_pure,
      Except.bind_eq_ok, Except.ok.injEq, Prod.mk.injEq] at hs
    obtain ⟨_, -, -, rfl⟩ := hs
    exact .asked trivial

theorem Effect.change {s : Step} (h : r.Effect s r') : r.Change r' := by
  cases h with
  | registered d => exact .registered d
  | constructed hnew hargs ht => exact .constructed hnew hargs ht
  | edited hd edits => exact .edited hd edits
  | found hc => exact .unchanged
  | asked hs => exact .unchanged

/-- Every step changes a registry in one of the ways above. -/
theorem change_after (r : Registry) (s : Step) : r.Change (s.after r) := by
  unfold Step.after
  cases hs : (s.run r).result with
  | error f => exact .unchanged
  | ok p => exact (effect_of_run hs).change

/-! ## Growth -/

/-- The second registry has all that the first one has: its slots, in them what no edit touches, and
its constructions. -/
structure Grows (r r' : Registry) : Prop where
  size : r.size ≤ r'.size
  get? : ∀ h d, r.get? h = some d → ∃ d', r'.get? h = some d' ∧ d'.name = d.name ∧
    d'.kind = d.kind ∧ d'.definition = d.definition ∧ d'.arguments = d.arguments
  constructed : ∀ c h, r.constructed? c = some h → r'.constructed? c = some h

theorem Grows.refl (r : Registry) : r.Grows r where
  size := Nat.le_refl _
  get? _ d hd := ⟨d, hd, rfl, rfl, rfl, rfl⟩
  constructed _ _ hc := hc

theorem Grows.trans (h : r.Grows r') (h' : r'.Grows r'') : r.Grows r'' where
  size := Nat.le_trans h.size h'.size
  get? a d hd := by
    obtain ⟨d', hd', hname, hkind, hdefinition, harguments⟩ := h.get? a d hd
    obtain ⟨d'', hd'', hname', hkind', hdefinition', harguments'⟩ := h'.get? a d' hd'
    exact ⟨d'', hd'', hname'.trans hname, hkind'.trans hkind, hdefinition'.trans hdefinition,
      harguments'.trans harguments⟩
  constructed c a hc := h'.constructed c a (h.constructed c a hc)

theorem grows_push (d : Description) : r.Grows (r.push d) where
  size := by simp
  get? h t ht := by
    -- The new slot lies behind all those that are occupied.
    have hne : h.slot ≠ r.size := Nat.ne_of_lt (isRegistered_of_get? ht)
    exact ⟨t, by rw [get?_push, if_neg hne, ht], rfl, rfl, rfl, rfl⟩
  constructed _ _ hc := hc

theorem Change.grows (h : r.Change r') : r.Grows r' := by
  cases h with
  | unchanged => exact .refl r
  | registered d => exact grows_push d
  | @constructed c t hnew hargs ht =>
    refine ⟨(grows_push _).size, (grows_push _).get?, fun c' a hc' => ?_⟩
    have hne : c' ≠ c := by
      rintro rfl
      simp [hnew] at hc'
    rw [constructed?_withInstance, if_neg hne, hc']
  | @edited a d hd edits =>
    refine ⟨by simp, fun k t ht => ?_, fun c k hc => hc⟩
    rw [get?_replace (isRegistered_of_get? hd)]
    by_cases hk : k = a
    · obtain rfl : t = d := Option.some.inj (ht.symm.trans (hk ▸ hd))
      exact ⟨_, if_pos hk, Edit.fixed_applyAll⟩
    · exact ⟨t, by rw [if_neg hk, ht], rfl, rfl, rfl, rfl⟩

/-! ## Sessions -/

variable {session session' : List Step} {i : Nat}

theorem afterAll_append (r : Registry) (session session' : List Step) :
    r.afterAll (session ++ session') = (r.afterAll session).afterAll session' :=
  List.foldl_append

theorem grows_afterAll (r : Registry) (session : List Step) : r.Grows (r.afterAll session) := by
  induction session generalizing r with
  | nil => exact .refl r
  | cons s rest ih => exact (r.change_after s).grows.trans (ih (s.after r))

theorem grows_of_isPrefix (r : Registry) (h : session <+: session') :
    (r.afterAll session).Grows (r.afterAll session') := by
  obtain ⟨rest, rfl⟩ := h
  rw [afterAll_append]
  exact grows_afterAll _ rest

/-- Each step is answered in the registry that the steps before it leave. -/
theorem getElem?_answers (r : Registry) (session : List Step) (i : Nat) :
    (r.answers session)[i]? = session[i]?.map fun s => s.answer (r.afterAll (session.take i)) := by
  induction session generalizing r i with
  | nil => rfl
  | cons s rest ih =>
    cases i with
    | zero => rfl
    | succ i => exact ih (s.after r) i

theorem afterAll_take_succ {s : Step} (r : Registry) (hs : session[i]? = some s) :
    r.afterAll (session.take (i + 1)) = s.after (r.afterAll (session.take i)) := by
  rw [List.take_add_one, hs, afterAll_append]
  rfl

end Registry

end ClassDiagram
