import ClassDiagram.Proofs.Session.Growth
/-!
# Sessions in place

A registry may be changed in place, one change at a time. Then nothing takes a change back: if a
step fails half-way, what it did before stays done. The operations are written here in this manner,
each change where it falls among the checks. They turn out to make all checks before the first
change, so that a session in place is answered as ever and leaves the same registry behind.
-/

namespace ClassDiagram

/-- Work on a registry in place. A failure ends the work and keeps the registry as it is then. -/
abbrev InPlace : Type → Type := EStateM Failure Registry

namespace InPlace

variable {α β : Type} {r : Registry}

/-- Asks the registry as it stands. -/
def ask (question : Registry → Except Failure α) : InPlace α := do
  match question (← get) with
  | .ok a => pure a
  | .error f => throw f

/-- How the work ends, and the registry that it leaves behind, also if it fails. -/
def attempt (w : InPlace α) (r : Registry) : Except Failure α × Registry :=
  match w.run r with
  | .ok a next => (.ok a, next)
  | .error f next => (.error f, next)

@[simp] theorem attempt_pure (a : α) : attempt (pure a) r = (.ok a, r) := rfl

@[simp] theorem attempt_get : attempt get r = (.ok r, r) := rfl

@[simp] theorem attempt_modify (f : Registry → Registry) :
    attempt (modify f) r = (.ok ⟨⟩, f r) := rfl

@[simp] theorem attempt_ask (question : Registry → Except Failure α) :
    attempt (ask question) r = (question r, r) := by
  simp only [attempt, ask, EStateM.run_bind, EStateM.run_get]
  cases question r <;> rfl

@[simp] theorem attempt_bind (w : InPlace α) (f : α → InPlace β) :
    attempt (w >>= f) r =
      match attempt w r with
      | (.ok a, next) => attempt (f a) next
      | (.error e, next) => (.error e, next) := by
  simp only [attempt, EStateM.run_bind]
  cases w.run r <;> rfl

end InPlace

namespace Registry

open InPlace

/-! ## Operations -/

/-- The slot of the handle has to be occupied. -/
def checkInPlace (h : Handle) : InPlace PUnit := do
  let _ ← ask (·.describe h)

/-- Adds a description in the next slot and tells its handle. -/
def registerInPlace (d : Description) : InPlace Handle := do
  let h := (← get).nextHandle
  modify (·.push d)
  pure h

/-- Constructs a type. The construction is looked up, then its arguments and its definition have to
be registered, then the slot is added, and at last the construction is entered into the table. -/
def constructInPlace (c : Construction) : InPlace Handle := do
  match (← get).constructed? c with
  | some h => pure h
  | none =>
    c.arguments.forM checkInPlace
    let t ← ask (·.describe c.definition)
    let h ← registerInPlace (instanceOf t c)
    modify fun r => { r with constructed := (c, h) :: r.constructed }
    pure h

/-- Changes the description in the slot of a handle by one change. -/
def changeInPlace (h : Handle) (e : Edit) : InPlace PUnit :=
  modify fun r => { r with slots := r.slots.modify h.slot (Edit.apply · e) }

/-- Changes the description in the slot of a handle, one change after the other. -/
def editInPlace (h : Handle) (edits : List Edit) : InPlace PUnit := do
  checkInPlace h
  edits.forM (changeInPlace h)

variable {r : Registry} {c : Construction} {h : Handle} {d : Description} {edits : List Edit}

/-- What work amounts to that makes all its checks before its first change. -/
def settled {α : Type} (r : Registry) : Except Failure (α × Registry) → Except Failure α × Registry
  | .ok (a, next) => (.ok a, next)
  | .error f => (.error f, r)

@[simp] theorem attempt_checkInPlace :
    attempt (checkInPlace h) r = (discard (r.describe h), r) := by
  simp only [checkInPlace, attempt_bind, attempt_ask]
  cases r.describe h <;> rfl

theorem attempt_checks (l : List Handle) :
    attempt (l.forM checkInPlace) r = (l.forM fun a => discard (r.describe a), r) := by
  induction l with
  | nil => rfl
  | cons a l ih =>
    simp only [List.forM_eq_forM] at ih
    simp only [List.forM_eq_forM, List.forM_cons, attempt_bind, attempt_checkInPlace]
    cases (discard (r.describe a) : Except Failure PUnit) with
    | error f => rfl
    | ok u => exact ih

/-- A construction that fails has not added anything. -/
theorem attempt_constructInPlace (c : Construction) :
    attempt (constructInPlace c) r = r.settled (r.construct c).result := by
  simp only [constructInPlace, construct, attempt_bind, attempt_get]
  cases r.constructed? c with
  | some h => rfl
  | none =>
    simp only [attempt_bind, attempt_checks, template, register]
    cases (c.arguments.forM fun a => discard (r.describe a) : Except Failure PUnit) with
    | error f => rfl
    | ok u =>
      simp only [attempt_ask]
      cases r.describe c.definition with
      | error f => rfl
      | ok t => rfl

theorem replace_self (hd : r.get? h = some d) : r.replace h d = r := by
  have hslots : r.slots.setIfInBounds h.slot d = r.slots := by
    refine Array.ext_getElem? fun i => ?_
    rw [Array.getElem?_setIfInBounds]
    by_cases hi : h.slot = i
    · have hsize : i < r.slots.size := hi ▸ isRegistered_of_get? hd
      rw [if_pos hi, if_pos (hi ▸ hsize), ← hi]
      exact hd.symm
    · rw [if_neg hi]
  rw [replace, hslots]

/-- A change to a description that was changed before. -/
theorem attempt_changeInPlace (d : Description) (e : Edit) :
    attempt (changeInPlace h e) (r.replace h d) = (.ok ⟨⟩, r.replace h (Edit.apply d e)) := by
  have hslots : (r.slots.setIfInBounds h.slot d).modify h.slot (Edit.apply · e) =
      r.slots.setIfInBounds h.slot (Edit.apply d e) := by
    refine Array.ext_getElem? fun i => ?_
    simp only [Array.getElem?_modify, Array.getElem?_setIfInBounds]
    by_cases hi : h.slot = i
    · subst hi
      by_cases hsize : h.slot < r.slots.size <;> simp [hsize]
    · simp only [if_neg hi]
  simp only [changeInPlace, attempt_modify, replace, hslots]

theorem attempt_changes (edits : List Edit) (d : Description) :
    attempt (edits.forM (changeInPlace h)) (r.replace h d) =
      (.ok ⟨⟩, r.replace h (Edit.applyAll edits d)) := by
  induction edits generalizing d with
  | nil => rfl
  | cons e edits ih =>
    simp only [List.forM_eq_forM] at ih
    simp only [List.forM_eq_forM, List.forM_cons, attempt_bind, attempt_changeInPlace, ih]
    rfl

/-- An edit that fails has not changed anything. -/
theorem attempt_editInPlace (h : Handle) (edits : List Edit) :
    attempt (editInPlace h edits) r = r.settled ((r.edit h edits).map fun next => (⟨⟩, next)) := by
  simp only [editInPlace, attempt_bind, attempt_checkInPlace]
  cases hd : r.get? h with
  | none =>
    simp only [edit, describe, hd]
    rfl
  | some d =>
    have hchanges := attempt_changes (r := r) (h := h) edits d
    rw [replace_self hd] at hchanges
    simp only [edit, describe, hd]
    exact hchanges

end Registry

/-! ## Steps -/

open InPlace Registry in
/-- What a step does to a registry in place, and its answer. -/
def Step.perform : Step → InPlace Answer
  | register d => do return .handle (← registerInPlace d)
  | construct c => do return .handle (← constructInPlace c)
  | edit h edits => do
    editInPlace h edits
    return .description (← ask (·.describe h))
  | find name => do return .found ((← get).find? name)
  | describe h => do return .description (← ask (·.describe h))
  | ancestors h => do return .handles (← ask (·.ancestors h))
  | displayName n h => do return .text (← ask (·.displayName n h))
  | propertyList n detail h => do return .text (← ask (·.propertyList n detail h))
  | methodList detail h => do return .text (← ask (·.methodList detail h))
  | draw naming detail style requested => do
    return .fragment (← ask fun registry =>
      (Drawing.fragment { registry, naming, requested, detail } style).result)

/-- A step that only asks leaves the registry as it is. -/
theorem Step.attempt_asking {α : Type} {r : Registry} (question : Registry → Except Failure α)
    (wrap : α → Answer) :
    InPlace.attempt (do return wrap (← InPlace.ask question)) r =
      r.settled (do return (wrap (← question r), r)) := by
  simp only [InPlace.attempt_bind, InPlace.attempt_ask]
  cases question r <;> rfl

/-- A step is answered in place as ever. It leaves behind the registry that it makes if it succeeds,
and the registry that it found if it fails. -/
theorem Step.attempt_perform (s : Step) (r : Registry) :
    s.perform.attempt r = (s.answer r, s.after r) := by
  have hsettled : r.settled (s.run r).result = (s.answer r, s.after r) := by
    unfold answer after
    cases (s.run r).result <;> rfl
  rw [← hsettled]
  cases s with
  | register d => rfl
  | construct c =>
    simp only [perform, run, InPlace.attempt_bind, Registry.attempt_constructInPlace,
      Traced.result_bind]
    cases (r.construct c).result <;> rfl
  | edit h edits =>
    simp only [perform, run, InPlace.attempt_bind, Registry.attempt_editInPlace, Traced.result_bind,
      Traced.result_liftM]
    cases hedit : r.edit h edits with
    | error f => rfl
    | ok next =>
      -- The edited type is there to be described.
      obtain ⟨d, hd, rfl⟩ := Registry.edit_eq_ok.1 hedit
      have hdescribe : (r.replace h (Edit.applyAll edits d)).describe h =
          .ok (Edit.applyAll edits d) := by
        rw [Registry.describe_eq_ok, Registry.get?_replace (Registry.isRegistered_of_get? hd),
          if_pos rfl]
      simp [Except.map, Registry.settled, hdescribe]
  | find name => rfl
  | _ =>
    simp only [perform, run, Traced.result_bind, Traced.result_liftM, Traced.result_pure]
    exact attempt_asking _ _

/-! ## Sessions -/

namespace Registry

/-- The answers of a session in place, one for each step, and the registry that it leaves behind. -/
def performAll (r : Registry) : List Step → List (Except Failure Answer) × Registry
  | [] => ([], r)
  | s :: rest =>
    let (answer, next) := s.perform.attempt r
    let (answers, last) := next.performAll rest
    (answer :: answers, last)

/-- A session in place is answered as ever, and leaves the same registry behind. -/
theorem performAll_eq (r : Registry) (session : List Step) :
    r.performAll session = (r.answers session, r.afterAll session) := by
  induction session generalizing r with
  | nil => rfl
  | cons s rest ih => simp only [performAll, Step.attempt_perform, ih, answers, afterAll_cons]

end Registry

end ClassDiagram
