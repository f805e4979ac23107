import ClassDiagram.Proofs.Failing
import ClassDiagram.Proofs.Session.InPlace
/-!
# Failed steps

A failed step leaves no trace in a session: the steps that succeed are answered as if it had never
been asked, and the registry at the end is the same. A step that succeeds adds one slot, or changes
what an edit may change in the slot that it edits, or changes nothing.
-/

namespace ClassDiagram

/-- The second description is of the same type: it may differ in its base, its interfaces, its
members, and in whether it can be enumerated, but in nothing else. -/
def Description.SameType (d d' : Description) : Prop :=
  d'.name = d.name ∧ d'.kind = d.kind ∧ d'.definition = d.definition ∧ d'.arguments = d.arguments

/-- If the step registers a description, the arguments in it are registered already. -/
def Step.KnowsArguments (r : Registry) : Step → Prop
  | register d => ∀ a ∈ d.arguments, r.IsRegistered a
  | _ => True

instance {r : Registry} : (s : Step) → Decidable (s.KnowsArguments r)
  | .register d => inferInstanceAs (Decidable (∀ a ∈ d.arguments, r.IsRegistered a))
  | .construct _ | .edit _ _ | .find _ | .describe _ | .ancestors _ | .displayName _ _
  | .propertyList _ _ _ | .methodList _ _ | .draw _ _ _ _ => .isTrue trivial

namespace Registry

variable {r next : Registry} {s : Step} {session : List Step} {f : Failure}

/-! ## Steps -/

/-- What a step that succeeds may make of a registry. What is registered gets one more slot, and so
does what is constructed for the first time. An edit changes the slot that it edits, and no more of
the type in it than an edit may change. Nothing else changes anything. -/
def Local (r : Registry) (s : Step) (next : Registry) : Prop :=
  match s with
  | .register d => next = r.push d
  | .construct c => next = r ∨ ∃ t, r.get? c.definition = some t ∧ next = r.withInstance t c
  | .edit h _ => ∃ d d', r.get? h = some d ∧ d.SameType d' ∧ next = r.replace h d'
  | _ => next = r

theorem Effect.isLocal (hs : r.Effect s next) : r.Local s next := by
  cases hs with
  | registered d => rfl
  | found hc => exact .inl rfl
  | constructed hnew hargs ht => exact .inr ⟨_, ht, rfl⟩
  | edited hd edits => exact ⟨_, _, hd, Edit.fixed_applyAll, rfl⟩
  | asked hs => cases s <;> first | rfl | exact hs.elim

theorem Effect.grounded (hs : r.Effect s next) (hr : r.Grounded) (hknown : s.KnowsArguments r) :
    next.Grounded := by
  cases hs with
  | registered d => exact hr.push hknown
  | constructed hnew hargs ht => exact hr.withInstance hargs
  | edited hd edits => exact hr.replace hd
  | found hc => exact hr
  | asked hs => exact hr

theorem run_eq_ok {x : Answer} (hs : s.answer r = .ok x) :
    (s.run r).result = .ok (x, s.after r) := by
  unfold Step.answer at hs
  unfold Step.after
  cases hrun : (s.run r).result with
  | error f => simp [hrun, Except.map] at hs
  | ok p =>
    obtain rfl : p.1 = x := by simpa [hrun, Except.map] using hs
    rfl

theorem after_of_error (hs : s.answer r = .error f) : s.after r = r := by
  unfold Step.answer at hs
  unfold Step.after
  cases hrun : (s.run r).result with
  | error e => rfl
  | ok p => simp [hrun, Except.map] at hs

/-! ## Failures -/

theorem construct_failsOnly {c : Construction} :
    (r.construct c).result.FailsOnly Failure.IsUnknownType := by
  have hchecks : (c.arguments.forM fun a => discard (r.describe a) :
      Except Failure PUnit).FailsOnly Failure.IsUnknownType :=
    .forM fun a _ => describe_failsOnly.map
  unfold construct
  cases r.constructed? c with
  | some h => exact .ok _
  | none =>
    simp only [Traced.result_bind, Traced.result_liftM]
    refine (hchecks.bind fun _ _ => describe_failsOnly.bind fun t _ => .ok _).bind fun d _ => ?_
    exact .ok _

theorem edit_failsOnly {h : Handle} {edits : List Edit} :
    (r.edit h edits).FailsOnly Failure.IsUnknownType := by
  unfold edit
  cases r.get? h with
  | none => exact .error ⟨h, rfl⟩
  | some d => exact .ok _

/-- A step that only asks fails as what it asks. -/
theorem asking_failsOnly {α : Type} {question : Except Failure α} {wrap : α → Answer}
    (hquestion : question.FailsOnly Failure.IsUnknownType) :
    (do return (wrap (← question), r) : Traced Failure (Answer × Registry)).result.FailsOnly
      Failure.IsUnknownType := by
  simp only [Traced.result_bind, Traced.result_liftM]
  exact hquestion.bind fun a _ => .ok _

/-- A step fails only at a handle that points at no registered type. -/
theorem run_failsOnly (hr : r.Acyclic) (s : Step) :
    (s.run r).result.FailsOnly Failure.IsUnknownType := by
  cases s with
  | register d => exact .ok _
  | construct c =>
    simp only [Step.run, Traced.result_bind]
    exact construct_failsOnly.bind fun p _ => .ok _
  | edit h edits =>
    simp only [Step.run, Traced.result_bind, Traced.result_liftM]
    exact edit_failsOnly.bind fun next _ => describe_failsOnly.bind fun d _ => .ok _
  | find name => exact .ok _
  | describe h => exact asking_failsOnly describe_failsOnly
  | ancestors h => exact asking_failsOnly ancestors_failsOnly
  | displayName n h => exact asking_failsOnly (displayName_failsOnly hr)
  | propertyList n detail h => exact asking_failsOnly (propertyList_failsOnly hr)
  | methodList detail h => exact asking_failsOnly methodList_failsOnly
  | draw n detail style requested =>
    simp only [Step.run, Traced.result_bind]
    exact (Drawing.fragment_failsOnly hr).bind fun f _ => .ok _

/-! ## Sessions -/

/-- The steps of a session that are answered, the failed ones left out. -/
def answered (r : Registry) (session : List Step) : List Step :=
  ((session.zip (r.performAll session).1).filter fun p => p.2.isOk).map Prod.fst

theorem answered_cons (s : Step) (rest : List Step) :
    r.answered (s :: rest) =
      if (s.answer r).isOk then s :: (s.after r).answered rest else (s.after r).answered rest := by
  simp only [answered, performAll, Step.attempt_perform, List.zip_cons_cons, List.filter_cons]
  cases (s.answer r).isOk <;> rfl

theorem performAll_answered (r : Registry) (session : List Step) :
    r.performAll (r.answered session) =
      ((r.performAll session).1.filter Except.isOk, (r.performAll session).2) := by
  induction session generalizing r with
  | nil => rfl
  | cons s rest ih =>
    rw [answered_cons]
    cases hs : s.answer r with
    | error f =>
      -- The step that failed has left the registry of the others as it was.
      have ih := ih r
      simp only [performAll, Step.attempt_perform, hs, after_of_error hs]
      exact ih
    | ok x =>
      have ih := ih (s.after r)
      simp only [Except.isOk, Except.toBool, if_true, performAll, Step.attempt_perform, hs, ih,
        List.filter_cons]

/-- No step of the session registers a description with arguments that are not registered yet. -/
def KnowsArguments (r : Registry) : List Step → Prop
  | [] => True
  | s :: rest => s.KnowsArguments r ∧ (s.perform.attempt r).2.KnowsArguments rest

instance decidableKnowsArguments (r : Registry) :
    (session : List Step) → Decidable (r.KnowsArguments session)
  | [] => .isTrue trivial
  | s :: rest =>
    have := decidableKnowsArguments (s.perform.attempt r).2 rest
    inferInstanceAs (Decidable (s.KnowsArguments r ∧ _))

theorem grounded_after (hr : r.Grounded) (hknown : s.KnowsArguments r) : (s.after r).Grounded := by
  cases hs : s.answer r with
  | error f => rwa [after_of_error hs]
  | ok x => exact (effect_of_run (run_eq_ok hs)).grounded hr hknown

theorem performAll_failsOnly (hr : r.Grounded) (hknown : r.KnowsArguments session) :
    ∀ x ∈ (r.performAll session).1, x.FailsOnly Failure.IsUnknownType := by
  induction session generalizing r with
  | nil => simp [performAll]
  | cons s rest ih =>
    obtain ⟨hs, hrest⟩ := hknown
    simp only [performAll, Step.attempt_perform, List.forall_mem_cons] at hrest ⊢
    exact ⟨(run_failsOnly hr.acyclic s).map, ih (grounded_after hr hs) hrest⟩

/-- Failed steps leave no trace. A session in place is answered without the steps that failed as it
is answered with them, and leaves the same registry behind. A step that succeeds adds a slot, or
changes what an edit may change in the slot that it edits, or changes nothing; and whatever is asked
of a registry, the types in it stay the types that they are. If descriptions are only registered
with arguments that are registered already, then steps fail only at handles that point at no
registered type. -/
theorem failed_steps_are_invisible (r : Registry) (session : List Step) :
    r.performAll (r.answered session) =
        ((r.performAll session).1.filter Except.isOk, (r.performAll session).2) ∧
      (∀ before s rest, session = before ++ s :: rest → ∀ x next,
        s.perform.attempt (r.performAll before).2 = (.ok x, next) →
          (r.performAll before).2.Local s next) ∧
      (∀ before rest, session = before ++ rest → ∀ h d, (r.performAll before).2.get? h = some d →
        ∃ d', (r.performAll session).2.get? h = some d' ∧ d.SameType d') ∧
      (r.Grounded → r.KnowsArguments session → ∀ f, .error f ∈ (r.performAll session).1 →
        ∃ h, f = .unknownType h) := by
  refine ⟨performAll_answered r session, ?_, ?_, ?_⟩
  · intro before s rest _ x next hs
    rw [Step.attempt_perform, Prod.mk.injEq] at hs
    obtain ⟨hx, rfl⟩ := hs
    exact (effect_of_run (run_eq_ok hx)).isLocal
  · rintro before rest rfl h d hd
    simp only [performAll_eq] at hd ⊢
    exact (grows_of_isPrefix r (List.prefix_append before rest)).get? h d hd
  · intro hr hknown f hf
    exact performAll_failsOnly hr hknown _ hf f rfl

/-- Dogs and lists of them. The second argument of the first construction is not there, nor is the
definition of the second one; then a type is edited that is not there, and one is given a base that
is not there. -/
def slips : List Step :=
  [.register { name := "Dog", kind := .reference },
    .register { name := "List\x601", kind := .reference, enumerable := true },
    .construct ⟨.ofNat 1, [.ofNat 0, .ofNat 5]⟩,
    .construct ⟨.ofNat 7, [.ofNat 0]⟩,
    .construct ⟨.ofNat 1, [.ofNat 0]⟩,
    .edit (.ofNat 3) [.markEnumerable],
    .edit (.ofNat 0) [.addProperty { name := "Pups", valueType := .ofNat 2 }, .setBase (.ofNat 9)],
    .ancestors (.ofNat 0),
    .register
      { name := "List\x601", kind := .reference, definition := some (.ofNat 1),
        arguments := [.ofNat 2] },
    .draw .empty .none {} [.ofNat 2, .ofNat 0],
    .construct ⟨.ofNat 1, [.ofNat 0]⟩,
    .find "Dog"]

/-- Without the failed steps the handles are the same, and so is what the dog has become. -/
theorem slips_leave_no_trace :
    empty.answered slips = [0, 1, 4, 6, 8, 10, 11].filterMap (slips[·]?) ∧
      empty.performAll (empty.answered slips) =
        ([.ok (.handle (.ofNat 0)), .ok (.handle (.ofNat 1)), .ok (.handle (.ofNat 2)),
          .ok (.description
            { name := "Dog", kind := .reference, base := some (.ofNat 9),
              properties := [{ name := "Pups", valueType := .ofNat 2 }] }),
          .ok (.handle (.ofNat 3)), .ok (.handle (.ofNat 2)), .ok (.found (some (.ofNat 0)))],
          (empty.performAll slips).2) ∧
      (empty.performAll (slips.take 4)).2.Local (.construct ⟨.ofNat 1, [.ofNat 0]⟩)
        (empty.performAll (slips.take 5)).2 ∧
      (∃ d, (empty.performAll slips).2.get? (.ofNat 0) = some d ∧
        Description.SameType { name := "Dog", kind := .reference } d) ∧
      ((empty.performAll slips).1.filter (!Except.isOk ·) =
          [.error (.unknownType (.ofNat 5)), .error (.unknownType (.ofNat 7)),
            .error (.unknownType (.ofNat 3)), .error (.unknownType (.ofNat 9)),
            .error (.unknownType (.ofNat 9))] ∧
        ∀ f, .error f ∈ (empty.performAll slips).1 → ∃ h, f = .unknownType h) := by
  obtain ⟨hsame, hlocal, htypes, hfails⟩ := failed_steps_are_invisible empty slips
  refine ⟨rfl, hsame.trans (Prod.ext (by decide +kernel) rfl), ?_, ?_, by decide +kernel, ?_⟩
  · exact hlocal (slips.take 4) (.construct ⟨.ofNat 1, [.ofNat 0]⟩) (slips.drop 5) rfl
      (.handle (.ofNat 2)) _ rfl
  · exact htypes (slips.take 1) (slips.drop 1) rfl (.ofNat 0) _ rfl
  · exact hfails closed_empty.grounded (by decide)

end Registry

end ClassDiagram
