import ClassDiagram.Drawing
import ClassDiagram.Proofs.Closed
import Mathlib.Logic.Relation
/-!
# Failing drawings

Where the arguments of constructed types do not lead back to the types themselves, every display
name comes to an end. Then a drawing can fail in one way only: some handle that it meets points at
no registered type.
-/

namespace ClassDiagram

/-- The failure tells of a handle that points at no registered type. -/
def Failure.IsUnknownType (f : Failure) : Prop := ∃ h, f = .unknownType h

namespace Registry

variable {r : Registry} {h a : Handle} {n : Naming} {detail : Detail} {met : List Handle}
  {depth : Nat} {f : Failure}

/-- The type `a` is one of those that `h` was constructed with. -/
def ArgumentOf (r : Registry) (a h : Handle) : Prop := ∃ d, r.get? h = some d ∧ a ∈ d.arguments

/-- No type is among its own arguments, at any depth. -/
def Acyclic (r : Registry) : Prop := ∀ h, ¬ Relation.TransGen r.ArgumentOf h h

/-- Arguments that lie below the types they are arguments of do not lead back. -/
theorem Grounded.acyclic (hr : r.Grounded) : r.Acyclic := by
  have hbelow : ∀ a h, Relation.TransGen r.ArgumentOf a h → a.slot < h.slot := by
    intro a h hah
    induction hah with
    | single hb =>
      obtain ⟨d, hd, ha⟩ := hb
      exact hr _ d hd a ha
    | tail _ hc ih =>
      obtain ⟨d, hd, hb⟩ := hc
      exact Nat.lt_trans ih (hr _ d hd _ hb)
  exact fun h hh => Nat.lt_irrefl _ (hbelow h h hh)

/-! ## Walks -/

theorem describe_eq_error : r.describe h = .error f ↔ r.get? h = none ∧ f = .unknownType h := by
  unfold describe
  cases r.get? h with
  | none => simp [eq_comm]
  | some d => simp

theorem describe_failsOnly : (r.describe h).FailsOnly Failure.IsUnknownType :=
  fun _ hf => ⟨h, (describe_eq_error.1 hf).2⟩

theorem climb_failsOnly {steps : Nat} :
    (r.climb steps met h).FailsOnly Failure.IsUnknownType := by
  induction steps generalizing met h with
  | zero => exact .ok []
  | succ steps ih =>
    refine describe_failsOnly.bind fun d _ => ?_
    cases d.base with
    | none => exact .ok []
    | some base =>
      by_cases hb : base ∈ met
      · simp only [if_pos hb]
        exact .ok []
      · simp only [if_neg hb]
        exact ih.bind fun above _ => .ok (base :: above)

theorem ancestors_failsOnly : (r.ancestors h).FailsOnly Failure.IsUnknownType := climb_failsOnly

/-! ## Names -/

/-- A name fails at its own type or at one of the arguments. -/
theorem of_nameWithin_eq_error (hf : r.nameWithin n (depth + 1) h = .error f) :
    f = .unknownType h ∨
      ∃ d, r.get? h = some d ∧ ∃ a ∈ d.arguments, r.nameWithin n depth a = .error f := by
  rcases Except.bind_eq_error.1 hf with hd | ⟨d, hd, hf⟩
  · exact .inl (describe_eq_error.1 hd).2
  · refine .inr ⟨d, describe_eq_ok.1 hd, ?_⟩
    cases hgeneric : d.isGeneric with
    | false => simp [hgeneric, pure, Except.pure] at hf
    | true =>
      simp only [hgeneric, if_true] at hf
      rcases Except.bind_eq_error.1 hf with hargs | ⟨names, -, hnames⟩
      · exact Except.exists_of_mapM_eq_error hargs
      · simp [pure, Except.pure] at hnames

theorem nameWithin_failsOnly : (r.nameWithin n depth h).FailsOnly fun f =>
    f.IsUnknownType ∨ ∃ k, f = .endlessName k := by
  intro f hf
  induction depth generalizing h with
  | zero => exact .inr ⟨h, (Except.error.inj hf).symm⟩
  | succ depth ih =>
    rcases of_nameWithin_eq_error hf with rfl | ⟨d, -, a, -, ha⟩
    · exact .inl ⟨h, rfl⟩
    · exact ih ha

/-- A name that has no end down to some depth leads through as many different types. -/
theorem depth_le_of_endless (hr : r.Acyclic) (hn : met.Nodup)
    (hmet : ∀ m ∈ met, r.IsRegistered m ∧ Relation.TransGen r.ArgumentOf h m) {k : Handle}
    (he : r.nameWithin n depth h = .error (.endlessName k)) : depth + met.length ≤ r.size := by
  induction depth generalizing h met with
  | zero =>
    rw [Nat.zero_add]
    exact length_le_size_of_nodup hn fun m hm => (hmet m hm).1
  | succ depth ih =>
    rcases of_nameWithin_eq_error he with hk | ⟨d, hd, a, ha, hae⟩
    · simp at hk
    · have hah : r.ArgumentOf a h := ⟨d, hd, ha⟩
      -- A type that was met already would be among its own arguments.
      have hnew : h ∉ met := fun hmem => hr h (hmet h hmem).2
      have hlength : depth + (h :: met).length ≤ r.size := by
        refine ih (List.nodup_cons.2 ⟨hnew, hn⟩) (fun m hm => ?_) hae
        rcases List.mem_cons.1 hm with rfl | hm
        · exact ⟨isRegistered_of_get? hd, .single hah⟩
        · exact ⟨(hmet m hm).1, .head hah (hmet m hm).2⟩
      rw [List.length_cons] at hlength
      omega

theorem displayName_failsOnly (hr : r.Acyclic) :
    (r.displayName n h).FailsOnly Failure.IsUnknownType := by
  intro f hf
  rcases nameWithin_failsOnly f hf with hf' | ⟨k, rfl⟩
  · exact hf'
  · have hdepth : r.size + 1 + ([] : List Handle).length ≤ r.size :=
      depth_le_of_endless hr List.nodup_nil (by simp) hf
    exact absurd hdepth (Nat.not_succ_le_self r.size)

/-! ## Member lists -/

theorem propertyList_failsOnly (hr : r.Acyclic) :
    (r.propertyList n detail h).FailsOnly Failure.IsUnknownType := by
  unfold propertyList
  cases detail.wantsProperties with
  | false => exact .ok ""
  | true =>
    refine describe_failsOnly.bind fun d _ => ?_
    refine Except.FailsOnly.bind (.mapM fun p _ => ?_) fun entries _ => .ok _
    exact (displayName_failsOnly hr).bind fun type _ => .ok _

theorem methodList_failsOnly : (r.methodList detail h).FailsOnly Failure.IsUnknownType := by
  unfold methodList
  cases detail.wantsMethods with
  | false => exact .ok ""
  | true => exact describe_failsOnly.bind fun d _ => .ok _

end Registry

/-! ## Drawings -/

namespace Drawing

variable {d : Drawing} (hr : d.registry.Acyclic) {h : Handle}

include hr

theorem block_failsOnly : (d.block h).FailsOnly Failure.IsUnknownType := by
  have hmarks : (d.interfaceMarks h).FailsOnly Failure.IsUnknownType := by
    refine Registry.describe_failsOnly.bind fun t _ => ?_
    refine Except.FailsOnly.bind (.mapM fun i _ => ?_) fun marks _ => .ok _
    exact (Registry.displayName_failsOnly hr).bind fun name _ => .ok _
  refine hmarks.bind fun marks _ => ?_
  refine (Registry.displayName_failsOnly hr).bind fun name _ => ?_
  refine (Registry.propertyList_failsOnly hr).bind fun properties _ => ?_
  exact Registry.methodList_failsOnly.bind fun methods _ => .ok _

theorem joinedSegment_failsOnly {e : Edge} :
    (d.joinedSegment e).result.FailsOnly Failure.IsUnknownType := by
  simp only [joinedSegment, Traced.result_bind, Traced.result_report, Traced.result_liftM,
    Traced.result_pure, Except.ok_bind]
  refine (block_failsOnly hr).bind fun source _ => ?_
  exact (block_failsOnly hr).bind fun target _ => .ok _

theorem inheritance_failsOnly {above : List Handle} {ledger : Ledger} :
    (d.inheritance h above ledger).result.FailsOnly Failure.IsUnknownType := by
  induction above generalizing ledger with
  | nil => exact .ok _
  | cons a rest ih =>
    simp only [inheritance]
    by_cases ha : a ∈ d.requested
    · simp only [ha, not_true_eq_false, if_false]
      cases ledger.contains ⟨h, a, .inherits⟩ with
      | true => simpa using ih
      | false =>
        simp only [Bool.false_eq_true, if_false, Traced.result_bind, Traced.result_pure]
        refine (joinedSegment_failsOnly hr).bind fun s _ => ?_
        exact ih.bind fun p _ => .ok _
    · simpa [ha] using ih

theorem associations_failsOnly {ps : List Property} :
    (d.associations h ps).result.FailsOnly Failure.IsUnknownType := by
  induction ps with
  | nil => exact .ok _
  | cons p ps ih =>
    have hedge : (d.propertyEdge? h p).FailsOnly Failure.IsUnknownType := by
      unfold propertyEdge?
      by_cases hp : p.valueType ∈ d.requested
      · simp only [if_pos hp]
        exact .ok _
      · simp only [if_neg hp]
        refine Registry.describe_failsOnly.bind fun t _ => ?_
        split
        · exact .ok _
        · split <;> exact .ok _
    simp only [associations, Traced.result_bind, Traced.result_liftM]
    refine hedge.bind fun x _ => ?_
    cases x with
    | none => exact ih
    | some e =>
      simp only [Traced.result_bind, Traced.result_pure]
      refine (joinedSegment_failsOnly hr).bind fun s _ => ?_
      exact ih.bind fun ss _ => .ok _

theorem root_failsOnly {ledger : Ledger} :
    (d.root h ledger).result.FailsOnly Failure.IsUnknownType := by
  simp only [root, Traced.result_bind, Traced.result_liftM]
  refine Registry.describe_failsOnly.bind fun t _ => ?_
  by_cases hk : t.kind.isDrawn
  · simp only [if_pos hk, Traced.result_bind, Traced.result_liftM]
    refine Registry.ancestors_failsOnly.bind fun above _ => ?_
    refine (inheritance_failsOnly hr).bind fun up _ => ?_
    refine (associations_failsOnly hr).bind fun across _ => ?_
    split
    · simp only [Traced.result_bind, Traced.result_liftM, Traced.result_pure]
      exact (block_failsOnly hr).bind fun block _ => .ok _
    · exact .ok _
  · simp only [if_neg hk]
    exact .ok _

theorem roots_failsOnly {hs : List Handle} {ledger : Ledger} :
    (d.roots hs ledger).result.FailsOnly Failure.IsUnknownType := by
  induction hs generalizing ledger with
  | nil => exact .ok _
  | cons h hs ih =>
    simp only [roots, Traced.result_bind, Traced.result_pure]
    refine (root_failsOnly hr).bind fun here _ => ?_
    exact ih.bind fun there _ => .ok _

/-- A drawing fails only at a handle that points at no registered type. -/
theorem fragment_failsOnly {style : Style} :
    (d.fragment style).result.FailsOnly Failure.IsUnknownType := by
  simp only [fragment, Traced.result_within, Traced.result_bind, Traced.result_report,
    Traced.result_pure]
  exact (roots_failsOnly hr).bind fun p _ => .ok _

end Drawing

end ClassDiagram
