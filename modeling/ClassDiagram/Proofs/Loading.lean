import ClassDiagram.Model.Load
import ClassDiagram.Proofs.Outcome
/-!
# What loading leaves behind

A weakest precondition for work on a registry that is being loaded: it covers the result, the
registry that is left, and the failure if there is one. Each rule follows one way in which such
work is put together.
-/

namespace ClassDiagram.Loading

variable {α β : Type} {Q Q' : α → Registry → Prop} {E E' : Failure → Prop} {r : Registry}

/-- Started on `r`, the work ends with a result and a registry that `Q` holds of, or with a failure
that `E` holds of. -/
def wp (x : Loading α) (Q : α → Registry → Prop) (E : Failure → Prop) (r : Registry) : Prop :=
  match (x r).result with
  | .ok (a, r') => Q a r'
  | .error f => E f

/-! ## Rules -/

theorem wp_mono {x : Loading α} (h : wp x Q E r) (hQ : ∀ a r', Q a r' → Q' a r')
    (hE : ∀ f, E f → E' f) : wp x Q' E' r := by
  unfold wp at h ⊢
  split at h
  · exact hQ _ _ h
  · exact hE _ h

@[simp] theorem wp_pure (a : α) : wp (pure a) Q E r ↔ Q a r := Iff.rfl

@[simp] theorem wp_bind {x : Loading β} {f : β → Loading α} :
    wp (x >>= f) Q E r ↔ wp x (fun b => wp (f b) Q E) E r := by
  have hbind : ((x >>= f) r).result = (x r).result >>= fun p => (f p.1 p.2).result :=
    Traced.result_bind ..
  unfold wp
  rw [hbind]
  cases (x r).result with
  | ok p => rfl
  | error e => rfl

/-- Work is followed by more work: what the first part leaves is all that the second part needs. -/
theorem wp_seq {x : Loading β} {f : β → Loading α} {P : β → Registry → Prop} {F : Failure → Prop}
    (hx : wp x P F r) (hnext : ∀ b s, P b s → wp (f b) Q E s) (hE : ∀ e, F e → E e) :
    wp (x >>= f) Q E r :=
  wp_bind.2 (wp_mono hx hnext hE)

@[simp] theorem wp_fail (f : Failure) : wp (fail f : Loading α) Q E r ↔ E f := Iff.rfl

@[simp] theorem wp_get {Q : Registry → Registry → Prop} :
    wp (get : Loading Registry) Q E r ↔ Q r r := Iff.rfl

@[simp] theorem wp_set {Q : PUnit → Registry → Prop} (r' : Registry) :
    wp (set r' : Loading PUnit) Q E r ↔ Q ⟨⟩ r' := Iff.rfl

/-- A step that leaves the registry as it is. -/
theorem wp_liftM (x : Except Failure α) :
    wp (liftM x : Loading α) Q E r ↔ (∀ a, x = .ok a → Q a r) ∧ ∀ f, x = .error f → E f := by
  have hlift : ((liftM x : Loading α) r).result = x >>= fun a => .ok (a, r) :=
    Traced.result_bind ..
  unfold wp
  rw [hlift]
  cases x <;> simp

theorem wp_map {x : Loading β} {f : β → α} :
    wp (f <$> x) Q E r ↔ wp x (fun b => Q (f b)) E r := by
  rw [← bind_pure_comp, wp_bind]
  rfl

/-- A step that is left out if there is nothing to do it on. -/
theorem wp_optionMapM {f : β → Loading α} {Q : Option α → Registry → Prop} {o : Option β} :
    wp (o.mapM f) Q E r ↔
      match o with
      | none => Q none r
      | some b => wp (f b) (fun a => Q (some a)) E r := by
  cases o with
  | none => rfl
  | some b => exact wp_map

/-- A loop over a list: `I` holds of the elements done so far, their results and the registry. -/
theorem wp_mapM {f : β → Loading α} {l : List β} {I : List β → List α → Registry → Prop}
    (hstart : I [] [] r)
    (hstep : ∀ pre b post as s, l = pre ++ b :: post → I pre as s →
      wp (f b) (fun a => I (pre ++ [b]) (as ++ [a])) E s) :
    wp (l.mapM f) (I l) E r := by
  -- The induction is on what is left of the list, and the invariant speaks of what is behind.
  suffices hrest : ∀ post pre as s, l = pre ++ post → I pre as s →
      wp (post.mapM f) (fun bs => I l (as ++ bs)) E s by
    simpa using hrest l [] [] r rfl hstart
  intro post
  induction post with
  | nil =>
    intro pre as s hl hpre
    simpa [hl] using hpre
  | cons b post ih =>
    intro pre as s hl hpre
    rw [List.mapM_cons]
    refine wp_seq (hstep pre b post as s hl hpre) (fun a s' hb => ?_) fun _ hf => hf
    refine wp_seq (ih (pre ++ [b]) (as ++ [a]) s' (by simp [hl]) hb) (fun bs s'' h => ?_)
      fun _ hf => hf
    simpa using h

/-- What is left may be described by how it came about as well. -/
theorem wp_result {x : Loading α} (h : wp x Q E r) :
    wp x (fun a r' => Q a r' ∧ (x r).result = .ok (a, r')) E r := by
  unfold wp at h ⊢
  cases hx : (x r).result with
  | ok p => simpa [hx] using h
  | error e => simpa [hx] using h

/-- What a successful piece of work leaves. -/
theorem wp_of_result {x : Loading α} {a : α} {r' : Registry} (h : wp x Q E r)
    (hx : (x r).result = .ok (a, r')) : Q a r' := by
  simpa [wp, hx] using h

end ClassDiagram.Loading
