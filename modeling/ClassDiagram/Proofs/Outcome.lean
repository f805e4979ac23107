import ClassDiagram.Trace
import Mathlib.Data.List.Perm.Basic
/-!
# Outcomes

When a computation made of several steps succeeds. Every law is an equivalence with the success of
the steps, so that proofs about a library function need not open the binds that it is made of.
-/

/-- What is on the right is related to something on the left. -/
theorem List.Forall₂.exists_of_mem_right {α β : Type} {R : α → β → Prop} {l : List α} {m : List β}
    (h : List.Forall₂ R l m) {b : β} (hb : b ∈ m) : ∃ a ∈ l, R a b := by
  induction h with
  | nil => simp at hb
  | @cons a c l m hac _ ih =>
    rcases List.mem_cons.1 hb with rfl | hb
    · exact ⟨a, List.mem_cons_self, hac⟩
    · obtain ⟨a', ha', hab⟩ := ih hb
      exact ⟨a', List.mem_cons_of_mem a ha', hab⟩

namespace Except

variable {ε α β : Type}

@[simp] theorem ok_bind (a : α) (f : α → Except ε β) : (.ok a >>= f) = f a := rfl

@[simp] theorem error_bind (e : ε) (f : α → Except ε β) : (.error e >>= f) = .error e := rfl

@[simp] theorem bind_eq_ok {x : Except ε α} {f : α → Except ε β} {b : β} :
    (x >>= f) = .ok b ↔ ∃ a, x = .ok a ∧ f a = .ok b := by
  cases x <;> simp [bind, Except.bind]

theorem bind_eq_error {x : Except ε α} {f : α → Except ε β} {e : ε} :
    (x >>= f) = .error e ↔ x = .error e ∨ ∃ a, x = .ok a ∧ f a = .error e := by
  cases x <;> simp [bind, Except.bind]

@[simp] theorem pure_eq_ok {a b : α} : (pure a : Except ε α) = .ok b ↔ a = b := by
  simp [pure, Except.pure]

@[simp] theorem map_eq_ok {x : Except ε α} {f : α → β} {b : β} :
    f <$> x = .ok b ↔ ∃ a, x = .ok a ∧ f a = b := by
  cases x <;> simp [Functor.map, Except.map]

theorem mapError_eq_ok {ι : Type} {x : Except ε α} {f : ε → ι} {a : α} :
    x.mapError f = .ok a ↔ x = .ok a := by
  cases x <;> simp [Except.mapError]

theorem map_toOption_eq_some {x : Except ε α} {f : α → β} {b : β} :
    x.toOption.map f = some b ↔ ∃ a, x = .ok a ∧ f a = b := by
  cases x <;> simp [Except.toOption]

/-- A list of steps succeeds if each of them does. -/
theorem mapM_eq_ok {f : α → Except ε β} {l : List α} {m : List β} :
    l.mapM f = .ok m ↔ List.Forall₂ (fun a b => f a = .ok b) l m := by
  induction l generalizing m with
  | nil => simp [pure, Except.pure, eq_comm]
  | cons a l ih =>
    simp only [List.mapM_cons, bind_eq_ok, pure_eq_ok, List.forall₂_cons_left_iff, ih]
    constructor
    · rintro ⟨b, hb, m, hm, rfl⟩
      exact ⟨b, m, hb, hm, rfl⟩
    · rintro ⟨b, m, hb, hm, rfl⟩
      exact ⟨b, hb, m, hm, rfl⟩

/-- Every result of a list of steps is that of one of them. -/
theorem exists_of_mem_mapM {f : α → Except ε β} {l : List α} {m : List β} (h : l.mapM f = .ok m)
    {b : β} (hb : b ∈ m) : ∃ a ∈ l, f a = .ok b :=
  (mapM_eq_ok.1 h).exists_of_mem_right hb

theorem exists_of_mem_of_mapM {f : α → Except ε β} {l : List α} {m : List β}
    (h : l.mapM f = .ok m) {a : α} (ha : a ∈ l) : ∃ b, f a = .ok b := by
  obtain ⟨b, -, hb⟩ := (mapM_eq_ok.1 h).flip.exists_of_mem_right ha
  exact ⟨b, hb⟩

theorem filterMap_toOption_of_mapM {f : α → Except ε β} {l : List α} {m : List β}
    (h : l.mapM f = .ok m) : l.filterMap (fun a => (f a).toOption) = m := by
  rw [mapM_eq_ok] at h
  induction h with
  | nil => rfl
  | cons ha _ ih => rw [List.filterMap_cons_some (by rw [ha]; rfl), ih]

/-- The failure of a list of steps is that of one of them. -/
theorem exists_of_mapM_eq_error {f : α → Except ε β} {l : List α} {e : ε}
    (h : l.mapM f = .error e) : ∃ a ∈ l, f a = .error e := by
  induction l with
  | nil => simp [pure, Except.pure] at h
  | cons a l ih =>
    rw [List.mapM_cons, bind_eq_error] at h
    rcases h with ha | ⟨b, -, hl⟩
    · exact ⟨a, List.mem_cons_self, ha⟩
    · rcases bind_eq_error.1 hl with hl | ⟨m, -, hm⟩
      · obtain ⟨c, hc, hce⟩ := ih hl
        exact ⟨c, List.mem_cons_of_mem a hc, hce⟩
      · simp [pure, Except.pure] at hm

theorem exists_mapM_eq_ok {f : α → Except ε β} {l : List α} (h : ∀ a ∈ l, ∃ b, f a = .ok b) :
    ∃ m, l.mapM f = .ok m := by
  induction l with
  | nil => exact ⟨[], rfl⟩
  | cons a l ih =>
    obtain ⟨b, hb⟩ := h a List.mem_cons_self
    obtain ⟨m, hm⟩ := ih fun c hc => h c (List.mem_cons_of_mem a hc)
    exact ⟨b :: m, by simp [hb, hm]⟩

/-- Steps in another order succeed as well, with the same results in another order. -/
theorem exists_mapM_of_perm {f : α → Except ε β} {l l' : List α} {m : List β} (hl : l.Perm l')
    (hm : l.mapM f = .ok m) : ∃ m', l'.mapM f = .ok m' ∧ m.Perm m' := by
  rw [mapM_eq_ok] at hm
  obtain ⟨m', hm', hperm⟩ := List.perm_comp_forall₂ hl.symm hm
  exact ⟨m', mapM_eq_ok.2 hm', hperm.symm⟩

theorem mapM_congr {f g : α → Except ε β} {l : List α} (h : ∀ a ∈ l, f a = g a) :
    l.mapM f = l.mapM g := by
  induction l with
  | nil => rfl
  | cons a l ih =>
    rw [List.mapM_cons, List.mapM_cons, h a List.mem_cons_self,
      ih fun b hb => h b (List.mem_cons_of_mem a hb)]

/-! ## Outcomes that agree -/

/-- Two outcomes agree: they are results that `R` relates, or failures that `E` relates. -/
inductive Agree {γ δ ι : Type} (E : ε → ι → Prop) (R : γ → δ → Prop) :
    Except ε γ → Except ι δ → Prop
  | ok {a : γ} {b : δ} : R a b → Agree E R (.ok a) (.ok b)
  | error {e : ε} {f : ι} : E e f → Agree E R (.error e) (.error f)

namespace Agree

variable {ι γ δ : Type} {E : ε → ι → Prop} {R : α → β → Prop} {R' : γ → δ → Prop}

theorem exists_of_ok {a : α} {y : Except ι β} (h : Agree E R (.ok a) y) :
    ∃ b, y = .ok b ∧ R a b := by
  cases h with
  | ok hab => exact ⟨_, rfl, hab⟩

theorem exists_of_error {e : ε} {y : Except ι β} (h : Agree E R (.error e) y) :
    ∃ f, y = .error f ∧ E e f := by
  cases h with
  | error hef => exact ⟨_, rfl, hef⟩

theorem bind {x : Except ε α} {y : Except ι β} {f : α → Except ε γ} {g : β → Except ι δ}
    (h : Agree E R x y) (hf : ∀ a b, R a b → Agree E R' (f a) (g b)) :
    Agree E R' (x >>= f) (y >>= g) := by
  cases h with
  | ok h => exact hf _ _ h
  | error h => exact .error h

theorem mapM {f : α → Except ε γ} {g : β → Except ι δ} {l : List α} {m : List β}
    (h : List.Forall₂ (fun a b => Agree E R' (f a) (g b)) l m) :
    Agree E (List.Forall₂ R') (l.mapM f) (m.mapM g) := by
  induction h with
  | nil => exact .ok .nil
  | cons h _ ih =>
    rw [List.mapM_cons, List.mapM_cons]
    exact h.bind fun c d hcd => ih.bind fun cs ds hcds => .ok (.cons hcd hcds)

end Agree

/-! ## Outcomes that fail in known ways -/

/-- Whatever the computation fails with satisfies `E`. -/
def FailsOnly (E : ε → Prop) (x : Except ε α) : Prop := ∀ e, x = .error e → E e

namespace FailsOnly

variable {E F : ε → Prop} {x : Except ε α} {f : α → Except ε β}

theorem ok (a : α) : FailsOnly E (.ok a) := by
  intro e he
  simp at he

theorem error {e : ε} (he : E e) : FailsOnly E (.error e : Except ε α) := by
  rintro e' ⟨⟩
  exact he

theorem bind (hx : FailsOnly E x) (hf : ∀ a, x = .ok a → FailsOnly E (f a)) :
    FailsOnly E (x >>= f) := by
  intro e he
  rcases bind_eq_error.1 he with hxe | ⟨a, ha, hfe⟩
  · exact hx e hxe
  · exact hf a ha e hfe

theorem map {g : α → β} (hx : FailsOnly E x) : FailsOnly E (g <$> x) := by
  cases x with
  | error e => exact .error (hx e rfl)
  | ok a => exact .ok (g a)

theorem mapError {ι : Type} {E : ι → Prop} {g : ε → ι} (hg : ∀ e, E (g e)) (x : Except ε α) :
    FailsOnly E (x.mapError g) := by
  cases x with
  | error e => exact .error (hg e)
  | ok a => exact .ok a

theorem mapM {l : List α} (hl : ∀ a ∈ l, FailsOnly E (f a)) : FailsOnly E (l.mapM f) := by
  intro e he
  obtain ⟨a, ha, hae⟩ := exists_of_mapM_eq_error he
  exact hl a ha e hae

theorem forM {l : List α} {g : α → Except ε PUnit} (hl : ∀ a ∈ l, FailsOnly E (g a)) :
    FailsOnly E (l.forM g) := by
  induction l with
  | nil => exact .ok _
  | cons a l ih =>
    obtain ⟨ha, hl⟩ := List.forall_mem_cons.1 hl
    simp only [List.forM_eq_forM, List.forM_cons]
    exact ha.bind fun _ _ => ih hl

end FailsOnly

end Except

namespace ClassDiagram.Traced

variable {ε α β : Type}

@[simp] theorem result_liftM (x : Except ε α) : (liftM x : Traced ε α).result = x := rfl

@[simp] theorem result_fail (e : ε) : (fail e : Traced ε α).result = .error e := rfl

@[simp] theorem result_map (x : Traced ε α) (f : α → β) : (f <$> x).result = f <$> x.result := by
  rw [← bind_pure_comp, ← bind_pure_comp, result_bind]
  rfl

theorem bind_congr {x : Traced ε α} {f g : α → Traced ε β}
    (h : ∀ a, x.result = .ok a → f a = g a) : x >>= f = x >>= g := by
  show andThen x f = andThen x g
  unfold andThen
  cases hx : x.result with
  | ok a => simp only [h a hx]
  | error e => rfl

end ClassDiagram.Traced
