import ClassDiagram.Proofs.TypeExpression.Reading
import ClassDiagram.Proofs.TypeExpression.Settled
import Mathlib.Data.List.Forall2
/-!
# Resolving expressions

When an expression resolves among declared names, said node by node and without the form that it
settles to. A text resolves if the grammar derives an expression from it that does.
-/

namespace ClassDiagram.TypeExpression

mutual

/-- Every node of the expression resolves. A bare name has to be declared; a name with arguments may
be declared with their number behind it as well, and all the arguments have to resolve. -/
def Resolves (names : List String) : TypeExpression → Prop
  | node n [] => n ∈ names
  | node n (a :: as) =>
    (n ∈ names ∨ n ++ "`" ++ toString (as.length + 1) ∈ names) ∧
      a.Resolves names ∧ AllResolve names as

/-- Every node of the expressions resolves. -/
def AllResolve (names : List String) : List TypeExpression → Prop
  | [] => True
  | a :: as => a.Resolves names ∧ AllResolve names as

end

/-- The text can be read, and what it spells resolves. -/
def ResolvesIn (names : List String) (text : String) : Prop :=
  ∃ e, Derives text.toList e ∧ e.Resolves names

variable {names : List String}

theorem isSome_genericAmong? {n : String} {arity : Nat} :
    (genericAmong? names n arity).isSome ↔
      n ∈ names ∨ n ++ "`" ++ toString arity ∈ names := by
  unfold genericAmong?
  by_cases hn : n ∈ names
  · simp only [hn, if_true, Option.isSome_some, true_or]
  · by_cases hk : n ++ "`" ++ toString arity ∈ names
    · simp only [hn, hk, if_true, if_false, Option.isSome_some, or_true]
    · simp only [hn, hk, if_false, Option.isSome_none, Bool.false_eq_true, or_self]

mutual

/-- What resolves is what has a settled form. -/
theorem isSome_settle? : ∀ {e : TypeExpression}, (e.settle? names).isSome ↔ e.Resolves names
  | node n [] => by simp [settle?, Resolves]
  | node n (a :: as) => by
    rw [Resolves, ← isSome_genericAmong?, ← isSome_settle?, ← isSome_settleAll?, settle?]
    cases genericAmong? names n (as.length + 1) with
    | none => simp
    | some d => cases a.settle? names <;> cases settleAll? names as <;> simp

theorem isSome_settleAll? : ∀ {es : List TypeExpression},
    (settleAll? names es).isSome ↔ AllResolve names es
  | [] => by simp [settleAll?, AllResolve]
  | a :: as => by
    rw [AllResolve, ← isSome_settle?, ← isSome_settleAll?, settleAll?]
    cases a.settle? names <;> cases settleAll? names as <;> simp

end

theorem isSome_term? {text : String} : (term? names text).isSome ↔ ResolvesIn names text := by
  simp only [ResolvesIn, ← read_eq_ok_iff, ← isSome_settle?, Option.isSome_iff_exists,
    term?_eq_some]
  constructor
  · rintro ⟨t, e, he, ht⟩
    exact ⟨e, he, t, ht⟩
  · rintro ⟨e, he, t, ht⟩
    exact ⟨t, e, he, ht⟩

instance (text : String) : Decidable (ResolvesIn names text) := decidable_of_iff _ isSome_term?

/-! ## Parts -/

mutual

/-- The parts with arguments of the settled form are the settled forms of those parts. -/
theorem forall₂_constructions : ∀ {e t : TypeExpression}, e.settle? names = some t →
    List.Forall₂ (fun c u => c.settle? names = some u) e.constructions t.constructions
  | node n [], t, h => by
    obtain ⟨-, rfl⟩ := settle?_nil.1 h
    simp [constructions]
  | node n (a :: as), t, h => by
    obtain ⟨d, b, bs, -, hb, hbs, rfl⟩ := settle?_cons.1 h
    rw [constructions, constructions]
    exact List.rel_append (List.rel_append (forall₂_constructions hb)
      (forall₂_constructionsAll hbs)) (.cons h .nil)

theorem forall₂_constructionsAll : ∀ {es ts : List TypeExpression},
    settleAll? names es = some ts →
      List.Forall₂ (fun c u => c.settle? names = some u) (constructionsAll es) (constructionsAll ts)
  | [], ts, h => by
    obtain rfl := Option.some.inj h
    exact .nil
  | a :: as, ts, h => by
    obtain ⟨b, bs, hb, hbs, rfl⟩ := settleAll?_cons.1 h
    rw [constructionsAll, constructionsAll]
    exact List.rel_append (forall₂_constructions hb) (forall₂_constructionsAll hbs)

end

end ClassDiagram.TypeExpression
