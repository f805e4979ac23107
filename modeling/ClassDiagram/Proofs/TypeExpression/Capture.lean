import ClassDiagram.Proofs.TypeExpression.Settled
/-!
# Captured expressions

With arguments behind it a name is looked up as it stands before it is looked up with the number of
its parameters. So a name that is declared in addition captures the expressions in which it has
arguments, and it leaves all others alone.
-/

namespace ClassDiagram.TypeExpression

mutual

/-- Somewhere in the expression the name has arguments. -/
def applies (n : String) : TypeExpression → Bool
  | node _ [] => false
  | node n' (a :: as) => n' == n || a.applies n || appliesAny n as

/-- Somewhere in the expressions the name has arguments. -/
def appliesAny (n : String) : List TypeExpression → Bool
  | [] => false
  | a :: as => a.applies n || appliesAny n as

end

/-- Somewhere in what the text spells the name has arguments. -/
def appliesIn (n text : String) : Bool :=
  match read text with
  | .ok e => e.applies n
  | .error _ => false

variable {names : List String} {added : String}

theorem genericAmong?_concat (hadded : added ∉ names) {n d : String} {arity : Nat}
    (hd : genericAmong? names n arity = some d) :
    genericAmong? (names ++ [added]) n arity = some d ↔ n ≠ added := by
  have hmem : d ∈ names := by
    unfold genericAmong? at hd
    split at hd
    · exact Option.some.inj hd ▸ ‹_›
    · split at hd
      · exact Option.some.inj hd ▸ ‹_›
      · simp at hd
  constructor
  · rintro hd' rfl
    have hself : genericAmong? (names ++ [n]) n arity = some n := if_pos (by simp)
    rw [hself] at hd'
    exact hadded (Option.some.inj hd' ▸ hmem)
  · intro hne
    unfold genericAmong? at hd ⊢
    by_cases hn : n ∈ names
    · rw [if_pos hn] at hd
      rw [if_pos (List.mem_append_left _ hn), hd]
    · rw [if_neg hn] at hd
      rw [if_neg (by simp [hn, hne])]
      split at hd
      · rw [if_pos (List.mem_append_left _ ‹_›), hd]
      · simp at hd

mutual

/-- An expression settles as before if and only if the added name has no arguments in it. -/
theorem settle?_concat (hadded : added ∉ names) :
    ∀ {e s : TypeExpression}, e.settle? names = some s →
      (e.settle? (names ++ [added]) = some s ↔ e.applies added = false)
  | node n [], s, h => by
    obtain ⟨hn, rfl⟩ := settle?_nil.1 h
    simp [settle?, applies, hn]
  | node n (a :: as), s, h => by
    obtain ⟨d, first, rest, hd, hfirst, hrest, rfl⟩ := settle?_cons.1 h
    have hdefinition := genericAmong?_concat hadded hd
    have hfirsts := settle?_concat hadded hfirst
    have hrests := settleAll?_concat hadded hrest
    simp only [settle?_cons, applies, node.injEq, List.cons.injEq, Bool.or_eq_false_iff,
      beq_eq_false_iff_ne]
    rw [← hdefinition, ← hfirsts, ← hrests]
    constructor
    · rintro ⟨d', first', rest', hd', hfirst', hrest', rfl, rfl, rfl⟩
      exact ⟨⟨hd', hfirst'⟩, hrest'⟩
    · rintro ⟨⟨hd', hfirst'⟩, hrest'⟩
      exact ⟨d, first, rest, hd', hfirst', hrest', rfl, rfl, rfl⟩

theorem settleAll?_concat (hadded : added ∉ names) :
    ∀ {es ss : List TypeExpression}, settleAll? names es = some ss →
      (settleAll? (names ++ [added]) es = some ss ↔ appliesAny added es = false)
  | [], ss, h => by
    obtain rfl := Option.some.inj h
    simp [settleAll?, appliesAny]
  | a :: as, ss, h => by
    obtain ⟨first, rest, hfirst, hrest, rfl⟩ := settleAll?_cons.1 h
    have hfirsts := settle?_concat hadded hfirst
    have hrests := settleAll?_concat hadded hrest
    simp only [settleAll?_cons, appliesAny, List.cons.injEq, Bool.or_eq_false_iff]
    rw [← hfirsts, ← hrests]
    constructor
    · rintro ⟨first', rest', hfirst', hrest', rfl, rfl⟩
      exact ⟨hfirst', hrest'⟩
    · rintro ⟨hfirst', hrest'⟩
      exact ⟨first, rest, hfirst', hrest', rfl, rfl⟩

end

theorem term?_concat (hadded : added ∉ names) {text : String} (htext : (term? names text).isSome) :
    term? (names ++ [added]) text = term? names text ↔ appliesIn added text = false := by
  obtain ⟨s, hs⟩ := Option.isSome_iff_exists.1 htext
  rw [hs]
  unfold term? at hs ⊢
  unfold appliesIn
  cases hread : read text with
  | error f => simp [hread] at hs
  | ok e =>
    rw [hread] at hs
    exact settle?_concat hadded hs

end ClassDiagram.TypeExpression
