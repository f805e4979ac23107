import ClassDiagram.TypeExpression.Reader
/-!
# Settled expressions

An expression is settled among declared names: the name of a generic type becomes the name under
which the type is declared, with or without its number of parameters. What an expression means
depends on its settled form only, and the constructed types that come with it are the parts of the
settled form that have arguments.
-/

namespace ClassDiagram.TypeExpression

/-! ## Equality -/

mutual

/-- Expressions can be compared. -/
def decEq : (a b : TypeExpression) → Decidable (a = b)
  | node n as, node m bs =>
    match (inferInstance : Decidable (n = m)), decEqAll as bs with
    | isTrue hn, isTrue has => isTrue (by rw [hn, has])
    | isFalse hn, _ => isFalse fun h => hn (node.inj h).1
    | _, isFalse has => isFalse fun h => has (node.inj h).2

/-- Lists of expressions can be compared. -/
def decEqAll : (as bs : List TypeExpression) → Decidable (as = bs)
  | [], [] => isTrue rfl
  | [], _ :: _ => isFalse nofun
  | _ :: _, [] => isFalse nofun
  | a :: as, b :: bs =>
    match decEq a b, decEqAll as bs with
    | isTrue ha, isTrue has => isTrue (by rw [ha, has])
    | isFalse ha, _ => isFalse fun h => ha (List.cons.inj h).1
    | _, isFalse has => isFalse fun h => has (List.cons.inj h).2

end

instance : DecidableEq TypeExpression := decEq

/-! ## Settling -/

/-- The name under which a generic type for a number of arguments is declared: the bare one comes
first. -/
def genericAmong? (names : List String) (name : String) (arity : Nat) : Option String :=
  if name ∈ names then some name
  else if name ++ "`" ++ toString arity ∈ names then some (name ++ "`" ++ toString arity)
  else none

mutual

/-- The settled form, if all that the expression names is declared. -/
def settle? (names : List String) : TypeExpression → Option TypeExpression
  | node n [] => if n ∈ names then some (node n []) else none
  | node n (a :: as) => do
    let definition ← genericAmong? names n (as.length + 1)
    let first ← a.settle? names
    let rest ← settleAll? names as
    pure (node definition (first :: rest))

/-- The settled forms of a list of expressions. -/
def settleAll? (names : List String) : List TypeExpression → Option (List TypeExpression)
  | [] => some []
  | a :: as => do
    let first ← a.settle? names
    let rest ← settleAll? names as
    pure (first :: rest)

end

theorem settle?_nil {names : List String} {n : String} {t : TypeExpression} :
    (node n []).settle? names = some t ↔ n ∈ names ∧ t = node n [] := by
  simp [settle?, eq_comm]

theorem settle?_cons {names : List String} {n : String} {a t : TypeExpression}
    {as : List TypeExpression} : (node n (a :: as)).settle? names = some t ↔
      ∃ d b bs, genericAmong? names n (as.length + 1) = some d ∧ a.settle? names = some b ∧
        settleAll? names as = some bs ∧ t = node d (b :: bs) := by
  simp only [settle?, Option.bind_eq_bind, Option.bind_eq_some_iff, Option.pure_def,
    Option.some.injEq]
  constructor
  · rintro ⟨d, hd, b, hb, bs, hbs, rfl⟩
    exact ⟨d, b, bs, hd, hb, hbs, rfl⟩
  · rintro ⟨d, b, bs, hd, hb, hbs, rfl⟩
    exact ⟨d, hd, b, hb, bs, hbs, rfl⟩

theorem settleAll?_cons {names : List String} {a : TypeExpression} {as ts : List TypeExpression} :
    settleAll? names (a :: as) = some ts ↔
      ∃ b bs, a.settle? names = some b ∧ settleAll? names as = some bs ∧ ts = b :: bs := by
  simp only [settleAll?, Option.bind_eq_bind, Option.bind_eq_some_iff, Option.pure_def,
    Option.some.injEq]
  constructor
  · rintro ⟨b, hb, bs, hbs, rfl⟩
    exact ⟨b, bs, hb, hbs, rfl⟩
  · rintro ⟨b, bs, hb, hbs, rfl⟩
    exact ⟨b, hb, bs, hbs, rfl⟩

/-- The settled form of what a text spells. -/
def term? (names : List String) (text : String) : Option TypeExpression :=
  match read text with
  | .ok e => e.settle? names
  | .error _ => none

theorem term?_eq_some {names : List String} {text : String} {t : TypeExpression} :
    term? names text = some t ↔ ∃ e, read text = .ok e ∧ e.settle? names = some t := by
  unfold term?
  cases read text <;> simp

/-- Only a bare name settles to a bare name, and it settles to itself. -/
theorem term?_eq_name {names : List String} {text n : String} :
    term? names text = some (node n []) ↔ n ∈ names ∧ read text = .ok (node n []) := by
  rw [term?_eq_some]
  constructor
  · rintro ⟨⟨n', args⟩, he, hsettle⟩
    cases args with
    | nil =>
      obtain ⟨hn, heq⟩ := settle?_nil.1 hsettle
      exact ⟨(node.inj heq).1 ▸ hn, heq ▸ he⟩
    | cons a as =>
      obtain ⟨d, b, bs, -, -, -, heq⟩ := settle?_cons.1 hsettle
      simp at heq
  · rintro ⟨hn, he⟩
    exact ⟨_, he, settle?_nil.2 ⟨hn, rfl⟩⟩

mutual

/-- The parts with arguments, arguments before what they are arguments of. -/
def constructions : TypeExpression → List TypeExpression
  | node _ [] => []
  | node n (a :: as) => a.constructions ++ constructionsAll as ++ [node n (a :: as)]

/-- The parts with arguments of a list of expressions. -/
def constructionsAll : List TypeExpression → List TypeExpression
  | [] => []
  | a :: as => a.constructions ++ constructionsAll as

end

theorem self_mem_constructions (n : String) (a : TypeExpression) (as : List TypeExpression) :
    node n (a :: as) ∈ (node n (a :: as)).constructions := by
  simp [constructions]

mutual

theorem exists_of_mem_constructions : ∀ {e c : TypeExpression}, c ∈ e.constructions →
    ∃ n a as, c = node n (a :: as)
  | node n [], _, h => by simp [constructions] at h
  | node n (a :: as), c, h => by
    simp only [constructions, List.mem_append, List.mem_singleton] at h
    rcases h with (h | h) | rfl
    · exact exists_of_mem_constructions h
    · exact exists_of_mem_constructionsAll h
    · exact ⟨n, a, as, rfl⟩

theorem exists_of_mem_constructionsAll : ∀ {es : List TypeExpression} {c : TypeExpression},
    c ∈ constructionsAll es → ∃ n a as, c = node n (a :: as)
  | [], _, h => by simp [constructionsAll] at h
  | a :: as, c, h => by
    simp only [constructionsAll, List.mem_append] at h
    rcases h with h | h
    · exact exists_of_mem_constructions h
    · exact exists_of_mem_constructionsAll h

end

/-- A settled form is a declared name, or it is constructed. -/
theorem cases_of_settle? {names : List String} {e t : TypeExpression}
    (h : e.settle? names = some t) :
    (∃ n ∈ names, t = node n []) ∨ ∃ n a as, t = node n (a :: as) := by
  obtain ⟨n, args⟩ := e
  cases args with
  | nil => exact .inl ⟨n, settle?_nil.1 h⟩
  | cons a as =>
    obtain ⟨d, b, bs, -, -, -, rfl⟩ := settle?_cons.1 h
    exact .inr ⟨d, b, bs, rfl⟩

/-- The constructed types that come with a text, with repetition. -/
def mentions (names : List String) (text : String) : List TypeExpression :=
  match term? names text with
  | some e => e.constructions
  | none => []

theorem self_mem_mentions {names : List String} {text n : String} {a : TypeExpression}
    {as : List TypeExpression} (h : term? names text = some (node n (a :: as))) :
    node n (a :: as) ∈ mentions names text := by
  rw [mentions, h]
  exact self_mem_constructions n a as

theorem exists_of_mem_mentions {names : List String} {text : String} {c : TypeExpression}
    (h : c ∈ mentions names text) : ∃ n a as, c = node n (a :: as) := by
  unfold mentions at h
  split at h
  · exact exists_of_mem_constructions h
  · simp at h

/-! ## Dependence on the names -/

variable {names names' : List String}

theorem genericAmong?_congr (h : ∀ n, n ∈ names ↔ n ∈ names') (name : String) (arity : Nat) :
    genericAmong? names name arity = genericAmong? names' name arity := by
  simp only [genericAmong?, h]

mutual

theorem settle?_congr (h : ∀ n, n ∈ names ↔ n ∈ names') :
    ∀ e : TypeExpression, e.settle? names = e.settle? names'
  | node n [] => by simp only [settle?, h]
  | node n (a :: as) => by
    simp only [settle?, genericAmong?_congr h, settle?_congr h a, settleAll?_congr h as]

theorem settleAll?_congr (h : ∀ n, n ∈ names ↔ n ∈ names') :
    ∀ es : List TypeExpression, settleAll? names es = settleAll? names' es
  | [] => rfl
  | a :: as => by simp only [settleAll?, settle?_congr h a, settleAll?_congr h as]

end

theorem term?_congr (h : ∀ n, n ∈ names ↔ n ∈ names') : term? names = term? names' := by
  funext text
  unfold term?
  cases read text with
  | ok e => exact settle?_congr h e
  | error f => rfl

theorem mentions_congr (h : ∀ n, n ∈ names ↔ n ∈ names') : mentions names = mentions names' := by
  funext text
  simp only [mentions, term?_congr h]

end ClassDiagram.TypeExpression
