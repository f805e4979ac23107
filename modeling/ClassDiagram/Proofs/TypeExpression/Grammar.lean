import ClassDiagram.TypeExpression.Reader
/-!
# The grammar of type expressions

```text
expression ::= blanks name [ blanks "<" expression ("," expression)* ">" ] blanks
```

A name takes as many characters as it can. It ends at a bracket, a comma, a space, a tab or a line
break only, and other blanks may stand inside it, so the blanks directly behind a name have to begin
with a character that ends it.
-/

namespace ClassDiagram.TypeExpression

/-- A run of blanks, which may be empty. -/
def Blanks (l : List Char) : Prop := ∀ c ∈ l, Text.isBlank c = true

instance (l : List Char) : Decidable (Blanks l) :=
  decidable_of_decidable_of_iff (p := l.all Text.isBlank = true) (by simp [Blanks])

/-- The characters spell a name. -/
structure IsName (l : List Char) : Prop where
  ne_nil : l ≠ []
  head_not_blank : ∀ c ∈ l.head?, Text.isBlank c = false
  goes_on : ∀ c ∈ l, endsName c = false

theorem isName_iff {l : List Char} :
    IsName l ↔ l ≠ [] ∧ l.head?.all (!Text.isBlank ·) = true ∧ l.all (!endsName ·) = true := by
  cases l with
  | nil => exact ⟨fun h => absurd rfl h.ne_nil, fun h => absurd rfl h.1⟩
  | cons c l =>
    constructor
    · rintro ⟨hne, hhead, hon⟩
      exact ⟨hne, by simpa using hhead, by simpa using hon⟩
    · rintro ⟨hne, hhead, hon⟩
      exact ⟨hne, by simpa using hhead, by simpa using hon⟩

instance (l : List Char) : Decidable (IsName l) :=
  decidable_of_decidable_of_iff isName_iff.symm

/-- A name that stands directly before these characters does not go on into them. -/
def StopsName (rest : List Char) : Prop := ∀ c ∈ rest.head?, endsName c = true

instance (rest : List Char) : Decidable (StopsName rest) :=
  decidable_of_decidable_of_iff (p := rest.head?.all endsName = true)
    (by cases rest <;> simp [StopsName])

mutual

/-- The characters derive the expression. -/
inductive Derives : List Char → TypeExpression → Prop
  | bare {before name behind : List Char} :
    Blanks before → IsName name → Blanks behind → StopsName behind →
      Derives (before ++ name ++ behind) (.node (String.ofList name) [])
  | generic {before name gap inner behind : List Char} {arguments : List TypeExpression} :
    Blanks before → IsName name → Blanks gap → StopsName gap → DerivesAll inner arguments →
      Blanks behind →
      Derives (before ++ name ++ gap ++ '<' :: inner ++ '>' :: behind)
        (.node (String.ofList name) arguments)

/-- The characters derive the expressions, of which there is at least one, with a comma between
two. -/
inductive DerivesAll : List Char → List TypeExpression → Prop
  | one {l : List Char} {e : TypeExpression} : Derives l e → DerivesAll l [e]
  | more {l m : List Char} {e : TypeExpression} {es : List TypeExpression} :
    Derives l e → DerivesAll m es → DerivesAll (l ++ ',' :: m) (e :: es)

end

/-! ## Characters -/

variable {c : Char}

theorem ne_of_isBlank (h : Text.isBlank c = true) : c ≠ '<' ∧ c ≠ ',' ∧ c ≠ '>' := by
  refine ⟨?_, ?_, ?_⟩ <;> rintro rfl <;> exact absurd h (by decide)

theorem ne_of_not_endsName (h : endsName c = false) : c ≠ '<' ∧ c ≠ ',' ∧ c ≠ '>' := by
  refine ⟨?_, ?_, ?_⟩ <;> rintro rfl <;> exact absurd h (by decide)

/-- What ends a name is a bracket, a comma, or a blank. -/
theorem isBlank_of_endsName (h : endsName c = true) (h₁ : c ≠ '<') (h₂ : c ≠ ',') (h₃ : c ≠ '>') :
    Text.isBlank c = true := by
  simp only [endsName, Bool.or_eq_true, beq_iff_eq, h₁, h₂, h₃, false_or] at h
  rcases h with ((rfl | rfl) | rfl) | rfl <;> decide

theorem blanks_append {l m : List Char} : Blanks (l ++ m) ↔ Blanks l ∧ Blanks m := by
  simp [Blanks, or_imp, forall_and]

/-! ## Expressions laid out with blanks -/

/-- The blanks around one name of an expression and behind its closing bracket. -/
structure Padding where
  before : List Char := []
  behindName : List Char := []
  behindBracket : List Char := []

/-- Only blanks, and the name is not lengthened by those behind it. -/
structure Padding.Proper (p : Padding) : Prop where
  before : Blanks p.before
  behindName : Blanks p.behindName
  stopsName : StopsName p.behindName
  behindBracket : Blanks p.behindBracket

/-- A choice of blanks for every part of an expression. A part is told by the way to it: the
positions of the arguments to go into, the innermost first. -/
abbrev Layout := List Nat → Padding

mutual

/-- The expression, written with the blanks of a layout. -/
def render (layout : Layout) (way : List Nat) : TypeExpression → List Char
  | .node name [] => (layout way).before ++ name.toList ++ (layout way).behindName
  | .node name (a :: as) =>
    (layout way).before ++ name.toList ++ (layout way).behindName ++
      '<' :: (render layout (0 :: way) a ++ renderRest layout way 1 as) ++
      '>' :: (layout way).behindBracket

/-- The arguments from the one at a position on, each behind a comma. -/
def renderRest (layout : Layout) (way : List Nat) (position : Nat) :
    List TypeExpression → List Char
  | [] => []
  | a :: as =>
    ',' :: (render layout (position :: way) a ++ renderRest layout way (position + 1) as)

end

mutual

/-- Every name in the expression can be read as a name. -/
def WellNamed : TypeExpression → Prop
  | .node name arguments => IsName name.toList ∧ AllWellNamed arguments

/-- Every name in the expressions can be read as a name. -/
def AllWellNamed : List TypeExpression → Prop
  | [] => True
  | a :: as => WellNamed a ∧ AllWellNamed as

end

mutual

/-- However an expression is laid out, the grammar derives it. -/
theorem derives_render {layout : Layout} (hl : ∀ way, (layout way).Proper) (way : List Nat) :
    ∀ e : TypeExpression, WellNamed e → Derives (render layout way e) e
  | .node name [], he => by
    have h := Derives.bare (hl way).before he.1 (hl way).behindName (hl way).stopsName
    rw [String.ofList_toList] at h
    rw [render]
    exact h
  | .node name (a :: as), he => by
    have hall := derivesAll_render hl way 1 a as (derives_render hl (0 :: way) a he.2.1) he.2.2
    have h := Derives.generic (hl way).before he.1 (hl way).behindName (hl way).stopsName hall
      (hl way).behindBracket
    rw [String.ofList_toList] at h
    rw [render]
    exact h

theorem derivesAll_render {layout : Layout} (hl : ∀ way, (layout way).Proper) (way : List Nat)
    (position : Nat) {l : List Char} (a : TypeExpression) :
    ∀ as : List TypeExpression, Derives l a → AllWellNamed as →
      DerivesAll (l ++ renderRest layout way position as) (a :: as)
  | [], ha, _ => by
    rw [renderRest, List.append_nil]
    exact .one ha
  | b :: bs, ha, hbs => by
    have hb := derives_render hl (position :: way) b hbs.1
    rw [renderRest]
    exact .more ha (derivesAll_render hl way (position + 1) b bs hb hbs.2)

end

end ClassDiagram.TypeExpression
