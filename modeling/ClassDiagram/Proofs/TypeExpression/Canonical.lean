import ClassDiagram.Naming
import ClassDiagram.Proofs.TypeExpression.Spelling
/-!
# Canonical spellings

The canonical spelling of an expression is read back as the expression. The name of a generic type
may be declared with a backtick and its number of parameters at its end, which a display name leaves
out, so only expressions whose own names do not end like that can be told from display names.
-/

namespace ClassDiagram

/-! ## Names with a number of parameters -/

/-- The name ends in a backtick and digits. -/
def EndsInArity (name : String) : Prop :=
  ∃ head digits, name.toList = head ++ '\x60' :: digits ∧ digits ≠ [] ∧ ∀ c ∈ digits, c.isDigit

theorem stripArity_of_endsInArity {name : String} {head digits : List Char}
    (hname : name.toList = head ++ '\x60' :: digits) (hne : digits ≠ [])
    (hdigits : ∀ c ∈ digits, c.isDigit) : stripArity name = String.ofList head := by
  have hreversed : name.toList.reverse = digits.reverse ++ '\x60' :: head.reverse := by
    simp [hname]
  have hall : ∀ c ∈ digits.reverse, c.isDigit = true := by simpa using hdigits
  obtain ⟨c, l, hcons⟩ := List.exists_cons_of_ne_nil (mt List.reverse_eq_nil_iff.1 hne)
  -- The backtick is no digit, so the digits are taken up to there.
  have htick : Char.isDigit '\x60' = false := by decide
  have htaken : name.toList.reverse.takeWhile Char.isDigit = digits.reverse := by
    simp only [hreversed, List.takeWhile_append_of_pos hall, List.takeWhile_cons, htick,
      Bool.false_eq_true, if_false, List.append_nil]
  have hleft : name.toList.reverse.dropWhile Char.isDigit = '\x60' :: head.reverse := by
    simp only [hreversed, List.dropWhile_append_of_pos hall, List.dropWhile_cons, htick,
      Bool.false_eq_true, if_false]
  simp only [stripArity, htaken, hcons, hleft, List.reverse_reverse]

theorem stripArity_eq_self {name : String} (h : ¬ EndsInArity name) : stripArity name = name := by
  simp only [stripArity]
  split
  · rename_i c digits head htaken hleft
    refine absurd ⟨head.reverse, (c :: digits).reverse, ?_, by simp, fun d hd => ?_⟩ h
    · rw [← List.reverse_reverse name.toList,
        ← List.takeWhile_append_dropWhile (p := Char.isDigit) (l := name.toList.reverse), htaken,
        hleft]
      simp
    · have hall := List.all_takeWhile (p := Char.isDigit) (l := name.toList.reverse)
      rw [htaken] at hall
      exact List.all_eq_true.1 hall d (List.mem_reverse.1 hd)
  · rfl

theorem endsInArity_iff {name : String} : EndsInArity name ↔ stripArity name ≠ name := by
  constructor
  · rintro ⟨head, digits, hname, hne, hdigits⟩ heq
    rw [stripArity_of_endsInArity hname hne hdigits, ← String.toList_inj, hname,
      String.toList_ofList] at heq
    simp at heq
  · intro hne
    by_contra hnot
    exact hne (stripArity_eq_self hnot)

instance (name : String) : Decidable (EndsInArity name) := decidable_of_iff' _ endsInArity_iff

/-- The number of parameters behind a name is not shown. -/
theorem stripArity_withArity (name : String) (arity : Nat) :
    stripArity (name ++ "`" ++ toString arity) = name := by
  have hdigits : (toString arity).toList = Nat.toDigits 10 arity := by
    rw [Nat.toString_eq_repr, Nat.toList_repr]
  have hname : (name ++ "`" ++ toString arity).toList =
      name.toList ++ '\x60' :: Nat.toDigits 10 arity := by
    simp only [String.toList_append, hdigits, String.reduceToList, List.append_assoc,
      List.cons_append, List.nil_append]
  rw [stripArity_of_endsInArity hname Nat.toDigits_ne_nil fun c hc =>
    Nat.isDigit_of_mem_toDigits (by decide) (by decide) hc, String.ofList_toList]

namespace TypeExpression

mutual

/-- No name in the expression ends in a backtick and digits. -/
def Plain : TypeExpression → Prop
  | node n as => ¬ EndsInArity n ∧ AllPlain as

/-- No name in the expressions ends in a backtick and digits. -/
def AllPlain : List TypeExpression → Prop
  | [] => True
  | a :: as => a.Plain ∧ AllPlain as

end

/-- Whichever way a generic type is declared, it is shown by the name in use. -/
theorem stripArity_of_genericAmong? {names : List String} {n d : String} {arity : Nat}
    (hn : ¬ EndsInArity n) (hd : genericAmong? names n arity = some d) : stripArity d = n := by
  unfold genericAmong? at hd
  split at hd
  · obtain rfl := Option.some.inj hd
    exact stripArity_eq_self hn
  · split at hd
    · obtain rfl := Option.some.inj hd
      exact stripArity_withArity n arity
    · simp at hd

/-! ## Reading spellings -/

mutual

/-- Blanks may stand before a spelling. -/
theorem derives_spelling (before : List Char) (hb : Blanks before) :
    ∀ {e : TypeExpression}, WellNamed e → Derives (before ++ e.spelling.toList) e
  | node n [], he => by
    have hderives := @Derives.bare before n.toList [] hb he.1 (by decide) (by decide)
    rwa [List.append_nil, String.ofList_toList] at hderives
  | node n (a :: as), he => by
    have hfirst : Derives a.spelling.toList a := derives_spelling [] (by decide) he.2.1
    obtain ⟨inner, hinner, hall⟩ := derivesAll_spellingRest hfirst he.2.2
    have hderives := @Derives.generic before n.toList [] inner [] _ hb he.1 (by decide) (by decide)
      hall (by decide)
    rw [String.ofList_toList] at hderives
    simpa [spelling, hinner] using hderives

/-- What follows on a first argument derives the others, up to the bracket that closes. -/
theorem derivesAll_spellingRest {l : List Char} {a : TypeExpression} :
    ∀ {as : List TypeExpression}, Derives l a → AllWellNamed as →
      ∃ inner, l ++ (spellingRest as).toList = inner ++ ['>'] ∧ DerivesAll inner (a :: as)
  | [], ha, _ => ⟨l, by simp [spellingRest], .one ha⟩
  | b :: bs, ha, hbs => by
    have hnext : Derives (' ' :: b.spelling.toList) b :=
      derives_spelling [' '] (by decide) hbs.1
    obtain ⟨inner, hinner, hall⟩ := derivesAll_spellingRest hnext hbs.2
    refine ⟨l ++ ',' :: inner, ?_, .more ha hall⟩
    rw [List.append_assoc, List.cons_append, ← hinner]
    simp [spellingRest]

end

theorem read_spelling {e : TypeExpression} (he : WellNamed e) : read e.spelling = .ok e :=
  read_eq_ok_iff.2 (derives_spelling [] (by decide) he)

/-! ## Spellings and generic names -/

theorem spellingRest_eq (s : String) (as : List TypeExpression) :
    s ++ spellingRest as = ", ".intercalate (s :: as.map spelling) ++ ">" := by
  induction as generalizing s with
  | nil => simp [spellingRest]
  | cons a as ih =>
    rw [spellingRest, List.map_cons, String.intercalate_cons_cons, String.append_assoc,
      String.append_assoc, String.append_assoc, ih]

theorem spelling_cons (n : String) (a : TypeExpression) (as : List TypeExpression) :
    (node n (a :: as)).spelling = genericName n ((a :: as).map spelling) := by
  rw [spelling, genericName, String.append_assoc, spellingRest_eq, List.map_cons,
    String.append_assoc, String.append_assoc, String.append_assoc]

end TypeExpression

end ClassDiagram
