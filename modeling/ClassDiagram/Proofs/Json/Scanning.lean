import ClassDiagram.Json.Record
import ClassDiagram.Json.Value
import Mathlib.Data.List.Forall2
/-!
# Scanning what was written

What scanners do in front of a written document. `Reads` says that a scanner passes over the first
of the characters to come, whatever the index of the cursor, and which value it gives. Each rule
follows one piece of a document; what stands behind the document plays no part, because every
document that is read into a model has an end of its own.
-/

namespace ClassDiagram.Json

namespace Scan

variable {α β : Type} {a : α} {b : β} {c : Char} {l l' l'' : List Char}

/-- In front of the characters `l` the scanner gives `a` and stops in front of `l'`. -/
def Reads (s : Scan α) (l : List Char) (a : α) (l' : List Char) : Prop :=
  ∀ index, ∃ index', s ⟨l, index⟩ = .ok (a, ⟨l', index'⟩)

/-! ## Rules -/

theorem reads_pure : (pure a : Scan α).Reads l a l := fun index => ⟨index, rfl⟩

theorem Reads.bind {s : Scan α} {f : α → Scan β} (hs : s.Reads l a l')
    (hf : (f a).Reads l' b l'') : (s >>= f).Reads l b l'' := by
  intro index
  obtain ⟨index', hs⟩ := hs index
  obtain ⟨index'', hf⟩ := hf index'
  refine ⟨index'', ?_⟩
  simp only [Bind.bind, StateT.bind, hs, Except.bind]
  exact hf

theorem Reads.map {s : Scan α} {f : α → β} (hs : s.Reads l a l') :
    (s >>= fun a => pure (f a)).Reads l (f a) l' :=
  hs.bind reads_pure

theorem reads_peek : peek.Reads l l.head? l := fun index => ⟨index, rfl⟩

theorem reads_skip : skip.Reads (c :: l) () l := fun index => ⟨index + c.utf8Size, rfl⟩

theorem reads_skipSpaces (hl : ∀ c ∈ l.head?, isSpace c = false) : skipSpaces.Reads l () l := by
  intro index
  cases l with
  | nil => exact ⟨index, rfl⟩
  | cons c l =>
    have hc := hl c rfl
    exact ⟨index, by simp [skipSpaces, hc]⟩

/-- No document begins with a space, so the next token is the next character. -/
theorem reads_peekToken (hl : ∀ c ∈ l.head?, isSpace c = false) : peekToken.Reads l l.head? l :=
  (reads_skipSpaces hl).bind reads_peek

theorem reads_peekToken_cons (hc : isSpace c = false) :
    peekToken.Reads (c :: l) (some c) (c :: l) :=
  reads_peekToken (by simpa using hc)

theorem reads_word (w : List Char) : (word w).Reads (w ++ l) () l := by
  induction w with
  | nil => exact reads_pure
  | cons c w ih =>
    refine reads_peek.bind ?_
    simp only [List.cons_append, List.head?_cons, if_true]
    exact reads_skip.bind ih

/-- A scanner that is given the characters to come. -/
theorem reads_lookahead {f : List Char → Scan α} (hf : (f l).Reads l a l') :
    Reads (fun c => f c.rest c) l a l' := hf

/-! ## Strings -/

theorem hexValue?_digitChar {n : Nat} (h : n < 16) : Text.hexValue? (Nat.digitChar n) = some n := by
  have all : ∀ m : Fin 16, Text.hexValue? (Nat.digitChar m) = some m.val := by decide
  exact all ⟨n, h⟩

variable {seen : List Char}

theorem escape_letter {x : Char} (hx : letterEscape? x = some c) (index : Nat) :
    escape (x :: l) index = .ok (c, 1) := by
  -- The letter that begins a longer escape denotes nothing by itself.
  have hu : x ≠ 'u' := by
    rintro rfl
    simp [letterEscape?] at hx
  rw [escape, hx]
  exact hu

theorem textFrom_letter {x : Char} (hx : letterEscape? x = some c) (index : Nat) :
    textFrom seen ('\\' :: x :: l) index = textFrom (c :: seen) l (index + 2) := by
  rw [textFrom, escape_letter hx]
  rfl

theorem textFrom_control (hc : c.toNat < 0x20) (index : Nat) :
    textFrom seen ('\\' :: 'u' :: '0' :: '0' :: Nat.digitChar (c.toNat / 16) ::
        Nat.digitChar (c.toNat % 16) :: l) index = textFrom (c :: seen) l (index + 6) := by
  have hzero : Text.hexValue? '0' = some 0 := by decide
  have hhigh := hexValue?_digitChar (n := c.toNat / 16) (by omega)
  have hlow := hexValue?_digitChar (n := c.toNat % 16) (by omega)
  have hquad : hexQuad ('0' :: '0' :: Nat.digitChar (c.toNat / 16) ::
      Nat.digitChar (c.toNat % 16) :: l) (index + 2) = .ok c.toNat := by
    simp only [hexQuad, hzero, hhigh, hlow]
    congr 1
    omega
  -- A control character is no surrogate, so the four digits are all there is.
  have hescape : escape ('u' :: '0' :: '0' :: Nat.digitChar (c.toNat / 16) ::
      Nat.digitChar (c.toNat % 16) :: l) (index + 1) = .ok (c, 5) := by
    have hlow : ¬ (0xDC00 ≤ c.toNat ∧ c.toNat ≤ 0xDFFF) := by omega
    have hbelow : c.toNat < 0xD800 ∨ 0xDBFF < c.toNat := by omega
    simp only [escape, hquad, bind, Except.bind, if_neg hlow, if_pos hbelow, Char.ofNat_toNat]
  rw [textFrom, hescape]
  rfl

theorem textFrom_plain (hquote : c ≠ '\x22') (hback : c ≠ '\\') (hc : ¬ c.toNat < 0x20)
    (index : Nat) : textFrom seen (c :: l) index = textFrom (c :: seen) l (index + c.utf8Size) := by
  rw [textFrom, if_neg hc]
  · simpa using hquote
  · simpa using hback

/-- Whatever a character is written as is read as that character. -/
theorem textFrom_escapeChar (index : Nat) :
    ∃ index', textFrom seen (escapeChar c ++ l) index = textFrom (c :: seen) l index' := by
  -- First the seven characters that have a letter, then the other controls, then the rest.
  unfold escapeChar
  split
  · exact ⟨_, textFrom_letter (by subst c; rfl) index⟩
  split
  · exact ⟨_, textFrom_letter (by subst c; rfl) index⟩
  split
  · exact ⟨_, textFrom_letter (by subst c; rfl) index⟩
  split
  · exact ⟨_, textFrom_letter (by subst c; rfl) index⟩
  split
  · exact ⟨_, textFrom_letter (by subst c; rfl) index⟩
  split
  · exact ⟨_, textFrom_letter (by subst c; rfl) index⟩
  split
  · exact ⟨_, textFrom_letter (by subst c; rfl) index⟩
  split
  · exact ⟨_, textFrom_control ‹_› index⟩
  · exact ⟨_, textFrom_plain ‹_› ‹_› ‹_› index⟩

theorem textFrom_escaped (s : List Char) (index : Nat) : ∃ index',
    textFrom seen (s.flatMap escapeChar ++ '\x22' :: l) index =
      .ok (String.ofList (seen.reverse ++ s), ⟨l, index'⟩) := by
  induction s generalizing seen index with
  | nil => exact ⟨index + 1, by simp [textFrom]⟩
  | cons c s ih =>
    rw [List.flatMap_cons, List.append_assoc]
    obtain ⟨index', hc⟩ := textFrom_escapeChar index
    obtain ⟨index'', hs⟩ := @ih (c :: seen) index'
    exact ⟨index'', by rw [hc, hs]; simp⟩

theorem reads_text (s : String) :
    text.Reads (s.toList.flatMap escapeChar ++ '\x22' :: l) s l := by
  intro index
  obtain ⟨index', hs⟩ := @textFrom_escaped l [] s.toList index
  exact ⟨index', by simpa [text] using hs⟩

theorem reads_string (s : String) : string.Reads (writeText s ++ l) s l := by
  simp only [writeText, List.cons_append, List.append_assoc]
  refine (reads_peekToken_cons (by decide)).bind ?_
  exact reads_skip.bind (reads_text s)

/-! ## Documents -/

/-- The scanner reads the document, wherever it stands, as the value. -/
def ReadsAs (s : Scan α) (v : Value) (a : α) : Prop := ∀ l, s.Reads (v.compact ++ l) a l

theorem ReadsAs.map {s : Scan α} {v : Value} (hs : s.ReadsAs v a) (f : α → β) :
    (s >>= fun a => pure (f a)).ReadsAs v (f a) :=
  fun l => (hs l).map

theorem string_readsAs (s : String) : string.ReadsAs (.text s) s := fun _ => reads_string s

theorem string?_readsAs (s : Option String) : string?.ReadsAs (s.elim .null .text) s := by
  intro l
  unfold string?
  cases s with
  | none =>
    refine (reads_peekToken_cons (by decide)).bind ?_
    exact reads_skip.bind ((reads_word ['u', 'l', 'l']).bind reads_pure)
  | some s =>
    refine (reads_peekToken_cons (by decide)).bind ?_
    exact (reads_string s).map

theorem bool_readsAs (b : Bool) : bool.ReadsAs (.bool b) b := by
  intro l
  unfold bool
  cases b with
  | true =>
    refine (reads_peekToken_cons (by decide)).bind ?_
    exact reads_skip.bind ((reads_word ['r', 'u', 'e']).bind reads_pure)
  | false =>
    refine (reads_peekToken_cons (by decide)).bind ?_
    exact reads_skip.bind ((reads_word ['a', 'l', 's', 'e']).bind reads_pure)

/-! ## Lists -/

/-- The first character of a document is neither a space nor a closing bracket. -/
theorem exists_compact_eq_cons (v : Value) :
    ∃ c l, v.compact = c :: l ∧ isSpace c = false ∧ c ≠ ']' := by
  cases v with
  | null => exact ⟨_, _, rfl, by decide, by decide⟩
  | bool b => cases b <;> exact ⟨_, _, rfl, by decide, by decide⟩
  | number n =>
    obtain ⟨c, l, hdigits⟩ := List.exists_cons_of_ne_nil (@Nat.toDigits_ne_nil n 10)
    have hc : c.isDigit = true :=
      Nat.isDigit_of_mem_toDigits (by decide) (by decide) (hdigits ▸ List.mem_cons_self)
    refine ⟨c, l, hdigits, ?_, ?_⟩
    · rw [Bool.eq_false_iff]
      intro hspace
      simp only [isSpace, Bool.or_eq_true, beq_iff_eq] at hspace
      rcases hspace with ((rfl | rfl) | rfl) | rfl <;> exact absurd hc (by decide)
    · rintro rfl
      exact absurd hc (by decide)
  | text s => exact ⟨_, _, rfl, by decide, by decide⟩
  | list vs => cases vs <;> exact ⟨_, _, rfl, by decide, by decide⟩
  | object ms => cases ms <;> exact ⟨_, _, rfl, by decide, by decide⟩

theorem reads_moreItems_end (turn : Turn) :
    (moreItems turn).Reads (']' :: l) false (']' :: l) :=
  (reads_peekToken_cons (by decide)).bind reads_pure

theorem reads_moreItems_first (hc : isSpace c = false) (hne : c ≠ ']') :
    (moreItems .first).Reads (c :: l) true (c :: l) := by
  refine (reads_peekToken_cons hc).bind ?_
  split
  · simp_all
  · simp_all
  · exact reads_pure

theorem reads_moreItems_later (hc : isSpace c = false) (hne : c ≠ ']') :
    (moreItems .later).Reads (',' :: c :: l) true (c :: l) := by
  refine (reads_peekToken_cons (by decide)).bind ?_
  refine reads_skip.bind ((reads_peekToken_cons hc).bind ?_)
  split
  · simp_all
  · simp_all
  · exact reads_pure

theorem reads_closeList : closeList.Reads (']' :: l) () l :=
  (reads_peekToken_cons (by decide)).bind reads_skip

variable {item : Scan α} {vs : List Value} {as : List α}

/-- The items after the first one. Each of them takes one step of the budget, and so does the
closing bracket. -/
theorem reads_items (h : List.Forall₂ item.ReadsAs vs as) {budget : List Char}
    (hbudget : vs.length < budget.length) (seen : List α) :
    (items item budget .later seen).Reads (Value.compactItems vs ++ l) (seen.reverse ++ as)
      (']' :: l) := by
  induction h generalizing budget seen with
  | nil =>
    obtain ⟨x, budget, rfl⟩ := List.exists_cons_of_length_pos hbudget
    rw [List.append_nil]
    exact (reads_moreItems_end .later).bind reads_pure
  | @cons v a vs as hv _ ih =>
    obtain ⟨x, budget, rfl⟩ := List.exists_cons_of_length_pos (Nat.zero_lt_of_lt hbudget)
    obtain ⟨c, m, hcompact, hc, hne⟩ := exists_compact_eq_cons v
    have hmore : (moreItems .later).Reads (',' :: (v.compact ++ (Value.compactItems vs ++ l))) true
        (v.compact ++ (Value.compactItems vs ++ l)) := by
      rw [hcompact]
      exact reads_moreItems_later hc hne
    have hrest := @ih budget (by simpa using hbudget) (a :: seen)
    rw [List.reverse_cons, List.append_assoc] at hrest
    simp only [Value.compactItems, List.cons_append, List.append_assoc]
    exact hmore.bind ((hv _).bind hrest)

theorem length_lt_length_compactItems (vs : List Value) :
    vs.length < (Value.compactItems vs).length := by
  induction vs with
  | nil => simp [Value.compactItems]
  | cons v vs ih =>
    simp only [Value.compactItems, List.cons_append, List.length_cons, List.length_append]
    omega

/-- The characters behind the opening bracket are the budget of the items. -/
theorem reads_list (h : (items item l .first []).Reads l as (']' :: l')) :
    (list item).Reads ('[' :: l) as l' := by
  refine (reads_peekToken_cons (by decide)).bind (reads_skip.bind ?_)
  exact Reads.bind (reads_lookahead (f := fun budget => items item budget .first []) h)
    (reads_closeList.bind reads_pure)

/-- A list is read item by item. -/
theorem list_readsAs (h : List.Forall₂ item.ReadsAs vs as) : (list item).ReadsAs (.list vs) as := by
  intro l
  -- Whatever the items are, the bracket in front of them and the one behind them are passed over.
  suffices hitems : ∃ m, (Value.list vs).compact ++ l = '[' :: m ∧
      (items item m .first []).Reads m as (']' :: l) by
    obtain ⟨m, hcompact, hitems⟩ := hitems
    rw [hcompact]
    exact reads_list hitems
  cases h with
  | nil => exact ⟨_, rfl, (reads_moreItems_end .first).bind reads_pure⟩
  | @cons v a vs as hv hvs =>
    refine ⟨v.compact ++ (Value.compactItems vs ++ l), by simp [Value.compact], ?_⟩
    obtain ⟨c, m, hcompact, hc, hne⟩ := exists_compact_eq_cons v
    have hlength := length_lt_length_compactItems vs
    rw [hcompact, List.cons_append, items, ← List.cons_append, ← hcompact]
    have hmore : (moreItems .first).Reads (v.compact ++ (Value.compactItems vs ++ l)) true
        (v.compact ++ (Value.compactItems vs ++ l)) := by
      rw [hcompact]
      exact reads_moreItems_first hc hne
    refine hmore.bind ((hv _).bind (reads_items hvs ?_ [a]))
    simp only [List.length_append]
    omega

/-- A list of what is written as documents that are read back. -/
theorem list_map_readsAs {document : α → Value} (h : ∀ a, item.ReadsAs (document a) a)
    (as : List α) : (list item).ReadsAs (.list (as.map document)) as :=
  list_readsAs (List.forall₂_map_left_iff.2 (List.forall₂_same.2 fun a _ => h a))

end Scan

end ClassDiagram.Json
