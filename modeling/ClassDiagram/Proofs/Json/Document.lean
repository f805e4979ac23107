import ClassDiagram.Proofs.Json.Record
/-!
# Reading documents

Any document can be read, not just those of a known type, as long as its numbers are natural. A
document that was laid out over lines is read back as it was: the scanners pass over the spaces in
front of a token, and the characters that the layout puts in are spaces.
-/

namespace ClassDiagram.Json

namespace Scan

variable {α β : Type}

/-! ## The reader -/

/-- A natural number. -/
def natural : Scan Nat := do
  let ds ← wholeDigits .unfinishedValue
  pure (Nat.ofDigitChars 10 ds 0)

/-- The members of an object, after those `seen`, which are kept in reverse. The characters that
remain are the budget, like that of the items of a list. -/
def members (item : Scan α) :
    List Char → Turn → List (String × α) → Scan (List (String × α))
  | [], _, _ => failNext .unfinishedObject
  | _ :: budget, turn, seen => do
    if ← moreMembers turn then do
      skip
      let key ← text
      colon
      let a ← item
      members item budget .later ((key, a) :: seen)
    else pure seen.reverse

/-- An object. -/
def object (item : Scan α) : Scan (List (String × α)) := do
  match ← peekToken with
  | none => failNext .unfinishedValue
  | some '\x7b' => do
    skip
    let all ← fun c => members item c.rest .first [] c
    closeObject
    pure all
  | some _ => failType "a map"

/-- A document with less than the given number of brackets inside each other. -/
def document : Nat → Scan Value
  | 0 => failNext .unfinishedValue
  | n + 1 => do
    match ← peekToken with
    | none => failNext .unfinishedValue
    | some 'n' => do skip; word ['u', 'l', 'l']; pure .null
    | some 't' | some 'f' => return .bool (← bool)
    | some '\x22' => return .text (← string)
    | some '[' => return .list (← list (document n))
    | some '\x7b' => return .object (← object (document n))
    | some _ => return .number (← natural)

end Scan

/-- Reads a text that is one document. -/
def Value.read (text : String) : Except Refusal Value :=
  match (do let v ← Scan.document (text.length + 1); Scan.endOfText; pure v).run
    (Cursor.ofText text) with
  | .ok (v, _) => .ok v
  | .error f => .error (f.refuse text)

namespace Scan

variable {s : Scan α} {a : α} {c : Char} {l l' sp : List Char} {n depth : Nat}

/-! ## Spaces -/

/-- The scanner passes over spaces first. -/
def SkipsSpaces (s : Scan α) : Prop :=
  ∀ c l index, isSpace c = true → s ⟨c :: l, index⟩ = s ⟨l, index + 1⟩

theorem skipsSpaces_peekToken : SkipsSpaces peekToken := by
  intro c l index hc
  simp only [peekToken, skipSpaces, peek, bind, StateT.bind, Except.bind,
    List.dropWhile_cons_of_pos hc, List.takeWhile_cons_of_pos hc, List.length_cons,
    Nat.add_assoc, Nat.add_comm 1]

theorem SkipsSpaces.bind (hs : SkipsSpaces s) (f : α → Scan β) : SkipsSpaces (s >>= f) := by
  intro c l index hc
  simp only [Bind.bind, StateT.bind, hs c l index hc]

theorem skipsSpaces_moreItems (turn : Turn) : SkipsSpaces (moreItems turn) :=
  skipsSpaces_peekToken.bind _

theorem skipsSpaces_moreMembers (turn : Turn) : SkipsSpaces (moreMembers turn) :=
  skipsSpaces_peekToken.bind _

theorem skipsSpaces_document (n : Nat) : SkipsSpaces (document (n + 1)) :=
  skipsSpaces_peekToken.bind _

/-- Spaces in front change nothing. -/
theorem Reads.behind (h : s.Reads l a l') (hs : SkipsSpaces s) (hsp : ∀ c ∈ sp, isSpace c = true) :
    s.Reads (sp ++ l) a l' := by
  induction sp with
  | nil => exact h
  | cons c sp ih =>
    obtain ⟨hc, hsp⟩ := List.forall_mem_cons.1 hsp
    intro index
    obtain ⟨index', hrest⟩ := ih hsp (index + 1)
    exact ⟨index', by rw [List.cons_append, hs c _ index hc, hrest]⟩

theorem Reads.behind_space (h : s.Reads l a l') (hs : SkipsSpaces s) :
    s.Reads (' ' :: l) a l' := by
  have hspace : ∀ c ∈ [' '], isSpace c = true := List.forall_mem_singleton.2 (by decide)
  exact h.behind hs hspace

theorem isSpace_lineBreak : ∀ c ∈ Value.lineBreak depth, isSpace c = true := by
  intro c hc
  simp only [Value.lineBreak, List.mem_cons, List.mem_replicate] at hc
  rcases hc with rfl | ⟨-, rfl⟩ <;> decide

/-! ## Numbers -/

/-- Nothing but zero begins with a zero. -/
theorem exists_toDigits_eq_cons (hn : 0 < n) : ∃ c l, Nat.toDigits 10 n = c :: l ∧ c ≠ '0' := by
  induction n using Nat.strongRecOn with
  | ind n ih =>
    rw [Nat.toDigits_eq_if (by decide)]
    split
    · rename_i hlt
      have hdigit : ∀ k : Fin 10, 0 < k.val → k.val.digitChar ≠ '0' := by decide
      exact ⟨_, [], rfl, hdigit ⟨n, hlt⟩ hn⟩
    · obtain ⟨c, l, hdigits, hc⟩ := ih (n / 10) (by omega) (by omega)
      exact ⟨c, l ++ _, by rw [hdigits, List.cons_append], hc⟩

theorem reads_digits {ds : List Char} (hds : ∀ c ∈ ds, c.isDigit = true)
    (hl : ∀ c ∈ l.head?, c.isDigit = false) : digits.Reads (ds ++ l) ds l := by
  have htake : (ds ++ l).takeWhile Char.isDigit = ds := by
    rw [List.takeWhile_append_of_pos hds]
    cases l with
    | nil => simp
    | cons c l => simp [hl c rfl]
  have hdrop : (ds ++ l).dropWhile Char.isDigit = l := by
    rw [List.dropWhile_append_of_pos hds]
    cases l with
    | nil => simp
    | cons c l => simp [hl c rfl]
  intro index
  exact ⟨index + ds.length, by simp only [digits, htake, hdrop]⟩

theorem reads_natural (hl : ∀ c ∈ l.head?, c.isDigit = false) :
    natural.Reads (Nat.toDigits 10 n ++ l) n l := by
  have hvalue : Nat.ofDigitChars 10 (Nat.toDigits 10 n) 0 = n := Nat.ofDigitChars_ten_toDigits
  suffices hdigits : (wholeDigits .unfinishedValue).Reads (Nat.toDigits 10 n ++ l)
      (Nat.toDigits 10 n) l by
    have hnatural := hdigits.map (f := fun ds => Nat.ofDigitChars 10 ds 0)
    rwa [hvalue] at hnatural
  have hall : ∀ c ∈ Nat.toDigits 10 n, c.isDigit = true := fun c hc =>
    Nat.isDigit_of_mem_toDigits (by decide) (by decide) hc
  refine reads_peek.bind ?_
  rcases Nat.eq_zero_or_pos n with rfl | hn
  · rw [Nat.toDigits_zero, List.singleton_append]
    refine reads_skip.bind (reads_peek.bind ?_)
    cases l with
    | nil => exact reads_pure
    | cons c l =>
      simp only [List.head?_cons, hl c rfl, Bool.false_eq_true, if_false]
      exact reads_pure
  · obtain ⟨c, ds, hdigits, hc⟩ := exists_toDigits_eq_cons hn
    have hdigit : c.isDigit = true := hall c (hdigits ▸ List.mem_cons_self)
    have hread := reads_digits hall hl
    rw [hdigits] at hread ⊢
    simpa only [List.cons_append, List.head?_cons, hc, hdigit, if_true, if_false] using hread

/-! ## Punctuation -/

theorem reads_moreItems_behind (hc : isSpace c = false) (hne : c ≠ ']')
    (hsp : ∀ c ∈ sp, isSpace c = true) :
    (moreItems .later).Reads (',' :: (sp ++ c :: l)) true (c :: l) := by
  refine (reads_peekToken_cons (by decide)).bind (reads_skip.bind ?_)
  refine ((reads_peekToken_cons hc).behind skipsSpaces_peekToken hsp).bind ?_
  split
  · simp_all
  · simp_all
  · exact reads_pure

theorem reads_moreMembers_behind (hsp : ∀ c ∈ sp, isSpace c = true) :
    (moreMembers .later).Reads (',' :: (sp ++ '\x22' :: l)) true ('\x22' :: l) := by
  refine (reads_peekToken_cons (by decide)).bind (reads_skip.bind ?_)
  exact ((reads_peekToken_cons (by decide)).behind skipsSpaces_peekToken hsp).bind reads_pure

/-- The first character of a document is neither a space nor a closing bracket. -/
theorem exists_pretty_eq_cons (v : Value) :
    ∃ c l, v.pretty depth = c :: l ∧ isSpace c = false ∧ c ≠ ']' := by
  have hhead : (v.pretty depth).head? = v.compact.head? := by
    cases v with
    | list vs => cases vs <;> rfl
    | object ms => cases ms <;> rfl
    | _ => rfl
  obtain ⟨c, l, hcompact, hc⟩ := exists_compact_eq_cons v
  rw [hcompact] at hhead
  obtain ⟨l', hpretty⟩ := List.head?_eq_some_iff.1 hhead
  exact ⟨c, l', hpretty, hc⟩

theorem head_prettyItems {vs : List Value} :
    ∀ c ∈ (Value.prettyItems depth vs ++ l).head?, c.isDigit = false := by
  cases vs <;> simp [Value.prettyItems, Value.lineBreak]

theorem head_prettyMembers {ms : List (String × Value)} :
    ∀ c ∈ (Value.prettyMembers depth ms ++ l).head?, c.isDigit = false := by
  cases ms <;> simp [Value.prettyMembers, Value.lineBreak]

theorem length_lt_length_prettyItems (vs : List Value) :
    vs.length < (Value.prettyItems depth vs).length := by
  induction vs with
  | nil => simp [Value.prettyItems]
  | cons v vs ih =>
    simp only [Value.prettyItems, List.cons_append, List.length_cons, List.length_append]
    omega

theorem length_lt_length_prettyMembers (ms : List (String × Value)) :
    ms.length < (Value.prettyMembers depth ms).length := by
  induction ms with
  | nil => simp [Value.prettyMembers]
  | cons m ms ih =>
    simp only [Value.prettyMembers, List.cons_append, List.length_cons, List.length_append]
    omega

/-- The characters behind the opening brace are the budget of the members. -/
theorem reads_object {item : Scan α} {ms : List (String × α)}
    (h : (members item l .first []).Reads l ms ('\x7d' :: l')) :
    (object item).Reads ('\x7b' :: l) ms l' := by
  refine (reads_peekToken_cons (by decide)).bind (reads_skip.bind ?_)
  exact Reads.bind (reads_lookahead (f := fun budget => members item budget .first []) h)
    (reads_closeObject.bind reads_pure)

/-- A name and its value, with a space between them, and what is done with both. -/
theorem reads_named {item : Scan α} {f : String → α → Scan β} {b : β} {key : String}
    {l'' : List Char} (hitem : item.Reads (' ' :: l) a l') (hf : (f key a).Reads l' b l'') :
    (do skip; let key ← text; colon; let a ← item; f key a : Scan β).Reads
      (writeText key ++ ':' :: ' ' :: l) b l'' := by
  simp only [writeText, List.cons_append, List.append_assoc]
  exact reads_skip.bind ((reads_text key).bind (reads_colon.bind (hitem.bind hf)))

/-! ## Documents -/

mutual

/-- A document that is laid out over lines is read back. A number must not be followed by another
digit. -/
theorem reads_pretty : ∀ (v : Value) {n depth l}, (v.pretty depth).length < n →
    (∀ c ∈ l.head?, c.isDigit = false) → (document n).Reads (v.pretty depth ++ l) v l
  | .null, n + 1, depth, l, _, _ => by
    refine (reads_peekToken_cons (by decide)).bind ?_
    exact reads_skip.bind ((reads_word ['u', 'l', 'l']).bind reads_pure)
  | .bool b, n + 1, depth, l, _, _ => by
    have hb := (bool_readsAs b).map Value.bool l
    cases b <;> exact (reads_peekToken_cons (by decide)).bind hb
  | .number k, n + 1, depth, l, _, hl => by
    obtain ⟨c, ds, hcompact, hspace, -⟩ := exists_compact_eq_cons (.number k)
    have hdigits : Nat.toDigits 10 k = c :: ds := hcompact
    have hdigit : c.isDigit = true := Nat.isDigit_of_mem_toDigits (b := 10) (n := k) (by decide)
      (by decide) (hdigits ▸ List.mem_cons_self)
    have hk := (reads_natural (n := k) hl).map (f := Value.number)
    rw [Value.pretty, hdigits, List.cons_append]
    rw [hdigits, List.cons_append] at hk
    refine (reads_peekToken_cons hspace).bind ?_
    -- No document of another kind begins with a digit.
    split
    all_goals first
      | exact hk
      | simp_all
  | .text t, n + 1, depth, l, _, _ =>
    (reads_peekToken_cons (by decide)).bind (reads_string t).map
  | .list [], n + 1, depth, l, _, _ => by
    have hend : (items (document n) (']' :: l) .first []).Reads (']' :: l) [] (']' :: l) :=
      (reads_moreItems_end .first).bind reads_pure
    exact (reads_peekToken_cons (by decide)).bind (reads_list hend).map
  | .list (v :: vs), n + 1, depth, l, hn, _ => by
    obtain ⟨c, m, hpretty, hc, hne⟩ := @exists_pretty_eq_cons (depth + 1) v
    have hmore : (moreItems .first).Reads
        (Value.lineBreak (depth + 1) ++ (v.pretty (depth + 1) ++ (Value.prettyItems depth vs ++ l)))
        true (v.pretty (depth + 1) ++ (Value.prettyItems depth vs ++ l)) := by
      rw [hpretty]
      exact (reads_moreItems_first hc hne).behind (skipsSpaces_moreItems _) isSpace_lineBreak
    simp only [Value.pretty, List.length_append, List.length_cons] at hn
    have hlength := @length_lt_length_prettyItems depth vs
    have hv : (document n).Reads (v.pretty (depth + 1) ++ (Value.prettyItems depth vs ++ l)) v
        (Value.prettyItems depth vs ++ l) := reads_pretty v (by omega) head_prettyItems
    simp only [Value.pretty, List.cons_append, List.append_assoc]
    refine (reads_peekToken_cons (by decide)).bind (reads_list ?_).map
    refine hmore.bind (hv.bind (reads_prettyItems vs (by omega) ?_))
    simp only [List.append_eq, List.length_append]
    omega
  | .object [], n + 1, depth, l, _, _ => by
    have hend : (members (document n) ('\x7d' :: l) .first []).Reads ('\x7d' :: l) []
        ('\x7d' :: l) := (reads_moreMembers_end .first).bind reads_pure
    exact (reads_peekToken_cons (by decide)).bind (reads_object hend).map
  | .object ((k, v) :: ms), n + 1, depth, l, hn, _ => by
    have hmore : (moreMembers .first).Reads
        (Value.lineBreak (depth + 1) ++ (writeText k ++ ':' :: ' ' ::
          (v.pretty (depth + 1) ++ (Value.prettyMembers depth ms ++ l)))) true
        (writeText k ++ ':' :: ' ' ::
          (v.pretty (depth + 1) ++ (Value.prettyMembers depth ms ++ l))) :=
      reads_moreMembers_first.behind (skipsSpaces_moreMembers _) isSpace_lineBreak
    simp only [Value.pretty, List.length_append, List.length_cons] at hn
    have hlength := @length_lt_length_prettyMembers depth ms
    obtain ⟨n, rfl⟩ : ∃ k, n = k + 1 := ⟨n - 1, by omega⟩
    have hv : (document (n + 1)).Reads
        (v.pretty (depth + 1) ++ (Value.prettyMembers depth ms ++ l)) v
        (Value.prettyMembers depth ms ++ l) := reads_pretty v (by omega) head_prettyMembers
    simp only [Value.pretty, List.cons_append, List.append_assoc]
    refine (reads_peekToken_cons (by decide)).bind (reads_object ?_).map
    refine hmore.bind (reads_named (hv.behind_space (skipsSpaces_document n))
      (reads_prettyMembers ms (by omega) ?_))
    simp only [List.append_eq, List.length_append, List.length_cons]
    omega

theorem reads_prettyItems : ∀ (vs : List Value) {n depth l budget seen},
    (Value.prettyItems depth vs).length < n → vs.length < budget.length →
      (items (document n) budget .later seen).Reads (Value.prettyItems depth vs ++ l)
        (seen.reverse ++ vs) (']' :: l)
  | [], n, depth, l, _ :: budget, seen, _, _ => by
    have hend : (moreItems .later).Reads (Value.lineBreak depth ++ ']' :: l) false (']' :: l) :=
      (reads_moreItems_end .later).behind (skipsSpaces_moreItems _) isSpace_lineBreak
    rw [Value.prettyItems, List.append_assoc, List.append_nil]
    exact hend.bind reads_pure
  | v :: vs, n, depth, l, _ :: budget, seen, hn, hbudget => by
    obtain ⟨c, m, hpretty, hc, hne⟩ := @exists_pretty_eq_cons (depth + 1) v
    have hmore : (moreItems .later).Reads (',' :: (Value.lineBreak (depth + 1) ++
        (v.pretty (depth + 1) ++ (Value.prettyItems depth vs ++ l)))) true
        (v.pretty (depth + 1) ++ (Value.prettyItems depth vs ++ l)) := by
      rw [hpretty]
      exact reads_moreItems_behind hc hne isSpace_lineBreak
    simp only [Value.prettyItems, List.cons_append, List.length_append, List.length_cons] at hn
    have hv : (document n).Reads (v.pretty (depth + 1) ++ (Value.prettyItems depth vs ++ l)) v
        (Value.prettyItems depth vs ++ l) := reads_pretty v (by omega) head_prettyItems
    have hvs : (items (document n) budget .later (v :: seen)).Reads
        (Value.prettyItems depth vs ++ l) ((v :: seen).reverse ++ vs) (']' :: l) :=
      reads_prettyItems vs (by omega) (by simpa using hbudget)
    rw [List.reverse_cons, List.append_assoc] at hvs
    simp only [Value.prettyItems, List.cons_append, List.append_assoc]
    exact hmore.bind (hv.bind hvs)

theorem reads_prettyMembers : ∀ (ms : List (String × Value)) {n depth l budget seen},
    (Value.prettyMembers depth ms).length < n → ms.length < budget.length →
      (members (document n) budget .later seen).Reads (Value.prettyMembers depth ms ++ l)
        (seen.reverse ++ ms) ('\x7d' :: l)
  | [], n, depth, l, _ :: budget, seen, _, _ => by
    have hend : (moreMembers .later).Reads (Value.lineBreak depth ++ '\x7d' :: l) false
        ('\x7d' :: l) :=
      (reads_moreMembers_end .later).behind (skipsSpaces_moreMembers _) isSpace_lineBreak
    rw [Value.prettyMembers, List.append_assoc, List.append_nil]
    exact hend.bind reads_pure
  | (k, v) :: ms, n + 1, depth, l, _ :: budget, seen, hn, hbudget => by
    have hmore : (moreMembers .later).Reads
        (',' :: (Value.lineBreak (depth + 1) ++ (writeText k ++ ':' :: ' ' ::
          (v.pretty (depth + 1) ++ (Value.prettyMembers depth ms ++ l))))) true
        (writeText k ++ ':' :: ' ' ::
          (v.pretty (depth + 1) ++ (Value.prettyMembers depth ms ++ l))) :=
      reads_moreMembers_behind isSpace_lineBreak
    simp only [Value.prettyMembers, List.cons_append, List.length_append, List.length_cons] at hn
    have hv : (document (n + 1)).Reads
        (v.pretty (depth + 1) ++ (Value.prettyMembers depth ms ++ l)) v
        (Value.prettyMembers depth ms ++ l) := reads_pretty v (by omega) head_prettyMembers
    have hms : (members (document (n + 1)) budget .later ((k, v) :: seen)).Reads
        (Value.prettyMembers depth ms ++ l) (((k, v) :: seen).reverse ++ ms) ('\x7d' :: l) :=
      reads_prettyMembers ms (by omega) (by simpa using hbudget)
    rw [List.reverse_cons, List.append_assoc] at hms
    simp only [Value.prettyMembers, List.cons_append, List.append_assoc]
    exact hmore.bind (reads_named (hv.behind_space (skipsSpaces_document n)) hms)

end

end Scan

/-- A document is read back from its text that is laid out over lines. -/
theorem Value.read_prettyText (v : Value) : Value.read v.prettyText = .ok v := by
  have htext : Cursor.ofText v.prettyText = ⟨v.pretty 0, 0⟩ := by
    rw [Cursor.ofText, prettyText, String.toList_ofList]
  have hlength : (v.pretty 0).length < v.prettyText.length + 1 := by
    rw [prettyText, String.length_ofList]
    exact Nat.lt_succ_self _
  have hscan := Scan.reads_pretty v (l := []) hlength (by simp)
  have hall : (do let v ← Scan.document (v.prettyText.length + 1); Scan.endOfText; pure v :
      Scan Value).Reads (v.pretty 0) v [] := by
    rw [List.append_nil] at hscan
    exact hscan.bind (Scan.reads_endOfText.bind Scan.reads_pure)
  obtain ⟨index, hread⟩ := hall 0
  rw [read, htext, StateT.run, hread]

end ClassDiagram.Json
