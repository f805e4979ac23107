import ClassDiagram.Fragment
/-!
# Reading fragments

The text of a fragment can be taken apart again. The reader goes by brackets: all that stands from
an opening bracket to the closing one is a block, whatever is in it, and only between blocks are
there commas and marks of edges. Main statement: a list of segments whose blocks have no bracket
inside is read back from its text.
-/

namespace ClassDiagram

/-! ## The reader -/

/-- A piece of the text of a fragment. -/
inductive Lexeme where
  /-- A block, with its brackets. -/
  | block (text : String)
  | comma
  | mark (kind : EdgeKind)
deriving DecidableEq, Repr

/-- The pieces of a text. Of a block that is open the characters so far are kept, in reverse. -/
def lexemes? : Option (List Char) → List Char → Option (List Lexeme)
  | none, [] => some []
  | none, '[' :: cs => lexemes? (some ['[']) cs
  | none, ',' :: cs => (lexemes? none cs).map (.comma :: ·)
  | none, '^' :: '-' :: cs => (lexemes? none cs).map (.mark .inherits :: ·)
  | none, '-' :: '>' :: cs => (lexemes? none cs).map (.mark .associates :: ·)
  | none, '1' :: '-' :: '0' :: '.' :: '.' :: '*' :: cs =>
    (lexemes? none cs).map (.mark .aggregates :: ·)
  | none, _ => none
  | some _, [] => none
  | some reversed, c :: cs =>
    if c = ']' then
      (lexemes? none cs).map (.block (String.ofList (c :: reversed).reverse) :: ·)
    else if c = '[' then none
    else lexemes? (some (c :: reversed)) cs

/-- A segment as its text shows it: of an edge one sees the two blocks and the kind. -/
inductive ShownSegment where
  | alone (block : String)
  | joined (source : String) (kind : EdgeKind) (target : String)
deriving DecidableEq, Repr

/-- The segments that pieces make up, of which there is at least one, with a comma between two. -/
def segments? : List Lexeme → Option (List ShownSegment)
  | [.block b] => some [.alone b]
  | [.block b, .mark k, .block b'] => some [.joined b k b']
  | .block b :: .comma :: rest => (segments? rest).map (.alone b :: ·)
  | .block b :: .mark k :: .block b' :: .comma :: rest =>
    (segments? rest).map (.joined b k b' :: ·)
  | _ => none

/-- Reads the text of a fragment. -/
def readSegments? (text : String) : Option (List ShownSegment) :=
  match lexemes? none text.toList with
  | none => none
  | some [] => some []
  | some pieces => segments? pieces

/-! ## Blocks -/

/-- There is no bracket in the text. -/
def Unbracketed (s : String) : Prop := ∀ c ∈ s.toList, c ≠ '[' ∧ c ≠ ']'

instance (s : String) : Decidable (Unbracketed s) :=
  List.decidableBAll (fun c => c ≠ '[' ∧ c ≠ ']') s.toList

/-- The text is a block: it has a bracket at either end and none between them. -/
def IsBlock (b : String) : Prop := ∃ inner, Unbracketed inner ∧ b = "[" ++ inner ++ "]"

theorem lexemes?_some {reversed inner rest : List Char} (hi : ∀ c ∈ inner, c ≠ '[' ∧ c ≠ ']') :
    lexemes? (some reversed) (inner ++ ']' :: rest) = (lexemes? none rest).map
      (.block (String.ofList (reversed.reverse ++ inner ++ [']'])) :: ·) := by
  induction inner generalizing reversed with
  | nil => simp [lexemes?]
  | cons c inner ih =>
    obtain ⟨⟨hopen, hclose⟩, hi⟩ := List.forall_mem_cons.1 hi
    have hnext : lexemes? (some reversed) (c :: (inner ++ ']' :: rest)) =
        lexemes? (some (c :: reversed)) (inner ++ ']' :: rest) := by
      simp only [lexemes?, if_neg hclose, if_neg hopen]
    rw [List.cons_append, hnext, ih hi]
    simp

theorem lexemes?_block {b : String} (hb : IsBlock b) (rest : List Char) :
    lexemes? none (b.toList ++ rest) = (lexemes? none rest).map (.block b :: ·) := by
  obtain ⟨inner, hinner, rfl⟩ := hb
  have hsplit : ("[" ++ inner ++ "]").toList ++ rest = '[' :: (inner.toList ++ ']' :: rest) := by
    simp
  have hwhole : String.ofList (['['].reverse ++ inner.toList ++ [']']) = "[" ++ inner ++ "]" := by
    rw [← String.toList_inj]
    simp
  rw [hsplit, lexemes?, lexemes?_some hinner, hwhole]

theorem lexemes?_token (k : EdgeKind) (rest : List Char) :
    lexemes? none (k.token.toList ++ rest) = (lexemes? none rest).map (.mark k :: ·) := by
  cases k <;> simp [EdgeKind.token, lexemes?]

/-! ## Segments -/

namespace ShownSegment

/-- The written form. -/
def text : ShownSegment → String
  | alone b => b
  | joined b k b' => b ++ k.token ++ b'

/-- The pieces of the written form. -/
def lexemes : ShownSegment → List Lexeme
  | alone b => [.block b]
  | joined b k b' => [.block b, .mark k, .block b']

/-- What stands for a class is a block. -/
def HasBlocks : ShownSegment → Prop
  | alone b => IsBlock b
  | joined b _ b' => IsBlock b ∧ IsBlock b'

end ShownSegment

variable {s : ShownSegment} {l : List ShownSegment}

theorem lexemes?_text (hs : s.HasBlocks) (rest : List Char) :
    lexemes? none (s.text.toList ++ rest) = (lexemes? none rest).map (s.lexemes ++ ·) := by
  cases s with
  | alone b => exact lexemes?_block hs rest
  | joined b k b' =>
    simp only [ShownSegment.text, String.toList_append, List.append_assoc, lexemes?_block hs.1,
      lexemes?_token, lexemes?_block hs.2, Option.map_map]
    rfl

theorem pieces_cons_cons (s s' : ShownSegment) (l : List ShownSegment) :
    [Lexeme.comma].intercalate ((s :: s' :: l).map ShownSegment.lexemes) =
      s.lexemes ++ .comma :: [Lexeme.comma].intercalate ((s' :: l).map ShownSegment.lexemes) := by
  simp only [List.map_cons, List.intercalate_cons_cons, List.append_assoc, List.cons_append,
    List.nil_append]

theorem lexemes?_intercalate (hl : ∀ s ∈ l, s.HasBlocks) :
    lexemes? none (",".intercalate (l.map ShownSegment.text)).toList =
      some ([.comma].intercalate (l.map ShownSegment.lexemes)) := by
  induction l with
  | nil => rfl
  | cons s l ih =>
    obtain ⟨hs, hl⟩ := List.forall_mem_cons.1 hl
    cases l with
    | nil =>
      have hread := lexemes?_text hs []
      simpa [lexemes?] using hread
    | cons s' l =>
      have hcomma : ∀ rest, lexemes? none (',' :: rest) = (lexemes? none rest).map (.comma :: ·) :=
        fun rest => by simp only [lexemes?]
      have htext : (",".intercalate ((s :: s' :: l).map ShownSegment.text)).toList =
          s.text.toList ++
            ',' :: (",".intercalate ((s' :: l).map ShownSegment.text)).toList := by
        simp only [List.map_cons, String.intercalate_cons_cons, String.toList_append,
          String.reduceToList, List.append_assoc, List.cons_append, List.nil_append]
      rw [htext, lexemes?_text hs, hcomma, ih hl, pieces_cons_cons]
      rfl

theorem segments?_intercalate (hne : l ≠ []) :
    segments? ([.comma].intercalate (l.map ShownSegment.lexemes)) = some l := by
  induction l with
  | nil => exact absurd rfl hne
  | cons s l ih =>
    cases l with
    | nil => cases s <;> rfl
    | cons s' l =>
      rw [pieces_cons_cons]
      have hrest := ih (List.cons_ne_nil s' l)
      cases s with
      | alone b =>
        rw [ShownSegment.lexemes, List.cons_append, List.nil_append, segments?, hrest]
        rfl
      | joined b k b' =>
        rw [ShownSegment.lexemes, List.cons_append, List.cons_append, List.cons_append,
          List.nil_append, segments?, hrest]
        rfl

/-- A list of segments is read back from its text. -/
theorem readSegments?_intercalate (hl : ∀ s ∈ l, s.HasBlocks) :
    readSegments? (",".intercalate (l.map ShownSegment.text)) = some l := by
  rw [readSegments?, lexemes?_intercalate hl]
  cases l with
  | nil => rfl
  | cons s l =>
    have hsegments := segments?_intercalate (List.cons_ne_nil s l)
    generalize [Lexeme.comma].intercalate ((s :: l).map ShownSegment.lexemes) = pieces at hsegments
    cases pieces with
    | nil => simp [segments?] at hsegments
    | cons p pieces => exact hsegments

end ClassDiagram
