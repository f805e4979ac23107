import ClassDiagram.Json.Fault
/-!
# Scanning JSON

A cursor stands in a text: it holds the characters still to come and counts the bytes that went
before. A scanner moves a cursor forward or stops with a fault. This module has the punctuation
that lists and objects share; what it leaves unsaid about a place is said by `failHere`, a fault
at the cursor, and `failNext`, a fault at the byte that comes next.
-/

namespace ClassDiagram.Json

/-- The number of bytes of characters. -/
def byteLength : List Char → Nat
  | [] => 0
  | c :: rest => c.utf8Size + byteLength rest

/-- A place in a text, and what follows it. -/
structure Cursor where
  rest : List Char
  index : Nat
deriving DecidableEq, Repr

namespace Cursor

/-- The start of a text. -/
def ofText (text : String) : Cursor := ⟨text.toList, 0⟩

end Cursor

/-- A scanner of values of type `α`. -/
abbrev Scan (α : Type) := StateT Cursor (Except Fault) α

namespace Scan

/-- Stops with a fault at the cursor. -/
def failHere {α : Type} (cause : Cause) : Scan α := fun c => .error ⟨cause, c.index⟩

/-- Stops with a fault after the next byte, or at the end of the text. -/
def failNext {α : Type} (cause : Cause) : Scan α := fun c =>
  .error ⟨cause, if c.rest.isEmpty then c.index else c.index + 1⟩

/-- The next character, left where it is. -/
def peek : Scan (Option Char) := fun c => .ok (c.rest.head?, c)

/-- Passes over the next character. -/
def skip : Scan Unit := fun c =>
  match c.rest with
  | [] => .ok ((), c)
  | a :: rest => .ok ((), ⟨rest, c.index + a.utf8Size⟩)

/-- The four characters that may stand between tokens. -/
def isSpace (c : Char) : Bool := c == ' ' || c == '\n' || c == '\t' || c == '\r'

/-- Passes over spaces. -/
def skipSpaces : Scan Unit := fun c =>
  let rest := c.rest.dropWhile isSpace
  .ok ((), ⟨rest, c.index + (c.rest.takeWhile isSpace).length⟩)

/-- Passes over spaces and looks at the character after them. -/
def peekToken : Scan (Option Char) := do
  skipSpaces
  peek

/-- Passes over the characters of a word, which differs from the text at the first character that
is not the one expected. -/
def word : List Char → Scan Unit
  | [] => pure ()
  | w :: ws => do
    match ← peek with
    | none => failHere .unfinishedValue
    | some a => if a = w then do skip; word ws else failNext .expectedWord

/-- What a scanner of a list or an object remembers between two of its parts. -/
inductive Turn where
  | first
  | later
deriving DecidableEq, Repr

/-- Whether a list has another item; the cursor is then in front of it, else in front of the
closing bracket. -/
def moreItems (turn : Turn) : Scan Bool := do
  match ← peekToken with
  | none => failNext .unfinishedList
  | some ']' => pure false
  | some a =>
    match turn with
    | .first => pure true
    | .later =>
      if a = ',' then do
        skip
        match ← peekToken with
        | none => failNext .unfinishedValue
        | some ']' => failNext .trailingComma
        | some _ => pure true
      else failNext .expectedListCommaOrEnd

/-- Whether an object has another member; the cursor is then in front of the quote of its name,
else in front of the closing brace. -/
def moreMembers (turn : Turn) : Scan Bool := do
  match ← peekToken with
  | none => failNext .unfinishedObject
  | some '\x7d' => pure false
  | some a =>
    match turn with
    | .first => if a = '\x22' then pure true else failNext .keyMustBeString
    | .later =>
      if a = ',' then do
        skip
        match ← peekToken with
        | none => failNext .unfinishedValue
        | some '\x22' => pure true
        | some '\x7d' => failNext .trailingComma
        | some _ => failNext .keyMustBeString
      else failNext .expectedObjectCommaOrEnd

/-- The end of a list. -/
def closeList : Scan Unit := do
  match ← peekToken with
  | none => failNext .unfinishedList
  | some ']' => skip
  | some ',' => do
    skip
    match ← peekToken with
    | some ']' => failNext .trailingComma
    | _ => failNext .trailingCharacters
  | some _ => failNext .trailingCharacters

/-- The end of an object. -/
def closeObject : Scan Unit := do
  match ← peekToken with
  | none => failNext .unfinishedObject
  | some '\x7d' => skip
  | some ',' => failNext .trailingComma
  | some _ => failNext .trailingCharacters

/-- The colon between a name and its value. -/
def colon : Scan Unit := do
  match ← peekToken with
  | none => failNext .unfinishedObject
  | some ':' => skip
  | some _ => failNext .expectedColon

/-- The end of the text. -/
def endOfText : Scan Unit := do
  match ← peekToken with
  | none => pure ()
  | some _ => failNext .trailingCharacters

end Scan

end ClassDiagram.Json
