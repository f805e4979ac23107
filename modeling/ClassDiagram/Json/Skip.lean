import ClassDiagram.Json.Text
import ClassDiagram.Json.Number
/-!
# Passing over values

A value that nobody asked for is passed over at any depth. Only its writing is checked: numbers
may be out of range and surrogates may lack a partner. The brackets that are open are kept in a
list, so depth costs no recursion.
-/

namespace ClassDiagram.Json.Scan

/-- A bracket that is open around the cursor. -/
inductive Bracket where
  | list
  | object
deriving DecidableEq, Repr

/-- The fault of a text that ends inside a bracket. -/
def Bracket.unfinished : Bracket → Cause
  | list => .unfinishedList
  | object => .unfinishedObject

/-- The fault of a text that goes on wrongly after an item or a member. -/
def Bracket.expectedCommaOrEnd : Bracket → Cause
  | list => .expectedListCommaOrEnd
  | object => .expectedObjectCommaOrEnd

/-- The character that closes the bracket. -/
def Bracket.closer : Bracket → Char
  | list => ']'
  | object => '\x7d'

/-- Passes over the beginning of a value: all of a scalar, or an opening bracket. -/
def valueStart : Scan (Option Bracket) := do
  match ← peekToken with
  | none => failNext .unfinishedValue
  | some 'n' => do skip; word ['u', 'l', 'l']; pure none
  | some 't' => do skip; word ['r', 'u', 'e']; pure none
  | some 'f' => do skip; word ['a', 'l', 's', 'e']; pure none
  | some '-' => do skip; skipNumber; pure none
  | some '\x22' => do skip; skipText; pure none
  | some '[' => do skip; pure (some .list)
  | some '\x7b' => do skip; pure (some .object)
  | some a => if a.isDigit then do skipNumber; pure none else failNext .expectedValue

/-- Passes over the name of a member and the colon after it. -/
def memberName : Scan Unit := do
  match ← peekToken with
  | none => failNext .unfinishedObject
  | some '\x22' => do skip; skipText; colon
  | some _ => failNext .keyMustBeString

/-- Passes over what introduces a value inside the bracket. -/
def itemStart : Bracket → Scan Unit
  | .list => pure ()
  | .object => memberName

/-- Passes over the beginning of a value inside the open brackets. The value's own bracket is then
the innermost one, and nothing has been seen in it. -/
def enterValue (outer : List Bracket) : Scan (Turn × List Bracket) := do
  match ← valueStart with
  | some b => pure (.first, b :: outer)
  | none => pure (.later, outer)

/-- Passes over one piece inside a bracket: its end, or the beginning of its next item or member,
which after the first one a comma goes before. -/
def skipPiece (turn : Turn) (b : Bracket) (outer : List Bracket) : Scan (Turn × List Bracket) := do
  match ← peekToken with
  | none => failNext b.unfinished
  | some a =>
    if a = b.closer then do
      skip
      pure (.later, outer)
    else
      match turn with
      | .first => do
        itemStart b
        enterValue (b :: outer)
      | .later =>
        if a = ',' then do
          skip
          itemStart b
          enterValue (b :: outer)
        else failNext b.expectedCommaOrEnd

/-- Passes over pieces until no bracket is open. Every piece has a character at least, so the
remaining characters are a budget for the pieces; when it is used up the text is at its end. -/
def skipPieces : List Char → Turn → List Bracket → Scan Unit
  | _, _, [] => pure ()
  | [], _, b :: _ => failNext b.unfinished
  | _ :: budget, turn, b :: outer => do
    let (turn, outer) ← skipPiece turn b outer
    skipPieces budget turn outer

/-- Passes over one value. -/
def skipValue : Scan Unit := do
  let (turn, outer) ← enterValue []
  fun c => skipPieces c.rest turn outer c

end ClassDiagram.Json.Scan
