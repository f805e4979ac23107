/-!
# JSON documents

Documents as values, and the two ways of writing them: without any space, and laid out over lines.
The order of the members of an object is kept. Both writers work on characters, so that a text can
be taken apart again character by character.
-/

namespace ClassDiagram.Json

/-- A JSON document. Numbers are natural, which is all that is ever written. -/
inductive Value where
  | null
  | bool (b : Bool)
  | number (n : Nat)
  | text (s : String)
  | list (items : List Value)
  | object (members : List (String × Value))

/-- One character inside a written string. -/
def escapeChar (c : Char) : List Char :=
  if c = '\x22' then ['\\', '\x22']
  else if c = '\\' then ['\\', '\\']
  else if c = '\x08' then ['\\', 'b']
  else if c = '\t' then ['\\', 't']
  else if c = '\n' then ['\\', 'n']
  else if c = '\x0c' then ['\\', 'f']
  else if c = '\r' then ['\\', 'r']
  else if c.toNat < 0x20 then
    ['\\', 'u', '0', '0'] ++ [Nat.digitChar (c.toNat / 16), Nat.digitChar (c.toNat % 16)]
  else [c]

/-- A string between quotes. Only quotes, backslashes and controls are escaped. -/
def writeText (s : String) : List Char := '\x22' :: s.toList.flatMap escapeChar ++ ['\x22']

/-- A truth value. -/
def writeBool (b : Bool) : List Char := (toString b).toList

namespace Value

mutual

/-- The document without any space. -/
def compact : Value → List Char
  | .null => ['n', 'u', 'l', 'l']
  | .bool b => writeBool b
  | .number n => Nat.toDigits 10 n
  | .text s => writeText s
  | .list [] => ['[', ']']
  | .list (v :: vs) => '[' :: v.compact ++ compactItems vs
  | .object [] => ['\x7b', '\x7d']
  | .object ((k, v) :: ms) => '\x7b' :: writeText k ++ ':' :: v.compact ++ compactMembers ms

/-- The items after the first one, and the closing bracket. -/
def compactItems : List Value → List Char
  | [] => [']']
  | v :: vs => ',' :: v.compact ++ compactItems vs

/-- The members after the first one, and the closing brace. -/
def compactMembers : List (String × Value) → List Char
  | [] => ['\x7d']
  | (k, v) :: ms => ',' :: writeText k ++ ':' :: v.compact ++ compactMembers ms

end

/-- A line break and the indentation of the given depth, two spaces a step. -/
def lineBreak (depth : Nat) : List Char := '\n' :: List.replicate (2 * depth) ' '

mutual

/-- The document laid out over lines, one item or member a line; empty brackets stay together. -/
def pretty (depth : Nat) : Value → List Char
  | .null => ['n', 'u', 'l', 'l']
  | .bool b => writeBool b
  | .number n => Nat.toDigits 10 n
  | .text s => writeText s
  | .list [] => ['[', ']']
  | .list (v :: vs) =>
    '[' :: lineBreak (depth + 1) ++ v.pretty (depth + 1) ++ prettyItems depth vs
  | .object [] => ['\x7b', '\x7d']
  | .object ((k, v) :: ms) =>
    '\x7b' :: lineBreak (depth + 1) ++ writeText k ++ ':' :: ' ' :: v.pretty (depth + 1) ++
      prettyMembers depth ms

/-- The items after the first one, and the closing bracket on a line of its own. -/
def prettyItems (depth : Nat) : List Value → List Char
  | [] => lineBreak depth ++ [']']
  | v :: vs => ',' :: lineBreak (depth + 1) ++ v.pretty (depth + 1) ++ prettyItems depth vs

/-- The members after the first one, and the closing brace on a line of its own. -/
def prettyMembers (depth : Nat) : List (String × Value) → List Char
  | [] => lineBreak depth ++ ['\x7d']
  | (k, v) :: ms =>
    ',' :: lineBreak (depth + 1) ++ writeText k ++ ':' :: ' ' :: v.pretty (depth + 1) ++
      prettyMembers depth ms

end

/-- The text without any space. -/
def compactText (v : Value) : String := String.ofList v.compact

/-- The text laid out over lines. -/
def prettyText (v : Value) : String := String.ofList (v.pretty 0)

end Value

end ClassDiagram.Json
