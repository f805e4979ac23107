import ClassDiagram.Text.Quoted
/-!
# Faults in JSON texts

Why a text was refused, and where. A fault is found at a byte of the text; its place is reported
as a line, counted from one, and the number of bytes between the start of that line and the fault.
-/

namespace ClassDiagram.Json

/-- What was found where something else was expected. -/
inductive Found where
  | null
  | bool (b : Bool)
  | integer (n : Int)
  /-- A number that is no machine integer, in its shortest decimal form. -/
  | float (text : String)
  | text (s : String)
  | sequence
  | map
deriving DecidableEq, Repr

/-- The words for what was found. -/
def Found.words : Found → String
  | null => "null"
  | bool b => "boolean `" ++ toString b ++ "`"
  | integer n => "integer `" ++ toString n ++ "`"
  | float s => "floating point `" ++ s ++ "`"
  | text s => "string " ++ Text.quoted s
  | sequence => "sequence"
  | map => "map"

/-- The cause of a fault. -/
inductive Cause where
  | unfinishedList
  | unfinishedObject
  | unfinishedString
  | unfinishedValue
  | expectedColon
  | expectedListCommaOrEnd
  | expectedObjectCommaOrEnd
  | expectedWord
  | expectedValue
  | keyMustBeString
  | invalidEscape
  | invalidNumber
  | numberOutOfRange
  | controlCharacter
  | unpairedSurrogate
  | unfinishedSurrogate
  | trailingComma
  | trailingCharacters
  | invalidType (found : Found) (expected : String)
  | invalidLength (length : Nat) (expected : String)
  | duplicateField (name : String)
  | missingField (name : String)
deriving DecidableEq, Repr

/-- The wording of a cause. -/
def Cause.message : Cause → String
  | unfinishedList => "EOF while parsing a list"
  | unfinishedObject => "EOF while parsing an object"
  | unfinishedString => "EOF while parsing a string"
  | unfinishedValue => "EOF while parsing a value"
  | expectedColon => "expected `:`"
  | expectedListCommaOrEnd => "expected `,` or `]`"
  | expectedObjectCommaOrEnd => "expected `,` or `\x7d`"
  | expectedWord => "expected ident"
  | expectedValue => "expected value"
  | keyMustBeString => "key must be a string"
  | invalidEscape => "invalid escape"
  | invalidNumber => "invalid number"
  | numberOutOfRange => "number out of range"
  | controlCharacter => "control character (\\u0000-\\u001F) found while parsing a string"
  | unpairedSurrogate => "lone leading surrogate in hex escape"
  | unfinishedSurrogate => "unexpected end of hex escape"
  | trailingComma => "trailing comma"
  | trailingCharacters => "trailing characters"
  | invalidType found expected => "invalid type: " ++ found.words ++ ", expected " ++ expected
  | invalidLength length expected =>
    "invalid length " ++ toString length ++ ", expected " ++ expected
  | duplicateField name => "duplicate field `" ++ name ++ "`"
  | missingField name => "missing field `" ++ name ++ "`"

/-- A cause, and the number of bytes before the place where it was found. -/
structure Fault where
  cause : Cause
  index : Nat
deriving DecidableEq, Repr

/-- A place in a text. -/
structure Place where
  line : Nat
  column : Nat
deriving DecidableEq, Repr

/-- The place reached after `index` bytes. A line ends with its line feed. -/
def Place.ofIndex (text : String) (index : Nat) : Place :=
  let rec walk (line start seen : Nat) : List Char → Place
    | [] => ⟨line, index - start⟩
    | c :: rest =>
      let next := seen + c.utf8Size
      if index < next then ⟨line, index - start⟩
      else if c = '\n' then walk (line + 1) next next rest
      else walk line start next rest
  walk 1 0 0 text.toList

/-- A fault with the place that is reported for it. -/
structure Refusal where
  cause : Cause
  place : Place
deriving DecidableEq, Repr

/-- The wording of a refusal. -/
def Refusal.message (r : Refusal) : String :=
  r.cause.message ++ " at line " ++ toString r.place.line ++ " column " ++ toString r.place.column

/-- The refusal of a text because of a fault in it. -/
def Fault.refuse (text : String) (f : Fault) : Refusal := ⟨f.cause, Place.ofIndex text f.index⟩

end ClassDiagram.Json
