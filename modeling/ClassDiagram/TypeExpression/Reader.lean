import ClassDiagram.Text.Blank
import ClassDiagram.TypeExpression.Basic
/-!
# Reading type expressions

The reader is an automaton with a stack. It takes one character at a time, so what it has taken is
always the beginning of some type expression, and a text is refused at the first character that no
type expression goes on with. What could have stood there is read off the state alone.

Blanks may stand around names and brackets. A name begins with a character that is not blank and
goes on up to a bracket, a comma, a space, a tab or a line break; other blanks may occur inside it.
-/

namespace ClassDiagram.TypeExpression

/-- The character ends a name. -/
def endsName (c : Char) : Bool :=
  c == '<' || c == '>' || c == ',' || c == ' ' || c == '\t' || c == '\r' || c == '\n'

/-- Where the reader stands within the innermost argument, or within the whole. -/
inductive Phase where
  /-- Before a name. -/
  | blank
  /-- Behind the characters of a name, which are kept in reverse; it may go on. -/
  | naming (reversed : List Char)
  /-- Behind a name and at least one blank. -/
  | named (name : String)
  /-- Behind a closing bracket. -/
  | closed (e : TypeExpression)

/-- A generic expression whose bracket is open: its name and its finished arguments in reverse. -/
structure Opened where
  name : String
  finished : List TypeExpression

/-- A state of the reader: the phase, and the brackets that are open, the innermost first. -/
structure State where
  phase : Phase
  stack : List Opened

/-- The state before the first character. -/
def State.start : State := ⟨.blank, []⟩

/-- The name that the characters kept in reverse spell. -/
def nameOf (reversed : List Char) : String := String.ofList reversed.reverse

/-- The expression that ends here, unless one has yet to begin. -/
def Phase.expression? : Phase → Option TypeExpression
  | blank => none
  | naming reversed => some (node (nameOf reversed) [])
  | named name => some (node name [])
  | closed e => some e

/-- The name that an opening bracket may follow. -/
def Phase.name? : Phase → Option String
  | naming reversed => some (nameOf reversed)
  | named name => some name
  | _ => none

/-- The state behind an opening bracket. -/
def State.open? (s : State) : Option State :=
  s.phase.name?.map fun name => ⟨.blank, ⟨name, []⟩ :: s.stack⟩

/-- The state behind a comma, which needs an argument before it and an open bracket. -/
def State.next? (s : State) : Option State :=
  match s.phase.expression?, s.stack with
  | some e, o :: outer => some ⟨.blank, ⟨o.name, e :: o.finished⟩ :: outer⟩
  | _, _ => none

/-- The state behind a closing bracket. -/
def State.close? (s : State) : Option State :=
  match s.phase.expression?, s.stack with
  | some e, o :: outer => some ⟨.closed (node o.name (e :: o.finished).reverse), outer⟩
  | _, _ => none

/-- The state behind a blank that ends a name, or behind any blank outside a name. -/
def State.pause (s : State) : State :=
  match s.phase with
  | .naming reversed => { s with phase := .named (nameOf reversed) }
  | _ => s

/-- The state behind one more character, if the character can stand there. -/
def State.step (s : State) (c : Char) : Option State :=
  if c = '<' then s.open?
  else if c = ',' then s.next?
  else if c = '>' then s.close?
  else
    match s.phase with
    | .blank => if Text.isBlank c then some s else some { s with phase := .naming [c] }
    | .naming reversed =>
      if endsName c then some s.pause else some { s with phase := .naming (c :: reversed) }
    | .named _ | .closed _ => if Text.isBlank c then some s else none

/-- The expression of a text that ends in this state. -/
def State.result? (s : State) : Option TypeExpression :=
  match s.stack with
  | [] => s.phase.expression?
  | _ :: _ => none

/-- Something that could have stood where a text is refused. -/
inductive Expectation where
  /-- A character of a name. -/
  | nameCharacter
  | openBracket
  | comma
  | closeBracket
  | endOfText
deriving DecidableEq, Repr

/-- The words for an expectation. -/
def Expectation.words : Expectation → String
  | nameCharacter => "something else"
  | openBracket => "'<'"
  | comma => "','"
  | closeBracket => "'>'"
  | endOfText => "end of input"

/-- What may follow a finished expression. -/
def State.follow (s : State) : List Expectation :=
  match s.stack with
  | [] => [.endOfText]
  | _ :: _ => [.comma, .closeBracket]

/-- What could stand next. -/
def State.expected (s : State) : List Expectation :=
  match s.phase with
  | .blank => [.nameCharacter]
  | .naming _ => .nameCharacter :: .openBracket :: s.follow
  | .named _ => .openBracket :: s.follow
  | .closed _ => s.follow

/-- Why a text is no type expression: what stands at the byte `index`, and what could have. -/
structure Fault where
  /-- The character found, or nothing at the end of the text. -/
  found : Option Char
  expected : List Expectation
  index : Nat
deriving DecidableEq, Repr

/-- A list of alternatives, with a comma after each but the last. -/
def alternatives : List String → String
  | [] => ""
  | [a] => a
  | [a, b] => a ++ ", or " ++ b
  | a :: rest => a ++ ", " ++ alternatives rest

/-- The wording of a fault. -/
def Fault.message (f : Fault) : String :=
  let found := match f.found with
    | none => "end of input"
    | some c => "'" ++ String.singleton c ++ "'"
  "found " ++ found ++ " expected " ++ alternatives (f.expected.map Expectation.words) ++
    " at " ++ toString f.index

/-- Takes the characters that follow the first `index` bytes. -/
def State.run (s : State) (index : Nat) : List Char → Except Fault TypeExpression
  | [] =>
    match s.result? with
    | some e => .ok e
    | none => .error ⟨none, s.expected, index⟩
  | c :: rest =>
    match s.step c with
    | some next => next.run (index + c.utf8Size) rest
    | none => .error ⟨some c, s.expected, index⟩

/-- Reads a text that is one type expression. -/
def read (text : String) : Except Fault TypeExpression := State.start.run 0 text.toList

end ClassDiagram.TypeExpression
