import ClassDiagram.Failure
/-!
# Effects

A program writes to its standard streams and to files. A place need not take all of a text: it may
refuse it, or break off after some of its bytes, in the middle of a character even. What it has
taken stays there, whatever the program does next.
-/

namespace ClassDiagram

/-- The streams that a program starts with. -/
inductive Stream where
  | output
  | messages
deriving DecidableEq, Repr

/-- A place to write to. -/
inductive Place where
  | stream (stream : Stream)
  /-- The file of a path. It is emptied before it takes anything. -/
  | file (path : String)
deriving DecidableEq, Repr

/-- How a place takes a text. -/
inductive Writing where
  | whole
  /-- It takes nothing, and a file stays as it was. -/
  | refused (fault : IoFault)
  /-- It takes the first bytes and no more. -/
  | cut (length : Nat) (fault : IoFault)
deriving DecidableEq, Repr

/-- The bytes that a place has taken at a time. -/
structure Effect where
  place : Place
  bytes : ByteArray

namespace Writing

/-- What is left of a text. -/
def effects (place : Place) (text : String) : Writing → List Effect
  | whole => [⟨place, text.toUTF8⟩]
  | refused _ => []
  | cut length _ => [⟨place, text.toUTF8.extract 0 length⟩]

/-- What the writer of a text is told. -/
def result : Writing → Except IoFault Unit
  | whole => .ok ()
  | refused fault => .error fault
  | cut _ fault => .error fault

end Writing

/-- What is left of a run. -/
structure Outcome where
  exitCode : Nat
  /-- In the order in which they came about. -/
  effects : List Effect

namespace Outcome

/-- The effects apart from messages. -/
def output (o : Outcome) : List Effect := o.effects.filter (·.place ≠ .stream .messages)

end Outcome

end ClassDiagram
