import ClassDiagram.Text.Keyword
/-!
# Kinds and visibilities

The two closed vocabularies of the type descriptions. Each is read case-insensitively and written
in one canonical spelling.
-/

namespace ClassDiagram

/-- The broad category of a type. -/
inductive Kind where
  /-- A class: a type with identity, and the only kind that is drawn. -/
  | reference
  | interface
  /-- A value type declared by a user. -/
  | value
  | enumeration
  /-- A built-in scalar. -/
  | scalar
deriving DecidableEq, Repr, Inhabited

namespace Kind

/-- The canonical spelling. -/
def text : Kind → String
  | reference => "class"
  | interface => "interface"
  | value => "struct"
  | enumeration => "enum"
  | scalar => "primitive"

/-- Reads a kind; a value type may also be spelt `value` or `value_type`. -/
def ofText? (s : String) : Option Kind :=
  Text.keyword?
    [("class", reference), ("interface", interface), ("struct", value), ("value", value),
      ("value_type", value), ("enum", enumeration), ("primitive", scalar)] s

/-- Types of this kind get a class block. -/
def isDrawn (k : Kind) : Bool := k == reference

end Kind

/-- The declared visibility of a method. -/
inductive Visibility where
  | pub
  | prot
  | intern
  | priv
deriving DecidableEq, Repr, Inhabited

namespace Visibility

/-- The canonical spelling. -/
def text : Visibility → String
  | pub => "public"
  | prot => "protected"
  | intern => "internal"
  | priv => "private"

/-- Reads a visibility. -/
def ofText? (s : String) : Option Visibility :=
  Text.keyword? [("public", pub), ("protected", prot), ("internal", intern), ("private", priv)] s

/-- Only a public method counts as public in a member list. -/
def isPublic (v : Visibility) : Bool := v == pub

end Visibility

end ClassDiagram
