/-!
# Type models

A model is a list of type declarations and a list of type expressions that say what to draw. Types
are referred to by expressions, in any order of declaration.
-/

namespace ClassDiagram

/-- The declaration of a property. -/
structure PropertyDeclaration where
  name : String
  /-- The expression of its type. -/
  type : String
  settable : Bool := true
  isStatic : Bool := false
deriving DecidableEq, Repr

/-- The declaration of a method. -/
structure MethodDeclaration where
  name : String
  visibility : String := "public"
  isStatic : Bool := false
  accessor : Bool := false
deriving DecidableEq, Repr

/-- The declaration of a type. -/
structure TypeDeclaration where
  name : String
  kind : String := "class"
  /-- The expression of the base type. -/
  base : Option String := none
  /-- The expressions of the implemented interfaces. -/
  interfaces : List String := []
  enumerable : Bool := false
  properties : List PropertyDeclaration := []
  methods : List MethodDeclaration := []
deriving DecidableEq, Repr

/-- A model. -/
structure Model where
  types : List TypeDeclaration
  /-- The expressions of the types to draw, in order; without any, every declared type is drawn. -/
  diagram : List String := []
deriving DecidableEq, Repr

end ClassDiagram
