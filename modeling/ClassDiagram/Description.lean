import ClassDiagram.Handle
import ClassDiagram.Kind
/-!
# Type descriptions

Everything a diagram may ask about one type. Other types occur in a description only as handles,
so a description can be formed before the types it refers to.
-/

namespace ClassDiagram

/-- A declared property. -/
structure Property where
  name : String
  valueType : Handle
  /-- The property can be set from outside; such a property counts as public. -/
  settable : Bool := true
  isStatic : Bool := false
deriving DecidableEq, Repr

/-- A declared method. -/
structure Method where
  name : String
  visibility : Visibility
  isStatic : Bool := false
  /-- The method was generated, as an accessor is; such a method is never listed. -/
  special : Bool := false
deriving DecidableEq, Repr

/-- A described type. -/
structure Description where
  name : String
  kind : Kind
  base : Option Handle := none
  /-- Implemented interfaces, in declaration order. -/
  interfaces : List Handle := []
  /-- Declared properties, inherited ones left out, in declaration order. -/
  properties : List Property := []
  /-- Declared methods, inherited ones left out, in declaration order. -/
  methods : List Method := []
  /-- The generic type that this one was constructed from. -/
  definition : Option Handle := none
  /-- The types this one was constructed with. -/
  arguments : List Handle := []
  /-- The type can be enumerated, so a property of it may stand for many elements. -/
  enumerable : Bool := false
deriving DecidableEq, Repr

namespace Description

/-- A type of which no more is told than its kind and name. -/
def plain (kind : Kind) (name : String) : Description := { name, kind }

/-- A class that other types are constructed from. -/
def generic (name : String) (enumerable : Bool) : Description :=
  { plain .reference name with enumerable }

/-- The type was constructed with at least one argument. -/
def isGeneric (d : Description) : Bool := !d.arguments.isEmpty

end Description

/-- One change to a described type. None of them touches its name, kind, definition or arguments. -/
inductive Edit where
  | setBase (base : Handle)
  | addInterface (interface : Handle)
  | markEnumerable
  | addProperty (property : Property)
  | addMethod (method : Method)
deriving DecidableEq, Repr

namespace Edit

/-- The description after the change. -/
def apply (d : Description) : Edit → Description
  | setBase base => { d with base := some base }
  | addInterface interface => { d with interfaces := d.interfaces ++ [interface] }
  | markEnumerable => { d with enumerable := true }
  | addProperty property => { d with properties := d.properties ++ [property] }
  | addMethod method => { d with methods := d.methods ++ [method] }

/-- Adds a property that can be set. -/
def property (name : String) (valueType : Handle) : Edit := addProperty { name, valueType }

/-- Adds a property that cannot be set from outside. -/
def readonlyProperty (name : String) (valueType : Handle) : Edit :=
  addProperty { name, valueType, settable := false }

/-- Adds a static property. -/
def staticProperty (name : String) (valueType : Handle) : Edit :=
  addProperty { name, valueType, isStatic := true }

/-- Adds a method. -/
def method (name : String) (visibility : Visibility) : Edit := addMethod { name, visibility }

/-- Adds a static method. -/
def staticMethod (name : String) (visibility : Visibility) : Edit :=
  addMethod { name, visibility, isStatic := true }

/-- Adds an accessor, which is generated and so never listed. -/
def accessor (name : String) : Edit := addMethod { name, visibility := .pub, special := true }

/-- The description after the changes, made in order. -/
def applyAll (edits : List Edit) (d : Description) : Description := edits.foldl apply d

end Edit

end ClassDiagram
