import ClassDiagram.Failure
import ClassDiagram.Json.Record
import ClassDiagram.Json.Value
import ClassDiagram.Model.Basic
/-!
# Models as JSON

How a model is written and read. All fields are written, in the order of their declaration. Read
are objects with any of the fields that have a default left out.
-/

namespace ClassDiagram

namespace PropertyDeclaration

/-- The document of a property. -/
def toJson (p : PropertyDeclaration) : Json.Value :=
  .object [("name", .text p.name), ("type", .text p.type), ("settable", .bool p.settable),
    ("static", .bool p.isStatic)]

/-- A property of which some fields are known. -/
structure Draft where
  name : Option String := none
  type : Option String := none
  settable : Option Bool := none
  isStatic : Option Bool := none

/-- The property of a draft, or the name of a field that it lacks. -/
def Draft.finish (d : Draft) : Except String PropertyDeclaration := do
  let name ← d.name.elim (.error "name") pure
  let type ← d.type.elim (.error "type") pure
  pure { name, type, settable := d.settable.getD true, isStatic := d.isStatic.getD false }

/-- How a property is read. -/
def record : Json.Record Draft PropertyDeclaration where
  name := "PropertySpec"
  blank := {}
  finish := Draft.finish
  fields :=
    [{ name := "name", isSet := (·.name.isSome), optional := false
       scan := fun d => do return { d with name := some (← Json.Scan.string) } },
     { name := "type", isSet := (·.type.isSome), optional := false
       scan := fun d => do return { d with type := some (← Json.Scan.string) } },
     { name := "settable", isSet := (·.settable.isSome)
       scan := fun d => do return { d with settable := some (← Json.Scan.bool) } },
     { name := "static", isSet := (·.isStatic.isSome)
       scan := fun d => do return { d with isStatic := some (← Json.Scan.bool) } }]

end PropertyDeclaration

namespace MethodDeclaration

/-- The document of a method. -/
def toJson (m : MethodDeclaration) : Json.Value :=
  .object [("name", .text m.name), ("visibility", .text m.visibility),
    ("static", .bool m.isStatic), ("accessor", .bool m.accessor)]

/-- A method of which some fields are known. -/
structure Draft where
  name : Option String := none
  visibility : Option String := none
  isStatic : Option Bool := none
  accessor : Option Bool := none

/-- The method of a draft, or the name of a field that it lacks. -/
def Draft.finish (d : Draft) : Except String MethodDeclaration := do
  let name ← d.name.elim (.error "name") pure
  pure { name, visibility := d.visibility.getD "public", isStatic := d.isStatic.getD false,
         accessor := d.accessor.getD false }

/-- How a method is read. -/
def record : Json.Record Draft MethodDeclaration where
  name := "MethodSpec"
  blank := {}
  finish := Draft.finish
  fields :=
    [{ name := "name", isSet := (·.name.isSome), optional := false
       scan := fun d => do return { d with name := some (← Json.Scan.string) } },
     { name := "visibility", isSet := (·.visibility.isSome)
       scan := fun d => do return { d with visibility := some (← Json.Scan.string) } },
     { name := "static", isSet := (·.isStatic.isSome)
       scan := fun d => do return { d with isStatic := some (← Json.Scan.bool) } },
     { name := "accessor", isSet := (·.accessor.isSome)
       scan := fun d => do return { d with accessor := some (← Json.Scan.bool) } }]

end MethodDeclaration

namespace TypeDeclaration

/-- The document of a type. -/
def toJson (t : TypeDeclaration) : Json.Value :=
  .object [("name", .text t.name), ("kind", .text t.kind),
    ("base", t.base.elim .null .text), ("interfaces", .list (t.interfaces.map .text)),
    ("enumerable", .bool t.enumerable),
    ("properties", .list (t.properties.map PropertyDeclaration.toJson)),
    ("methods", .list (t.methods.map MethodDeclaration.toJson))]

/-- A type of which some fields are known. -/
structure Draft where
  name : Option String := none
  kind : Option String := none
  base : Option (Option String) := none
  interfaces : Option (List String) := none
  enumerable : Option Bool := none
  properties : Option (List PropertyDeclaration) := none
  methods : Option (List MethodDeclaration) := none

/-- The type of a draft, or the name of a field that it lacks. -/
def Draft.finish (d : Draft) : Except String TypeDeclaration := do
  let name ← d.name.elim (.error "name") pure
  pure { name, kind := d.kind.getD "class", base := d.base.getD none,
         interfaces := d.interfaces.getD [], enumerable := d.enumerable.getD false,
         properties := d.properties.getD [], methods := d.methods.getD [] }

/-- How a type is read. -/
def record : Json.Record Draft TypeDeclaration where
  name := "TypeSpec"
  blank := {}
  finish := Draft.finish
  fields :=
    [{ name := "name", isSet := (·.name.isSome), optional := false
       scan := fun d => do return { d with name := some (← Json.Scan.string) } },
     { name := "kind", isSet := (·.kind.isSome)
       scan := fun d => do return { d with kind := some (← Json.Scan.string) } },
     { name := "base", isSet := (·.base.isSome)
       scan := fun d => do return { d with base := some (← Json.Scan.string?) } },
     { name := "interfaces", isSet := (·.interfaces.isSome)
       scan := fun d => do
        return { d with interfaces := some (← Json.Scan.list Json.Scan.string) } },
     { name := "enumerable", isSet := (·.enumerable.isSome)
       scan := fun d => do return { d with enumerable := some (← Json.Scan.bool) } },
     { name := "properties", isSet := (·.properties.isSome)
       scan := fun d => do
        return { d with properties := some (← Json.Scan.list PropertyDeclaration.record.scan) } },
     { name := "methods", isSet := (·.methods.isSome)
       scan := fun d => do
        return { d with methods := some (← Json.Scan.list MethodDeclaration.record.scan) } }]

end TypeDeclaration

namespace Model

/-- The document of a model. -/
def toJson (m : Model) : Json.Value :=
  .object [("types", .list (m.types.map TypeDeclaration.toJson)),
    ("diagram", .list (m.diagram.map .text))]

/-- A model of which some fields are known. -/
structure Draft where
  types : Option (List TypeDeclaration) := none
  diagram : Option (List String) := none

/-- The model of a draft, or the name of a field that it lacks. -/
def Draft.finish (d : Draft) : Except String Model := do
  let types ← d.types.elim (.error "types") pure
  pure { types, diagram := d.diagram.getD [] }

/-- How a model is read. -/
def record : Json.Record Draft Model where
  name := "TypeModel"
  blank := {}
  finish := Draft.finish
  fields :=
    [{ name := "types", isSet := (·.types.isSome), optional := false
       scan := fun d => do
        return { d with types := some (← Json.Scan.list TypeDeclaration.record.scan) } },
     { name := "diagram", isSet := (·.diagram.isSome)
       scan := fun d => do
        return { d with diagram := some (← Json.Scan.list Json.Scan.string) } }]

/-- The text of a model. -/
def write (m : Model) : String := m.toJson.compactText

/-- Reads a text that is one model. -/
def read (text : String) : Except Failure Model :=
  match record.read text with
  | .ok m => .ok m
  | .error refusal => .error (.model (.json refusal))

/-- Reads bytes that are the text of one model. -/
def readBytes (bytes : ByteArray) : Except Failure Model :=
  match String.fromUTF8? bytes with
  | some text => read text
  | none => .error (.io .invalidUtf8)

end Model

end ClassDiagram
