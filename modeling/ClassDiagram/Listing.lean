import ClassDiagram.Json.Value
import ClassDiagram.Model.Load
/-!
# Listings

What a model declares, at a glance: one row for each declared type, marked if it is drawn, and the
totals. Constructed types have no row.
-/

namespace ClassDiagram

/-- The row of a declared type. -/
structure Row where
  name : String
  kind : Kind
  isDrawn : Bool
deriving DecidableEq, Repr

/-- The rows of a model, and the number of types that it asks to draw, repetitions counted. -/
structure Listing where
  rows : List Row
  requested : Nat
deriving DecidableEq, Repr

/-- The listing of a loaded model. -/
def Loaded.listing (l : Loaded) : Listing where
  rows := (l.registry.toList.filter fun p => p.2.definition.isNone).map fun (h, d) =>
    { name := d.name, kind := d.kind, isDrawn := l.roots.contains h }
  requested := l.roots.length

namespace Listing

/-- The width of the column of names: the greatest number of bytes in a name. -/
def width (l : Listing) : Nat := (l.rows.map (·.name.utf8ByteSize)).foldl max 0

/-- The greatest width that a text can be padded to. -/
def widest : Nat := UInt16.size - 1

/-- The name with spaces behind it up to `width` characters. -/
def padded (width : Nat) (name : String) : Option String :=
  if width ≤ widest then some (name ++ String.ofList (List.replicate (width - name.length) ' '))
  else none

/-- The line of a row. -/
def rowText (width : Nat) (r : Row) : Option String := do
  let name ← padded width r.name
  return (if r.isDrawn then "* " else "  ") ++ name ++ "  " ++ r.kind.text ++ "\n"

/-- The listing as a table with a line of totals below, unless the names are too long for one. -/
def text (l : Listing) : Option String := do
  let lines ← l.rows.mapM (rowText l.width)
  return String.join lines ++ "\nTotal: " ++ toString l.rows.length ++ " types (" ++
    toString l.requested ++ " in diagram)"

/-- The document of a row. -/
def rowJson (r : Row) : Json.Value :=
  .object [("in_diagram", .bool r.isDrawn), ("kind", .text r.kind.text), ("name", .text r.name)]

/-- The listing as a document, members in the order of their names. -/
def toJson (l : Listing) : Json.Value :=
  .object [("total", .number l.rows.length), ("types", .list (l.rows.map rowJson))]

/-- The text of the listing, as a table or as a document. -/
def render (l : Listing) (asJson : Bool) : Option String :=
  if asJson then some l.toJson.prettyText else l.text

end Listing

end ClassDiagram
