import ClassDiagram.Fragment
import ClassDiagram.Members
/-!
# Drawing types

From a registry and a list of requested types to a fragment. Each requested class contributes its
edges to other requested types: one for each ancestor, then one for each property that leads to a
requested type or to many of one. A class without edges is drawn alone.

An inheritance edge is drawn once, even if its class is requested again; the ledger of the drawing
remembers it. Edges for properties are drawn each time.
-/

namespace ClassDiagram

/-- What a drawing is made from. -/
structure Drawing where
  registry : Registry
  naming : Naming := .empty
  /-- The types to draw, in order. -/
  requested : List Handle
  detail : Detail := .none

namespace Drawing

/-- The marks of the requested interfaces that a type implements. -/
def interfaceMarks (d : Drawing) (h : Handle) : Except Failure String := do
  let description ← d.registry.describe h
  let marks ← (description.interfaces.filter (d.requested.contains ·)).mapM fun i => do
    return "<<" ++ (← d.registry.displayName d.naming i) ++ ">>;"
  pure (String.join marks)

/-- A member list as a compartment of a class block, left out when it is empty. -/
def compartment (list : String) : String := if list.isEmpty then "" else "|" ++ list

/-- The class block of a type. -/
def block (d : Drawing) (h : Handle) : Except Failure String := do
  let marks ← d.interfaceMarks h
  let name ← d.registry.displayName d.naming h
  let properties ← d.registry.propertyList d.naming d.detail h
  let methods ← d.registry.methodList d.detail h
  pure ("[" ++ marks ++ name ++ compartment properties ++ compartment methods ++ "]")

/-- The segment of an edge. -/
def joinedSegment (d : Drawing) (edge : Edge) : Traced Failure Segment := do
  Traced.report (.edgeWritten edge)
  let source ← d.block edge.source
  let target ← d.block edge.target
  pure (.joined edge source target)

/-- The segments of the inheritance edges from a class to those of its ancestors that are requested
and that the ledger does not have. -/
def inheritance (d : Drawing) (child : Handle) :
    List Handle → Ledger → Traced Failure (List Segment × Ledger)
  | [], ledger => pure ([], ledger)
  | ancestor :: rest, ledger =>
    let edge : Edge := ⟨child, ancestor, .inherits⟩
    if ancestor ∉ d.requested then d.inheritance child rest ledger
    else if ledger.contains edge then do
      Traced.report (.edgeKnown child ancestor)
      d.inheritance child rest ledger
    else do
      let segment ← d.joinedSegment edge
      let (segments, ledger) ← d.inheritance child rest (ledger.insert edge)
      pure (segment :: segments, ledger)

/-- The edge for a property: to its type if that is requested, or else to the type of its elements
if it has many and their type is requested. -/
def propertyEdge? (d : Drawing) (owner : Handle) (p : Property) : Except Failure (Option Edge) :=
  if p.valueType ∈ d.requested then .ok (some ⟨owner, p.valueType, .associates⟩)
  else do
    let value ← d.registry.describe p.valueType
    match value.arguments with
    | [] => pure none
    | element :: _ =>
      if value.enumerable ∧ element ∈ d.requested then
        pure (some ⟨owner, element, .aggregates⟩)
      else pure none

/-- The segments of the edges for properties. -/
def associations (d : Drawing) (owner : Handle) :
    List Property → Traced Failure (List Segment)
  | [] => pure []
  | p :: rest => do
    match ← d.propertyEdge? owner p with
    | none => d.associations owner rest
    | some edge => do
      let segment ← d.joinedSegment edge
      let segments ← d.associations owner rest
      pure (segment :: segments)

/-- The segments of one requested type: its edges, or its block if it has none. A type that is no
class has no segment. -/
def root (d : Drawing) (h : Handle) (ledger : Ledger) :
    Traced Failure (List Segment × Ledger) := do
  let description ← d.registry.describe h
  if description.kind.isDrawn then do
    let ancestors ← d.registry.ancestors h
    let (up, ledger) ← d.inheritance h ancestors ledger
    let across ← d.associations h description.properties
    match up ++ across with
    | [] => do
      let block ← d.block h
      pure ([.alone block], ledger)
    | segments => pure (segments, ledger)
  else do
    Traced.report (.rootSkipped description.name description.kind)
    pure ([], ledger)

/-- The segments of requested types, in order. -/
def roots (d : Drawing) : List Handle → Ledger → Traced Failure (List Segment × Ledger)
  | [], ledger => pure ([], ledger)
  | h :: rest, ledger => do
    let (here, ledger) ← d.root h ledger
    let (segments, ledger) ← d.roots rest ledger
    pure (here ++ segments, ledger)

/-- The fragment of the drawing. -/
def fragment (d : Drawing) (style : Style) : Traced Failure Fragment :=
  Traced.within (.buildFragment d.requested.length) do
    let (segments, ledger) ← d.roots d.requested .empty
    let fragment : Fragment := { segments, style }
    Traced.report
      (.fragmentBuilt fragment.text.utf8ByteSize fragment.edges.length ledger.size)
    pure fragment

end Drawing

end ClassDiagram
