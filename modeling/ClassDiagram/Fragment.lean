import ClassDiagram.Ledger
import ClassDiagram.Style
/-!
# Fragments

A fragment is the text of a diagram, made of segments: a class block that stands alone, or two
class blocks with an edge between them.
-/

namespace ClassDiagram

/-- A part of a fragment. -/
inductive Segment where
  /-- The block of a class without edges. -/
  | alone (block : String)
  /-- The blocks of the two ends of an edge. -/
  | joined (edge : Edge) (source target : String)
deriving DecidableEq, Repr

namespace Segment

/-- The written form. -/
def text : Segment → String
  | alone block => block
  | joined edge source target => source ++ edge.kind.token ++ target

/-- The edge of the segment. -/
def edge? : Segment → Option Edge
  | alone _ => none
  | joined edge .. => some edge

end Segment

/-- A fragment, and the style in which it is to be drawn. -/
structure Fragment where
  segments : List Segment
  style : Style
deriving DecidableEq, Repr

namespace Fragment

/-- The text: the segments with a comma between two. -/
def text (f : Fragment) : String := ",".intercalate (f.segments.map Segment.text)

/-- The edges, in the order in which they are written. -/
def edges (f : Fragment) : List Edge := f.segments.filterMap Segment.edge?

/-- Nothing is drawn. -/
def isEmpty (f : Fragment) : Bool := f.text.isEmpty

/-- The number of edges of a kind. -/
def count (f : Fragment) (kind : EdgeKind) : Nat := f.edges.countP fun e => e.kind == kind

end Fragment

end ClassDiagram
