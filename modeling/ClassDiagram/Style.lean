import ClassDiagram.Text.Keyword
/-!
# Diagram styles

How the drawing service is asked to draw a diagram. A style never changes the text of a fragment;
it is sent beside it, as one segment of the request's path.
-/

namespace ClassDiagram

/-- The look of the boxes. -/
inductive Palette where
  | plain
  | boring
  | scruffy
deriving DecidableEq, Repr, Inhabited

namespace Palette

/-- The canonical spelling. -/
def text : Palette → String
  | plain => "plain"
  | boring => "boring"
  | scruffy => "scruffy"

/-- Reads a palette. -/
def ofText? (s : String) : Option Palette :=
  Text.keyword? [("plain", plain), ("boring", boring), ("scruffy", scruffy)] s

end Palette

/-- The direction in which a diagram grows. -/
inductive Direction where
  | leftToRight
  | topToBottom
  | rightToLeft
deriving DecidableEq, Repr, Inhabited

namespace Direction

/-- The two-letter code. -/
def code : Direction → String
  | leftToRight => "LR"
  | topToBottom => "TB"
  | rightToLeft => "RL"

/-- Reads a code; top to bottom may also be spelt `TD`. -/
def ofText? (s : String) : Option Direction :=
  Text.keyword?
    [("lr", leftToRight), ("tb", topToBottom), ("td", topToBottom), ("rl", rightToLeft)] s

end Direction

/-- The size of the image. -/
inductive Scale where
  | tiny
  | small
  | normal
  | big
  | huge
deriving DecidableEq, Repr

instance : Inhabited Scale := ⟨.normal⟩

namespace Scale

/-- The canonical spelling. -/
def text : Scale → String
  | tiny => "tiny"
  | small => "small"
  | normal => "normal"
  | big => "big"
  | huge => "huge"

/-- The size in percent of the service's natural size. -/
def percent : Scale → Nat
  | tiny => 50
  | small => 80
  | normal => 100
  | big => 120
  | huge => 180

/-- Every scale, smallest first. -/
def all : List Scale := [tiny, small, normal, big, huge]

end Scale

/-- The style of one request. -/
structure Style where
  palette : Palette := .plain
  direction : Direction := .leftToRight
  scale : Scale := .normal
deriving DecidableEq, Repr, Inhabited

namespace Style

/-- The path segment of the style, such as `plain;dir:LR;scale:100`. -/
def pathSegment (s : Style) : String :=
  s.palette.text ++ ";dir:" ++ s.direction.code ++ ";scale:" ++ toString s.scale.percent

end Style

end ClassDiagram
