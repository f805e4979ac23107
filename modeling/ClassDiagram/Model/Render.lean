import ClassDiagram.Drawing
import ClassDiagram.Model.Load
/-!
# Rendering models

From the text of a model to the text of its fragment in one step.
-/

namespace ClassDiagram

/-- The drawing of what a model asks to draw. -/
def Loaded.drawing (l : Loaded) (naming : Naming) (detail : Detail) : Drawing :=
  { registry := l.registry, naming, requested := l.roots, detail }

/-- Reads and loads the text of a model. -/
def Model.loadText (json : String) : Traced Failure Loaded := do
  let model ← (Model.read json : Except Failure Model)
  model.load

/-- The text of the fragment for the text of a model. -/
def renderModel (json : String) (detail : Detail) : Traced Failure String := do
  let loaded ← Model.loadText json
  let fragment ← (loaded.drawing .empty detail).fragment {}
  pure fragment.text

end ClassDiagram
