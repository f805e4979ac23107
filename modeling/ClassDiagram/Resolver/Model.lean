import ClassDiagram.Model.Render
import ClassDiagram.Resolver.Basic
/-!
# Resolving models to URLs

From the text of a model to the URL of its diagram. A model that cannot be rendered never reaches
the drawing service.
-/

namespace ClassDiagram.Resolver

variable {κ σ : Type} [FragmentCache κ]

/-- The URL for the text of a model, and the resolver and the state of the service after that. -/
def resolveModel (r : Resolver κ) (service : DrawingService σ) (now : Nat) (style : Style)
    (detail : Detail) (json : String) (world : σ) : Traced Mishap String × Resolver κ × σ :=
  let rendered := (renderModel json detail).mapError (Mishap.mk none)
  match rendered.result with
  | .error _ => (rendered, r, world)
  | .ok fragment =>
    let (url, r, world) := r.resolve service now style fragment world
    (do let _ ← rendered; url.mapError (Mishap.mk (some .resolveUrl)), r, world)

end ClassDiagram.Resolver
