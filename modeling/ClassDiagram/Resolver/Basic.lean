import ClassDiagram.Failure
import ClassDiagram.Resolver.Cache
import ClassDiagram.Style
import ClassDiagram.Text.Blank
/-!
# Resolving fragments to URLs

A resolver finds the URL of a diagram. A URL that its cache keeps is reused, whatever the style;
otherwise the drawing service is asked, and the URL that its answer names is put into the cache. A
failure leaves the cache as it is, so the next call asks again.
-/

namespace ClassDiagram

/-- The URL that an answer of the drawing service names: the identifier is what stands before the
first dot, blanks around the answer aside. -/
def urlFromAnswer (imageHost answer : String) : Traced Failure String :=
  match (Text.trimBlank answer.toList).span (· != '.') with
  | (c :: identifier, _ :: _) => pure (imageHost ++ String.ofList (c :: identifier))
  | _ => do
    Traced.report (.identifierMissing answer.utf8ByteSize)
    Traced.fail (.malformedResponse answer)

/-- A drawing service in a world of states `σ`: what it answers to a fragment that is to be drawn
in a style, and the state after the answer. -/
abbrev DrawingService (σ : Type) := Style → String → σ → Traced Failure String × σ

/-- A resolver with a cache of type `κ`. -/
structure Resolver (κ : Type) where
  cache : κ
  imageHost : String

namespace Resolver

variable {κ σ : Type} [FragmentCache κ]

/-- Asks the service, after a look into the cache that found nothing. -/
def ask (imageHost : String) (answer : Traced Failure String) (style : Style) (fragment : String) :
    Traced Failure String := do
  Traced.report (.diagramRequested style.pathSegment fragment.utf8ByteSize)
  urlFromAnswer imageHost (← answer)

/-- Resolves a fragment at the time `now`, and tells the resolver and the state of the service
after that. -/
def resolve (r : Resolver κ) (service : DrawingService σ) (now : Nat) (style : Style)
    (fragment : String) (world : σ) : Traced Failure String × Resolver κ × σ :=
  let (found, cache) := FragmentCache.get r.cache now fragment
  let looked : Traced Failure Unit :=
    Traced.reportAll (FragmentCache.getEvents r.cache now fragment)
  match found with
  | some url =>
    (do looked; Traced.report (.urlReused url); pure url, { r with cache }, world)
  | none =>
    let (answer, world) := service style fragment world
    let asked := ask r.imageHost answer style fragment
    match asked.result with
    | .ok url =>
      (do
        looked
        let url ← asked
        Traced.reportAll (FragmentCache.insertEvents cache now)
        pure url,
       { r with cache := FragmentCache.insert cache now fragment url }, world)
    | .error _ => (do looked; asked, { r with cache }, world)

end Resolver

end ClassDiagram
