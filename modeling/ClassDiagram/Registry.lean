import ClassDiagram.Description
import ClassDiagram.Failure
import ClassDiagram.Trace
/-!
# Registries

A registry holds described types in numbered slots. Slots are only ever added, so a handle stays
good for the life of the registry. Generic types are constructed once for each choice of a
definition and arguments.
-/

namespace ClassDiagram

/-- A choice of a generic definition and arguments for it. -/
structure Construction where
  definition : Handle
  arguments : List Handle
deriving DecidableEq, Repr

/-- Described types by slot, and the handles of the constructed ones. -/
structure Registry where
  slots : Array Description := #[]
  constructed : List (Construction × Handle) := []

namespace Registry

/-- The registry without types. -/
def empty : Registry := {}

/-- The number of slots. -/
def size (r : Registry) : Nat := r.slots.size

/-- No slot is occupied. -/
def isEmpty (r : Registry) : Bool := r.slots.isEmpty

/-- The description in the slot of a handle. -/
def get? (r : Registry) (h : Handle) : Option Description := r.slots[h.slot]?

/-- The description in the slot of a handle, which has to be occupied. -/
def describe (r : Registry) (h : Handle) : Except Failure Description :=
  match r.get? h with
  | some d => .ok d
  | none => .error (.unknownType h)

/-- The handle of the next slot. -/
def nextHandle (r : Registry) : Handle := .ofNat r.size

/-- Adds a description in the next slot. -/
def push (r : Registry) (d : Description) : Registry := { r with slots := r.slots.push d }

/-- Adds a description in the next slot and tells its handle. -/
def register (r : Registry) (d : Description) : Traced Failure (Handle × Registry) := do
  Traced.report (.typeRegistered d.name d.kind r.nextHandle)
  pure (r.nextHandle, r.push d)

/-- Declares a class. -/
def declareClass (r : Registry) (name : String) : Traced Failure (Handle × Registry) :=
  r.register (.plain .reference name)

/-- Declares an interface. -/
def declareInterface (r : Registry) (name : String) : Traced Failure (Handle × Registry) :=
  r.register (.plain .interface name)

/-- Declares a scalar that is built in. -/
def declareScalar (r : Registry) (name : String) : Traced Failure (Handle × Registry) :=
  r.register (.plain .scalar name)

/-- Declares a value type. -/
def declareValue (r : Registry) (name : String) : Traced Failure (Handle × Registry) :=
  r.register (.plain .value name)

/-- Declares a class that other types are constructed from. -/
def declareGeneric (r : Registry) (name : String) (enumerable : Bool) :
    Traced Failure (Handle × Registry) :=
  r.register (.generic name enumerable)

/-- The handle of a construction that was made before. -/
def constructed? (r : Registry) (c : Construction) : Option Handle := r.constructed.lookup c

/-- The description of a constructed type. It takes everything but the members from the definition
as that stands at the time. -/
def instanceOf (d : Description) (c : Construction) : Description where
  name := d.name
  kind := d.kind
  base := d.base
  interfaces := d.interfaces
  definition := some c.definition
  arguments := c.arguments
  enumerable := d.enumerable

/-- The description that a new construction gets; its arguments and its definition, in this order,
have to be registered. -/
def template (r : Registry) (c : Construction) : Except Failure Description := do
  c.arguments.forM fun a => discard (r.describe a)
  let d ← r.describe c.definition
  pure (instanceOf d c)

/-- Constructs a type. The same construction always gives the same handle. -/
def construct (r : Registry) (c : Construction) : Traced Failure (Handle × Registry) :=
  match r.constructed? c with
  | some h => pure (h, r)
  | none => do
    let d ← r.template c
    let (h, r) ← r.register d
    pure (h, { r with constructed := (c, h) :: r.constructed })

/-- Changes the description in the slot of a handle. -/
def edit (r : Registry) (h : Handle) (edits : List Edit) : Except Failure Registry :=
  match r.get? h with
  | some d => .ok { r with slots := r.slots.setIfInBounds h.slot (Edit.applyAll edits d) }
  | none => .error (.unknownType h)

/-- The first type of a name that was not constructed. -/
def find? (r : Registry) (name : String) : Option Handle :=
  (r.slots.findIdx? fun d => d.name == name && d.definition.isNone).map Handle.ofNat

/-- The occupied slots in order, each with its handle. -/
def toList (r : Registry) : List (Handle × Description) :=
  r.slots.toList.zipIdx.map fun (d, n) => (.ofNat n, d)

/-- The bases above a type, the nearest first, none of which is among those `met`. Every step meets
another registered type, so as many steps as there are slots reach the end. -/
def climb (r : Registry) : Nat → List Handle → Handle → Except Failure (List Handle)
  | 0, _, _ => .ok []
  | steps + 1, met, h => do
    let d ← r.describe h
    match d.base with
    | none => pure []
    | some base =>
      if base ∈ met then pure []
      else do
        let above ← r.climb steps (base :: met) base
        pure (base :: above)

/-- The chain of bases of a type, the nearest first, up to where it ends or comes back. -/
def ancestors (r : Registry) (h : Handle) : Except Failure (List Handle) :=
  r.climb (r.size + 1) [h] h

end Registry

end ClassDiagram
