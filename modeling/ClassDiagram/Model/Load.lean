import ClassDiagram.Model.Json
import ClassDiagram.Registry
/-!
# Loading models

From a model to a registry and the types to draw. All types are declared first, one slot each in
the order of the model, so that expressions may refer to types declared later. Then each type is
given its base, interfaces and members, and the generic types that their expressions construct get
slots of their own, in the order of their first mention.
-/

namespace ClassDiagram

/-- A registry, and the types to draw. -/
structure Loaded where
  registry : Registry
  roots : List Handle

/-- The handles of the declared types by name, in the order of declaration. -/
abbrev Declared := List (String × Handle)

/-- A piece of work on a registry that is being loaded. -/
abbrev Loading (α : Type) := StateT Registry (Traced Failure) α

/-- Stops loading. -/
def Loading.fail {α : Type} (f : Failure) : Loading α := fun _ => Traced.fail f

namespace Declared

/-- The type declared under a name. -/
def resolveName (declared : Declared) (name : String) : Except Failure Handle :=
  match declared.lookup name with
  | some h => .ok h
  | none => .error (.model (.unknownName name))

/-- The generic type for a name and a number of arguments: the one declared under the name, or else
under the name with a backtick and that number. -/
def resolveGeneric (declared : Declared) (name : String) (arity : Nat) : Except Failure Handle :=
  match declared.lookup name with
  | some h => .ok h
  | none => declared.resolveName (name ++ "`" ++ toString arity)

mutual

/-- The type that an expression denotes. What it constructs is registered on the way, arguments
before the types they are arguments of. -/
def resolve (declared : Declared) : TypeExpression → Loading Handle
  | .node name [] => do declared.resolveName name
  | .node name (a :: as) => do
    let definition ← declared.resolveGeneric name (as.length + 1)
    let first ← resolve declared a
    let rest ← resolveAll declared as
    fun registry => registry.construct ⟨definition, first :: rest⟩

/-- The types that expressions denote, from left to right. -/
def resolveAll (declared : Declared) : List TypeExpression → Loading (List Handle)
  | [] => pure []
  | a :: as => do
    let first ← resolve declared a
    let rest ← resolveAll declared as
    pure (first :: rest)

end

/-- The type that the text of an expression denotes. -/
def resolveText (declared : Declared) (text : String) : Loading Handle :=
  match TypeExpression.read text with
  | .ok e => declared.resolve e
  | .error fault => Loading.fail (.typeExpression (.unreadable fault) text)

/-- The property of a declaration. -/
def property (declared : Declared) (p : PropertyDeclaration) : Loading Property := do
  let valueType ← declared.resolveText p.type
  pure { name := p.name, valueType, settable := p.settable, isStatic := p.isStatic }

end Declared

/-- The method of a declaration of the type `owner`. -/
def MethodDeclaration.method (owner : String) (m : MethodDeclaration) : Except Failure Method :=
  match Visibility.ofText? m.visibility with
  | some visibility =>
    .ok { name := m.name, visibility, isStatic := m.isStatic, special := m.accessor }
  | none => .error (.model (.unknownVisibility m.visibility owner m.name))

namespace TypeDeclaration

/-- Declares a type in the next slot; its name must be new among those `declared`. -/
def declare (declared : Declared) (t : TypeDeclaration) : Loading Handle :=
  match Kind.ofText? t.kind with
  | none => Loading.fail (.model (.unknownKind t.kind t.name))
  | some kind =>
    if (declared.lookup t.name).isSome then Loading.fail (.model (.declaredTwice t.name))
    else fun registry =>
      registry.register { name := t.name, kind, enumerable := t.enumerable }

/-- Declares types in order, after those `declared`, and lists all declared ones. -/
def declareAll (declared : Declared) : List TypeDeclaration → Loading Declared
  | [] => pure declared
  | t :: rest => do
    let h ← t.declare declared
    declareAll (declared ++ [(t.name, h)]) rest

/-- The changes that give a type its base, interfaces and members. -/
def edits (declared : Declared) (t : TypeDeclaration) : Loading (List Edit) := do
  let base ← t.base.mapM fun text => declared.resolveText text
  let interfaces ← t.interfaces.mapM fun text => declared.resolveText text
  let properties ← t.properties.mapM declared.property
  let methods ← (t.methods.mapM (MethodDeclaration.method t.name) : Except Failure (List Method))
  pure ((base.map Edit.setBase).toList ++ interfaces.map .addInterface ++
    properties.map .addProperty ++ methods.map .addMethod)

/-- Gives the type in the slot of `h` its base, interfaces and members. -/
def define (declared : Declared) (t : TypeDeclaration) (h : Handle) : Loading Unit := do
  let edits ← t.edits declared
  let registry ← get
  set (← (registry.edit h edits : Except Failure Registry))

/-- Gives declared types their bases, interfaces and members, in order. -/
def defineAll (declared : Declared) : List (TypeDeclaration × Handle) → Loading Unit
  | [] => pure ()
  | (t, h) :: rest => do
    t.define declared h
    defineAll declared rest

end TypeDeclaration

namespace Model

/-- The types to draw. -/
def roots (m : Model) (declared : Declared) : Loading (List Handle) :=
  if m.diagram.isEmpty then pure (declared.map Prod.snd)
  else m.diagram.mapM fun text => declared.resolveText text

/-- Declares and defines the types of a model and resolves what to draw. -/
def loading (m : Model) : Loading (List Handle) := do
  let declared ← TypeDeclaration.declareAll [] m.types
  TypeDeclaration.defineAll declared (m.types.zip (declared.map Prod.snd))
  m.roots declared

/-- Loads a model into a registry of its own. -/
def load (m : Model) : Traced Failure Loaded :=
  Traced.within (.loadModel m.types.length) do
    let (roots, registry) ← m.loading .empty
    Traced.report (.modelLoaded registry.size roots.length)
    pure { registry, roots }

end Model

end ClassDiagram
