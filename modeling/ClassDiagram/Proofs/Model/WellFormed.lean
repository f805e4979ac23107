import ClassDiagram.Model.Load
import ClassDiagram.Proofs.TypeExpression.Settled
import Mathlib.Data.List.Nodup
/-!
# Well-formed models

What a model has to be like for its types to make sense, with no registry in sight, and the handles
that its declarations get. The order of the declarations plays no part in the former.
-/

namespace ClassDiagram

/-- The failure is the fault of a model or of an expression in it. -/
def Failure.isOfModel : Failure → Bool
  | model _ | typeExpression _ _ => true
  | _ => false

namespace TypeDeclaration

/-- The expressions in a declaration, in the order in which they are resolved. -/
def expressions (t : TypeDeclaration) : List String :=
  t.base.toList ++ t.interfaces ++ t.properties.map PropertyDeclaration.type

/-- What is declared makes sense on its own: its expressions settle among the declared names, and
the visibilities of its methods are known. -/
structure WellFormed (names : List String) (t : TypeDeclaration) : Prop where
  expressions : ∀ text ∈ t.expressions, (TypeExpression.term? names text).isSome
  visibilities : ∀ m ∈ t.methods, (Visibility.ofText? m.visibility).isSome

/-- The constructed types that come with a declaration, with repetition. -/
def mentions (names : List String) (t : TypeDeclaration) : List TypeExpression :=
  t.expressions.flatMap (TypeExpression.mentions names)

/-- The description of a type that was declared and not defined yet. -/
def bare (t : TypeDeclaration) : Description where
  name := t.name
  kind := (Kind.ofText? t.kind).getD default
  enumerable := t.enumerable

end TypeDeclaration

namespace Model

/-- The declared names. -/
def names (m : Model) : List String := m.types.map TypeDeclaration.name

/-- The model makes sense: the kinds are known, no name is declared twice, and the declarations and
what to draw make sense among the declared names. -/
structure WellFormed (m : Model) : Prop where
  kinds : ∀ t ∈ m.types, (Kind.ofText? t.kind).isSome
  names : m.names.Nodup
  types : ∀ t ∈ m.types, t.WellFormed m.names
  diagram : ∀ text ∈ m.diagram, (TypeExpression.term? m.names text).isSome

/-- The order of the declarations plays no part in what makes sense. -/
theorem WellFormed.perm {m m' : Model} (h : m.WellFormed) (ht : m.types.Perm m'.types)
    (hd : m'.diagram = m.diagram) : m'.WellFormed := by
  have hp : m.names.Perm m'.names := ht.map _
  have hterm := TypeExpression.term?_congr fun n => hp.mem_iff (a := n)
  refine ⟨fun t hmem => h.kinds t (ht.mem_iff.2 hmem), hp.nodup_iff.1 h.names, ?_, ?_⟩
  · intro t hmem
    have hwf := h.types t (ht.mem_iff.2 hmem)
    exact ⟨hterm ▸ hwf.expressions, hwf.visibilities⟩
  · rw [hd, ← hterm]
    exact h.diagram

/-- The constructed types that come with declarations, with repetition. -/
def mentionedBy (m : Model) (types : List TypeDeclaration) : List TypeExpression :=
  types.flatMap (TypeDeclaration.mentions m.names)

theorem mentions_subset_mentionedBy {m : Model} {t : TypeDeclaration} {text : String}
    (ht : t ∈ m.types) (htext : text ∈ t.expressions) :
    TypeExpression.mentions m.names text ⊆ m.mentionedBy m.types := by
  intro e he
  exact List.mem_flatMap.2 ⟨t, ht, List.mem_flatMap.2 ⟨text, htext, he⟩⟩

/-- The constructed types that come with the model, with repetition: those of the declarations
first, then those of what to draw. -/
def mentions (m : Model) : List TypeExpression :=
  m.mentionedBy m.types ++ m.diagram.flatMap (TypeExpression.mentions m.names)

/-- The settled forms of what to draw. -/
def drawn (m : Model) : List TypeExpression :=
  if m.diagram.isEmpty then m.names.map fun n => .node n []
  else m.diagram.filterMap (TypeExpression.term? m.names)

/-- The handles of the declared types. -/
def declarations (m : Model) : Declared :=
  m.types.zipIdx.map fun (t, i) => (t.name, .ofNat i)

/-- The registry of the declared types before any of them is defined. -/
def bare (m : Model) : Registry := { slots := (m.types.map TypeDeclaration.bare).toArray }

end Model

end ClassDiagram
