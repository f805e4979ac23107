import ClassDiagram.Drawing
/-!
# Sessions

A session is a run of steps on one registry. Each step answers or fails; a step that fails leaves
the registry as it is, and the session goes on.
-/

namespace ClassDiagram

/-- Something that is asked of a registry. -/
inductive Step where
  | register (description : Description)
  | construct (construction : Construction)
  | edit (type : Handle) (edits : List Edit)
  | find (name : String)
  | describe (type : Handle)
  | ancestors (type : Handle)
  | displayName (naming : Naming) (type : Handle)
  | propertyList (naming : Naming) (detail : Detail) (type : Handle)
  | methodList (detail : Detail) (type : Handle)
  | draw (naming : Naming) (detail : Detail) (style : Style) (requested : List Handle)

/-- The answer to a step. -/
inductive Answer where
  | handle (h : Handle)
  | found (h : Option Handle)
  | handles (l : List Handle)
  | description (d : Description)
  | text (s : String)
  | fragment (f : Fragment)
deriving DecidableEq, Repr

namespace Step

/-- What a step does to a registry: its answer, and the registry after it. -/
def run (r : Registry) : Step → Traced Failure (Answer × Registry)
  | register d => do
    let (h, r) ← r.register d
    pure (.handle h, r)
  | construct c => do
    let (h, r) ← r.construct c
    pure (.handle h, r)
  | edit h edits => do
    let next ← (r.edit h edits : Except Failure Registry)
    let d ← (next.describe h : Except Failure Description)
    pure (.description d, next)
  | find name => pure (.found (r.find? name), r)
  | describe h => do return (.description (← (r.describe h : Except Failure Description)), r)
  | ancestors h => do return (.handles (← (r.ancestors h : Except Failure (List Handle))), r)
  | displayName n h => do return (.text (← (r.displayName n h : Except Failure String)), r)
  | propertyList n detail h => do
    return (.text (← (r.propertyList n detail h : Except Failure String)), r)
  | methodList detail h => do
    return (.text (← (r.methodList detail h : Except Failure String)), r)
  | draw naming detail style requested => do
    let drawing : Drawing := { registry := r, naming, requested, detail }
    return (.fragment (← drawing.fragment style), r)

/-- The answer of a step. -/
def answer (r : Registry) (s : Step) : Except Failure Answer := (s.run r).result.map Prod.fst

/-- The registry after a step: another one only if the step succeeds. -/
def after (r : Registry) (s : Step) : Registry :=
  match (s.run r).result with
  | .ok (_, next) => next
  | .error _ => r

end Step

namespace Registry

/-- The registry after a session. -/
def afterAll (r : Registry) (session : List Step) : Registry := session.foldl Step.after r

/-- The answers of a session, one for each step. -/
def answers (r : Registry) : List Step → List (Except Failure Answer)
  | [] => []
  | s :: rest => s.answer r :: (s.after r).answers rest

@[simp] theorem afterAll_nil (r : Registry) : r.afterAll [] = r := rfl

@[simp] theorem afterAll_cons (r : Registry) (s : Step) (rest : List Step) :
    r.afterAll (s :: rest) = (s.after r).afterAll rest := rfl

end Registry

end ClassDiagram
