import ClassDiagram.Handle
import ClassDiagram.Json.Fault
import ClassDiagram.Text.Quoted
import ClassDiagram.TypeExpression.Reader
import ClassDiagram.Web.Fault
/-!
# Failures

Every way in which the work on a diagram can fail, by its cause. The wording is made from the
cause in one place.
-/

namespace ClassDiagram

/-- What is wrong with a model. -/
inductive ModelFault where
  | json (refusal : Json.Refusal)
  | unknownKind (kind name : String)
  | declaredTwice (name : String)
  | unknownVisibility (visibility type method : String)
  | unknownName (name : String)
  /-- A fault in words of a caller. -/
  | other (text : String)
deriving DecidableEq, Repr

/-- The wording of the fault. -/
def ModelFault.message : ModelFault → String
  | json refusal => "invalid model JSON: " ++ refusal.message
  | unknownKind kind name => "unknown kind `" ++ kind ++ "` for `" ++ name ++ "`"
  | declaredTwice name => "type `" ++ name ++ "` declared twice"
  | unknownVisibility visibility type method =>
    "unknown visibility `" ++ visibility ++ "` on `" ++ type ++ "." ++ method ++ "`"
  | unknownName name => "no type named `" ++ name ++ "`"
  | other text => text

/-- What is wrong with a type expression. -/
inductive ExpressionFault where
  | unreadable (fault : TypeExpression.Fault)
  /-- A fault in words of a caller. -/
  | other (text : String)
deriving DecidableEq, Repr

/-- The wording of the fault. -/
def ExpressionFault.message : ExpressionFault → String
  | unreadable fault => fault.message
  | other text => text

/-- What went wrong outside the library. -/
inductive IoFault where
  | invalidUtf8
  | notFound
  | isDirectory
  /-- A fault in words of a caller. -/
  | other (text : String)
deriving DecidableEq, Repr

/-- The wording of the fault. -/
def IoFault.message : IoFault → String
  | invalidUtf8 => "stream did not contain valid UTF-8"
  | notFound => "No such file or directory (os error 2)"
  | isDirectory => "Is a directory (os error 21)"
  | other text => text

/-- A failure. -/
inductive Failure where
  /-- The handle points at no registered type. -/
  | unknownType (handle : Handle)
  /-- The type's arguments lead back to the type, so that its name has no end. -/
  | endlessName (handle : Handle)
  | model (fault : ModelFault)
  | typeExpression (fault : ExpressionFault) (expression : String)
  | http (fault : Web.HttpFault)
  /-- The drawing service answered with something that holds no identifier. -/
  | malformedResponse (body : String)
  | io (fault : IoFault)
deriving DecidableEq, Repr

namespace Failure

/-- The wording of the failure. -/
def message : Failure → String
  | unknownType h => "Unknown type handle: " ++ h.text
  | endlessName h => "Endless type name: " ++ h.text
  | model fault => "Model error: " ++ fault.message
  | typeExpression fault expression =>
    "Type expression error: " ++ fault.message ++ " in `" ++ expression ++ "`"
  | http fault => "HTTP error: " ++ fault.message
  | malformedResponse body =>
    "Malformed response from diagram service: " ++ Text.quoted body
  | io fault => "IO error: " ++ fault.message

/-- The wordings of the causes behind the failure, the nearest first. -/
def causes : Failure → List String
  | http fault => fault.message :: fault.cause?.toList
  | io fault => [fault.message]
  | _ => []

/-- The whole chain of causes in one line. -/
def chain (f : Failure) : String := ": ".intercalate (f.message :: f.causes)

end Failure

/-- A piece of work that a failure may have cut short. -/
inductive Task where
  | buildFragment
  | resolveUrl
deriving DecidableEq, Repr

/-- The words that tell of the cut. -/
def Task.failed : Task → String
  | buildFragment => "Failed to build diagram fragment"
  | resolveUrl => "Failed to resolve diagram URL"

/-- A failure, and the piece of work that it cut short if that is told. -/
structure Mishap where
  task : Option Task
  failure : Failure
deriving DecidableEq, Repr

/-- The whole chain of causes in one line, the piece of work first. -/
def Mishap.chain (m : Mishap) : String :=
  ": ".intercalate ((m.task.map Task.failed).toList ++ [m.failure.chain])

end ClassDiagram
