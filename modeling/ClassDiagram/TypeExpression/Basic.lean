/-!
# Type expressions

A type expression names a type: by a bare name, or by the name of a generic type and arguments in
angle brackets. Its canonical spelling has no blanks but one after each comma.
-/

namespace ClassDiagram

/-- A type expression. A bare name has no arguments. -/
inductive TypeExpression where
  | node (name : String) (arguments : List TypeExpression)

namespace TypeExpression

/-- The name in front. -/
def name : TypeExpression → String
  | node n _ => n

/-- The arguments, none for a bare name. -/
def arguments : TypeExpression → List TypeExpression
  | node _ as => as

/-- The expression has arguments. -/
def isGeneric (e : TypeExpression) : Bool := !e.arguments.isEmpty

mutual

/-- The canonical spelling. -/
def spelling : TypeExpression → String
  | node n [] => n
  | node n (a :: as) => n ++ "<" ++ a.spelling ++ spellingRest as

/-- The spelling of the arguments after the first one, and the closing bracket. -/
def spellingRest : List TypeExpression → String
  | [] => ">"
  | a :: as => ", " ++ a.spelling ++ spellingRest as

end

end TypeExpression

end ClassDiagram
