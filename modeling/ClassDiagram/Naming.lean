import ClassDiagram.Registry
/-!
# Display names

How a type is called in a diagram. The name of a generic definition may end in a backtick and the
number of its parameters, which is not shown. A table of aliases has the last word. A constructed
type is called by the name of its definition and the names of its arguments.
-/

namespace ClassDiagram

/-- The name without a backtick and digits at its end. -/
def stripArity (name : String) : String :=
  let reversed := name.toList.reverse
  match reversed.takeWhile Char.isDigit, reversed.dropWhile Char.isDigit with
  | _ :: _, '\x60' :: head => String.ofList head.reverse
  | _, _ => name

/-- A table of aliases, the latest first. -/
structure Naming where
  aliases : List (String × String) := []
deriving DecidableEq, Repr

namespace Naming

/-- The table without aliases. -/
def empty : Naming := {}

/-- Shows `raw` as `shown` from now on. -/
def insert (n : Naming) (raw shown : String) : Naming := ⟨(raw, shown) :: n.aliases⟩

/-- The table of the aliases in a list, of which a later one replaces an earlier one. -/
def ofList (l : List (String × String)) : Naming := l.foldl (fun n p => n.insert p.1 p.2) empty

/-- The shown form of a name: its alias, or else the alias of the name without arity, or else the
name without arity. -/
def lookup (n : Naming) (raw : String) : String :=
  match n.aliases.lookup raw with
  | some shown => shown
  | none => (n.aliases.lookup (stripArity raw)).getD (stripArity raw)

end Naming

/-- A generic name: the arguments in angle brackets, with a comma and a space between two. -/
def genericName (name : String) (arguments : List String) : String :=
  name ++ "<" ++ ", ".intercalate arguments ++ ">"

namespace Registry

/-- The display name of a type whose arguments are nested less than `depth` levels deep. -/
def nameWithin (r : Registry) (n : Naming) : Nat → Handle → Except Failure String
  | 0, h => .error (.endlessName h)
  | depth + 1, h => do
    let d ← r.describe h
    let name := n.lookup d.name
    if d.isGeneric then
      return genericName name (← d.arguments.mapM (r.nameWithin n depth))
    else return name

/-- The display name of a type. Arguments nested deeper than there are slots come back to a type
that they are inside of. -/
def displayName (r : Registry) (n : Naming) (h : Handle) : Except Failure String :=
  r.nameWithin n (r.size + 1) h

end Registry

end ClassDiagram
