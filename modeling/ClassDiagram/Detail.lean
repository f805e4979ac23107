import ClassDiagram.Text.Keyword
/-!
# Member detail

A `Detail` is a set of member groups: the members of these groups are listed in class blocks. It
is a set in the strict sense, so order and repetition of the groups put into it leave no mark.
-/

namespace ClassDiagram

/-- A group of members that is listed or left out as a whole. -/
inductive MemberGroup where
  | publicProperties
  | privateProperties
  | publicMethods
  | privateMethods
deriving DecidableEq, Repr

namespace MemberGroup

/-- Every group, in the order in which groups are written. -/
def all : List MemberGroup :=
  [publicProperties, privateProperties, publicMethods, privateMethods]

/-- The canonical spelling. -/
def text : MemberGroup → String
  | publicProperties => "public-properties"
  | privateProperties => "private-properties"
  | publicMethods => "public-methods"
  | privateMethods => "private-methods"

/-- Reads a group. Only ASCII letters and digits count, so `public-properties`,
`PublicProperties` and `public properties` are one spelling. -/
def ofText? (s : String) : Option MemberGroup :=
  Text.keyword?
    [("publicproperties", publicProperties), ("privateproperties", privateProperties),
      ("publicmethods", publicMethods), ("privatemethods", privateMethods)]
    (String.ofList (s.toList.filter Char.isAlphanum))

/-- The group that lists properties of the given publicity. -/
def ofProperty (isPublic : Bool) : MemberGroup :=
  if isPublic then publicProperties else privateProperties

/-- The group that lists methods of the given publicity. -/
def ofMethod (isPublic : Bool) : MemberGroup :=
  if isPublic then publicMethods else privateMethods

end MemberGroup

/-- A set of member groups, by its characteristic function. -/
structure Detail where
  publicProperties : Bool := false
  privateProperties : Bool := false
  publicMethods : Bool := false
  privateMethods : Bool := false
deriving DecidableEq, Repr

namespace Detail

/-- The empty set: class blocks carry the type's name only. -/
def none : Detail := {}

/-- The set of all groups. -/
def all : Detail := ⟨true, true, true, true⟩

/-- Membership. -/
def contains (d : Detail) : MemberGroup → Bool
  | .publicProperties => d.publicProperties
  | .privateProperties => d.privateProperties
  | .publicMethods => d.publicMethods
  | .privateMethods => d.privateMethods

/-- Adds a group. -/
def insert (d : Detail) : MemberGroup → Detail
  | .publicProperties => { d with publicProperties := true }
  | .privateProperties => { d with privateProperties := true }
  | .publicMethods => { d with publicMethods := true }
  | .privateMethods => { d with privateMethods := true }

/-- The set of the groups in a list. -/
def ofList (groups : List MemberGroup) : Detail := groups.foldl insert none

/-- The members of the set, in the order of `MemberGroup.all`. -/
def toList (d : Detail) : List MemberGroup := MemberGroup.all.filter d.contains

/-- No group is in the set. -/
def isEmpty (d : Detail) : Bool := d == none

/-- Some property group is in the set. -/
def wantsProperties (d : Detail) : Bool := d.publicProperties || d.privateProperties

/-- Some method group is in the set. -/
def wantsMethods (d : Detail) : Bool := d.publicMethods || d.privateMethods

@[simp] theorem contains_none (g : MemberGroup) : none.contains g = false := by
  cases g <;> rfl

@[simp] theorem contains_all (g : MemberGroup) : all.contains g = true := by
  cases g <;> rfl

@[simp] theorem contains_insert (d : Detail) (g k : MemberGroup) :
    (d.insert g).contains k = (d.contains k || decide (k = g)) := by
  cases g <;> cases k <;> simp [insert, contains]

end Detail

end ClassDiagram
