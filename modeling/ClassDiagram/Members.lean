import ClassDiagram.Detail
import ClassDiagram.Naming
/-!
# Member lists

The properties and methods of a type as they stand in its class block: one entry a member, private
ones first, each group by name, joined by semicolons. Which groups are listed is up to the detail.
Static members and generated methods are never listed.
-/

namespace ClassDiagram

/-- One entry of a member list. -/
structure MemberEntry where
  isPublic : Bool
  name : String
  /-- What is written behind the name. -/
  suffix : String
deriving DecidableEq, Repr

namespace MemberEntry

/-- The written form: a sign for the group, the name, and what is behind it. -/
def text (e : MemberEntry) : String :=
  (if e.isPublic then "+ " else "- ") ++ e.name ++ e.suffix

/-- The order of a list: private entries go first, then names in the order of their code points. -/
def le (a b : MemberEntry) : Bool :=
  if a.isPublic = b.isPublic then decide (a.name ≤ b.name) else b.isPublic

/-- The list of the entries. Entries of one group and one name stay in the order in which they were
declared. -/
def listText (entries : List MemberEntry) : String :=
  ";".intercalate ((entries.mergeSort le).map text)

end MemberEntry

namespace Registry

/-- The entry of a property. -/
def propertyEntry (r : Registry) (n : Naming) (p : Property) : Except Failure MemberEntry := do
  let type ← r.displayName n p.valueType
  pure ⟨p.settable, p.name, " : " ++ type⟩

/-- The properties that are listed, in declaration order. -/
def listedProperties (d : Description) (detail : Detail) : List Property :=
  d.properties.filter fun p => !p.isStatic && detail.contains (.ofProperty p.settable)

/-- The property list of a type, empty when nothing is listed. -/
def propertyList (r : Registry) (n : Naming) (detail : Detail) (h : Handle) :
    Except Failure String :=
  if detail.wantsProperties then do
    let d ← r.describe h
    let entries ← (listedProperties d detail).mapM (r.propertyEntry n)
    pure (MemberEntry.listText entries)
  else .ok ""

/-- The methods that are listed, in declaration order. -/
def listedMethods (d : Description) (detail : Detail) : List Method :=
  d.methods.filter fun m =>
    !m.isStatic && !m.special && detail.contains (.ofMethod m.visibility.isPublic)

/-- The entry of a method. -/
def methodEntry (m : Method) : MemberEntry := ⟨m.visibility.isPublic, m.name, "()"⟩

/-- The method list of a type, empty when nothing is listed. -/
def methodList (r : Registry) (detail : Detail) (h : Handle) : Except Failure String :=
  if detail.wantsMethods then do
    let d ← r.describe h
    pure (MemberEntry.listText ((listedMethods d detail).map methodEntry))
  else .ok ""

end Registry

end ClassDiagram
