import ClassDiagram.Text.Percent
/-!
# Form fields

The encoding of a form field in a request body: letters, digits and the four marks `*`, `-`, `.`
and `_` stand for themselves, a space is written as a plus sign, and every other byte of the
UTF-8 form as two hexadecimal digits after a percent sign.
-/

namespace ClassDiagram.Text

/-- One byte of a form field. -/
def formByte (b : UInt8) : List Char :=
  let c := Char.ofNat b.toNat
  if c.isAlphanum || c == '*' || c == '-' || c == '.' || c == '_' then [c]
  else if c == ' ' then ['+']
  else percentByte b

/-- The encoded text of a form field. -/
def formEncode (s : String) : String := String.ofList (s.toUTF8.toList.flatMap formByte)

end ClassDiagram.Text
