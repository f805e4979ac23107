/-!
# Keywords

Closed vocabularies are read without regard to the case of ASCII letters. No spelling in this
library contains a letter that some non-ASCII character folds to, so folding ASCII is enough.
-/

namespace ClassDiagram.Text

/-- The text with its ASCII capitals turned small. -/
def foldCase (s : String) : String := String.ofList (s.toList.map Char.toLower)

/-- The meaning of the first spelling in the table that equals `s` up to case. -/
def keyword? {α : Type} (table : List (String × α)) (s : String) : Option α :=
  table.lookup (foldCase s)

end ClassDiagram.Text
