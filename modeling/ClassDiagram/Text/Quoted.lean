import ClassDiagram.Text.Graphic
import ClassDiagram.Text.Extender
/-!
# Quoted text

Text between double quotes, written so that every character can be told: quotes and backslashes
are escaped, the common controls have a letter, and whatever is not graphic or would merge with
its neighbour is written by its code point.
-/

namespace ClassDiagram.Text

/-- One character of quoted text. An apostrophe stands for itself. -/
def quoteChar (c : Char) : List Char :=
  if c = '\x00' then ['\\', '0']
  else if c = '\t' then ['\\', 't']
  else if c = '\n' then ['\\', 'n']
  else if c = '\r' then ['\\', 'r']
  else if c = '\x22' then ['\\', '\x22']
  else if c = '\\' then ['\\', '\\']
  else if isGraphic c && !isExtender c then [c]
  else ['\\', 'u', '\x7b'] ++ Nat.toDigits 16 c.toNat ++ ['\x7d']

/-- The text between double quotes. -/
def quoted (s : String) : String :=
  "\"" ++ String.ofList (s.toList.flatMap quoteChar) ++ "\""

end ClassDiagram.Text
