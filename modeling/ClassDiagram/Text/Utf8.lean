/-!
# Reading UTF-8 leniently

Bytes from outside need not be valid UTF-8. `decodeLossy` reads them all the same: each maximal
run of bytes that could have begun a character but did not finish one is read as one replacement
character.
-/

namespace ClassDiagram.Text

/-- The character U+FFFD, which stands for bytes that encode nothing. -/
def replacement : Char := '\ufffd'

/-- What a byte demands when it comes first: how many bytes must follow, the range of the first of
them, and the bits that it gives to the code point. -/
structure Lead where
  following : Nat
  low : Nat := 0x80
  high : Nat := 0xBF
  bits : Nat
deriving DecidableEq, Repr

/-- The demands of a first byte, or nothing when no character begins with it. The narrower ranges
rule out overlong forms, surrogates and code points above U+10FFFF. -/
def lead? (b : Nat) : Option Lead :=
  if b < 0x80 then some { following := 0, bits := b }
  else if b < 0xC2 then none
  else if b < 0xE0 then some { following := 1, bits := b - 0xC0 }
  else if b = 0xE0 then some { following := 2, low := 0xA0, bits := 0 }
  else if b = 0xED then some { following := 2, high := 0x9F, bits := 0xD }
  else if b < 0xF0 then some { following := 2, bits := b - 0xE0 }
  else if b = 0xF0 then some { following := 3, low := 0x90, bits := 0 }
  else if b < 0xF4 then some { following := 3, bits := b - 0xF0 }
  else if b = 0xF4 then some { following := 3, high := 0x8F, bits := 4 }
  else none

/-- Where a lenient reader stands: between characters, or inside one that may still be finished. -/
abbrev Pending := Option Lead

/-- Reads one byte: the characters that it completes, and where the reader stands after it. -/
def decodeByte (pending : Pending) (b : Nat) : List Char × Pending :=
  match pending with
  | some p =>
    if p.low ≤ b ∧ b ≤ p.high then
      let bits := p.bits * 64 + (b - 0x80)
      if p.following ≤ 1 then ([Char.ofNat bits], none)
      else ([], some { following := p.following - 1, bits })
    else
      let (chars, next) := start b
      (replacement :: chars, next)
  | none => start b
where
  /-- A byte that comes first. -/
  start (b : Nat) : List Char × Pending :=
    match lead? b with
    | none => ([replacement], none)
    | some p => if p.following = 0 then ([Char.ofNat p.bits], none) else ([], some p)

/-- Reads bytes from where the reader stands. -/
def decodeFrom : Pending → List UInt8 → List Char
  | none, [] => []
  | some _, [] => [replacement]
  | pending, b :: rest =>
    let (chars, next) := decodeByte pending b.toNat
    chars ++ decodeFrom next rest

/-- The text of the bytes, with replacement characters where they encode none. -/
def decodeLossy (bytes : ByteArray) : String := String.ofList (decodeFrom none bytes.toList)

end ClassDiagram.Text
