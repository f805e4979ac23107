import ClassDiagram.Decimal.Shortest
import ClassDiagram.Json.Cursor
/-!
# JSON numbers

A number is scanned as digits first and given a value afterwards. Integers that fit a 64-bit word
keep it; every other number is a double, worked out from its leading digits and one power of ten.
-/

namespace ClassDiagram.Json

/-- The digits of a number as they stand in the text. -/
structure Digits where
  negative : Bool
  whole : List Char
  /-- The digits after the point, empty when there is none. -/
  fraction : List Char
  /-- The sign and the digits of the exponent. -/
  exponent : Option (Bool × List Char)
deriving DecidableEq, Repr

/-- The value of a number. -/
inductive Number where
  | natural (n : Nat)
  /-- The number `-n`, for a positive `n`. -/
  | negated (n : Nat)
  | float (x : Float)

/-- Numbers are written positionally from `0.00001` to below `10 ^ 16`. -/
def floatLayout : Decimal.Layout := ⟨-5, 15⟩

/-- The number as it is named in a message. -/
def Number.found : Number → Found
  | natural n => .integer n
  | negated n => .integer (-(n : Int))
  | float x => .float (String.ofList (floatLayout.writeFloat x))

namespace Scan

/-- The digits in front of the cursor. -/
def digits : Scan (List Char) := fun c =>
  let ds := c.rest.takeWhile Char.isDigit
  .ok (ds, ⟨c.rest.dropWhile Char.isDigit, c.index + ds.length⟩)

/-- The digits before the point: a zero that no digit follows, or digits that begin with no zero.
At the end of the text the fault is `atEnd`. -/
def wholeDigits (atEnd : Cause) : Scan (List Char) := do
  match ← peek with
  | none => failHere atEnd
  | some a =>
    if a = '0' then do
      skip
      match ← peek with
      | some b => if b.isDigit then failNext .invalidNumber else pure ['0']
      | none => pure ['0']
    else if a.isDigit then digits
    else failNext .invalidNumber

/-- The point and the digits after it, of which there is one at least. -/
def fractionDigits (atEnd : Cause) : Scan (List Char) := do
  match ← peek with
  | some '.' => do
    skip
    let ds ← digits
    if ds.isEmpty then
      match ← peek with
      | none => failNext atEnd
      | some _ => failNext .invalidNumber
    else pure ds
  | _ => pure []

/-- The exponent: its mark, a sign or none, and one digit at least. -/
def exponentDigits (atEnd : Cause) : Scan (Option (Bool × List Char)) := do
  let mark ← peek
  if mark = some 'e' ∨ mark = some 'E' then do
    skip
    let sign ← peek
    if sign = some '+' ∨ sign = some '-' then skip
    match ← peek with
    | none => failHere atEnd
    | some a =>
      if a.isDigit then do
        let ds ← digits
        pure (some (sign == some '-', ds))
      else failNext .invalidNumber
  else pure none

/-- A number after its sign. -/
def numberDigits (negative : Bool) (atEnd : Cause) : Scan Digits := do
  let whole ← wholeDigits atEnd
  let fraction ← fractionDigits atEnd
  let exponent ← exponentDigits atEnd
  pure { negative, whole, fraction, exponent }

end Scan

namespace Digits

/-- The greatest 64-bit word. -/
def maxWord : Nat := UInt64.size - 1

/-- The greatest exponent that is looked at digit by digit. -/
def maxExponent : Nat := (1 <<< 31) - 1

/-- The value of a decimal digit. -/
def digitValue (c : Char) : Nat := c.toNat - 0x30

/-- Reads digits into a word as long as it fits; the digits that no longer do are returned. -/
def fillWord (n : Nat) : List Char → Nat × List Char
  | [] => (n, [])
  | d :: ds =>
    let next := n * 10 + digitValue d
    if next ≤ maxWord then fillWord next ds else (n, d :: ds)

/-- The exponent of the last digits kept, and these digits as a word: whole digits that do not fit
raise the exponent, and of the fraction the digits that fit lower it. -/
def significand (d : Digits) : Nat × Int :=
  let (n, dropped) := fillWord 0 d.whole
  let (n, left) := fillWord n d.fraction
  (n, (dropped.length : Int) - (d.fraction.length - left.length : Nat))

/-- The number of digits of an exponent up to the one at which it grows beyond `maxExponent`. -/
def overflowAt? (n : Nat) (seen : Nat) : List Char → Option Nat
  | [] => none
  | d :: ds =>
    let next := n * 10 + digitValue d
    if next ≤ maxExponent then overflowAt? next (seen + 1) ds else some (seen + 1)

/-- The value of a string of digits. -/
def digitsValue (ds : List Char) : Nat := ds.foldl (fun n d => n * 10 + digitValue d) 0

/-- The power of ten, for exponents up to 308. -/
def decimalPower (e : Nat) : Float := Float.ofScientific 1 false e

/-- Divides by the power of ten `10 ^ e`, in steps of at most `10 ^ 308`; after `steps` steps
nothing but zero is left of a word. -/
def divideDown : Nat → Float → Nat → Float
  | 0, x, _ => x
  | steps + 1, x, e =>
    if e ≤ 308 then x / decimalPower e
    else if x == 0 then x
    else divideDown steps (x / decimalPower 308) (e - 308)

/-- The double `n * 10 ^ e`, or nothing when it is too large. -/
def toFloat? (n : Nat) (e : Int) : Option Float :=
  let x := (UInt64.ofNat n).toFloat
  if e < 0 then some (divideDown 4 x e.natAbs)
  else if 308 < e then if n = 0 then some x else none
  else
    let y := x * decimalPower e.toNat
    if y.isInf then none else some y

/-- The number with the given digits before its sign, or how many characters before the end of the
digits it was found too large. -/
def magnitude? (d : Digits) : Except Nat Number :=
  let (n, e) := d.significand
  match d.exponent with
  | none =>
    if d.fraction.isEmpty && e = 0 then .ok (.natural n)
    else (toFloat? n e).elim (.error 0) fun x => .ok (.float x)
  | some (down, ds) =>
    match overflowAt? 0 0 ds with
    | some k => if n = 0 ∨ down then .ok (.float 0) else .error (ds.length - k)
    | none =>
      let shift : Int := digitsValue ds
      (toFloat? n (if down then e - shift else e + shift)).elim (.error 0) fun x => .ok (.float x)

/-- Puts a minus sign in front. Zero and what lies below the least 64-bit integer are doubles. -/
def negate : Number → Number
  | .natural n => if 0 < n ∧ n ≤ 1 <<< 63 then .negated n else .float (-(UInt64.ofNat n).toFloat)
  | .negated n => .natural n
  | .float x => .float (-x)

end Digits

namespace Scan

/-- A number after its sign, with its value. -/
def number (negative : Bool) : Scan Number := do
  let d ← numberDigits negative .unfinishedValue
  match d.magnitude? with
  | .ok n => pure (if negative then Digits.negate n else n)
  | .error back => fun c => .error ⟨.numberOutOfRange, c.index - back⟩

/-- Passes over a number after its sign. -/
def skipNumber : Scan Unit := do
  discard <| numberDigits false .invalidNumber

end Scan

end ClassDiagram.Json
