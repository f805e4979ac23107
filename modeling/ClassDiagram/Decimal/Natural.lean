/-!
# Reading natural numbers

A natural number is read from ASCII digits, with a plus sign in front or without, leading zeros
allowed. A number above the limit is no number.
-/

namespace ClassDiagram.Decimal

/-- The number whose digits follow those of `n`, from the most significant one. -/
def digits? (n : Nat) : List Char → Option Nat
  | [] => some n
  | c :: rest => if c.isDigit then digits? (n * 10 + (c.toNat - '0'.toNat)) rest else none

/-- The number of a text, at most `limit`. -/
def natural? (limit : Nat) (s : String) : Option Nat :=
  let digits := match s.toList with
    | '+' :: rest => rest
    | l => l
  if digits.isEmpty then none else (digits? 0 digits).filter fun n => n ≤ limit

end ClassDiagram.Decimal
