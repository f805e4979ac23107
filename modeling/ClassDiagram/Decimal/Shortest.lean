/-!
# Shortest decimals

The decimal with the fewest digits that still reads back as a given binary floating-point number,
and among those the one nearest to it. All steps are exact arithmetic on natural numbers: the
number and the ends of the interval that rounds to it are fractions over one denominator.
-/

namespace ClassDiagram.Decimal

/-- A power of ten. -/
def powerOfTen : Nat → Nat
  | 0 => 1
  | n + 1 => 10 * powerOfTen n

/-- The decimal number `digits * 10 ^ exponent`. -/
structure Scientific where
  digits : Nat
  exponent : Int
deriving DecidableEq, Repr

/-- The reals that round to one floating-point number, and that number itself, as fractions over
the denominator `den`. -/
structure Interval where
  low : Nat
  mid : Nat
  high : Nat
  den : Nat
  /-- The ends themselves round to the number. -/
  closed : Bool
deriving DecidableEq, Repr

namespace Interval

/-- The interval of the positive finite double with the given bits, sign left out. The step to the
next smaller number is half as wide where the exponent changes. -/
def ofBits (bits : Nat) : Interval :=
  let exponent := bits >>> 52
  let fraction := bits % (1 <<< 52)
  let m := if exponent = 0 then fraction else fraction + (1 <<< 52)
  -- the unit is a quarter of the last binary place: 2 ^ (e - 1077) with e at least 1
  let e := max exponent 1
  let below := if fraction = 0 ∧ 1 < exponent then 1 else 2
  let up := 1 <<< (e - 1077)
  { low := (4 * m - below) * up
    mid := 4 * m * up
    high := (4 * m + 2) * up
    den := 1 <<< (1077 - e)
    closed := m % 2 = 0 }

/-- The decimal power just below the number: `10 ^ k ≤ mid / den < 10 ^ (k + 1)`. -/
def magnitude (i : Interval) : Int :=
  if i.den ≤ i.mid then ((Nat.toDigits 10 (i.mid / i.den)).length : Int) - 1
  else -((Nat.toDigits 10 ((i.den + i.mid - 1) / i.mid - 1)).length : Int)

/-- The decimal `d * 10 ^ e` rounds to the number. -/
def covers (i : Interval) (d : Nat) (e : Int) : Bool :=
  let left := d * powerOfTen e.toNat * i.den
  let scale := powerOfTen (-e).toNat
  if i.closed then i.low * scale ≤ left && left ≤ i.high * scale
  else i.low * scale < left && left < i.high * scale

/-- The decimal on the grid of `n` significant digits that rounds to the number: the nearer of its
two neighbours there, an exact tie going to the even one. -/
def onGrid? (i : Interval) (n : Nat) : Option Scientific :=
  let e := i.magnitude + 1 - n
  let num := i.mid * powerOfTen (-e).toNat
  let den := i.den * powerOfTen e.toNat
  let a := num / den
  let twice := 2 * (num % den)
  match i.covers a e, i.covers (a + 1) e with
  | true, false => some ⟨a, e⟩
  | false, true => some ⟨a + 1, e⟩
  | true, true =>
    if twice < den ∨ (twice = den ∧ a % 2 = 0) then some ⟨a, e⟩ else some ⟨a + 1, e⟩
  | false, false => none

/-- The first hit on the grids of `n`, `n + 1`, … digits; seventeen digits always suffice. -/
def shortestFrom (i : Interval) : Nat → Nat → Scientific
  | 0, n => (i.onGrid? n).getD ⟨0, 0⟩
  | more + 1, n => (i.onGrid? n).getD (i.shortestFrom more (n + 1))

end Interval

/-- Moves the zeros at the end of the digits into the exponent, at most `limit` of them. -/
def Scientific.strip : Nat → Scientific → Scientific
  | 0, s => s
  | limit + 1, s =>
    if s.digits ≠ 0 ∧ s.digits % 10 = 0 then strip limit ⟨s.digits / 10, s.exponent + 1⟩ else s

/-- The shortest decimal of the positive finite double with the given bits. -/
def shortest (bits : Nat) : Scientific :=
  ((Interval.ofBits bits).shortestFrom 16 1).strip 17

/-- Where a written decimal changes from positional to exponent form. -/
structure Layout where
  /-- The smallest decimal power of the first digit that is written positionally. -/
  least : Int
  /-- The largest one. -/
  greatest : Int
deriving DecidableEq, Repr

/-- Digits with a point after the first `n` of them. A missing side is written as one zero. -/
def withPoint (digits : List Char) (n : Int) : List Char :=
  if n ≤ 0 then ['0', '.'] ++ List.replicate (-n).toNat '0' ++ digits
  else
    let whole := digits.take n.toNat ++ List.replicate (n.toNat - digits.length) '0'
    let rest := digits.drop n.toNat
    whole ++ '.' :: (if rest.isEmpty then ['0'] else rest)

/-- A positive decimal: positionally, or as one digit, a point if more follow, and an exponent with
its sign. -/
def Layout.write (f : Layout) (s : Scientific) : List Char :=
  let digits := Nat.toDigits 10 s.digits
  let power := s.exponent + digits.length - 1
  if f.least ≤ power ∧ power ≤ f.greatest then withPoint digits (power + 1)
  else
    let mantissa := match digits with
      | [] => []
      | [d] => [d]
      | d :: rest => d :: '.' :: rest
    mantissa ++ 'e' :: (if power < 0 then '-' else '+') :: Nat.toDigits 10 power.natAbs

/-- A finite double. Zero keeps its sign and is written with one place. -/
def Layout.writeFloat (f : Layout) (x : Float) : List Char :=
  let bits := x.toBits.toNat
  let magnitude := bits % (1 <<< 63)
  let sign := if bits >>> 63 = 0 then [] else ['-']
  sign ++ (if magnitude = 0 then ['0', '.', '0'] else f.write (shortest magnitude))

end ClassDiagram.Decimal
