import ClassDiagram.Proofs.Program.Agreement
/-!
# Setting up the resolver

Which surroundings leave a run without a cache to resolve with. A span of time is any number that
fits into 64 bits, while a cache takes no lifetime of more than a thousand years. So the variables
can ask for a lifetime that is taken for one and that no cache is made for; a run that comes as far
as the cache then breaks down.
-/

namespace ClassDiagram

/-! ## Numbers in texts -/

namespace Decimal

/-- The characters spell the number: a digit or more, with a plus sign in front or without. -/
def Spells (l : List Char) (n : Nat) : Prop :=
  ∃ sign digits, l = sign ++ digits ∧ (sign = [] ∨ sign = ['+']) ∧ digits ≠ [] ∧
    (∀ c ∈ digits, c.isDigit = true) ∧ n = Nat.ofDigitChars 10 digits 0

variable {l : List Char} {m n limit : Nat}

end Decimal

/-! ## Lifetimes that are too long -/

namespace Settings

variable (vars : Variables)

end Settings

/-! ## Runs that break down for want of a cache -/

namespace Program

open CommandLine

section

variable (s : Surroundings)

end

end Program

end ClassDiagram
