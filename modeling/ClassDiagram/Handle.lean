/-!
# Handles

A handle names one slot of a registry. Identity of types is identity of handles: two types of the
same name have different handles, and a handle says nothing about whether its slot is occupied.
-/

namespace ClassDiagram

/-- The number of a slot, kept as a 32-bit word. -/
structure Handle where
  word : UInt32
deriving DecidableEq, Repr, Inhabited

namespace Handle

/-- The handle of slot `n`; only the low 32 bits of `n` are kept. -/
def ofNat (n : Nat) : Handle := ⟨UInt32.ofNat n⟩

/-- The slot a handle points at. -/
def slot (h : Handle) : Nat := h.word.toNat

/-- The written form, such as `#7`. -/
def text (h : Handle) : String := "#" ++ toString h.slot

theorem slot_ofNat (n : Nat) : (ofNat n).slot = n % UInt32.size := by
  simp [ofNat, slot]

theorem slot_ofNat_of_lt {n : Nat} (h : n < UInt32.size) : (ofNat n).slot = n := by
  rw [slot_ofNat, Nat.mod_eq_of_lt h]

theorem slot_lt (h : Handle) : h.slot < UInt32.size := h.word.toNat_lt

@[simp] theorem ofNat_slot (h : Handle) : ofNat h.slot = h := by
  simp [ofNat, slot]

theorem slot_injective {a b : Handle} (h : a.slot = b.slot) : a = b := by
  rw [← ofNat_slot a, ← ofNat_slot b, h]

end Handle

end ClassDiagram
