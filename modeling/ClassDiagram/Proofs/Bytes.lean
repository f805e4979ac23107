import Mathlib.Data.List.Lex
import Mathlib.Data.String.Basic
import Mathlib.Tactic.SplitIfs
/-!
# The bytes of a text

A text in UTF-8 is the bytes of its characters one after another. Among texts, the order of the
bytes is the order of the characters: of two characters the greater one has the greater byte where
their encodings first differ, and neither encoding begins with the other.
-/

namespace ClassDiagram.Text

/-- Behind the bytes in front, the rest is yet to be added. -/
theorem toList_loop (front rest reversed : List UInt8) :
    ByteArray.toList.loop ⟨⟨front ++ rest⟩⟩ front.length reversed = reversed.reverse ++ rest := by
  induction rest generalizing front reversed with
  | nil =>
    rw [ByteArray.toList.loop]
    simp [ByteArray.size]
  | cons b rest ih =>
    rw [ByteArray.toList.loop]
    have hnext := ih (front ++ [b]) (b :: reversed)
    simp_all [ByteArray.size, ByteArray.get!]

theorem toList_eq_data (bytes : ByteArray) : bytes.toList = bytes.data.toList :=
  toList_loop [] bytes.data.toList []

theorem toUTF8_toList (s : String) : s.toUTF8.toList = s.toList.flatMap String.utf8EncodeChar := by
  rw [toList_eq_data, String.toUTF8, ← String.utf8Encode_toList, List.utf8Encode]
  simp

theorem fromUTF8?_eq_some {bytes : ByteArray} {s : String} :
    String.fromUTF8? bytes = some s ↔ bytes = s.toUTF8 := by
  rw [String.fromUTF8?]
  split
  next hvalid => exact Option.some_inj.trans String.toByteArray_inj.symm
  next hvalid =>
    refine iff_of_false (by simp) ?_
    rintro rfl
    exact hvalid s.isValidUTF8

/-! ## Order -/

theorem encode_lt {c d : Char} (h : c < d) (l m : List UInt8) :
    String.utf8EncodeChar c ++ l < String.utf8EncodeChar d ++ m := by
  have hlt : c.val.toNat < d.val.toNat := h
  have hmax : d.val.toNat < 0x110000 := by
    rcases d.valid with h | h <;> omega
  simp only [String.utf8EncodeChar]
  generalize c.val.toNat = v at *
  generalize d.val.toNat = w at *
  -- One case for each pair of lengths, in all of which the first bytes that differ are compared.
  split_ifs <;>
    simp (disch := omega) only [List.cons_append, List.nil_append, List.cons_lt_cons_iff,
      UInt8.lt_iff_toNat_lt, ← UInt8.toNat_inj, UInt8.toNat_ofNat', Nat.reducePow,
      Nat.mod_eq_of_lt] <;>
    omega

theorem flatMap_encode_lt {l m : List Char} (h : l < m) :
    l.flatMap String.utf8EncodeChar < m.flatMap String.utf8EncodeChar := by
  induction h with
  | @nil c m =>
    obtain ⟨b, bs, hb⟩ := List.exists_cons_of_ne_nil (String.utf8EncodeChar_ne_nil (c := c))
    simp [hb]
  | rel h => exact encode_lt h _ _
  | cons _ ih => exact List.append_left_lt ih

theorem toUTF8_lt_iff {s t : String} : s.toUTF8.toList < t.toUTF8.toList ↔ s < t := by
  have hlt : ∀ {s t : String}, s < t → s.toUTF8.toList < t.toUTF8.toList := fun h => by
    rw [toUTF8_toList, toUTF8_toList]
    exact flatMap_encode_lt h
  refine ⟨fun h => ?_, hlt⟩
  rcases lt_trichotomy s t with hst | rfl | hts
  · exact hst
  · exact absurd h (List.lt_irrefl _)
  · exact absurd h (List.lt_asymm (hlt hts))

theorem toUTF8_le_iff {s t : String} : s.toUTF8.toList ≤ t.toUTF8.toList ↔ s ≤ t :=
  not_congr toUTF8_lt_iff

end ClassDiagram.Text
