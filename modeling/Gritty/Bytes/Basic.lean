import Mathlib.Algebra.Ring.Nat
import Mathlib.Data.List.Basic
import Mathlib.Tactic.Common

/-!
# Bytes of numbers and of text

Big-endian numbers and UTF-8 text as lists of bytes, with the inverse laws that a binary format
needs.  Validity of UTF-8 is the one of the core library, and the bytes of a text are determined
character by character, so that lengths can be counted there.

## Main definitions

* `beU16`, `beU32` and `ofBeU16`, `ofBeU32` : numbers as bytes, most significant byte first.
* `utf8`, `fromUtf8` : the bytes of a text, and the text of valid bytes.

## Main results

* `fromUtf8_utf8` : the bytes of a text are valid and give the text back.
* `utf8_eq_flatMap` : they are those of its characters, one after the other.
* `length_utf8_intercalate` : the bytes of texts that are joined by a separator.
-/

namespace Gritty

namespace Bytes

/-- The big-endian bytes of a 16-bit number. -/
def beU16 (n : UInt16) : List UInt8 := [UInt8.ofNat (n.toNat / 2 ^ 8), UInt8.ofNat n.toNat]

/-- The 16-bit number with the given big-endian bytes. -/
def ofBeU16 (b₀ b₁ : UInt8) : UInt16 := UInt16.ofNat (b₀.toNat * 2 ^ 8 + b₁.toNat)

/-- The big-endian bytes of a 32-bit number. -/
def beU32 (n : UInt32) : List UInt8 :=
  [UInt8.ofNat (n.toNat / 2 ^ 24), UInt8.ofNat (n.toNat / 2 ^ 16), UInt8.ofNat (n.toNat / 2 ^ 8),
    UInt8.ofNat n.toNat]

/-- The 32-bit number with the given big-endian bytes. -/
def ofBeU32 (b₀ b₁ b₂ b₃ : UInt8) : UInt32 :=
  UInt32.ofNat (b₀.toNat * 2 ^ 24 + b₁.toNat * 2 ^ 16 + b₂.toNat * 2 ^ 8 + b₃.toNat)

theorem ofBeU16_beU16 (n : UInt16) :
    ofBeU16 (UInt8.ofNat (n.toNat / 2 ^ 8)) (UInt8.ofNat n.toNat) = n := by
  have h := n.toNat_lt
  apply UInt16.toNat_inj.1
  simp only [ofBeU16, UInt16.toNat_ofNat', UInt8.toNat_ofNat']
  omega

theorem ofBeU32_beU32 (n : UInt32) :
    ofBeU32 (UInt8.ofNat (n.toNat / 2 ^ 24)) (UInt8.ofNat (n.toNat / 2 ^ 16))
      (UInt8.ofNat (n.toNat / 2 ^ 8)) (UInt8.ofNat n.toNat) = n := by
  have h := n.toNat_lt
  apply UInt32.toNat_inj.1
  simp only [ofBeU32, UInt32.toNat_ofNat', UInt8.toNat_ofNat']
  omega

/-- The bytes of a text. -/
def utf8 (s : String) : List UInt8 := s.toByteArray.data.toList

/-- The text with the given bytes, if they are valid UTF-8. -/
def fromUtf8 (bs : List UInt8) : Option String := String.fromUTF8? ⟨bs.toArray⟩

@[simp] theorem fromUtf8_utf8 (s : String) : fromUtf8 (utf8 s) = some s := by
  simp [fromUtf8, utf8, String.fromUTF8?, s.isValidUTF8, String.fromUTF8]

theorem utf8_of_fromUtf8 {bs : List UInt8} {s : String} (h : fromUtf8 bs = some s) :
    utf8 s = bs := by
  simp only [fromUtf8, String.fromUTF8?, Option.dite_none_right_eq_some] at h
  obtain ⟨hv, h⟩ := h
  obtain rfl := Option.some.inj h
  simp [utf8, String.fromUTF8]

@[simp] theorem utf8_append (s t : String) : utf8 (s ++ t) = utf8 s ++ utf8 t := by
  simp [utf8]

/-- The bytes of a text are those of its characters, one after the other. -/
theorem utf8_eq_flatMap (s : String) : utf8 s = s.toList.flatMap String.utf8EncodeChar := by
  rw [utf8, ← String.utf8Encode_toList, List.utf8Encode]
  simp

theorem length_le_length_utf8 (s : String) : s.toList.length ≤ (utf8 s).length := by
  rw [utf8_eq_flatMap]
  induction s.toList with
  | nil => simp
  | cons c cs ih =>
    have := c.utf8Size_pos
    simp only [List.flatMap_cons, List.length_append, List.length_cons,
      String.length_utf8EncodeChar]
    omega

theorem length_utf8_le (s : String) : (utf8 s).length ≤ 4 * s.toList.length := by
  rw [utf8_eq_flatMap]
  induction s.toList with
  | nil => simp
  | cons c cs ih =>
    have := c.utf8Size_le_four
    simp only [List.flatMap_cons, List.length_append, List.length_cons,
      String.length_utf8EncodeChar]
    omega

/-- Joining texts puts one separator between any two of them. -/
theorem length_utf8_intercalate {d : String} (hd : (utf8 d).length = 1) {ls : List String}
    (h : ls ≠ []) :
    (utf8 (d.intercalate ls)).length + 1 = (ls.map fun l => (utf8 l).length + 1).sum := by
  induction ls with
  | nil => exact absurd rfl h
  | cons l ls ih =>
    cases ls with
    | nil => simp
    | cons l' ls =>
      have := ih (by simp)
      simp only [String.intercalate_cons_cons, utf8_append, List.length_append, hd, List.map_cons,
        List.sum_cons] at this ⊢
      omega

end Bytes

end Gritty
