import Mathlib.Algebra.Ring.Nat
import Mathlib.Data.List.Basic
import Mathlib.Tactic.Common

/-!
# Decimal numbers

Printing a bounded unsigned number and parsing it back.  The parser accepts what the standard
library's integer parsers accept: one optional plus sign, at least one decimal digit, any number
of leading zeros, and a value below the bound of the type.  So a number has many texts, of which
printing gives one.

## Main definitions

* `unsignedDigits` : the digits behind an optional plus sign.
* `parseUnsigned` : the parser for a bound, and `parseU16`, `parseU32`, `parseU64` for the types.

## Main results

* `parseUnsigned_toDigits` : printing and parsing back.
* `mem_of_parseUnsigned` : only digits parse, behind at most one plus sign.
-/

namespace Gritty

namespace Text

/-- The digits of an unsigned number, without the plus sign it may carry. -/
def unsignedDigits (cs : List Char) : List Char := if cs.head? = some '+' then cs.tail else cs

/-- Parse an unsigned decimal number below `bound`. -/
def parseUnsigned (bound : ℕ) (cs : List Char) : Option ℕ :=
  let digits := unsignedDigits cs
  if digits ≠ [] ∧ digits.all Char.isDigit ∧ Nat.ofDigitChars 10 digits 0 < bound then
    some (Nat.ofDigitChars 10 digits 0)
  else none

/-- `str::parse::<u16>()` -/
def parseU16 (s : String) : Option UInt16 := (parseUnsigned UInt16.size s.toList).map UInt16.ofNat

/-- `str::parse::<u32>()` -/
def parseU32 (s : String) : Option UInt32 := (parseUnsigned UInt32.size s.toList).map UInt32.ofNat

/-- `str::parse::<u64>()` -/
def parseU64 (s : String) : Option UInt64 := (parseUnsigned UInt64.size s.toList).map UInt64.ofNat

theorem isDigit_of_mem_toDigits {n : ℕ} {c : Char} (h : c ∈ Nat.toDigits 10 n) : c.isDigit = true :=
  Nat.isDigit_of_mem_toDigits (by decide) (by decide) h

theorem notMem_toDigits {n : ℕ} {c : Char} (hc : c.isDigit = false) : c ∉ Nat.toDigits 10 n :=
  fun h => by simp [isDigit_of_mem_toDigits h] at hc

theorem unsignedDigits_toDigits (n : ℕ) :
    unsignedDigits (Nat.toDigits 10 n) = Nat.toDigits 10 n := by
  have hplus : (Nat.toDigits 10 n).head? ≠ some '+' :=
    fun h => notMem_toDigits (by decide) (List.mem_of_head? h)
  rw [unsignedDigits, if_neg hplus]

/-- **Printing and parsing back.** -/
theorem parseUnsigned_toDigits {bound n : ℕ} (h : n < bound) :
    parseUnsigned bound (Nat.toDigits 10 n) = some n := by
  have hdigits : (Nat.toDigits 10 n).all Char.isDigit = true :=
    List.all_eq_true.2 fun c hc => isDigit_of_mem_toDigits hc
  simp only [parseUnsigned, unsignedDigits_toDigits, Nat.ofDigitChars_ten_toDigits]
  rw [if_pos ⟨Nat.toDigits_ne_nil, hdigits, h⟩]

theorem mem_of_parseUnsigned {bound n : ℕ} {cs : List Char} (h : parseUnsigned bound cs = some n)
    {c : Char} (hc : c ∈ cs) : c = '+' ∨ c.isDigit = true := by
  obtain ⟨⟨-, hdigits, -⟩, -⟩ := Option.ite_some_none_eq_some.1 h
  cases cs with
  | nil => simp at hc
  | cons e cs =>
    by_cases he : e = '+'
    · subst he
      rcases List.mem_cons.1 hc with rfl | hc
      · exact .inl rfl
      · exact .inr (List.all_eq_true.1 hdigits c hc)
    · have hall : unsignedDigits (e :: cs) = e :: cs := by simp [unsignedDigits, he]
      rw [hall] at hdigits
      exact .inr (List.all_eq_true.1 hdigits c hc)

theorem notMem_of_parseU16 {s : String} {n : UInt16} (h : parseU16 s = some n) {c : Char}
    (hplus : c ≠ '+') (hdigit : c.isDigit = false) : c ∉ s.toList := by
  intro hc
  obtain ⟨v, hv, -⟩ := Option.map_eq_some_iff.1 h
  rcases mem_of_parseUnsigned hv hc with rfl | hd
  · exact hplus rfl
  · simp [hdigit] at hd

theorem toList_toString_uint16 (n : UInt16) : (toString n).toList = Nat.toDigits 10 n.toNat := by
  show (Nat.repr n.toNat).toList = _
  rw [Nat.toList_repr]

theorem toList_toString_uint32 (n : UInt32) : (toString n).toList = Nat.toDigits 10 n.toNat := by
  show (Nat.repr n.toNat).toList = _
  rw [Nat.toList_repr]

theorem toList_toString_uint64 (n : UInt64) : (toString n).toList = Nat.toDigits 10 n.toNat := by
  show (Nat.repr n.toNat).toList = _
  rw [Nat.toList_repr]

@[simp] theorem parseU16_toString (n : UInt16) : parseU16 (toString n) = some n := by
  rw [parseU16, toList_toString_uint16, parseUnsigned_toDigits n.toNat_lt]
  simp

@[simp] theorem parseU32_toString (n : UInt32) : parseU32 (toString n) = some n := by
  rw [parseU32, toList_toString_uint32, parseUnsigned_toDigits n.toNat_lt]
  simp

@[simp] theorem parseU64_toString (n : UInt64) : parseU64 (toString n) = some n := by
  rw [parseU64, toList_toString_uint64, parseUnsigned_toDigits n.toNat_lt]
  simp

theorem length_toString_uint32_le (n : UInt32) : (toString n).toList.length ≤ 10 := by
  rw [toList_toString_uint32, Nat.length_toDigits_le_iff (by decide) (by decide)]
  exact Nat.lt_trans n.toNat_lt (by decide)

theorem length_toString_uint64_le (n : UInt64) : (toString n).toList.length ≤ 20 := by
  rw [toList_toString_uint64, Nat.length_toDigits_le_iff (by decide) (by decide)]
  exact Nat.lt_trans n.toNat_lt (by decide)

example : parseU32 "+007" = some 7 ∧ parseU32 "4294967296" = none ∧ parseU32 "+" = none := by decide

end Text

end Gritty
