import Mathlib.Data.Nat.Digits.Defs
import Calculator.Decimal

/-!
# Abbreviated integers

An integer is only measured if it has more than four bits for every character that may be shown, and
its text is cut short if it has more characters than that. The first test never hides a text that
would fit: a decimal digit is worth less than four bits (`bitLength_le`), and a sign, which has a
character of its own, is worth none. Neither a measure nor a cut text can be taken for the text of
an integer, as both have a character that no such text has (`eq_minus_or_isDigit`).
-/

namespace Calculator.Decimal

/-! ## Full texts -/

theorem repr_eq (n : ℤ) : n.repr = if n < 0 then "-" ++ n.natAbs.repr else n.natAbs.repr := by
  rcases lt_or_ge n 0 with hn | hn
  · rw [Int.repr_eq_if, if_neg (by omega), if_pos hn, show (-n).toNat = n.natAbs by omega]
  · rw [Int.repr_eq_if, if_pos hn, if_neg (by omega), show n.toNat = n.natAbs by omega]

theorem text_eq_repr (n : ℤ) : text n = n.repr := (text_eq n).trans (repr_eq n).symm

theorem eq_minus_or_isDigit {n : ℤ} {c : Char} (h : c ∈ n.repr.toList) : c = '-' ∨ c.isDigit := by
  have hdigit (hc : c ∈ n.natAbs.repr.toList) : c.isDigit := by
    rw [Nat.toList_repr] at hc
    exact Nat.isDigit_of_mem_toDigits (by decide) (by decide) hc
  rw [repr_eq] at h
  split_ifs at h
  · rw [String.toList_append, List.mem_append] at h
    exact h.imp List.mem_singleton.1 hdigit
  · exact .inr (hdigit h)

/-- A sign adds a character and nothing to the magnitude. -/
theorem length_repr_natAbs_le (n : ℤ) : n.natAbs.repr.length ≤ n.repr.length := by
  rw [repr_eq]
  split_ifs
  · rw [String.length_append]
    exact Nat.le_add_left _ _
  · exact le_rfl

/-! ## Bits and digits -/

theorem bitLength_le_iff {n : ℤ} {k : ℕ} : bitLength n ≤ k ↔ n.natAbs < 2 ^ k := by
  unfold bitLength
  split_ifs with hn
  · simp [hn]
  · exact Nat.log2_lt (Int.natAbs_ne_zero.2 hn)

/-- A digit is worth less than four bits. -/
theorem bitLength_le (n : ℤ) : bitLength n ≤ 4 * n.repr.length := by
  rw [bitLength_le_iff]
  calc n.natAbs
      < 10 ^ n.natAbs.repr.length := (Nat.length_repr_le_iff Nat.length_repr_pos).1 le_rfl
    _ ≤ 10 ^ n.repr.length := Nat.pow_le_pow_right (by omega) (length_repr_natAbs_le n)
    _ ≤ 16 ^ n.repr.length := Nat.pow_le_pow_left (by omega) _
    _ = 2 ^ (4 * n.repr.length) := by rw [Nat.pow_mul]

/-! ## The three forms -/

theorem takeSigned_of_nonneg {α : Type} {k : ℤ} (hk : 0 ≤ k) (xs : List α) :
    takeSigned k xs = xs.take k.toNat := by
  rw [takeSigned, if_neg (by omega)]

theorem ne_repr_of_mem {s : String} {c : Char} (hc : c ∈ s.toList) (hminus : c ≠ '-')
    (hdigit : c.isDigit = false) (n : ℤ) : s ≠ n.repr := by
  rintro rfl
  rcases eq_minus_or_isDigit hc with h | h
  · exact hminus h
  · rw [hdigit] at h
    cases h

variable {n limit : ℤ}

theorem abbreviate_of_bits (h : 4 * limit < bitLength n) :
    abbreviate n limit = "<" ++ (bitLength n).repr ++ "-bit integer>" := if_pos h

theorem abbreviate_of_long (hbits : (bitLength n : ℤ) ≤ 4 * limit) (h : limit < n.repr.length) :
    abbreviate n limit = String.ofList (takeSigned (limit - 3) n.repr.toList) ++ "..." := by
  rw [abbreviate, text_eq_repr, String.length_toList, if_neg (by omega), if_pos h]

theorem abbreviate_of_fits (h : (n.repr.length : ℤ) ≤ limit) : abbreviate n limit = n.repr := by
  have hbits := bitLength_le n
  rw [abbreviate, text_eq_repr, String.length_toList, if_neg (by omega), if_neg (by omega)]

theorem length_abbreviate_of_long (hlimit : 3 ≤ limit) (hbits : (bitLength n : ℤ) ≤ 4 * limit)
    (h : limit < n.repr.length) : ((abbreviate n limit).length : ℤ) = limit := by
  rw [abbreviate_of_long hbits h, takeSigned_of_nonneg (by omega), String.length_append,
    String.length_ofList, List.length_take, String.length_toList]
  have hdots : "...".length = 3 := rfl
  omega

/-- **What is shown of an integer.** Its full text is shown if and only if it has at most `limit`
characters. A longer text of no more than four bits for each of them is cut, after all but three of
the characters that may be shown, and dots are put for the rest. -/
theorem abbreviate_shows_what_fits (n limit : ℤ) :
    (abbreviate n limit = n.repr ↔ (n.repr.length : ℤ) ≤ limit) ∧
    (3 ≤ limit → limit < n.repr.length → (bitLength n : ℤ) ≤ 4 * limit →
      ((abbreviate n limit).length : ℤ) = limit ∧
      abbreviate n limit = String.ofList (n.repr.toList.take (limit - 3).toNat) ++ "...") := by
  refine ⟨⟨fun h => ?_, abbreviate_of_fits⟩, fun hlimit hlong hbits => ⟨?_, ?_⟩⟩
  · by_contra! hlong
    rcases lt_or_ge (4 * limit) (bitLength n) with hbits | hbits
    · rw [abbreviate_of_bits hbits] at h
      exact ne_repr_of_mem (c := '<') (by simp) (by decide) (by decide) n h
    · rw [abbreviate_of_long hbits hlong] at h
      exact ne_repr_of_mem (c := '.') (by simp) (by decide) (by decide) n h
  · exact length_abbreviate_of_long hlimit hbits hlong
  · rw [abbreviate_of_long hbits hlong, takeSigned_of_nonneg (by omega)]

/-- A text of twelve characters, the sign among them, where ten may be shown; and one where there is
room for the dots alone. -/
theorem abbreviate_shows_what_fits_negative :
    ((3 : ℤ) ≤ 10 ∧ (10 : ℤ) < (-12345678901 : ℤ).repr.length ∧
      (bitLength (-12345678901) : ℤ) ≤ 4 * 10 ∧
      ((abbreviate (-12345678901) 10).length : ℤ) = 10 ∧
      abbreviate (-12345678901) 10 = "-123456...") ∧
    (3 : ℤ) ≤ 3 ∧ (3 : ℤ) < (1000 : ℤ).repr.length ∧ (bitLength 1000 : ℤ) ≤ 4 * 3 ∧
      ((abbreviate 1000 3).length : ℤ) = 3 ∧ abbreviate 1000 3 = "..." := by
  have hnegative : (-12345678901 : ℤ).repr = "-12345678901" := by decide +kernel
  have hthousand : (1000 : ℤ).repr = "1000" := by decide +kernel
  have hlong : (10 : ℤ) < (-12345678901 : ℤ).repr.length := by rw [hnegative]; decide
  have hbits : (bitLength (-12345678901) : ℤ) ≤ 4 * 10 := by decide +kernel
  have hlong' : (3 : ℤ) < (1000 : ℤ).repr.length := by rw [hthousand]; decide
  have hbits' : (bitLength 1000 : ℤ) ≤ 4 * 3 := by decide +kernel
  obtain ⟨hlength, hcut⟩ := (abbreviate_shows_what_fits (-12345678901) 10).2 (by decide) hlong hbits
  obtain ⟨hlength', hcut'⟩ := (abbreviate_shows_what_fits 1000 3).2 le_rfl hlong' hbits'
  rw [hnegative] at hcut
  rw [hthousand] at hcut'
  exact ⟨⟨by decide, hlong, hbits, hlength, hcut⟩, le_rfl, hlong', hbits', hlength', hcut'⟩

end Calculator.Decimal
