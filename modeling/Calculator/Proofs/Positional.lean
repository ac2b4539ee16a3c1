import Mathlib.Data.Nat.Digits.Defs
import Calculator.Numeral

/-!
# Numerals by position

A numeral is read a block at a time, from the left. The last block may have any length, and where
two texts are joined has nothing to do with where blocks end.

1. Characters gather in a block until it is full (`Blocks.foldl_next_of_le`), and the next one opens
   a block of its own (`Blocks.foldl_next_of_full`). So what stands before the last block is read as
   if it stood alone, by induction on the number of whole blocks before it (`read?_append_block`).
   This holds for any characters.
2. On plain digits a block is read by position, and so is the whole (`read?_eq_ofDigits`).
-/

namespace Calculator

theorem Decimal.cast_scale (width : ℕ) : (scale width : ℤ) = 10 ^ width := Nat.cast_pow 10 width

theorem Decimal.value_eq_ofDigits (ds : List Char) :
    value ds = Nat.ofDigits 10 (ds.map digit).reverse := by
  rw [value, Nat.ofDigits_eq_foldr, List.foldr_reverse, List.foldl_map]
  simp only [Nat.cast_id, Nat.add_comm]

namespace Numeral

open Decimal (blockLength)

/-! ## Blocks from the left -/

namespace Blocks

/-- A block takes in characters while there is room. -/
theorem foldl_next_of_le {b : Blocks} {cs : List Char} (h : b.length + cs.length ≤ blockLength) :
    cs.foldl next b = ⟨b.total, cs.reverse ++ b.block, b.length + cs.length⟩ := by
  induction cs generalizing b with
  | nil => rfl
  | cons c cs ih =>
    rw [List.length_cons] at h
    have hnext : b.next c = ⟨b.total, c :: b.block, b.length + 1⟩ := if_neg (by omega)
    have hroom : (b.next c).length + cs.length ≤ blockLength := by
      rw [hnext]
      show b.length + 1 + cs.length ≤ blockLength
      omega
    rw [List.foldl_cons, ih hroom, hnext]
    simp [Nat.add_assoc, Nat.add_comm 1]

/-- After a full block, the characters that follow are a block of their own. -/
theorem foldl_next_of_full {b : Blocks} (hfull : b.length = blockLength) {cs : List Char}
    (hne : cs ≠ []) (hlength : cs.length ≤ blockLength) :
    cs.foldl next b = ⟨b.number?, cs.reverse, cs.length⟩ := by
  obtain ⟨c, cs, rfl⟩ := List.exists_cons_of_ne_nil hne
  have hnext : b.next c = ⟨b.number?, [c], 1⟩ := if_pos hfull
  have hroom : 1 + cs.length ≤ blockLength := by
    rwa [List.length_cons, Nat.add_comm] at hlength
  rw [List.foldl_cons, hnext, foldl_next_of_le hroom, List.reverse_cons, List.length_cons,
    Nat.add_comm 1]

end Blocks

theorem read?_of_ne_nil {cs : List Char} (h : cs ≠ []) :
    read? cs = (cs.foldl Blocks.next .start).number? := if_neg (by simpa using h)

/-- Behind whole blocks, the characters of the last one are still gathered. -/
theorem foldl_next_append {front block : List Char} (hfront : blockLength ∣ front.length)
    (hne : block ≠ []) (hlength : block.length ≤ blockLength) :
    (front ++ block).foldl Blocks.next .start = ⟨read? front, block.reverse, block.length⟩ := by
  obtain ⟨k, hk⟩ := hfront
  induction k generalizing front block with
  | zero =>
    obtain rfl := List.length_eq_zero_iff.1 hk
    have hroom : Blocks.start.length + block.length ≤ blockLength := by
      rwa [Blocks.start, Nat.zero_add]
    rw [List.nil_append, Blocks.foldl_next_of_le hroom]
    simp [Blocks.start, read?]
  | succ k ih =>
    rw [Nat.mul_succ] at hk
    have hpos : 0 < blockLength := by decide
    -- the block that is read before this one is full, so this one opens
    obtain ⟨front, last, rfl, hfront, hlast⟩ : ∃ whole last, front = whole ++ last ∧
        whole.length = blockLength * k ∧ last.length = blockLength := by
      refine ⟨_, _, (List.take_append_drop (blockLength * k) front).symm, ?_, ?_⟩
      · rw [List.length_take]
        omega
      · rw [List.length_drop]
        omega
    have hlast_ne : last ≠ [] := List.ne_nil_of_length_pos (by omega)
    have hstate := ih hlast_ne hlast.le hfront
    have hfull : ((front ++ last).foldl Blocks.next .start).length = blockLength := by
      rw [hstate, hlast]
    have hfront_ne : front ++ last ≠ [] := List.append_ne_nil_of_right_ne_nil front hlast_ne
    rw [List.foldl_append, Blocks.foldl_next_of_full hfull hne hlength, read?_of_ne_nil hfront_ne]

theorem read?_append_block {front block : List Char} (hfront : blockLength ∣ front.length)
    (hne : block ≠ []) (hlength : block.length ≤ blockLength) :
    read? (front ++ block) =
      (read? front).bind fun t => (ofBlock? block).map fun n => t * 10 ^ block.length + n := by
  rw [read?_of_ne_nil (List.append_ne_nil_of_right_ne_nil front hne),
    foldl_next_append hfront hne hlength, Blocks.number?, List.reverse_reverse,
    Decimal.cast_scale]
  rcases read? front with _ | t
  · rfl
  · rcases ofBlock? block with _ | n <;> rfl

/-! ## Plain digits -/

theorem read?_eq_ofDigits {ds : List Char} (h : ∀ c ∈ ds, c.isDigit) :
    read? ds = some ((Nat.ofDigits 10 (ds.map Decimal.digit).reverse : ℕ) : ℤ) := by
  rw [read?_digits h, Decimal.value_eq_ofDigits]

theorem read?_repr (n : Nat) : read? n.repr.toList = some (n : Int) := by
  have hdigits : ∀ c ∈ Nat.toDigits 10 n, c.isDigit := fun c hc =>
    Nat.isDigit_of_mem_toDigits (by decide) (by decide) hc
  rw [Nat.toList_repr, read?_digits hdigits, Decimal.value_toDigits]

theorem exists_read?_append {xs ys : List Char} (hxs : ∀ c ∈ xs, c.isDigit)
    (hys : ∀ c ∈ ys, c.isDigit) : ∃ x y : Int, read? xs = some x ∧ read? ys = some y ∧
      read? (xs ++ ys) = some (x * 10 ^ ys.length + y) := by
  have hboth : ∀ c ∈ xs ++ ys, c.isDigit := List.forall_mem_append.2 ⟨hxs, hys⟩
  refine ⟨_, _, read?_digits hxs, read?_digits hys, ?_⟩
  rw [read?_digits hboth, Decimal.value_append, Nat.cast_add, Nat.cast_mul, Decimal.cast_scale]

/-- **Blocks do not show.** A text is read block by block from the left, each block scaling what
stands before it. Plain digits, however many they are, come to their value by position all the same:
so the decimal text of a number is read as this number, and two runs of digits can be joined
anywhere. -/
theorem read?_positional :
    (∀ front block, blockLength ∣ front.length → block ≠ [] → block.length ≤ blockLength →
      read? (front ++ block) =
        (read? front).bind fun t => (ofBlock? block).map fun n => t * 10 ^ block.length + n) ∧
    (∀ ds, (∀ c ∈ ds, c.isDigit) →
      read? ds = some ((Nat.ofDigits 10 (ds.map Decimal.digit).reverse : ℕ) : ℤ)) ∧
    (∀ n : ℕ, read? n.repr.toList = some (n : ℤ)) ∧
    (∀ xs ys, (∀ c ∈ xs, c.isDigit) → (∀ c ∈ ys, c.isDigit) → ∃ x y : ℤ,
      read? xs = some x ∧ read? ys = some y ∧
      read? (xs ++ ys) = some (x * 10 ^ ys.length + y)) :=
  ⟨fun _ _ => read?_append_block, fun _ => read?_eq_ofDigits, read?_repr,
    fun _ _ => exists_read?_append⟩

/-- A power of ten that fills one block, and two more digits. -/
theorem read?_positional_two_blocks :
    let front := '1' :: List.replicate 3999 '0'
    let block := ['0', '7']
    (blockLength ∣ front.length ∧ block ≠ [] ∧ block.length ≤ blockLength ∧
      read? (front ++ block) =
        (read? front).bind fun t => (ofBlock? block).map fun n => t * 10 ^ block.length + n) ∧
    (∀ c ∈ front, c.isDigit) ∧ read? front = some (10 ^ 3999) ∧
    (∀ c ∈ block, c.isDigit) ∧ ∃ x y : ℤ, read? front = some x ∧ read? block = some y ∧
      read? (front ++ block) = some (x * 10 ^ block.length + y) := by
  intro front block
  have hlength : front.length = blockLength := by
    rw [List.length_cons, List.length_replicate, blockLength]
  have hfront : ∀ c ∈ front, c.isDigit := by
    intro c hc
    rcases List.mem_cons.1 hc with rfl | hc
    · rfl
    · rw [List.eq_of_mem_replicate hc]
      rfl
  have hblock : ∀ c ∈ block, c.isDigit :=
    List.forall_mem_cons.2 ⟨rfl, List.forall_mem_singleton.2 rfl⟩
  have hdigits : front.map Decimal.digit = 1 :: List.replicate 3999 0 := by
    rw [List.map_cons, List.map_replicate]
    rfl
  have hvalue : Nat.ofDigits 10 (front.map Decimal.digit).reverse = 10 ^ 3999 := by
    rw [hdigits, Nat.ofDigits_reverse_cons, List.reverse_replicate, Nat.ofDigits_replicate_zero,
      List.length_replicate, Nat.zero_add, Nat.mul_one]
  refine ⟨⟨hlength ▸ dvd_rfl, by decide, by decide, ?_⟩, hfront, ?_, hblock, ?_⟩
  · exact read?_positional.1 front block (hlength ▸ dvd_rfl) (by decide) (by decide)
  · rw [read?_positional.2.1 front hfront, hvalue, Nat.cast_pow]
    rfl
  · exact read?_positional.2.2.2 front block hfront hblock

end Numeral

end Calculator
