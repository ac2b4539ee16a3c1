/-!
# Decimal texts

* `value` is the number that a run of digits denotes by position.
* `text` writes an integer, a block of digits at a time, without any leading zeros.
* `abbreviate` is the text of an integer in a record that must stay short.
-/

namespace Calculator.Decimal

/-- The value of a digit character. -/
def digit (c : Char) : Nat := c.toNat - '0'.toNat

/-- Positional value: every further digit scales what stands before it by ten. -/
def value (ds : List Char) : Nat := ds.foldl (fun n c => 10 * n + digit c) 0

/-- What a digit with `width` digits after it counts. -/
def scale (width : Nat) : Nat := Nat.pow 10 width

@[simp] theorem scale_zero : scale 0 = 1 := rfl

theorem scale_succ (width : Nat) : scale (width + 1) = 10 * scale width := Nat.mul_comm _ _

theorem one_lt_scale {width : Nat} (h : width ≠ 0) : 1 < scale width :=
  Nat.one_lt_pow h (by decide)

theorem foldl_digit (n : Nat) (ds : List Char) :
    ds.foldl (fun n c => 10 * n + digit c) n = n * scale ds.length + value ds := by
  induction ds generalizing n with
  | nil => simp [value]
  | cons c cs ih =>
    rw [value, List.foldl_cons, List.foldl_cons, ih, ih (10 * 0 + digit c), List.length_cons,
      scale_succ]
    simp only [Nat.add_mul, Nat.mul_zero, Nat.zero_mul]
    ac_rfl

theorem value_append (xs ys : List Char) :
    value (xs ++ ys) = value xs * scale ys.length + value ys := by
  rw [value, List.foldl_append, foldl_digit]
  rfl

theorem value_toDigits (n : Nat) : value (Nat.toDigits 10 n) = n := Nat.ofDigitChars_ten_toDigits

/-- Characters that are read or written at once. -/
def blockLength : Nat := 4000

/-- Writes the lowest `width` digits of `n` before a text. -/
def writeLow : (width : Nat) → (n : Nat) → List Char → List Char
  | 0, _, after => after
  | width + 1, n, after => writeLow width (n / 10) (Nat.digitChar (n % 10) :: after)

def blockScale : Nat := scale blockLength

theorem one_lt_blockScale : 1 < blockScale := one_lt_scale (by decide)

/-- Writes `n` before a text, a block of digits at a time. -/
def write (n : Nat) (after : List Char) : List Char :=
  if n < blockScale then Nat.toDigits 10 n ++ after
  else write (n / blockScale) (writeLow blockLength (n % blockScale) after)
termination_by n
decreasing_by exact Nat.div_lt_self (by have := one_lt_blockScale; omega) one_lt_blockScale

theorem toDigits_writeLow (width n : Nat) (after : List Char) (h : scale width ≤ n) :
    Nat.toDigits 10 (n / scale width) ++ writeLow width (n % scale width) after =
      Nat.toDigits 10 n ++ after := by
  induction width generalizing n after with
  | zero => simp [writeLow]
  | succ width ih =>
    have hten : 10 ≤ n := Nat.le_trans (Nat.le_self_pow (by omega) 10) h
    have hdiv : scale width ≤ n / 10 := by
      rwa [Nat.le_div_iff_mul_le (by omega), Nat.mul_comm, ← scale_succ]
    rw [writeLow, scale_succ, Nat.mod_mul_right_div_self, Nat.mod_mul_right_mod,
      ← Nat.div_div_eq_div_mul, ih _ _ hdiv, Nat.toDigits_of_base_le (by omega) hten]
    simp

theorem write_eq (n : Nat) (after : List Char) : write n after = Nat.toDigits 10 n ++ after := by
  fun_induction write n after with
  | case1 => rfl
  | case2 n after h ih => rw [ih, blockScale, toDigits_writeLow _ _ _ (Nat.le_of_not_lt h)]

/-- Digits, after a minus sign if the integer is negative. -/
def text (n : Int) : String :=
  String.ofList (if n < 0 then '-' :: write n.natAbs [] else write n.natAbs [])

theorem text_eq (n : Int) : text n = if n < 0 then "-" ++ n.natAbs.repr else n.natAbs.repr := by
  rw [text, write_eq, List.append_nil, Nat.repr]
  split
  · apply String.toList_injective
    simp
  · rfl

/-! ## Short texts -/

/-- Binary digits of the magnitude; zero has none. -/
def bitLength (n : Int) : Nat := if n = 0 then 0 else n.natAbs.log2 + 1

/-- The first `k` elements; a negative `k` leaves out that many at the end. -/
def takeSigned {α : Type} (k : Int) (xs : List α) : List α :=
  xs.take (if k < 0 then (xs.length + k).toNat else k.toNat)

/-- Numbers of more than `4 * limit` bits are only measured; of the others, a text longer than
`limit` keeps its beginning and ends in three dots. -/
def abbreviate (n : Int) (limit : Int) : String :=
  if (bitLength n : Int) > 4 * limit then
    "<" ++ (bitLength n).repr ++ "-bit integer>"
  else if ((text n).toList.length : Int) > limit then
    String.ofList (takeSigned (limit - 3) (text n).toList) ++ "..."
  else
    text n

/-- Characters of an integer in the record of a calculation. -/
def recordLimit : Int := 80

/-- An integer as records show it. -/
def short (n : Int) : String := abbreviate n recordLimit

end Calculator.Decimal
