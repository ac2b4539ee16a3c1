import Mathlib.Data.Rat.Floor
import Mathlib.Tactic.Linarith
import Calculator.Operator

/-!
# Rounding

What the operators compute, against exact arithmetic on rational numbers.

1. `Operator.exactResult?` is the exact result of an operator, if it has one, and `towardZero` drops
   the fraction of a number. It commutes with the sign (`towardZero_neg`), so the quotients of
   natural numbers tell that it makes the quotient of any two integers the truncated one
   (`towardZero_div`).
2. A power with a negative exponent is the reciprocal of a power (`Operator.zpow_of_neg`), which is
   again a quotient of integers.
3. So every operator drops the fraction of its exact result (`Operator.apply_of_not_isOversized`),
   and only an exponent out of range keeps it from doing so (`Operator.apply_of_isOversized`).
-/

namespace Calculator

/-- The number without its fraction. -/
def towardZero (q : ℚ) : ℤ := if q < 0 then ⌈q⌉ else ⌊q⌋

namespace Operator

/-- The exact result of an operator. Nothing can be divided by zero, so zero has no power with a
negative exponent either. -/
def exactResult? (op : Operator) (lhs rhs : ℤ) : Option ℚ :=
  match op with
  | add => some (lhs + rhs)
  | subtract => some (lhs - rhs)
  | multiply => some (lhs * rhs)
  | divide => if rhs = 0 then none else some (lhs / rhs)
  | exponent => if lhs = 0 ∧ rhs < 0 then none else some ((lhs : ℚ) ^ rhs)

/-- The operator raises to a power whose exponent does not fit into 32 bits. -/
def IsOversized (op : Operator) (rhs : ℤ) : Prop := op = exponent ∧ 2 ^ 32 - 1 < |rhs|

end Operator

/-! ## Dropping the fraction -/

@[simp] theorem towardZero_intCast (n : ℤ) : towardZero n = n := by
  unfold towardZero
  split_ifs <;> simp

theorem towardZero_neg (q : ℚ) : towardZero (-q) = -towardZero q := by
  unfold towardZero
  rcases lt_trichotomy q 0 with hq | rfl | hq
  · rw [if_neg (by linarith), if_pos hq, Int.floor_neg]
  · simp
  · rw [if_pos (by linarith), if_neg (by linarith), Int.ceil_neg]

theorem towardZero_natCast_div (m n : ℕ) : towardZero ((m : ℚ) / n) = (m / n : ℕ) := by
  have hnonneg : (0 : ℚ) ≤ m / n := by positivity
  rw [towardZero, if_neg hnonneg.not_gt]
  exact_mod_cast Rat.floor_natCast_div_natCast m n

/-- Dropping the fraction of a quotient is dividing with truncation. -/
theorem towardZero_div (a b : ℤ) : towardZero ((a : ℚ) / b) = a.tdiv b := by
  obtain ⟨m, rfl | rfl⟩ := a.eq_nat_or_neg <;> obtain ⟨n, rfl | rfl⟩ := b.eq_nat_or_neg <;>
    simp [neg_div, div_neg, towardZero_neg, towardZero_natCast_div, Int.neg_tdiv, Int.tdiv_neg]

/-! ## Operators -/

namespace Operator

theorem quotient_eq (rule : String) (lhs rhs : ℤ) :
    quotient rule lhs rhs =
      if rhs = 0 then .error (.divisionByZero rule) else .ok (towardZero (lhs / rhs)) := by
  rw [quotient, towardZero_div]

theorem zpow_of_neg (base : ℤ) {e : ℤ} (he : e < 0) :
    (base : ℚ) ^ e = ((1 : ℤ) : ℚ) / ((base ^ e.natAbs : ℤ) : ℚ) := by
  have hsign : e = -(e.natAbs : ℤ) := by omega
  conv_lhs => rw [hsign, zpow_neg, zpow_natCast]
  rw [Int.cast_one, one_div, Int.cast_pow]

theorem exponentLimit_lt_iff (e : ℤ) : exponentLimit < e.natAbs ↔ 2 ^ 32 - 1 < |e| := by
  rw [Int.abs_eq_natAbs]
  have hlimit : exponentLimit = 2 ^ 32 - 1 := rfl
  omega

/-- A power is its exact value without the fraction, if it has one. -/
theorem power_eq {base e : ℤ} (hsize : ¬ 2 ^ 32 - 1 < |e|) :
    power base e = (exponent.exactResult? base e).elim (.error (.divisionByZero exponent.tag))
      fun q => .ok (towardZero q) := by
  rw [power, if_neg ((exponentLimit_lt_iff e).not.2 hsize), exactResult?]
  by_cases he : e < 0
  · have hzero : Int.pow base e.natAbs = 0 ↔ base = 0 := pow_eq_zero_iff (by omega)
    rw [if_pos he, quotient_eq]
    by_cases hbase : base = 0
    · rw [if_pos (hzero.2 hbase), if_pos ⟨hbase, he⟩, Option.elim_none]
    · rw [if_neg (hzero.not.2 hbase), if_neg fun h => hbase h.1, zpow_of_neg base he,
        Option.elim_some]
      rfl
  · have hsign : e = (e.natAbs : ℤ) := by omega
    have hpow : (base : ℚ) ^ e = (base ^ e.natAbs : ℤ) := by
      rw [hsign, zpow_natCast, Int.cast_pow, Int.natAbs_natCast]
    rw [if_neg he, if_neg fun h => he h.2, Option.elim_some, hpow, towardZero_intCast]
    rfl

theorem apply_of_isOversized {op : Operator} {rhs : ℤ} (h : op.IsOversized rhs) (lhs : ℤ) :
    op.apply lhs rhs = .error (.exponentOutOfRange rhs) := by
  obtain ⟨rfl, hsize⟩ := h
  exact if_pos ((exponentLimit_lt_iff rhs).2 hsize)

theorem apply_of_not_isOversized {op : Operator} {rhs : ℤ} (h : ¬ op.IsOversized rhs) (lhs : ℤ) :
    op.apply lhs rhs = (op.exactResult? lhs rhs).elim (.error (.divisionByZero op.tag))
      fun q => .ok (towardZero q) := by
  have hint (n : ℤ) : (.ok n : Except Fault ℤ) =
      (some (n : ℚ)).elim (.error (.divisionByZero op.tag)) fun q => .ok (towardZero q) := by
    rw [Option.elim_some, towardZero_intCast]
  cases op with
  | add => exact (hint _).trans (by rw [exactResult?, Int.cast_add])
  | subtract => exact (hint _).trans (by rw [exactResult?, Int.cast_sub])
  | multiply => exact (hint _).trans (by rw [exactResult?, Int.cast_mul])
  | divide =>
    rw [apply, quotient_eq, exactResult?]
    split_ifs <;> rfl
  | exponent => exact power_eq fun hsize => h ⟨rfl, hsize⟩

theorem exactResult?_eq_none_iff {op : Operator} {lhs rhs : ℤ} :
    op.exactResult? lhs rhs = none ↔
      op = divide ∧ rhs = 0 ∨ op = exponent ∧ lhs = 0 ∧ rhs < 0 := by
  cases op <;> simp [exactResult?]

/-- A quotient leaves a remainder smaller than the divisor, with the sign of the dividend. -/
theorem exists_quotient {rhs : ℤ} (h : rhs ≠ 0) (lhs : ℤ) :
    ∃ q r, divide.apply lhs rhs = .ok q ∧ lhs = q * rhs + r ∧ |r| < |rhs| ∧
      (r = 0 ∨ r.sign = lhs.sign) := by
  refine ⟨lhs.tdiv rhs, lhs.tmod rhs, if_neg h, (Int.tdiv_mul_add_tmod lhs rhs).symm, ?_, ?_⟩
  · rw [Int.abs_eq_natAbs, Int.abs_eq_natAbs, Int.natAbs_tmod]
    exact_mod_cast Nat.mod_lt _ (Int.natAbs_pos.2 h)
  · by_cases hdvd : rhs ∣ lhs
    · exact .inl (Int.tmod_eq_zero_of_dvd hdvd)
    · exact .inr (by rw [Int.sign_tmod, if_neg hdvd])

/-- **Rounding toward zero.** An operator computes its exact result without the fraction. It fails
over the exponent exactly if it is a power whose exponent does not fit into 32 bits, and otherwise
over a division by zero, told with its own rule, exactly if there is no exact result: in a quotient
by zero, and in a power of zero with a negative exponent. So a quotient leaves a remainder that is
smaller than the divisor and, unless it is zero, has the sign of the dividend. -/
theorem apply_rounds_exact (op : Operator) (lhs rhs : ℤ) :
    (∀ e, op.apply lhs rhs = .error (.exponentOutOfRange e) ↔ op.IsOversized rhs ∧ e = rhs) ∧
      (∀ rule, op.apply lhs rhs = .error (.divisionByZero rule) ↔
        ¬ op.IsOversized rhs ∧ op.exactResult? lhs rhs = none ∧ rule = op.tag) ∧
      (∀ v, op.apply lhs rhs = .ok v ↔
        ¬ op.IsOversized rhs ∧ ∃ q, op.exactResult? lhs rhs = some q ∧ v = towardZero q) ∧
      (op.exactResult? lhs rhs = none ↔
        op = divide ∧ rhs = 0 ∨ op = exponent ∧ lhs = 0 ∧ rhs < 0) ∧
      (rhs ≠ 0 → ∃ q r, divide.apply lhs rhs = .ok q ∧ lhs = q * rhs + r ∧ |r| < |rhs| ∧
        (r = 0 ∨ r.sign = lhs.sign)) := by
  by_cases hsize : op.IsOversized rhs
  · rw [apply_of_isOversized hsize]
    exact ⟨by simp [hsize, eq_comm], by simp [hsize], by simp [hsize], exactResult?_eq_none_iff,
      fun h => exists_quotient h lhs⟩
  · rw [apply_of_not_isOversized hsize]
    refine ⟨?_, ?_, ?_, exactResult?_eq_none_iff, fun h => exists_quotient h lhs⟩ <;>
      cases op.exactResult? lhs rhs <;> simp [hsize, eq_comm]

/-- A negative dividend, and a power of `-1` with a negative odd exponent. -/
theorem apply_rounds_exact_negative :
    ((2 : ℤ) ≠ 0 ∧ ∃ q r : ℤ, divide.apply (-7) 2 = .ok q ∧ -7 = q * 2 + r ∧ |r| < |2| ∧
      (r = 0 ∨ r.sign = (-7 : ℤ).sign)) ∧
    exponent.apply (-1) (-3) = .ok (-1) := by
  refine ⟨⟨by decide, (apply_rounds_exact divide (-7) 2).2.2.2.2 (by decide)⟩, ?_⟩
  refine ((apply_rounds_exact exponent (-1) (-3)).2.2.1 (-1)).2 ⟨?_, _, rfl, ?_⟩
  · rintro ⟨-, hsize⟩
    exact absurd hsize (by decide)
  · norm_num [towardZero]

example : divide.apply (-7) 2 = .ok (-3) ∧ exponent.apply 2 (-1) = .ok 0 ∧
    exponent.apply 0 (-1) = .error (.divisionByZero "EXPONENT") := by
  decide

end Operator

end Calculator
