import Mathlib.Data.List.Basic
import Calculator.Proofs.Building
import Calculator.Proofs.Chain

/-!
# Equals for equals

A number of a formula may give way to any formula in parentheses that has its value: all results
stay the same. A value that was there is then found while the groups are worked out, but nothing
that comes later depends on when it was found.

1. `Operand.Swaps` and `Formula.Swaps` say that one number is replaced. A number among the tokens
   can be replaced, and its tokens make room for those of the group (`exists_swapped_formula`).
2. The group has the value of the number, so every atom, every chain and every result stays
   (`Formula.Swaps.result_work`). The formula does not get less deep (`Formula.Swaps.depth_le`).
-/

namespace Calculator

mutual

/-- The second operand is the first one with a number of these digits replaced by the formula in
parentheses. -/
inductive Operand.Swaps (digits : String) (g : Formula) : Operand → Operand → Prop where
  | number {start opened closed} :
      Operand.Swaps digits g (.number digits start) (.grouped opened g closed)
  | negated {sign v w} : Operand.Swaps digits g v w →
      Operand.Swaps digits g (.negated sign v) (.negated sign w)
  | grouped {opened f h closed} : Formula.Swaps digits g f h →
      Operand.Swaps digits g (.grouped opened f closed) (.grouped opened h closed)

inductive Formula.Swaps (digits : String) (g : Formula) : Formula → Formula → Prop where
  | single {v w} : Operand.Swaps digits g v w → Formula.Swaps digits g (.single v) (.single w)
  | first {v w op start rest} : Operand.Swaps digits g v w →
      Formula.Swaps digits g (.chain v op start rest) (.chain w op start rest)
  | rest {v op start f h} : Formula.Swaps digits g f h →
      Formula.Swaps digits g (.chain v op start f) (.chain v op start h)

end

/-! ## Tokens -/

/-- A token other than the one in the middle is on one side of it. -/
theorem split_beside {left right before after : List Token} {u t : Token}
    (h : left ++ u :: right = before ++ t :: after) (hne : t.lexeme ≠ u.lexeme) :
    (∃ mid, left = before ++ t :: mid ∧ after = mid ++ u :: right) ∨
      ∃ mid, right = mid ++ t :: after ∧ before = left ++ u :: mid := by
  rcases List.append_eq_append_iff.1 h with ⟨mid, hbefore, hright⟩ | ⟨mid, hleft, hafter⟩
  · cases mid with
    | nil =>
      cases hright
      exact absurd rfl hne
    | cons v mid =>
      obtain ⟨rfl, htail⟩ := List.cons.inj hright
      exact .inr ⟨mid, htail, hbefore⟩
  · cases mid with
    | nil =>
      cases hafter
      exact absurd rfl hne
    | cons v mid =>
      obtain ⟨rfl, htail⟩ := List.cons.inj hafter
      exact .inl ⟨mid, hleft, htail⟩

section Tokens

variable {digits : String} {start : Nat} (g : Formula)

mutual

theorem exists_swapped_operand : ∀ (v : Operand) {before after : List Token},
    v.tokens = before ++ ⟨.digits digits, start⟩ :: after →
      ∃ w, Operand.Swaps digits g v w ∧
        w.tokens = before ++ (Operand.grouped start g start).tokens ++ after
  | .number digits' start', before, after, h => by
    cases before with
    | nil =>
      cases h
      exact ⟨_, .number, (List.append_nil _).symm⟩
    | cons t before => cases before <;> cases h
  | .name n start', before, after, h => by
    cases before with
    | nil => cases h
    | cons t before => cases before <;> cases h
  | .negated sign inner, before, after, h => by
    cases before with
    | nil => cases h
    | cons t before =>
      obtain ⟨rfl, hinner⟩ := List.cons.inj h
      obtain ⟨w, hswaps, htokens⟩ := exists_swapped_operand inner hinner
      exact ⟨_, .negated hswaps, congrArg (List.cons _) htokens⟩
  | .grouped opened inner closed, before, after, h => by
    cases before with
    | nil => cases h
    | cons t before =>
      obtain ⟨rfl, hinner⟩ := List.cons.inj h
      rcases split_beside hinner (by simp) with ⟨mid, hmid, rfl⟩ | ⟨mid, hmid, -⟩
      · obtain ⟨f, hswaps, htokens⟩ := exists_swapped_formula inner hmid
        refine ⟨_, .grouped hswaps, ?_⟩
        rw [Operand.tokens, htokens, List.append_assoc, List.cons_append, List.cons_append]
      · cases mid <;> cases hmid

theorem exists_swapped_formula : ∀ (f : Formula) {before after : List Token},
    f.tokens = before ++ ⟨.digits digits, start⟩ :: after →
      ∃ f', Formula.Swaps digits g f f' ∧
        f'.tokens = before ++ (Operand.grouped start g start).tokens ++ after
  | .single v, before, after, h => by
    obtain ⟨w, hswaps, htokens⟩ := exists_swapped_operand v h
    exact ⟨_, .single hswaps, htokens⟩
  | .chain v op start' rest, before, after, h => by
    rcases split_beside h (by simp) with ⟨mid, hmid, rfl⟩ | ⟨mid, hmid, rfl⟩
    · obtain ⟨w, hswaps, htokens⟩ := exists_swapped_operand v hmid
      refine ⟨_, .first hswaps, ?_⟩
      rw [Formula.tokens, htokens, List.append_assoc]
    · obtain ⟨f', hswaps, htokens⟩ := exists_swapped_formula rest hmid
      refine ⟨_, .rest hswaps, ?_⟩
      rw [Formula.tokens, htokens, List.append_assoc, List.append_assoc, List.append_assoc,
        List.cons_append]

end

end Tokens

/-! ## Results -/

theorem Traced.result_bind_congr {ε α β : Type} {x y : Traced ε α} {f g : α → Traced ε β}
    (hxy : x.result = y.result) (hfg : ∀ a, (f a).result = (g a).result) :
    (x >>= f).result = (y >>= g).result := by
  obtain ⟨steps, result⟩ := x
  obtain ⟨steps', result'⟩ := y
  obtain rfl : result = result' := hxy
  cases result with
  | error e => rfl
  | ok a => exact hfg a

section Results

variable {vars : Variables} {digits : String} {g : Formula}

/-- The atom of a replaced operand, which is a group if the operand is the number itself. -/
theorem Operand.Swaps.result_atom {v w : Operand} (h : Operand.Swaps digits g v w)
    (hwork : (w.work vars).result = (v.work vars).result) (index : Nat) :
    (w.atom index (w.work vars)).result = (v.atom index (v.work vars)).result := by
  cases h with
  | number =>
    have hvalue : (Operand.work vars (.grouped _ g _)).result =
        (pure (Decimal.value digits.toList) : Traced Fault Int).result := hwork
    exact (Traced.result_bind_congr hvalue fun _ => rfl).trans rfl
  | negated _ => exact Traced.result_bind_congr hwork fun _ => rfl
  | grouped _ => exact Traced.result_bind_congr hwork fun _ => rfl

mutual

theorem Operand.Swaps.result_work (hg : (g.work vars).result = .ok (Decimal.value digits.toList)) :
    ∀ {v w : Operand}, Operand.Swaps digits g v w → (w.work vars).result = (v.work vars).result
  | _, _, .number => hg
  | _, _, .negated h => by
    rw [Operand.work, Operand.work, map_eq_pure_bind, map_eq_pure_bind]
    exact Traced.result_bind_congr (h.result_work hg) fun _ => rfl
  | _, _, .grouped h => Traced.result_bind_congr (h.result_settle hg 0) fun _ => rfl

theorem Formula.Swaps.result_settle (hg : (g.work vars).result = .ok (Decimal.value digits.toList))
    (index : Nat) : ∀ {f f' : Formula}, Formula.Swaps digits g f f' →
      (f'.settle vars index).result = (f.settle vars index).result
  | _, _, .single h =>
    Traced.result_bind_congr (h.result_atom (h.result_work hg) index) fun _ => rfl
  | _, _, .first h =>
    Traced.result_bind_congr (h.result_atom (h.result_work hg) index) fun _ => rfl
  | _, _, .rest h =>
    Traced.result_bind_congr rfl fun _ =>
      Traced.result_bind_congr (h.result_settle hg (index + 2)) fun _ => rfl

end

/-- **Equals for equals.** A number may give way to a formula with its value. -/
theorem Formula.Swaps.result_work (hg : (g.work vars).result = .ok (Decimal.value digits.toList))
    {f f' : Formula} (h : Formula.Swaps digits g f f') :
    (f'.work vars).result = (f.work vars).result :=
  Traced.result_bind_congr (h.result_settle hg 0) fun _ => rfl

end Results

/-! ## Depth -/

section Depth

variable {digits : String} {g : Formula}

mutual

theorem Operand.Swaps.depth_le : ∀ {v w : Operand}, Operand.Swaps digits g v w → v.depth ≤ w.depth
  | _, _, .number => Nat.zero_le _
  | _, _, .negated h => Nat.add_le_add_left h.depth_le _
  | _, _, .grouped h => Nat.add_le_add_left h.depth_le _

theorem Formula.Swaps.depth_le : ∀ {f f' : Formula}, Formula.Swaps digits g f f' →
    f.depth ≤ f'.depth
  | _, _, .single h => h.depth_le
  | _, _, .first h => by
    have := h.depth_le
    simp only [Formula.depth]
    omega
  | _, _, .rest h => by
    have := h.depth_le
    simp only [Formula.depth]
    omega

end

end Depth

end Calculator
