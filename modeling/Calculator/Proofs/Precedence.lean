import Mathlib.Data.List.Basic
import Calculator.Proofs.Reader
import Calculator.Term

/-!
# Reading by precedence

The rules by which tokens are read as a term, with one level for each tier: an expression of a level
is one of the level below, or an expression of the same level, an operator of its tier, and one of
the level below. So a tier is taken from the left, and a tighter one first.

1. The tokens of a formula are read as its term (`reads_ofFormula`). While the tiers are joined,
   every term between the remaining operators is read at the level reached (`Spells`).
2. Whatever is read is the term of a formula with these tokens (`Reads.exists_formula`), and tokens
   have one formula (`Formula.tokens_injective`), so they are read in one way (`Reads.unique`).
-/

namespace Calculator

/-- The tier of an operator, counted from the tightest. -/
def Operator.level : Operator → Nat
  | exponent => 1
  | multiply | divide => 2
  | add | subtract => 3

/-- `Reads k ts t`: the tokens `ts` are an expression of level `k`, read as `t`. Level `0` is that
of operands. -/
inductive Term.Reads : Nat → List Token → Term → Prop where
  | number {digits pos} : Reads 0 [⟨.digits digits, pos⟩] (.number (Decimal.value digits.toList))
  | name {n pos} : Reads 0 [⟨.name n, pos⟩] (.name n)
  | negated {pos ts t} : Reads 0 ts t → Reads 0 (⟨.operator .subtract, pos⟩ :: ts) (.negated t)
  | grouped {opened ts t closed} : Reads 3 ts t →
      Reads 0 (⟨.opening, opened⟩ :: ts ++ [⟨.closing, closed⟩]) t
  | tighter {k ts t} : Reads k ts t → Reads (k + 1) ts t
  | applied {k ts us op pos t u} : op.level = k + 1 → Reads (k + 1) ts t → Reads k us u →
      Reads (k + 1) (ts ++ ⟨.operator op, pos⟩ :: us) (.applied op t u)

namespace Term

/-! ## Joining -/

theorem join_cons_of_mem {tier : List Operator} {op : Operator} (h : op ∈ tier) (t u : Term)
    (links : Links) : join tier t ((op, u) :: links) = join tier (applied op t u) links := by
  rw [join, if_pos h]

theorem join_cons_of_not_mem {tier : List Operator} {op : Operator} (h : op ∉ tier) (t u : Term)
    (links : Links) :
    join tier t ((op, u) :: links) =
      (t, (op, (join tier u links).1) :: (join tier u links).2) := by
  rw [join, if_neg h]

/-- The operators that are left are no operators of the tier, and were there before. -/
theorem mem_join {tier : List Operator} {t : Term} {links : Links} {l : Operator × Term}
    (h : l ∈ (join tier t links).2) : l.1 ∉ tier ∧ l.1 ∈ links.map Prod.fst := by
  induction links generalizing t with
  | nil => cases h
  | cons m links ih =>
    obtain ⟨op, u⟩ := m
    by_cases hop : op ∈ tier
    · rw [join_cons_of_mem hop] at h
      exact ⟨(ih h).1, List.mem_cons_of_mem _ (ih h).2⟩
    · rw [join_cons_of_not_mem hop] at h
      rcases List.mem_cons.1 h with rfl | h
      · exact ⟨hop, by simp⟩
      · exact ⟨(ih h).1, List.mem_cons_of_mem _ (ih h).2⟩

/-- Joins the first `k` tiers. -/
def joinFirst (k : Nat) (p : Term × Links) : Term × Links :=
  (Operator.tiers.take k).foldl (fun p tier => join tier p.1 p.2) p

theorem joinAll_eq (t : Term) (links : Links) : joinAll t links = (joinFirst 3 (t, links)).1 := rfl

theorem joinFirst_succ {k : Nat} {tier : List Operator} (h : Operator.tiers[k]? = some tier)
    (p : Term × Links) :
    joinFirst (k + 1) p = join tier (joinFirst k p).1 (joinFirst k p).2 := by
  rw [joinFirst, List.take_add_one, h, List.foldl_append]
  rfl

theorem mem_tier_iff {k : Nat} {tier : List Operator} (h : Operator.tiers[k]? = some tier)
    (op : Operator) : op ∈ tier ↔ op.level = k + 1 := by
  match k with
  | 0 =>
    cases h
    cases op <;> decide
  | 1 =>
    cases h
    cases op <;> decide
  | 2 =>
    cases h
    cases op <;> decide
  | k + 3 => cases h

theorem level_le (op : Operator) : op.level ≤ 3 := by cases op <;> decide

theorem tier_of_lt_level {k : Nat} {op : Operator} (h : k < op.level) :
    ∃ tier, Operator.tiers[k]? = some tier := by
  have hk : k < Operator.tiers.length := by
    have := level_le op
    show k < 3
    omega
  exact ⟨_, List.getElem?_eq_getElem hk⟩

/-- Once `k` tiers are joined, only operators of later tiers are left. -/
theorem lt_level_of_mem_joinFirst {k : Nat} {p : Term × Links} {l : Operator × Term}
    (h : l ∈ (joinFirst k p).2) : k < l.1.level := by
  induction k generalizing l with
  | zero => cases l.1 <;> decide
  | succ k ih =>
    rcases htier : Operator.tiers[k]? with _ | tier
    · rw [joinFirst, List.take_add_one, htier, Option.toList_none, List.append_nil] at h
      obtain ⟨tier, hsome⟩ := tier_of_lt_level (ih h)
      rw [htier] at hsome
      cases hsome
    · rw [joinFirst_succ htier] at h
      obtain ⟨hnot, hmem⟩ := mem_join h
      obtain ⟨m, hm, hop⟩ := List.mem_map.1 hmem
      have hlt := ih hm
      rw [mem_tier_iff htier] at hnot
      rw [hop] at hlt
      omega

/-- No links are left when all tiers are joined. -/
theorem joinFirst_three (p : Term × Links) : (joinFirst 3 p).2 = [] := by
  refine List.eq_nil_iff_forall_not_mem.2 fun l hl => ?_
  have hlt := lt_level_of_mem_joinFirst hl
  have hle := level_le l.1
  omega

/-! ## Formulas are read as their terms -/

/-- A term and the operators after it stand in the tokens, with all terms read at level `k`. -/
inductive Spells (k : Nat) : List Token → Term → Links → Prop where
  | last {ts t} : Reads k ts t → Spells k ts t []
  | link {ts t op pos us u links} : Reads k ts t → Spells k us u links →
      Spells k (ts ++ ⟨.operator op, pos⟩ :: us) t ((op, u) :: links)

/-- Joining a tier keeps what the tokens spell, one level up. -/
theorem Spells.join {k : Nat} {tier : List Operator} (htier : Operator.tiers[k]? = some tier)
    {ts : List Token} {t : Term} {links : Links} (h : Spells k ts t links) :
    Spells (k + 1) ts (Term.join tier t links).1 (Term.join tier t links).2 := by
  -- the first term is at the new level already, as the left operand of a joined operator is
  have key {us u links} (h : Spells k us u links) : ∀ {ts t} op pos, Reads (k + 1) ts t →
      Spells (k + 1) (ts ++ ⟨.operator op, pos⟩ :: us) (Term.join tier t ((op, u) :: links)).1
        (Term.join tier t ((op, u) :: links)).2 := by
    induction h with
    | last hu =>
      intro ts t op pos ht
      by_cases hop : op ∈ tier
      · rw [join_cons_of_mem hop]
        exact .last (.applied ((mem_tier_iff htier op).1 hop) ht hu)
      · rw [join_cons_of_not_mem hop]
        exact .link ht (.last hu.tighter)
    | @link us u op' pos' ws w links hu _ ih =>
      intro ts t op pos ht
      by_cases hop : op ∈ tier
      · have hleft : Reads (k + 1) (ts ++ ⟨.operator op, pos⟩ :: us) (applied op t u) :=
          .applied ((mem_tier_iff htier op).1 hop) ht hu
        have hall := ih op' pos' hleft
        rw [List.append_assoc] at hall
        rw [join_cons_of_mem hop]
        exact hall
      · rw [join_cons_of_not_mem hop]
        exact .link ht (ih op' pos' hu.tighter)
  cases h with
  | last ht => exact .last ht.tighter
  | link ht hrest => exact key hrest _ _ ht.tighter

theorem Spells.reads {ts : List Token} {t : Term} {links : Links} (h : Spells 0 ts t links) :
    Reads 3 ts (joinAll t links) := by
  have hall : Spells 3 ts (joinFirst 3 (t, links)).1 (joinFirst 3 (t, links)).2 :=
    ((h.join rfl).join rfl).join rfl
  rw [joinFirst_three] at hall
  rw [joinAll_eq]
  cases hall with
  | last h => exact h

mutual

theorem reads_ofOperand : ∀ v : Operand, Reads 0 v.tokens (ofOperand v)
  | .number _ _ => .number
  | .name _ _ => .name
  | .negated _ inner => .negated (reads_ofOperand inner)
  | .grouped _ inner _ => .grouped (spells_linksOf inner).reads

theorem spells_linksOf : ∀ f : Formula, Spells 0 f.tokens (linksOf f).1 (linksOf f).2
  | .single v => .last (reads_ofOperand v)
  | .chain v _ _ rest => .link (reads_ofOperand v) (spells_linksOf rest)

end

theorem reads_ofFormula (f : Formula) : Reads 3 f.tokens (ofFormula f) := (spells_linksOf f).reads

/-! ## Whatever is read is a formula's term -/

theorem join_append_of_not_mem {tier : List Operator} {op : Operator} (h : op ∉ tier) (t u : Term)
    (links rest : Links) :
    join tier t (links ++ (op, u) :: rest) = ((join tier t links).1,
      (join tier t links).2 ++ (op, (join tier u rest).1) :: (join tier u rest).2) := by
  induction links generalizing t with
  | nil =>
    rw [List.nil_append, join_cons_of_not_mem h]
    rfl
  | cons l links ih =>
    obtain ⟨op', w⟩ := l
    rw [List.cons_append]
    by_cases hop : op' ∈ tier
    · rw [join_cons_of_mem hop, join_cons_of_mem hop, ih]
    · rw [join_cons_of_not_mem hop, join_cons_of_not_mem hop, ih]
      rfl

theorem join_append_of_mem {tier : List Operator} {op : Operator} (h : op ∈ tier) (t u : Term)
    {links : Links} (hlinks : (join tier t links).2 = []) :
    join tier t (links ++ [(op, u)]) = (applied op (join tier t links).1 u, []) := by
  induction links generalizing t with
  | nil =>
    rw [List.nil_append, join_cons_of_mem h]
    rfl
  | cons l links ih =>
    obtain ⟨op', w⟩ := l
    rw [List.cons_append]
    by_cases hop : op' ∈ tier
    · rw [join_cons_of_mem hop] at hlinks ⊢
      rw [join_cons_of_mem hop, ih _ hlinks]
    · rw [join_cons_of_not_mem hop] at hlinks
      cases hlinks

/-- An operator of a later tier keeps the tiers before it apart. -/
theorem joinFirst_append {k : Nat} {op : Operator} (h : k < op.level) (t u : Term)
    (links rest : Links) :
    joinFirst k (t, links ++ (op, u) :: rest) = ((joinFirst k (t, links)).1,
      (joinFirst k (t, links)).2 ++
        (op, (joinFirst k (u, rest)).1) :: (joinFirst k (u, rest)).2) := by
  induction k with
  | zero => rfl
  | succ k ih =>
    obtain ⟨tier, htier⟩ := tier_of_lt_level (Nat.lt_of_succ_lt h)
    have hop : op ∉ tier := by
      rw [mem_tier_iff htier]
      omega
    rw [joinFirst_succ htier, joinFirst_succ htier, joinFirst_succ htier, ih (by omega),
      join_append_of_not_mem hop]

theorem joinFirst_succ_of_joined {k : Nat} {p : Term × Links} {t : Term}
    (h : joinFirst k p = (t, [])) : joinFirst (k + 1) p = (t, []) := by
  rcases htier : Operator.tiers[k]? with _ | tier
  · rw [joinFirst, List.take_add_one, htier, Option.toList_none, List.append_nil]
    exact h
  · rw [joinFirst_succ htier, h]
    rfl

end Term

/-- A formula, an operator, and a further formula. -/
def Formula.append (f : Formula) (op : Operator) (pos : Nat) (g : Formula) : Formula :=
  match f with
  | .single v => .chain v op pos g
  | .chain v op' pos' rest => .chain v op' pos' (rest.append op pos g)

theorem Formula.tokens_append (op : Operator) (pos : Nat) (g : Formula) : ∀ f : Formula,
    (f.append op pos g).tokens = f.tokens ++ ⟨.operator op, pos⟩ :: g.tokens
  | .single v => rfl
  | .chain v op' pos' rest => by
    rw [Formula.append, Formula.tokens, Formula.tokens_append op pos g rest, Formula.tokens,
      List.append_assoc, List.cons_append]

namespace Term

theorem linksOf_append (op : Operator) (pos : Nat) (g : Formula) : ∀ f : Formula,
    linksOf (f.append op pos g) =
      ((linksOf f).1, (linksOf f).2 ++ (op, (linksOf g).1) :: (linksOf g).2)
  | .single v => rfl
  | .chain v op' pos' rest => by
    rw [Formula.append, linksOf, linksOf_append op pos g rest, linksOf]
    rfl

/-- What is read at a level is what the tiers up to it join a formula's operands to. -/
theorem Reads.exists_formula {k : Nat} {ts : List Token} {t : Term} (h : Reads k ts t) :
    ∃ f : Formula, f.tokens = ts ∧ joinFirst k (linksOf f) = (t, []) := by
  induction h with
  | @number digits pos => exact ⟨.single (.number digits pos), rfl, rfl⟩
  | @name n pos => exact ⟨.single (.name n pos), rfl, rfl⟩
  | @negated pos ts t _ ih =>
    obtain ⟨f, rfl, hjoin⟩ := ih
    cases f with
    | single v =>
      cases hjoin
      exact ⟨.single (.negated pos v), rfl, rfl⟩
    | chain v op start rest => cases hjoin
  | @grouped opened ts t closed _ ih =>
    obtain ⟨f, rfl, hjoin⟩ := ih
    refine ⟨.single (.grouped opened f closed), rfl, ?_⟩
    have hterm : joinAll (linksOf f).1 (linksOf f).2 = t := congrArg Prod.fst hjoin
    rw [← hterm]
    rfl
  | tighter _ ih =>
    obtain ⟨f, htokens, hjoin⟩ := ih
    exact ⟨f, htokens, joinFirst_succ_of_joined hjoin⟩
  | @applied k ts us op pos t u hlevel _ _ ihLeft ihRight =>
    obtain ⟨f, rfl, hleft⟩ := ihLeft
    obtain ⟨g, rfl, hright⟩ := ihRight
    have hlt : k < op.level := by omega
    obtain ⟨tier, htier⟩ := tier_of_lt_level hlt
    rw [joinFirst_succ htier] at hleft
    refine ⟨f.append op pos g, Formula.tokens_append op pos g f, ?_⟩
    rw [linksOf_append, joinFirst_succ htier, joinFirst_append hlt, hright,
      join_append_of_mem ((mem_tier_iff htier op).2 hlevel) _ _ (congrArg Prod.snd hleft), hleft]

end Term

theorem Formula.tokens_injective {f g : Formula} (h : f.tokens = g.tokens) : f = g := by
  have hline : Line.formula none f 0 = Line.formula none g 0 := by
    apply Line.tokens_injective
    rw [Line.tokens_formula, Line.tokens_formula, h]
  cases hline
  rfl

theorem Term.reads_iff {ts : List Token} {t : Term} :
    Reads 3 ts t ↔ ∃ f : Formula, f.tokens = ts ∧ ofFormula f = t := by
  constructor
  · intro h
    obtain ⟨f, htokens, hjoin⟩ := h.exists_formula
    exact ⟨f, htokens, congrArg Prod.fst hjoin⟩
  · rintro ⟨f, rfl, rfl⟩
    exact reads_ofFormula f

/-- **Precedence leaves no choice.** Tokens are read as at most one term. -/
theorem Term.Reads.unique {ts : List Token} {t u : Term} (ht : Reads 3 ts t) (hu : Reads 3 ts u) :
    t = u := by
  obtain ⟨f, rfl, rfl⟩ := reads_iff.1 ht
  obtain ⟨g, htokens, rfl⟩ := reads_iff.1 hu
  rw [Formula.tokens_injective htokens]

end Calculator
