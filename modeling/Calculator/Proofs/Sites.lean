import Calculator.Proofs.Interleaving

/-!
# Operators with their arguments

In a row that interleaves, the nearest filled slots on the two sides of an operator hold arguments
(`exists_site`). A `Site` names them, with the holes between. When the operator is applied, one
filled slot is left of the three, and the row still interleaves.

`Folded` says how far the passes have come with a row: it interleaves, the operators of some tiers
are gone from it, and those of one more tier are gone up to an index. What the passes do to a row
keeps this:

1. a group becomes a literal (`Folded.group`);
2. an operator of the tier is applied at the index (`Folded.fold`), or there is none
   (`Folded.skip`), and the index moves on;
3. at the end of the row a tier is done with (`Folded.next`), and another one is begun
   (`Folded.turn`).
-/

namespace Calculator

open Node (holes filled filled_append)

theorem Node.isHole_of_isArgument {n : Node} (h : n.isArgument) : n.isHole = false := by
  cases n <;> first | rfl | cases h

/-- A row with one of its nodes between the others. -/
theorem take_append_cons_drop {ns : List Node} {i : Nat} {n : Node} (hi : ns[i]? = some n) :
    ns.take i ++ n :: ns.drop (i + 1) = ns := by
  obtain ⟨hlt, rfl⟩ := List.getElem?_eq_some_iff.1 hi
  rw [← List.drop_eq_getElem_cons hlt, List.take_append_drop]

/-! ## Rows that interleave -/

namespace Interleaves

theorem exists_cons {ns : List Node} (h : Interleaves ns) :
    ∃ a rest, ns = a :: rest ∧ a.isArgument := by
  cases h with
  | single ha => exact ⟨_, _, rfl, ha⟩
  | chain ha _ => exact ⟨_, _, rfl, ha⟩

/-- An operator has an argument on either side. -/
theorem exists_beside {kind : OperatorKind} {ys : List Node} :
    ∀ {xs : List Node}, Interleaves (xs ++ .operator kind :: ys) →
      ∃ front a b back, xs = front ++ [a] ∧ ys = b :: back ∧ a.isArgument ∧ b.isArgument
  | [], h => by
    obtain ⟨_, _, heq, ha⟩ := h.exists_cons
    cases heq
    cases ha
  | [a], h => by
    cases h with
    | chain ha hrest =>
      obtain ⟨b, back, rfl, hb⟩ := hrest.exists_cons
      exact ⟨[], a, b, back, rfl, rfl, ha, hb⟩
  | a :: o :: xs, h => by
    rw [List.cons_append, List.cons_append] at h
    cases h with
    | chain _ hrest =>
      obtain ⟨front, c, b, back, rfl, hys, hc, hb⟩ := hrest.exists_beside
      exact ⟨a :: _ :: front, c, b, back, rfl, hys, hc, hb⟩

/-- One argument may stand for two and the operator between them. -/
theorem join {xs ys : List Node} {a b c : Node} {kind : OperatorKind} (ha : a.isArgument)
    (hc : c.isArgument) (h : Interleaves (xs ++ a :: .operator kind :: b :: ys)) :
    Interleaves (xs ++ c :: ys) := by
  refine h.replace ha fun h => ?_
  cases h with
  | chain _ hrest => exact hrest.head hc

/-- A literal may stand for any argument. -/
theorem filled_set {ns : List Node} {i : Nat} {n : Node} (h : Interleaves (filled ns))
    (hi : ns[i]? = some n) (hn : n.isArgument) (v : Int) :
    Interleaves (filled (ns.set i (.literal v))) := by
  have hlt := (List.getElem?_eq_some_iff.1 hi).1
  rw [← take_append_cons_drop hi, filled_append, Node.filled_argument_cons hn] at h
  rw [List.set_eq_take_append_cons_drop, if_pos hlt, filled_append, Node.filled_literal_cons]
  exact h.replace hn fun h => h.head rfl

end Interleaves

/-! ## Sites -/

/-- An operator of a row and the nearest filled slots on both sides of it, which hold arguments. -/
structure Site where
  before : List Node
  lhs : Node
  leftGap : Nat
  op : Operator
  rightGap : Nat
  rhs : Node
  after : List Node
  isArgument_lhs : lhs.isArgument
  isArgument_rhs : rhs.isArgument

namespace Site

/-- The slots before the operator's own. -/
def left (s : Site) (lhs : Node) : List Node := s.before ++ lhs :: holes s.leftGap

/-- The slots after the operator's own. -/
def right (s : Site) (rhs : Node) : List Node := holes s.rightGap ++ rhs :: s.after

/-- The row with the given nodes in the three slots. -/
def fill (s : Site) (lhs middle rhs : Node) : List Node := s.left lhs ++ middle :: s.right rhs

def operator (s : Site) : Node := .operator (.known s.op)

def row (s : Site) : List Node := s.fill s.lhs s.operator s.rhs

/-- The row once the left argument is taken out. -/
def leftTaken (s : Site) : List Node := s.fill .hole s.operator s.rhs

/-- The row once both arguments are taken out. -/
def bothTaken (s : Site) : List Node := s.fill .hole s.operator .hole

/-- The row once the operator is applied. -/
def folded (s : Site) (v : Int) : List Node := s.fill .hole (.literal v) .hole

/-- The index of the operator. -/
def index (s : Site) : Nat := s.before.length + 1 + s.leftGap

theorem length_left (s : Site) (lhs : Node) : (s.left lhs).length = s.index := by
  rw [left, index, List.length_append, List.length_cons, List.length_replicate]
  omega

theorem length_fill (s : Site) (lhs middle rhs : Node) :
    (s.fill lhs middle rhs).length = s.row.length := by
  simp only [row, fill, left, right, List.length_append, List.length_cons]

theorem getElem?_fill (s : Site) (lhs middle rhs : Node) :
    (s.fill lhs middle rhs)[s.index]? = some middle := by
  rw [fill, ← s.length_left lhs, List.getElem?_append_right (Nat.le_refl _), Nat.sub_self]
  rfl

theorem set_fill (s : Site) (lhs middle rhs n : Node) :
    (s.fill lhs middle rhs).set s.index n = s.fill lhs n rhs := by
  rw [fill, fill, ← s.length_left lhs, List.set_append_right _ _ (Nat.le_refl _), Nat.sub_self]
  rfl

/-! ### Filled slots -/

theorem filled_row (s : Site) :
    filled s.row = filled s.before ++ s.lhs :: s.operator :: s.rhs :: filled s.after := by
  simp only [row, fill, left, right, operator, filled_append, Node.filled_holes,
    Node.filled_operator_cons, Node.filled_argument_cons s.isArgument_lhs,
    Node.filled_argument_cons s.isArgument_rhs, List.append_assoc, List.cons_append,
    List.nil_append]

theorem filled_folded (s : Site) (v : Int) :
    filled (s.folded v) = filled s.before ++ .literal v :: filled s.after := by
  simp only [folded, fill, left, right, filled_append, Node.filled_holes, Node.filled_hole_cons,
    Node.filled_literal_cons, List.append_nil, List.nil_append]

theorem length_filled_folded (s : Site) (v : Int) :
    (filled (s.folded v)).length + 2 = (filled s.row).length := by
  rw [filled_folded, filled_row]
  simp only [List.length_append, List.length_cons]
  omega

/-! ### Operators -/

theorem mem_left {s : Site} {kind : OperatorKind} (h : .operator kind ∈ s.left .hole) :
    .operator kind ∈ s.left s.lhs := by
  simp only [left, List.mem_append, List.mem_cons, reduceCtorEq, false_or] at h ⊢
  exact h.imp_right .inr

theorem mem_right {s : Site} {kind : OperatorKind} (h : .operator kind ∈ s.right .hole) :
    .operator kind ∈ s.right s.rhs := by
  simp only [right, List.mem_append, List.mem_cons, reduceCtorEq, false_or] at h ⊢
  exact h.imp_right .inr

/-- Applying an operator brings no other one into the row. -/
theorem mem_row {s : Site} {v : Int} {kind : OperatorKind} (h : .operator kind ∈ s.folded v) :
    .operator kind ∈ s.row := by
  rw [folded, fill, List.mem_append, List.mem_cons] at h
  rw [row, fill, List.mem_append, List.mem_cons]
  obtain h | h | h := h
  · exact .inl (mem_left h)
  · cases h
  · exact .inr (.inr (mem_right h))

/-- Up to the operator's own slot, there are only operators that were before it. -/
theorem mem_take_row {s : Site} {v : Int} {kind : OperatorKind}
    (h : .operator kind ∈ (s.folded v).take (s.index + 1)) :
    .operator kind ∈ s.row.take s.index := by
  rw [folded, fill, ← s.length_left .hole, List.take_length_add_append] at h
  rw [row, fill, ← s.length_left s.lhs, List.take_left]
  obtain h | h := List.mem_append.1 h
  · exact mem_left h
  · cases List.mem_singleton.1 h

end Site

/-! ## Where the arguments are -/

namespace Node

/-- The first filled slot of a row. -/
theorem exists_first {ns back : List Node} {n : Node} (h : filled ns = n :: back) :
    ∃ k after, ns = holes k ++ n :: after := by
  obtain ⟨empty, after, rfl, hempty, -, -⟩ := List.filter_eq_cons_iff.1 h
  refine ⟨empty.length, after, ?_⟩
  rw [← eq_holes (by simpa using hempty)]

/-- The last filled slot of a row. -/
theorem exists_last {ns front : List Node} {n : Node} (h : filled ns = front ++ [n]) :
    ∃ before k, ns = before ++ n :: holes k := by
  obtain ⟨before, rest, rfl, -, hrest⟩ := List.filter_eq_append_iff.1 h
  obtain ⟨empty, after, rfl, -, -, hafter⟩ := List.filter_eq_cons_iff.1 hrest
  refine ⟨before ++ empty, after.length, ?_⟩
  rw [← eq_holes (by simpa using hafter), List.append_assoc]

end Node

/-- In a row that interleaves, every operator has its arguments. -/
theorem exists_site {ns : List Node} {i : Nat} {op : Operator} (h : Interleaves (filled ns))
    (hi : ns[i]? = some (.operator (.known op))) :
    ∃ s : Site, s.op = op ∧ s.index = i ∧ s.row = ns := by
  have hsplit := take_append_cons_drop hi
  have hlt := (List.getElem?_eq_some_iff.1 hi).1
  rw [← hsplit, filled_append, Node.filled_operator_cons] at h
  obtain ⟨front, a, b, back, hleft, hright, ha, hb⟩ := h.exists_beside
  obtain ⟨before, k, hbefore⟩ := Node.exists_last hleft
  obtain ⟨l, after, hafter⟩ := Node.exists_first hright
  let s : Site := ⟨before, a, k, op, l, b, after, ha, hb⟩
  have hlength : (ns.take i).length = s.index := by
    rw [hbefore]
    exact s.length_left a
  refine ⟨s, rfl, ?_, ?_⟩
  · rw [← hlength, List.length_take]
    omega
  · rw [← hsplit, hbefore, hafter]
    rfl

/-! ## The invariant -/

/-- A row of `width` slots that interleaves, without the operators of the tiers in `done`, and
without those of one more tier before the index `i`. -/
structure Folded (width : Nat) (done : List (List Operator)) (tier : List Operator) (i : Nat)
    (ns : List Node) : Prop where
  length : ns.length = width
  interleaves : Interleaves (filled ns)
  earlier : ∀ t ∈ done, ∀ op ∈ t, .operator (.known op) ∉ ns
  passed : ∀ op ∈ tier, .operator (.known op) ∉ ns.take i

namespace Folded

variable {width i : Nat} {done : List (List Operator)} {tier : List Operator} {ns : List Node}

theorem start (hlength : ns.length = width) (hrow : Interleaves (filled ns))
    (tier : List Operator) : Folded width [] tier 0 ns where
  length := hlength
  interleaves := hrow
  earlier _ ht := absurd ht List.not_mem_nil
  passed _ _ := List.not_mem_nil

theorem group {k : Nat} {n : Node} (h : Folded width [] tier 0 ns) (hk : ns[k]? = some n)
    (hn : n.isArgument) (v : Int) : Folded width [] tier 0 (ns.set k (.literal v)) :=
  start ((List.length_set ..).trans h.length) (h.interleaves.filled_set hk hn v) tier

theorem fold {s : Site} (h : Folded width done tier s.index s.row) (v : Int) :
    Folded width done tier (s.index + 1) (s.folded v) where
  length := (s.length_fill ..).trans h.length
  interleaves := by
    have hrow := h.interleaves
    rw [s.filled_row] at hrow
    rw [s.filled_folded]
    exact hrow.join s.isArgument_lhs rfl
  earlier t ht op hop hmem := h.earlier t ht op hop (Site.mem_row hmem)
  passed op hop hmem := h.passed op hop (Site.mem_take_row hmem)

theorem skip (h : Folded width done tier i ns)
    (hi : ∀ op ∈ tier, ns[i]? ≠ some (.operator (.known op))) :
    Folded width done tier (i + 1) ns where
  length := h.length
  interleaves := h.interleaves
  earlier := h.earlier
  passed op hop hmem := by
    rw [List.take_add_one, List.mem_append, Option.mem_toList] at hmem
    exact hmem.elim (h.passed op hop) (hi op hop)

theorem next (h : Folded width done tier width ns) (tier' : List Operator) :
    Folded width (done ++ [tier]) tier' 0 ns where
  length := h.length
  interleaves := h.interleaves
  earlier t ht op hop := by
    rcases List.mem_append.1 ht with ht | ht
    · exact h.earlier t ht op hop
    · obtain rfl := List.mem_singleton.1 ht
      have hpassed := h.passed op hop
      rwa [List.take_of_length_le (Nat.le_of_eq h.length)] at hpassed
  passed _ _ := List.not_mem_nil

theorem turn {tier' : List Operator} (h : Folded width done tier' 0 ns) (tier : List Operator) :
    Folded width done tier 0 ns :=
  ⟨h.length, h.interleaves, h.earlier, fun _ _ => List.not_mem_nil⟩

end Folded

end Calculator
