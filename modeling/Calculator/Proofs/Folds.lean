import Mathlib.Data.List.GetD
import Calculator.Proofs.Sites

/-!
# The invariant of the passes

The passes go over a row by fixed indices while the row changes around them. If the filled slots of
the row interleave at first then they do so at every moment, and no operator is left behind.

1. On a bench whose row interleaves, an operator finds both of its arguments (`Bench.run_takeLeft`,
   `Bench.run_takeRight`), and its value takes its slot (`Bench.exists_of_run_applyOperator`).
2. So the work at one index keeps `Folded` (`Bench.stands_resolveGroup`,
   `Bench.stands_applyOperator`), hence so does a pass over any number of indices
   (`Bench.stands_forM_range`), hence so do all passes (`Bench.stands_forM_tiers`).
3. `Bench.upTo` is the reduction until a moment and `Bench.upFrom` is the rest of it
   (`Bench.run_reduceRow_eq`). At any moment the row is `Folded` as far as the passes have come
   (`Bench.stands_upTo`).
-/

namespace Calculator

open Node (holes filled)

variable {r : Recorder}

/-! ## Rows on a bench -/

/-- A node in a row on a bench. -/
def Node.cell (r : Recorder) (n : Node) : Cell := ⟨n, n.work r⟩

theorem Node.operatorIn?_cell_eq_some {tier : List Operator} {n : Node} {op : Operator} :
    (n.cell r).operatorIn? tier = some op ↔ op ∈ tier ∧ n = .operator (.known op) := by
  constructor
  · intro h
    unfold Cell.operatorIn? at h
    split at h
    · next op' hnode =>
      split_ifs at h with hin
      cases h
      exact ⟨hin, hnode⟩
    · cases h
  · rintro ⟨hin, rfl⟩
    exact if_pos hin

theorem Node.cell_slot (r : Recorder) (n : Node) : (n.slot r.vars).cell r = n.cell r :=
  congrArg (Cell.mk n) (funext fun j => (n.work_eq r j).symm)

theorem Node.cells_eq_map (r : Recorder) (ns : List Node) : cells r ns = ns.map (cell r) := by
  induction ns with
  | nil => rfl
  | cons n ns ih => rw [cells, ih]; rfl

theorem Node.set_cells (ns : List Node) (i : Nat) (n : Node) :
    (cells r ns).set i (n.cell r) = cells r (ns.set i n) := by
  rw [cells_eq_map, cells_eq_map, List.map_set]

namespace Bench

/-- A bench with the given row. -/
def ofRow (r : Recorder) (ns : List Node) (j : Option Journal) : Bench := ⟨Node.cells r ns, j⟩

theorem length_row_ofRow (ns : List Node) (j : Option Journal) :
    (ofRow r ns j).row.length = ns.length := by
  rw [ofRow, Node.cells_eq_map, List.length_map]

theorem ofRow_injective {ns ns' : List Node} {j j' : Option Journal}
    (h : ofRow r ns j = ofRow r ns' j') : ns = ns' ∧ j = j' := by
  have hnodes (ns : List Node) (j : Option Journal) : (ofRow r ns j).row.map Cell.node = ns := by
    rw [ofRow, Node.cells_eq_map, List.map_map]
    exact List.map_id ns
  refine ⟨?_, congrArg Bench.journal h⟩
  rw [← hnodes ns j, h, hnodes]

/-- The row before a place in it and from there on. -/
theorem ofRow_append (left right : List Node) (j : Option Journal) :
    ofRow r (left ++ right) j =
      around r (left.reverse.map (Node.slot r.vars)) (right.map (Node.slot r.vars)) j := by
  rw [ofRow, Node.cells_eq, Node.slotsOf_eq_map, around, List.map_reverse, List.reverse_reverse,
    List.map_append]

theorem run_cell (ns : List Node) (i : Nat) (j : Option Journal) :
    (cell i).run (ofRow r ns j) = .ok ((ns.getD i .hole).cell r) (ofRow r ns j) := by
  have hget : (Node.cells r ns).getD i .empty = (ns.getD i .hole).cell r := by
    rw [Node.cells_eq_map, show Cell.empty = Node.hole.cell r from rfl, List.getD_map]
  exact congrArg (EStateM.Result.ok · _) hget

theorem run_put (ns : List Node) (i : Nat) (n : Node) (j : Option Journal) :
    (put i (n.cell r)).run (ofRow r ns j) = .ok () (ofRow r (ns.set i n) j) :=
  congrArg (fun row => EStateM.Result.ok () (Bench.mk row j)) (Node.set_cells ns i n)

theorem exists_of_run_bind {α β : Type} {x : Work α} {f : α → Work β} {b b' : Bench} {c : β}
    (h : (x >>= f).run b = .ok c b') : ∃ a b₁, x.run b = .ok a b₁ ∧ (f a).run b₁ = .ok c b' := by
  rw [EStateM.run_bind] at h
  cases hx : x.run b with
  | ok a b₁ =>
    rw [hx] at h
    exact ⟨a, b₁, rfl, h⟩
  | error e b₁ =>
    rw [hx] at h
    cases h

/-! ## Taking the arguments -/

theorem takeNearest?_holes {vars : Variables} {n : Node} (hn : n.isHole = false) (k : Nat)
    (rest : List Node) :
    Slot.takeNearest? ((holes k ++ n :: rest).map (Node.slot vars)) =
      some (n.slot vars, (holes k ++ .hole :: rest).map (Node.slot vars)) := by
  induction k with
  | zero =>
    show Slot.takeNearest? (n.slot vars :: rest.map (Node.slot vars)) = _
    rw [Slot.takeNearest?, Node.isEmpty_slot, hn]
    rfl
  | succ k ih =>
    show (Slot.takeNearest? ((holes k ++ n :: rest).map (Node.slot vars))).map _ = _
    rw [ih]
    rfl

theorem run_takeLeft (s : Site) (j : Option Journal) :
    (takeLeft s.index).run (ofRow r s.row j) = .ok (s.lhs.cell r) (ofRow r s.leftTaken j) := by
  have htake := run_takeLeft_around (r := r) ((s.left s.lhs).reverse.map (Node.slot r.vars))
    ((s.operator :: s.right s.rhs).map (Node.slot r.vars)) j
  have hleft (lhs : Node) : (s.left lhs).reverse = holes s.leftGap ++ lhs :: s.before.reverse := by
    simp [Site.left]
  rw [List.length_map, List.length_reverse, s.length_left, ← ofRow_append, hleft,
    takeNearest?_holes (Node.isHole_of_isArgument s.isArgument_lhs), ← hleft] at htake
  simp only [← ofRow_append, Node.cell_slot] at htake
  exact htake

/-- The right argument is taken when the left one is gone. -/
theorem run_takeRight (s : Site) (j : Option Journal) :
    (takeRight (s.index + 1) (s.row.length - (s.index + 1))).run (ofRow r s.leftTaken j) =
      .ok (s.rhs.cell r) (ofRow r s.bothTaken j) := by
  have htake := run_takeRight_around (r := r)
    ((s.left .hole ++ [s.operator]).reverse.map (Node.slot r.vars))
    ((holes s.rightGap ++ s.rhs :: s.after).map (Node.slot r.vars)) j
  have hrow (rhs : Node) : s.left .hole ++ [s.operator] ++ (holes s.rightGap ++ rhs :: s.after) =
      s.fill .hole s.operator rhs := by
    rw [Site.fill, List.append_assoc, List.singleton_append, Site.right]
  have hlength : s.row.length - (s.index + 1) = (holes s.rightGap ++ s.rhs :: s.after).length := by
    rw [Site.row, Site.fill, List.length_append, List.length_cons, s.length_left, Site.right]
    omega
  rw [List.length_map, List.length_map, List.length_reverse, List.length_append, s.length_left,
    ← hlength, ← ofRow_append, hrow,
    takeNearest?_holes (Node.isHole_of_isArgument s.isArgument_rhs)] at htake
  simp only [← ofRow_append, hrow, Node.cell_slot] at htake
  exact htake

/-! ## The work at one index -/

/-- Work on a node touches the row only by putting back what is left of the node. -/
theorem exists_of_run_run {c : Cell} {keep : Node → List Cell → List Cell} {v : Int}
    {b b' : Bench} (h : (run c keep).run b = .ok v b') :
    (c.work b.journal).result = .ok v ∧ ∃ residue j, b' = ⟨keep residue b.row, j⟩ := by
  simp only [EStateM.run, run] at h
  split at h
  · next w hw =>
    cases h
    exact ⟨hw, _, _, rfl⟩
  · cases h

/-- Work on a node that stands aside leaves the row as it is. -/
theorem exists_of_run_aside {n : Node} {ns : List Node} {j : Option Journal} {v : Int} {b : Bench}
    (h : (run (n.cell r) fun _ row => row).run (ofRow r ns j) = .ok v b) :
    (n.reduce r.vars).outcome.result = .ok v ∧ ∃ j', b = ofRow r ns j' := by
  obtain ⟨hv, _, j', rfl⟩ := exists_of_run_run h
  exact ⟨(congrArg Ending.result (n.work_eq r j)).symm.trans hv, j', rfl⟩

/-- An operator that is applied to the values of its arguments leaves the result in its slot. -/
theorem exists_of_run_applyOperator {s : Site} {tier : List Operator} (hop : s.op ∈ tier)
    {j : Option Journal} {b : Bench}
    (h : (applyOperator r tier s.index).run (ofRow r s.row j) = .ok () b) :
    ∃ x y v j', (s.lhs.reduce r.vars).outcome.result = .ok x ∧
      (s.rhs.reduce r.vars).outcome.result = .ok y ∧ s.op.apply x y = .ok v ∧
      b = ofRow r (s.folded v) j' := by
  have hget : s.row.getD s.index .hole = s.operator := by
    rw [List.getD_eq_getElem?_getD, Site.row, s.getElem?_fill, Option.getD_some]
  have hin : (s.operator.cell r).operatorIn? tier = some s.op :=
    Node.operatorIn?_cell_eq_some.2 ⟨hop, rfl⟩
  rw [applyOperator, run_bind_ok (run_cell _ _ _), hget, hin] at h
  simp only [run_bind_ok (run_takeLeft s j)] at h
  obtain ⟨x, b₁, hleft, h⟩ := exists_of_run_bind h
  obtain ⟨hx, j₁, rfl⟩ := exists_of_run_aside hleft
  have hlength : (ofRow r s.leftTaken j₁).row.length = s.row.length := by
    rw [length_row_ofRow, Site.leftTaken, s.length_fill]
  rw [run_bind_ok (run_get _), hlength, run_bind_ok (run_takeRight s j₁)] at h
  obtain ⟨y, b₂, hright, h⟩ := exists_of_run_bind h
  obtain ⟨hy, j₂, rfl⟩ := exists_of_run_aside hright
  cases hv : s.op.apply x y with
  | error fault =>
    rw [hv] at h
    cases h
  | ok v =>
    have hput : (put s.index (.literal v)).run (ofRow r s.bothTaken j₂) =
        .ok () (ofRow r (s.folded v) j₂) := by
      have hset : s.bothTaken.set s.index (.literal v) = s.folded v := s.set_fill ..
      rw [← hset]
      exact run_put ..
    rw [hv] at h
    obtain ⟨_, b₃, hlift, h⟩ := exists_of_run_bind h
    cases hlift
    rw [run_bind_ok hput] at h
    cases h
    exact ⟨x, y, v, _, hx, hy, hv, rfl⟩

/-- Where no operator of the tier is, nothing is done. -/
theorem run_applyOperator_of_none {tier : List Operator} {ns : List Node} {i : Nat}
    (h : ∀ op ∈ tier, ns[i]? ≠ some (.operator (.known op))) (j : Option Journal) :
    (applyOperator r tier i).run (ofRow r ns j) = .ok () (ofRow r ns j) := by
  have hnone : ((ns.getD i .hole).cell r).operatorIn? tier = none := by
    refine Option.eq_none_iff_forall_ne_some.2 fun op hin => ?_
    obtain ⟨hop, hnode⟩ := Node.operatorIn?_cell_eq_some.1 hin
    rw [List.getD_eq_getElem?_getD] at hnode
    cases hget : ns[i]? with
    | none =>
      rw [hget] at hnode
      cases hnode
    | some n =>
      rw [hget] at hnode
      exact h op hop (hget.trans (congrArg some hnode))
  rw [applyOperator, run_bind_ok (run_cell _ _ _), hnone]
  rfl

theorem exists_of_isGroup {ns : List Node} {i : Nat} (h : ((ns.getD i .hole).cell r).isGroup) :
    ∃ n, ns[i]? = some n ∧ n.isArgument := by
  rw [List.getD_eq_getElem?_getD] at h
  cases hget : ns[i]? with
  | none =>
    rw [hget] at h
    cases h
  | some n =>
    rw [hget] at h
    refine ⟨n, rfl, ?_⟩
    cases n <;> first | rfl | cases h

/-- A group has a value, or there is none at the index. -/
theorem exists_of_run_resolveGroup {ns : List Node} {i : Nat} {j : Option Journal} {b : Bench}
    (h : (resolveGroup r i).run (ofRow r ns j) = .ok () b) :
    ∃ ns' j', b = ofRow r ns' j' ∧
      (ns' = ns ∨ ∃ n v, ns[i]? = some n ∧ n.isArgument ∧ ns' = ns.set i (.literal v)) := by
  rw [resolveGroup, run_bind_ok (run_cell _ _ _)] at h
  split_ifs at h with hgroup
  · obtain ⟨n, hi, hn⟩ := exists_of_isGroup hgroup
    obtain ⟨v, b₁, hv, h⟩ := exists_of_run_bind h
    obtain ⟨-, residue, j', rfl⟩ := exists_of_run_run hv
    cases h
    -- what is left of the group is put back first, and then the literal in the same place
    have hset (c : Cell) : ((Node.cells r ns).set i c).set i (.literal v) =
        Node.cells r (ns.set i (.literal v)) := by
      rw [List.set_set]
      exact Node.set_cells ns i (.literal v)
    exact ⟨_, _, congrArg (Bench.mk · _) (hset _), .inr ⟨n, v, hi, hn, rfl⟩⟩
  · cases h
    exact ⟨ns, j, rfl, .inl rfl⟩

/-! ## Passes -/

/-- The row on the bench has the property. -/
def Stands (r : Recorder) (P : List Node → Prop) (b : Bench) : Prop :=
  ∃ ns j, b = ofRow r ns j ∧ P ns

theorem forM_range_succ (w : Nat → Work Unit) (n : Nat) :
    (List.range (n + 1)).forM w = (List.range n).forM w >>= fun _ => w n := by
  rw [List.range_succ]
  refine List.forM_append.trans (congrArg (_ >>= ·) (funext fun _ => ?_))
  exact bind_pure (w n)

/-- What the work at every index keeps holds after any number of indices. -/
theorem stands_forM_range {P : Nat → List Node → Prop} {w : Nat → Work Unit}
    (hw : ∀ i ns j b, P i ns → (w i).run (ofRow r ns j) = .ok () b → Stands r (P (i + 1)) b)
    {b b' : Bench} (hb : Stands r (P 0) b) {n : Nat}
    (h : ((List.range n).forM w).run b = .ok () b') : Stands r (P n) b' := by
  induction n generalizing b' with
  | zero =>
    cases h
    exact hb
  | succ n ih =>
    rw [forM_range_succ] at h
    obtain ⟨_, b₁, hfirst, hlast⟩ := exists_of_run_bind h
    obtain ⟨ns, j, rfl, hns⟩ := ih hfirst
    exact hw n ns j b' hns hlast

variable {width i : Nat} {done todo : List (List Operator)} {tier : List Operator}

theorem stands_resolveGroup {k : Nat} {ns : List Node} {j : Option Journal} {b : Bench}
    (hns : Folded width [] tier 0 ns) (h : (resolveGroup r k).run (ofRow r ns j) = .ok () b) :
    Stands r (Folded width [] tier 0) b := by
  obtain ⟨ns', j', rfl, rfl | ⟨n, v, hk, hn, rfl⟩⟩ := exists_of_run_resolveGroup h
  · exact ⟨_, j', rfl, hns⟩
  · exact ⟨_, j', rfl, hns.group hk hn v⟩

theorem stands_applyOperator {ns : List Node} {j : Option Journal} {b : Bench}
    (hns : Folded width done tier i ns)
    (h : (applyOperator r tier i).run (ofRow r ns j) = .ok () b) :
    Stands r (Folded width done tier (i + 1)) b := by
  by_cases hi : ∃ op ∈ tier, ns[i]? = some (.operator (.known op))
  · obtain ⟨op, hop, hi⟩ := hi
    obtain ⟨s, rfl, rfl, rfl⟩ := exists_site hns.interleaves hi
    obtain ⟨x, y, v, j', -, -, -, rfl⟩ := exists_of_run_applyOperator hop h
    exact ⟨_, j', rfl, hns.fold v⟩
  · have hnone : ∀ op ∈ tier, ns[i]? ≠ some (.operator (.known op)) :=
      fun op hop hget => hi ⟨op, hop, hget⟩
    rw [run_applyOperator_of_none hnone] at h
    cases h
    exact ⟨ns, j, rfl, hns.skip hnone⟩

/-- Tier after tier, by induction on those that are still to come. -/
theorem stands_forM_tiers (tiers : List (List Operator)) {b b' : Bench}
    (hb : Stands r (Folded width done [] 0) b)
    (h : (tiers.forM fun tier => (List.range width).forM (applyOperator r tier)).run b =
      .ok () b') : Stands r (Folded width (done ++ tiers) [] 0) b' := by
  induction tiers generalizing done b with
  | nil =>
    cases h
    rwa [List.append_nil]
  | cons tier tiers ih =>
    obtain ⟨_, b₁, hfirst, hrest⟩ := exists_of_run_bind h
    obtain ⟨ns, j, rfl, hns⟩ := hb
    have hpass : Stands r (Folded width done tier width) b₁ :=
      stands_forM_range (fun _ _ _ _ => stands_applyOperator) ⟨ns, j, rfl, hns.turn tier⟩ hfirst
    obtain ⟨ns', j', rfl, hns'⟩ := hpass
    have hall := ih ⟨ns', j', rfl, hns'.next []⟩ hrest
    rwa [List.append_assoc] at hall

/-! ## The moments of a reduction -/

/-- The work on a row until it comes to an index of a tier: all groups, the tiers in `done`, and the
operators of the tier before the index. -/
def upTo (r : Recorder) (done : List (List Operator)) (tier : List Operator) (i : Nat) :
    Work Unit := do
  let indices := List.range (← get).row.length
  indices.forM (resolveGroup r)
  done.forM fun tier => indices.forM (applyOperator r tier)
  (List.range i).forM (applyOperator r tier)

/-- The work that is left then. -/
def upFrom (r : Recorder) (width : Nat) (tier : List Operator) (todo : List (List Operator))
    (i : Nat) : Work Int := do
  (List.range' i (width - i)).forM (applyOperator r tier)
  todo.forM fun tier => (List.range width).forM (applyOperator r tier)
  (List.range width).forM resolveName
  lone

theorem range_append_range' {n : Nat} (hi : i ≤ n) :
    List.range n = List.range i ++ List.range' i (n - i) := by
  have happend := List.range'_append_1 (s := 0) (m := i) (n := n - i)
  rw [Nat.zero_add, Nat.add_sub_cancel' hi] at happend
  rw [List.range_eq_range', List.range_eq_range', happend]

theorem run_reduceRow_eq (htiers : Operator.tiers = done ++ tier :: todo) {b : Bench}
    (hi : i ≤ b.row.length) :
    (reduceRow r).run b =
      (do upTo r done tier i; upFrom r b.row.length tier todo i).run b := by
  let pass (tier : List Operator) : Work Unit :=
    (List.range b.row.length).forM (applyOperator r tier)
  have hpass : pass tier = (List.range i).forM (applyOperator r tier) >>= fun _ =>
      (List.range' i (b.row.length - i)).forM (applyOperator r tier) := by
    show (List.range b.row.length).forM _ = _
    rw [range_append_range' hi]
    exact List.forM_append
  have hpasses : Operator.tiers.forM pass =
      done.forM pass >>= fun _ => pass tier >>= fun _ => todo.forM pass := by
    rw [htiers]
    exact List.forM_append
  rw [reduceRow, run_bind_ok (run_get b), upTo, bind_assoc, run_bind_ok (run_get b)]
  show ((List.range b.row.length).forM (resolveGroup r) >>= fun _ =>
    Operator.tiers.forM pass >>= fun _ => _).run b = _
  rw [hpasses, hpass]
  simp only [bind_assoc, upFrom]
  rfl

theorem ending_congr {w w' : Work Int} {b : Bench} (h : w.run b = w'.run b) :
    ending w b = ending w' b := by
  unfold ending
  rw [show w b = w' b from h]

/-- Every moment is one of the reduction of the expression. -/
theorem ending_reduce_eq (htiers : Operator.tiers = done ++ tier :: todo) {slots : List Node}
    (hi : i ≤ slots.length) (j : Option Journal) :
    ((Node.expression slots).reduce r.vars).ending r j =
      ending (do upTo r done tier i; upFrom r slots.length tier todo i) (ofRow r slots j) := by
  have hwidth := length_row_ofRow (r := r) slots j
  have hrun := run_reduceRow_eq (r := r) htiers (hwidth.symm ▸ hi)
  rw [hwidth] at hrun
  rw [← Node.work_eq, Node.work]
  exact ending_congr hrun

/-- At every moment the row is as far as the passes have come. -/
theorem stands_upTo {slots : List Node} {j : Option Journal} (hslots : Interleaves (filled slots))
    {b : Bench} (h : (upTo r done tier i).run (ofRow r slots j) = .ok () b) :
    Stands r (Folded slots.length done tier i) b := by
  rw [upTo, run_bind_ok (run_get _), length_row_ofRow] at h
  obtain ⟨_, b₁, hgroups, h⟩ := exists_of_run_bind h
  obtain ⟨_, b₂, hdone, htier⟩ := exists_of_run_bind h
  have hstart : Stands r (Folded slots.length [] [] 0) (ofRow r slots j) :=
    ⟨slots, j, rfl, .start rfl hslots []⟩
  have hstands := stands_forM_range (fun _ _ _ _ => stands_resolveGroup) hstart hgroups
  obtain ⟨ns, j', rfl, hns⟩ := stands_forM_tiers done hstands hdone
  exact stands_forM_range (fun _ _ _ _ => stands_applyOperator) ⟨ns, j', rfl, hns.turn tier⟩ htier

end Bench

open Bench

/-- **The invariant of the passes.** Let the filled slots of an expression interleave, and let its
reduction come to the index `i` of a tier, all groups and the tiers in `done` being worked off. The
row is as wide as at first, its filled slots interleave, and neither an operator of an earlier tier
is left in it nor one of this tier before the index. If an operator of the tier is at the index then
both of its arguments are found, as the nearest filled slots, and they are no operators. Once it is
applied, a literal is in its slot and the other two are empty, the row interleaves again, and no
operator of the tier is left up to this index. -/
theorem folds_keep_alternation (r : Recorder) {slots : List Node} (j : Option Journal)
    (hslots : Interleaves (filled slots)) {done : List (List Operator)} {tier : List Operator}
    {todo : List (List Operator)} (htiers : Operator.tiers = done ++ tier :: todo) {i : Nat}
    (hi : i ≤ slots.length) :
    ((Node.expression slots).reduce r.vars).ending r j =
      ending (do upTo r done tier i; upFrom r slots.length tier todo i) (ofRow r slots j) ∧
    ∀ b, (upTo r done tier i).run (ofRow r slots j) = .ok () b →
      ∃ ns j, b = ofRow r ns j ∧ Folded slots.length done tier i ns ∧
        ∀ op ∈ tier, ns[i]? = some (.operator (.known op)) →
          ∃ s : Site, s.op = op ∧ s.index = i ∧ s.row = ns ∧
            (takeLeft i).run b = .ok (s.lhs.cell r) (ofRow r s.leftTaken j) ∧
            (∀ j, (takeRight (i + 1) (slots.length - (i + 1))).run (ofRow r s.leftTaken j) =
              .ok (s.rhs.cell r) (ofRow r s.bothTaken j)) ∧
            ∀ b', (applyOperator r tier i).run b = .ok () b' → ∃ x y v j,
              (s.lhs.reduce r.vars).outcome.result = .ok x ∧
              (s.rhs.reduce r.vars).outcome.result = .ok y ∧ op.apply x y = .ok v ∧
              b' = ofRow r (s.folded v) j ∧
              (filled (s.folded v)).length + 2 = (filled ns).length ∧
              Folded slots.length done tier (i + 1) (s.folded v) := by
  refine ⟨ending_reduce_eq htiers hi j, fun b hb => ?_⟩
  obtain ⟨ns, j', rfl, hns⟩ := stands_upTo hslots hb
  refine ⟨ns, j', rfl, hns, fun op hop hget => ?_⟩
  obtain ⟨s, rfl, rfl, rfl⟩ := exists_site hns.interleaves hget
  refine ⟨s, rfl, rfl, rfl, run_takeLeft s j', fun j => ?_, fun b' hb' => ?_⟩
  · rw [← hns.length]
    exact run_takeRight s j
  · obtain ⟨x, y, v, j'', hx, hy, hv, rfl⟩ := exists_of_run_applyOperator hop hb'
    exact ⟨x, y, v, j'', hx, hy, hv, rfl, s.length_filled_folded v, hns.fold v⟩

/-- The row of `(1 + 1) ^ 3 * x` with a gap in it, when the power has been found. -/
theorem folds_keep_alternation_gap :
    let r : Recorder := ⟨⟨[("x", 5)], 0⟩, none⟩
    let sum : Node := .expression [.literal 1, .operator (.known .add), .literal 1]
    let times : Node := .operator (.known .multiply)
    let slots : List Node := [.parenthetical sum, .hole, .operator (.known .exponent), .literal 3,
      times, .identifier "x"]
    let ns : List Node := [.hole, .hole, .literal 8, .hole, times, .identifier "x"]
    let ns' : List Node := [.hole, .hole, .hole, .hole, .literal 40, .hole]
    let tier : List Operator := [.multiply, .divide]
    Interleaves (filled slots) ∧ Operator.tiers = [[.exponent]] ++ tier :: [[.add, .subtract]] ∧
      4 ≤ slots.length ∧
      (upTo r [[.exponent]] tier 4).run (ofRow r slots none) = .ok () (ofRow r ns none) ∧
      .multiply ∈ tier ∧ ns[4]? = some times ∧
      (applyOperator r tier 4).run (ofRow r ns none) = .ok () (ofRow r ns' none) ∧
      Folded 6 [[.exponent]] tier 4 ns ∧ Folded 6 [[.exponent]] tier 5 ns' ∧
      ∃ s : Site, s.index = 4 ∧ s.row = ns ∧ (∃ v, s.folded v = ns') ∧
        (takeLeft 4).run (ofRow r ns none) = .ok (s.lhs.cell r) (ofRow r s.leftTaken none) := by
  intro r sum times slots ns ns' tier
  have hslots : Interleaves (filled slots) := .chain rfl (.chain rfl (.single rfl))
  have hrun : (upTo r [[.exponent]] tier 4).run (ofRow r slots none) = .ok () (ofRow r ns none) :=
    rfl
  have hfold : (applyOperator r tier 4).run (ofRow r ns none) = .ok () (ofRow r ns' none) := rfl
  obtain ⟨ms, j, hms, hfolded, hops⟩ :=
    (folds_keep_alternation r none hslots (i := 4) rfl (by decide)).2 _ hrun
  obtain ⟨rfl, rfl⟩ := ofRow_injective hms
  obtain ⟨s, -, hindex, hrow, htake, -, hstep⟩ := hops .multiply (by decide) rfl
  obtain ⟨_, _, v, j', -, -, -, hfolds, -, hnext⟩ := hstep _ hfold
  obtain ⟨hv, -⟩ := ofRow_injective hfolds
  rw [← hv] at hnext
  exact ⟨hslots, rfl, by decide, hrun, by decide, rfl, hfold, hfolded, hnext, s, hindex, hrow,
    ⟨v, hv.symm⟩, htake⟩

end Calculator
