import Mathlib.Logic.Relation
import Calculator.Proofs.Bench
import Calculator.Proofs.Rows

/-!
# Contractions

What the work on a row does to its nodes, whatever nodes these are: it *contracts* the row step by
step. Either a node that has a value becomes a literal, or an operator with the nearest filled slots
on both sides does, and these are left empty.

1. A row that is reached from `ns` has the slots of nodes that `ns` contracts to (`Reaches`). What a
   fault leaves is such a row, but for the places that were being worked on (`Breaks`).
2. Work at one index of a pass goes from a row that is reached to one that is
   (`keepsReach_groupStep`, `keepsReach_tierStep`, `keepsReach_nameStep`), hence so does a pass
   (`Passes.ends_reaches`), hence so do all of them (`ends_reduceRow`).

So an expression that has a value contracts to this value between empty slots
(`Node.contracts_of_ok`), and one that has none contracts until a fault (`Node.breaks_of_error`).
-/

namespace Calculator

open Relation (ReflTransGen)

def Node.isHole : Node → Bool
  | hole => true
  | _ => false

/-- The slots that are not empty. -/
def Node.filled (slots : List Node) : List Node := slots.filter fun n => !n.isHole

/-- So many empty slots. -/
abbrev Node.holes (k : Nat) : List Node := List.replicate k .hole

/-- A row of which one literal is left. -/
def Node.loneRow (i : Nat) (v : Int) (j : Nat) : List Node := holes i ++ .literal v :: holes j

/-- A node in a slot of an expression. -/
def Node.slot (vars : Variables) (n : Node) : Slot := ⟨n, fun _ => n.reduce vars⟩

theorem Node.filled_append (ns ms : List Node) : filled (ns ++ ms) = filled ns ++ filled ms :=
  List.filter_append ..

@[simp] theorem Node.filled_hole_cons (ns : List Node) : filled (.hole :: ns) = filled ns := rfl

@[simp] theorem Node.filled_literal_cons (v : Int) (ns : List Node) :
    filled (.literal v :: ns) = .literal v :: filled ns := rfl

@[simp] theorem Node.filled_holes (k : Nat) : filled (holes k) = [] := by
  induction k with
  | zero => rfl
  | succ k ih => exact ih

theorem Node.filled_loneRow (i : Nat) (v : Int) (j : Nat) :
    filled (loneRow i v j) = [literal v] := by
  rw [loneRow, filled_append, filled_holes, filled_literal_cons, filled_holes, List.nil_append]

theorem Node.slotsOf_eq_map (vars : Variables) (ns : List Node) :
    slotsOf vars ns = ns.map (slot vars) := by
  induction ns with
  | nil => rfl
  | cons n ns ih => rw [slotsOf, ih]; rfl

theorem Node.map_node_map_slot (vars : Variables) (ns : List Node) :
    (ns.map (slot vars)).map Slot.node = ns := by
  rw [List.map_map]
  exact List.map_id ns

theorem Node.isEmpty_slot (vars : Variables) (n : Node) : (n.slot vars).isEmpty = n.isHole := by
  cases n <;> rfl

theorem Node.filter_isEmpty_map_slot (vars : Variables) (ns : List Node) :
    ((ns.map (slot vars)).filter fun s => !s.isEmpty) = (filled ns).map (slot vars) := by
  rw [List.filter_map]
  simp only [Function.comp_def, isEmpty_slot]
  rfl

theorem Node.eq_holes {ns : List Node} (h : ∀ n ∈ ns, n.isHole) : ns = holes ns.length := by
  refine List.eq_replicate_of_mem fun n hn => ?_
  have hhole := h n hn
  cases n <;> first | rfl | cases hhole

section Contraction

variable {vars : Variables}

open Node (holes)

/-! ## One contraction -/

variable (vars) in
/-- One contraction. Nothing is said of which one is due. -/
inductive Contracts : List Node → List Node → Prop where
  | settle {before n after v} : (n.reduce vars).outcome.result = .ok v →
      Contracts (before ++ n :: after) (before ++ .literal v :: after)
  | operate {before lhs i op j rhs after x y v} : (lhs.reduce vars).outcome.result = .ok x →
      (rhs.reduce vars).outcome.result = .ok y → op.apply x y = .ok v →
      Contracts (before ++ lhs :: (holes i ++ .operator (.known op) :: (holes j ++ rhs :: after)))
        (before ++ .hole :: (holes i ++ .literal v :: (holes j ++ .hole :: after)))

variable (vars) in
/-- What a fault leaves of a row: a group has been worked on in its place, and the operands of an
operator have been taken out. -/
inductive Breaks : List Node → List Node → Prop where
  | asIs {row} : Breaks row row
  | group {before n after} :
      Breaks (before ++ n :: after) (before ++ (n.reduce vars).residue :: after)
  | left {before lhs after} : Breaks (before ++ lhs :: after) (before ++ .hole :: after)
  | both {before lhs i n j rhs after} :
      Breaks (before ++ lhs :: (holes i ++ n :: (holes j ++ rhs :: after)))
        (before ++ .hole :: (holes i ++ n :: (holes j ++ .hole :: after)))

variable (vars) in
/-- The row has the slots of nodes that `ns` contracts to. -/
def Reaches (ns : List Node) (row : List Slot) : Prop :=
  ∃ ms, row = ms.map (Node.slot vars) ∧ ReflTransGen (Contracts vars) ns ms

variable (vars) in
/-- The work on a row that is reached from `ns` stops. -/
def Stops (ns : List Node) (stop : Halt) : Prop :=
  ∃ ms, ReflTransGen (Contracts vars) ns ms ∧ Breaks vars ms (stop.slots.map Slot.node)

theorem Reaches.refl (ns : List Node) : Reaches vars ns (ns.map (Node.slot vars)) :=
  ⟨ns, rfl, .refl⟩

/-- A row that a fault leaves, with the place of work in it. -/
theorem stops_of_breaks {ns ms bs as : List Node} {s : Slot} {stop : Halt}
    (h : ReflTransGen (Contracts vars) ns ms)
    (hstop : stop.slots = (bs.map (Node.slot vars)).reverse ++ s :: as.map (Node.slot vars))
    (hbreaks : Breaks vars ms (bs.reverse ++ s.node :: as)) : Stops vars ns stop := by
  refine ⟨ms, h, ?_⟩
  rwa [hstop, ← List.map_reverse, List.map_append, List.map_cons, Node.map_node_map_slot,
    Node.map_node_map_slot]

/-- A row that is reached, with the place of work in it. -/
theorem Reaches.exists_place {ns : List Node} {before after : List Slot} {s : Slot}
    (h : Reaches vars ns (before.reverse ++ s :: after)) :
    ∃ (bs : List Node) (n : Node) (as : List Node), before = bs.map (Node.slot vars) ∧
      s = n.slot vars ∧ after = as.map (Node.slot vars) ∧
      ReflTransGen (Contracts vars) ns (bs.reverse ++ n :: as) := by
  obtain ⟨ms, hrow, hcontracts⟩ := h
  obtain ⟨left, right, rfl, hleft, hright⟩ := List.map_eq_append_iff.1 hrow.symm
  obtain ⟨n, as, rfl, rfl, rfl⟩ := List.map_eq_cons_iff.1 hright
  refine ⟨left.reverse, n, as, ?_, rfl, rfl, ?_⟩
  · rw [List.map_reverse, hleft, List.reverse_reverse]
  · rwa [List.reverse_reverse]

theorem Node.ends_run (n : Node) (slots : Node → List Slot) :
    ((n.slot vars).run slots).Ends (fun v => (n.reduce vars).outcome.result = .ok v)
      fun stop => stop.slots = slots (n.reduce vars).residue := by
  rw [Slot.run, slot]
  rcases n.reduce vars with ⟨⟨steps, fault | v⟩, residue⟩ <;> rfl

/-- The slot taken is the first that does not hold a hole. -/
theorem takeNearest?_map_slot {ns : List Node} {taken : Slot} {left : List Slot}
    (h : Slot.takeNearest? (ns.map (Node.slot vars)) = some (taken, left)) :
    ∃ k n rest, ns = holes k ++ n :: rest ∧ taken = n.slot vars ∧
      left = (holes k ++ .hole :: rest).map (Node.slot vars) := by
  induction ns generalizing taken left with
  | nil => cases h
  | cons m ns ih =>
    rw [List.map_cons, Slot.takeNearest?] at h
    split_ifs at h with hm
    · obtain ⟨⟨taken', left'⟩, htake, heq⟩ := Option.map_eq_some_iff.1 h
      obtain ⟨k, n, rest, rfl, htaken, hleft⟩ := ih htake
      obtain rfl : m = .hole := node_of_isEmpty hm
      cases heq
      exact ⟨k + 1, n, rest, rfl, htaken, congrArg (Node.slot vars .hole :: ·) hleft⟩
    · cases h
      exact ⟨0, m, ns, rfl, rfl, rfl⟩

namespace Bench

variable (vars) in
/-- A step goes from rows that are reached to rows that are. -/
def KeepsReach (step : List Slot → Slot → List Slot → Traced Halt Place) : Prop :=
  ∀ ns before s after, Reaches vars ns (before.reverse ++ s :: after) →
    (step before s after).Ends (fun p => Reaches vars ns p.row) (Stops vars ns)

/-- A slot that is left as it is. -/
theorem ends_pure_place {ns : List Node} {before after : List Slot} {s : Slot}
    (h : Reaches vars ns (before.reverse ++ s :: after)) :
    (pure (s :: before, after) : Traced Halt Place).Ends (fun p => Reaches vars ns p.row)
      (Stops vars ns) := by
  show Reaches vars ns ((s :: before).reverse ++ after)
  rwa [List.reverse_cons, List.append_assoc]

/-- The place of work behind a literal. -/
theorem reaches_literal {ns bs as : List Node} {v : Int}
    (h : ReflTransGen (Contracts vars) ns (bs.reverse ++ .literal v :: as)) :
    Reaches vars ns
      (Place.row (.literal v :: bs.map (Node.slot vars), as.map (Node.slot vars))) := by
  refine ⟨_, ?_, h⟩
  rw [Place.row, List.reverse_cons, List.append_assoc, List.map_append, List.map_reverse]
  rfl

theorem keepsReach_groupStep : KeepsReach vars groupStep := by
  intro ns before s after h
  rw [groupStep]
  split_ifs
  · obtain ⟨bs, n, as, rfl, rfl, rfl, hcontracts⟩ := h.exists_place
    refine ((n.ends_run _).mono (fun v hv => hv) fun stop hstop => ?_).bind fun v hv => ?_
    · exact stops_of_breaks hcontracts hstop .group
    · exact reaches_literal (hcontracts.tail (.settle hv))
  · exact ends_pure_place h

theorem keepsReach_nameStep : KeepsReach vars nameStep := by
  intro ns before s after h
  rw [nameStep]
  split_ifs
  · obtain ⟨bs, n, as, rfl, rfl, rfl, hcontracts⟩ := h.exists_place
    refine ((n.ends_run _).mono (fun v hv => hv) fun stop hstop => ?_).bind fun v hv => ?_
    · exact stops_of_breaks hcontracts hstop .asIs
    · exact reaches_literal (hcontracts.tail (.settle hv))
  · exact ends_pure_place h

/-- The nearest filled slot of the reversed row, with the row turned back. -/
theorem reverse_holes_append (k : Nat) (n : Node) (rest row : List Node) :
    (holes k ++ n :: rest).reverse ++ row = rest.reverse ++ n :: (holes k ++ row) := by
  simp

theorem ends_operate {ns bs as : List Node} {op : Operator}
    (h : ReflTransGen (Contracts vars) ns (bs.reverse ++ .operator (.known op) :: as)) :
    (Slot.operate op (Node.slot vars (.operator (.known op))) (bs.map (Node.slot vars))
      (as.map (Node.slot vars))).Ends
      (fun done => Reaches vars ns (Place.row (.literal done.value :: done.before, done.after)))
      (Stops vars ns) := by
  unfold Slot.operate
  split
  · exact stops_of_breaks h rfl .asIs
  next left before' hleft =>
  obtain ⟨i, lhs, bs', rfl, rfl, rfl⟩ := takeNearest?_map_slot hleft
  rw [reverse_holes_append] at h
  have hemptied : Breaks vars (bs'.reverse ++ lhs :: (holes i ++ .operator (.known op) :: as))
      ((holes i ++ .hole :: bs').reverse ++ .operator (.known op) :: as) := by
    rw [reverse_holes_append]
    exact .left
  refine ((lhs.ends_run _).mono (fun x hx => hx) fun stop hstop =>
    stops_of_breaks h hstop hemptied).bind fun x hx => ?_
  split
  · exact stops_of_breaks h rfl hemptied
  next right after' hright =>
  obtain ⟨j, rhs, as', rfl, rfl, rfl⟩ := takeNearest?_map_slot hright
  have hboth : Breaks vars
      (bs'.reverse ++ lhs :: (holes i ++ .operator (.known op) :: (holes j ++ rhs :: as')))
      ((holes i ++ .hole :: bs').reverse ++ .operator (.known op) :: (holes j ++ .hole :: as')) := by
    rw [reverse_holes_append]
    exact .both
  refine ((rhs.ends_run _).mono (fun y hy => hy) fun stop hstop =>
    stops_of_breaks h hstop hboth).bind fun y hy => ?_
  cases hv : op.apply x y with
  | error fault => exact stops_of_breaks h rfl hboth
  | ok v =>
    refine reaches_literal ?_
    rw [reverse_holes_append]
    exact h.tail (.operate hx hy hv)

theorem keepsReach_tierStep (tier : List Operator) : KeepsReach vars (tierStep tier) := by
  intro ns before s after h
  rw [tierStep]
  cases hs : s.operatorIn? tier with
  | none => exact ends_pure_place h
  | some op =>
    obtain ⟨bs, n, as, rfl, rfl, rfl, hcontracts⟩ := h.exists_place
    obtain rfl : n = .operator (.known op) := node_of_operatorIn? hs
    exact (ends_operate hcontracts).bind fun done hdone => hdone

/-! ## Whole passes -/

theorem Passes.ends_reaches {step : List Slot → Slot → List Slot → Traced Halt Place}
    {pass : List Slot → List Slot → Traced Halt (List Slot)} (h : Passes step pass)
    (hstep : KeepsReach vars step) {ns : List Node} {before row : List Slot}
    (hrow : Reaches vars ns (before.reverse ++ row)) :
    (pass before row).Ends (Reaches vars ns) (Stops vars ns) := by
  induction hn : row.length generalizing before row with
  | zero =>
    obtain rfl := List.length_eq_zero_iff.1 hn
    rw [List.append_nil] at hrow
    rw [h.nil]
    exact hrow
  | succ n ih =>
    obtain ⟨s, after, rfl⟩ := List.exists_cons_of_length_eq_add_one hn
    rw [h.cons]
    have hplace := ((h.moves before s after).and (hstep ns before s after hrow)).mono
      (fun _ hp => hp) fun _ hstop => hstop.2
    exact hplace.bind fun p ⟨⟨_, hafter⟩, hreaches⟩ => ih hreaches (hafter.trans (Nat.succ.inj hn))

theorem ends_applyTiers (tiers : List (List Operator)) {ns : List Node} {row : List Slot}
    (hrow : Reaches vars ns row) :
    (applyTiers tiers row).Ends (Reaches vars ns) (Stops vars ns) := by
  induction tiers generalizing row with
  | nil => exact hrow
  | cons tier tiers ih =>
    rw [applyTiers, List.foldlM_cons]
    have htier : (Slot.applyTier tier [] row).Ends (Reaches vars ns) (Stops vars ns) :=
      (passes_applyTier tier).ends_reaches (keepsReach_tierStep tier) hrow
    exact htier.bind fun row hrow => ih hrow

end Bench

/-! ## The value of a row -/

/-- The row that is left has a single literal in it. -/
theorem lone_map_slot {ms : List Node} {v : Int}
    (h : Slot.lone (ms.map (Node.slot vars)) = .ok v) : ∃ i j, ms = Node.loneRow i v j := by
  rw [Slot.lone, Node.filter_isEmpty_map_slot] at h
  rcases hlone : Node.filled ms with _ | ⟨n, _ | ⟨m, rest⟩⟩ <;> rw [hlone] at h
  · cases h
  · obtain rfl : n = .literal v := by cases n <;> cases h; rfl
    obtain ⟨left, right, rfl, hleft, -, hright⟩ := List.filter_eq_cons_iff.1 hlone
    refine ⟨left.length, right.length, ?_⟩
    rw [Node.loneRow, ← Node.eq_holes (by simpa using hleft),
      ← Node.eq_holes (by simpa using hright)]
  · cases h

variable (vars) in
theorem ends_reduceRow (ns : List Node) :
    (Slot.reduceRow (ns.map (Node.slot vars))).Ends
      (fun out => ∃ i j, out.2 = (Node.loneRow i out.1 j).map (Node.slot vars) ∧
        ReflTransGen (Contracts vars) ns (Node.loneRow i out.1 j))
      (Stops vars ns) := by
  have hgroups : (Slot.resolveGroups [] (ns.map (Node.slot vars))).Ends (Reaches vars ns)
      (Stops vars ns) :=
    Bench.passes_resolveGroups.ends_reaches Bench.keepsReach_groupStep (.refl ns)
  refine hgroups.bind fun row hrow => ?_
  refine (Bench.ends_applyTiers Operator.tiers hrow).bind fun row hrow => ?_
  have hnames : (Slot.resolveNames [] row).Ends (Reaches vars ns) (Stops vars ns) :=
    Bench.passes_resolveNames.ends_reaches Bench.keepsReach_nameStep hrow
  refine hnames.bind fun row hrow => ?_
  obtain ⟨ms, rfl, hcontracts⟩ := hrow
  cases hlone : Slot.lone (ms.map (Node.slot vars)) with
  | ok v =>
    obtain ⟨i, j, rfl⟩ := lone_map_slot hlone
    exact ⟨i, j, rfl, hcontracts⟩
  | error d =>
    refine ⟨ms, hcontracts, ?_⟩
    show Breaks vars ms ((ms.map (Node.slot vars)).map Slot.node)
    rw [Node.map_node_map_slot]
    exact .asIs

theorem Node.contracts_of_ok {slots : List Node} {v : Int}
    (h : ((expression slots).reduce vars).outcome.result = .ok v) :
    ∃ i j, ((expression slots).reduce vars).residue = .expression (loneRow i v j) ∧
      ReflTransGen (Contracts vars) slots (loneRow i v j) := by
  have hrow := ends_reduceRow vars slots
  rw [reduce, slotsOf_eq_map, Reduction.ofRow] at h ⊢
  generalize Slot.reduceRow (slots.map (slot vars)) = x at hrow h ⊢
  obtain ⟨steps, stop | ⟨w, row⟩⟩ := x
  · cases h
  · cases h
    obtain ⟨i, j, hrow, hcontracts⟩ := hrow
    refine ⟨i, j, ?_, hcontracts⟩
    show expression (row.map Slot.node) = _
    rw [show row = _ from hrow, map_node_map_slot]

theorem Node.breaks_of_error {slots : List Node} {fault : Fault}
    (h : ((expression slots).reduce vars).outcome.result = .error fault) :
    ∃ ms out, ((expression slots).reduce vars).residue = .expression out ∧
      ReflTransGen (Contracts vars) slots ms ∧ Breaks vars ms out := by
  have hrow := ends_reduceRow vars slots
  rw [reduce, slotsOf_eq_map, Reduction.ofRow] at h ⊢
  generalize Slot.reduceRow (slots.map (slot vars)) = x at hrow h ⊢
  obtain ⟨steps, stop | ⟨w, row⟩⟩ := x
  · obtain ⟨ms, hcontracts, hbreaks⟩ := hrow
    exact ⟨ms, _, rfl, hcontracts, hbreaks⟩
  · cases h

/-- A formula that has a value leaves this value between empty slots. -/
theorem Formula.residue_reduce {f : Formula} {v : Int}
    (h : (f.node.reduce vars).outcome.result = .ok v) :
    ∃ j k, (f.node.reduce vars).residue =
      .expression (List.replicate j .hole ++ .literal v :: List.replicate k .hole) := by
  obtain ⟨j, k, hresidue, -⟩ := Node.contracts_of_ok h
  exact ⟨j, k, hresidue⟩

end Contraction

end Calculator
