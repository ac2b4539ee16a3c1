import Mathlib.Data.List.Forall2
import Calculator.Proofs.Contraction

/-!
# What reduction leaves

The reduction of a node works on it in place, at all levels of nesting. Of what it leaves behind, two
things can be said for every node.

1. After a value, there is nothing left to do: the residue has this value again
   (`Node.ok_residue`). An expression has come down to its value between holes, on which the passes
   do nothing (`Bench.Passes.idle`), so its value no longer depends on the variables
   (`Node.reduce_loneRow`).
2. No expression changes its number of slots. In a row every node stays, or a hole or a literal
   takes its place, or it is a group in which a fault was met (`Node.frays_reduce`), and none of this
   brings an expression of another width anywhere (`Node.keepsWidths_reduce`), by induction on the
   node.
-/

namespace Calculator

open Relation (ReflTransGen)

open Node (holes loneRow)

/-! ## Nothing left to do -/

namespace Bench

/-- A pass does nothing if there is nothing for it to do in any slot. -/
theorem Passes.idle {step : List Slot → Slot → List Slot → Traced Halt Place}
    {pass : List Slot → List Slot → Traced Halt (List Slot)} (h : Passes step pass)
    {before row : List Slot}
    (hidle : ∀ s ∈ row, ∀ before after, step before s after = pure (s :: before, after)) :
    pass before row = pure (before.reverse ++ row) := by
  induction row generalizing before with
  | nil => rw [h.nil, List.append_nil]
  | cons s row ih =>
    obtain ⟨hs, hrow⟩ := List.forall_mem_cons.1 hidle
    rw [h.cons, hs, pure_bind, ih hrow, List.reverse_cons, List.append_assoc]
    rfl

end Bench

namespace Node

variable {vars : Variables}

theorem mem_loneRow {n : Node} {i : Nat} {v : Int} {j : Nat} (h : n ∈ loneRow i v j) :
    n = .hole ∨ n = .literal v := by
  rw [loneRow, List.mem_append, List.mem_cons] at h
  obtain h | h | h := h
  · exact .inl (List.eq_of_mem_replicate h)
  · exact .inr h
  · exact .inl (List.eq_of_mem_replicate h)

/-- What holds of an empty slot and of a literal holds of all slots of a lone row. -/
theorem forall_slot_loneRow {P : Slot → Prop} (hhole : P .empty) (hliteral : ∀ v, P (.literal v))
    {i : Nat} {v : Int} {j : Nat} : ∀ s ∈ (loneRow i v j).map (slot vars), P s := by
  intro s hs
  obtain ⟨n, hn, rfl⟩ := List.mem_map.1 hs
  obtain rfl | rfl := mem_loneRow hn
  · exact hhole
  · exact hliteral v

variable (vars) in
theorem applyTiers_loneRow (tiers : List (List Operator)) (i : Nat) (v : Int) (j : Nat) :
    Bench.applyTiers tiers ((loneRow i v j).map (slot vars)) =
      pure ((loneRow i v j).map (slot vars)) := by
  induction tiers with
  | nil => rfl
  | cons tier tiers ih =>
    have htier : Slot.applyTier tier [] ((loneRow i v j).map (slot vars)) = _ :=
      (Bench.passes_applyTier tier).idle
        (forall_slot_loneRow (fun _ _ => rfl) fun _ _ _ => rfl)
    rw [Bench.applyTiers, List.foldlM_cons, htier, pure_bind]
    exact ih

theorem lone_loneRow (i : Nat) (v : Int) (j : Nat) :
    Slot.lone ((loneRow i v j).map (slot vars)) = .ok v := by
  rw [Slot.lone, filter_isEmpty_map_slot, filled_loneRow]
  rfl

theorem reduceRow_loneRow (i : Nat) (v : Int) (j : Nat) :
    Slot.reduceRow ((loneRow i v j).map (slot vars)) =
      pure (v, (loneRow i v j).map (slot vars)) := by
  have hgroups : Slot.resolveGroups [] ((loneRow i v j).map (slot vars)) = _ :=
    Bench.passes_resolveGroups.idle (forall_slot_loneRow (fun _ _ => rfl) fun _ _ _ => rfl)
  have htiers := applyTiers_loneRow vars Operator.tiers i v j
  have hnames : Slot.resolveNames [] ((loneRow i v j).map (slot vars)) = _ :=
    Bench.passes_resolveNames.idle (forall_slot_loneRow (fun _ _ => rfl) fun _ _ _ => rfl)
  rw [List.reverse_nil, List.nil_append] at hgroups hnames
  rw [Bench.applyTiers] at htiers
  rw [Slot.reduceRow, hgroups, pure_bind, htiers, pure_bind, hnames, pure_bind, lone_loneRow]

/-- A literal between holes has its value at once, whatever the variables are. -/
theorem reduce_loneRow (vars : Variables) (i : Nat) (v : Int) (j : Nat) :
    (expression (loneRow i v j)).reduce vars = ⟨pure v, .expression (loneRow i v j)⟩ := by
  rw [reduce, slotsOf_eq_map, Reduction.ofRow, reduceRow_loneRow]
  exact congrArg (Reduction.mk (pure v) <| expression ·) (map_node_map_slot vars _)

theorem residue_identifier (vars : Variables) (name : String) :
    ((identifier name).reduce vars).residue = .identifier name := by
  rw [reduce, Reduction.lookup]
  cases vars.get? name <;> rfl

/-- After a value, the residue has this value again. -/
theorem ok_residue : ∀ (n : Node) {v : Int}, (n.reduce vars).outcome.result = .ok v →
    ((n.reduce vars).residue.reduce vars).outcome.result = .ok v
  | literal _, _, h => h
  | identifier name, _, h => by rwa [residue_identifier]
  | operator _, _, h => by cases h
  | parenthetical inner, _, h => ok_residue inner h
  | negation inner, v, h => by
    rw [reduce, Traced.result_map] at h
    show ((- ·) <$> ((inner.reduce vars).residue.reduce vars).outcome).result = .ok v
    rw [Traced.result_map]
    cases hinner : (inner.reduce vars).outcome.result with
    | error fault =>
      rw [hinner] at h
      cases h
    | ok w =>
      rw [hinner] at h
      rwa [ok_residue inner hinner]
  | expression slots, v, h => by
    obtain ⟨i, j, hresidue, -⟩ := contracts_of_ok h
    rw [hresidue, reduce_loneRow]
    rfl
  | line _ body, _, h => ok_residue body h
  | bare, _, h => by cases h
  | hole, _, h => by cases h

end Node

/-! ## Widths -/

namespace Node

/-- The nodes right below a node. -/
def children : Node → List Node
  | parenthetical inner => [inner]
  | negation inner => [inner]
  | expression slots => slots
  | line target body => [target, body]
  | _ => []

/-- The number of slots of an expression. -/
def width? : Node → Option Nat
  | expression slots => some slots.length
  | _ => none

/-- The node at the end of a path of child indices. -/
def at? (n : Node) : List Nat → Option Node
  | [] => some n
  | i :: path => (n.children[i]?).bind fun m => m.at? path

/-- Wherever `n'` has an expression, `n` has one with as many slots. -/
def KeepsWidths (n n' : Node) : Prop :=
  ∀ path k, (n'.at? path).bind width? = some k → (n.at? path).bind width? = some k

theorem KeepsWidths.refl (n : Node) : KeepsWidths n n := fun _ _ h => h

theorem keepsWidths_of_children {n n' : Node} (hhead : ∀ k, n'.width? = some k → n.width? = some k)
    (hchildren : List.Forall₂ KeepsWidths n.children n'.children) : KeepsWidths n n' := by
  intro path k h
  cases path with
  | nil => exact hhead k h
  | cons i path =>
    rw [at?] at h ⊢
    generalize n.children = ns at hchildren ⊢
    generalize n'.children = ns' at hchildren h
    induction hchildren generalizing i with
    | nil => simp at h
    | cons hm _ ih =>
      cases i with
      | zero => exact hm path k h
      | succ i => exact ih i h

theorem keepsWidths_hole (n : Node) : KeepsWidths n .hole := by
  intro path k h
  cases path with
  | nil => cases h
  | cons => cases h

theorem keepsWidths_literal (n : Node) (v : Int) : KeepsWidths n (.literal v) := by
  intro path k h
  cases path with
  | nil => cases h
  | cons => cases h

/-- What the passes make of a node in a row. -/
inductive Wears (n : Node) : Node → Prop where
  | same : Wears n n
  | emptied : Wears n .hole
  | valued {v} : Wears n (.literal v)

/-- What a fault makes of a node in a row. -/
inductive Frays (vars : Variables) (n : Node) : Node → Prop where
  | worn {m} : Wears n m → Frays vars n m
  | reduced : Frays vars n (n.reduce vars).residue

variable {vars : Variables}

theorem Wears.trans {n m l : Node} (h : Wears n m) (h' : Wears m l) : Wears n l := by
  cases h' with
  | same => exact h
  | emptied => exact .emptied
  | valued => exact .valued

/-- Of a hole and of a literal, the work leaves what they are. -/
theorem Wears.frays {n m l : Node} (h : Wears n m) (h' : Frays vars m l) : Frays vars n l := by
  cases h' with
  | worn h' => exact .worn (h.trans h')
  | reduced =>
    cases h with
    | same => exact .reduced
    | emptied => exact .worn .emptied
    | valued => exact .worn .valued

theorem Frays.keepsWidths {n m : Node} (h : Frays vars n m)
    (hn : KeepsWidths n (n.reduce vars).residue) : KeepsWidths n m := by
  cases h with
  | worn h =>
    cases h with
    | same => exact .refl n
    | emptied => exact keepsWidths_hole n
    | valued => exact keepsWidths_literal n _
  | reduced => exact hn

/-! ### Rows -/

theorem forall₂_replace {R : Node → Node → Prop} (hrefl : ∀ n, R n n) {n m : Node} (hnm : R n m)
    (before : List Node) {after after' : List Node} (hafter : List.Forall₂ R after after') :
    List.Forall₂ R (before ++ n :: after) (before ++ m :: after') :=
  List.rel_append (List.forall₂_same.2 fun n _ => hrefl n) (.cons hnm hafter)

theorem forall₂_comp {R S T : Node → Node → Prop} (h : ∀ {n m l}, R n m → S m l → T n l)
    {ns ms ls : List Node} (hR : List.Forall₂ R ns ms) (hS : List.Forall₂ S ms ls) :
    List.Forall₂ T ns ls := by
  induction hR generalizing ls with
  | nil =>
    cases hS
    exact .nil
  | cons hnm _ ih =>
    cases hS with
    | cons hml hS => exact .cons (h hnm hml) (ih hS)

end Node

open Node (Wears Frays forall₂_replace forall₂_comp)

theorem Contracts.wears {vars : Variables} {ns ms : List Node} (h : Contracts vars ns ms) :
    List.Forall₂ Wears ns ms := by
  have hrefl (ns : List Node) : List.Forall₂ Wears ns ns := List.forall₂_same.2 fun _ _ => .same
  cases h with
  | settle => exact forall₂_replace (fun _ => .same) .valued _ (hrefl _)
  | operate =>
    refine forall₂_replace (fun _ => .same) .emptied _ ?_
    refine forall₂_replace (fun _ => .same) .valued _ ?_
    exact forall₂_replace (fun _ => .same) .emptied _ (hrefl _)

theorem Breaks.frays {vars : Variables} {ns ms : List Node} (h : Breaks vars ns ms) :
    List.Forall₂ (Frays vars) ns ms := by
  have hsame (n : Node) : Frays vars n n := .worn .same
  have hrefl (ns : List Node) : List.Forall₂ (Frays vars) ns ns :=
    List.forall₂_same.2 fun n _ => hsame n
  cases h with
  | asIs => exact hrefl _
  | group => exact forall₂_replace hsame .reduced _ (hrefl _)
  | left => exact forall₂_replace hsame (.worn .emptied) _ (hrefl _)
  | both =>
    refine forall₂_replace hsame (.worn .emptied) _ ?_
    refine forall₂_replace hsame (hsame _) _ ?_
    exact forall₂_replace hsame (.worn .emptied) _ (hrefl _)

/-- The passes keep a node, or put a hole or a literal in its place. -/
theorem wears_of_contracts {vars : Variables} {ns ms : List Node}
    (h : ReflTransGen (Contracts vars) ns ms) : List.Forall₂ Wears ns ms := by
  induction h with
  | refl => exact List.forall₂_same.2 fun _ _ => .same
  | tail _ hlast ih => exact forall₂_comp (fun h h' => h.trans h') ih hlast.wears

namespace Node

variable {vars : Variables}

/-- What is left of a row, whether it has a value or not. -/
theorem frays_reduce (vars : Variables) (slots : List Node) :
    ∃ out, ((expression slots).reduce vars).residue = .expression out ∧
      List.Forall₂ (Frays vars) slots out := by
  cases hresult : ((expression slots).reduce vars).outcome.result with
  | ok v =>
    obtain ⟨i, j, hresidue, hcontracts⟩ := contracts_of_ok hresult
    exact ⟨_, hresidue, (wears_of_contracts hcontracts).imp fun _ _ h => .worn h⟩
  | error fault =>
    obtain ⟨ms, out, hresidue, hcontracts, hbreaks⟩ := breaks_of_error hresult
    exact ⟨out, hresidue,
      forall₂_comp (fun h h' => h.frays h') (wears_of_contracts hcontracts) hbreaks.frays⟩

mutual

/-- No expression in a node changes its number of slots. -/
theorem keepsWidths_reduce (vars : Variables) :
    ∀ n : Node, KeepsWidths n (n.reduce vars).residue
  | literal _ => .refl _
  | identifier _ => by
    rw [residue_identifier]
    exact .refl _
  | operator _ => .refl _
  | parenthetical inner =>
    keepsWidths_of_children (fun _ h => h) (.cons (keepsWidths_reduce vars inner) .nil)
  | negation inner =>
    keepsWidths_of_children (fun _ h => h) (.cons (keepsWidths_reduce vars inner) .nil)
  | expression slots => by
    obtain ⟨out, hresidue, hfrays⟩ := frays_reduce vars slots
    have hslots := (List.forall₂_and_left _ _).2 ⟨keepsWidths_slots vars slots, hfrays⟩
    rw [hresidue]
    refine keepsWidths_of_children (fun k hk => ?_) ?_
    · rw [width?, hfrays.length_eq]
      exact hk
    · exact hslots.imp fun n m ⟨hn, h⟩ => h.keepsWidths hn
  | line target body =>
    keepsWidths_of_children (fun _ h => h)
      (.cons (.refl target) (.cons (keepsWidths_reduce vars body) .nil))
  | bare => .refl _
  | hole => .refl _

theorem keepsWidths_slots (vars : Variables) :
    ∀ ns : List Node, ∀ n ∈ ns, KeepsWidths n (n.reduce vars).residue
  | [] => nofun
  | n :: ns => List.forall_mem_cons.2 ⟨keepsWidths_reduce vars n, keepsWidths_slots vars ns⟩

end

/-- **What reduction leaves.** After a value, the residue has this value again. If it was that of an
expression then it is the value between holes, as wide as before, and the second reduction takes no
step, whatever the variables are. After a value and after a fault, all expressions that are left
anywhere in the node are as wide as before. -/
theorem reduction_residue (vars : Variables) (n : Node) :
    (∀ v, (n.reduce vars).outcome.result = .ok v →
      ((n.reduce vars).residue.reduce vars).outcome.result = .ok v ∧
      ∀ slots, n = .expression slots → ∃ i j,
        (n.reduce vars).residue = .expression (holes i ++ .literal v :: holes j) ∧
        i + 1 + j = slots.length ∧
        ∀ vars', ((n.reduce vars).residue.reduce vars').outcome = ⟨[], .ok v⟩) ∧
    (∀ path k, ((n.reduce vars).residue.at? path).bind width? = some k →
      (n.at? path).bind width? = some k) := by
  refine ⟨fun v h => ⟨ok_residue n h, ?_⟩, keepsWidths_reduce vars n⟩
  rintro slots rfl
  obtain ⟨i, j, hresidue, hcontracts⟩ := contracts_of_ok h
  have hlength := (wears_of_contracts hcontracts).length_eq
  refine ⟨i, j, hresidue, ?_, fun vars' => ?_⟩
  · rw [hlength, loneRow, List.length_append, List.length_cons, List.length_replicate,
      List.length_replicate]
    omega
  · rw [hresidue, reduce_loneRow]
    rfl

/-- The row of `x + 2 * 3` with a gap in it; and a group that divides by zero, of which the inner row
is left. -/
theorem reduction_residue_gap :
    let vars : Variables := ⟨[("x", 1)], 0⟩
    let row : Node := .expression [.identifier "x", .operator (.known .add), .literal 2, .hole,
      .operator (.known .multiply), .literal 3]
    let group : Node := .parenthetical (.expression [.literal 1, .operator (.known .divide), .hole,
      .literal 0])
    (row.reduce vars).outcome.result = .ok 7 ∧
    (∃ i j, (row.reduce vars).residue = .expression (holes i ++ .literal 7 :: holes j) ∧
      i + 1 + j = 6 ∧
      ∀ vars', ((row.reduce vars).residue.reduce vars').outcome = ⟨[], .ok 7⟩) ∧
    (∃ fault, (group.reduce vars).outcome.result = .error fault) ∧
    ((group.reduce vars).residue.at? [0]).bind width? = some 4 ∧
    (group.at? [0]).bind width? = some 4 := by
  intro vars row group
  have hrow : (row.reduce vars).outcome.result = .ok 7 := by decide +kernel
  have hgroup : (group.reduce vars).outcome.result = .error (.divisionByZero "DIVIDE") := by
    decide +kernel
  have hleft : ((group.reduce vars).residue.at? [0]).bind width? = some 4 := by decide +kernel
  exact ⟨hrow, ((reduction_residue vars row).1 7 hrow).2 _ rfl, ⟨_, hgroup⟩, hleft,
    (reduction_residue vars group).2 [0] 4 hleft⟩

end Node

end Calculator
