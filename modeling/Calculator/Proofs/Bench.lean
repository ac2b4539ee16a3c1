import Mathlib.Data.List.Basic
import Calculator.Bench
import Calculator.Session
import Calculator.Proofs.Traced

/-!
# Reduction on a bench

Reducing a node on a bench comes to the same as reducing it as a value: the same result and the same
residue, and the journal has all steps in it, if there is one (`Node.work_eq`).

1. The slots before the place of work are kept in reverse, and on a bench all slots stand in order
   (`Bench.around`); reading, putting and taking a slot agree.
2. Work at one index of a pass shows on the bench what one step of the pass tells (`Bench.Shows`),
   so a whole pass does (`Bench.Passes.run_forM`), by induction on the slots still to come.
3. Passes follow each other (`Bench.run_reduceRow`), and nodes contain each other.
-/

namespace Calculator

/-- Records all steps, one after the other. -/
def Recorder.enter (r : Recorder) (j : Option Journal) (steps : List Step) : Option Journal :=
  steps.foldl r.record j

theorem Recorder.enter_append (r : Recorder) (j : Option Journal) (steps steps' : List Step) :
    r.enter j (steps ++ steps') = r.enter (r.enter j steps) steps' := List.foldl_append

/-- How the work on a node ends if it comes to the reduction. -/
def Reduction.ending (r : Recorder) (x : Reduction) (j : Option Journal) : Ending :=
  ⟨x.outcome.result, x.residue, r.enter j x.outcome.steps⟩

namespace Slot

/-- What a slot is on a bench. -/
def cell (r : Recorder) (s : Slot) : Cell := ⟨s.node, (s.reduce ()).ending r⟩

theorem cell_empty (r : Recorder) : empty.cell r = Cell.empty := rfl

theorem cell_literal (r : Recorder) (v : Int) : (literal v).cell r = Cell.literal v := rfl

theorem isEmpty_cell (r : Recorder) (s : Slot) : (s.cell r).isEmpty = s.isEmpty := rfl

theorem isGroup_cell (r : Recorder) (s : Slot) : (s.cell r).isGroup = s.isGroup := rfl

theorem isName_cell (r : Recorder) (s : Slot) : (s.cell r).isName = s.isName := rfl

theorem operatorIn?_cell (r : Recorder) (tier : List Operator) (s : Slot) :
    (s.cell r).operatorIn? tier = s.operatorIn? tier := rfl

end Slot

namespace Bench

open Slot (cell_empty cell_literal)

variable {r : Recorder} {α β γ δ : Type}

theorem run_bind_ok {x : Work α} {f : α → Work β} {b b' : Bench} {a : α}
    (h : x.run b = .ok a b') : (x >>= f).run b = (f a).run b' := by
  rw [EStateM.run_bind, h]

theorem run_bind_error {x : Work α} {f : α → Work β} {b b' : Bench} {e : Fault}
    (h : x.run b = .error e b') : (x >>= f).run b = .error e b' := by
  rw [EStateM.run_bind, h]

theorem run_get (b : Bench) : (get : Work Bench).run b = .ok b b := rfl

/-! ## The place of work -/

/-- The bench with the given slots before the place of work, in reverse, and from there on. -/
def around (r : Recorder) (before after : List Slot) (j : Option Journal) : Bench :=
  ⟨(before.reverse ++ after).map (Slot.cell r), j⟩

theorem around_cons (s : Slot) (before after : List Slot) (j : Option Journal) :
    around r (s :: before) after j = around r before (s :: after) j := by
  rw [around, List.reverse_cons, List.append_assoc]
  rfl

theorem run_cell_around (s : Slot) (before after : List Slot) (j : Option Journal) :
    (cell before.length).run (around r before (s :: after) j) =
      .ok (s.cell r) (around r before (s :: after) j) := by
  have hget : ((before.reverse ++ s :: after).map (Slot.cell r)).getD before.length .empty =
      s.cell r := by
    simp [List.getD]
  exact congrArg (EStateM.Result.ok · _) hget

theorem run_put_around {c : Cell} (s t : Slot) (hc : t.cell r = c) (before after : List Slot)
    (j : Option Journal) :
    (put before.length c).run (around r before (s :: after) j) =
      .ok () (around r before (t :: after) j) := by
  have hset : ((before.reverse ++ s :: after).map (Slot.cell r)).set before.length c =
      (before.reverse ++ t :: after).map (Slot.cell r) := by
    simp [hc]
  exact congrArg (fun row => EStateM.Result.ok () (Bench.mk row j)) hset

theorem run_takeLeft_around (before after : List Slot) (j : Option Journal) :
    (takeLeft before.length).run (around r before after j) =
      match Slot.takeNearest? before with
      | none => .error (.malformed .noLeftOperand) (around r before after j)
      | some (s, left) => .ok (s.cell r) (around r left after j) := by
  induction before generalizing after with
  | nil => rfl
  | cons s before ih =>
    rw [around_cons, List.length_cons, takeLeft, run_bind_ok (run_cell_around s before after j),
      Slot.takeNearest?, Slot.isEmpty_cell]
    split_ifs with hs
    · rw [ih]
      rcases Slot.takeNearest? before with _ | ⟨taken, left⟩
      · rfl
      · simp only [Option.map_some, around_cons]
    · rw [run_bind_ok (run_put_around s .empty (cell_empty r) before after j), ← around_cons]
      rfl

theorem run_takeRight_around (before after : List Slot) (j : Option Journal) :
    (takeRight before.length after.length).run (around r before after j) =
      match Slot.takeNearest? after with
      | none => .error (.malformed .noRightOperand) (around r before after j)
      | some (s, left) => .ok (s.cell r) (around r before left j) := by
  induction after generalizing before with
  | nil => rfl
  | cons s after ih =>
    rw [List.length_cons, takeRight, run_bind_ok (run_cell_around s before after j),
      Slot.takeNearest?, Slot.isEmpty_cell]
    split_ifs with hs
    · have hnext := ih (s :: before)
      rw [around_cons, List.length_cons] at hnext
      rw [hnext]
      rcases Slot.takeNearest? after with _ | ⟨taken, left⟩
      · rfl
      · simp only [Option.map_some, around_cons]
    · rw [run_bind_ok (run_put_around s .empty (cell_empty r) before after j)]
      rfl

/-! ## One piece of work -/

/-- How work ends on the bench if it does what is told in the traced computation, with the value and
the row that its result stands for. -/
def showing (r : Recorder) (j : Option Journal) (x : Traced Halt α) (value : α → β)
    (row : α → List Slot) : EStateM.Result Fault Bench β :=
  match x.result with
  | .ok a => .ok (value a) ⟨(row a).map (Slot.cell r), r.enter j x.steps⟩
  | .error stop => .error stop.fault ⟨stop.slots.map (Slot.cell r), r.enter j x.steps⟩

theorem run_bind_showing {w : Work β} {w' : β → Work δ} {b : Bench} {j : Option Journal}
    {x : Traced Halt α} {g : α → Traced Halt γ} {value : α → β} {row : α → List Slot}
    {value' : γ → δ} {row' : γ → List Slot} (hw : w.run b = showing r j x value row)
    (hw' : ∀ a, x.result = .ok a → ∀ j, (w' (value a)).run ⟨(row a).map (Slot.cell r), j⟩ =
      showing r j (g a) value' row') :
    (w >>= w').run b = showing r j (x >>= g) value' row' := by
  obtain ⟨steps, stop | a⟩ := x
  · rw [run_bind_error hw]
    rfl
  · rw [run_bind_ok hw, hw' a rfl, Traced.bind_ok, showing, showing, r.enter_append]

theorem run_run_cell (s : Slot) {row : List Slot} {keep : Node → List Cell → List Cell}
    {slots : Node → List Slot} (j : Option Journal)
    (hkeep : ∀ residue, keep residue (row.map (Slot.cell r)) = (slots residue).map (Slot.cell r)) :
    (run (s.cell r) keep).run ⟨row.map (Slot.cell r), j⟩ =
      showing r j (s.run slots) (fun v => v) fun _ => slots (s.reduce ()).residue := by
  unfold Slot.run
  rcases hreduce : s.reduce () with ⟨⟨steps, fault | v⟩, residue⟩ <;>
    simp only [EStateM.run, run, Slot.cell, hreduce, Reduction.ending, hkeep] <;> rfl

theorem run_lift (x : Except Fault α) (row : List Slot) (j : Option Journal) :
    (lift x).run ⟨row.map (Slot.cell r), j⟩ =
      showing r j ((Traced.lift x).mapError fun fault => ⟨fault, row⟩) (fun a => a)
        fun _ => row := by
  cases x <;> rfl

/-- Work on a place ends with a literal in it, and with a step. -/
theorem run_settle (before after : List Slot) (s : Slot) (v : Int) (step : Step)
    (j : Option Journal) :
    (do put before.length (.literal v); log r step : Work Unit).run
        (around r before (s :: after) j) =
      .ok () (around r (.literal v :: before) after (r.enter j [step])) := by
  rw [run_bind_ok (run_put_around s (.literal v) (cell_literal r v) before after j), around_cons]
  rfl

/-! ## One index of a pass

A pass goes from slot to slot; what it does at one is told with the slots before and after the next
place of work. -/

/-- The rows before and after a place of work. -/
abbrev Place := List Slot × List Slot

def Place.row (p : Place) : List Slot := p.1.reverse ++ p.2

/-- The slot of a group becomes a literal. -/
def groupStep (before : List Slot) (s : Slot) (after : List Slot) : Traced Halt Place :=
  if s.isGroup then do
    let v ← s.run fun residue => before.reverse ++ { s with node := residue } :: after
    .emit (.group before.length v)
    pure (.literal v :: before, after)
  else pure (s :: before, after)

def tierStep (tier : List Operator) (before : List Slot) (s : Slot) (after : List Slot) :
    Traced Halt Place :=
  match s.operatorIn? tier with
  | none => pure (s :: before, after)
  | some op => do
    let done ← Slot.operate op s before after
    pure (.literal done.value :: done.before, done.after)

def nameStep (before : List Slot) (s : Slot) (after : List Slot) : Traced Halt Place :=
  if s.isName then do
    let v ← s.run fun _ => before.reverse ++ s :: after
    pure (.literal v :: before, after)
  else pure (s :: before, after)

/-- What the work at one index comes to. -/
def Shows (r : Recorder) (work : Nat → Work Unit)
    (step : List Slot → Slot → List Slot → Traced Halt Place) : Prop :=
  ∀ before s after j, (work before.length).run (around r before (s :: after) j) =
    showing r j (step before s after) (fun _ => ()) Place.row

/-- A slot that is left as it is. -/
theorem run_pure_around (s : Slot) (before after : List Slot) (j : Option Journal) :
    (pure () : Work Unit).run (around r before (s :: after) j) =
      showing r j (pure (s :: before, after)) (fun _ => ()) Place.row := by
  rw [← around_cons]
  rfl

theorem shows_resolveGroup : Shows r (resolveGroup r) groupStep := by
  intro before s after j
  rw [resolveGroup, run_bind_ok (run_cell_around s before after j), groupStep,
    Slot.isGroup_cell]
  split_ifs with hs
  · refine run_bind_showing (run_run_cell s j fun residue => ?_) fun v _ j => ?_
    · simp [Slot.cell]
    · exact run_settle before after _ v _ j
  · exact run_pure_around s before after j

theorem shows_resolveName : Shows r resolveName nameStep := by
  intro before s after j
  rw [resolveName, run_bind_ok (run_cell_around s before after j), nameStep,
    Slot.isName_cell]
  split_ifs with hs
  · refine run_bind_showing (run_run_cell s j fun _ => rfl) fun v _ j => ?_
    exact (run_put_around s _ (cell_literal r v) before after j).trans (by rw [← around_cons]; rfl)
  · exact run_pure_around s before after j

/-- The right operand is looked for in all of the row that follows. -/
theorem run_takeRight_rest (s : Slot) (before after : List Slot) (j : Option Journal) :
    (do takeRight (before.length + 1) ((← get).row.length - (before.length + 1)) : Work Cell).run
        (around r before (s :: after) j) =
      match Slot.takeNearest? after with
      | none => .error (.malformed .noRightOperand) (around r before (s :: after) j)
      | some (taken, left) => .ok (taken.cell r) (around r before (s :: left) j) := by
  have hright := run_takeRight_around (r := r) (s :: before) after j
  have hlength : (around r before (s :: after) j).row.length - (before.length + 1) =
      after.length := by
    simp only [around, List.length_map, List.length_append, List.length_reverse, List.length_cons]
    omega
  rw [around_cons, List.length_cons, ← hlength] at hright
  refine Eq.trans ?_ (hright.trans ?_)
  · rfl
  · cases Slot.takeNearest? after <;> simp only [around_cons]

theorem shows_applyOperator (tier : List Operator) :
    Shows r (applyOperator r tier) (tierStep tier) := by
  intro before s after j
  rw [applyOperator, run_bind_ok (run_cell_around s before after j), tierStep,
    Slot.operatorIn?_cell]
  cases s.operatorIn? tier with
  | none => exact run_pure_around s before after j
  | some op =>
    have hleft := run_takeLeft_around (r := r) before (s :: after) j
    simp only [Slot.operate]
    split
    · next hnone =>
      rw [hnone] at hleft
      rw [run_bind_error hleft]
      rfl
    · next left before' hsome =>
      -- The left operand's slot is emptied and not removed, so the index stays right.
      have hbefore := Slot.length_of_takeNearest? hsome
      rw [hsome] at hleft
      rw [run_bind_ok hleft, bind_assoc]
      refine run_bind_showing (run_run_cell left j fun _ => rfl) fun lhs _ j => ?_
      have hright := run_takeRight_rest (r := r) s before' after j
      rw [hbefore] at hright
      rw [← bind_assoc]
      split
      · next hnone =>
        rw [hnone] at hright
        exact run_bind_error hright
      · next right after' hsome =>
        rw [hsome] at hright
        refine (run_bind_ok hright).trans ?_
        rw [bind_assoc]
        refine run_bind_showing (run_run_cell right j fun _ => rfl) fun rhs _ j => ?_
        rw [bind_assoc]
        refine run_bind_showing (run_lift _ _ j) fun v _ j => ?_
        rw [← hbefore]
        exact run_settle before' after' s v _ j

/-! ## Whole passes -/

/-- Going through a row with `step` leaves what `pass` tells; steps neither lengthen nor shorten the
row. -/
structure Passes (step : List Slot → Slot → List Slot → Traced Halt Place)
    (pass : List Slot → List Slot → Traced Halt (List Slot)) : Prop where
  nil : ∀ before, pass before [] = pure before.reverse
  cons : ∀ before s after, pass before (s :: after) = step before s after >>= fun p => pass p.1 p.2
  moves : ∀ before s after, (step before s after).Ends
    (fun p => p.1.length = before.length + 1 ∧ p.2.length = after.length) fun _ => True

theorem passes_resolveGroups : Passes groupStep Slot.resolveGroups where
  nil _ := rfl
  cons before s after := by
    rw [Slot.resolveGroups, groupStep]
    split_ifs
    · simp only [bind_assoc, pure_bind]
    · rw [pure_bind]
  moves before s after := by
    rw [groupStep]
    split_ifs
    · exact (Traced.ends_true _).bind fun v _ => (Traced.ends_true _).bind fun _ _ => ⟨rfl, rfl⟩
    · exact ⟨rfl, rfl⟩

theorem passes_resolveNames : Passes nameStep Slot.resolveNames where
  nil _ := rfl
  cons before s after := by
    rw [Slot.resolveNames, nameStep]
    split_ifs
    · simp only [bind_assoc, pure_bind]
    · rw [pure_bind]
  moves before s after := by
    rw [nameStep]
    split_ifs
    · exact (Traced.ends_true _).bind fun v _ => ⟨rfl, rfl⟩
    · exact ⟨rfl, rfl⟩

theorem length_before_operate (op : Operator) (s : Slot) (before after : List Slot) :
    (Slot.operate op s before after).Ends (fun done => done.before.length = before.length)
      fun _ => True := by
  unfold Slot.operate
  split
  · trivial
  · next left before' hleft =>
    refine (Traced.ends_true _).bind fun lhs _ => ?_
    split
    · trivial
    · exact (Traced.ends_true _).bind fun rhs _ => (Traced.ends_true _).bind fun v _ =>
        (Traced.ends_true _).bind fun _ _ => Slot.length_of_takeNearest? hleft

theorem passes_applyTier (tier : List Operator) : Passes (tierStep tier) (Slot.applyTier tier) where
  nil before := by rw [Slot.applyTier]
  cons before s after := by
    rw [Slot.applyTier, tierStep]
    cases s.operatorIn? tier with
    | none => rw [pure_bind]
    | some op => simp only [bind_assoc, pure_bind]
  moves before s after := by
    rw [tierStep]
    cases s.operatorIn? tier with
    | none => exact ⟨rfl, rfl⟩
    | some op =>
      exact (length_before_operate op s before after).bind fun done hlength =>
        ⟨congrArg (· + 1) hlength, done.length_after⟩

namespace Passes

variable {step : List Slot → Slot → List Slot → Traced Halt Place}
  {pass : List Slot → List Slot → Traced Halt (List Slot)}

theorem length (h : Passes step pass) (before row : List Slot) :
    (pass before row).Ends (fun out => out.length = before.length + row.length)
      fun _ => True := by
  induction hn : row.length generalizing before row with
  | zero =>
    obtain rfl := List.length_eq_zero_iff.1 hn
    rw [h.nil]
    exact List.length_reverse
  | succ n ih =>
    obtain ⟨s, after, rfl⟩ := List.exists_cons_of_length_eq_add_one hn
    rw [h.cons]
    refine (h.moves before s after).bind fun p ⟨hbefore, hafter⟩ => ?_
    have hrest := ih p.1 p.2 (hafter.trans (Nat.succ.inj hn))
    refine hrest.mono (fun out hout => ?_) fun _ _ => trivial
    omega

/-- A whole pass on the bench, by induction on the number of slots that are still to come. -/
theorem run_forM (h : Passes step pass) {work : Nat → Work Unit} (hwork : Shows r work step)
    (before row : List Slot) (j : Option Journal) :
    ((List.range' before.length row.length).forM work).run (around r before row j) =
      showing r j (pass before row) (fun _ => ()) fun out => out := by
  induction hn : row.length generalizing before row j with
  | zero =>
    obtain rfl := List.length_eq_zero_iff.1 hn
    rw [h.nil, around, List.append_nil]
    rfl
  | succ n ih =>
    obtain ⟨s, after, rfl⟩ := List.exists_cons_of_length_eq_add_one hn
    rw [h.cons, List.range'_succ]
    show (work before.length >>= fun _ => (List.range' (before.length + 1) n).forM work).run _ = _
    refine run_bind_showing (hwork before s after j) fun p hp j => ?_
    obtain ⟨hbefore, hafter⟩ := (h.moves before s after).ok hp
    rw [← hbefore]
    exact ih p.1 p.2 j (hafter.trans (Nat.succ.inj hn))

/-- A pass over all indices of a row. -/
theorem run_range (h : Passes step pass) {work : Nat → Work Unit} (hwork : Shows r work step)
    (row : List Slot) (j : Option Journal) :
    ((List.range row.length).forM work).run ⟨row.map (Slot.cell r), j⟩ =
      showing r j (pass [] row) (fun _ => ()) fun out => out := by
  rw [List.range_eq_range']
  exact h.run_forM hwork [] row j

theorem length_of_ok (h : Passes step pass) {row out : List Slot}
    (hout : (pass [] row).result = .ok out) : out.length = row.length := by
  have hlength := (h.length [] row).ok hout
  rwa [List.length_nil, Nat.zero_add] at hlength

end Passes

/-! ## The value of a row -/

def applyTiers (tiers : List (List Operator)) (row : List Slot) : Traced Halt (List Slot) :=
  tiers.foldlM (fun row tier => Slot.applyTier tier [] row) row

theorem length_applyTiers (tiers : List (List Operator)) (row : List Slot) :
    (applyTiers tiers row).Ends (fun out => out.length = row.length) fun _ => True := by
  induction tiers generalizing row with
  | nil => rfl
  | cons tier tiers ih =>
    rw [applyTiers, List.foldlM_cons]
    refine ((passes_applyTier tier).length [] row).bind fun out hout => ?_
    refine (ih out).mono (fun out' hout' => ?_) fun _ _ => trivial
    rw [hout', hout, List.length_nil, Nat.zero_add]

theorem run_tiers (tiers : List (List Operator)) (row : List Slot) (j : Option Journal) :
    (tiers.forM fun tier => (List.range row.length).forM (applyOperator r tier)).run
        ⟨row.map (Slot.cell r), j⟩ =
      showing r j (applyTiers tiers row) (fun _ => ()) fun out => out := by
  induction tiers generalizing row j with
  | nil => rfl
  | cons tier tiers ih =>
    have hpass := passes_applyTier tier
    rw [applyTiers, List.foldlM_cons]
    refine run_bind_showing (hpass.run_range (shows_applyOperator tier) row j) fun out hout j => ?_
    rw [← hpass.length_of_ok hout]
    exact ih out j

theorem filter_isEmpty_map_cell (row : List Slot) :
    (row.map (Slot.cell r)).filter (fun c => !c.isEmpty) =
      (row.filter fun s => !s.isEmpty).map (Slot.cell r) := List.filter_map

theorem run_lone (row : List Slot) (j : Option Journal) :
    lone.run ⟨row.map (Slot.cell r), j⟩ =
      match Slot.lone row with
      | .ok v => .ok v ⟨row.map (Slot.cell r), j⟩
      | .error d => .error (.malformed d) ⟨row.map (Slot.cell r), j⟩ := by
  rw [lone, run_bind_ok (run_get _), filter_isEmpty_map_cell, Slot.lone]
  generalize row.filter (fun s => !s.isEmpty) = filled
  match filled with
  | [] => rfl
  | [⟨node, _⟩] => cases node <;> rfl
  | s :: t :: rest =>
    simp only [List.map_cons, List.length_cons, List.length_map]
    rfl

theorem run_reduceRow (row : List Slot) (j : Option Journal) :
    (reduceRow r).run ⟨row.map (Slot.cell r), j⟩ =
      showing r j (Slot.reduceRow row) Prod.fst Prod.snd := by
  rw [reduceRow, run_bind_ok (run_get _), Slot.reduceRow, List.length_map]
  refine run_bind_showing (passes_resolveGroups.run_range shows_resolveGroup row j)
    fun row hgroups j => ?_
  rw [← passes_resolveGroups.length_of_ok hgroups]
  refine run_bind_showing (run_tiers Operator.tiers row j) fun row htiers j => ?_
  rw [← (length_applyTiers Operator.tiers _).ok htiers]
  refine run_bind_showing (passes_resolveNames.run_range shows_resolveName row j)
    fun row _ j => ?_
  rw [run_lone]
  cases Slot.lone row <;> rfl

/-- The work on a row leaves the expression that the reduction tells. -/
theorem ending_reduceRow (row : List Slot) (j : Option Journal) :
    ending (reduceRow r) ⟨row.map (Slot.cell r), j⟩ = (Reduction.ofRow row).ending r j := by
  have hrun : reduceRow r ⟨row.map (Slot.cell r), j⟩ = _ := run_reduceRow row j
  have hnodes (slots : List Slot) : (slots.map (Slot.cell r)).map Cell.node = slots.map Slot.node :=
    List.map_map
  rw [ending, hrun, Reduction.ofRow]
  rcases Slot.reduceRow row with ⟨steps, stop | ⟨v, slots⟩⟩
  · simp only [showing, hnodes]
    rfl
  · simp only [showing, hnodes]
    rfl

end Bench

namespace Node

mutual

/-- **Reduction on a bench.** The work on a node ends with the result and the residue of its
reduction, and the journal has its steps in it. -/
theorem work_eq (r : Recorder) : (n : Node) → ∀ j, n.work r j = (n.reduce r.vars).ending r j
  | literal v, j => rfl
  | identifier name, j => by
    rw [work, reduce, Reduction.lookup]
    cases r.vars.get? name <;> rfl
  | operator kind, j => rfl
  | parenthetical inner, j => by
    rw [work, reduce, work_eq r inner]
    rfl
  | negation inner, j => by
    rw [work, reduce, work_eq r inner]
    rcases inner.reduce r.vars with ⟨⟨steps, fault | v⟩, residue⟩
    · rfl
    · simp [Reduction.ending, Except.map, Functor.map]
  | expression slots, j => by
    rw [work, reduce, cells_eq r slots]
    exact Bench.ending_reduceRow _ j
  | line target body, j => by
    rw [work, reduce, work_eq r body]
    rfl
  | bare, j => rfl
  | hole, j => rfl

theorem cells_eq (r : Recorder) :
    (ns : List Node) → cells r ns = (slotsOf r.vars ns).map (Slot.cell r)
  | [] => rfl
  | n :: ns => by
    rw [cells, slotsOf, List.map_cons, cells_eq r ns]
    exact congrArg (fun f => Cell.mk n f :: _) (funext (work_eq r n))

end

end Node

/-- A session enters steps as a recorder does. -/
theorem Session.enter_recorder (s : Session) (statement : Option String) (steps : List Step) :
    Recorder.enter ⟨s.vars, statement⟩ (some s.journal) steps =
      some (s.enter statement steps).journal := by
  induction steps generalizing s with
  | nil => rfl
  | cons step steps ih => exact ih (s.enter statement [step])

theorem Recorder.enter_none (r : Recorder) (steps : List Step) : r.enter none steps = none := by
  induction steps with
  | nil => rfl
  | cons step steps ih => exact ih

end Calculator
