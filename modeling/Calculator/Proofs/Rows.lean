import Mathlib.Tactic.Common
import Calculator.Proofs.Building
import Calculator.Proofs.Chain

/-!
# Rows of slots and chains

The work on slots is the work on chains. A row *holds* a chain if its filled slots are the atoms and
operators of the chain, in order, with every operator at its index; empty slots may stand anywhere.

1. In a row that holds a chain, an operator finds the atoms beside it as its nearest filled slots
   (`takeNearest?_of_follows`, `takeNearest?_of_holds`), and what is left holds the rest.
2. One operator keeps this relation (`tracks_operate`), hence so does a pass over the row
   (`tracks_applyTier`), hence so do all of them (`tracks_applyTiers`).
3. The slots of a formula come to hold its chain when their groups are worked out, by induction on
   the formula (`tracks_resolveGroups`).

So the reduction of a formula's node is `Formula.work`, step for step (`Formula.outcome_reduce`).
-/

namespace Calculator

def Atom.slot (vars : Variables) : Atom → Slot
  | value v => .literal v
  | name n => ⟨.identifier n, fun _ => .lookup vars n⟩

@[simp] theorem Atom.isEmpty_slot (vars : Variables) (a : Atom) :
    (a.slot vars).isEmpty = false := by
  cases a <;> rfl

@[simp] theorem Atom.operatorIn?_slot (vars : Variables) (tier : List Operator) (a : Atom) :
    (a.slot vars).operatorIn? tier = none := by
  cases a <;> rfl

theorem Atom.tracks_run (vars : Variables) (a : Atom) (slots : Node → List Slot) :
    Traced.Tracks Eq ((a.slot vars).run slots) (a.look vars) := by
  cases a with
  | value v => exact .ok rfl
  | name n => exact .mapError (fun _ => rfl) _ _

theorem node_of_isEmpty {s : Slot} (hs : s.isEmpty) : s.node = .hole := by
  unfold Slot.isEmpty at hs
  split at hs
  · next hnode => exact hnode
  · cases hs

theorem operatorIn?_of_isEmpty {s : Slot} (hs : s.isEmpty) (tier : List Operator) :
    s.operatorIn? tier = none := by
  rw [Slot.operatorIn?, node_of_isEmpty hs]

theorem node_of_operatorIn? {tier : List Operator} {s : Slot} {op : Operator}
    (hs : s.operatorIn? tier = some op) : s.node = .operator (.known op) := by
  unfold Slot.operatorIn? at hs
  split at hs
  · next op' hnode =>
    split_ifs at hs
    cases hs
    exact hnode
  · cases hs

theorem isName_of_isEmpty {s : Slot} (hs : s.isEmpty) : s.isName = false := by
  rw [Slot.isName, node_of_isEmpty hs]

/-! ## Rows that hold chains -/

section Rows

variable (vars : Variables)

mutual

/-- The row, whose first slot has index `n`, holds a chain. -/
inductive Holds : Nat → List Slot → Chain → Prop where
  | hole {n s row c} : s.isEmpty → Holds (n + 1) row c → Holds n (s :: row) c
  | atom {n row a ls} : Continues (n + 1) row ls → Holds n (a.slot vars :: row) (a, ls)

/-- The row, whose first slot has index `n`, holds the links of a chain. -/
inductive Continues : Nat → List Slot → List Link → Prop where
  | nil {n} : Continues n [] []
  | hole {n s row ls} : s.isEmpty → Continues (n + 1) row ls → Continues n (s :: row) ls
  | op {n s row op b ls} : s.node = .operator (.known op) → Holds (n + 1) row (b, ls) →
      Continues n (s :: row) (⟨op, n, b⟩ :: ls)

end

/-- Atoms, each with the operator after it and its index; the last one first. -/
abbrev Trail := List (Atom × Operator × Nat)

mutual

/-- The slots before a place, the nearest first, end in an operator, or there is none. -/
inductive Leads : List Slot → Trail → Prop where
  | nil : Leads [] []
  | hole {s before trail} : s.isEmpty → Leads before trail → Leads (s :: before) trail
  | op {s before a op trail} : s.node = .operator (.known op) → Follows before a trail →
      Leads (s :: before) ((a, op, before.length) :: trail)

/-- The slots before a place, the nearest first, end in an atom. -/
inductive Follows : List Slot → Atom → Trail → Prop where
  | hole {s before a trail} : s.isEmpty → Follows before a trail → Follows (s :: before) a trail
  | atom {before a trail} : Leads before trail → Follows (a.slot vars :: before) a trail

end

/-- Puts a trail before a chain. -/
def attach (trail : Trail) (c : Chain) : Chain :=
  trail.foldl (fun c (a, op, i) => (a, ⟨op, i, c.1⟩ :: c.2)) c

/-- A place in a row: the slots before it in reverse, those after it, and what they hold. -/
inductive At (before row : List Slot) : Trail → Chain → Prop where
  | wanting {trail c} : Leads vars before trail → Holds vars before.length row c →
      At before row trail c
  | holding {trail a ls} : Follows vars before a trail → Continues vars before.length row ls →
      At before row trail (a, ls)

variable {vars}

/-- From any place the row can be put together again. -/
theorem At.holds {before row : List Slot} {trail : Trail} {c : Chain}
    (h : At vars before row trail c) : Holds vars 0 (before.reverse ++ row) (attach trail c) := by
  induction before generalizing row trail c with
  | nil =>
    cases h with
    | wanting hleads hholds =>
      cases hleads
      exact hholds
    | holding hfollows _ => cases hfollows
  | cons s before ih =>
    rw [List.reverse_cons, List.append_assoc, List.singleton_append]
    cases h with
    | wanting hleads hholds =>
      obtain ⟨b, ls⟩ := c
      cases hleads with
      | hole hs hleads => exact ih (.wanting hleads (.hole hs hholds))
      | op hs hfollows =>
        have hwhole := ih (At.holding hfollows (.op hs hholds))
        exact hwhole
    | holding hfollows hcontinues =>
      cases hfollows with
      | hole hs hfollows => exact ih (.holding hfollows (.hole hs hcontinues))
      | atom hleads => exact ih (.wanting hleads (.atom hcontinues))

theorem Follows.holds {before : List Slot} {a : Atom} {trail : Trail}
    (h : Follows vars before a trail) : Holds vars 0 before.reverse (attach trail (a, [])) := by
  have hholds := (At.holding h .nil).holds
  rwa [List.append_nil] at hholds

/-! ## The nearest filled slots -/

theorem takeNearest?_of_follows {before : List Slot} {a : Atom} {trail : Trail}
    (h : Follows vars before a trail) :
    ∃ left, Slot.takeNearest? before = some (a.slot vars, left) ∧ Leads vars left trail := by
  induction before with
  | nil => cases h
  | cons s before ih =>
    cases h with
    | hole hs hfollows =>
      obtain ⟨left, htake, hleads⟩ := ih hfollows
      exact ⟨s :: left, by simp [Slot.takeNearest?, hs, htake], .hole hs hleads⟩
    | atom hleads => exact ⟨Slot.empty :: before, by simp [Slot.takeNearest?], .hole rfl hleads⟩

theorem takeNearest?_of_holds {n : Nat} {row : List Slot} {b : Atom} {ls : List Link}
    (h : Holds vars n row (b, ls)) :
    ∃ left, Slot.takeNearest? row = some (b.slot vars, left) ∧ Continues vars n left ls := by
  induction row generalizing n with
  | nil => cases h
  | cons s row ih =>
    cases h with
    | hole hs hholds =>
      obtain ⟨left, htake, hcontinues⟩ := ih hholds
      exact ⟨s :: left, by simp [Slot.takeNearest?, hs, htake], .hole hs hcontinues⟩
    | atom hcontinues =>
      exact ⟨Slot.empty :: row, by simp [Slot.takeNearest?], .hole rfl hcontinues⟩

/-! ## One operator -/

/-- What one operator leaves: its value, and around its slot what held the rest of the chain. -/
def Leaves (vars : Variables) (n : Nat) (trail : Trail) (ls : List Link) {m : Nat}
    (done : Slot.Operated m) (v : Int) : Prop :=
  done.value = v ∧ done.before.length = n ∧ Leads vars done.before trail ∧
    Continues vars (n + 1) done.after ls

theorem tracks_operate {op : Operator} {s : Slot} {before after : List Slot} {a b : Atom}
    {trail : Trail} {ls : List Link} (hbefore : Follows vars before a trail)
    (hafter : Holds vars (before.length + 1) after (b, ls)) :
    Traced.Tracks (Leaves vars before.length trail ls) (Slot.operate op s before after)
      (Chain.operate vars op before.length a b) := by
  obtain ⟨before', htake, hleads⟩ := takeNearest?_of_follows hbefore
  have hlength := Slot.length_of_takeNearest? htake
  unfold Slot.operate Chain.operate
  rw [htake]
  refine (a.tracks_run vars _).bind ?_
  rintro lhs - rfl
  split
  · next hnone =>
    obtain ⟨after', htake', -⟩ := takeNearest?_of_holds hafter
    rw [hnone] at htake'
    cases htake'
  · next right after' hsome =>
    obtain ⟨after'', htake', hcontinues⟩ := takeNearest?_of_holds hafter
    rw [hsome] at htake'
    cases htake'
    refine (b.tracks_run vars _).bind ?_
    rintro rhs - rfl
    refine (Traced.Tracks.mapError (R := Eq) (fun _ => rfl) _ _).bind ?_
    rintro v - rfl
    refine (Traced.Tracks.emit (R := Eq) _ rfl).bind fun _ _ _ => ?_
    exact .pure ⟨rfl, hlength, hleads, hcontinues⟩

/-! ## Passes over the operators -/

/-- What applying the operators of a chain yields, put back behind the trail. -/
theorem tracks_applyTier (tier : List Operator) {before row : List Slot} {trail : Trail} {c : Chain}
    (h : At vars before row trail c) :
    Traced.Tracks (Holds vars 0) (Slot.applyTier tier before row)
      (attach trail <$> Chain.applyTier vars tier c.1 c.2) := by
  -- an operator puts its value back before the slots after it, so the row need not lose its head
  induction hsize : row.length using Nat.strongRecOn generalizing before row trail c with
  | _ size ih =>
  cases row with
  | nil =>
    cases h with
    | wanting _ hholds => cases hholds
    | holding hfollows hcontinues =>
      cases hcontinues
      rw [Slot.applyTier]
      exact .pure hfollows.holds
  | cons s after =>
    have next {before trail c} (h : At vars before after trail c) := ih after.length (by
      rw [List.length_cons] at hsize
      omega) h rfl
    rw [Slot.applyTier]
    cases h with
    | wanting hleads hholds =>
      cases hholds with
      | hole hs hholds =>
        rw [operatorIn?_of_isEmpty hs]
        exact next (.wanting (.hole hs hleads) hholds)
      | atom hcontinues =>
        rw [Atom.operatorIn?_slot]
        exact next (.holding (.atom hleads) hcontinues)
    | holding hfollows hcontinues =>
      cases hcontinues with
      | hole hs hcontinues =>
        rw [operatorIn?_of_isEmpty hs]
        exact next (.holding (.hole hs hfollows) hcontinues)
      | @op _ _ _ op b ls hs hholds =>
        simp only [Slot.operatorIn?, hs, Chain.applyTier]
        split_ifs with hop
        · rw [map_bind]
          refine (tracks_operate hfollows hholds).bind fun done v hdone => ?_
          obtain ⟨rfl, hlength, hleads, hcontinues⟩ := hdone
          have hvalue : Follows vars (.literal done.value :: done.before)
              (.value done.value) trail := .atom (a := .value done.value) hleads
          refine ih done.after.length ?_ (.holding hvalue ?_) rfl
          · rw [done.length_after, ← hsize, List.length_cons]
            omega
          · rwa [List.length_cons, hlength]
        · have hrest := next (.wanting (.op hs hfollows) hholds)
          rw [map_bind]
          exact hrest

theorem tracks_applyTiers {row : List Slot} {c : Chain} (h : Holds vars 0 row c) :
    Traced.Tracks (Holds vars 0)
      (Operator.tiers.foldlM (fun row tier => Slot.applyTier tier [] row) row)
      (Chain.applyTiers vars c) := by
  unfold Chain.applyTiers
  induction Operator.tiers generalizing row c with
  | nil => exact .pure h
  | cons tier tiers ih =>
    rw [List.foldlM_cons, List.foldlM_cons]
    have htier := tracks_applyTier tier (At.wanting .nil h)
    rw [show attach [] = id from rfl, id_map] at htier
    exact htier.bind fun row c hholds => ih hholds

/-! ## The last atom -/

theorem resolveNames_of_continues {n : Nat} {before row : List Slot}
    (h : Continues vars n row []) :
    Slot.resolveNames before row = pure (before.reverse ++ row) := by
  induction row generalizing n before with
  | nil => rw [Slot.resolveNames, List.append_nil]
  | cons s row ih =>
    cases h with
    | hole hs hcontinues =>
      rw [Slot.resolveNames, isName_of_isEmpty hs]
      have hrest : Slot.resolveNames (s :: before) row = _ := ih hcontinues
      rw [List.reverse_cons, List.append_assoc] at hrest
      exact hrest

/-- A row that holds a single atom comes to hold its value. -/
theorem tracks_resolveNames {before row : List Slot} {a : Atom} (hbefore : Leads vars before [])
    (hrow : Holds vars before.length row (a, [])) :
    Traced.Tracks (fun row v => Holds vars 0 row (.value v, [])) (Slot.resolveNames before row)
      (a.look vars) := by
  induction row generalizing before with
  | nil => cases hrow
  | cons s row ih =>
    cases hrow with
    | hole hs hholds =>
      rw [Slot.resolveNames, isName_of_isEmpty hs]
      exact ih (.hole hs hbefore) hholds
    | atom hcontinues =>
      have hwhole (v : Int) :
          Holds vars 0 ((Slot.literal v :: before).reverse ++ row) (.value v, []) :=
        (At.holding (.atom (a := .value v) hbefore) hcontinues).holds
      rw [Slot.resolveNames]
      cases a with
      | value v =>
        show Traced.Tracks _ (Slot.resolveNames (.literal v :: before) row) (pure v)
        rw [resolveNames_of_continues hcontinues]
        exact .pure (hwhole v)
      | name n =>
        rw [← bind_pure (Atom.look vars (.name n))]
        refine (Atom.tracks_run vars (.name n) _).bind ?_
        rintro v - rfl
        rw [resolveNames_of_continues hcontinues]
        exact .pure (hwhole v)

theorem filter_of_continues {n : Nat} {row : List Slot} (h : Continues vars n row []) :
    (row.filter fun s => !s.isEmpty) = [] := by
  induction row generalizing n with
  | nil => rfl
  | cons s row ih =>
    cases h with
    | hole hs hcontinues =>
      rw [List.filter_cons_of_neg (by simp [hs])]
      exact ih hcontinues

theorem filter_of_holds {n : Nat} {row : List Slot} {a : Atom} (h : Holds vars n row (a, [])) :
    (row.filter fun s => !s.isEmpty) = [a.slot vars] := by
  induction row generalizing n with
  | nil => cases h
  | cons s row ih =>
    cases h with
    | hole hs hholds =>
      rw [List.filter_cons_of_neg (by simp [hs])]
      exact ih hholds
    | atom hcontinues =>
      rw [List.filter_cons_of_pos (by simp), filter_of_continues hcontinues]

theorem lone_of_holds {row : List Slot} {v : Int} (h : Holds vars 0 row (.value v, [])) :
    Slot.lone row = .ok v := by
  rw [Slot.lone, filter_of_holds h]
  rfl

/-! ## Formulas -/

/-- What is left of a row: its value, alone. -/
def Worked (vars : Variables) (p : Int × List Slot) (v : Int) : Prop :=
  p.1 = v ∧ Holds vars 0 p.2 (.value v, [])

theorem tracks_finish {row : List Slot} {c : Chain} (h : Holds vars 0 row c) :
    Traced.Tracks (Worked vars)
      (do
        let row ← Operator.tiers.foldlM (fun row tier => Slot.applyTier tier [] row) row
        let row ← Slot.resolveNames [] row
        match Slot.lone row with
        | .ok v => pure (v, row)
        | .error d => Slot.halt d row)
      (Chain.finish vars c) := by
  unfold Chain.finish
  refine ((tracks_applyTiers h).and (Chain.sound_applyTiers vars c)).bind fun row c hrow => ?_
  obtain ⟨a, ls⟩ := c
  obtain ⟨hholds, rfl⟩ := hrow
  rw [← bind_pure (Atom.look vars a)]
  refine (tracks_resolveNames .nil hholds).bind fun row v hlast => ?_
  rw [lone_of_holds hlast]
  exact .pure ⟨rfl, hlast⟩

theorem tracks_reduceRow {row : List Slot} {work : Traced Fault Chain}
    (h : Traced.Tracks (Holds vars 0) (Slot.resolveGroups [] row) (attach [] <$> work)) :
    Traced.Tracks (Worked vars) (Slot.reduceRow row) (work >>= Chain.finish vars) := by
  rw [show attach [] = id from rfl, id_map] at h
  exact h.bind fun _ _ hholds => tracks_finish hholds

theorem outcome_ofRow {row : List Slot} {work : Traced Fault Int}
    (h : Traced.Tracks (Worked vars) (Slot.reduceRow row) work) :
    (Reduction.ofRow row).outcome = work := by
  unfold Reduction.ofRow
  generalize Slot.reduceRow row = x at h
  cases h with
  | ok hworked => rw [← hworked.1]; rfl
  | error => rfl

theorem tracks_group {α : Type} {R : List Slot → α → Prop} {before after : List Slot} {s : Slot}
    {work : Traced Fault Int} {k : Atom → Traced Fault α} (hs : s.isGroup)
    (hwork : (s.reduce ()).outcome = work)
    (hk : ∀ v, Traced.Tracks R (Slot.resolveGroups (.literal v :: before) after) (k (.value v))) :
    Traced.Tracks R (Slot.resolveGroups before (s :: after))
      ((do
        let v ← work
        Traced.emit (.group before.length v)
        pure (Atom.value v)) >>= k) := by
  rw [Slot.resolveGroups, if_pos hs, ← hwork, bind_assoc]
  refine (Traced.Tracks.mapError (R := Eq) (fun _ => rfl) _ _).bind ?_
  rintro v - rfl
  rw [bind_assoc]
  refine (Traced.Tracks.emit (R := Eq) _ rfl).bind fun _ _ _ => ?_
  rw [pure_bind]
  exact hk v

/-- The slot of an operand becomes that of its atom. -/
theorem tracks_atom {α : Type} {R : List Slot → α → Prop} {before after : List Slot} {v : Operand}
    {k : Atom → Traced Fault α} (hv : (v.node.reduce vars).outcome = v.work vars)
    (hk : ∀ a, Traced.Tracks R (Slot.resolveGroups (a.slot vars :: before) after) (k a)) :
    Traced.Tracks R (Slot.resolveGroups before (⟨v.node, fun _ => v.node.reduce vars⟩ :: after))
      (v.atom before.length (v.work vars) >>= k) := by
  cases v with
  | number digits start => exact hk (.value _)
  | name n start => exact hk (.name n)
  | negated sign inner => exact tracks_group rfl hv fun v => hk (.value v)
  | grouped opened inner closed => exact tracks_group rfl hv fun v => hk (.value v)

mutual

theorem Operand.outcome_reduce : ∀ v : Operand, (v.node.reduce vars).outcome = v.work vars
  | .number _ _ => rfl
  | .name _ _ => rfl
  | .negated _ inner => by
    rw [Operand.node, Node.reduce, Operand.outcome_reduce inner, Operand.work]
  | .grouped _ inner _ => by
    rw [Operand.node, Node.reduce, Node.reduce]
    exact outcome_ofRow (tracks_reduceRow (tracks_resolveGroups inner .nil))

/-- Behind any trail, the slots of a formula come to hold its chain. -/
theorem tracks_resolveGroups : ∀ (f : Formula) {before : List Slot} {trail : Trail},
    Leads vars before trail →
    Traced.Tracks (Holds vars 0) (Slot.resolveGroups before (Node.slotsOf vars f.slots))
      (attach trail <$> f.settle vars before.length)
  | .single v, before, trail, hbefore => by
    rw [Formula.slots, Node.slotsOf, Node.slotsOf, Formula.settle, map_bind]
    refine tracks_atom (Operand.outcome_reduce v) fun a => ?_
    have hfollows : Follows vars (a.slot vars :: before) a trail := .atom hbefore
    exact .pure hfollows.holds
  | .chain v op start rest, before, trail, hbefore => by
    rw [Formula.slots, Node.slotsOf, Node.slotsOf, Formula.settle, map_bind]
    refine tracks_atom (Operand.outcome_reduce v) fun a => ?_
    let s : Slot := ⟨.operator (.known op), fun _ => (Node.operator (.known op)).reduce vars⟩
    have hlead : Leads vars (s :: a.slot vars :: before) ((a, op, before.length + 1) :: trail) :=
      .op rfl (.atom hbefore)
    have hrest := tracks_resolveGroups rest hlead
    rw [map_bind]
    exact hrest

end

theorem Formula.tracks_work (f : Formula) :
    Traced.Tracks (Worked vars) (Slot.reduceRow (Node.slotsOf vars f.slots)) (f.work vars) :=
  tracks_reduceRow (tracks_resolveGroups f .nil)

/-- **The reduction of a formula is its work.** Both take the same steps and end alike. -/
theorem Formula.outcome_reduce (f : Formula) : (f.node.reduce vars).outcome = f.work vars := by
  rw [Formula.node, Node.reduce]
  exact outcome_ofRow f.tracks_work

end Rows

end Calculator
