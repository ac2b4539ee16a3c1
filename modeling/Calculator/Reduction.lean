import Calculator.Node
import Calculator.Step
import Calculator.Variables

/-!
# Reduction

The value of a node, worked out in place. An expression is a row of slots, worked on in passes from
left to right:

1. groups (parentheses and negations) become literals;
2. tier by tier, every operator takes the nearest filled slot on either side and becomes a literal,
   and the slots it took are left empty;
3. a name that is left alone becomes a literal.

What must remain is a single literal. A failure leaves the slots as they stood when it was met.
-/

namespace Calculator

/-- The end of the work on a node: a value or a fault, the steps on the way, and what became of the
node. -/
structure Reduction where
  outcome : Traced Fault Int
  residue : Node

namespace Reduction

/-- A node that needs no work. -/
def value (v : Int) : Reduction := ⟨pure v, .literal v⟩

/-- A node that cannot be worked on. -/
def defect (d : Defect) (n : Node) : Reduction := ⟨.fail (.malformed d), n⟩

def lookup (vars : Variables) (name : String) : Reduction :=
  match vars.get? name with
  | some v => ⟨⟨[.lookup name v], .ok v⟩, .identifier name⟩
  | none => ⟨.fail (.unbound name), .identifier name⟩

end Reduction

/-- A slot of an expression, with the work on its node, which is done only when it is asked for. -/
structure Slot where
  node : Node
  reduce : Unit → Reduction

/-- A fault, and the slots at the time. -/
structure Halt where
  fault : Fault
  slots : List Slot

namespace Slot

def literal (v : Int) : Slot := ⟨.literal v, fun _ => .value v⟩

def empty : Slot := ⟨.hole, fun _ => .defect (.irreducible Node.hole.shape) .hole⟩

def isEmpty (s : Slot) : Bool :=
  match s.node with
  | .hole => true
  | _ => false

def isGroup (s : Slot) : Bool :=
  match s.node with
  | .parenthetical _ | .negation _ => true
  | _ => false

def isName (s : Slot) : Bool :=
  match s.node with
  | .identifier _ => true
  | _ => false

/-- The operator in a slot, if it belongs to the tier. -/
def operatorIn? (tier : List Operator) (s : Slot) : Option Operator :=
  match s.node with
  | .operator (.known op) => if op ∈ tier then some op else none
  | _ => none

/-- The value of a slot; on a fault, `slots` tells from the slot's residue what the row looks like.
-/
def run (s : Slot) (slots : Node → List Slot) : Traced Halt Int :=
  let r := s.reduce ()
  r.outcome.mapError fun fault => ⟨fault, slots r.residue⟩

/-- The first filled slot, and the row with that slot emptied. -/
def takeNearest? : List Slot → Option (Slot × List Slot)
  | [] => none
  | s :: rest =>
    if s.isEmpty then (takeNearest? rest).map fun (taken, left) => (taken, s :: left)
    else some (s, empty :: rest)

theorem length_of_takeNearest? {row left : List Slot} {taken : Slot}
    (h : takeNearest? row = some (taken, left)) : left.length = row.length := by
  induction row generalizing taken left with
  | nil => simp [takeNearest?] at h
  | cons s rest ih =>
    unfold takeNearest? at h
    split at h
    · obtain ⟨⟨taken', left'⟩, hrest, heq⟩ := Option.map_eq_some_iff.1 h
      cases heq
      simp [ih hrest]
    · cases h
      rfl

/-! ## The passes

The slots before the place of work are kept in reverse, so the nearest one is first on either
side. -/

def resolveGroups (before : List Slot) : List Slot → Traced Halt (List Slot)
  | [] => pure before.reverse
  | s :: after =>
    if s.isGroup then do
      let v ← s.run fun residue => before.reverse ++ { s with node := residue } :: after
      .emit (.group before.length v)
      resolveGroups (literal v :: before) after
    else resolveGroups (s :: before) after

def halt {α : Type} (d : Defect) (slots : List Slot) : Traced Halt α := .fail ⟨.malformed d, slots⟩

/-- What one operator makes of its row: the slots before its own, again in reverse, its value, and
the slots after it, of which there are as many as there were. -/
structure Operated (n : Nat) where
  before : List Slot
  value : Int
  after : List Slot
  length_after : after.length = n

/-- Works out the operator in slot `s`. Each operand is taken out of its slot before it is worked
on. -/
def operate (op : Operator) (s : Slot) (before after : List Slot) :
    Traced Halt (Operated after.length) :=
  match takeNearest? before with
  | none => halt .noLeftOperand (before.reverse ++ s :: after)
  | some (left, before') => do
    let lhs ← left.run fun _ => before'.reverse ++ s :: after
    match h : takeNearest? after with
    | none => halt .noRightOperand (before'.reverse ++ s :: after)
    | some (right, after') =>
      let rhs ← right.run fun _ => before'.reverse ++ s :: after'
      let v ← (Traced.lift (op.apply lhs rhs)).mapError fun fault =>
        ⟨fault, before'.reverse ++ s :: after'⟩
      .emit (.operation op before.length lhs rhs v)
      pure ⟨before', v, after', length_of_takeNearest? h⟩

def applyTier (tier : List Operator) (before : List Slot) : List Slot → Traced Halt (List Slot)
  | [] => pure before.reverse
  | s :: after =>
    match s.operatorIn? tier with
    | none => applyTier tier (s :: before) after
    | some op => do
      let done ← operate op s before after
      applyTier tier (literal done.value :: done.before) done.after
termination_by row => row.length
decreasing_by
  · simp
  · simp [done.length_after]

def resolveNames (before : List Slot) : List Slot → Traced Halt (List Slot)
  | [] => pure before.reverse
  | s :: after =>
    if s.isName then do
      let v ← s.run fun _ => before.reverse ++ s :: after
      resolveNames (literal v :: before) after
    else resolveNames (s :: before) after

/-- The value of a row of which a single literal is left. -/
def lone (row : List Slot) : Except Defect Int :=
  match row.filter fun s => !s.isEmpty with
  | [s] =>
    match s.node with
    | .literal v => .ok v
    | n => .error (.notLiteral n.shape)
  | filled => .error (.leftover filled.length)

/-- All passes over a row; at the end also its slots are told. -/
def reduceRow (row : List Slot) : Traced Halt (Int × List Slot) := do
  let row ← resolveGroups [] row
  let row ← Operator.tiers.foldlM (fun row tier => applyTier tier [] row) row
  let row ← resolveNames [] row
  match lone row with
  | .ok v => pure (v, row)
  | .error d => halt d row

end Slot

namespace Reduction

def ofRow (row : List Slot) : Reduction :=
  let work := Slot.reduceRow row
  { outcome := ⟨work.steps, (work.result.map Prod.fst).mapError Halt.fault⟩
    residue := .expression <|
      (match work.result with
        | .ok (_, slots) => slots
        | .error stop => stop.slots).map Slot.node }

end Reduction

namespace Node

mutual

def reduce (vars : Variables) : Node → Reduction
  | literal v => .value v
  | identifier name => .lookup vars name
  | operator kind => .defect (.strayOperator kind.tag) (operator kind)
  | parenthetical inner =>
    let r := inner.reduce vars
    ⟨r.outcome, parenthetical r.residue⟩
  | negation inner =>
    let r := inner.reduce vars
    ⟨(- ·) <$> r.outcome, negation r.residue⟩
  | expression slots => .ofRow (slotsOf vars slots)
  | line target body =>
    let r := body.reduce vars
    ⟨r.outcome, line target r.residue⟩
  | bare => .defect (.irreducible bare.shape) bare
  | hole => .defect (.irreducible hole.shape) hole

def slotsOf (vars : Variables) : List Node → List Slot
  | [] => []
  | n :: ns => ⟨n, fun _ => n.reduce vars⟩ :: slotsOf vars ns

end

end Node

end Calculator
