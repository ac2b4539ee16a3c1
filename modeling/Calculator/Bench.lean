import Calculator.Journal
import Calculator.Reduction

/-!
# Benches

The reduction of a node on a bench. The row of an expression is worked on in place: slots are read
and changed by their index, and every step is written at once to a journal, if there is one.

`Node.reduce` keeps to values and tells its steps at the end. Both come to the same
(`Proofs.Bench`).
-/

namespace Calculator

/-- What every entry of a line has in common. -/
structure Recorder where
  vars : Variables
  statement : Option String

namespace Recorder

/-- Writes a step; without a journal there is nothing to do. -/
def record (r : Recorder) (journal : Option Journal) (step : Step) : Option Journal :=
  journal.map fun j =>
    j.record step.rule r.statement step.detail (if j.verbose then some r.vars.snapshot else none)

end Recorder

/-- How the work on a node ends. -/
structure Ending where
  result : Except Fault Int
  /-- What became of the node. -/
  residue : Node
  journal : Option Journal

/-- A slot with the work on its node, which is done only when it is asked for. -/
structure Cell where
  node : Node
  work : Option Journal → Ending

namespace Cell

def literal (v : Int) : Cell := ⟨.literal v, fun j => ⟨.ok v, .literal v, j⟩⟩

def empty : Cell :=
  ⟨.hole, fun j => ⟨.error (.malformed (.irreducible Node.hole.shape)), .hole, j⟩⟩

def isEmpty (c : Cell) : Bool :=
  match c.node with
  | .hole => true
  | _ => false

def isGroup (c : Cell) : Bool :=
  match c.node with
  | .parenthetical _ | .negation _ => true
  | _ => false

def isName (c : Cell) : Bool :=
  match c.node with
  | .identifier _ => true
  | _ => false

def operatorIn? (tier : List Operator) (c : Cell) : Option Operator :=
  match c.node with
  | .operator (.known op) => if op ∈ tier then some op else none
  | _ => none

end Cell

structure Bench where
  row : List Cell
  journal : Option Journal

namespace Bench

/-- Work on a bench; a fault leaves the bench as it stands. -/
abbrev Work := EStateM Fault Bench

def fault {α : Type} (d : Defect) : Work α := throw (.malformed d)

/-- The cell at an index; beyond the row there are no filled ones. -/
def cell (i : Nat) : Work Cell := do return (← get).row.getD i .empty

def put (i : Nat) (c : Cell) : Work Unit := modify fun b => { b with row := b.row.set i c }

def log (r : Recorder) (step : Step) : Work Unit :=
  modify fun b => { b with journal := r.record b.journal step }

/-- Does the work on a node, of which `keep` may put back what is left. -/
def run (c : Cell) (keep : Node → List Cell → List Cell) : Work Int := fun b =>
  let ending := c.work b.journal
  let b := ⟨keep ending.residue b.row, ending.journal⟩
  match ending.result with
  | .ok v => .ok v b
  | .error fault => .error fault b

/-- Takes the nearest filled cell before the index. -/
def takeLeft : Nat → Work Cell
  | 0 => fault .noLeftOperand
  | i + 1 => do
    let c ← cell i
    if c.isEmpty then takeLeft i
    else
      put i .empty
      return c

/-- Takes the first filled of so many cells from the index on. -/
def takeRight (i : Nat) : Nat → Work Cell
  | 0 => fault .noRightOperand
  | n + 1 => do
    let c ← cell i
    if c.isEmpty then takeRight (i + 1) n
    else
      put i .empty
      return c

def lift {α : Type} : Except Fault α → Work α
  | .ok a => pure a
  | .error fault => throw fault

/-! ## The passes -/

def resolveGroup (r : Recorder) (i : Nat) : Work Unit := do
  let c ← cell i
  if c.isGroup then
    let v ← run c fun residue row => row.set i { c with node := residue }
    put i (.literal v)
    log r (.group i v)

/-- Applies the operator at the index, if it belongs to the tier. -/
def applyOperator (r : Recorder) (tier : List Operator) (i : Nat) : Work Unit := do
  match (← cell i).operatorIn? tier with
  | none => return
  | some op =>
    let lhs ← run (← takeLeft i) fun _ row => row
    let rhs ← run (← takeRight (i + 1) ((← get).row.length - (i + 1))) fun _ row => row
    let v ← lift (op.apply lhs rhs)
    put i (.literal v)
    log r (.operation op i lhs rhs v)

def resolveName (i : Nat) : Work Unit := do
  let c ← cell i
  if c.isName then
    let v ← run c fun _ row => row
    put i (.literal v)

/-- The value of a row of which a single literal is left. -/
def lone : Work Int := do
  match (← get).row.filter fun c => !c.isEmpty with
  | [c] =>
    match c.node with
    | .literal v => return v
    | n => fault (.notLiteral n.shape)
  | filled => fault (.leftover filled.length)

def reduceRow (r : Recorder) : Work Int := do
  let indices := List.range (← get).row.length
  indices.forM (resolveGroup r)
  Operator.tiers.forM fun tier => indices.forM (applyOperator r tier)
  indices.forM resolveName
  lone

/-- What a piece of work on a bench leaves of an expression. -/
def ending (work : Work Int) (b : Bench) : Ending :=
  match work b with
  | .ok v b => ⟨.ok v, .expression (b.row.map Cell.node), b.journal⟩
  | .error fault b => ⟨.error fault, .expression (b.row.map Cell.node), b.journal⟩

end Bench

namespace Node

mutual

/-- Reduces a node and writes the steps to the journal, if there is one. -/
def work (r : Recorder) : Node → Option Journal → Ending
  | literal v, j => ⟨.ok v, literal v, j⟩
  | identifier name, j =>
    match r.vars.get? name with
    | some v => ⟨.ok v, identifier name, r.record j (.lookup name v)⟩
    | none => ⟨.error (.unbound name), identifier name, j⟩
  | operator kind, j => ⟨.error (.malformed (.strayOperator kind.tag)), operator kind, j⟩
  | parenthetical inner, j =>
    let ending := inner.work r j
    { ending with residue := parenthetical ending.residue }
  | negation inner, j =>
    let ending := inner.work r j
    { ending with result := ending.result.map (- ·), residue := negation ending.residue }
  | expression slots, j => Bench.ending (Bench.reduceRow r) ⟨cells r slots, j⟩
  | line target body, j =>
    let ending := body.work r j
    { ending with residue := line target ending.residue }
  | bare, j => ⟨.error (.malformed (.irreducible bare.shape)), bare, j⟩
  | hole, j => ⟨.error (.malformed (.irreducible hole.shape)), hole, j⟩

def cells (r : Recorder) : List Node → List Cell
  | [] => []
  | n :: ns => ⟨n, n.work r⟩ :: cells r ns

end

end Node

end Calculator
