import Calculator.Decimal
import Calculator.Fault
import Calculator.Table

/-!
# Variables

Named values, and the value of the last calculation, which the name `_` reads and nothing can
assign.
-/

namespace Calculator

structure Variables where
  table : Table Int
  last : Int
  deriving Repr

namespace Variables

def empty : Variables := ⟨[], 0⟩

/-- The name of the last value. -/
def lastName : String := "_"

/-- Names are made of letters and digits and begin with a letter. -/
def isValidName (name : String) : Bool :=
  name == lastName ||
    match name.toList with
    | [] => false
    | c :: cs => c.isAlpha && cs.all Char.isAlphanum

def get? (vars : Variables) (name : String) : Option Int :=
  if name = lastName then some vars.last else vars.table.get? name

/-- Assigning to `_` has no effect; other names must be valid. -/
def set (vars : Variables) (name : String) (value : Int) : Except Fault Variables :=
  if name = lastName then .ok vars
  else if isValidName name then .ok { vars with table := vars.table.put name value }
  else .error (.invalidName name)

def setLast (vars : Variables) (value : Int) : Variables := { vars with last := value }

/-- All values in short form; the last value is listed as `_`. -/
def snapshot (vars : Variables) : Table String :=
  Table.put lastName (Decimal.short vars.last) (vars.table.map fun p => (p.1, Decimal.short p.2))

end Variables

end Calculator
