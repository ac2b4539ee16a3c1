import Calculator.Table

/-!
# Journals

A journal keeps the most recent entries, as many as it has room for, and numbers all that were ever
made.
-/

namespace Calculator

structure Entry where
  step : Nat
  rule : String
  /-- The text of the line that the entry belongs to. -/
  statement : Option String
  detail : Table String
  /-- All variables at the time, in short form. -/
  snapshot : Option (Table String)
  deriving DecidableEq, Repr

structure Journal where
  capacity : Nat
  /-- Whether entries keep the variables. -/
  verbose : Bool
  /-- The entries that are kept, the oldest first. -/
  entries : List Entry
  next : Nat
  deriving Repr

namespace Journal

def empty (capacity : Nat) (verbose : Bool) : Journal := ⟨capacity, verbose, [], 0⟩

/-- The entry that would be made next. -/
def entry (j : Journal) (rule : String) (statement : Option String) (detail : Table String)
    (snapshot : Option (Table String)) : Entry :=
  ⟨j.next, rule, statement, detail, if j.verbose then snapshot else none⟩

/-- Makes an entry; if there is no room for it, the oldest one goes. -/
def add (j : Journal) (e : Entry) : Journal :=
  let entries := j.entries ++ [e]
  { j with entries := entries.drop (entries.length - j.capacity), next := j.next + 1 }

def record (j : Journal) (rule : String) (statement : Option String) (detail : Table String)
    (snapshot : Option (Table String)) : Journal :=
  j.add (j.entry rule statement detail snapshot)

/-- The entries kept that are not older than the given step. -/
def since (j : Journal) (step : Int) : List Entry := j.entries.filter fun e => step ≤ e.step

/-- The number of the last entry that is kept. -/
def lastStep? (j : Journal) : Option Nat := j.entries.getLast?.map Entry.step

end Journal

end Calculator
