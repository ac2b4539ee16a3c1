import Calculator.Report

/-!
# Output

What is written to the two streams, and what they get when a line succeeds or fails.
-/

namespace Calculator.Console

/-- Text for the output stream and for the error stream. -/
structure Output where
  out : String
  err : String
  deriving DecidableEq, Repr

namespace Output

def empty : Output := ⟨"", ""⟩

instance : Append Output := ⟨fun a b => ⟨a.out ++ b.out, a.err ++ b.err⟩⟩

/-- A line on the output stream. -/
def ofOut (text : String) : Output := ⟨text ++ "\n", ""⟩

/-- A line on the error stream. -/
def ofErr (text : String) : Output := ⟨"", text ++ "\n"⟩

def concat (outputs : List Output) : Output := outputs.foldr (· ++ ·) empty

@[simp] theorem out_append (a b : Output) : (a ++ b).out = a.out ++ b.out := rfl

@[simp] theorem out_empty : empty.out = "" := rfl

@[simp] theorem out_ofErr (text : String) : (ofErr text).out = "" := rfl

theorem out_concat_ofErr {α : Type} (f : α → String) (xs : List α) :
    (concat (xs.map fun x => ofErr (f x))).out = "" := by
  induction xs with
  | nil => rfl
  | cons x xs ih => exact String.empty_append.trans ih

end Output

/-- What the streams look like, and what is shown on them. -/
structure Display where
  quiet : Bool
  /-- Failures are also told as JSON. -/
  json : Bool
  /-- The output stream shows styles. -/
  outStyles : Bool
  errStyles : Bool
  deriving DecidableEq, Repr

/-- The report of a failure: the text if the journal is verbose, the JSON if it is asked for. Steps
before `first` belong to earlier lines. -/
def report (display : Display) (j : Journal) (failure : Failure) (first : Nat) : Output :=
  (if j.verbose then .ofErr (Report.text j failure true first Report.defaultDepth) else .empty) ++
  if display.json then .ofErr (Report.toJson j failure first Report.defaultDepth).text else .empty

@[simp] theorem out_report (display : Display) (j : Journal) (failure : Failure) (first : Nat) :
    (report display j failure first).out = "" := by
  unfold report
  split <;> split <;> rfl

def traceLine (e : Entry) : String :=
  Report.trimEnd
    ("[step " ++ e.step.repr ++ "] " ++ e.rule ++ " " ++ Report.assignments " " e.detail)

/-- The steps taken since `first`, if the journal is verbose. -/
def trace (j : Journal) (first : Nat) : Output :=
  if j.verbose then .concat ((j.since first).map fun e => .ofErr (traceLine e)) else .empty

@[simp] theorem out_trace (j : Journal) (first : Nat) : (trace j first).out = "" := by
  unfold trace
  split
  · exact Output.out_concat_ofErr traceLine _
  · rfl

end Calculator.Console
