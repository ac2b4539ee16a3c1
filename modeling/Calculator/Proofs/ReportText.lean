import Calculator.Proofs.FailingStep
import Calculator.Proofs.JsonText

/-!
# The text of a report

A report in JSON is plain text, and nothing is lost in it: reading the text gives back what the
report tells of the failure (`Account`) and the steps it lists. The readers of this module say
which fields a report has, which of them may be null, and which are left out where they have no
value. They undo the writers one by one (`Account.ofJson?_jsonFailure`, `Entry.ofJson?_jsonStep`,
`Report.ofJson?_toJson`).
-/

namespace Calculator

/-! ## Reading fields -/

namespace Json

def number? : Json → Option Nat
  | number n => some n
  | _ => none

def string? : Json → Option String
  | string text => some text
  | _ => none

def items? : Json → Option (List Json)
  | array items => some items
  | _ => none

/-- Fields that are strings, in their order. -/
def pairs? : Json → Option (Table String)
  | object fields => fields.mapM fun p => p.2.string?.map fun text => (p.1, text)
  | _ => none

variable {α : Type}

/-- Reads a value that may be null. -/
def nullable? (read : Json → Option α) : Json → Option (Option α)
  | null => some none
  | j => (read j).map some

/-- Reads a field that has to be there. -/
def field? (j : Json) (key : String) (read : Json → Option α) : Option α := (j.get? key).bind read

/-- Reads a field that may be left out. It is not left out by being null. -/
def optional? (j : Json) (key : String) (read : Json → Option α) : Option (Option α) :=
  match j.get? key with
  | none => some none
  | some value => (read value).map some

@[simp] theorem get?_cons (k key : String) (value : Json) (fields : List (String × Json)) :
    (object ((k, value) :: fields)).get? key =
      if k = key then some value else (object fields).get? key := by
  by_cases h : k = key <;> simp [get?, Table.get?, h]

@[simp] theorem get?_nil (key : String) : (object []).get? key = none := rfl

@[simp] theorem number?_number (n : Nat) : (number n).number? = some n := rfl

@[simp] theorem string?_string (text : String) : (string text).string? = some text := rfl

@[simp] theorem items?_array (items : List Json) : (array items).items? = some items := rfl

theorem mapM_map {β : Type} {f : α → β} {g : β → Option α} (h : ∀ a, g (f a) = some a)
    (xs : List α) : (xs.map f).mapM g = some xs := by
  induction xs with
  | nil => rfl
  | cons x xs ih =>
    rw [List.map_cons, List.mapM_cons, h, ih]
    rfl

@[simp] theorem pairs?_jsonPairs (pairs : Table String) :
    (Report.jsonPairs pairs).pairs? = some pairs := by
  rw [Report.jsonPairs, pairs?]
  refine mapM_map ?_ pairs
  exact fun _ => rfl

@[simp] theorem nullable?_string (text : Option String) :
    (Report.jsonOption string text).nullable? string? = some text := by
  cases text <;> rfl

@[simp] theorem nullable?_number (n : Option Nat) :
    (Report.jsonOption number n).nullable? number? = some n := by
  cases n <;> rfl

end Json

/-! ## Reading reports -/

/-- What a report tells of a failure. A fault has a rule and a failing step, which may be null; a
text that was rejected is told itself. -/
structure Account where
  label : String
  message : String
  line : Option String
  rule : Option (Option String)
  failingStep : Option (Option Nat)
  deriving DecidableEq, Repr

namespace Account

def ofFailure (failure : Failure) : Account :=
  match failure with
  | .fault cause step => ⟨failure.label, failure.message, none, some cause.rule, some step⟩
  | .rejected line _ => ⟨failure.label, failure.message, some line, none, none⟩
  | .other _ => ⟨failure.label, failure.message, none, none, none⟩

def ofJson? (j : Json) : Option Account := do
  let label ← j.field? "type" Json.string?
  let message ← j.field? "message" Json.string?
  let line ← j.optional? "line" Json.string?
  let rule ← j.optional? "rule" (Json.nullable? Json.string?)
  let failingStep ← j.optional? "failing_step_index" (Json.nullable? Json.number?)
  return ⟨label, message, line, rule, failingStep⟩

theorem ofJson?_jsonFailure (failure : Failure) :
    ofJson? (Report.jsonFailure failure) = some (ofFailure failure) := by
  cases failure with
  | fault cause step =>
    simp [ofJson?, Report.jsonFailure, Json.field?, Json.optional?, ofFailure, Failure.message]
  | rejected line cause =>
    simp [ofJson?, Report.jsonFailure, Json.field?, Json.optional?, ofFailure, Failure.message]
  | other message =>
    simp [ofJson?, Report.jsonFailure, Json.field?, Json.optional?, ofFailure, Failure.message]

end Account

namespace Entry

def ofJson? (j : Json) : Option Entry := do
  let step ← j.field? "step_index" Json.number?
  let rule ← j.field? "rule" Json.string?
  let detail ← j.field? "detail" Json.pairs?
  let statement ← j.optional? "statement" Json.string?
  let snapshot ← j.optional? "env_snapshot" Json.pairs?
  return ⟨step, rule, statement, detail, snapshot⟩

theorem ofJson?_jsonStep (e : Entry) : ofJson? (Report.jsonStep e) = some e := by
  obtain ⟨step, rule, statement, detail, snapshot⟩ := e
  -- a field that is left out is met by no other key
  cases statement <;> cases snapshot <;>
    simp [ofJson?, Report.jsonStep, Report.optionalField, Json.field?, Json.optional?]

end Entry

namespace Report

/-- The account that a report gives of the failure, and the entries that it lists. -/
def ofJson? (j : Json) : Option (Account × List Entry) := do
  let account ← j.field? "error" Account.ofJson?
  let steps ← j.field? "steps" Json.items?
  return (account, ← steps.mapM Entry.ofJson?)

theorem ofJson?_toJson (j : Journal) (failure : Failure) (first depth : Int) :
    ofJson? (toJson j failure first depth) = some (.ofFailure failure, recent j first depth) := by
  have hsteps := Json.mapM_map Entry.ofJson?_jsonStep (recent j first depth)
  simp [ofJson?, toJson, Json.field?, Account.ofJson?_jsonFailure, hsteps]

/-- **Reading a report.** Whatever failed and whatever the journal holds, the text of the report is
made of line breaks and printable ASCII. Read as JSON, it is the report itself, and it gives back
what is told of the failure and the entries that were selected, with all their fields. -/
theorem text_reads_back (j : Journal) (failure : Failure) (first depth : Int) :
    let report := toJson j failure first depth
    (∀ c ∈ report.text.toList, c = '\n' ∨ ' ' ≤ c ∧ c ≤ '~') ∧
      Json.read? report.text = some report ∧
      (Json.read? report.text).bind ofJson? =
        some (.ofFailure failure, recent j first depth) := by
  intro report
  have hread : Json.read? report.text = some report := Json.read?_text report
  refine ⟨?_, hread, ?_⟩
  · rw [Json.text, String.toList_ofList]
    exact Json.allPlain_print.1 0 report
  · rw [hread]
    exact ofJson?_toJson j failure first depth

/-- A line with a mark of quotation and a character beyond 16 bits, after a step without variables.
-/
theorem text_reads_back_quoted :
    let e : Entry := ⟨0, "IDENT", some "é", [("name", "é"), ("result", "1")], none⟩
    let failure : Failure := .rejected "😀\"" (.unopened 1)
    let text := (toJson ⟨1000, true, [e], 1⟩ failure 0 defaultDepth).text
    '\\' ∈ text.toList ∧ ('\\' = '\n' ∨ ' ' ≤ '\\' ∧ '\\' ≤ '~') ∧
      (Json.read? text).bind ofJson? =
        some (⟨"CalcParseError", failure.message, some "😀\"", none, none⟩, [e]) := by
  intro e failure text
  obtain ⟨hplain, _, hread⟩ := text_reads_back ⟨1000, true, [e], 1⟩ failure 0 defaultDepth
  have htext : text.toList = (toJson ⟨1000, true, [e], 1⟩ failure 0 defaultDepth).print 0 :=
    String.toList_ofList
  have hslash : '\\' ∈ text.toList := by
    rw [htext]
    decide +kernel
  exact ⟨hslash, hplain _ hslash, hread⟩

end Report

end Calculator
