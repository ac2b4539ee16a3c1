import Mathlib.Data.List.Basic
import Calculator.Console.Command
import Calculator.Proofs.PhysicalLines

/-!
# Where scripts come from

A plan may run the text that stands in the command line, or the one in a file.

1. A plan with a text to run does what the script of this text does (`Plan.run_of_source?`). The
   values go to the output stream, one per line, and the source of the text is named only where a
   failure is told (`runScript_eq`).
2. A file is read with plain newlines (`decode?_toUTF8`). These do not change the script
   (`Script.ofText_plainNewlines`), so a text does the same in a file as in the command line.
-/

namespace Calculator.Console

/-! ## What a script writes -/

/-- Values as they are written to the output stream. -/
def printed (values : List Int) : String := String.join (values.map fun v => Decimal.text v ++ "\n")

@[simp] theorem printed_nil : printed [] = "" := String.join_nil

theorem printed_cons (v : Int) (values : List Int) :
    printed (v :: values) = Decimal.text v ++ "\n" ++ printed values := String.join_cons

theorem concat_ofOut (values : List Int) :
    Output.concat (values.map fun v => .ofOut (Decimal.text v)) = ⟨printed values, ""⟩ := by
  induction values with
  | nil => rw [printed_nil]; rfl
  | cons v values ih =>
    have hcons : Output.concat ((v :: values).map fun v => .ofOut (Decimal.text v)) =
        .ofOut (Decimal.text v) ++ Output.concat (values.map fun v => .ofOut (Decimal.text v)) :=
      rfl
    rw [hcons, ih, printed_cons]
    rfl

/-- The line of the error stream that says where a script failed, if it did. -/
def header (source : String) (number : Option Nat) : String :=
  match number with
  | none => ""
  | some number => source ++ ", line " ++ number.repr ++ ":\n"

/-- What a script writes to the error stream, after the line that says where it failed. -/
def scriptErrors (plan : Plan) (run : Script.Run) : String :=
  match run.failure with
  | none => (trace run.session.journal 0).err
  | some (_, failure) =>
    failure.headline plan.display.errStyles ++ "\n" ++
      (report plan.display run.session.journal failure 0).err

theorem runScript_eq (plan : Plan) (source : String) (script : Script) :
    runScript plan source script =
      let run := script.run (.fresh plan.verbose)
      ⟨if run.failure.isNone then 0 else 1,
        printed run.values, header source (run.failure.map Prod.fst) ++ scriptErrors plan run⟩ := by
  rcases hrun : script.run (.fresh plan.verbose) with ⟨last, values, failure⟩
  have houtput (a b : Output) : a ++ b = ⟨a.out ++ b.out, a.err ++ b.err⟩ := rfl
  rcases failure with _ | ⟨number, failure⟩
  · simp [runScript, hrun, concat_ofOut, houtput, header, scriptErrors]
  · simp [runScript, hrun, concat_ofOut, houtput, header, scriptErrors, Output.ofErr,
      String.append_assoc]

/-! ## The texts of plans -/

/-- The name under which an expression is told. -/
def expressionSource : String := "<expr>"

/-- The text that a plan runs as a script, after the name under which it is told: its expression, or
the content of its file if that can be read and is a text. -/
def Plan.source? (plan : Plan) (files : String → FileContent) : Option (String × String) :=
  match plan.task with
  | .expression text => some (expressionSource, text)
  | .file name =>
    if '\x00' ∈ name.toList then none
    else
      match files name with
      | .error _ => none
      | .ok content => (decode? content).map fun text => (name, text)
  | .prompt => none
  | .noExpression => none

theorem Plan.run_of_source? {plan : Plan} {files : String → FileContent} {source text : String}
    (h : plan.source? files = some (source, text)) (inputs : List Input) :
    plan.run files inputs = .ok (runScript plan source (.ofText text)) := by
  obtain ⟨task, verbose, display⟩ := plan
  cases task with
  | prompt => cases h
  | noExpression => cases h
  | expression text' =>
    cases h
    rfl
  | file name =>
    simp only [Plan.source?] at h
    split_ifs at h with hname
    rcases hfile : files name with cause | content <;> rw [hfile] at h
    · cases h
    · obtain ⟨text', htext, heq⟩ := Option.map_eq_some_iff.1 h
      cases heq
      simp only [Plan.run, runFile, if_neg hname, hfile, htext]

/-! ## Files -/

theorem decode?_toUTF8 (text : String) :
    decode? text.toUTF8 = some (String.ofList (Text.plainNewlines text.toList)) := by
  have hread : String.fromUTF8? text.toUTF8 = some text := by
    rw [String.fromUTF8?, String.toUTF8_eq_toByteArray, dif_pos text.isValidUTF8]
    rfl
  rw [decode?, hread]
  rfl

/-- **Files and expressions.** A text that is read from a file, with plain newlines, has the script
of the text itself, with the same numbers of lines. So a text does the same in a file and in the
command line: the exit code, the output stream and the error stream are the same, but for the source
in the line that says where it failed. -/
theorem file_agrees_with_expression :
    (∀ text : String, ∃ read, decode? text.toUTF8 = some read ∧
      read = String.ofList (Text.plainNewlines text.toList) ∧
      Script.ofText read = Script.ofText text) ∧
    ∀ (plan : Plan) (files : String → FileContent) (inputs : List Input) (text name : String),
      '\x00' ∉ name.toList → files name = .ok text.toUTF8 →
      let run := Script.run (.fresh plan.verbose) (.ofText text)
      let exit := if run.failure.isNone then 0 else 1
      let number := run.failure.map Prod.fst
      ∃ err,
        { plan with task := .file name }.run files inputs =
            .ok ⟨exit, ⟨printed run.values, header name number ++ err⟩⟩ ∧
          { plan with task := .expression text }.run files inputs =
            .ok ⟨exit, ⟨printed run.values, header "<expr>" number ++ err⟩⟩ := by
  constructor
  · exact fun text => ⟨_, decode?_toUTF8 text, rfl, Script.ofText_plainNewlines text⟩
  · intro plan files inputs text name hname hfile run exit number
    have hsource : { plan with task := .file name }.source? files =
        some (name, String.ofList (Text.plainNewlines text.toList)) := by
      simp only [Plan.source?, if_neg hname, hfile, decode?_toUTF8, Option.map_some]
    have hfileRun := Plan.run_of_source? hsource inputs
    rw [Script.ofText_plainNewlines, runScript_eq] at hfileRun
    have hexpression : { plan with task := .expression text }.source? files =
        some (expressionSource, text) := rfl
    have hexpressionRun := Plan.run_of_source? hexpression inputs
    rw [runScript_eq] at hexpressionRun
    exact ⟨scriptErrors plan run, hfileRun, hexpressionRun⟩

/-- The lines after a lone carriage return and after both characters count, and the second of them
fails. -/
theorem file_agrees_with_expression_return :
    let plan : Plan := ⟨.prompt, true, ⟨false, true, false, false⟩⟩
    let text := "x = 6\r_ - 2\r\n1 / (x - x)\r2"
    let files : String → FileContent := fun _ => .ok text.toUTF8
    '\x00' ∉ "sum".toList ∧ files "sum" = .ok text.toUTF8 ∧ ∃ err,
      { plan with task := .file "sum" }.run files [] =
          .ok ⟨1, ⟨"4\n", "sum, line 3:\n" ++ err⟩⟩ ∧
        { plan with task := .expression text }.run files [] =
          .ok ⟨1, ⟨"4\n", "<expr>, line 3:\n" ++ err⟩⟩ := by
  intro plan text files
  have hvalues : (Script.run (.fresh true) (.ofText text)).values = [4] := by decide +kernel
  have hnumber : (Script.run (.fresh true) (.ofText text)).failure.map Prod.fst = some 3 := by
    decide +kernel
  have hfailure : (Script.run (.fresh true) (.ofText text)).failure.isNone = false := by
    decide +kernel
  have hprinted : printed [4] = "4\n" := by decide +kernel
  have hfile : header "sum" (some 3) = "sum, line 3:\n" := by decide +kernel
  have hexpression : header "<expr>" (some 3) = "<expr>, line 3:\n" := by decide +kernel
  have hboth := file_agrees_with_expression.2 plan files [] text "sum" (by decide) rfl
  simp only [plan, hvalues, hnumber, hfailure, hprinted, hfile, hexpression] at hboth
  exact ⟨by decide, rfl, hboth⟩

end Calculator.Console
