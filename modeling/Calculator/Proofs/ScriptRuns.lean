import Mathlib.Data.List.Basic
import Calculator.Dialogue
import Calculator.Proofs.Assessment
import Calculator.Proofs.Margins
import Calculator.Proofs.Sources

/-!
# Script runs

A script runs as if each physical line of its text, without the blanks at its ends, were evaluated
in turn until one fails.

1. What the lines come to, were all of them evaluated, is `Session.results`. A run gives out the
   values before the first failure (`Script.values_run`); without a failure it ends like the
   evaluation of all lines (`Script.run_numbered_of_forall_isOk`), and otherwise at the first line
   that fails (`Script.run_numbered_of_error`).
2. The lines that a script leaves out are blank or comments, which come to nothing
   (`Session.evaluate_of_isIdle`), so the run is the same with them (`Script.run_ofLines`).
-/

namespace Calculator

/-- The physical lines of a text without the blanks at their ends. -/
def Text.trimmedLines (text : String) : List String :=
  (Text.lines text.toList).map fun l => String.ofList (Text.trim l)

namespace Session

/-- What each of the texts comes to, one after the other; the texts after a failure are evaluated as
well. -/
def results (s : Session) : List String → List (Except Failure (Option Answer))
  | [] => []
  | text :: texts => (s.evaluate text).2 :: (s.evaluate text).1.results texts

theorem results_append (s : Session) (texts more : List String) :
    s.results (texts ++ more) =
      s.results texts ++ (s.after (texts.map .evaluate)).results more := by
  induction texts generalizing s with
  | nil => rfl
  | cons text texts ih => exact congrArg ((s.evaluate text).2 :: ·) (ih _)

theorem results_of_error {s : Session} {texts : List String} {text : String} {failure : Failure}
    (h : ((s.after (texts.map .evaluate)).evaluate text).2 = .error failure) (more : List String) :
    ∃ rest, s.results (texts ++ text :: more) = s.results texts ++ .error failure :: rest := by
  rw [results_append, results, h]
  exact ⟨_, rfl⟩

/-- A text that fails leaves nothing but its steps. -/
theorem evaluate_of_error {s : Session} {text : String} {failure : Failure}
    (h : (s.evaluate text).2 = .error failure) : (s.evaluate text).1 = s.worked text := by
  rw [evaluate_eq] at h ⊢
  cases hverdict : (assess s.vars text).verdict <;> rw [hverdict] at h <;> cases h <;> rfl

end Session

namespace Script

section Given

variable {ε : Type}

/-- The value of a result, unless it is a failure or the line was blank or a variable took it. -/
def valueOf? : Except ε (Option Answer) → Option Int
  | .ok (some ⟨value, none⟩) => some value
  | _ => none

theorem valueOf?_ok (answer : Option Answer) :
    valueOf? (.ok answer : Except ε (Option Answer)) = given? answer := by
  rcases answer with _ | ⟨value, _ | name⟩ <;> rfl

/-- The values of the results before the first failure. -/
def givenBefore (results : List (Except ε (Option Answer))) : List Int :=
  (results.takeWhile Except.isOk).filterMap valueOf?

theorem givenBefore_cons_ok (answer : Option Answer) (results : List (Except ε (Option Answer))) :
    givenBefore (.ok answer :: results) = (given? answer).toList ++ givenBefore results := by
  rw [givenBefore, List.takeWhile_cons_of_pos rfl, List.filterMap_cons, valueOf?_ok]
  cases given? answer <;> rfl

/-- Nothing after a failure counts. -/
theorem givenBefore_append_error (results rest : List (Except ε (Option Answer))) (cause : ε) :
    givenBefore (results ++ .error cause :: rest) = givenBefore results := by
  induction results with
  | nil => rfl
  | cons result results ih =>
    cases result with
    | error cause => rfl
    | ok answer => rw [List.cons_append, givenBefore_cons_ok, givenBefore_cons_ok, ih]

end Given

/-! ## Runs and results -/

theorem run_cons_ok {s next : Session} {line : ScriptLine} {answer : Option Answer}
    (h : s.evaluate line.text = (next, .ok answer)) (rest : Script) :
    run s (line :: rest) =
      { run next rest with values := (given? answer).toList ++ (run next rest).values } := by
  rw [run, h]

theorem run_cons_idle {s : Session} {line : ScriptLine} (h : s.evaluate line.text = (s, .ok none))
    (rest : Script) : run s (line :: rest) = run s rest := by
  rw [run_cons_ok h]
  rfl

theorem run_cons_error {s next : Session} {line : ScriptLine} {failure : Failure}
    (h : s.evaluate line.text = (next, .error failure)) (rest : Script) :
    run s (line :: rest) = ⟨next, [], some (line.number, failure)⟩ := by
  rw [run, h]

theorem values_run (s : Session) (script : Script) :
    (run s script).values = givenBefore (s.results (script.map ScriptLine.text)) := by
  induction script generalizing s with
  | nil => rfl
  | cons line rest ih =>
    rw [List.map_cons, Session.results]
    rcases h : s.evaluate line.text with ⟨next, failure | answer⟩
    · rw [run_cons_error h]
      rfl
    · rw [run_cons_ok h, givenBefore_cons_ok, ih]

theorem isNone_failure_run (s : Session) (script : Script) :
    (run s script).failure.isNone = (s.results (script.map ScriptLine.text)).all Except.isOk := by
  induction script generalizing s with
  | nil => rfl
  | cons line rest ih =>
    rw [List.map_cons, Session.results, List.all_cons]
    rcases h : s.evaluate line.text with ⟨next, failure | answer⟩
    · rw [run_cons_error h]
      rfl
    · rw [run_cons_ok h, ih]
      rfl

/-- After lines without a failure, a run goes on from the session that they lead to. -/
theorem run_append {s : Session} {before : Script}
    (h : ∀ r ∈ s.results (before.map ScriptLine.text), r.isOk) (rest : Script) :
    let reached := s.after ((before.map ScriptLine.text).map .evaluate)
    (run s (before ++ rest)).failure = (run reached rest).failure ∧
      (run s (before ++ rest)).session = (run reached rest).session := by
  induction before generalizing s with
  | nil => exact ⟨rfl, rfl⟩
  | cons line before ih =>
    rw [List.map_cons, Session.results, List.forall_mem_cons] at h
    rcases hline : s.evaluate line.text with ⟨next, failure | answer⟩ <;> rw [hline] at h
    · cases h.1
    · have hact : (s.act (.evaluate line.text)).1 = next := congrArg Prod.fst hline
      rw [List.map_cons, List.map_cons, Session.after, hact, List.cons_append, run_cons_ok hline]
      exact ih h.2

/-! ## Numbered lines -/

/-- All texts, with consecutive numbers. -/
def numbered (number : Nat) : List String → Script
  | [] => []
  | text :: texts => ⟨number, text⟩ :: numbered (number + 1) texts

@[simp] theorem map_text_numbered (number : Nat) (texts : List String) :
    (numbered number texts).map ScriptLine.text = texts := by
  induction texts generalizing number with
  | nil => rfl
  | cons text texts ih => rw [numbered, List.map_cons, ih]

theorem numbered_append (number : Nat) (texts more : List String) :
    numbered number (texts ++ more) =
      numbered number texts ++ numbered (number + texts.length) more := by
  induction texts generalizing number with
  | nil => rfl
  | cons text texts ih =>
    rw [List.cons_append, numbered, numbered, ih, List.length_cons, Nat.add_assoc,
      Nat.add_comm 1, List.cons_append]

theorem run_numbered_append {s : Session} {before : List String}
    (h : ∀ r ∈ s.results before, r.isOk) (rest : List String) :
    let reached := s.after (before.map .evaluate)
    let later := run reached (numbered (1 + before.length) rest)
    (run s (numbered 1 (before ++ rest))).failure = later.failure ∧
      (run s (numbered 1 (before ++ rest))).session = later.session := by
  have hrun := @run_append s (numbered 1 before) (by rwa [map_text_numbered])
    (numbered (1 + before.length) rest)
  rwa [map_text_numbered, ← numbered_append] at hrun

theorem run_numbered_of_forall_isOk {s : Session} {texts : List String}
    (h : ∀ r ∈ s.results texts, r.isOk) :
    (run s (numbered 1 texts)).failure = none ∧
      (run s (numbered 1 texts)).session = s.after (texts.map .evaluate) := by
  have hrun := run_numbered_append h []
  rwa [List.append_nil] at hrun

theorem run_numbered_of_error {s : Session} {before : List String} {line : String}
    {failure : Failure} (hbefore : ∀ r ∈ s.results before, r.isOk)
    (hline : ((s.after (before.map .evaluate)).evaluate line).2 = .error failure)
    (after : List String) :
    (run s (numbered 1 (before ++ line :: after))).failure = some (before.length + 1, failure) ∧
      (run s (numbered 1 (before ++ line :: after))).session =
        (s.after (before.map .evaluate)).worked line := by
  have hrun : run (s.after (before.map .evaluate)) (numbered (1 + before.length) (line :: after)) =
      ⟨(s.after (before.map .evaluate)).worked line, [], some (1 + before.length, failure)⟩ := by
    refine run_cons_error ?_ _
    exact Prod.ext (Session.evaluate_of_error hline) hline
  obtain ⟨hfailure, hsession⟩ := run_numbered_append hbefore (line :: after)
  rw [hfailure, hsession, hrun, Nat.add_comm 1]
  exact ⟨rfl, rfl⟩

end Script

/-! ## The lines that are left out -/

/-- A line that begins with a number sign, or that is empty, is blank. -/
theorem Statement.ofText_of_isIdle {cs : List Char} (hidle : Script.isIdle cs) (hcs : '\n' ∉ cs) :
    ofText (String.ofList cs) = .ok none := by
  have hlexemes : (Tokens.ofText (String.ofList cs)).lexemes = ([.newline], false) := by
    rw [Tokens.ofText, String.toList_ofList, closed_of_not_mem hcs]
    cases cs with
    | nil => rfl
    | cons c cs =>
      obtain rfl : c = '#' := by simpa [Script.isIdle] using hidle
      exact Tokens.lexemes_scan_comment 0 fun h => hcs (List.mem_cons_of_mem _ h)
  -- The empty text has the same lexemes.
  rcases @alike_of_lexemes _ "" hlexemes with hempty | ⟨-, cause, -, hempty⟩
  · exact hempty
  · cases hempty

theorem Session.evaluate_of_isIdle {cs : List Char} (hidle : Script.isIdle cs) (hcs : '\n' ∉ cs)
    (s : Session) : s.evaluate (String.ofList cs) = (s, .ok none) := by
  rw [evaluate, workOut, Statement.ofText_of_isIdle hidle hcs]

/-- Blank lines and comments may be left out of a run. -/
theorem Script.run_ofLines (s : Session) (number : Nat) {ls : List (List Char)}
    (hls : ∀ l ∈ ls, '\n' ∉ l) :
    run s (ofLines number ls) =
      run s (numbered number (ls.map fun l => String.ofList (Text.trim l))) := by
  induction ls generalizing s number with
  | nil => rfl
  | cons l ls ih =>
    rw [List.forall_mem_cons] at hls
    have hrest (s : Session) := ih s (number + 1) hls.2
    rw [ofLines, List.map_cons, numbered]
    split_ifs with hidle
    · have hline : s.evaluate (String.ofList (Text.trim l)) = (s, .ok none) :=
        Session.evaluate_of_isIdle hidle (fun h => hls.1 (Text.mem_of_mem_trim h)) s
      rw [hrest]
      refine (run_cons_idle ?_ _).symm
      exact hline
    · rw [run, run]
      simp only [hrest]

theorem Script.run_ofText (s : Session) (text : String) :
    run s (ofText text) = run s (numbered 1 (Text.trimmedLines text)) := by
  rw [ofText_eq, run_ofLines s 1 ?_]
  · rfl
  · exact fun l hl hnewline => Text.not_isLineBreak_of_mem_lines hl _ hnewline rfl

open Console

/-- **Every line counts.** A script gives out, in order, the values of all physical lines of its
text before the first that fails, as far as no variable took them. If no line fails, it ends like
the evaluation of all lines, blanks and comments among them. If one does, the failure is told with
the number of this line; the variables are those after the lines before it, and the journal has the
steps of these lines and those that the line itself took. A command that runs such a text exits with
0 if no line fails and with 1 otherwise, and its output stream has these values, one per line. -/
theorem script_evaluates_every_line :
    (∀ (s : Session) (text : String),
      let texts := Text.trimmedLines text
      let run := Script.run s (.ofText text)
      run.values = Script.givenBefore (s.results texts) ∧
        ((∀ r ∈ s.results texts, r.isOk) →
          run.failure = none ∧ run.session = s.after (texts.map .evaluate)) ∧
        ∀ before line after failure, texts = before ++ line :: after →
          (∀ r ∈ s.results before, r.isOk) →
          let reached := s.after (before.map .evaluate)
          (reached.evaluate line).2 = .error failure →
          run.failure = some (before.length + 1, failure) ∧
            run.session = (reached.evaluate line).1 ∧ run.session.vars = reached.vars ∧
            run.session.journal = (reached.worked line).journal) ∧
    ∀ (plan : Plan) (files : String → FileContent) (inputs : List Input) (source text : String),
      plan.source? files = some (source, text) →
      let results := (Session.fresh plan.verbose).results (Text.trimmedLines text)
      ∃ result, plan.run files inputs = .ok result ∧
        result.exit = (if results.all Except.isOk then 0 else 1) ∧
        result.output.out = printed (Script.givenBefore results) := by
  constructor
  · intro s text texts run
    have hrun : run = Script.run s (Script.numbered 1 texts) := Script.run_ofText s text
    rw [hrun]
    refine ⟨?_, Script.run_numbered_of_forall_isOk, ?_⟩
    · rw [Script.values_run, Script.map_text_numbered]
    · intro before line after failure htexts hbefore reached hline
      obtain ⟨hfailure, hsession⟩ := Script.run_numbered_of_error hbefore hline after
      rw [htexts, hfailure, hsession]
      exact ⟨rfl, (Session.evaluate_of_error hline).symm, Session.vars_worked _ _, rfl⟩
  · intro plan files inputs source text hsource results
    have hresult := Plan.run_of_source? hsource inputs
    simp only [runScript_eq, Script.run_ofText, Script.values_run, Script.isNone_failure_run,
      Script.map_text_numbered] at hresult
    exact ⟨_, hresult, rfl, rfl⟩

/-- A variable takes the value of the second line. The fifth line fails after its third step, and
the sixth is not reached. -/
theorem script_evaluates_every_line_division :
    let text := "1\nx = 6\n  # six\n_ = x / 2\n_ / (1 - 1)\n5"
    let before := ["1", "x = 6", "# six", "_ = x / 2"]
    let failure : Failure := .fault (.divisionByZero "DIVIDE") (some 5)
    let plan : Plan := ⟨.expression text, false, ⟨false, false, false, false⟩⟩
    let files : String → FileContent := fun _ => .error .missing
    let s := Session.fresh false
    let reached := s.after (before.map .evaluate)
    let run := Script.run s (.ofText text)
    (Text.trimmedLines text = before ++ "_ / (1 - 1)" :: ["5"] ∧ (∀ r ∈ s.results before, r.isOk) ∧
      (reached.evaluate "_ / (1 - 1)").2 = .error failure ∧
      run.values = [1, 3] ∧ run.failure = some (5, failure) ∧
      run.session = (reached.evaluate "_ / (1 - 1)").1 ∧
      run.session.vars.table = [("x", 6)] ∧ run.session.vars.last = 3 ∧
      run.session.journal.next = 6 ∧
      run.session.journal = (reached.worked "_ / (1 - 1)").journal) ∧
    plan.source? files = some ("<expr>", text) ∧
      ∃ err, plan.run files [] = .ok ⟨1, ⟨"1\n3\n", err⟩⟩ := by
  intro text before failure plan files s reached run
  have htexts : Text.trimmedLines text = before ++ "_ / (1 - 1)" :: ["5"] := by decide +kernel
  have hbefore : ∀ r ∈ s.results before, r.isOk := by decide +kernel
  have hline : (reached.evaluate "_ / (1 - 1)").2 = .error failure := by decide +kernel
  have hgiven : Script.givenBefore (s.results (Text.trimmedLines text)) = [1, 3] := by
    decide +kernel
  have htable : reached.vars.table = [("x", 6)] := by decide +kernel
  have hlast : reached.vars.last = 3 := by decide +kernel
  have hnext : (reached.worked "_ / (1 - 1)").journal.next = 6 := by decide +kernel
  obtain ⟨hvalues, -, hstops⟩ := script_evaluates_every_line.1 s text
  obtain ⟨hfailure, hsession, hkept, hjournal⟩ :=
    hstops before "_ / (1 - 1)" ["5"] failure htexts hbefore hline
  refine ⟨⟨htexts, hbefore, hline, ?_, hfailure, hsession, ?_, ?_, ?_, hjournal⟩, rfl, ?_⟩
  · exact hvalues.trans hgiven
  · rw [hkept, htable]
  · rw [hkept, hlast]
  · rw [hjournal, hnext]
  · obtain ⟨⟨exit, out, err⟩, hresult, hexit, hout⟩ :=
      script_evaluates_every_line.2 plan files [] "<expr>" text rfl
    have hone : (if (s.results (Text.trimmedLines text)).all Except.isOk then 0 else 1) = 1 := by
      decide +kernel
    have hprinted : printed (Script.givenBefore (s.results (Text.trimmedLines text))) =
        "1\n3\n" := by
      rw [hgiven]
      decide +kernel
    have hexit : exit = 1 := hexit.trans hone
    have hout : out = "1\n3\n" := hout.trans hprinted
    rw [hresult, hexit, hout]
    exact ⟨err, rfl⟩

end Calculator
