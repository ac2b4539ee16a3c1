import Mathlib.Data.List.DropRight
import Calculator.Proofs.PromptRuns
import Calculator.Proofs.Recording

/-!
# The steps that a report shows

The journal of a session has room for the last thousand entries of all lines together. A report
picks some of them by their numbers, and shows the last five of these.

1. The numbers alone tell the entries that calls make from those that were made before. A journal
   keeps as many of the last as it has room for (`Journal.since_next_recordAll`), so a report shows
   the last that the calls make, whether or not the journal still keeps the others
   (`Session.IsRecorded.recent_recordAll`).
2. The calls that a line makes are the steps of its reduction, and then its assignment
   (`Session.journal_evaluate_eq`); those of a script are the calls of its lines, up to the one that
   fails (`Script.journal_run_eq`).
-/

namespace Calculator

namespace Journal

/-! ## Further calls -/

/-- All entries that calls make of this journal, whether or not it keeps them. -/
def entriesOf (j : Journal) (calls : List Call) : List Entry :=
  (calls.zipIdx j.next).map fun (c, step) => c.entry j.verbose step

@[simp] theorem length_entriesOf (j : Journal) (calls : List Call) :
    (j.entriesOf calls).length = calls.length := by
  simp [entriesOf]

theorem map_step_entriesOf (j : Journal) (calls : List Call) :
    (j.entriesOf calls).map Entry.step = List.range' j.next calls.length := by
  rw [entriesOf, List.map_map, ← List.zipIdx_map_snd]
  rfl

theorem exists_call_of_mem_entriesOf {j : Journal} {calls : List Call} {e : Entry}
    (h : e ∈ j.entriesOf calls) : ∃ c ∈ calls, e.rule = c.rule ∧ e.statement = c.statement := by
  obtain ⟨⟨c, step⟩, hmem, rfl⟩ := List.mem_map.1 h
  exact ⟨c, List.fst_mem_of_mem_zipIdx hmem, rfl, rfl⟩

theorem next_recordAll (j : Journal) (calls : List Call) :
    (j.recordAll calls).next = j.next + calls.length := by
  induction calls generalizing j with
  | nil => rfl
  | cons c calls ih =>
    have hnext : ((j.recordCall c).recordAll calls).next = j.next + 1 + calls.length := ih _
    rw [List.length_cons, Nat.add_comm calls.length, ← Nat.add_assoc]
    exact hnext

/-- The last entries that calls make have the last numbers that the journal gave. -/
theorem map_step_rtake_entriesOf (j : Journal) (calls : List Call) (n : Nat) :
    let count := min n calls.length
    ((j.entriesOf calls).rtake n).map Entry.step =
      List.range' ((j.recordAll calls).next - count) count := by
  intro count
  rw [List.rtake, List.map_drop, map_step_entriesOf, List.drop_range', length_entriesOf,
    next_recordAll]
  congr 1 <;> omega

theorem verbose_recordAll (j : Journal) (calls : List Call) :
    (j.recordAll calls).verbose = j.verbose := by
  induction calls generalizing j with
  | nil => rfl
  | cons c calls ih => exact ih (j.recordCall c)

theorem made_append (capacity : Nat) (verbose : Bool) (earlier calls : List Call) :
    made verbose (earlier ++ calls) =
      made verbose earlier ++ ((empty capacity verbose).recordAll earlier).entriesOf calls := by
  rw [recordAll_empty, made, List.zipIdx_append, List.map_append, Nat.zero_add]
  rfl

/-- Of the entries that calls make, a journal keeps the last, as many as it has room for. -/
theorem since_next_recordAll (capacity : Nat) (verbose : Bool) (earlier calls : List Call) :
    let j := (empty capacity verbose).recordAll earlier
    (j.recordAll calls).since j.next = (j.entriesOf calls).rtake capacity := by
  intro j
  have hnext : j.next = (made verbose earlier).length := by
    rw [next_recordAll, length_made]
    exact Nat.zero_add _
  rw [← recordAll_append, since_recordAll, made_append capacity, hnext, Int.toNat_natCast,
    List.drop_append, List.drop_eq_nil_of_le (Nat.le_max_right _ _), List.nil_append,
    length_made, List.length_append, List.rtake, length_entriesOf]
  congr 1
  omega

end Journal

/-- With room for them, a report shows the last of the entries that calls make. -/
theorem Report.recent_recordAll {capacity depth : Nat} (hroom : depth ≤ capacity) (verbose : Bool)
    (earlier calls : List Journal.Call) :
    let j := (Journal.empty capacity verbose).recordAll earlier
    recent (j.recordAll calls) j.next depth = (j.entriesOf calls).rtake depth := by
  intro j
  have hsince : (j.recordAll calls).since j.next = (j.entriesOf calls).rtake capacity :=
    Journal.since_next_recordAll capacity verbose earlier calls
  rw [recent, hsince, lastOf, if_neg (by omega), Int.toNat_natCast, List.rtake, List.drop_drop,
    List.length_drop, List.rtake]
  congr 1
  omega

/-! ## The calls of lines and scripts -/

namespace Session

/-- The calls that the evaluation of a line makes: the steps of the reduction, and the assignment
if a variable takes the value. -/
def lineCalls (s : Session) (text : String) : List Journal.Call :=
  let assessment := assess s.vars text
  s.calls (some (heading text)) assessment.steps ++
    match assessment.verdict with
    | .assigned name value =>
      let vars := { s.vars with table := s.vars.table.put name value }
      calls { s with vars := vars } (some text) [.assignment name value]
    | _ => []

theorem journal_evaluate_eq (s : Session) (text : String) :
    (s.evaluate text).1.journal = s.journal.recordAll (s.lineCalls text) := by
  rw [evaluate_eq, lineCalls]
  cases (assess s.vars text).verdict with
  | assigned name value =>
    simp only [settle, assign, journal_enter, worked, Journal.recordAll_append]
    simp only [calls, Journal.verbose_recordAll]
    rfl
  | _ =>
    rw [List.append_nil]
    exact s.journal_enter _ _

/-- A line that fails assigns nothing. -/
theorem lineCalls_of_error {s : Session} {text : String} {failure : Failure}
    (h : (s.evaluate text).2 = .error failure) :
    s.lineCalls text = s.calls (some (heading text)) (assess s.vars text).steps := by
  rw [evaluate_eq] at h
  rw [lineCalls]
  cases hverdict : (assess s.vars text).verdict <;> rw [hverdict] at h
  case assigned => cases h
  all_goals exact List.append_nil _

/-- The entries of a line that fails bear the text of this line. -/
theorem statement_of_mem_entriesOf {s : Session} {text : String} {failure : Failure}
    (h : (s.evaluate text).2 = .error failure) {e : Entry}
    (he : e ∈ s.journal.entriesOf (s.lineCalls text)) : e.statement = some (heading text) := by
  rw [lineCalls_of_error h] at he
  obtain ⟨c, hc, -, hstatement⟩ := Journal.exists_call_of_mem_entriesOf he
  obtain ⟨step, -, rfl⟩ := List.mem_map.1 hc
  exact hstatement

theorem IsRecorded.recent_recordAll {s : Session} (h : s.IsRecorded) (calls : List Journal.Call) :
    Report.recent (s.journal.recordAll calls) s.journal.next Report.defaultDepth =
      (s.journal.entriesOf calls).rtake 5 := by
  obtain ⟨verbose, earlier, hjournal⟩ := h
  have hroom : 5 ≤ journalCapacity := by decide
  rw [hjournal]
  exact Report.recent_recordAll hroom verbose earlier calls

end Session

namespace Script

/-- The calls that a run makes, up to those of the line that fails if one does. -/
def calls (s : Session) : Script → List Journal.Call
  | [] => []
  | line :: rest =>
    s.lineCalls line.text ++
      match s.evaluate line.text with
      | (_, .error _) => []
      | (next, .ok _) => calls next rest

theorem journal_run_eq (s : Session) (script : Script) :
    (run s script).session.journal = s.journal.recordAll (calls s script) := by
  induction script generalizing s with
  | nil => rfl
  | cons line rest ih =>
    have hline := s.journal_evaluate_eq line.text
    rw [calls, Journal.recordAll_append]
    rcases h : s.evaluate line.text with ⟨next, failure | answer⟩ <;> rw [h] at hline
    · rw [run_cons_error h, ← hline]
      rfl
    · rw [run_cons_ok h, ← hline]
      exact ih next

end Script

/-! ## Prompts -/

namespace Console

/-- What is written of a failure whose steps are the given ones. -/
def told (display : Display) (verbose : Bool) (failure : Failure) (steps : List Entry) : Output :=
  (if verbose then
    .ofErr ("\n".intercalate (Report.stepLines steps ++ Report.failureLines failure))
  else .empty) ++
  if display.json then
    .ofErr (Json.object [("error", Report.jsonFailure failure),
      ("steps", .array (steps.map Report.jsonStep))]).text
  else .empty

theorem report_eq_told (display : Display) (j : Journal) (failure : Failure) (first : Nat) :
    report display j failure first =
      told display j.verbose failure (Report.recent j first Report.defaultDepth) := rfl

theorem Prompt.isRecorded_converse (display : Display) {s : Session} (h : s.IsRecorded)
    (inputs : List Input) : (converse display s inputs).1.IsRecorded := by
  induction inputs generalizing s with
  | nil => exact h
  | cons input inputs ih =>
    cases input with
    | interrupt => exact ih h
    | line text =>
      rw [converse_line]
      exact ih (h.evaluate text)

theorem Prompt.respond_of_error {s : Session} {text : String} {failure : Failure}
    (h : (s.evaluate text).2 = .error failure) (display : Display) :
    (respond display s (.line text)).2 = .ofOut (failure.headline display.outStyles) ++
      report display (s.evaluate text).1.journal failure s.journal.next := by
  rw [respond]
  rcases hline : s.evaluate text with ⟨next, failure' | answer⟩ <;> rw [hline] at h <;> cases h
  rfl

theorem runScript_of_failure {plan : Plan} {script : Script} {number : Nat} {failure : Failure}
    (h : (Script.run (.fresh plan.verbose) script).failure = some (number, failure))
    (source : String) :
    let fresh := Session.fresh plan.verbose
    let run := Script.run fresh script
    runScript plan source script =
      ⟨1, ⟨printed run.values, header source (some number) ++
        (failure.headline plan.display.errStyles ++ "\n" ++
          (report plan.display run.session.journal failure fresh.journal.next).err)⟩⟩ := by
  simp only [runScript_eq, scriptErrors, h]
  rfl

end Console

open Console

/-- **The steps of a failure.** Whatever was done with a session before, and at a prompt whatever
was read before: a report of a line that fails shows the last five of the steps that this line
recorded, or all if they are fewer, in order, under the numbers that they have in the journal, which
follow those of all earlier steps. So does the report of a script that fails, with the steps that
the whole run recorded, and these are the steps that a command writes of it. -/
theorem failures_show_own_steps (vars : Variables) (verbose : Bool) (actions : List Action) :
    let start := (Session.ofVariables vars verbose).after actions
    (∀ (display : Display) (inputs : List Input) (text : String) (failure : Failure),
      let s := (Prompt.converse display start inputs).1
      let next := (s.evaluate text).1
      let calls := s.lineCalls text
      let count := min 5 calls.length
      let shown := (s.journal.entriesOf calls).rtake 5
      (s.evaluate text).2 = .error failure →
      next.journal = s.journal.recordAll calls ∧
        next.journal.next = s.journal.next + calls.length ∧
        Report.recent next.journal s.journal.next Report.defaultDepth = shown ∧
        shown.map Entry.step = List.range' (next.journal.next - count) count ∧
        (∀ e ∈ shown, e.statement = some (Session.heading text)) ∧
        (Prompt.respond display s (.line text)).2 =
          .ofOut (failure.headline display.outStyles) ++
            told display s.journal.verbose failure shown) ∧
    (∀ (script : Script) (number : Nat) (failure : Failure),
      let run := Script.run start script
      let calls := Script.calls start script
      let count := min 5 calls.length
      let shown := (start.journal.entriesOf calls).rtake 5
      run.failure = some (number, failure) →
      run.session.journal = start.journal.recordAll calls ∧
        run.session.journal.next = start.journal.next + calls.length ∧
        Report.recent run.session.journal start.journal.next Report.defaultDepth = shown ∧
        shown.map Entry.step = List.range' (run.session.journal.next - count) count) ∧
    ∀ (plan : Plan) (source : String) (script : Script) (number : Nat) (failure : Failure),
      let fresh := Session.fresh plan.verbose
      let run := Script.run fresh script
      let calls := Script.calls fresh script
      let shown := (fresh.journal.entriesOf calls).rtake 5
      run.failure = some (number, failure) →
      runScript plan source script =
        ⟨1, ⟨printed run.values, header source (some number) ++
          (failure.headline plan.display.errStyles ++ "\n" ++
            (told plan.display plan.verbose failure shown).err)⟩⟩ := by
  intro start
  have hstart : start.IsRecorded := (Session.isRecorded_ofVariables vars verbose).after actions
  refine ⟨?_, ?_, ?_⟩
  · intro display inputs text failure s next calls count shown hfailure
    have hs : s.IsRecorded := Prompt.isRecorded_converse display hstart inputs
    have hjournal : next.journal = s.journal.recordAll calls := s.journal_evaluate_eq text
    have hrecent : Report.recent next.journal s.journal.next Report.defaultDepth = shown := by
      rw [hjournal]
      exact hs.recent_recordAll calls
    have hreport : report display next.journal failure s.journal.next =
        told display s.journal.verbose failure shown := by
      rw [report_eq_told, hrecent, hjournal, Journal.verbose_recordAll]
    refine ⟨hjournal, ?_, hrecent, ?_, ?_, ?_⟩
    · rw [hjournal, Journal.next_recordAll]
    · rw [hjournal]
      exact s.journal.map_step_rtake_entriesOf calls 5
    · intro e he
      exact Session.statement_of_mem_entriesOf hfailure (List.mem_of_mem_drop he)
    · rw [← hreport]
      exact Prompt.respond_of_error hfailure display
  · intro script number failure run calls count shown hfailure
    have hjournal : run.session.journal = start.journal.recordAll calls :=
      Script.journal_run_eq start script
    rw [hjournal]
    exact ⟨rfl, Journal.next_recordAll _ _, hstart.recent_recordAll calls,
      start.journal.map_step_rtake_entriesOf calls 5⟩
  · intro plan source script number failure fresh run calls shown hfailure
    have hfresh : fresh.IsRecorded := Session.isRecorded_ofVariables .empty plan.verbose
    have hreport : report plan.display run.session.journal failure fresh.journal.next =
        told plan.display plan.verbose failure shown := by
      have hjournal : run.session.journal = fresh.journal.recordAll calls :=
        Script.journal_run_eq fresh script
      rw [report_eq_told, hjournal, hfresh.recent_recordAll, Journal.verbose_recordAll]
      rfl
    rw [← hreport]
    exact runScript_of_failure hfailure source

/-- The assignment is step 0. The line after it takes steps 1 to 7 before `y` has no value, and the
last five of them are shown, at a prompt as well as of a script. -/
theorem failures_show_own_steps_unbound :
    let display : Display := ⟨true, true, false, false⟩
    let plan : Plan := ⟨.expression "", true, display⟩
    let text := "(x + 1) * (x + 2) + y"
    let script : Script := [⟨1, "x = 2"⟩, ⟨3, text⟩]
    let failure : Failure := .fault (.unbound "y") (some 7)
    let start := (Session.ofVariables .empty true).after []
    let s := (Prompt.converse display start [.line "x = 2", .interrupt]).1
    let run := Script.run start script
    let entry (step : Nat) (rule : String) (detail : Table String) : Entry :=
      ⟨step, rule, some text, detail, some [("x", "2"), ("_", "2")]⟩
    let shown := [entry 3 "GROUP" [("index", "0"), ("result", "3")],
      entry 4 "IDENT" [("name", "x"), ("result", "2")],
      entry 5 "ADD" [("index", "1"), ("lhs", "2"), ("rhs", "2"), ("result", "4")],
      entry 6 "GROUP" [("index", "2"), ("result", "4")],
      entry 7 "MULTIPLY" [("index", "1"), ("lhs", "3"), ("rhs", "4"), ("result", "12")]]
    let lines := ["Reduction steps (most recent last):",
      "  [3] GROUP index=0 result=3",
      "  [4] IDENT name=x result=2",
      "  [5] ADD index=1 lhs=2 rhs=2 result=4",
      "  [6] GROUP index=2 result=4",
      "  [7] MULTIPLY index=1 lhs=3 rhs=4 result=12",
      "  Env snapshot: x=2, _=2",
      "VarNotFound: 'y' not in variable table (rule: IDENT)"]
    let json := Json.object
      [("error", Report.jsonFailure failure), ("steps", .array (shown.map Report.jsonStep))]
    let written := "\n".intercalate lines ++ "\n" ++ (json.text ++ "\n")
    ((s.evaluate text).2 = .error failure ∧
      Report.recent (s.evaluate text).1.journal s.journal.next Report.defaultDepth = shown ∧
      (Prompt.respond display s (.line text)).2 = ⟨"ERROR variable not found: 'y'\n", written⟩) ∧
    run.failure = some (3, failure) ∧
      Report.recent run.session.journal start.journal.next Report.defaultDepth = shown ∧
      runScript plan "<expr>" script =
        ⟨1, ⟨"", "<expr>, line 3:\n" ++ ("ERROR variable not found: 'y'\n" ++ written)⟩⟩ := by
  intro display plan text script failure start s run entry shown lines json written
  have hline : (s.evaluate text).2 = .error failure := by decide +kernel
  have hfailure : run.failure = some (3, failure) := by decide +kernel
  have hown : (s.journal.entriesOf (s.lineCalls text)).rtake 5 = shown := by decide +kernel
  have hall : (start.journal.entriesOf (Script.calls start script)).rtake 5 = shown := by
    decide +kernel
  have hverbose : s.journal.verbose = true := by decide +kernel
  have hvalues : run.values = [] := by decide +kernel
  have hheadline : failure.headline false ++ "\n" = "ERROR variable not found: 'y'\n" := by
    decide +kernel
  have hheader : header "<expr>" (some 3) = "<expr>, line 3:\n" := by decide +kernel
  have hlines : Report.stepLines shown ++ Report.failureLines failure = lines := by
    decide +kernel
  have htold : told display true failure shown = ⟨"", written⟩ := by
    rw [told, if_pos rfl, if_pos rfl, hlines]
    rfl
  -- the sessions get their names back, so that they need not be worked out to be compared
  have hstart : (Session.ofVariables .empty true).after [] = start := rfl
  have hfresh : Session.fresh plan.verbose = start := rfl
  have hs : (Prompt.converse display start [.line "x = 2", .interrupt]).1 = s := rfl
  have hrun : Script.run start script = run := rfl
  obtain ⟨hprompt, hscript, hplan⟩ := failures_show_own_steps .empty true []
  rw [hstart] at hprompt hscript
  have hprompt := hprompt display [.line "x = 2", .interrupt] text failure
  rw [hs] at hprompt
  obtain ⟨-, -, hrecent, -, -, hrespond⟩ := hprompt hline
  have hscript := hscript script 3 failure
  rw [hrun] at hscript
  obtain ⟨-, -, hrecent', -⟩ := hscript hfailure
  have hplan := hplan plan "<expr>" script 3 failure
  rw [hfresh] at hplan
  have hwritten := hplan hfailure
  rw [hrun] at hwritten
  refine ⟨⟨hline, ?_, ?_⟩, hfailure, ?_, ?_⟩
  · rw [hrecent, hown]
  · rw [hrespond, hown, hverbose, htold]
    exact congrArg₂ Output.mk (String.append_empty.trans hheadline) String.empty_append
  · rw [hrecent', hall]
  · rw [hwritten, hall, hvalues, printed_nil, hheader]
    change (⟨1, ⟨"", "<expr>, line 3:\n" ++
      (failure.headline false ++ "\n" ++ (told display true failure shown).err)⟩⟩ : Result) = _
    rw [hheadline, htold]

end Calculator
