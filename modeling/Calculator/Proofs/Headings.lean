import Calculator.Proofs.Performance
import Calculator.Proofs.RecentSteps
import Calculator.Proofs.ScriptLines

/-!
# Under which text steps are entered

The entries that a line makes carry the text they belong to. Those of its reduction carry the line
without the blanks at its ends (`Session.heading`), but that of its assignment carries the line as
it was given.

1. No step of a reduction has the rule of an assignment (`Session.rule_ne_of_mem_steps`), so the
   rule of an entry tells which of the two texts it carries
   (`Session.statement_of_mem_lineEntries`).
2. So the entries of a line carry different texts just if there are entries of both kinds and the
   line has blanks at its ends (`statements_of_line`). The lines of a script have none there
   (`Script.statement_of_mem_lineEntries`).
-/

namespace Calculator

/-- The entries that calls make are what is added to the journal, one after the other. -/
theorem Journal.recordAll_eq_foldl_add (j : Journal) (calls : List Call) :
    j.recordAll calls = (j.entriesOf calls).foldl add j := by
  induction calls generalizing j with
  | nil => rfl
  | cons c calls ih => exact ih (j.recordCall c)

/-! ## The rules of a reduction -/

theorem Task.Yields.rule_ne {vars : Variables} {t : Task} {step : Step} (h : t.Yields vars step) :
    step.rule ≠ "ASSIGN" := by
  cases h with
  | look => simp [Step.rule]
  | group => simp [Step.rule]
  | @operate op => cases op <;> simp [Step.rule, Operator.tag]

theorem rule_ne_of_yielded {vars : Variables} {tasks : List Task} {steps : List Step}
    (h : List.Forall₂ (Task.Yields vars) tasks steps) : ∀ step ∈ steps, step.rule ≠ "ASSIGN" := by
  have hrule : List.Forall₂ (fun step t => step.rule ≠ "ASSIGN" ∧ Task.Yields vars t step)
      steps tasks := h.flip.imp fun _ _ hyields => ⟨hyields.rule_ne, hyields⟩
  exact ((List.forall₂_and_left steps tasks).1 hrule).1

theorem Performs.rule_ne {vars : Variables} {tasks : List Task} {α : Type} {x : Traced Fault α}
    {P : α → Prop} (h : Performs vars tasks x P) : ∀ step ∈ x.steps, step.rule ≠ "ASSIGN" := by
  obtain ⟨steps, fault | a⟩ := x
  · obtain ⟨done, t, rest, -, hdone, -⟩ := h
    exact rule_ne_of_yielded hdone
  · exact rule_ne_of_yielded h.2

namespace Session

theorem rule_ne_of_mem_steps {vars : Variables} {text : String} {step : Step}
    (h : step ∈ (assess vars text).steps) : step.rule ≠ "ASSIGN" := by
  unfold assess at h
  split at h
  · cases h
  · cases h
  · next statement hstatement =>
    obtain ⟨target, body, stop, -, -, rfl⟩ := Statement.exists_line_of_ofText hstatement
    obtain ⟨b, htokens, hbinds⟩ := exists_bracketing body
    dsimp only at h
    rw [body.outcome_reduce] at h
    exact (performs_work hbinds htokens).rule_ne step h

/-- The text that a call gives to its entry goes by the rule of the call. -/
theorem statement_of_mem_lineCalls {s : Session} {text : String} {c : Journal.Call}
    (h : c ∈ s.lineCalls text) :
    c.statement = some (if c.rule = "ASSIGN" then text else heading text) := by
  rcases List.mem_append.1 h with h | h
  · obtain ⟨step, hstep, rfl⟩ := List.mem_map.1 h
    rw [if_neg (rule_ne_of_mem_steps hstep)]
  · split at h
    · rw [List.mem_singleton.1 h]
      rfl
    · cases h

theorem statement_of_mem_lineEntries {s : Session} {text : String} {e : Entry}
    (h : e ∈ s.journal.entriesOf (s.lineCalls text)) :
    e.statement = some (if e.rule = "ASSIGN" then text else heading text) := by
  obtain ⟨c, hc, hrule, hstatement⟩ := Journal.exists_call_of_mem_entriesOf h
  rw [hstatement, hrule, statement_of_mem_lineCalls hc]

end Session

/-! ## The texts of a line's entries -/

/-- A line of a script has no blanks at its ends, so its entries all carry the line itself. -/
theorem Script.statement_of_mem_lineEntries {source : String} {line : ScriptLine}
    (hline : line ∈ ofText source) {s : Session} {e : Entry}
    (h : e ∈ s.journal.entriesOf (s.lineCalls line.text)) : e.statement = some line.text := by
  obtain ⟨i, l, -, -, rfl⟩ := mem_ofLines.1 hline
  rw [Session.statement_of_mem_lineEntries h, Session.heading, String.toList_ofList,
    Text.trim_trim, ite_self]

/-- **Headings.** The evaluation of a line adds entries to the journal, of which those of the
reduction carry the line without the blanks at its ends, and that of the assignment carries the line
itself. So all carry the same text if and only if the line has no blanks at its ends, or there is
no entry of the one kind or none of the other. -/
theorem statements_of_line (s : Session) (text : String) :
    let entries := s.journal.entriesOf (s.lineCalls text)
    (s.evaluate text).1.journal = entries.foldl Journal.add s.journal ∧
      (∀ e ∈ entries,
        e.statement = some (if e.rule = "ASSIGN" then text else Session.heading text)) ∧
      ((∃ statement, ∀ e ∈ entries, e.statement = statement) ↔
        Session.heading text = text ∨ (∀ e ∈ entries, e.rule = "ASSIGN") ∨
          ∀ e ∈ entries, e.rule ≠ "ASSIGN") := by
  intro entries
  have hstatement (e : Entry) (he : e ∈ entries) :
      e.statement = some (if e.rule = "ASSIGN" then text else Session.heading text) :=
    Session.statement_of_mem_lineEntries he
  refine ⟨?_, hstatement, ?_, ?_⟩
  · rw [s.journal_evaluate_eq, Journal.recordAll_eq_foldl_add]
  · rintro ⟨statement, hcommon⟩
    by_contra hnot
    push Not at hnot
    obtain ⟨hblanks, ⟨e, he, hreduced⟩, e', he', hassigned⟩ := hnot
    have hsame := (hcommon e he).trans (hcommon e' he').symm
    rw [hstatement e he, hstatement e' he', if_neg hreduced, if_pos hassigned] at hsame
    exact hblanks (Option.some.inj hsame)
  · rintro (hblanks | hassigned | hreduced)
    · exact ⟨some text, fun e he => by rw [hstatement e he, hblanks, ite_self]⟩
    · exact ⟨some text, fun e he => by rw [hstatement e he, if_pos (hassigned e he)]⟩
    · exact ⟨some (Session.heading text), fun e he => by
        rw [hstatement e he, if_neg (hreduced e he)]⟩

/-- With a space before it, a sum and its assignment are entered under two texts. -/
theorem statements_of_line_space :
    let s := Session.fresh false
    let entries := s.journal.entriesOf (s.lineCalls " x = 1 + 2")
    let e : Entry := ⟨1, "ASSIGN", some " x = 1 + 2", [("name", "x"), ("result", "3")], none⟩
    e ∈ entries ∧ e.statement = some (if e.rule = "ASSIGN" then " x = 1 + 2" else "x = 1 + 2") ∧
      ¬ ∃ statement, ∀ e ∈ entries, e.statement = statement := by
  intro s entries e
  obtain ⟨-, hstatement, hcommon⟩ := statements_of_line s " x = 1 + 2"
  have hentries : entries =
      [⟨0, "ADD", some "x = 1 + 2",
        [("index", "1"), ("lhs", "1"), ("rhs", "2"), ("result", "3")], none⟩, e] := by
    decide +kernel
  have he : e ∈ entries := by simp [hentries]
  refine ⟨he, hstatement e he, fun hsame => ?_⟩
  rcases hcommon.1 hsame with hblanks | hassigned | hreduced
  · revert hblanks
    decide
  · have hadd := hassigned _ (hentries ▸ List.mem_cons_self)
    simp at hadd
  · exact hreduced e he rfl

/-- Not every line enters its steps under one text. -/
theorem not_one_statement :
    ¬ ∀ (s : Session) (text : String), ∃ statement,
      ∀ e ∈ (s.evaluate text).1.journal.since s.journal.next, e.statement = statement := by
  intro h
  obtain ⟨statement, hcommon⟩ := h (Session.fresh false) " x = 1 + 2"
  have hstatements :
      (((Session.fresh false).evaluate " x = 1 + 2").1.journal.since 0).map Entry.statement =
        [some "x = 1 + 2", some " x = 1 + 2"] := by decide +kernel
  have hall : ∀ heading ∈ [some "x = 1 + 2", some " x = 1 + 2"], heading = statement := by
    rw [← hstatements]
    intro heading hheading
    obtain ⟨e, he, rfl⟩ := List.mem_map.1 hheading
    exact hcommon e he
  simp only [List.forall_mem_cons] at hall
  exact absurd (hall.1.trans hall.2.1.symm) (by decide)

end Calculator
