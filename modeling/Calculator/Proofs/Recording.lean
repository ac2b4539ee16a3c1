import Mathlib.Data.List.Induction
import Calculator.Dialogue
import Calculator.Proofs.Assessment

/-!
# What a journal keeps

A journal numbers all that was ever recorded in it, and keeps the end of it.

1. The entries that calls make are numbered from zero (`Journal.made`). A journal that was empty
   keeps as many of the last of them as it has room for (`Journal.recordAll_empty`), so the entries
   that are not older than a given step are again the last of them (`Journal.since_recordAll`).
2. The journal of a session is what calls make of an empty one, whatever is done with the session
   (`Session.IsRecorded.act`), and a fault is told with the last step kept at that time
   (`Session.isStampedBy_act`). There is room for one entry at least, so this is the last step
   recorded.
-/

namespace Calculator

namespace Journal

/-- What one entry is made from. -/
structure Call where
  rule : String
  statement : Option String
  detail : Table String
  snapshot : Option (Table String)

def Call.entry (verbose : Bool) (c : Call) (step : Nat) : Entry :=
  ⟨step, c.rule, c.statement, c.detail, if verbose then c.snapshot else none⟩

/-- All entries that the calls make. -/
def made (verbose : Bool) (calls : List Call) : List Entry :=
  calls.zipIdx.map fun (c, step) => c.entry verbose step

def recordCall (j : Journal) (c : Call) : Journal :=
  j.record c.rule c.statement c.detail c.snapshot

def recordAll (j : Journal) (calls : List Call) : Journal := calls.foldl recordCall j

/-- The step that was recorded last. -/
def lastRecorded? (j : Journal) : Option Nat := if j.next = 0 then none else some (j.next - 1)

/-! ## The entries of calls -/

@[simp] theorem length_made (verbose : Bool) (calls : List Call) :
    (made verbose calls).length = calls.length := by
  simp [made]

theorem made_concat (verbose : Bool) (calls : List Call) (c : Call) :
    made verbose (calls ++ [c]) = made verbose calls ++ [c.entry verbose calls.length] := by
  simp [made, List.zipIdx_append]

theorem map_step_made (verbose : Bool) (calls : List Call) :
    (made verbose calls).map Entry.step = List.range' 0 calls.length := by
  rw [made, List.map_map, ← List.zipIdx_map_snd]
  rfl

/-- The entries are numbered in order, so those from a step on are the last ones. -/
theorem filter_drop_made (verbose : Bool) (calls : List Call) (n : Nat) (k : Int) :
    ((made verbose calls).drop n).filter (fun e => k ≤ e.step) =
      (made verbose calls).drop (max n k.toNat) := by
  induction calls using List.reverseRecOn with
  | nil => simp [made]
  | append_singleton calls c ih =>
    rw [made_concat]
    by_cases hn : n ≤ calls.length
    · rw [List.drop_append_of_le_length (by simpa using hn), List.filter_append, ih]
      by_cases hk : k ≤ calls.length
      · rw [List.drop_append_of_le_length (by rw [length_made]; omega)]
        simp [Call.entry, hk]
      · rw [List.drop_eq_nil_of_le (by rw [length_made]; omega),
          List.drop_eq_nil_of_le (by simp; omega)]
        simp [Call.entry, hk]
    · rw [List.drop_eq_nil_of_le (by simp; omega), List.drop_eq_nil_of_le (by simp; omega),
        List.filter_nil]

/-! ## The entries that are kept -/

theorem recordAll_append (j : Journal) (calls calls' : List Call) :
    j.recordAll (calls ++ calls') = (j.recordAll calls).recordAll calls' := List.foldl_append

/-- A journal that was empty keeps the last entries, as many as it has room for. -/
theorem recordAll_empty (capacity : Nat) (verbose : Bool) (calls : List Call) :
    (empty capacity verbose).recordAll calls =
      ⟨capacity, verbose, (made verbose calls).drop (calls.length - capacity), calls.length⟩ := by
  induction calls using List.reverseRecOn with
  | nil => simp [recordAll, empty, made]
  | append_singleton calls c ih =>
    have hroom : (made verbose calls).drop (calls.length - capacity) ++
        [c.entry verbose calls.length] =
          (made verbose (calls ++ [c])).drop (calls.length - capacity) := by
      rw [made_concat, List.drop_append_of_le_length (by simp)]
    have hcount : calls.length - capacity +
        (calls.length + 1 - (calls.length - capacity) - capacity) =
          calls.length + 1 - capacity := by omega
    rw [recordAll_append, ih]
    show add _ (c.entry verbose calls.length) = _
    simp only [add, hroom, List.length_drop, length_made, List.drop_drop, List.length_append,
      List.length_singleton, hcount]

theorem since_recordAll (capacity : Nat) (verbose : Bool) (calls : List Call) (k : Int) :
    ((empty capacity verbose).recordAll calls).since k =
      (made verbose calls).drop (max (calls.length - capacity) k.toNat) := by
  rw [recordAll_empty]
  exact filter_drop_made verbose calls _ k

/-- A journal with any room keeps the step that was recorded last. -/
theorem lastStep?_recordAll {capacity : Nat} (hroom : 0 < capacity) (verbose : Bool)
    (calls : List Call) :
    ((empty capacity verbose).recordAll calls).lastStep? =
      ((empty capacity verbose).recordAll calls).lastRecorded? := by
  rw [recordAll_empty, lastStep?, lastRecorded?]
  induction calls using List.reverseRecOn with
  | nil => simp [made]
  | append_singleton calls c =>
    rw [List.getLast?_drop, if_neg (by simp; omega), made_concat, List.getLast?_concat]
    simp [Call.entry]

end Journal

/-- If the failure is a fault, it is told with the last step that the journal keeps. -/
def Failure.IsStampedBy (failure : Failure) (j : Journal) : Prop :=
  ∀ cause step, failure = .fault cause step → step = j.lastStep?

/-! ## Sessions -/

namespace Session

/-- The journal is what calls make of an empty one. -/
def IsRecorded (s : Session) : Prop :=
  ∃ verbose calls, s.journal = (Journal.empty journalCapacity verbose).recordAll calls

theorem isRecorded_ofVariables (vars : Variables) (verbose : Bool) :
    (ofVariables vars verbose).IsRecorded := ⟨verbose, [], rfl⟩

/-- The calls that enter steps. -/
def calls (s : Session) (statement : Option String) (steps : List Step) : List Journal.Call :=
  steps.map fun step =>
    ⟨step.rule, statement, step.detail, if s.journal.verbose then some s.vars.snapshot else none⟩

theorem journal_enter (s : Session) (statement : Option String) (steps : List Step) :
    (s.enter statement steps).journal = s.journal.recordAll (s.calls statement steps) := by
  rw [calls, Journal.recordAll, List.foldl_map]
  rfl

namespace IsRecorded

variable {s : Session} (h : s.IsRecorded)

include h

theorem enter (statement : Option String) (steps : List Step) :
    (s.enter statement steps).IsRecorded := by
  obtain ⟨verbose, calls, hjournal⟩ := h
  refine ⟨verbose, calls ++ s.calls statement steps, ?_⟩
  rw [journal_enter, hjournal, Journal.recordAll_append]

theorem settle (text : String) (verdict : Verdict) : (s.settle text verdict).1.IsRecorded := by
  cases verdict with
  | assigned name value =>
    have hvars :
        IsRecorded { s with vars := { s.vars with table := s.vars.table.put name value } } :=
      h
    exact hvars.enter (some text) [.assignment name value]
  | _ => exact h

theorem evaluate (text : String) : (s.evaluate text).1.IsRecorded := by
  rw [evaluate_eq]
  exact (h.enter _ _).settle text _

theorem inspect (text : String) : (s.inspect text).1.IsRecorded := by
  rw [inspect_eq]
  exact h.enter _ _

theorem run (script : Script) : (Script.run s script).session.IsRecorded := by
  induction script generalizing s with
  | nil => exact h
  | cons line rest ih =>
    have hline := h.evaluate line.text
    unfold Script.run
    rcases hs : s.evaluate line.text with ⟨s', failure | answer⟩ <;> rw [hs] at hline
    · exact hline
    · exact ih hline

theorem act (a : Action) : (s.act a).1.IsRecorded := by
  cases a with
  | evaluate text => exact h.evaluate text
  | inspect text => exact h.inspect text
  | set name value =>
    simp only [Session.act]
    cases s.vars.set name value <;> exact h
  | setLast value => exact h
  | script text => exact h.run _
  | renew verbose => exact isRecorded_ofVariables _ _

theorem after (actions : List Action) : (s.after actions).IsRecorded := by
  induction actions generalizing s with
  | nil => exact h
  | cons a actions ih => exact ih (h.act a)

theorem lastStep?_eq : s.journal.lastStep? = s.journal.lastRecorded? := by
  obtain ⟨verbose, calls, hjournal⟩ := h
  rw [hjournal]
  exact Journal.lastStep?_recordAll (by decide) verbose calls

end IsRecorded

/-! ## The steps of faults -/

theorem isStampedBy_fail (s : Session) (cause : Fault) : (s.fail cause).IsStampedBy s.journal := by
  rintro _ _ ⟨⟩
  rfl

theorem isStampedBy_refusal (s : Session) (text : String) (cause : Statement.Refusal) :
    (s.refusal text cause).IsStampedBy s.journal := by
  cases cause with
  | rejected cause => rintro _ _ ⟨⟩
  | fault cause => exact s.isStampedBy_fail cause

theorem isStampedBy_evaluate {s : Session} {text : String} {failure : Failure}
    (h : (s.evaluate text).2 = .error failure) :
    failure.IsStampedBy (s.evaluate text).1.journal := by
  rw [evaluate_eq] at h ⊢
  cases hverdict : (assess s.vars text).verdict <;> rw [hverdict] at h <;> cases h
  · exact isStampedBy_refusal _ _ _
  · exact isStampedBy_fail _ _

theorem isStampedBy_inspect {s : Session} {text : String} {failure : Failure}
    (h : (s.inspect text).2 = .error failure) : failure.IsStampedBy (s.inspect text).1.journal := by
  rw [inspect_eq] at h ⊢
  cases hverdict : (assess s.vars text).verdict <;> rw [hverdict] at h <;> cases h
  exact isStampedBy_refusal _ _ _

theorem isStampedBy_run {s : Session} {script : Script} {number : Nat} {failure : Failure}
    (h : (Script.run s script).failure = some (number, failure)) :
    failure.IsStampedBy (Script.run s script).session.journal := by
  induction script generalizing s with
  | nil => cases h
  | cons line rest ih =>
    have hline := @isStampedBy_evaluate s line.text
    unfold Script.run at h ⊢
    rcases hs : s.evaluate line.text with ⟨s', failure' | answer⟩ <;> rw [hs] at h hline
    · cases h
      exact hline rfl
    · exact ih h

end Session

/-- The failure that a reply tells. -/
def Reply.failure? : Reply → Option Failure
  | evaluated (.error failure) => some failure
  | inspected (.error failure) => some failure
  | ran _ failure => failure.map Prod.snd
  | _ => none

theorem Session.isStampedBy_act {s : Session} {a : Action} {failure : Failure}
    (h : (s.act a).2.failure? = some failure) : failure.IsStampedBy (s.act a).1.journal := by
  cases a with
  | evaluate text =>
    have hreply : (Reply.evaluated (s.evaluate text).2).failure? = some failure := h
    refine isStampedBy_evaluate ?_
    cases hresult : (s.evaluate text).2 <;> rw [hresult] at hreply <;> cases hreply
    rfl
  | inspect text =>
    have hreply : (Reply.inspected (s.inspect text).2).failure? = some failure := h
    refine isStampedBy_inspect ?_
    cases hresult : (s.inspect text).2 <;> rw [hresult] at hreply <;> cases hreply
    rfl
  | set name value =>
    simp only [act] at h
    cases hset : s.vars.set name value <;> rw [hset] at h <;> cases h
  | setLast value => cases h
  | script text =>
    obtain ⟨⟨number, failure'⟩, hfailure, rfl⟩ := Option.map_eq_some_iff.1 h
    exact isStampedBy_run hfailure
  | renew verbose => cases h

/-- **Numbered steps.** After any calls, a journal that was empty has counted all of them; it keeps
the last entries that they made, as many as it has room for, under consecutive numbers of which the
last is one less than the count, and it shows those of them that are not older than a given step.
Hence every fault that a line meets, in a session that began with an empty journal, is told with the
number of the step that was recorded last, or with none if nothing was ever recorded in the journal
of this session. -/
theorem journal_numbers_steps :
    (∀ (capacity : Nat) (verbose : Bool) (calls : List Journal.Call),
      let j := (Journal.empty capacity verbose).recordAll calls
      let kept := min capacity calls.length
      j.next = calls.length ∧
        j.entries = (Journal.made verbose calls).drop (calls.length - kept) ∧
        j.entries.length = kept ∧
        j.entries.map Entry.step = List.range' (calls.length - kept) kept ∧
        ∀ k : Int, (∀ e, e ∈ j.since k ↔ e ∈ j.entries ∧ k ≤ e.step) ∧
          j.since k = (Journal.made verbose calls).drop (max (calls.length - kept) k.toNat)) ∧
    ∀ (vars : Variables) (verbose : Bool) (actions : List Action) (a : Action) (cause : Fault)
      (step : Option Nat),
      let s := (Session.ofVariables vars verbose).after actions
      (s.act a).2.failure? = some (.fault cause step) →
      ∃ verbose' calls,
        (s.act a).1.journal =
            (Journal.empty Session.journalCapacity verbose').recordAll calls ∧
          step = if calls = [] then none else some ((s.act a).1.journal.next - 1) := by
  constructor
  · intro capacity verbose calls j kept
    have hkept : calls.length - kept = calls.length - capacity := by omega
    have hj : j = ⟨_, _, _, _⟩ := Journal.recordAll_empty capacity verbose calls
    have hentries : j.entries = (Journal.made verbose calls).drop (calls.length - kept) := by
      rw [hj, hkept]
    refine ⟨by rw [hj], hentries, ?_, ?_, fun k => ⟨fun e => ?_, ?_⟩⟩
    · rw [hentries, List.length_drop, Journal.length_made]
      omega
    · rw [hentries, List.map_drop, Journal.map_step_made, List.drop_range']
      congr 1 <;> omega
    · simp [Journal.since]
    · rw [hkept]
      exact Journal.since_recordAll capacity verbose calls k
  · intro vars verbose actions a cause step s hfault
    have hrecorded : (s.act a).1.IsRecorded :=
      ((Session.isRecorded_ofVariables vars verbose).after actions).act a
    have hstep : step = (s.act a).1.journal.lastRecorded? :=
      (Session.isStampedBy_act hfault cause step rfl).trans hrecorded.lastStep?_eq
    obtain ⟨verbose', calls, hjournal⟩ := hrecorded
    refine ⟨verbose', calls, hjournal, ?_⟩
    have hnext : (s.act a).1.journal.next = calls.length := by
      rw [hjournal, Journal.recordAll_empty]
    rw [hstep, Journal.lastRecorded?, hnext]
    simp only [List.length_eq_zero_iff]

/-- The assignment is step 0, and the last value is looked up in step 1 before `y` has none. -/
theorem journal_numbers_steps_unbound :
    let s := (Session.ofVariables .empty false).after [.evaluate "x = 6"]
    let next := (s.act (.evaluate "_ + y")).1
    (s.act (.evaluate "_ + y")).2.failure? = some (.fault (.unbound "y") (some 1)) ∧
      ∃ verbose calls,
        next.journal = (Journal.empty Session.journalCapacity verbose).recordAll calls ∧
          some 1 = if calls = [] then none else some (next.journal.next - 1) := by
  intro s next
  have hfault : (s.act (.evaluate "_ + y")).2.failure? = some (.fault (.unbound "y") (some 1)) := by
    decide +kernel
  exact ⟨hfault, journal_numbers_steps.2 .empty false [.evaluate "x = 6"] _ _ _ hfault⟩

end Calculator
