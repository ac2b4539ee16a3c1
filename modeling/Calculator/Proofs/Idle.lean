import Mathlib.Data.List.Basic
import Calculator.Proofs.Bisimulation

/-!
# Idle calls

A line that fails, a blank line, and a line that is only inspected leave the variables as they are.
The journal may have grown, but no answer depends on the journal: sessions with the same variables
cannot be told apart but by the numbers of steps in their failures (`bisimulation_vars`). Idle calls
can therefore be left out of a dialogue.
-/

namespace Calculator

/-- The failure without the number of the last step. -/
def Failure.unnumbered : Failure → Failure
  | fault cause _ => fault cause none
  | failure => failure

/-- A line was evaluated that fails or is blank, or a line was inspected. -/
def Reply.isIdle : Reply → Bool
  | evaluated (.ok (some _)) => false
  | evaluated _ => true
  | inspected _ => true
  | _ => false

namespace Session

theorem unnumbered_refusal (s t : Session) (text : String) (cause : Statement.Refusal) :
    (s.refusal text cause).unnumbered = (t.refusal text cause).unnumbered := by
  cases cause <;> rfl

theorem bisimulation_vars : Bisimulation (fun s t => s.vars = t.vars) Failure.unnumbered where
  vars h := h
  evaluate {s t} h text := by
    rw [evaluate_eq, evaluate_eq, h]
    cases (assess t.vars text).verdict with
    | refused cause =>
      simp only [settle, vars_worked, h, Except.mapError, unnumbered_refusal _ (t.worked text),
        and_self]
    | misnamed name value => simp [settle, h, Except.mapError, fail, Failure.unnumbered]
    | _ => simp [settle, h]
  inspect {s t} h text := by
    rw [inspect_eq, inspect_eq, h]
    cases (assess t.vars text).verdict with
    | refused cause =>
      simp only [tell, vars_worked, h, Except.mapError, unnumbered_refusal _ (t.worked text),
        and_self]
    | _ => simp [tell, h]
  assign _ _ := rfl
  renew _ _ _ := rfl

theorem vars_act_of_isIdle {s : Session} {a : Action} (h : (s.act a).2.isIdle) :
    (s.act a).1.vars = s.vars := by
  cases a with
  | evaluate text =>
    have hreply : (Reply.evaluated (s.evaluate text).2).isIdle := h
    show (s.evaluate text).1.vars = s.vars
    rw [evaluate_eq] at hreply ⊢
    cases hverdict : (assess s.vars text).verdict <;> rw [hverdict] at hreply
    · rfl
    · rfl
    · cases hreply
    · cases hreply
    · rfl
  | inspect text =>
    show (s.inspect text).1.vars = s.vars
    rw [inspect_eq, vars_worked]
  | set name value =>
    simp only [act] at h
    cases hset : s.vars.set name value <;> rw [hset] at h <;> cases h
  | setLast value => cases h
  | script text => cases h
  | renew verbose => cases h

end Session

/-- An exchange that is left out of a part which has everything that is not idle is idle itself. -/
theorem isIdle_of_sublist {e : Exchange} {kept rest : List Exchange} (hkept : kept.Sublist rest)
    (hidle : kept.filter (!·.reply.isIdle) = (e :: rest).filter (!·.reply.isIdle)) :
    e.reply.isIdle := by
  by_contra hbusy
  have hlength := (hkept.filter (!·.reply.isIdle)).length_le
  rw [hidle, List.filter_cons_of_pos (by simpa using hbusy), List.length_cons] at hlength
  omega

/-- **Idle calls.** Let `kept` be a part of a dialogue that lacks only idle calls: evaluated lines
that failed or were blank, and inspected lines. The same actions without the idle calls, in any
session with the same variables, are answered as before, but for the numbers of steps in failures,
with the same variables after every action and the same variables at the end. -/
theorem transcript_without_idle {s t : Session} (hvars : s.vars = t.vars) {actions : List Action}
    {kept : List Exchange} (hkept : kept.Sublist (s.transcript actions))
    (hidle : kept.filter (!·.reply.isIdle) = (s.transcript actions).filter (!·.reply.isIdle)) :
    (t.transcript (kept.map Exchange.action)).map (Exchange.mapFailure Failure.unnumbered) =
        kept.map (Exchange.mapFailure Failure.unnumbered) ∧
      (t.after (kept.map Exchange.action)).vars = (s.after actions).vars := by
  induction actions generalizing s t kept with
  | nil =>
    obtain rfl : kept = [] := List.sublist_nil.1 hkept
    exact ⟨rfl, hvars.symm⟩
  | cons a actions ih =>
    rw [Session.transcript_cons] at hkept hidle
    cases hkept with
    | cons _ hkept =>
      -- The action is left out: its call was idle, so the variables are still the same.
      have hcall : (s.act a).2.isIdle := isIdle_of_sublist hkept hidle
      refine ih ((Session.vars_act_of_isIdle hcall).trans hvars) hkept ?_
      rw [hidle, List.filter_cons_of_neg (by simpa using hcall)]
    | @cons_cons kept _ _ hkept =>
      -- The action is kept: the journals may differ by now, but no reply depends on them.
      obtain ⟨hnext, hreply⟩ := Session.bisimulation_vars.act hvars a
      have hrest : kept.filter (!·.reply.isIdle) =
          ((s.act a).1.transcript actions).filter (!·.reply.isIdle) := by
        cases hcall : (s.act a).2.isIdle <;> simpa [List.filter_cons, hcall] using hidle
      obtain ⟨htranscript, hafter⟩ := ih hnext hkept hrest
      refine ⟨?_, hafter⟩
      rw [List.map_cons, Session.transcript_cons, List.map_cons, List.map_cons, htranscript]
      simp only [Exchange.mapFailure, hreply, hnext]

/-- Between two lines that store values stand a blank line, one that fails after its first step, one
that is inspected and one that is rejected. -/
theorem transcript_without_idle_mixed :
    let actions : List Action := [.evaluate "x = 6", .evaluate "# six", .evaluate "_ + y",
      .inspect "x", .evaluate "x x", .evaluate "y = _"]
    let kept := ((Session.fresh false).transcript actions).filter (!·.reply.isIdle)
    kept.map Exchange.action = [.evaluate "x = 6", .evaluate "y = _"] ∧
      ((Session.fresh true).transcript (kept.map Exchange.action)).map
          (Exchange.mapFailure Failure.unnumbered) =
        kept.map (Exchange.mapFailure Failure.unnumbered) ∧
      ((Session.fresh true).after (kept.map Exchange.action)).vars =
        ((Session.fresh false).after actions).vars := by
  intro actions kept
  have hvars : (Session.fresh false).vars = (Session.fresh true).vars := rfl
  have hkept : kept.Sublist ((Session.fresh false).transcript actions) := List.filter_sublist
  have hidle : kept.filter (!·.reply.isIdle) =
      ((Session.fresh false).transcript actions).filter (!·.reply.isIdle) := by
    show (List.filter _ _).filter _ = _
    rw [List.filter_filter]
    simp only [Bool.and_self]
  exact ⟨by decide +kernel, transcript_without_idle hvars hkept hidle⟩

end Calculator
