import Mathlib.Data.List.Basic
import Calculator.Dialogue
import Calculator.Proofs.Assessment

/-!
# Sessions that calls cannot tell apart

A relation between sessions is a bisimulation if lines come to the same in related sessions, which
are still related afterwards, and if the variables are all that a new session takes over. Scripts
and whole dialogues then come to the same as well (`Bisimulation.run`, `Bisimulation.transcript`).
Failures are compared by what `f` leaves of them.
-/

namespace Calculator

/-- The reply as it is told if failures are told by `f`. -/
def Reply.mapFailure (f : Failure → Failure) : Reply → Reply
  | evaluated result => .evaluated (result.mapError f)
  | inspected result => .inspected (result.mapError f)
  | stored result => .stored result
  | ran values failure => .ran values (failure.map fun p => (p.1, f p.2))
  | done => .done

def Exchange.mapFailure (f : Failure → Failure) (e : Exchange) : Exchange :=
  { e with reply := e.reply.mapFailure f }

/-- The action without any choice of verbosity. -/
def Action.hushed : Action → Action
  | renew _ => renew false
  | action => action

theorem Action.eq_or_renew_of_hushed {a b : Action} (h : a.hushed = b.hushed) :
    a = b ∨ ∃ verbose verbose', a = renew verbose ∧ b = renew verbose' := by
  cases a <;> cases b <;> simp_all [hushed]

namespace Session

structure Bisimulation (R : Session → Session → Prop) (f : Failure → Failure) : Prop where
  vars : ∀ {s t}, R s t → s.vars = t.vars
  evaluate : ∀ {s t}, R s t → ∀ text,
    R (s.evaluate text).1 (t.evaluate text).1 ∧
      (s.evaluate text).2.mapError f = (t.evaluate text).2.mapError f
  inspect : ∀ {s t}, R s t → ∀ text,
    R (s.inspect text).1 (t.inspect text).1 ∧
      (s.inspect text).2.mapError f = (t.inspect text).2.mapError f
  assign : ∀ {s t}, R s t → ∀ vars, R { s with vars := vars } { t with vars := vars }
  renew : ∀ vars verbose verbose', R (ofVariables vars verbose) (ofVariables vars verbose')

namespace Bisimulation

variable {R : Session → Session → Prop} {f : Failure → Failure} (h : Bisimulation R f)

include h

theorem run {s t : Session} (hst : R s t) (script : Script) :
    R (Script.run s script).session (Script.run t script).session ∧
      (Script.run s script).values = (Script.run t script).values ∧
      (Script.run s script).failure.map (fun p => (p.1, f p.2)) =
        (Script.run t script).failure.map fun p => (p.1, f p.2) := by
  induction script generalizing s t with
  | nil => exact ⟨hst, rfl, rfl⟩
  | cons line rest ih =>
    obtain ⟨hnext, hresult⟩ := h.evaluate hst line.text
    unfold Script.run
    rcases hs : s.evaluate line.text with ⟨s', failure | answer⟩ <;>
    rcases ht : t.evaluate line.text with ⟨t', failure' | answer'⟩ <;>
    rw [hs, ht] at hnext hresult
    -- A line cannot fail in one session and have a value in the other.
    · exact ⟨hnext, rfl, by simpa [Except.mapError] using hresult⟩
    · cases hresult
    · cases hresult
    · obtain rfl : answer = answer' := by simpa [Except.mapError] using hresult
      obtain ⟨hsession, hvalues, hfailure⟩ := ih hnext
      exact ⟨hsession, congrArg (_ ++ ·) hvalues, hfailure⟩

theorem act {s t : Session} (hst : R s t) (a : Action) :
    R (s.act a).1 (t.act a).1 ∧ (s.act a).2.mapFailure f = (t.act a).2.mapFailure f := by
  cases a with
  | evaluate text =>
    obtain ⟨hnext, hresult⟩ := h.evaluate hst text
    exact ⟨hnext, congrArg Reply.evaluated hresult⟩
  | inspect text =>
    obtain ⟨hnext, hresult⟩ := h.inspect hst text
    exact ⟨hnext, congrArg Reply.inspected hresult⟩
  | set name value =>
    simp only [Session.act, h.vars hst]
    cases t.vars.set name value with
    | error fault => exact ⟨hst, rfl⟩
    | ok vars => exact ⟨h.assign hst vars, rfl⟩
  | setLast value =>
    simp only [Session.act, h.vars hst, and_true]
    exact h.assign hst _
  | script text =>
    obtain ⟨hsession, hvalues, hfailure⟩ := h.run hst (Script.ofText text)
    exact ⟨hsession, congrArg₂ Reply.ran hvalues hfailure⟩
  | renew verbose =>
    simp only [Session.act, h.vars hst, and_true]
    exact h.renew _ _ _

/-- How verbose new sessions are makes no difference either. -/
theorem act_of_hushed {s t : Session} (hst : R s t) {a b : Action} (hab : a.hushed = b.hushed) :
    R (s.act a).1 (t.act b).1 ∧ (s.act a).2.mapFailure f = (t.act b).2.mapFailure f := by
  rcases Action.eq_or_renew_of_hushed hab with rfl | ⟨verbose, verbose', rfl, rfl⟩
  · exact h.act hst a
  · simp only [Session.act, h.vars hst, and_true]
    exact h.renew _ _ _

/-- Whole dialogues are answered alike, and the variables are the same after every action. -/
theorem transcript {s t : Session} (hst : R s t) {as bs : List Action}
    (hab : as.map Action.hushed = bs.map Action.hushed) :
    (s.transcript as).map (fun e => (e.reply.mapFailure f, e.vars)) =
      (t.transcript bs).map fun e => (e.reply.mapFailure f, e.vars) := by
  induction as generalizing s t bs with
  | nil =>
    obtain rfl : bs = [] := List.map_eq_nil_iff.1 hab.symm
    rfl
  | cons a as ih =>
    obtain ⟨b, bs, rfl, hb, hbs⟩ := List.map_eq_cons_iff.1 hab.symm
    obtain ⟨hnext, hreply⟩ := h.act_of_hushed hst hb.symm
    rw [transcript_cons, transcript_cons, List.map_cons, List.map_cons, hreply, h.vars hnext,
      ih hnext hbs.symm]

end Bisimulation

end Session

end Calculator
