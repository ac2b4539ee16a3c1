import Calculator.Script

/-!
# Dialogues

All that can be done with a session, one action after the other. An action that fails is answered by
its failure, and the dialogue goes on.
-/

namespace Calculator

inductive Action where
  | evaluate (text : String)
  | inspect (text : String)
  /-- A value is stored by hand, not by a line. -/
  | set (name : String) (value : Int)
  | setLast (value : Int)
  | script (text : String)
  /-- A new session, whose journal is empty, takes over the variables. -/
  | renew (verbose : Bool)
  deriving DecidableEq, Repr

inductive Reply where
  | evaluated (result : Except Failure (Option Answer))
  | inspected (result : Except Failure (Option Int))
  | stored (result : Except Fault Unit)
  /-- The values that a script gave out, and the line that failed, if one did. -/
  | ran (values : List Int) (failure : Option (Nat × Failure))
  | done

/-- An action, what came back, and the variables at that time. -/
structure Exchange where
  action : Action
  reply : Reply
  vars : Variables

namespace Session

def act (s : Session) : Action → Session × Reply
  | .evaluate text =>
    let (next, result) := s.evaluate text
    (next, .evaluated result)
  | .inspect text =>
    let (next, result) := s.inspect text
    (next, .inspected result)
  | .set name value =>
    match s.vars.set name value with
    | .ok vars => ({ s with vars := vars }, .stored (.ok ()))
    | .error fault => (s, .stored (.error fault))
  | .setLast value => ({ s with vars := s.vars.setLast value }, .done)
  | .script text =>
    let run := Script.run s (.ofText text)
    (run.session, .ran run.values run.failure)
  | .renew verbose => (ofVariables s.vars verbose, .done)

/-- The session after all actions. -/
def after (s : Session) : List Action → Session
  | [] => s
  | action :: actions => (s.act action).1.after actions

def transcript (s : Session) : List Action → List Exchange
  | [] => []
  | action :: actions =>
    let (next, reply) := s.act action
    ⟨action, reply, next.vars⟩ :: next.transcript actions

theorem transcript_cons (s : Session) (a : Action) (actions : List Action) :
    s.transcript (a :: actions) =
      ⟨a, (s.act a).2, (s.act a).1.vars⟩ :: (s.act a).1.transcript actions := rfl

end Session

end Calculator
