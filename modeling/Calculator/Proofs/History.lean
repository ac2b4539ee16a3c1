import Mathlib.Data.List.Basic
import Calculator.Dialogue
import Calculator.Proofs.Assessment

/-!
# The history of the variables

What a dialogue writes is read off its answers (`Session.history`): a line that has a value writes
it to the variable that takes it, if one does, and to the last value; values can also be stored by
hand. The variables are what all writes so far, one after the other, make of the first ones, and
every name that is written is a proper one (`Session.evolves_after`). What a table holds after a
list of writes is told by its most recent ones (`Reflects`, `vars_after_eq_history`).
-/

namespace Calculator

inductive Write where
  | named (name : String) (value : Int)
  | last (value : Int)
  deriving DecidableEq, Repr

namespace Write

def name? : Write → Option String
  | named name _ => some name
  | last _ => none

/-- The value that is written to the given name. -/
def valueOf? (name : String) : Write → Option Int
  | named n value => if n = name then some value else none
  | last _ => none

def last? : Write → Option Int
  | named _ _ => none
  | last value => some value

/-- Only names that can take a value are written. -/
def IsProper : Write → Prop
  | named name _ => name ≠ Variables.lastName ∧ Variables.isValidName name
  | last _ => True

end Write

/-! ## What a dialogue writes -/

/-- The value goes to the variable that takes it, if one does, and then becomes the last value. -/
def Answer.writes (a : Answer) : List Write :=
  match a.assignedTo with
  | none => [.last a.value]
  | some name => [.named name a.value, .last a.value]

/-- A failure and a blank line write nothing. -/
def Write.ofResult : Except Failure (Option Answer) → List Write
  | .ok (some answer) => answer.writes
  | .ok none => []
  | .error _ => []

/-- The lines of a script write until one fails. -/
def Script.writes (s : Session) : Script → List Write
  | [] => []
  | line :: rest =>
    match s.evaluate line.text with
    | (_, .error _) => []
    | (s, .ok answer) => Write.ofResult (.ok answer) ++ writes s rest

namespace Session

/-- Storing by hand under the name of the last value has no effect. -/
def writes (s : Session) : Action → List Write
  | .evaluate text => Write.ofResult (s.evaluate text).2
  | .inspect _ => []
  | .set name value =>
    match s.vars.set name value with
    | .ok _ => if name = Variables.lastName then [] else [.named name value]
    | .error _ => []
  | .setLast value => [.last value]
  | .script text => Script.writes s (.ofText text)
  | .renew _ => []

/-- All writes of a dialogue, the oldest first. -/
def history (s : Session) : List Action → List Write
  | [] => []
  | a :: actions => s.writes a ++ (s.act a).1.history actions

end Session

/-! ## The writes are all that happens to the variables -/

def Variables.write (vars : Variables) : Write → Variables
  | .named name value => { vars with table := vars.table.put name value }
  | .last value => vars.setLast value

/-- The writes, all of them proper, lead from the first variables to the second. -/
def Evolves (vars : Variables) (ws : List Write) (vars' : Variables) : Prop :=
  vars' = ws.foldl Variables.write vars ∧ ∀ w ∈ ws, w.IsProper

theorem Evolves.nil (vars : Variables) : Evolves vars [] vars := ⟨rfl, by simp⟩

theorem Evolves.append {vars vars' vars'' : Variables} {ws ws' : List Write}
    (h : Evolves vars ws vars') (h' : Evolves vars' ws' vars'') :
    Evolves vars (ws ++ ws') vars'' := by
  obtain ⟨rfl, hproper⟩ := h
  obtain ⟨rfl, hproper'⟩ := h'
  refine ⟨by rw [List.foldl_append], fun w hw => ?_⟩
  rcases List.mem_append.1 hw with hw | hw
  · exact hproper w hw
  · exact hproper' w hw

theorem evolves_set {vars vars' : Variables} {name : String} {value : Int}
    (h : vars.set name value = .ok vars') :
    Evolves vars (if name = Variables.lastName then [] else [.named name value]) vars' := by
  unfold Variables.set at h
  split_ifs at h with hlast hvalid
  · cases h
    rw [if_pos hlast]
    exact .nil vars
  · cases h
    rw [if_neg hlast]
    exact ⟨rfl, by simpa [Write.IsProper] using ⟨hlast, hvalid⟩⟩

namespace Session

theorem evolves_evaluate (s : Session) (text : String) :
    Evolves s.vars (Write.ofResult (s.evaluate text).2) (s.evaluate text).1.vars := by
  have hsuits := suits_verdict s.vars text
  rw [evaluate_eq]
  cases hverdict : (assess s.vars text).verdict with
  | refused cause => exact .nil _
  | blank => exact .nil _
  | given value => exact ⟨rfl, by simp [settle, Write.ofResult, Answer.writes, Write.IsProper]⟩
  | assigned name value =>
    rw [hverdict] at hsuits
    obtain ⟨statement, -, htarget, hvalid⟩ := hsuits
    have hname := ne_lastName_of_target? htarget
    exact ⟨rfl, by simp [settle, Write.ofResult, Answer.writes, Write.IsProper, hname, hvalid]⟩
  | misnamed name value => exact .nil _

theorem evolves_run (s : Session) (script : Script) :
    Evolves s.vars (Script.writes s script) (Script.run s script).session.vars := by
  induction script generalizing s with
  | nil => exact .nil _
  | cons line rest ih =>
    have hline := s.evolves_evaluate line.text
    unfold Script.writes Script.run
    rcases hs : s.evaluate line.text with ⟨s', failure | answer⟩ <;> rw [hs] at hline
    · exact hline
    · exact hline.append (ih s')

theorem evolves_act (s : Session) (a : Action) : Evolves s.vars (s.writes a) (s.act a).1.vars := by
  cases a with
  | evaluate text => exact s.evolves_evaluate text
  | inspect text =>
    have hvars : (s.act (.inspect text)).1.vars = s.vars := by
      show (s.inspect text).1.vars = s.vars
      rw [inspect_eq, vars_worked]
    rw [hvars]
    exact .nil _
  | set name value =>
    simp only [act, writes]
    cases hset : s.vars.set name value with
    | error fault => exact .nil _
    | ok vars => exact evolves_set hset
  | setLast value => exact ⟨rfl, by simp [writes, Write.IsProper]⟩
  | script text => exact s.evolves_run _
  | renew verbose => exact .nil _

theorem evolves_after (s : Session) (actions : List Action) :
    Evolves s.vars (s.history actions) (s.after actions).vars := by
  induction actions generalizing s with
  | nil => exact .nil _
  | cons a actions ih => exact (s.evolves_act a).append (ih (s.act a).1)

end Session

/-! ## What is left of a list of writes -/

/-- The variables hold what was last written, under names in the order of their first writes. -/
structure Reflects (vars : Variables) (ws : List Write) : Prop where
  keys : vars.table.keys = (ws.filterMap Write.name?).eraseDups
  nodup : vars.table.keys.Nodup
  proper : ∀ k ∈ vars.table.keys, k ≠ Variables.lastName ∧ Variables.isValidName k
  get? : ∀ n, vars.table.get? n = (ws.filterMap (Write.valueOf? n)).getLast?
  last : vars.last = (ws.filterMap Write.last?).getLast?.getD 0

theorem eraseDups_concat (names : List String) (name : String) :
    (names ++ [name]).eraseDups =
      if name ∈ names.eraseDups then names.eraseDups else names.eraseDups ++ [name] := by
  rw [List.eraseDups_append, List.removeAll]
  by_cases h : name ∈ names
  · simp [List.mem_eraseDups, h]
  · have hone : [name].eraseDups = [name] := rfl
    simp [List.mem_eraseDups, h, hone]

theorem reflects_nil : Reflects .empty [] where
  keys := rfl
  nodup := .nil
  proper := by simp [Variables.empty, Table.keys]
  get? _ := rfl
  last := rfl

theorem Reflects.write {vars : Variables} {ws : List Write} (h : Reflects vars ws) {w : Write}
    (hw : w.IsProper) : Reflects (vars.write w) (ws ++ [w]) := by
  cases w with
  | last value =>
    have hnames : (ws ++ [Write.last value]).filterMap Write.name? = ws.filterMap Write.name? := by
      simp [Write.name?]
    have hvalues (n : String) : (ws ++ [Write.last value]).filterMap (Write.valueOf? n) =
        ws.filterMap (Write.valueOf? n) := by
      simp [Write.valueOf?]
    constructor
    · rw [hnames]
      exact h.keys
    · exact h.nodup
    · exact h.proper
    · intro n
      rw [hvalues]
      exact h.get? n
    · simp [Write.last?, Variables.write, Variables.setLast]
  | named name value =>
    -- A name that is known keeps its place, and a new one goes to the end.
    have hkeys : (vars.write (.named name value)).table.keys =
        if name ∈ vars.table.keys then vars.table.keys else vars.table.keys ++ [name] :=
      Table.keys_put _ _ _
    constructor
    · rw [hkeys, List.filterMap_append, h.keys]
      exact (eraseDups_concat _ _).symm
    · rw [hkeys]
      split_ifs with hmem
      · exact h.nodup
      · exact List.nodup_append.2 ⟨h.nodup, by simp, by
          rintro k hk _ hname rfl
          exact hmem (List.mem_singleton.1 hname ▸ hk)⟩
    · intro k hk
      rw [hkeys] at hk
      split_ifs at hk
      · exact h.proper k hk
      · rcases List.mem_append.1 hk with hk | hk
        · exact h.proper k hk
        · obtain rfl := List.mem_singleton.1 hk
          exact hw
    · intro n
      show Table.get? (Table.put name value vars.table) n = _
      rw [Table.get?_put, h.get?, List.filterMap_append]
      by_cases hn : name = n <;> simp [Write.valueOf?, hn]
    · simpa [Write.last?, Variables.write] using h.last

theorem Reflects.foldl {vars : Variables} {ws us : List Write} (h : Reflects vars ws)
    (hus : ∀ w ∈ us, w.IsProper) : Reflects (us.foldl Variables.write vars) (ws ++ us) := by
  induction us generalizing vars ws with
  | nil => simpa using h
  | cons u us ih =>
    have hrest := ih (h.write (hus u (by simp))) fun w hw => hus w (by simp [hw])
    rwa [List.append_assoc] at hrest

theorem reflects_after (journal : Journal) (actions : List Action) :
    Reflects ((Session.mk .empty journal).after actions).vars
      ((Session.mk .empty journal).history actions) := by
  obtain ⟨hvars, hproper⟩ := (Session.mk .empty journal).evolves_after actions
  rw [hvars]
  exact reflects_nil.foldl hproper

/-- A valid name, other than that of the last value, is a letter before letters and digits. -/
theorem isAlpha_of_isValidName {name : String} (h : Variables.isValidName name)
    (hname : name ≠ Variables.lastName) :
    ∃ c cs, name.toList = c :: cs ∧ c.isAlpha ∧ ∀ d ∈ cs, d.isAlphanum := by
  unfold Variables.isValidName at h
  rw [Bool.or_eq_true, beq_iff_eq, or_iff_right hname] at h
  split at h
  · cases h
  · next c cs hlist =>
    rw [Bool.and_eq_true, List.all_eq_true] at h
    exact ⟨c, cs, hlist, h⟩

/-- **History.** After any dialogue that starts without variables, the table has no name twice and
none of the last value; every name is a letter before letters and digits; the names stand in the
order of their first writes; a name other than that of the last value has what was last written to
it, if anything was; and the last value, which its name reads, is what was last written there, or
zero. -/
theorem vars_after_eq_history (journal : Journal) (actions : List Action) :
    let s := (Session.mk .empty journal).after actions
    let writes := (Session.mk .empty journal).history actions
    s.vars.table.keys.Nodup ∧ Variables.lastName ∉ s.vars.table.keys ∧
      (∀ k ∈ s.vars.table.keys,
        ∃ c cs, k.toList = c :: cs ∧ c.isAlpha ∧ ∀ d ∈ cs, d.isAlphanum) ∧
      s.vars.table.keys = (writes.filterMap Write.name?).eraseDups ∧
      (∀ n, n ≠ Variables.lastName →
        s.vars.get? n = (writes.filterMap (Write.valueOf? n)).getLast?) ∧
      s.vars.get? Variables.lastName = some s.vars.last ∧
      s.vars.last = (writes.filterMap Write.last?).getLast?.getD 0 := by
  intro s writes
  have h : Reflects s.vars writes := reflects_after journal actions
  refine ⟨h.nodup, fun hmem => (h.proper _ hmem).1 rfl, fun k hk => ?_, h.keys, fun n hn => ?_, ?_,
    h.last⟩
  · obtain ⟨hname, hvalid⟩ := h.proper k hk
    exact isAlpha_of_isValidName hvalid hname
  · rw [Variables.get?, if_neg hn, h.get?]
  · rw [Variables.get?, if_pos rfl]

/-- A failed line writes nothing, and nothing can be stored under the name of the last value. -/
example : (Session.fresh false).history
    [.evaluate "x = 6", .evaluate "_ + y", .set "_" 1, .evaluate "_ = x"] =
      [.named "x" 6, .last 6, .last 6] := by
  decide +kernel

end Calculator
