import Mathlib.Data.List.Basic
import Calculator.Proofs.Assessment
import Calculator.Proofs.Rows
import Calculator.Proofs.Spacing

/-!
# Assignments

A name, an equals sign and an accepted text that assigns nothing are an assignment of this text.

1. Whatever the text says, its lexemes come after the name and the equals sign
   (`Tokens.lexemes_ofText_assignment`). So the line is that of the text with a target
   (`Statement.ofText_assignment`).
2. The text has the same value under a target as without one (`Session.verdict_assignment`), and the
   verdict on the assignment depends on the name alone: a name that lexemes allow can take a value
   if there is no underscore in it (`isValidName_iff`), and then reads it (`Session.evaluate_name`).
-/

namespace Calculator

/-! ## The line -/

/-- The text that assigns to a name what another text says. -/
def assignmentText (name text : String) : String := name ++ " = " ++ text

namespace Tokens

theorem lexemes_scan_lexeme (pos : Nat) {l : Lexeme} (hl : l.isProper) {rest : List Char}
    (hrest : l.isOpen → IsBoundary rest) :
    (scan pos 0 (l.text.toList ++ rest)).lexemes =
      (l :: (scan 0 0 rest).lexemes.1, (scan 0 0 rest).lexemes.2) := by
  rw [scan_of_munch_lexeme pos (munch_text hl hrest) hl,
    ← lexemes_scan (pos + l.text.toList.length) 0 0 rest]
  rfl

theorem lexemes_scan_blank (pos : Nat) (rest : List Char) :
    (scan pos 0 (' ' :: rest)).lexemes = (scan 0 0 rest).lexemes := by
  have hblank : ∀ c ∈ [' '], isSeparator c := by simp [isSeparator]
  rw [← List.singleton_append, scan_of_isSpacing pos rest hblank]
  exact lexemes_scan _ _ _ _

/-- The lexemes of an assignment, whether or not its right side is accepted. -/
theorem lexemes_ofText_assignment {name : String} (hname : isName name.toList) (text : String) :
    (ofText (assignmentText name text)).lexemes =
      (.name name :: .equal :: (ofText text).lexemes.1, (ofText text).lexemes.2) := by
  have hlist : (assignmentText name text).toList = name.toList ++ [' ', '=', ' '] ++ text.toList := by
    simp [assignmentText]
  have hclosed : Text.closed (assignmentText name text).toList =
      (Lexeme.name name).text.toList ++ ' ' :: (Lexeme.equal.text.toList ++
        ' ' :: Text.closed text.toList) := by
    rw [hlist, closed_append (by simp), List.append_assoc]
    rfl
  have hblank (rest : List Char) : IsBoundary (' ' :: rest) := by
    intro c hc
    cases hc
    decide
  rw [ofText, hclosed, lexemes_scan_lexeme 0 (l := .name name) hname fun _ => hblank _,
    lexemes_scan_blank,
    lexemes_scan_lexeme 0 (l := .equal) rfl (fun hword => by cases hword), lexemes_scan_blank]
  rfl

end Tokens

theorem Line.exists_assignment {name text : String} {body : Formula} {stop : Nat}
    (hname : isName name.toList) (htext : Line.ofText text = .ok (.formula none body stop)) :
    ∃ line, Line.ofText (assignmentText name text) = .ok line ∧
      line.statement? = some ⟨.identifier name, body.node⟩ := by
  obtain ⟨hlist, hstray⟩ := Prod.mk.inj (Tokens.lexemes_ofText_assignment hname text)
  obtain ⟨hnone, htokens⟩ := Line.ofTokens_eq_ok.1 htext
  -- any positions will do, as the lexemes decide
  let target : Option Target := some ⟨name, 0, 0⟩
  have hlexemes : (Tokens.ofText (assignmentText name text)).list.map Token.lexeme =
      (Line.formula target body stop).tokens.map Token.lexeme := by
    rw [hlist, Tokens.lexemes, ← htokens, Line.tokens_formula, Line.tokens_formula]
    rfl
  obtain ⟨line, hline, hstatement⟩ := exists_line_of_lexemes hlexemes
  refine ⟨line, Line.ofTokens_eq_ok.2 ⟨?_, hline⟩, hstatement⟩
  rw [Tokens.lexemes, hnone] at hstray
  simpa using hstray

/-- The statement of an assignment is that of its right side, but for the target. -/
theorem Statement.ofText_assignment {name text : String} {body : Formula} {stop : Nat}
    (hname : isName name.toList) (htext : Line.ofText text = .ok (.formula none body stop))
    (hdepth : body.depth ≤ Node.depthLimit) :
    ofText (assignmentText name text) = .ok (some ⟨.identifier name, body.node⟩) := by
  obtain ⟨line, hline, hstatement⟩ := Line.exists_assignment hname htext
  cases line with
  | blank stop => cases hstatement
  | formula target g stop' =>
    obtain ⟨htarget, hbody⟩ := Statement.mk.inj (Option.some.inj hstatement)
    exact ofText_eq hline htarget hbody (by rwa [body.depth_node])

/-! ## The value -/

namespace Session

theorem verdict_of_ofText {vars : Variables} {text : String} {statement : Statement} {value : Int}
    (htext : Statement.ofText text = .ok (some statement))
    (hvalue : (statement.body.reduce vars).outcome.result = .ok value) :
    (assess vars text).verdict = .ofValue (target? statement) value := by
  simp only [assess, htext, hvalue]

theorem value_of_settle {s : Session} {text : String} {target : Option String} {value : Int}
    {answer : Answer} (h : (s.settle text (.ofValue target value)).2 = .ok (some answer)) :
    answer.value = value := by
  cases target with
  | none =>
    cases h
    rfl
  | some name =>
    rw [Verdict.ofValue] at h
    split_ifs at h <;> cases h
    rfl

/-- An answer tells that the text is no deeper than lines may be, and the value of its formula. -/
theorem value_of_evaluate {s : Session} {text : String} {target : Option Target} {body : Formula}
    {stop : Nat} {answer : Answer} (htext : Line.ofText text = .ok (.formula target body stop))
    (h : (s.evaluate text).2 = .ok (some answer)) :
    body.depth ≤ Node.depthLimit ∧
      (body.node.reduce s.vars).outcome.result = .ok answer.value := by
  have hstatement := Statement.ofText_of_line htext
  rw [evaluate_eq] at h
  unfold assess at h
  split_ifs at hstatement with hdepth
  · simp only [hstatement, settle] at h
    cases h
  · simp only [hstatement] at h
    refine ⟨Nat.le_of_not_lt hdepth, ?_⟩
    cases hresult : (body.node.reduce s.vars).outcome.result with
    | error cause =>
      simp only [hresult, settle] at h
      cases h
    | ok value =>
      simp only [hresult] at h
      rw [value_of_settle h]

theorem verdict_assignment {s : Session} {name text : String} {body : Formula} {stop : Nat}
    {answer : Answer} (hname : isName name.toList)
    (htext : Line.ofText text = .ok (.formula none body stop))
    (h : (s.evaluate text).2 = .ok (some answer)) :
    (assess s.vars (assignmentText name text)).verdict =
      .ofValue (if name = Variables.lastName then none else some name) answer.value := by
  obtain ⟨hdepth, hvalue⟩ := value_of_evaluate htext h
  have htarget : target? ⟨.identifier name, body.node⟩ =
      if name = Variables.lastName then none else some name := by
    by_cases hlast : name = Variables.lastName <;>
      simp [target?, Statement.assigned?, Option.filter, hlast]
  rw [verdict_of_ofText (Statement.ofText_assignment hname htext hdepth) hvalue, htarget]

/-- A name is read as its value. -/
theorem evaluate_name {s : Session} {name : String} {value : Int} (hname : isName name.toList)
    (hvalue : s.vars.get? name = some value) :
    (s.evaluate name).2 = .ok (some ⟨value, none⟩) := by
  let body : Formula := .single (.name name 0)
  have hproper : body.IsProper := fun t ht => List.mem_singleton.1 ht ▸ hname
  obtain ⟨g, stop, hline, hslots⟩ := ofText_formula hproper (spelled_singleton _).symm
  have hnode : g.node = body.node := congrArg Node.expression hslots
  have hdepth : body.node.depth ≤ Node.depthLimit := Nat.zero_le _
  have hstatement : Statement.ofText name = .ok (some ⟨.hole, body.node⟩) :=
    Statement.ofText_eq hline rfl hnode hdepth
  have hresult : (body.node.reduce s.vars).outcome.result = .ok value := by
    have hwork : body.work s.vars = (Reduction.lookup s.vars name).outcome := rfl
    rw [body.outcome_reduce, hwork, Reduction.lookup, hvalue]
  rw [evaluate_eq, verdict_of_ofText hstatement hresult]
  rfl

end Session

/-! ## The name -/

/-- Of the names that lexemes allow, those can take a value that have no underscore. -/
theorem isValidName_iff {name : String} (hname : isName name.toList)
    (hlast : name ≠ Variables.lastName) :
    Variables.isValidName name ↔ '_' ∉ name.toList := by
  obtain ⟨c, cs, hlist, hc, hcs⟩ := isName_iff.1 hname
  have hne : (name == Variables.lastName) = false := by simpa using hlast
  rw [Variables.isValidName, hne, hlist, Bool.false_or, Bool.and_eq_true, List.all_eq_true]
  constructor
  · rintro ⟨hfirst, hrest⟩ hmem
    rcases List.mem_cons.1 hmem with rfl | hmem
    · exact absurd hfirst (by decide)
    · exact absurd (hrest _ hmem) (by decide)
  · intro hmem
    obtain ⟨hfirst, hrest⟩ := not_or.1 (List.mem_cons.not.1 hmem)
    refine ⟨?_, fun d hd => ?_⟩
    · simpa [isNameStart, Ne.symm hfirst] using hc
    · have hne : d ≠ '_' := fun h => hrest (h ▸ hd)
      simpa [isNamePart, isNameStart, hne, Char.isAlphanum] using hcs d hd

/-! ## The law -/

/-- **Assignments.** Let a text that assigns nothing have a value in a session. The text assigned to
a name that can take a value has the same value, which the name takes, in its old place or at the
end of the table; it becomes the last value, no other name changes, and the name is read as it. Under
the name of the last value, only the last value changes. Every other name has an underscore in it and
is refused, and no variable changes. -/
theorem assignment_law {s : Session} {name text : String} {body : Formula} {stop : Nat} {value : Int}
    (hname : isName name.toList) (htext : Line.ofText text = .ok (.formula none body stop))
    (hvalue : (s.evaluate text).2 = .ok (some ⟨value, none⟩)) :
    let result := (s.evaluate (assignmentText name text)).2
    let next := (s.evaluate (assignmentText name text)).1
    (name ≠ Variables.lastName → Variables.isValidName name →
      result = .ok (some ⟨value, some name⟩) ∧
      (∀ before old after, s.vars.table = before ++ (name, old) :: after →
        name ∉ Table.keys before → next.vars.table = before ++ (name, value) :: after) ∧
      (name ∉ s.vars.table.keys → next.vars.table = s.vars.table ++ [(name, value)]) ∧
      next.vars.last = value ∧
      (∀ other, other ≠ name → other ≠ Variables.lastName →
        next.vars.get? other = s.vars.get? other) ∧
      (next.evaluate name).2 = .ok (some ⟨value, none⟩)) ∧
    (name = Variables.lastName →
      result = .ok (some ⟨value, none⟩) ∧ next.vars = ⟨s.vars.table, value⟩) ∧
    (¬ Variables.isValidName name →
      '_' ∈ name.toList ∧ (∃ step, result = .error (.fault (.invalidName name) step)) ∧
      next.vars = s.vars) := by
  intro result next
  have hverdict := Session.verdict_assignment hname htext hvalue
  have heq : (next, result) = (s.worked _).settle _ _ := s.evaluate_eq (assignmentText name text)
  rw [hverdict] at heq
  refine ⟨fun hlast hvalid => ?_, fun hlast => ?_, fun hvalid => ?_⟩
  · rw [if_neg hlast, Verdict.ofValue, if_pos hvalid] at heq
    obtain ⟨hnext, hresult⟩ := Prod.mk.inj heq
    have hvars : next.vars = ⟨s.vars.table.put name value, value⟩ := by
      rw [hnext]
      rfl
    refine ⟨hresult, fun before old after htable hbefore => ?_, fun hnew => ?_, ?_, ?_, ?_⟩
    · rw [hvars, htable, Table.put_append hbefore, Table.put, if_pos rfl]
    · have hput := Table.put_append hnew value []
      rw [List.append_nil] at hput
      rw [hvars, hput]
      rfl
    · rw [hvars]
    · intro other hother hother'
      rw [hvars, Variables.get?, Variables.get?, if_neg hother', if_neg hother', Table.get?_put,
        if_neg (Ne.symm hother)]
    · refine Session.evaluate_name hname ?_
      rw [hvars, Variables.get?, if_neg hlast, Table.get?_put, if_pos rfl]
  · rw [if_pos hlast] at heq
    obtain ⟨hnext, hresult⟩ := Prod.mk.inj heq
    refine ⟨hresult, ?_⟩
    rw [hnext]
    rfl
  · have hlast : name ≠ Variables.lastName := by
      rintro rfl
      exact hvalid rfl
    rw [if_neg hlast, Verdict.ofValue, if_neg hvalid] at heq
    obtain ⟨hnext, hresult⟩ := Prod.mk.inj heq
    refine ⟨?_, ⟨_, hresult⟩, ?_⟩
    · rwa [isValidName_iff hname hlast, not_not] at hvalid
    · rw [hnext]
      rfl

/-- ` 2*y` assigned to a variable in the middle of the table, to the last value, and to a name with
an underscore. -/
theorem assignment_law_three_names :
    let s : Session := .ofVariables ⟨[("y", 3), ("x", 1), ("z", 2)], 5⟩ false
    let line : Line :=
      .formula none (.chain (.number "2" 1) .multiply 2 (.single (.name "y" 3))) 4
    Line.ofText " 2*y" = .ok line ∧ (s.evaluate " 2*y").2 = .ok (some ⟨6, none⟩) ∧
      (isName "x".toList ∧ (s.evaluate (assignmentText "x" " 2*y")).1.vars.table =
        [("y", 3), ("x", 6), ("z", 2)]) ∧
      (isName "_".toList ∧ (s.evaluate (assignmentText "_" " 2*y")).1.vars = ⟨s.vars.table, 6⟩) ∧
      (isName "a_b".toList ∧ (s.evaluate (assignmentText "a_b" " 2*y")).1.vars = s.vars) := by
  intro s line
  have hline : Line.ofText " 2*y" = .ok line := by decide
  have hvalue : (s.evaluate " 2*y").2 = .ok (some ⟨6, none⟩) := by decide +kernel
  have hx : isName "x".toList := by decide
  have hlast : isName "_".toList := by decide
  have hunderscore : isName "a_b".toList := by decide
  refine ⟨hline, hvalue, ⟨hx, ?_⟩, ⟨hlast, ?_⟩, hunderscore, ?_⟩
  · obtain ⟨-, hplace, -⟩ := (assignment_law hx hline hvalue).1 (by decide) (by decide)
    exact hplace [("y", 3)] 1 [("z", 2)] rfl (by decide)
  · exact ((assignment_law hlast hline hvalue).2.1 rfl).2
  · exact ((assignment_law hunderscore hline hvalue).2.2 (by decide)).2.2

end Calculator
