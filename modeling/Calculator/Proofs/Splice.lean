import Mathlib.Data.List.Basic
import Calculator.Proofs.Cutting
import Calculator.Proofs.Idle
import Calculator.Proofs.Margins
import Calculator.Proofs.Rows
import Calculator.Proofs.Substitution

/-!
# Equals for equals in a text

A number in a text may give way to a text in parentheses that has its value.

1. No word goes on with a parenthesis but a comment. A comment before the number would have
   swallowed the number, and the text put in has none; so both texts are cut up at the parentheses
   as they were before (`exists_cuts_group`, `exists_tokens_spliced`).
2. The tokens of the new text are those of the old line with the number replaced
   (`Line.exists_swapped`), and inspection finds the same (`inspect_spliced`).
-/

namespace Calculator

/-! ## Words at a parenthesis -/

theorem continuation?_cases {c : Char} {p : Char → Bool} (h : continuation? c = some p) :
    p = Char.isDigit ∨ p = isNamePart ∨ (c = '#' ∧ p = fun d => decide (d ≠ '\n')) ∨
      p = isSeparator ∨ p = fun _ => false := by
  unfold continuation? at h
  split_ifs at h with h₁ h₂ h₃ <;> cases h
  · exact .inl rfl
  · exact .inr (.inl rfl)
  · exact .inr (.inr (.inl ⟨h₃, rfl⟩))
  · exact .inr (.inr (.inr (.inl rfl)))
  · exact .inr (.inr (.inr (.inr rfl)))

/-- Only a comment goes on with an opening parenthesis, and it would go on with a digit as well. -/
theorem covers_opening {d : Char} (hd : d.isDigit) (front rest after : List Char) :
    Covers front (d :: rest) ('(' :: after) := by
  intro c _ p hp d' hd' hpd
  cases hd'
  refine ⟨d, rfl, ?_⟩
  rcases continuation?_cases hp with rfl | rfl | ⟨-, rfl⟩ | rfl | rfl
  · exact absurd hpd (by decide)
  · exact absurd hpd (by decide)
  · refine decide_eq_true fun h => ?_
    rw [h] at hd
    exact absurd hd (by decide)
  · exact absurd hpd (by decide)
  · cases hpd

theorem covers_closing {front : List Char} (hfront : '#' ∉ front) (rest after : List Char) :
    Covers front rest (')' :: after) := by
  intro c hc p hp d' hd' hpd
  cases hd'
  rcases continuation?_cases hp with rfl | rfl | ⟨rfl, -⟩ | rfl | rfl
  · exact absurd hpd (by decide)
  · exact absurd hpd (by decide)
  · exact absurd hc hfront
  · exact absurd hpd (by decide)
  · cases hpd

theorem cuts_mark {l : Lexeme} (hl : l.isOpen = false) (pos : Nat) (rest : List Char) :
    Cuts pos l.text.toList rest [⟨l, pos⟩] := by
  have hproper := isProper_of_not_isOpen hl
  have hmunch : Munch (l.text.toList ++ ([] ++ rest)) l.text.toList ([] ++ rest) :=
    munch_text hproper fun hopen => nomatch hl.symm.trans hopen
  rw [← List.append_nil l.text.toList]
  exact .lexeme hmunch hproper .nothing

/-! ## The tokens of the new text -/

section Group

variable {e : String} {body : Formula} {stop : Nat}
  (he : Line.ofText e = .ok (.formula none body stop)) (hnumber : '#' ∉ e.toList)
  (hnewline : '\n' ∉ e.toList)
include he hnumber hnewline

/-- An accepted text is cut up alike in parentheses. -/
theorem exists_cuts_group (pos : Nat) (rest : List Char) :
    ∃ ts, Cuts pos ('(' :: (e.toList ++ [')'])) rest ts ∧
      ts.map Token.lexeme = .opening :: (body.tokens.map Token.lexeme ++ [.closing]) := by
  have htokens := cuts_nil_iff.2 (Line.ofText_eq_ok.1 he)
  rw [closed_of_not_mem hnewline] at htokens
  obtain ⟨left, right, hsplit, -, -, hleft, -, -⟩ := htokens.exists_split
  have htext : Lexeme.newline.text.toList = ['\n'] := rfl
  rw [htext, List.singleton_append] at hsplit
  obtain ⟨rfl, -, -⟩ := (List.append_cons_inj_of_notMem hnewline List.not_mem_nil).1 hsplit
  obtain ⟨ts, hts, hlexemes⟩ :=
    (hleft.replace (covers_closing hnumber _ rest)).exists_at (pos + 1)
  refine ⟨_, (cuts_mark (l := .opening) rfl pos _).append
    (hts.append (cuts_mark (l := .closing) rfl _ rest)), ?_⟩
  rw [List.map_append, List.map_append, hlexemes]
  rfl

/-- The text with the number replaced has the tokens of the line with the number replaced, up to
positions. -/
theorem exists_tokens_spliced {front back : List Char} {digits : String} {before after : List Token}
    (h : Tokenises 0 (Text.closed (front ++ (digits.toList ++ back)))
      (before ++ ⟨.digits digits, front.length⟩ :: after)) :
    ∃ ts, Tokenises 0 (Text.closed (front ++ ('(' :: (e.toList ++ [')']) ++ back))) ts ∧
      ts.map Token.lexeme = before.map Token.lexeme ++
        (.opening :: (body.tokens.map Token.lexeme ++ [.closing]) ++ after.map Token.lexeme) := by
  obtain ⟨left, right, hclosed, hstart, hproper, hleft, -, hright⟩ :=
    (cuts_nil_iff.2 h).exists_split
  obtain ⟨d, ds, hds, hd, hall⟩ := isDigits_iff.1 hproper
  have hlast : (front ++ digits.toList).getLast? ≠ some '\n' := by
    rw [hds, List.getLast?_append_cons]
    intro h
    rcases List.mem_cons.1 (List.mem_of_getLast? h) with rfl | hmem
    · exact absurd hd (by decide)
    · exact absurd (hall _ hmem) (by decide)
  have hlast' : (front ++ '(' :: (e.toList ++ [')'])).getLast? ≠ some '\n' := by
    rw [← List.cons_append, ← List.append_assoc, List.getLast?_concat]
    decide
  rw [← List.append_assoc, closed_append hlast, List.append_assoc] at hclosed
  obtain ⟨rfl, hrest⟩ := List.append_inj hclosed (hstart.trans (Nat.zero_add _))
  obtain rfl := List.append_cancel_left hrest
  rw [← List.append_assoc, closed_append hlast', List.append_assoc]
  -- the parts before, in and after the parentheses
  rw [show (Lexeme.digits digits).text = digits from rfl, hds, List.append_nil] at hleft
  obtain ⟨inner, hinner, hlexemes⟩ :=
    exists_cuts_group he hnumber hnewline (0 + front.length) (Text.closed back ++ [])
  obtain ⟨others, hothers, hlexemes'⟩ :=
    hright.exists_at (0 + front.length + ('(' :: (e.toList ++ [')'])).length)
  have hfront : Cuts 0 front ('(' :: (e.toList ++ [')']) ++ Text.closed back ++ []) before :=
    hleft.replace (covers_opening hd front _ _)
  refine ⟨_, cuts_nil_iff.1 (hfront.append (hinner.append hothers)), ?_⟩
  rw [List.map_append, List.map_append, hlexemes, hlexemes']

end Group

/-! ## The new line -/

/-- A number of a line belongs to its formula, and can be replaced there. -/
theorem Line.exists_swapped {line : Line} {digits : String} {start : Nat}
    {before after : List Token} (h : line.tokens = before ++ ⟨.digits digits, start⟩ :: after)
    (g : Formula) :
    ∃ target f f' stop, line = .formula target f stop ∧ Formula.Swaps digits g f f' ∧
      (Line.formula target f' stop).tokens =
        before ++ (Operand.grouped start g start).tokens ++ after := by
  cases line with
  | blank stop =>
    cases before with
    | nil => cases h
    | cons t before => cases before <;> cases h
  | formula target f stop =>
    rw [Line.tokens_formula] at h
    rcases split_beside h (by simp) with ⟨mid, hmid, rfl⟩ | ⟨mid, hmid, -⟩
    · cases target with
      | none =>
        obtain ⟨f', hswaps, htokens⟩ := exists_swapped_formula g f hmid
        refine ⟨none, f, f', stop, rfl, hswaps, ?_⟩
        rw [Line.tokens_formula, Target.tokens?, List.nil_append, htokens, List.append_assoc]
      | some t =>
        -- the name and the equals sign are other tokens
        obtain ⟨front, rfl, hbody⟩ : ∃ front, before = t.tokens ++ front ∧
            f.tokens = front ++ ⟨.digits digits, start⟩ :: mid := by
          cases before with
          | nil => cases hmid
          | cons u before =>
            cases before with
            | nil => cases hmid
            | cons v before =>
              obtain ⟨rfl, htail⟩ := List.cons.inj hmid
              obtain ⟨rfl, hbody⟩ := List.cons.inj htail
              exact ⟨before, rfl, hbody⟩
        obtain ⟨f', hswaps, htokens⟩ := exists_swapped_formula g f hbody
        refine ⟨some t, f, f', stop, rfl, hswaps, ?_⟩
        rw [Line.tokens_formula, Target.tokens?, htokens]
        simp only [List.append_assoc]
    · cases mid <;> cases hmid

namespace Session

/-- What inspection tells of an accepted text, but for the number of the last step. -/
theorem inspect_formula (s : Session) {text : String} {target : Option Target} {body : Formula}
    {stop : Nat} (hline : Line.ofText text = .ok (.formula target body stop)) :
    (s.inspect text).2.mapError Failure.unnumbered =
      if body.depth > Node.depthLimit then .error (.fault .tooDeep none)
      else ((body.node.reduce s.vars).outcome.result.map some).mapError (Failure.fault · none) := by
  have hstatement := Statement.ofText_of_line hline
  split_ifs at hstatement ⊢ with hdepth
  · simp only [inspect, workOut, hstatement]
    rfl
  · simp only [inspect, workOut, hstatement]
    cases (body.node.reduce s.vars).outcome.result <;> rfl

theorem inspect_eq_ok_iff {s : Session} {text : String} {target : Option Target} {body : Formula}
    {stop : Nat} (hline : Line.ofText text = .ok (.formula target body stop)) {v : Int} :
    (s.inspect text).2 = .ok (some v) ↔
      body.depth ≤ Node.depthLimit ∧ (body.work s.vars).result = .ok v := by
  have hinspect := s.inspect_formula hline
  rw [body.outcome_reduce] at hinspect
  generalize (s.inspect text).2 = found at hinspect ⊢
  generalize (body.work s.vars).result = result at hinspect ⊢
  split_ifs at hinspect with hdepth
  · refine ⟨fun h => ?_, fun h => absurd h.1 (by omega)⟩
    rw [h] at hinspect
    cases hinspect
  · rw [Nat.not_lt] at hdepth
    cases result with
    | error fault =>
      cases found with
      | error failure => simp
      | ok found => cases hinspect
    | ok w =>
      cases found with
      | error failure => cases hinspect
      | ok found =>
        cases hinspect
        simp [hdepth]

end Session

/-- **Equals for equals in a text.** In an accepted text, a number gives way to a text in
parentheses that has its value: the new text is accepted, and unless it is too deep, inspection
finds the same value, or the same fault. -/
theorem inspect_spliced (s : Session) {text e digits : String} {front back : List Char}
    {line : Line} {body : Formula} {stop : Nat} (hline : Line.ofText text = .ok line)
    (htext : text.toList = front ++ (digits.toList ++ back))
    (htoken : ⟨.digits digits, front.length⟩ ∈ line.tokens)
    (he : Line.ofText e = .ok (.formula none body stop)) (hnumber : '#' ∉ e.toList)
    (hnewline : '\n' ∉ e.toList)
    (hvalue : (s.inspect e).2 = .ok (some (Decimal.value digits.toList))) :
    let spliced := String.ofList (front ++ ('(' :: (e.toList ++ [')']) ++ back))
    ∃ target f stop', Line.ofText spliced = .ok (.formula target f stop') ∧
      (f.depth ≤ Node.depthLimit →
        (s.inspect spliced).2.mapError Failure.unnumbered =
          (s.inspect text).2.mapError Failure.unnumbered) := by
  intro spliced
  obtain ⟨before, after, hsplit⟩ := List.append_of_mem htoken
  have htokens := Line.ofText_eq_ok.1 hline
  rw [htext, hsplit] at htokens
  obtain ⟨ts, hts, hlexemes⟩ := exists_tokens_spliced he hnumber hnewline htokens
  obtain ⟨target, f, f', stop', rfl, hswaps, hnew⟩ := Line.exists_swapped hsplit body
  have hlexemes' : ts.map Token.lexeme =
      (Line.formula target f' stop').tokens.map Token.lexeme := by
    rw [hlexemes, hnew, Operand.tokens]
    simp only [List.map_append, List.map_cons, List.map_nil, List.append_assoc]
  obtain ⟨line', rfl, hstatement⟩ := exists_line_of_lexemes hlexemes'
  cases line' with
  | blank stop => cases hstatement
  | formula target' h stop'' =>
    obtain ⟨-, hnode⟩ := Statement.mk.inj (Option.some.inj hstatement)
    have hspliced : Line.ofText spliced = .ok (.formula target' h stop'') :=
      Line.ofText_eq_ok.2 (by rwa [String.toList_ofList])
    refine ⟨target', h, stop'', hspliced, fun hdepth => ?_⟩
    have hdepth' : f'.depth ≤ Node.depthLimit := by
      rwa [← f'.depth_node, ← hnode, h.depth_node]
    have hle := hswaps.depth_le
    have hresult := hswaps.result_work ((Session.inspect_eq_ok_iff he).1 hvalue).2
    rw [s.inspect_formula hspliced, s.inspect_formula hline, if_neg (by omega), if_neg (by omega),
      hnode, f'.outcome_reduce, f.outcome_reduce, hresult]

/-- `x/(2-2)+3`, where `3` gives way to `(y*y-6)`. -/
theorem inspect_spliced_division :
    let s : Session := .ofVariables ⟨[("x", 1), ("y", 3)], 0⟩ false
    let difference (start : Nat) : Formula := .chain (.name "y" start) .multiply (start + 1)
      (.chain (.name "y" (start + 2)) .subtract (start + 3) (.single (.number "6" (start + 4))))
    let sum (second : Operand) : Formula := .chain (.name "x" 0) .divide 1 (.chain
      (.grouped 2 (.chain (.number "2" 3) .subtract 4 (.single (.number "2" 5))) 6) .add 7
      (.single second))
    let line : Line := .formula none (sum (.number "3" 8)) 9
    let front := ['x', '/', '(', '2', '-', '2', ')', '+']
    let spliced := "x/(2-2)+(y*y-6)"
    let fault : Failure := .fault (.divisionByZero "DIVIDE") none
    (Line.ofText "x/(2-2)+3" = .ok line ∧ "x/(2-2)+3".toList = front ++ ("3".toList ++ []) ∧
      ⟨.digits "3", front.length⟩ ∈ line.tokens ∧
      Line.ofText "y*y-6" = .ok (.formula none (difference 0) 5) ∧
      '#' ∉ "y*y-6".toList ∧ '\n' ∉ "y*y-6".toList ∧
      (s.inspect "y*y-6").2 = .ok (some (Decimal.value "3".toList))) ∧
    spliced = String.ofList (front ++ ('(' :: ("y*y-6".toList ++ [')']) ++ [])) ∧
      Line.ofText spliced = .ok (.formula none (sum (.grouped 8 (difference 9) 14)) 15) ∧
      (s.inspect "x/(2-2)+3").2.mapError Failure.unnumbered = .error fault ∧
      (s.inspect spliced).2.mapError Failure.unnumbered = .error fault := by
  intro s difference sum line front spliced fault
  have hline : Line.ofText "x/(2-2)+3" = .ok line := by decide
  have htext : "x/(2-2)+3".toList = front ++ ("3".toList ++ []) := by decide
  have htoken : ⟨.digits "3", front.length⟩ ∈ line.tokens := by decide
  have he : Line.ofText "y*y-6" = .ok (.formula none (difference 0) 5) := by decide
  have hvalue : (s.inspect "y*y-6").2 = .ok (some (Decimal.value "3".toList)) :=
    (Session.inspect_eq_ok_iff he).2 ⟨by decide, rfl⟩
  have hspelled : spliced = String.ofList (front ++ ('(' :: ("y*y-6".toList ++ [')']) ++ [])) := by
    decide
  have hspliced : Line.ofText spliced =
      .ok (.formula none (sum (.grouped 8 (difference 9) 14)) 15) := by decide
  have hfault : (s.inspect "x/(2-2)+3").2.mapError Failure.unnumbered = .error fault := by
    decide +kernel
  obtain ⟨target, f, stop, haccepted, hsame⟩ :=
    inspect_spliced s hline htext htoken he (by decide) (by decide) hvalue
  rw [← hspelled] at haccepted hsame
  obtain ⟨-, rfl, -⟩ := Line.formula.inj (Except.ok.inj (hspliced.symm.trans haccepted))
  exact ⟨⟨hline, htext, htoken, he, by decide, by decide, hvalue⟩, hspelled, hspliced, hfault,
    (hsame (by decide)).trans hfault⟩

end Calculator
