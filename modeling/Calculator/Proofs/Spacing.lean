import Mathlib.Data.List.Basic
import Calculator.Proofs.Cutting
import Calculator.Proofs.Margins

/-!
# Spacing

Separators and comments stand between the lexemes of a text and say nothing.

1. Wherever they are put in, the text is cut into the same lexemes (`Tokens.lexemes_scan_insert`),
   and it is the lexemes that make the statement (`Statement.ofText_eq_of_lexemes`).
2. Without its separators and comments, an accepted text spells its lexemes one after the other
   (`Tokenises.unspaced_eq_spelled`). No two numbers or names stand side by side in a line, so the
   spelling is read as the same statement (`Line.exists_of_spelled`).
-/

namespace Calculator

/-- The text without its separators and comments; `inComment` tells whether it begins inside a
comment. -/
def unspaced (inComment : Bool) : List Char → List Char
  | [] => []
  | c :: cs =>
    if c = '\n' then c :: unspaced false cs
    else if inComment || c = '#' then unspaced true cs
    else if isSeparator c then unspaced false cs
    else c :: unspaced false cs

/-- Texts with the same lexemes as an accepted one have its statement. -/
theorem Statement.ofText_eq_of_lexemes {text text' : String} {line : Line}
    (hline : Line.ofText text = .ok line)
    (h : (Tokens.ofText text').lexemes = (Tokens.ofText text).lexemes) :
    ofText text' = ofText text := by
  obtain ⟨line', hline', hstatement⟩ := Line.exists_of_lexemes h.symm hline
  exact ofText_eq_of_statement? hline' hline hstatement

/-! ## Leaving spacing out -/

/-- Lexemes have neither separators nor the beginning of a comment in them. -/
theorem solid_of_mem_text {l : Lexeme} (hl : l.isProper) {c : Char} (hc : c ∈ l.text.toList) :
    c ≠ '#' ∧ isSeparator c = false := by
  have hpart (h : isNamePart c) : c ≠ '#' ∧ isSeparator c = false := by
    refine ⟨?_, Bool.eq_false_iff.2 fun hseparator => ?_⟩
    · rintro rfl
      exact absurd h (by decide)
    · rcases isSeparator_iff.1 hseparator with rfl | rfl | rfl | rfl <;> exact absurd h (by decide)
  cases hopen : l.isOpen with
  | false =>
    obtain ⟨d, hd⟩ := exists_char_of_not_isOpen hopen
    rw [(text_of_ofChar? hd).2.1, List.mem_singleton] at hc
    subst hc
    unfold Lexeme.ofChar? at hd
    split at hd <;> first | exact ⟨by decide, by decide⟩ | cases hd
  | true =>
    cases l with
    | digits text =>
      obtain ⟨d, ds, htext, hd, hds⟩ := isDigits_iff.1 hl
      have hall : ∀ e ∈ d :: ds, Char.isDigit e := List.forall_mem_cons.2 ⟨hd, hds⟩
      have hdigit : c.isDigit := hall c (htext ▸ hc)
      exact hpart (by simp [isNamePart, hdigit])
    | name text =>
      obtain ⟨d, ds, htext, hd, hds⟩ := isName_iff.1 hl
      have hall : ∀ e ∈ d :: ds, isNamePart e :=
        List.forall_mem_cons.2 ⟨by simp [isNamePart, hd], hds⟩
      exact hpart (hall c (htext ▸ hc))
    | _ => cases hopen

theorem unspaced_solid {word : List Char} (h : ∀ c ∈ word, c ≠ '#' ∧ isSeparator c = false)
    (rest : List Char) : unspaced false (word ++ rest) = word ++ unspaced false rest := by
  induction word with
  | nil => rfl
  | cons c cs ih =>
    obtain ⟨⟨hnumber, hseparator⟩, hcs⟩ := List.forall_mem_cons.1 h
    rw [List.cons_append, unspaced, ih hcs]
    simp [hnumber, hseparator]

theorem unspaced_separators {word : List Char} (h : ∀ c ∈ word, isSeparator c)
    (rest : List Char) : unspaced false (word ++ rest) = unspaced false rest := by
  induction word with
  | nil => rfl
  | cons c cs ih =>
    obtain ⟨hc, hcs⟩ := List.forall_mem_cons.1 h
    rw [List.cons_append, unspaced, ih hcs]
    rcases isSeparator_iff.1 hc with rfl | rfl | rfl | rfl <;> rfl

theorem unspaced_comment {body : List Char} (h : '\n' ∉ body) (rest : List Char) :
    unspaced true (body ++ rest) = unspaced true rest := by
  induction body with
  | nil => rfl
  | cons c cs ih =>
    obtain ⟨hc, hcs⟩ := not_or.1 (List.mem_cons.not.1 h)
    rw [List.cons_append, unspaced, if_neg (Ne.symm hc), ih hcs]
    rfl

theorem unspaced_concat_newline (inComment : Bool) (cs : List Char) :
    unspaced inComment (cs ++ ['\n']) = unspaced inComment cs ++ ['\n'] := by
  induction cs generalizing inComment with
  | nil => rfl
  | cons c cs ih =>
    rw [List.cons_append, unspaced, unspaced, ih, ih]
    split_ifs <;> rfl

theorem mem_of_mem_unspaced {inComment : Bool} {cs : List Char} {c : Char}
    (h : c ∈ unspaced inComment cs) : c ∈ cs := by
  induction cs generalizing inComment with
  | nil => exact h
  | cons d ds ih =>
    rw [unspaced] at h
    split_ifs at h
    · exact List.mem_cons.2 ((List.mem_cons.1 h).imp_right ih)
    · exact List.mem_cons_of_mem _ (ih h)
    · exact List.mem_cons_of_mem _ (ih h)
    · exact List.mem_cons.2 ((List.mem_cons.1 h).imp_right ih)

/-- What is left without separators and comments are the spellings of the lexemes. -/
theorem Tokenises.unspaced_eq_spelled {pos : Nat} {cs : List Char} {ts : List Token}
    (h : Tokenises pos cs ts) : unspaced false cs = spelled ts := by
  induction h with
  | done => rfl
  | @ignored pos cs word rest ts hmunch hword _ ih =>
    rw [hmunch.split, ← ih]
    rcases Bool.or_eq_true_iff.1 hword with hspace | hcomment
    · rw [isSpacing, Bool.and_eq_true, List.all_eq_true] at hspace
      exact unspaced_separators hspace.2 rest
    · obtain ⟨c, body, rfl⟩ := List.exists_cons_of_ne_nil hmunch.isWord.ne_nil
      obtain rfl : c = '#' := by simpa using (Bool.and_eq_true_iff.1 hcomment).1
      have hbody : '\n' ∉ body := fun hmem =>
        not_mem_newline_of_isIgnored hword (List.mem_cons_of_mem _ hmem)
      -- the comment ends with the text or before a newline, where it makes no difference
      have hrest : unspaced true rest = unspaced false rest := by
        obtain ⟨c, cs, p, hcons, hp, -, hhead⟩ := (hmunch.split ▸ hmunch).exists_continuation
        obtain ⟨rfl, rfl⟩ := List.cons.inj hcons
        cases continuation?_numberSign.symm.trans hp
        cases rest with
        | nil => rfl
        | cons d ds =>
          obtain rfl : d = '\n' := by simpa using hhead d rfl
          rfl
      rw [List.cons_append, unspaced, if_neg (by decide), if_pos (by simp),
        unspaced_comment hbody, hrest]
  | lexeme hmunch hl _ ih =>
    rw [hmunch.split, unspaced_solid fun c => solid_of_mem_text hl, ih, spelled_cons]

/-- Written without spacing, a line is read as a line with the same statement. -/
theorem Line.exists_of_spelled {line : Line} (h : ∀ t ∈ line.tokens, t.lexeme.isProper) :
    ∃ line' : Line, Tokenises 0 (spelled line.tokens) line'.tokens ∧
      line'.statement? = line.statement? := by
  match line with
  | .blank stop =>
    obtain ⟨_, hts, pos, _, rfl, rfl⟩ := cutsInto_nil.mark .newline rfl 0
    exact ⟨.blank pos, hts, rfl⟩
  | .formula target body stop =>
    rw [Line.tokens_formula] at h ⊢
    have hbody : body.IsProper := fun t ht => h t (by simp [ht])
    have hnewline : Lexeme.newline.text.toList = ['\n'] := rfl
    rw [spelled_append, spelled_append, spelled_singleton, hnewline, List.append_assoc]
    cases target with
    | none =>
      obtain ⟨_, hts, g, pos, rfl, hslots⟩ := cutsInto_body hbody 0
      refine ⟨.formula none g pos, ?_, ?_⟩
      · rw [Line.tokens_formula]
        exact hts
      · rw [Line.statement?, Formula.node, hslots]
        rfl
    | some t =>
      have hname : (Lexeme.name t.name).isProper := h ⟨.name t.name, t.start⟩ (by
        simp [Target.tokens?, Target.tokens])
      have hequal := (cutsInto_body hbody).mark .equal rfl
      have hboundary := isBoundary_text (l := .equal) rfl (spelled body.tokens ++ ['\n'])
      obtain ⟨_, hts, start, _, rfl, equal, _, rfl, g, pos, rfl, hslots⟩ :=
        hequal.lexeme hname (fun _ => hboundary) 0
      refine ⟨.formula (some ⟨t.name, start, equal⟩) g pos, ?_, ?_⟩
      · rw [Line.tokens_formula, Target.tokens?, Target.tokens, spelled_cons, spelled_singleton,
          List.append_assoc]
        exact hts
      · rw [Line.statement?, Formula.node, hslots]
        rfl

/-- In an accepted text a newline can only be the last character. -/
theorem exists_core {text : String} {line : Line} (h : Line.ofText text = .ok line) :
    ∃ core, '\n' ∉ core ∧ (text.toList = core ∨ text.toList = core ++ ['\n']) := by
  have hcount := (Line.ofText_eq_ok.1 h).count_newline
  rw [count_newline_line] at hcount
  by_cases hlast : text.toList.getLast? = some '\n'
  · obtain ⟨core, hcore⟩ := List.getLast?_eq_some_iff.1 hlast
    rw [Text.closed, if_pos hlast, hcore, List.count_append, List.count_singleton_self] at hcount
    exact ⟨core, List.count_eq_zero.1 (by omega), .inr hcore⟩
  · rw [Text.closed, if_neg hlast, List.count_append, List.count_singleton_self] at hcount
    exact ⟨text.toList, List.count_eq_zero.1 (by omega), .inl rfl⟩

theorem closed_unspaced {text : String} {line : Line} (h : Line.ofText text = .ok line) :
    Text.closed (unspaced false text.toList) = unspaced false (Text.closed text.toList) := by
  obtain ⟨core, hcore, htext | htext⟩ := exists_core h
  · rw [htext, closed_of_not_mem hcore, unspaced_concat_newline,
      closed_of_not_mem fun hmem => hcore (mem_of_mem_unspaced hmem)]
  · have hclosed (cs : List Char) : Text.closed (cs ++ ['\n']) = cs ++ ['\n'] :=
      if_pos List.getLast?_concat
    rw [htext, hclosed, unspaced_concat_newline, hclosed]

/-! ## Both together -/

/-- **Spacing.** An accepted text keeps its statement, or stays blank, if all separators and
comments are left out, and if separators are put in at any place before its newline that is not
inside a lexeme. -/
theorem statement_without_spacing {text : String} {line : Line}
    (hline : Line.ofText text = .ok line) :
    Statement.ofText (String.ofList (unspaced false text.toList)) = Statement.ofText text ∧
    ∀ front run back, text.toList = front ++ back → '\n' ∉ front →
      (∀ t ∈ line.tokens,
        front.length ≤ t.start ∨ t.start + t.lexeme.text.length ≤ front.length) →
      (∀ c ∈ run, isSeparator c) →
      Statement.ofText (String.ofList (front ++ run ++ back)) = Statement.ofText text := by
  have htokens := Line.ofText_eq_ok.1 hline
  refine ⟨?_, fun front run back htext hfront hbetween hrun => ?_⟩
  · obtain ⟨line', htokens', hstatement⟩ := Line.exists_of_spelled htokens.isProper
    rw [← htokens.unspaced_eq_spelled, ← closed_unspaced hline] at htokens'
    have hline' : Line.ofText (String.ofList (unspaced false text.toList)) = .ok line' :=
      Line.ofText_eq_ok.2 (by rwa [String.toList_ofList])
    exact Statement.ofText_eq_of_statement? hline' hline hstatement
  · refine Statement.ofText_eq_of_lexemes hline ?_
    have hlast {cs : List Char} (hcs : '\n' ∉ cs) : cs.getLast? ≠ some '\n' :=
      fun h => hcs (List.mem_of_getLast? h)
    have hrun' : '\n' ∉ run := fun h => absurd (hrun _ h) (by decide)
    rw [htext, closed_append (hlast hfront)] at htokens
    rw [Tokens.ofText, Tokens.ofText, String.toList_ofList, htext, closed_append (hlast hfront),
      closed_append (hlast (by simp [hfront, hrun'])), List.append_assoc]
    refine Tokens.lexemes_scan_insert hrun hfront (Nat.zero_le _) (.inr fun t ht => ?_)
    rw [Tokens.scan_eq_iff.2 htokens] at ht
    simpa using hbetween t ht

/-- An assignment with a comment, and a form feed and a carriage return put in after the number. -/
theorem statement_without_spacing_comment :
    let line : Line := .formula (some ⟨"x", 0, 2⟩) (.single (.number "1" 3)) 7
    let front := ['x', ' ', '=', '1']
    let run := ['\x0c', '\r']
    let back := ['\t', '#', 'y']
    let statement : Statement := ⟨.identifier "x", .expression [.literal 1]⟩
    Line.ofText "x =1\t#y" = .ok line ∧ "x =1\t#y".toList = front ++ back ∧ '\n' ∉ front ∧
      (∀ t ∈ line.tokens,
        front.length ≤ t.start ∨ t.start + t.lexeme.text.length ≤ front.length) ∧
      (∀ c ∈ run, isSeparator c) ∧ Statement.ofText "x =1\t#y" = .ok (some statement) ∧
      Statement.ofText "x=1" = .ok (some statement) ∧
      Statement.ofText "x =1\x0c\r\t#y" = .ok (some statement) := by
  intro line front run back statement
  have hline : Line.ofText "x =1\t#y" = .ok line := by decide
  have htext : "x =1\t#y".toList = front ++ back := by decide
  have hfront : '\n' ∉ front := by decide
  have hbetween : ∀ t ∈ line.tokens,
      front.length ≤ t.start ∨ t.start + t.lexeme.text.length ≤ front.length := by decide
  have hrun : ∀ c ∈ run, isSeparator c := by simp [run, isSeparator]
  have hstatement : Statement.ofText "x =1\t#y" = .ok (some statement) := by
    rw [Statement.ofText, hline]
    rfl
  have hspelled : String.ofList (unspaced false "x =1\t#y".toList) = "x=1" := by decide
  have hspaced : String.ofList (front ++ run ++ back) = "x =1\x0c\r\t#y" := by decide
  obtain ⟨hout, hin⟩ := statement_without_spacing hline
  have hin := hin front run back htext hfront hbetween hrun
  rw [hspelled, hstatement] at hout
  rw [hspaced, hstatement] at hin
  exact ⟨hline, htext, hfront, hbetween, hrun, hstatement, hout, hin⟩

/-- Only in accepted texts do no two numbers stand side by side. -/
example : unspaced false "1 2".toList = "12".toList ∧ (Line.ofText "1 2").toOption = none ∧
    Line.ofText "12" = .ok (.formula none (.single (.number "12" 0)) 2) := by
  decide

end Calculator
