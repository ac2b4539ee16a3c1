import Mathlib.Data.List.TakeWhile
import Calculator.Proofs.PromptRuns
import Calculator.Proofs.Spacing

/-!
# Single lines

A text without newlines is one line for a session. For a script it may be several, since a script
also ends its lines at breaks that only separate lexemes, or belong to a comment, in a line.

1. A text says what stands before its first number sign (`Tokens.lexemes_beforeComment`), and if it
   is accepted all blanks there are separators (`Tokenises.isSeparator_of_isBlank`).
2. If of any two physical lines the earlier is blank or the later is idle (`Text.IsSingle`), then
   one of them has, but for blanks, all that stands before the first number sign of the text, and
   the script of the text runs as this line alone (`Text.IsSingle.exists_line`).
3. So such a text comes to the same as a script and as a line. Without the condition it need not: a
   form feed may cut a sum in two.
-/

namespace Calculator

/-! ## Comments -/

namespace Text

/-- The text up to its first number sign. -/
def beforeComment (cs : List Char) : List Char := cs.takeWhile (· ≠ '#')

theorem beforeComment_append_of_not_mem {cs : List Char} (h : '#' ∉ cs) (rest : List Char) :
    beforeComment (cs ++ rest) = cs ++ beforeComment rest :=
  List.takeWhile_append_of_pos fun _ hc => decide_eq_true fun hnumber => h (hnumber ▸ hc)

theorem beforeComment_numberSign (cs : List Char) : beforeComment ('#' :: cs) = [] := rfl

theorem beforeComment_of_not_mem {cs : List Char} (h : '#' ∉ cs) : beforeComment cs = cs :=
  List.takeWhile_eq_self_iff.2 fun _ hc => decide_eq_true fun hnumber => h (hnumber ▸ hc)

theorem beforeComment_append_of_mem {cs : List Char} (h : '#' ∈ cs) (rest : List Char) :
    beforeComment (cs ++ rest) = beforeComment cs := by
  obtain ⟨front, body, rfl, hfront⟩ := List.eq_append_cons_of_mem h
  rw [List.append_assoc, List.cons_append, beforeComment_append_of_not_mem hfront,
    beforeComment_append_of_not_mem hfront, beforeComment_numberSign, beforeComment_numberSign]

theorem beforeComment_prefix_append (cs rest : List Char) :
    beforeComment cs <+: beforeComment (cs ++ rest) := by
  by_cases h : '#' ∈ cs
  · exact (beforeComment_append_of_mem h rest).symm ▸ List.prefix_rfl
  · rw [beforeComment_append_of_not_mem h, beforeComment_of_not_mem h]
    exact List.prefix_append _ _

end Text

namespace Tokens

/-- What comes after a boundary may be replaced by what has the same lexemes and the same further
lines. -/
theorem lexemes_scan_congr {rest rest' : List Char} (hrest : IsBoundary rest)
    (hrest' : IsBoundary rest') (h : (scan 0 0 rest).lexemes = (scan 0 0 rest').lexemes)
    (hlines : rest.dropWhile (· ≠ '\n') = rest'.dropWhile (· ≠ '\n')) {front : List Char}
    (hfront : '\n' ∉ front) {pos skip : Nat} (hskip : skip ≤ front.length) :
    (scan pos skip (front ++ rest)).lexemes = (scan pos skip (front ++ rest')).lexemes := by
  induction front generalizing pos skip with
  | nil =>
    obtain rfl : skip = 0 := Nat.le_zero.1 hskip
    exact (lexemes_scan pos 0 0 rest).trans (h.trans (lexemes_scan 0 pos 0 rest'))
  | cons c cs ih =>
    obtain ⟨-, hcs⟩ := not_or.1 (List.mem_cons.not.1 hfront)
    rw [List.length_cons] at hskip
    rw [List.cons_append, List.cons_append]
    cases skip with
    | succ k => exact ih hcs (Nat.le_of_succ_le_succ hskip)
    | zero =>
      by_cases hnumber : c = '#'
      · subst hnumber
        rw [lexemes_scan_numberSign pos 0, lexemes_scan_numberSign pos 0,
          dropWhile_append_of_not_mem hcs, dropWhile_append_of_not_mem hcs, hlines]
      cases hseparator : isSeparator c with
      | true =>
        have hlength (ds : List Char) : ignoredLength (c :: ds) = 0 + 1 := by
          rw [ignoredLength, if_neg hnumber, if_pos hseparator]
        rw [scan_of_ignoredLength (hlength _), scan_of_ignoredLength (hlength _)]
        exact ih hcs (Nat.zero_le _)
      | false =>
        have hignored (ds : List Char) : ignoredLength (c :: ds) = 0 :=
          ignoredLength_eq_zero.2 ⟨hnumber, hseparator⟩
        -- the first lexeme is the same, since it ends within the front
        have hhead := Lexeme.ofHead?_append hrest c cs
        have hhead' := Lexeme.ofHead?_append hrest' c cs
        rcases hl : Lexeme.ofHead? (c :: cs) with _ | l <;> rw [hl] at hhead hhead'
        · rw [scan_of_ofHead?_none pos (hignored _) hhead,
            scan_of_ofHead?_none pos (hignored _) hhead']
        · have hlength := (Lexeme.prefix_of_ofHead? hl).length_le
          rw [String.length_toList, List.length_cons] at hlength
          obtain ⟨hlist, hstray⟩ := Prod.mk.inj (ih hcs (Nat.sub_le_of_le_add hlength))
          rw [scan_of_ofHead?_some pos (hignored _) hhead,
            scan_of_ofHead?_some pos (hignored _) hhead']
          exact Prod.ext (congrArg (l :: ·) hlist) hstray

/-- A comment at the end of a line makes no difference to its lexemes. -/
theorem lexemes_beforeComment {cs : List Char} (hcs : '\n' ∉ cs) :
    (ofText (String.ofList (Text.beforeComment cs))).lexemes =
      (ofText (String.ofList cs)).lexemes := by
  by_cases hnumber : '#' ∈ cs
  · obtain ⟨front, body, rfl, hmem⟩ := List.eq_append_cons_of_mem hnumber
    obtain ⟨hfront, hcomment⟩ := List.mem_append.not.1 hcs |> not_or.1
    have hbody : '\n' ∉ body := fun h => hcomment (List.mem_cons_of_mem _ h)
    rw [Text.beforeComment_append_of_not_mem hmem, Text.beforeComment_numberSign, List.append_nil,
      ofText, ofText, String.toList_ofList, String.toList_ofList, closed_of_not_mem hfront,
      closed_of_not_mem hcs, List.append_assoc, List.cons_append]
    refine lexemes_scan_congr (isBoundary_text (l := .newline) rfl []) ?_ ?_ ?_ hfront
      (Nat.zero_le _)
    · rintro c ⟨⟩
      decide
    · exact (lexemes_scan_comment 0 hbody).symm
    · rw [← List.cons_append, dropWhile_append_of_not_mem hcomment]
      rfl
  · rw [Text.beforeComment_of_not_mem hnumber]

end Tokens

/-! ## Blanks -/

/-- Blanks that do not separate lexemes begin no word. -/
theorem continuation?_of_isBlank {c : Char} (h : Text.isBlank c)
    (hseparator : isSeparator c = false) (hnewline : c ≠ '\n') : continuation? c = none := by
  simp only [Text.isBlank, Text.isLineBreak, Bool.or_eq_true, decide_eq_true_eq, List.mem_cons,
    List.not_mem_nil, or_false, Bool.and_eq_true] at h
  rcases h with (h | h) | ⟨hle, hge⟩
  · rcases h with rfl | rfl | rfl | rfl | rfl | rfl | rfl | rfl | rfl | rfl <;>
      first | rfl | exact absurd rfl hnewline | cases hseparator
  · rcases h with rfl | rfl | rfl | rfl | rfl | rfl | rfl | rfl <;> first | rfl | cases hseparator
  · -- the spaces of various widths are eleven characters in a row
    have hspaces : ∀ k < 11, continuation? (Char.ofNat (0x2000 + k)) = none := by decide
    have hle : 0x2000 ≤ c.toNat := hle
    have hge : c.toNat ≤ 0x200a := hge
    have hc := hspaces (c.toNat - 0x2000) (by omega)
    rwa [Nat.add_sub_cancel' hle, Char.ofNat_toNat] at hc

/-- Every character of a lexeme begins a word. -/
theorem isSome_continuation? {l : Lexeme} (hl : l.isProper) {c : Char} (hc : c ∈ l.text.toList) :
    (continuation? c).isSome := by
  have hpart (h : isNamePart c) : (continuation? c).isSome := by
    rcases Bool.or_eq_true_iff.1 h with h | h
    · rw [continuation?_of_isNameStart h, Option.isSome_some]
    · rw [continuation?_of_isDigit h, Option.isSome_some]
  cases hopen : l.isOpen with
  | false =>
    obtain ⟨d, hd⟩ := exists_char_of_not_isOpen hopen
    obtain ⟨-, htext, hcontinuation⟩ := text_of_ofChar? hd
    rw [htext, List.mem_singleton] at hc
    rw [hc, hcontinuation, Option.isSome_some]
  | true =>
    cases l with
    | digits text =>
      obtain ⟨d, ds, htext, hd, hds⟩ := isDigits_iff.1 hl
      have hall : ∀ e ∈ d :: ds, Char.isDigit e := List.forall_mem_cons.2 ⟨hd, hds⟩
      have hdigit : c.isDigit := hall c (htext ▸ hc)
      exact hpart (by simp [isNamePart, hdigit])
    | name text =>
      obtain ⟨d, ds, htext, hd, hds⟩ := isName_iff.1 hl
      have hall : ∀ e ∈ d :: ds, isNamePart e :=
        List.forall_mem_cons.2 ⟨by simp [isNamePart, hd], hds⟩
      exact hpart (hall c (htext ▸ hc))
    | _ => cases hopen

/-- In a text that is cut up to its end, all blanks before the first comment are separators or
newlines. -/
theorem Tokenises.isSeparator_of_isBlank {pos : Nat} {cs : List Char} {ts : List Token}
    (h : Tokenises pos cs ts) :
    ∀ c ∈ Text.beforeComment cs, Text.isBlank c → c ≠ '\n' → isSeparator c := by
  induction h with
  | done => exact fun _ hc => absurd hc List.not_mem_nil
  | @ignored pos cs word rest ts hmunch hword _ ih =>
    rw [hmunch.split]
    rcases Bool.or_eq_true_iff.1 hword with hspace | hcomment
    · rw [isSpacing, Bool.and_eq_true, List.all_eq_true] at hspace
      have hnumber : '#' ∉ word := fun hmem => absurd (hspace.2 _ hmem) (by decide)
      rw [Text.beforeComment_append_of_not_mem hnumber]
      intro c hc hblank hnewline
      exact (List.mem_append.1 hc).elim (hspace.2 c) fun hc => ih c hc hblank hnewline
    · obtain ⟨c, body, rfl⟩ := List.exists_cons_of_ne_nil hmunch.isWord.ne_nil
      obtain rfl : c = '#' := by simpa using (Bool.and_eq_true_iff.1 hcomment).1
      rw [List.cons_append, Text.beforeComment_numberSign]
      exact fun _ hc => absurd hc List.not_mem_nil
  | @lexeme pos cs rest ts l hmunch hl _ ih =>
    have hnumber : '#' ∉ l.text.toList := fun hmem => (solid_of_mem_text hl hmem).1 rfl
    rw [hmunch.split, Text.beforeComment_append_of_not_mem hnumber]
    intro c hc hblank hnewline
    rcases List.mem_append.1 hc with hc | hc
    · have hsome := isSome_continuation? hl hc
      rw [continuation?_of_isBlank hblank (solid_of_mem_text hl hc).2 hnewline] at hsome
      cases hsome
    · exact ih c hc hblank hnewline

/-! ## Physical lines -/

namespace Text

/-- Of any two physical lines the earlier is blank, or the later is blank or a comment. -/
def IsSingle (cs : List Char) : Prop :=
  (lines cs).Pairwise fun l m => trim l = [] ∨ Script.isIdle (trim m)

instance (cs : List Char) : Decidable (IsSingle cs) :=
  inferInstanceAs (Decidable (List.Pairwise _ _))

theorem not_mem_numberSign_of_isBlank {cs : List Char} (h : ∀ c ∈ cs, isBlank c) : '#' ∉ cs :=
  fun hmem => absurd (h _ hmem) (by decide)

/-- What stands before the first number sign of a text, told by its first line. -/
theorem exists_beforeComment (l rest : List Char) :
    ∃ front back, (∀ c ∈ front, isBlank c) ∧ (∀ c ∈ back, isBlank c) ∧
      beforeComment (l ++ rest) = front ++ beforeComment (trim l) ++
        if '#' ∈ trim l then [] else back ++ beforeComment rest := by
  obtain ⟨front, back, hl, hfront, hback⟩ := exists_margins l
  refine ⟨front, back, hfront, hback, ?_⟩
  have hsplit : l ++ rest = front ++ (trim l ++ (back ++ rest)) := by
    rw [← List.append_assoc (trim l), ← List.append_assoc, ← List.append_assoc, ← hl]
  rw [hsplit, beforeComment_append_of_not_mem (not_mem_numberSign_of_isBlank hfront),
    List.append_assoc]
  split_ifs with hmem
  · rw [beforeComment_append_of_mem hmem, List.append_nil]
  · rw [beforeComment_append_of_not_mem hmem, beforeComment_of_not_mem hmem,
      beforeComment_append_of_not_mem (not_mem_numberSign_of_isBlank hback)]

/-- Before the first number sign of a text without any line to work out there are only blanks. -/
theorem isBlank_of_forall_isIdle {cs : List Char} (h : ∀ l ∈ lines cs, Script.isIdle (trim l)) :
    ∀ c ∈ beforeComment cs, isBlank c := by
  generalize hlines : lines cs = ls at h
  induction ls generalizing cs with
  | nil =>
    rw [lines_eq_nil_iff.1 hlines]
    exact fun _ hc => absurd hc List.not_mem_nil
  | cons l ls ih =>
    obtain ⟨gap, rest, rfl, hrest, hgap⟩ := exists_of_lines_eq_cons hlines
    obtain ⟨hl, hls⟩ := List.forall_mem_cons.1 h
    have hgap' : ∀ c ∈ gap, isBlank c := fun c hc => by simp [isBlank, hgap c hc]
    obtain ⟨front, back, hfront, hback, hsplit⟩ := exists_beforeComment l (gap ++ rest)
    rw [hsplit, beforeComment_append_of_not_mem (not_mem_numberSign_of_isBlank hgap')]
    have hbefore : beforeComment (trim l) = [] := by
      rcases htrim : trim l with _ | ⟨c, cs⟩
      · rfl
      · obtain rfl : c = '#' := by simpa [htrim, Script.isIdle] using hl
        rfl
    rw [hbefore, List.append_nil]
    split_ifs
    · simpa using hfront
    · simpa [or_imp, forall_and] using ⟨hfront, hback, hgap', ih hrest hls⟩

end Text

/-! ## Scripts of one line -/

theorem Script.ofLines_eq_nil {ls : List (List Char)} (h : ∀ l ∈ ls, isIdle (Text.trim l))
    (number : Nat) : ofLines number ls = [] := by
  induction ls generalizing number with
  | nil => rfl
  | cons l ls ih =>
    obtain ⟨hl, hls⟩ := List.forall_mem_cons.1 h
    rw [ofLines, if_pos hl, ih hls]

/-- An idle line may be run or left out. -/
theorem Script.run_singleton_of_isIdle {cs : List Char} (hidle : isIdle cs) (hcs : '\n' ∉ cs)
    (s : Session) (number : Nat) : run s [⟨number, String.ofList cs⟩] = run s [] := by
  refine run_cons_idle ?_ []
  exact Session.evaluate_of_isIdle hidle hcs s

/-- The script of a single line runs as that line alone, and the line says, but for blanks, what
stands before the first number sign of the text. -/
theorem Text.IsSingle.exists_line {cs : List Char} (h : IsSingle cs) (hcs : '\n' ∉ cs) :
    ∃ line front back, beforeComment cs = front ++ beforeComment line ++ back ∧
      (∀ c ∈ front, isBlank c) ∧ (∀ c ∈ back, isBlank c) ∧ '\n' ∉ line ∧
      ∀ number, ∃ number', ∀ s, Script.run s (Script.ofLines number (lines cs)) =
        Script.run s [⟨number', String.ofList line⟩] := by
  unfold IsSingle at h
  generalize hlines : lines cs = ls at h ⊢
  induction ls generalizing cs with
  | nil =>
    obtain rfl := lines_eq_nil_iff.1 hlines
    refine ⟨[], [], [], rfl, by simp, by simp, by simp, fun number => ⟨number, fun s => ?_⟩⟩
    exact (Script.run_singleton_of_isIdle rfl (by simp) s number).symm
  | cons l ls ih =>
    obtain ⟨gap, rest, rfl, hrest, hgap⟩ := exists_of_lines_eq_cons hlines
    have hgap' : ∀ c ∈ gap, isBlank c := fun c hc => by simp [isBlank, hgap c hc]
    obtain ⟨hl, hls⟩ := List.pairwise_cons.1 h
    obtain ⟨front, back, hfront, hback, hsplit⟩ := exists_beforeComment l (gap ++ rest)
    rw [beforeComment_append_of_not_mem (not_mem_numberSign_of_isBlank hgap')] at hsplit
    by_cases hblank : trim l = []
    · -- a blank line adds blanks to those before the line that counts
      obtain ⟨line, front', back', hbefore, hfront', hback', hline, hrun⟩ :=
        ih (fun hmem => hcs (by simp [hmem])) hrest hls
      refine ⟨line, front ++ (back ++ (gap ++ front')), back', ?_, ?_, hback', hline,
        fun number => ?_⟩
      · rw [hsplit, hblank, hbefore]
        simp [beforeComment]
      · simpa [or_imp, forall_and] using ⟨hfront, hback, hgap', hfront'⟩
      · obtain ⟨number', hrun⟩ := hrun (number + 1)
        exact ⟨number', fun s => by rw [← hrun, Script.ofLines, if_pos (by rw [hblank]; rfl)]⟩
    · -- this line counts, and all others after it are left out
      have hidle : ∀ m ∈ ls, Script.isIdle (trim m) := fun m hm => (hl m hm).resolve_left hblank
      have hline : '\n' ∉ trim l := fun hmem => hcs (by simp [mem_of_mem_trim hmem])
      have hafter := isBlank_of_forall_isIdle (hrest ▸ hidle)
      refine ⟨trim l, front, _, hsplit, hfront, ?_, hline, fun number => ⟨number, fun s => ?_⟩⟩
      · split_ifs
        · simp
        · simpa [or_imp, forall_and] using ⟨hback, hgap', hafter⟩
      · rw [Script.ofLines, Script.ofLines_eq_nil hidle]
        split_ifs with hcomment
        · exact (Script.run_singleton_of_isIdle hcomment hline s number).symm
        · rfl

/-- The line that the script of an accepted single line runs as has the same statement. -/
theorem Text.IsSingle.exists_statement {text : String} (h : IsSingle text.toList)
    (hnewline : '\n' ∉ text.toList) {line : Line} (hline : Line.ofText text = .ok line) :
    ∃ number own, Statement.ofText own = Statement.ofText text ∧
      ∀ s, Script.run s (.ofText text) = Script.run s [⟨number, own⟩] := by
  obtain ⟨own, front, back, hbefore, hfront, hback, hown, hrun⟩ := h.exists_line hnewline
  obtain ⟨number, hrun⟩ := hrun 1
  refine ⟨number, String.ofList own, Statement.ofText_eq_of_lexemes hline ?_, fun s => ?_⟩
  · -- blanks before the first number sign are separators, since the text is accepted
    have htokens := Line.ofText_eq_ok.1 hline
    rw [closed_of_not_mem hnewline] at htokens
    have hseparator {c : Char} (hc : c ∈ beforeComment text.toList) (hblank : isBlank c) :
        isSeparator c := by
      have hmem := (beforeComment_prefix_append text.toList ['\n']).subset hc
      refine htokens.isSeparator_of_isBlank c hmem hblank ?_
      rintro rfl
      exact hnewline (List.takeWhile_subset _ hc)
    have hcore : '\n' ∉ beforeComment own := fun hmem => hown (List.takeWhile_subset _ hmem)
    have hmargins := Tokens.lexemes_ofText_append
      (fun c hc => hseparator (by simp [hbefore, hc]) (hfront c hc)) hcore
      (fun c hc => hseparator (by simp [hbefore, hc]) (hback c hc))
    have htext := Tokens.lexemes_beforeComment hnewline
    rw [← hbefore, htext, String.ofList_toList, Tokens.lexemes_beforeComment hown] at hmargins
    exact hmargins.symm
  · rw [Script.ofText_eq, hrun]

/-- A text that a session answers is accepted. -/
theorem Session.exists_line_of_ok {s : Session} {text : String} {answer : Option Answer}
    (h : (s.evaluate text).2 = .ok answer) : ∃ line, Line.ofText text = .ok line := by
  rcases hline : Line.ofText text with cause | line
  · rw [(rejected_of_ofText hline s).1] at h
    cases h
  · exact ⟨line, rfl⟩

/-- The script of a single line does what the session does with the line. -/
theorem Text.IsSingle.run_ofText {text : String} (h : IsSingle text.toList)
    (hnewline : '\n' ∉ text.toList) {s : Session} {answer : Option Answer}
    (hok : (s.evaluate text).2 = .ok answer) :
    let run := Script.run s (.ofText text)
    run.failure = none ∧ run.session.vars = (s.evaluate text).1.vars ∧
      run.values = (Script.valueOf? (s.evaluate text).2).toList := by
  obtain ⟨line, hline⟩ := Session.exists_line_of_ok hok
  obtain ⟨number, own, hstatement, hrun⟩ := h.exists_statement hnewline hline
  obtain ⟨hvars, hresult⟩ := @Session.evaluate_congr s s rfl own text (.inl hstatement)
  rw [hok] at hresult ⊢
  rw [hrun, Script.valueOf?_ok]
  rcases hown : s.evaluate own with ⟨next, failure | answer'⟩ <;> rw [hown] at hvars hresult
  · cases hresult
  · cases hresult
    simp only [Script.run, hown, List.append_nil]
    exact ⟨trivial, hvars, trivial⟩

open Console

/-- **Single lines.** Let of any two physical lines of a text without newlines the earlier be blank,
or the later blank or a comment. If a session answers the text as a line, the script of the text
does not fail in this session; it leaves the same variables, and gives out the value of the answer
if no variable took it, and nothing else. A command for such an expression exits with 0 and prints
this value. -/
theorem script_agrees_with_line {text : String} (hnewline : '\n' ∉ text.toList)
    (hsingle : Text.IsSingle text.toList) :
    (∀ (s : Session) (answer : Option Answer), (s.evaluate text).2 = .ok answer →
      let run := Script.run s (.ofText text)
      run.failure = none ∧ run.session.vars = (s.evaluate text).1.vars ∧
        run.values = (Script.valueOf? (s.evaluate text).2).toList) ∧
    ∀ (plan : Plan) (files : String → FileContent) (inputs : List Input) (answer : Option Answer),
      plan.task = .expression text →
      ((Session.fresh plan.verbose).evaluate text).2 = .ok answer →
      let value? := Script.valueOf? ((Session.fresh plan.verbose).evaluate text).2
      ∃ err, plan.run files inputs = .ok ⟨0, ⟨printed value?.toList, err⟩⟩ := by
  refine ⟨fun s answer hok => hsingle.run_ofText hnewline hok, ?_⟩
  intro plan files inputs answer htask hok value?
  obtain ⟨hfailure, -, hvalues⟩ := hsingle.run_ofText hnewline hok
  have hsource : plan.source? files = some (expressionSource, text) := by
    rw [Plan.source?, htask]
  have hrun := Plan.run_of_source? hsource inputs
  simp only [runScript_eq, hfailure, hvalues] at hrun
  exact ⟨_, hrun⟩

/-- A blank line before the sum, and a comment that goes on after a break. -/
theorem script_agrees_with_line_margins :
    let text := "\x0c1 + 2 # sum\x0c# of two"
    let plan : Plan := ⟨.expression text, true, ⟨false, false, false, false⟩⟩
    let files : String → FileContent := fun _ => .error .missing
    let s := Session.fresh plan.verbose
    let run := Script.run s (.ofText text)
    ('\n' ∉ text.toList ∧ Text.IsSingle text.toList) ∧ plan.task = .expression text ∧
      (s.evaluate text).2 = .ok (some ⟨3, none⟩) ∧
      (run.failure = none ∧ run.session.vars = (s.evaluate text).1.vars ∧ run.values = [3]) ∧
      ∃ err, plan.run files [] = .ok ⟨0, ⟨"3\n", err⟩⟩ := by
  intro text plan files s run
  have hnewline : '\n' ∉ text.toList := by decide
  have hsingle : Text.IsSingle text.toList := by decide +kernel
  have hok : (s.evaluate text).2 = .ok (some ⟨3, none⟩) := by decide +kernel
  have hprinted : printed [3] = "3\n" := by decide +kernel
  obtain ⟨hscript, hplan⟩ := script_agrees_with_line hnewline hsingle
  have hrun := hscript s _ hok
  have hwritten := hplan plan files [] _ rfl hok
  rw [hok] at hrun hwritten
  refine ⟨⟨hnewline, hsingle⟩, rfl, hok, hrun, ?_⟩
  rw [← hprinted]
  exact hwritten

/-- Without the condition the two may differ: a form feed separates two lexemes of the line, but
ends the first line of the script, and the rest of the text alone is rejected. -/
theorem not_script_agrees_with_line :
    ¬ ∀ (text : String) (s : Session) (answer : Option Answer), '\n' ∉ text.toList →
      (s.evaluate text).2 = .ok answer →
      let run := Script.run s (.ofText text)
      run.failure = none ∧ run.session.vars = (s.evaluate text).1.vars ∧
        run.values = (Script.valueOf? (s.evaluate text).2).toList := by
  intro h
  have hnewline : '\n' ∉ "1\x0c+2".toList := by decide
  have hok : ((Session.fresh false).evaluate "1\x0c+2").2 = .ok (some ⟨3, none⟩) := by
    decide +kernel
  have hfailure : (Script.run (.fresh false) (.ofText "1\x0c+2")).failure.isNone = false := by
    decide +kernel
  obtain ⟨hnone, -⟩ := h "1\x0c+2" (.fresh false) _ hnewline hok
  rw [hnone] at hfailure
  cases hfailure

end Calculator
