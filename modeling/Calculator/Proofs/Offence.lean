import Calculator.Proofs.Acceptance
import Calculator.Proofs.Cutting
import Calculator.Proofs.Viability
import Calculator.Proofs.Wording

/-!
# Where a text goes wrong

A rejected text is told the place of the first lexeme that no line could have after the tokens
before it, or of the first character that begins no lexeme.

1. A run of the reader comes to a state that cannot read on (`Reading.exists_stuck`). Every text has
   a newline token, after which the line is finished (`exists_finished_of_newline`), so the tokens
   never end before the line does.
2. A rejected text is therefore cut up as far as a token that the state cannot read, or as a stray
   character (`exists_blocked`).
3. So no line begins with what was read and this token, and the description tells its line and its
   column (`rejected_at_first_offence`).
-/

namespace Calculator

namespace Reading

/-! ## How a run ends -/

/-- The reader gets over some of the tokens and is left with the run over the others, of which it
cannot read the first. -/
theorem exists_stuck (s : Reading) (previous : Option Token) (stray : Option Stray)
    (ts : List Token) :
    ∃ done rest s', ts = done ++ rest ∧ s.steps? done = some s' ∧
      (∀ t ∈ rest.head?, s'.step? t = none) ∧
      s.run previous stray ts = s'.run (done.getLast?.or previous) stray rest := by
  induction ts generalizing s previous with
  | nil => exact ⟨[], [], s, rfl, rfl, fun t ht => (nomatch ht), rfl⟩
  | cons t ts ih =>
    rcases hstep : s.step? t with _ | next
    · refine ⟨[], t :: ts, s, rfl, rfl, fun u hu => ?_, rfl⟩
      cases hu
      exact hstep
    · obtain ⟨done, rest, s', rfl, hsteps, hstuck, hrun⟩ := ih next (some t)
      refine ⟨t :: done, rest, s', rfl, ?_, hstuck, ?_⟩
      · rw [steps?_cons, hstep, Option.bind_some, hsteps]
      · have hlast : done.getLast?.or (some t) = (t :: done).getLast?.or previous := by
          rw [List.getLast?_cons]
          cases done.getLast? <;> rfl
        rw [run, hstep, ← hlast]
        exact hrun

theorem exists_finished_of_step? {s s' : Reading} {t : Token} (ht : t.lexeme = .newline)
    (h : s.step? t = some s') : ∃ line, s' = finished line := by
  obtain ⟨lexeme, pos⟩ := t
  cases ht
  cases s with
  | start => exact ⟨_, (Option.some.inj h).symm⟩
  | firstName n start => exact ⟨_, (Option.some.inj h).symm⟩
  | wanting ctx => cases h
  | holding ctx v =>
    obtain ⟨target, outer, level⟩ := ctx
    cases outer with
    | nil => exact ⟨_, (Option.some.inj h).symm⟩
    | cons opened outer => cases h
  | finished line => cases h

/-- A newline among the tokens ends the line, and nothing can be read after it. -/
theorem exists_finished_of_newline {s s' : Reading} {ts : List Token} {t : Token} (hmem : t ∈ ts)
    (ht : t.lexeme = .newline) (h : s.steps? ts = some s') : ∃ line, s' = finished line := by
  obtain ⟨us, vs, rfl⟩ := List.append_of_mem hmem
  rw [steps?_append, Option.bind_eq_some_iff] at h
  obtain ⟨s₁, -, h⟩ := h
  rw [steps?_cons, Option.bind_eq_some_iff] at h
  obtain ⟨s₂, hstep, h⟩ := h
  obtain ⟨line, rfl⟩ := exists_finished_of_step? ht hstep
  cases vs with
  | nil => exact ⟨line, (Option.some.inj h).symm⟩
  | cons v vs => cases h

end Reading

/-! ## Where reading a text ends -/

/-- The reader gets over the tokens of a front of the text. -/
structure Gets (text : String) (front rest : List Char) (ts : List Token) (s : Reading) : Prop where
  closed : Text.closed text.toList = front ++ rest
  cuts : Cuts 0 front rest ts
  steps : Reading.start.steps? ts = some s

theorem newline_mem_closed (cs : List Char) : '\n' ∈ Text.closed cs := by
  unfold Text.closed
  split_ifs with hlast
  · exact List.mem_of_getLast? hlast
  · exact List.mem_append_right cs List.mem_cons_self

/-- A rejected text is read as far as a token that cannot come next, or as a stray character. -/
theorem exists_blocked {text : String} {cause : Rejection}
    (h : Line.ofText text = .error cause) :
    ∃ front rest ts s, Gets text front rest ts s ∧
      ((∃ l after, l.isProper ∧ Munch rest l.text.toList after ∧
          s.step? ⟨l, front.length⟩ = none ∧ cause = s.reject ⟨l, front.length⟩ ts.getLast?) ∨
        ∃ c after, rest = c :: after ∧ continuation? c = none ∧
          cause = .stray ⟨c, front.length⟩ (Terminal.list s.looksFor) ts.getLast?) := by
  obtain ⟨front, rest, hclosed, hcuts, hstray⟩ :=
    Tokens.exists_cuts_scan 0 (Text.closed text.toList)
  rw [Line.ofText, Line.ofTokens, Tokens.ofText] at h
  generalize Tokens.scan 0 0 (Text.closed text.toList) = found at h hcuts hstray
  obtain ⟨list, stray⟩ := found
  obtain ⟨ts, others, s, rfl, hsteps, hstuck, hrun⟩ := Reading.start.exists_stuck none stray list
  rw [Option.or_none] at hrun
  rw [hrun] at h
  cases others with
  | cons t others =>
    -- a token that cannot come next
    obtain ⟨left, right, rfl, hstart, hproper, hleft, hmunch, -⟩ := hcuts.exists_split
    rw [Nat.zero_add] at hstart
    have hstep : s.step? t = none := hstuck t rfl
    rw [Reading.run, hstep] at h
    cases h
    refine ⟨left, t.lexeme.text.toList ++ (right ++ rest), ts, s, ⟨?_, hleft, hsteps⟩,
      .inl ⟨t.lexeme, right ++ rest, hproper, hmunch, ?_⟩⟩
    · rw [hclosed, List.append_assoc, List.append_assoc]
    · rw [← hstart]
      exact ⟨hstep, rfl⟩
  | nil =>
    rw [List.append_nil] at hcuts
    rcases hstray with ⟨rfl, rfl⟩ | ⟨c, after, rfl, hc, rfl⟩
    · -- all is read, the newline too
      rw [List.append_nil] at hclosed
      have hcount := (cuts_nil_iff.1 hcuts).count_newline
      have hmem : Lexeme.newline ∈ ts.map Token.lexeme := by
        rw [← List.count_pos_iff, hcount, List.count_pos_iff, ← hclosed]
        exact newline_mem_closed _
      obtain ⟨t, ht, hlexeme⟩ := List.mem_map.1 hmem
      obtain ⟨line, rfl⟩ := Reading.exists_finished_of_newline ht hlexeme hsteps
      cases h
    · refine ⟨front, c :: after, ts, s, ⟨hclosed, hcuts, hsteps⟩, .inr ⟨c, after, rfl, hc, ?_⟩⟩
      rw [Nat.zero_add] at h
      exact (Except.error.inj h).symm

/-- Something is always expected, so every message has a list of it. -/
theorem Reading.list_expects_ne_nil (s : Reading) : Terminal.list s.expects ≠ [] := by
  obtain ⟨t, ht⟩ : ∃ t, s.expects t := by
    cases s with
    | start => exact ⟨.newline, rfl⟩
    | firstName n start => exact ⟨.newline, rfl⟩
    | wanting ctx => exact ⟨.digits, rfl⟩
    | holding ctx v => exact ⟨.operator .add, rfl⟩
    | finished line => exact ⟨.finish, rfl⟩
  exact List.ne_nil_of_mem (Terminal.mem_list.2 ht)

theorem Reading.list_looksFor_ne_nil (s : Reading) : Terminal.list s.looksFor ≠ [] := by
  obtain ⟨t, ht⟩ := List.exists_mem_of_ne_nil _ s.list_expects_ne_nil
  exact List.ne_nil_of_mem (Terminal.mem_list.2 (looksFor_of_expects (Terminal.mem_list.1 ht)))

theorem Reading.expected_reject_ne_nil (s : Reading) (t : Token) (previous : Option Token) :
    (s.reject t previous).expected ≠ [] := by
  unfold reject
  split
  · exact List.cons_ne_nil _ _
  · exact List.cons_ne_nil _ _
  · exact list_expects_ne_nil _

theorem Reading.start_reject (s : Reading) (t : Token) (previous : Option Token) :
    (s.reject t previous).start = t.start := by
  unfold reject
  split <;> rfl

/-- All rejections that are about a token begin alike. -/
theorem Reading.exists_message_reject (s : Reading) (t : Token) (previous : Option Token)
    (cs : List Char) :
    ∃ more, (s.reject t previous).message cs =
      Rejection.headline cs t.lexeme.shown t.start ++ more := by
  unfold reject
  split
  · next h => exact ⟨_, by rw [h]; rfl⟩
  · next h => exact ⟨_, by rw [h]; rfl⟩
  · exact ⟨_, String.append_assoc⟩

/-- The description of a token that cannot come next. -/
theorem Reading.describe_reject (s : Reading) (t : Token) (previous : Option Token)
    (text : String) :
    (s.reject t previous).describe text ++ "\n" =
      String.ofList (Rejection.excerpt text.toList t.start) ++ "\n" ++
        (s.reject t previous).message text.toList := by
  rw [← s.start_reject t previous]
  exact Rejection.describe_append_newline
    (Rejection.endsPlainly_message _ (s.expected_reject_ne_nil t previous))

/-- The description of a stray character. -/
theorem Reading.describe_stray (s : Reading) (c : Char) (start : Nat) (previous : Option Token)
    (text : String) :
    (Rejection.stray ⟨c, start⟩ (Terminal.list s.looksFor) previous).describe text ++ "\n" =
      String.ofList (Rejection.excerpt text.toList start) ++ "\n" ++
        (Rejection.stray ⟨c, start⟩ (Terminal.list s.looksFor) previous).message text.toList :=
  Rejection.describe_append_newline (Rejection.endsPlainly_message _ s.list_looksFor_ne_nil)

/-- **First offence.** The description of a rejected text tells the line and the column of a place
before which all is cut up into tokens that some line of the grammar begins with. Either the longest
word at the place is a lexeme with which no line goes on, or no word begins there. -/
theorem rejected_at_first_offence {text : String} {cause : Rejection}
    (h : Line.ofText text = .error cause) :
    ∃ above own rest ts, Text.closed text.toList = above ++ own ++ rest ∧
      (∀ c ∈ above.getLast?, c = '\n') ∧ '\n' ∉ own ∧
      Cuts 0 (above ++ own) rest ts ∧ IsViable ts ∧ cause.start = (above ++ own).length ∧
      ((∃ l after more, l.isProper ∧ Munch rest l.text.toList after ∧
          ¬ IsViable (ts ++ [⟨l, (above ++ own).length⟩]) ∧
          cause.describe text ++ "\n" =
            String.ofList (Rejection.excerpt text.toList (above ++ own).length) ++ "\n" ++
              ("Unexpected token " ++ l.shown ++ " at line " ++ (above.count '\n' + 1).repr ++
                ", column " ++ (own.length + 1).repr ++ ".\n" ++ more)) ∨
        ∃ c after more, rest = c :: after ∧
          (∀ word others, rest = word ++ others → ¬ IsWord word) ∧
          cause.describe text ++ "\n" =
            String.ofList (Rejection.excerpt text.toList (above ++ own).length) ++ "\n" ++
              ("No terminal matches '" ++ c.toString ++
                "' in the current parser context, at line " ++ (above.count '\n' + 1).repr ++
                " col " ++ (own.length + 1).repr ++ "\n\n" ++ more)) := by
  obtain ⟨front, rest, ts, s, ⟨hclosed, hcuts, hsteps⟩, hcause⟩ := exists_blocked h
  obtain ⟨above, own, rfl, hown, habove⟩ := exists_own_line front
  refine ⟨above, own, rest, ts, hclosed, habove, hown, hcuts, isViable_iff.2 ⟨s, hsteps⟩, ?_⟩
  rcases hcause with ⟨l, after, hl, hmunch, hstep, rfl⟩ | ⟨c, after, rfl, hc, rfl⟩
  · refine ⟨s.start_reject _ _, .inl ?_⟩
    have hrest : rest ≠ [] := by
      rw [hmunch.split]
      exact List.append_ne_nil_of_left_ne_nil hmunch.isWord.ne_nil _
    obtain ⟨hline, hcolumn⟩ := Rejection.place_append hclosed hrest hown habove
    obtain ⟨more, hmore⟩ :=
      s.exists_message_reject ⟨l, (above ++ own).length⟩ ts.getLast? text.toList
    refine ⟨l, after, more, hl, hmunch, fun hviable => ?_, ?_⟩
    · obtain ⟨s', hs'⟩ := isViable_iff.1 hviable
      rw [Reading.steps?_append, hsteps, Option.bind_some, Reading.steps?_cons, hstep] at hs'
      cases hs'
    · rw [s.describe_reject, hmore]
      unfold Rejection.headline
      rw [hline, hcolumn]
  · refine ⟨rfl, .inr ?_⟩
    obtain ⟨hline, hcolumn⟩ :=
      Rejection.place_append hclosed (List.cons_ne_nil c after) hown habove
    obtain ⟨more, hmore⟩ := Rejection.exists_message_stray text.toList c (above ++ own).length
      (Terminal.list s.looksFor) ts.getLast?
    refine ⟨c, after, more, rfl, continuation?_eq_none_iff.1 hc, ?_⟩
    rw [s.describe_stray, hmore]
    unfold Rejection.strayHeadline
    rw [hline, hcolumn]

/-- `x = (2`, where the line ends too early, and a stray character in the second line of a text. -/
theorem rejected_at_first_offence_unclosed_or_stray :
    let unclosed : Rejection := .unclosed 6
    let stray : Rejection := .stray ⟨'$', 3⟩ [.finish] (some ⟨.newline, 1⟩)
    (Line.ofText "x = (2" = .error unclosed ∧ ∃ ts more,
      Cuts 0 "x = (2".toList ['\n'] ts ∧ IsViable ts ∧ ¬ IsViable (ts ++ [⟨.newline, 6⟩]) ∧
        unclosed.describe "x = (2" ++ "\n" =
          "x = (2\n      ^\nUnexpected token Token('_NL', '\\n') at line 1, column 7.\n" ++ more) ∧
    Line.ofText "2\n $" = .error stray ∧ ∃ ts more,
      Cuts 0 "2\n ".toList ['$', '\n'] ts ∧ IsViable ts ∧
        (∀ word others, ['$', '\n'] = word ++ others → ¬ IsWord word) ∧
        stray.describe "2\n $" ++ "\n" =
          " $\n ^\nNo terminal matches '$' in the current parser context, at line 2 col 2\n\n" ++
            more := by
  intro unclosed stray
  have hunclosed : Line.ofText "x = (2" = .error unclosed := by decide
  have hstray : Line.ofText "2\n $" = .error stray := by decide
  refine ⟨⟨hunclosed, ?_⟩, hstray, ?_⟩
  · obtain ⟨above, own, rest, ts, hclosed, habove, hown, hcuts, hviable, hstart, hcase⟩ :=
      rejected_at_first_offence hunclosed
    obtain ⟨hfront, rfl⟩ : above ++ own = "x = (2".toList ∧ rest = ['\n'] :=
      List.append_inj hclosed.symm hstart.symm
    obtain ⟨hline, hcolumn⟩ :=
      Rejection.place_append hclosed (List.cons_ne_nil _ _) hown habove
    rw [← hline, ← hcolumn, hfront] at hcase
    rw [hfront] at hcuts
    obtain ⟨l, after, more, hl, hmunch, hnot, hdescribe⟩ | ⟨c, after, more, hrest, hword, -⟩ :=
      hcase
    · obtain rfl : l = .newline := Option.some.inj (Tokens.ofHead?_of_munch hmunch hl).1.symm
      rw [← String.append_assoc] at hdescribe
      refine ⟨ts, more, hcuts, hviable, hnot, hdescribe.trans (congrArg (· ++ more) ?_)⟩
      decide +kernel
    · -- the newline is a word
      exact absurd (hword ['\n'] [] rfl) (not_not_intro (.inr ⟨.newline, rfl, rfl⟩))
  · obtain ⟨above, own, rest, ts, hclosed, habove, hown, hcuts, hviable, hstart, hcase⟩ :=
      rejected_at_first_offence hstray
    obtain ⟨hfront, rfl⟩ : above ++ own = "2\n ".toList ∧ rest = ['$', '\n'] :=
      List.append_inj hclosed.symm hstart.symm
    obtain ⟨hline, hcolumn⟩ :=
      Rejection.place_append hclosed (List.cons_ne_nil _ _) hown habove
    rw [← hline, ← hcolumn, hfront] at hcase
    rw [hfront] at hcuts
    obtain ⟨l, after, more, hl, hmunch, -⟩ | ⟨c, after, more, hrest, hword, hdescribe⟩ := hcase
    · -- no word begins with the stray character
      exact absurd hmunch.isWord (continuation?_eq_none_iff.1 rfl _ _ hmunch.split)
    · cases hrest
      rw [← String.append_assoc] at hdescribe
      refine ⟨ts, more, hcuts, hviable, hword, hdescribe.trans (congrArg (· ++ more) ?_)⟩
      decide +kernel

end Calculator
