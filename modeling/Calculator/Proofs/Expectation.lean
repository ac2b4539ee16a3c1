import Calculator.Proofs.Offence

/-!
# What a rejection expects

How the terminals that a rejection lists stand to those that may come next (`CanFollow`). There are
three kinds of lists (`Reading.reject_cases`): those of a token that cannot come next are just the
terminals that the reader expects; those of a parenthesis or a newline at the wrong depth hold one
terminal that the reader expects; and those of a stray character are what the reader looks for,
whatever the depth.
-/

namespace Calculator

/-- How a token that cannot come next is rejected. After an operand the depth alone speaks against a
closing parenthesis or a newline, so the other one of the two is expected. -/
theorem Reading.reject_cases {s : Reading} {t : Token} (h : s.step? t = none)
    (previous : Option Token) :
    s.reject t previous = .unexpected t (Terminal.list s.expects) previous ∨
      (t.lexeme = .closing ∧ s.reject t previous = .unopened t.start ∧ s.expects .newline) ∨
      t.lexeme = .newline ∧ s.reject t previous = .unclosed t.start ∧ s.expects .closing := by
  cases s with
  | holding ctx v =>
    obtain ⟨lexeme, pos⟩ := t
    obtain ⟨target, outer, level⟩ := ctx
    cases lexeme with
    | closing =>
      cases outer with
      | nil => exact .inr (.inl ⟨rfl, rfl, rfl⟩)
      | cons opened outer => cases h
    | newline =>
      cases outer with
      | nil => cases h
      | cons opened outer => exact .inr (.inr ⟨rfl, rfl, rfl⟩)
    | _ => exact .inl rfl
  | _ => exact .inl rfl

/-- **Lists of expected terminals.** A rejection that shows the token read last lists exactly what
may come next after the tokens that were read. One that is about a parenthesis or a newline, and
shows no such token, lists nothing else; and one that is about a stray character leaves nothing out.
-/
theorem rejection_lists_what_can_follow {text : String} {cause : Rejection}
    (h : Line.ofText text = .error cause) :
    ∃ (front rest : List Char) (ts : List Token) (listed : List Terminal),
      Text.closed text.toList = front ++ rest ∧ Cuts 0 front rest ts ∧
      cause.start = front.length ∧ cause.expected = listed ∧
      ((∃ l : Lexeme, cause = .unexpected ⟨l, front.length⟩ listed ts.getLast? ∧
          cause.describe text ++ "\n" =
          String.ofList (Rejection.excerpt text.toList front.length) ++ "\n" ++
            (Rejection.headline text.toList l.shown front.length ++
              Rejection.showExpected (listed.map Terminal.label) ++
              Rejection.showPrevious ts.getLast?) ∧
          ∀ t, t ∈ listed ↔ CanFollow ts t) ∨
        (∃ l : Lexeme, (l = .closing ∧ cause = .unopened front.length ∨
            l = .newline ∧ cause = .unclosed front.length) ∧
          cause.describe text ++ "\n" =
          String.ofList (Rejection.excerpt text.toList front.length) ++ "\n" ++
            (Rejection.headline text.toList l.shown front.length ++
              Rejection.showExpected (listed.map Terminal.label)) ∧
          ∀ t ∈ listed, CanFollow ts t) ∨
        ∃ c, cause = .stray ⟨c, front.length⟩ listed ts.getLast? ∧
          cause.describe text ++ "\n" =
          String.ofList (Rejection.excerpt text.toList front.length) ++ "\n" ++
            (Rejection.strayHeadline text.toList c front.length ++
              String.ofList (Rejection.excerpt text.toList front.length) ++ "\n" ++
              Rejection.showExpected (listed.map Rejection.scanLabel) ++
              Rejection.showLast ts.getLast?) ∧
          ∀ t, CanFollow ts t → t ∈ listed) := by
  obtain ⟨front, rest, ts, s, ⟨hclosed, hcuts, hsteps⟩, hcause⟩ := exists_blocked h
  have hexpects := Reading.expects_iff hsteps
  rcases hcause with ⟨l, after, -, -, hstep, rfl⟩ | ⟨c, after, -, -, rfl⟩
  · have hdescribe := s.describe_reject ⟨l, front.length⟩ ts.getLast? text
    have hstart := s.start_reject ⟨l, front.length⟩ ts.getLast?
    rcases Reading.reject_cases hstep ts.getLast? with hreject | ⟨hl, hreject, hnext⟩ |
      ⟨hl, hreject, hnext⟩
    · refine ⟨front, rest, ts, Terminal.list s.expects, hclosed, hcuts, hstart,
        congrArg Rejection.expected hreject, .inl ⟨l, hreject, ?_, ?_⟩⟩
      · rw [hdescribe, hreject]
        rfl
      · intro t
        rw [Terminal.mem_list, hexpects]
    · cases hl
      refine ⟨front, rest, ts, [.newline], hclosed, hcuts, hstart,
        congrArg Rejection.expected hreject, .inr (.inl ⟨.closing, .inl ⟨rfl, hreject⟩, ?_, ?_⟩)⟩
      · rw [hdescribe, hreject]
        rfl
      · intro t ht
        rw [List.mem_singleton.1 ht]
        exact (hexpects _).1 hnext
    · cases hl
      refine ⟨front, rest, ts, [.closing], hclosed, hcuts, hstart,
        congrArg Rejection.expected hreject, .inr (.inl ⟨.newline, .inr ⟨rfl, hreject⟩, ?_, ?_⟩)⟩
      · rw [hdescribe, hreject]
        rfl
      · intro t ht
        rw [List.mem_singleton.1 ht]
        exact (hexpects _).1 hnext
  · refine ⟨front, rest, ts, Terminal.list s.looksFor, hclosed, hcuts, rfl, rfl,
      .inr (.inr ⟨c, rfl, ?_, ?_⟩)⟩
    · rw [s.describe_stray, Rejection.message_stray]
    · intro t ht
      exact Terminal.mem_list.2 (Reading.looksFor_of_expects ((hexpects t).2 ht))

/-- A sum without its second half, an unclosed parenthesis, and a stray character inside one, where
a newline is looked for although it cannot follow. -/
theorem rejection_lists_what_can_follow_kinds :
    let listed : List Terminal := [.digits, .opening, .operator .subtract, .name]
    let looked : List Terminal := [.operator .exponent, .operator .subtract, .operator .add,
      .closing, .operator .divide, .operator .multiply, .newline]
    let unexpected : Rejection := .unexpected ⟨.newline, 3⟩ listed (some ⟨.operator .divide, 2⟩)
    let unclosed : Rejection := .unclosed 6
    let stray : Rejection := .stray ⟨'$', 3⟩ looked (some ⟨.digits "7", 1⟩)
    (Line.ofText "7 /" = .error unexpected ∧
      unexpected.describe "7 /" ++ "\n" = "7 /\n   ^\n" ++
        "Unexpected token Token('_NL', '\\n') at line 1, column 4.\n" ++
        "Expected one of: \n\t* DIGITS\n\t* LPAR\n\t* MINUS\n\t* NAME\n" ++
        "Previous tokens: [Token('SLASH', '/')]\n" ∧
      ∃ ts, Cuts 0 "7 /".toList ['\n'] ts ∧ ∀ t, t ∈ listed ↔ CanFollow ts t) ∧
    (Line.ofText "x = (2" = .error unclosed ∧
      unclosed.describe "x = (2" ++ "\n" = "x = (2\n      ^\n" ++
        "Unexpected token Token('_NL', '\\n') at line 1, column 7.\n" ++
        "Expected one of: \n\t* RPAR\n" ∧
      ∃ ts, Cuts 0 "x = (2".toList ['\n'] ts ∧ CanFollow ts .closing) ∧
    Line.ofText "(7 $" = .error stray ∧
      stray.describe "(7 $" ++ "\n" = "(7 $\n   ^\n" ++
        "No terminal matches '$' in the current parser context, at line 1 col 4\n\n" ++
        "(7 $\n   ^\nExpected one of: \n\t* CIRCUMFLEX\n\t* MINUS\n\t* PLUS\n\t* RPAR\n" ++
        "\t* SLASH\n\t* STAR\n\t* _NL\n\nPrevious tokens: Token('DIGITS', '7')\n" ∧
      ∃ ts, Cuts 0 "(7 ".toList ['$', '\n'] ts ∧ ∀ t, CanFollow ts t → t ∈ looked := by
  intro listed looked unexpected unclosed stray
  have hunexpected : Line.ofText "7 /" = .error unexpected := by decide
  have hunclosed : Line.ofText "x = (2" = .error unclosed := by decide
  have hstray : Line.ofText "(7 $" = .error stray := by decide
  refine ⟨⟨hunexpected, ?_⟩, ⟨hunclosed, ?_⟩, hstray, ?_⟩
  · obtain ⟨front, rest, ts, listed, hclosed, hcuts, hstart, -, hcase⟩ :=
      rejection_lists_what_can_follow hunexpected
    obtain ⟨rfl, rfl⟩ : front = "7 /".toList ∧ rest = ['\n'] :=
      List.append_inj hclosed.symm hstart.symm
    obtain ⟨l, hcause, hdescribe, hlisted⟩ | ⟨l, ⟨-, hcause⟩ | ⟨-, hcause⟩, -⟩ | ⟨c, hcause, -⟩ :=
      hcase
    case inl =>
      obtain ⟨htoken, rfl, hprevious⟩ := Rejection.unexpected.inj hcause
      obtain ⟨rfl, -⟩ := Token.mk.inj htoken
      rw [← hprevious] at hdescribe
      refine ⟨hdescribe.trans ?_, ts, hcuts, hlisted⟩
      decide +kernel
    all_goals simp [unexpected] at hcause
  · obtain ⟨front, rest, ts, listed, hclosed, hcuts, hstart, hexpected, hcase⟩ :=
      rejection_lists_what_can_follow hunclosed
    obtain ⟨rfl, rfl⟩ : front = "x = (2".toList ∧ rest = ['\n'] :=
      List.append_inj hclosed.symm hstart.symm
    obtain rfl : [.closing] = listed := hexpected
    obtain ⟨l, hcause, -⟩ | ⟨l, ⟨-, hcause⟩ | ⟨rfl, -⟩, hdescribe, hlisted⟩ | ⟨c, hcause, -⟩ :=
      hcase
    case inr.inl.inr =>
      refine ⟨hdescribe.trans ?_, ts, hcuts, hlisted _ List.mem_cons_self⟩
      decide +kernel
    all_goals simp [unclosed] at hcause
  · obtain ⟨front, rest, ts, listed, hclosed, hcuts, hstart, -, hcase⟩ :=
      rejection_lists_what_can_follow hstray
    obtain ⟨rfl, rfl⟩ : front = "(7 ".toList ∧ rest = ['$', '\n'] :=
      List.append_inj hclosed.symm hstart.symm
    obtain ⟨l, hcause, -⟩ | ⟨l, ⟨-, hcause⟩ | ⟨-, hcause⟩, -⟩ | ⟨c, hcause, hdescribe, hlooked⟩ :=
      hcase
    case inr.inr =>
      obtain ⟨hfound, rfl, hprevious⟩ := Rejection.stray.inj hcause
      obtain ⟨rfl, -⟩ := Stray.mk.inj hfound
      rw [← hprevious] at hdescribe
      refine ⟨hdescribe.trans ?_, ts, hcuts, hlooked⟩
      decide +kernel
    all_goals simp [stray] at hcause

end Calculator
