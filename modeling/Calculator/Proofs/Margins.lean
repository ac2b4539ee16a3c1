import Mathlib.Data.List.Basic
import Calculator.Proofs.RoundTrip

/-!
# Margins

Separators at the ends of a text change the positions of its tokens, and nothing of what it says.

1. Separators may be put in at any place of a text that is not inside a lexeme. By induction on the
   characters before the place, the text is cut into the same lexemes, whether or not a stray
   character ends the cutting (`Tokens.lexemes_scan_insert`), so separators at the ends of a text
   make no difference (`Tokens.lexemes_ofText_append`).
2. Lexemes alone decide which line a text is, up to positions (`exists_line_of_lexemes`). So texts
   with the same lexemes have the same statement, or are too deep, or are rejected
   (`Statement.alike_of_lexemes`).
3. In a text of typed characters all blanks are separators, so it says the same without the blanks
   at its ends (`Statement.alike_trimmed`).
-/

namespace Calculator

/-! ## Cutting -/

namespace Lexeme

/-- What comes after a boundary does not belong to the first lexeme. -/
theorem ofHead?_append {rest : List Char} (hrest : IsBoundary rest) (c : Char) (cs : List Char) :
    ofHead? (c :: (cs ++ rest)) = ofHead? (c :: cs) := by
  have htake {p : Char → Bool} (hp : ∀ d, p d → isNamePart d) :
      (cs ++ rest).takeWhile p = cs.takeWhile p := by
    have hnil : rest.takeWhile p = [] := by
      cases rest with
      | nil => rfl
      | cons d ds => exact List.takeWhile_cons_of_neg fun h => hrest d rfl (hp d h)
    rw [List.takeWhile_append, hnil, List.append_nil]
    split_ifs with hall
    · exact (List.takeWhile_prefix p).eq_of_length hall |>.symm
    · rfl
  have hdigit : ∀ d : Char, d.isDigit → isNamePart d := fun d h => by simp [isNamePart, h]
  rw [ofHead?, ofHead?, htake hdigit, htake fun _ h => h]

/-- A lexeme is spelled by the head of the text it is taken from. -/
theorem prefix_of_ofHead? {c : Char} {cs : List Char} {l : Lexeme}
    (h : ofHead? (c :: cs) = some l) : l.text.toList <+: c :: cs := by
  have htake (p : Char → Bool) : (String.ofList (c :: cs.takeWhile p)).toList <+: c :: cs := by
    rw [String.toList_ofList, List.cons_prefix_cons]
    exact ⟨rfl, List.takeWhile_prefix p⟩
  rw [ofHead?] at h
  split_ifs at h
  · cases h
    exact htake _
  · cases h
    exact htake _
  · rw [(text_of_ofChar? h).2.1]
    exact List.prefix_append [c] cs

/-- A lexeme at the head of a text does not depend on what comes after it. -/
theorem ofHead?_of_append {c : Char} {cs rest : List Char} {l : Lexeme}
    (h : ofHead? (c :: (cs ++ rest)) = some l) (hlength : l.text.length ≤ cs.length + 1) :
    ofHead? (c :: cs) = some l := by
  have htake {p : Char → Bool} (hp : ((cs ++ rest).takeWhile p).length ≤ cs.length) :
      (cs ++ rest).takeWhile p = cs.takeWhile p := by
    rw [List.takeWhile_append] at hp ⊢
    split_ifs at hp ⊢ with hall
    · have hnil : rest.takeWhile p = [] := by
        rw [List.length_append] at hp
        exact List.length_eq_zero_iff.1 (by omega)
      rw [hnil, List.append_nil]
      exact ((List.takeWhile_prefix p).eq_of_length hall).symm
    · rfl
  rw [ofHead?] at h ⊢
  split_ifs at h ⊢ with hdigit hname
  · cases h
    rw [text, String.length_ofList, List.length_cons] at hlength
    rw [htake (Nat.le_of_succ_le_succ hlength)]
  · cases h
    rw [text, String.length_ofList, List.length_cons] at hlength
    rw [htake (Nat.le_of_succ_le_succ hlength)]
  · exact h

/-- Separators after a lexeme do not belong to it. -/
theorem ofHead?_insert {run : List Char} (hrun : ∀ c ∈ run, isSeparator c) {c : Char}
    {cs rest : List Char} {l : Lexeme} (h : ofHead? (c :: (cs ++ rest)) = some l)
    (hlength : l.text.length ≤ cs.length + 1) :
    ofHead? (c :: (cs ++ (run ++ rest))) = some l := by
  cases run with
  | nil => exact h
  | cons d ds =>
    have hboundary : IsBoundary (d :: ds ++ rest) := by
      intro e he
      cases he
      rcases isSeparator_iff.1 (hrun d (by simp)) with rfl | rfl | rfl | rfl <;> decide
    rw [ofHead?_append hboundary]
    exact ofHead?_of_append h hlength

/-- Whether a lexeme begins a text is a matter of its first character. -/
theorem ofHead?_eq_none {c : Char} {cs : List Char} (h : ofHead? (c :: cs) = none)
    (ds : List Char) : ofHead? (c :: ds) = none := by
  rw [ofHead?] at h ⊢
  split_ifs at h ⊢
  exact h

end Lexeme

namespace Tokens

/-- The lexemes of a text without their positions, and whether a stray character comes after them.
-/
def lexemes (ts : Tokens) : List Lexeme × Bool := (ts.list.map Token.lexeme, ts.stray.isSome)

theorem scan_of_ofHead?_none (pos : Nat) {c : Char} {cs : List Char}
    (hignored : ignoredLength (c :: cs) = 0) (h : Lexeme.ofHead? (c :: cs) = none) :
    scan pos 0 (c :: cs) = ⟨[], some ⟨c, pos⟩⟩ := by
  simp only [scan, hignored, h]

theorem scan_of_ofHead?_some (pos : Nat) {c : Char} {cs : List Char} {l : Lexeme}
    (hignored : ignoredLength (c :: cs) = 0) (h : Lexeme.ofHead? (c :: cs) = some l) :
    scan pos 0 (c :: cs) =
      ⟨⟨l, pos⟩ :: (scan (pos + 1) (l.text.length - 1) cs).list,
        (scan (pos + 1) (l.text.length - 1) cs).stray⟩ := by
  simp only [scan, hignored, h]

/-- Where a text begins makes no difference to its lexemes. -/
theorem lexemes_scan (pos pos' skip : Nat) (cs : List Char) :
    (scan pos skip cs).lexemes = (scan pos' skip cs).lexemes := by
  induction cs generalizing pos pos' skip with
  | nil => rfl
  | cons c cs ih =>
    cases skip with
    | succ k => exact ih (pos + 1) (pos' + 1) k
    | zero =>
      unfold scan
      cases ignoredLength (c :: cs) with
      | succ k => exact ih (pos + 1) (pos' + 1) k
      | zero =>
        cases Lexeme.ofHead? (c :: cs) with
        | none => rfl
        | some l =>
          obtain ⟨hlist, hstray⟩ := Prod.mk.inj (ih (pos + 1) (pos' + 1) (l.text.length - 1))
          exact Prod.ext (congrArg (l :: ·) hlist) hstray

theorem dropWhile_append_of_not_mem {cs : List Char} (hcs : '\n' ∉ cs) (rest : List Char) :
    (cs ++ rest).dropWhile (· ≠ '\n') = rest.dropWhile (· ≠ '\n') :=
  List.dropWhile_append_of_pos fun _ hd => decide_eq_true fun h => hcs (h ▸ hd)

/-- A comment goes on to the end of its line. -/
theorem lexemes_scan_numberSign (pos pos' : Nat) (cs : List Char) :
    (scan pos 0 ('#' :: cs)).lexemes = (scan pos' 0 (cs.dropWhile (· ≠ '\n'))).lexemes := by
  have hmunch : Munch ('#' :: cs) ('#' :: cs.takeWhile (· ≠ '\n')) (cs.dropWhile (· ≠ '\n')) :=
    munch_iff.2 ⟨_, continuation?_numberSign, rfl, rfl⟩
  have hcomment : isComment ('#' :: cs.takeWhile (· ≠ '\n')) :=
    Bool.and_eq_true_iff.2 ⟨rfl, List.all_takeWhile⟩
  rw [scan_of_munch_ignored pos hmunch (Bool.or_eq_true_iff.2 (.inr hcomment))]
  exact lexemes_scan _ _ _ _

theorem lexemes_scan_comment (pos : Nat) {cs : List Char} (hcs : '\n' ∉ cs) :
    (scan pos 0 ('#' :: (cs ++ ['\n']))).lexemes = ([.newline], false) := by
  rw [lexemes_scan_numberSign pos 0, dropWhile_append_of_not_mem hcs]
  rfl

/-- Separators may be put in where no lexeme goes on: before a boundary, and behind characters that
end none of the lexemes midway. -/
theorem lexemes_scan_insert {run : List Char} (hrun : ∀ c ∈ run, isSeparator c) {rest : List Char}
    {front : List Char} (hfront : '\n' ∉ front) {pos skip : Nat} (hskip : skip ≤ front.length)
    (hbetween : IsBoundary rest ∨ ∀ t ∈ (scan pos skip (front ++ rest)).list,
      pos + front.length ≤ t.start ∨ t.start + t.lexeme.text.length ≤ pos + front.length) :
    (scan pos skip (front ++ (run ++ rest))).lexemes = (scan pos skip (front ++ rest)).lexemes := by
  induction front generalizing pos skip with
  | nil =>
    obtain rfl : skip = 0 := Nat.le_zero.1 hskip
    rw [List.nil_append, List.nil_append, scan_of_isSpacing pos rest hrun]
    exact lexemes_scan _ _ _ _
  | cons c cs ih =>
    obtain ⟨hc, hcs⟩ := not_or.1 (List.mem_cons.not.1 hfront)
    rw [List.length_cons] at hskip hbetween
    have hlength : pos + (cs.length + 1) = pos + 1 + cs.length := by omega
    rw [hlength] at hbetween
    cases skip with
    | succ k => exact ih hcs (Nat.le_of_succ_le_succ hskip) hbetween
    | zero =>
      by_cases hnumber : c = '#'
      · subst hnumber
        have hrun' : '\n' ∉ run := fun h => absurd (hrun _ h) (by decide)
        rw [List.cons_append, List.cons_append, lexemes_scan_numberSign pos 0,
          lexemes_scan_numberSign pos 0, dropWhile_append_of_not_mem hcs,
          dropWhile_append_of_not_mem hrun', dropWhile_append_of_not_mem hcs]
      cases hseparator : isSeparator c with
      | true =>
        have hlength (ds : List Char) : ignoredLength (c :: ds) = 0 + 1 := by
          rw [ignoredLength, if_neg hnumber, if_pos hseparator]
        rw [List.cons_append, scan_of_ignoredLength (hlength _)] at hbetween
        rw [List.cons_append, List.cons_append, scan_of_ignoredLength (hlength _),
          scan_of_ignoredLength (hlength _)]
        exact ih hcs (Nat.zero_le _) hbetween
      | false =>
        have hignored (ds : List Char) : ignoredLength (c :: ds) = 0 :=
          ignoredLength_eq_zero.2 ⟨hnumber, hseparator⟩
        rcases hl : Lexeme.ofHead? (c :: (cs ++ rest)) with _ | l
        · have hnone := Lexeme.ofHead?_eq_none hl (cs ++ (run ++ rest))
          rw [List.cons_append, List.cons_append, scan_of_ofHead?_none pos (hignored _) hl,
            scan_of_ofHead?_none pos (hignored _) hnone]
        · rw [List.cons_append, scan_of_ofHead?_some pos (hignored _) hl] at hbetween
          have hshort : l.text.length ≤ cs.length + 1 := by
            rcases hbetween with hrest | hbetween
            · rw [Lexeme.ofHead?_append hrest] at hl
              have hlength := (Lexeme.prefix_of_ofHead? hl).length_le
              rwa [String.length_toList, List.length_cons] at hlength
            · have hfirst := (List.forall_mem_cons.1 hbetween).1
              simp only at hfirst
              omega
          have hrun' := Lexeme.ofHead?_insert hrun hl hshort
          have hothers := hbetween.imp_right fun h => (List.forall_mem_cons.1 h).2
          obtain ⟨hlist, hstray⟩ :=
            Prod.mk.inj (ih hcs (Nat.sub_le_of_le_add hshort) hothers)
          rw [List.cons_append, List.cons_append, scan_of_ofHead?_some pos (hignored _) hl,
            scan_of_ofHead?_some pos (hignored _) hrun']
          exact Prod.ext (congrArg (l :: ·) hlist) hstray

/-- **Margins.** Separators at the ends of a text without newlines make no difference to its
lexemes. -/
theorem lexemes_ofText_append {front core back : List Char} (hfront : ∀ c ∈ front, isSeparator c)
    (hcore : '\n' ∉ core) (hback : ∀ c ∈ back, isSeparator c) :
    (ofText (String.ofList (front ++ core ++ back))).lexemes =
      (ofText (String.ofList core)).lexemes := by
  have hne {cs : List Char} (hcs : ∀ c ∈ cs, isSeparator c) : '\n' ∉ cs :=
    fun h => absurd (hcs _ h) (by decide)
  have hall : '\n' ∉ front ++ core ++ back := by simp [hne hfront, hcore, hne hback]
  rw [ofText, ofText, String.toList_ofList, String.toList_ofList, closed_of_not_mem hall,
    closed_of_not_mem hcore, List.append_assoc, List.append_assoc, scan_of_isSpacing 0 _ hfront]
  have hnewline : IsBoundary ['\n'] := isBoundary_text (l := .newline) rfl []
  rw [lexemes_scan_insert hback hcore (Nat.zero_le _) (.inl hnewline)]
  exact lexemes_scan _ _ _ _

end Tokens

/-! ## Lines with the same lexemes -/

mutual

theorem exists_operand_of_lexemes : ∀ (v : Operand) {ts : List Token},
    ts.map Token.lexeme = v.tokens.map Token.lexeme →
      ∃ w : Operand, w.tokens = ts ∧ w.node = v.node
  | .number digits _, ts, h => by
    obtain ⟨⟨_, pos⟩, rfl, rfl⟩ := List.map_eq_singleton_iff.1 h
    exact ⟨.number digits pos, rfl, rfl⟩
  | .name n _, ts, h => by
    obtain ⟨⟨_, pos⟩, rfl, rfl⟩ := List.map_eq_singleton_iff.1 h
    exact ⟨.name n pos, rfl, rfl⟩
  | .negated _ inner, ts, h => by
    obtain ⟨⟨_, pos⟩, us, rfl, rfl, hus⟩ := List.map_eq_cons_iff.1 h
    obtain ⟨w, rfl, hnode⟩ := exists_operand_of_lexemes inner hus
    exact ⟨.negated pos w, rfl, congrArg Node.negation hnode⟩
  | .grouped _ inner _, ts, h => by
    obtain ⟨⟨_, pos⟩, after, rfl, rfl, hafter⟩ := List.map_eq_cons_iff.1 h
    rw [List.map_append] at hafter
    obtain ⟨us, last, rfl, hus, hlast⟩ := List.map_eq_append_iff.1 hafter
    obtain ⟨⟨_, pos'⟩, rfl, rfl⟩ := List.map_eq_singleton_iff.1 hlast
    obtain ⟨g, rfl, hslots⟩ := exists_formula_of_lexemes inner hus
    exact ⟨.grouped pos g pos', rfl, by rw [Operand.node, hslots, Operand.node]⟩

theorem exists_formula_of_lexemes : ∀ (f : Formula) {ts : List Token},
    ts.map Token.lexeme = f.tokens.map Token.lexeme →
      ∃ g : Formula, g.tokens = ts ∧ g.slots = f.slots
  | .single v, ts, h => by
    obtain ⟨w, rfl, hnode⟩ := exists_operand_of_lexemes v h
    exact ⟨.single w, rfl, by rw [Formula.slots, hnode, Formula.slots]⟩
  | .chain v op _ rest, ts, h => by
    rw [Formula.tokens, List.map_append] at h
    obtain ⟨us, after, rfl, hus, hafter⟩ := List.map_eq_append_iff.1 h
    obtain ⟨⟨_, pos⟩, us', rfl, rfl, hus'⟩ := List.map_eq_cons_iff.1 hafter
    obtain ⟨w, rfl, hnode⟩ := exists_operand_of_lexemes v hus
    obtain ⟨g, rfl, hslots⟩ := exists_formula_of_lexemes rest hus'
    exact ⟨.chain w op pos g, rfl, by rw [Formula.slots, hnode, hslots, Formula.slots]⟩

end

/-- The statement of a line, were lines of any depth worked on; blank lines have none. -/
def Line.statement? : Line → Option Statement
  | .blank _ => none
  | .formula target body _ => some ⟨Target.node? target, body.node⟩

/-- Other positions for the tokens of a line make it another line with the same statement. -/
theorem exists_line_of_lexemes {line : Line} {ts : List Token}
    (h : ts.map Token.lexeme = line.tokens.map Token.lexeme) :
    ∃ line' : Line, line'.tokens = ts ∧ line'.statement? = line.statement? := by
  cases line with
  | blank stop =>
    obtain ⟨⟨_, pos⟩, rfl, rfl⟩ := List.map_eq_singleton_iff.1 h
    exact ⟨.blank pos, rfl, rfl⟩
  | formula target body stop =>
    rw [Line.tokens_formula, List.map_append, List.map_append] at h
    obtain ⟨before, last, rfl, hbefore, hlast⟩ := List.map_eq_append_iff.1 h
    obtain ⟨⟨_, pos⟩, rfl, rfl⟩ := List.map_eq_singleton_iff.1 hlast
    obtain ⟨front, us, rfl, hfront, hus⟩ := List.map_eq_append_iff.1 hbefore
    obtain ⟨g, rfl, hslots⟩ := exists_formula_of_lexemes body hus
    have hnode : g.node = body.node := congrArg Node.expression hslots
    cases target with
    | none =>
      obtain rfl : front = [] := List.map_eq_nil_iff.1 hfront
      exact ⟨.formula none g pos, rfl, by rw [Line.statement?, hnode, Line.statement?]⟩
    | some t =>
      obtain ⟨⟨_, start⟩, equal, rfl, rfl, hequal⟩ := List.map_eq_cons_iff.1 hfront
      obtain ⟨⟨_, equal⟩, rfl, rfl⟩ := List.map_eq_singleton_iff.1 hequal
      exact ⟨.formula (some ⟨t.name, start, equal⟩) g pos, rfl,
        by rw [Line.statement?, hnode, Line.statement?]; rfl⟩

/-! ## What a text says -/

/-- Two texts say the same: they have the same statement, or none for the same fault, or both are
rejected. A rejection itself speaks of the positions in its text. -/
def Statement.Alike (text text' : String) : Prop :=
  ofText text = ofText text' ∨
    ∃ cause cause', ofText text = .error (.rejected cause) ∧
      ofText text' = .error (.rejected cause')

theorem Statement.ofText_eq_of_statement? {text text' : String} {line line' : Line}
    (hline : Line.ofText text = .ok line) (hline' : Line.ofText text' = .ok line')
    (h : line.statement? = line'.statement?) : ofText text = ofText text' := by
  match line, line' with
  | .blank _, .blank _ =>
    rw [ofText, ofText, hline, hline']
    rfl
  | .blank _, .formula _ _ _ => cases h
  | .formula _ _ _, .blank _ => cases h
  | .formula target body _, .formula target' body' _ =>
    obtain ⟨htarget, hbody⟩ := Statement.mk.inj (Option.some.inj h)
    rw [ofText_of_line hline, ofText_of_line hline', ← body.depth_node, ← body'.depth_node, htarget,
      hbody]

theorem Line.exists_of_lexemes {text text' : String} {line : Line}
    (h : (Tokens.ofText text).lexemes = (Tokens.ofText text').lexemes)
    (hline : Line.ofText text = .ok line) :
    ∃ line', Line.ofText text' = .ok line' ∧ line'.statement? = line.statement? := by
  obtain ⟨hlist, hstray⟩ := Prod.mk.inj h
  obtain ⟨hnone, htokens⟩ := Line.ofTokens_eq_ok.1 hline
  rw [← htokens] at hlist
  rw [hnone] at hstray
  obtain ⟨line', htokens', hstatement⟩ := exists_line_of_lexemes hlist.symm
  exact ⟨line', Line.ofTokens_eq_ok.2 ⟨by simpa using hstray.symm, htokens'⟩, hstatement⟩

theorem Statement.alike_of_lexemes {text text' : String}
    (h : (Tokens.ofText text).lexemes = (Tokens.ofText text').lexemes) : Alike text text' := by
  rcases hline : Line.ofText text with cause | line
  · rcases hline' : Line.ofText text' with cause' | line'
    · exact .inr ⟨cause, cause', by rw [ofText, hline], by rw [ofText, hline']⟩
    · obtain ⟨line, hok, -⟩ := Line.exists_of_lexemes h.symm hline'
      cases hline.symm.trans hok
  · obtain ⟨line', hline', hstatement⟩ := Line.exists_of_lexemes h hline
    exact .inl (ofText_eq_of_statement? hline hline' hstatement.symm)

/-! ## Typed characters -/

namespace Text

/-- Characters that are typed on a line: tabs, and the printable ones of ASCII. -/
def isTyped (c : Char) : Bool := c = '\t' || (' ' ≤ c && c ≤ '~')

theorem isTyped_iff {c : Char} : isTyped c ↔ c = '\t' ∨ (' ' ≤ c ∧ c ≤ '~') := by
  simp [isTyped]

theorem not_isLineBreak_of_isTyped {c : Char} (h : isTyped c) : ¬ isLineBreak c := by
  intro hbreak
  simp only [isLineBreak, List.mem_cons, List.not_mem_nil, or_false, decide_eq_true_eq] at hbreak
  rcases hbreak with rfl | rfl | rfl | rfl | rfl | rfl | rfl | rfl | rfl | rfl <;> cases h

/-- The blanks that are typed separate lexemes. -/
theorem isSeparator_of_isTyped {c : Char} (h : isTyped c) (hblank : isBlank c) : isSeparator c := by
  simp only [isBlank, not_isLineBreak_of_isTyped h, Bool.false_or, Bool.or_eq_true,
    decide_eq_true_eq, Bool.and_eq_true] at hblank
  rcases hblank with hmem | ⟨hle, -⟩
  · simp only [List.mem_cons, List.not_mem_nil, or_false] at hmem
    rcases hmem with rfl | rfl | rfl | rfl | rfl | rfl | rfl | rfl <;> revert h <;> decide
  · rcases isTyped_iff.1 h with rfl | ⟨-, hge⟩
    · rfl
    · exact absurd (Char.le_trans hle hge) (by decide)

/-- A text is its trimmed form with blanks before and after it. -/
theorem exists_margins (cs : List Char) :
    ∃ front back, cs = front ++ trim cs ++ back ∧ (∀ c ∈ front, isBlank c) ∧
      ∀ c ∈ back, isBlank c := by
  have hback (ds : List Char) : ds = trimEnd ds ++ (ds.reverse.takeWhile isBlank).reverse := by
    rw [trimEnd, ← List.reverse_append, List.takeWhile_append_dropWhile, List.reverse_reverse]
  refine ⟨cs.takeWhile isBlank, ((trimStart cs).reverse.takeWhile isBlank).reverse, ?_,
    List.all_eq_true.1 List.all_takeWhile, fun c hc => ?_⟩
  · rw [List.append_assoc, trim, ← hback, trimStart, List.takeWhile_append_dropWhile]
  · exact List.all_eq_true.1 List.all_takeWhile c (List.mem_reverse.1 hc)

/-- A line without the blanks at its ends. -/
def trimmed (line : String) : String := String.ofList (trim line.toList)

theorem mem_of_mem_trim {c : Char} {cs : List Char} (h : c ∈ trim cs) : c ∈ cs := by
  obtain ⟨front, back, hsplit, -⟩ := exists_margins cs
  rw [hsplit]
  simp [h]

end Text

/-- Typed text says the same without the blanks at its ends. -/
theorem Statement.alike_trimmed {text : String} (htyped : ∀ c ∈ text.toList, Text.isTyped c) :
    Alike text (Text.trimmed text) := by
  obtain ⟨front, back, hsplit, hfront, hback⟩ := Text.exists_margins text.toList
  have hcore : '\n' ∉ Text.trim text.toList := fun h => nomatch htyped _ (Text.mem_of_mem_trim h)
  have hlexemes := @Tokens.lexemes_ofText_append front (Text.trim text.toList) back
    (fun c hc => Text.isSeparator_of_isTyped (htyped c (by rw [hsplit]; simp [hc])) (hfront c hc))
    hcore
    (fun c hc => Text.isSeparator_of_isTyped (htyped c (by rw [hsplit]; simp [hc])) (hback c hc))
  rw [← hsplit, String.ofList_toList] at hlexemes
  exact alike_of_lexemes hlexemes

end Calculator
