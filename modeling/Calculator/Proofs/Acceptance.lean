import Mathlib.Data.List.Basic
import Calculator.Proofs.Grammar
import Calculator.Proofs.Munch
import Calculator.Proofs.Reader
import Calculator.Session

/-!
# Accepted texts

A text is a line exactly if it can be cut into the longest words and the rules derive a line from
the tokens among them.

1. `Line.ofText_eq_ok`: a text is read as the line whose tokens it is cut into.
2. `parses_iff_derived`: acceptance, the tree, its uniqueness, the blank line and the refusal of all
   other texts.
3. Every line has one newline token, its last, so a newline before the end of a text spoils it
   (`not_accepted_of_inner_newline`).
-/

namespace Calculator

theorem Line.ofText_eq_ok {text : String} {line : Line} :
    Line.ofText text = .ok line ↔ Tokenises 0 (Text.closed text.toList) line.tokens := by
  rw [Line.ofText, Line.ofTokens_eq_ok, ← Tokens.scan_eq_iff, Tokens.ofText]
  constructor
  · rintro ⟨hstray, htokens⟩
    rw [htokens, ← hstray]
  · intro h
    rw [h]
    exact ⟨rfl, rfl⟩

/-- The text is cut into the tokens `ts`, from which the rules derive a line with the tree `root`.
-/
def Parses (text : String) (ts : List Token) (root : Tree) : Prop :=
  Tokenises 0 (Text.closed text.toList) ts ∧ Derives .line ts [root]

theorem parses_iff {text : String} {ts : List Token} {root : Tree} :
    Parses text ts root ↔
      ∃ line, Line.ofText text = .ok line ∧ ts = line.tokens ∧ root = Tree.root line := by
  simp only [Parses, derives_line_iff, Line.ofText_eq_ok]
  constructor
  · rintro ⟨hts, line, rfl, hroot⟩
    exact ⟨line, hts, rfl, (List.cons.inj hroot).1⟩
  · rintro ⟨line, hts, rfl, rfl⟩
    exact ⟨hts, line, rfl, rfl⟩

/-- Only a blank line has no tree, and only its tokens are a single newline. -/
theorem grown?_root_eq_none {line : Line} :
    (Tree.root line).grown? = none ↔ line.tokens.map Token.lexeme = [.newline] := by
  rw [Tree.grown?_root]
  constructor
  · match line with
    | .blank _ => exact fun _ => rfl
    | .formula none _ _ => exact fun h => nomatch h
    | .formula (some _) _ _ => exact fun h => nomatch h
  · intro h
    obtain ⟨⟨lexeme, stop⟩, htokens, rfl⟩ := List.map_eq_singleton_iff.1 h
    obtain rfl : line = .blank stop := Line.tokens_injective htokens
    rfl

/-! ## Newlines -/

mutual

theorem ne_newline_of_mem_operand : ∀ v : Operand, ∀ t ∈ v.tokens, t.lexeme ≠ .newline
  | .number _ _ => by simp [Operand.tokens]
  | .name _ _ => by simp [Operand.tokens]
  | .negated _ inner => by simpa [Operand.tokens] using ne_newline_of_mem_operand inner
  | .grouped _ inner _ => by
    have hinner := ne_newline_of_mem_formula inner
    intro t ht
    simp only [Operand.tokens, List.mem_cons, List.mem_append, List.not_mem_nil, or_false] at ht
    rcases ht with rfl | ht | rfl
    · simp
    · exact hinner t ht
    · simp

theorem ne_newline_of_mem_formula : ∀ f : Formula, ∀ t ∈ f.tokens, t.lexeme ≠ .newline
  | .single v => ne_newline_of_mem_operand v
  | .chain v op pos rest => by
    intro t ht
    simp only [Formula.tokens, List.mem_append, List.mem_cons] at ht
    rcases ht with ht | rfl | ht
    · exact ne_newline_of_mem_operand v t ht
    · simp
    · exact ne_newline_of_mem_formula rest t ht

end

theorem count_newline_formula (f : Formula) : (f.tokens.map Token.lexeme).count .newline = 0 := by
  refine List.count_eq_zero.2 fun hmem => ?_
  obtain ⟨t, ht, hlexeme⟩ := List.mem_map.1 hmem
  exact ne_newline_of_mem_formula f t ht hlexeme

theorem count_newline_line (line : Line) : (line.tokens.map Token.lexeme).count .newline = 1 := by
  match line with
  | .blank stop => rfl
  | .formula target body stop =>
    rw [Line.tokens_formula, List.map_append, List.map_append, List.count_append, List.count_append,
      count_newline_formula]
    cases target <;> rfl

theorem two_le_count_closed (front : List Char) {back : List Char} (hback : back ≠ []) :
    2 ≤ (Text.closed (front ++ '\n' :: back)).count '\n' := by
  unfold Text.closed
  split_ifs with hlast
  · have hmem : '\n' ∈ back := by
      rw [List.getLast?_append_cons, List.getLast?_cons_of_ne_nil hback] at hlast
      exact List.mem_of_getLast? hlast
    have := List.count_pos_iff.2 hmem
    rw [List.count_append, List.count_cons_self]
    omega
  · rw [List.count_append, List.count_append, List.count_cons_self, List.count_singleton_self]
    omega

theorem not_accepted_of_inner_newline {text : String} {front back : List Char}
    (htext : text.toList = front ++ '\n' :: back) (hback : back ≠ []) :
    ∃ cause, Line.ofText text = .error cause := by
  rcases h : Line.ofText text with cause | line
  · exact ⟨cause, rfl⟩
  · have hcount := (Line.ofText_eq_ok.1 h).count_newline
    have htwo := two_le_count_closed front hback
    rw [htext, count_newline_line] at hcount
    omega

/-! ## Acceptance -/

theorem parses_unique {text : String} {ts ts' : List Token} {root root' : Tree}
    (h : Parses text ts root) (h' : Parses text ts' root') : ts = ts' ∧ root = root' := by
  obtain ⟨line, hline, rfl, rfl⟩ := parses_iff.1 h
  obtain ⟨line', hline', rfl, rfl⟩ := parses_iff.1 h'
  obtain rfl : line = line' := Except.ok.inj (hline.symm.trans hline')
  exact ⟨rfl, rfl⟩

/-- A rejected text is told back by every evaluation. -/
theorem Session.rejected_of_ofText {text : String} {cause : Rejection}
    (h : Line.ofText text = .error cause) (s : Session) :
    s.evaluate text = (s, .error (.rejected text cause)) ∧
      s.inspect text = (s, .error (.rejected text cause)) := by
  have hstatement : Statement.ofText text = .error (.rejected cause) := by
    rw [Statement.ofText, h]
  have hwork : s.workOut text = (s, .error (.rejected text cause)) := by
    rw [Session.workOut, hstatement]
  exact ⟨by rw [Session.evaluate, hwork], by rw [Session.inspect, hwork]; rfl⟩

/-- **Acceptance.** A text is accepted exactly if its longest words give tokens from which a line is
derived; the tree is that of the only derivation, and there is none exactly if the only token is the
newline. Every other text is rejected, and told back. In particular no newline stands before the
last character of an accepted text. -/
theorem parses_iff_derived (text : String) :
    (∀ tree?, (Line.ofText text).map Tree.ofLine? = .ok tree? ↔
      ∃ ts root, Parses text ts root ∧ tree? = root.grown?) ∧
    (∀ ts ts' root root', Parses text ts root → Parses text ts' root' → ts = ts' ∧ root = root') ∧
    (∀ ts root, Parses text ts root →
      (root.grown? = none ↔ ts.map Token.lexeme = [.newline])) ∧
    ((¬ ∃ ts root, Parses text ts root) → ∃ cause, Line.ofText text = .error cause ∧
      ∀ s : Session, s.evaluate text = (s, .error (.rejected text cause)) ∧
        s.inspect text = (s, .error (.rejected text cause))) ∧
    (∀ front back, text.toList = front ++ '\n' :: back → back ≠ [] →
      ¬ ∃ ts root, Parses text ts root) := by
  refine ⟨fun tree? => ?_, fun _ _ _ _ => parses_unique, ?_, fun hnone => ?_, ?_⟩
  · constructor
    · intro h
      rcases hline : Line.ofText text with cause | line
      · rw [hline] at h
        cases h
      · rw [hline] at h
        cases h
        exact ⟨_, _, parses_iff.2 ⟨line, hline, rfl, rfl⟩, (Tree.grown?_root line).symm⟩
    · rintro ⟨ts, root, hparses, rfl⟩
      obtain ⟨line, hline, rfl, rfl⟩ := parses_iff.1 hparses
      rw [hline, Tree.grown?_root]
      rfl
  · intro ts root hparses
    obtain ⟨line, -, rfl, rfl⟩ := parses_iff.1 hparses
    exact grown?_root_eq_none
  · rcases hline : Line.ofText text with cause | line
    · exact ⟨cause, rfl, Session.rejected_of_ofText hline⟩
    · exact absurd ⟨_, _, parses_iff.2 ⟨line, hline, rfl, rfl⟩⟩ hnone
  · rintro front back htext hback ⟨ts, root, hparses⟩
    obtain ⟨line, hline, -, -⟩ := parses_iff.1 hparses
    obtain ⟨cause, hcause⟩ := not_accepted_of_inner_newline htext hback
    rw [hline] at hcause
    cases hcause

/-- The texts `1`, newline, which is accepted, and `1`, newline, `2`, which is not. -/
theorem parses_iff_derived_two_lines :
    (∃ ts root, Parses "1\n" ts root) ∧
    ("1\n2".toList = ['1'] ++ '\n' :: ['2'] ∧ ['2'] ≠ []) ∧ ¬ ∃ ts root, Parses "1\n2" ts root := by
  refine ⟨?_, ⟨rfl, by decide⟩, ?_⟩
  · obtain ⟨ts, root, hparses, -⟩ := ((parses_iff_derived "1\n").1 _).1 rfl
    exact ⟨ts, root, hparses⟩
  · exact (parses_iff_derived "1\n2").2.2.2.2 ['1'] ['2'] rfl (by decide)

end Calculator
