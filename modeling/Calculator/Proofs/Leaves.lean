import Mathlib.Data.List.Basic
import Calculator.Proofs.Spacing
import Calculator.Proofs.Wording

/-!
# The leaves of a tree

What the tree of a line keeps of its text, and what it leaves out.

1. Of the tokens of a line, the digits, the names and the operators that come after an operand are
   the leaves of its tree, in order (`Line.leaves_eq`). The others are marks: an equals sign at
   most, minus signs before operands and parentheses, and the newline (`Line.marks_eq`).
2. The tokens of a text stand one behind the other (`Tokenises.pairwise`), each where the text has
   its spelling (`Tokenises.slice`), and all else is ignored (`Tokenises.covers`).
-/

namespace Calculator

/-! ## Leaves and marks -/

namespace Tree

/-- A token of a tree. -/
structure Leaf where
  terminal : String
  text : String
  /-- The number of characters before it. -/
  start : Nat
  deriving DecidableEq, Repr

namespace Leaf

def ofToken (t : Token) : Leaf := ⟨t.lexeme.terminal.label, t.lexeme.text, t.start⟩

/-- The position behind the leaf. -/
def stop (l : Leaf) : Nat := l.start + l.text.length

end Leaf

mutual

/-- The tokens of a tree from left to right. -/
def leaves : Tree → List Leaf
  | token terminal text start => [⟨terminal, text, start⟩]
  | branch _ children => leavesAll children

def leavesAll : List Tree → List Leaf
  | [] => []
  | child :: rest => child.leaves ++ leavesAll rest

end

/-- The leaves of a line, which has no tree if it is blank. -/
def leavesOf (tree? : Option Tree) : List Leaf := tree?.elim [] leaves

@[simp] theorem leaves_leaf (rule : String) (lexeme : Lexeme) (start : Nat) :
    (leaf rule lexeme start).leaves = [.ofToken ⟨lexeme, start⟩] := rfl

end Tree

/-- Lexemes with which an operand is complete. -/
def Lexeme.endsOperand : Lexeme → Bool
  | digits _ | name _ | closing => true
  | _ => false

/-- Lexemes that carry meaning. An operator does if an operand stands before it; otherwise it is a
sign of the operand after it. -/
def Lexeme.isLeaf (held : Bool) : Lexeme → Bool
  | digits _ | name _ => true
  | operator _ => held
  | _ => false

/-- The tokens that carry meaning, or those that do not; `held` tells whether an operand stands
directly before the tokens. -/
def sift (leaf held : Bool) : List Token → List Token
  | [] => []
  | t :: ts =>
    if t.lexeme.isLeaf held = leaf then t :: sift leaf t.lexeme.endsOperand ts
    else sift leaf t.lexeme.endsOperand ts

theorem sift_cons_of_eq {leaf held : Bool} {t : Token} (h : t.lexeme.isLeaf held = leaf)
    (ts : List Token) : sift leaf held (t :: ts) = t :: sift leaf t.lexeme.endsOperand ts :=
  if_pos h

theorem sift_cons_of_ne {leaf held : Bool} {t : Token} (h : t.lexeme.isLeaf held ≠ leaf)
    (ts : List Token) : sift leaf held (t :: ts) = sift leaf t.lexeme.endsOperand ts :=
  if_neg h

theorem sift_sublist (leaf held : Bool) (ts : List Token) : (sift leaf held ts).Sublist ts := by
  induction ts generalizing held with
  | nil => exact .slnil
  | cons t ts ih =>
    rw [sift]
    split_ifs
    · exact (ih _).cons_cons t
    · exact (ih _).cons t

/-- Every token is a leaf or a mark. -/
theorem mem_sift_or {t : Token} {ts : List Token} (h : t ∈ ts) (held : Bool) :
    t ∈ sift true held ts ∨ t ∈ sift false held ts := by
  induction ts generalizing held with
  | nil => cases h
  | cons u ts ih =>
    cases hu : u.lexeme.isLeaf held with
    | true =>
      rw [sift_cons_of_eq hu, sift_cons_of_ne (by simp [hu])]
      exact (List.mem_cons.1 h).elim (fun h => .inl (h ▸ List.mem_cons_self)) fun h =>
        (ih h _).imp_left (List.mem_cons_of_mem u)
    | false =>
      rw [sift_cons_of_ne (by simp [hu]), sift_cons_of_eq hu]
      exact (List.mem_cons.1 h).elim (fun h => .inr (h ▸ List.mem_cons_self)) fun h =>
        (ih h _).imp_right (List.mem_cons_of_mem u)

/-- No leaf is a mark of any kind. -/
theorem isLeaf_of_mem_sift {t : Token} {held : Bool} {ts : List Token} (h : t ∈ sift true held ts) :
    ∃ held', t.lexeme.isLeaf held' := by
  induction ts generalizing held with
  | nil => cases h
  | cons u ts ih =>
    rw [sift] at h
    split_ifs at h with hu
    · rcases List.mem_cons.1 h with rfl | h
      · exact ⟨held, hu⟩
      · exact ih h
    · exact ih h

/-! ## The leaves of a line -/

open Calculator.Tree (Leaf)

mutual

theorem leaves_operand : ∀ (v : Operand) (ts : List Token),
    (sift true false (v.tokens ++ ts)).map Leaf.ofToken =
      (Tree.ofOperand v).leaves ++ (sift true true ts).map Leaf.ofToken
  | .number _ _, _ => rfl
  | .name _ _, _ => rfl
  | .negated _ inner, ts => by
    have hinner := leaves_operand inner ts
    rw [Tree.ofOperand, Tree.leaves, Tree.leavesAll, Tree.leavesAll, List.append_nil]
    exact hinner
  | .grouped _ inner closed, ts => by
    have hinner := leaves_formula inner (⟨.closing, closed⟩ :: ts)
    simp only [Tree.ofOperand, Tree.leaves, Tree.leavesAll, List.append_nil]
    rw [Operand.tokens, List.cons_append, List.append_assoc, List.singleton_append]
    exact hinner

theorem leaves_formula : ∀ (f : Formula) (ts : List Token),
    (sift true false (f.tokens ++ ts)).map Leaf.ofToken =
      Tree.leavesAll (Tree.runOfFormula f) ++ (sift true true ts).map Leaf.ofToken
  | .single v, ts => by
    rw [Formula.tokens, Tree.runOfFormula, Tree.leavesAll, Tree.leavesAll, List.append_nil]
    exact leaves_operand v ts
  | .chain v op pos rest, ts => by
    have hrest := leaves_formula rest ts
    rw [Formula.tokens, List.append_assoc, leaves_operand v, List.cons_append, Tree.runOfFormula,
      Tree.leavesAll, Tree.leavesAll, Tree.leaves_leaf, List.append_assoc, List.append_assoc,
      List.singleton_append, ← hrest]
    rfl

end

mutual

/-- The parentheses and minus signs around an operand and inside it. -/
def Operand.marks : Operand → List Token
  | .number _ _ => []
  | .name _ _ => []
  | .negated sign inner => ⟨.operator .subtract, sign⟩ :: inner.marks
  | .grouped opened inner closed => ⟨.opening, opened⟩ :: (inner.marks ++ [⟨.closing, closed⟩])

def Formula.marks : Formula → List Token
  | .single v => v.marks
  | .chain v _ _ rest => v.marks ++ rest.marks

end

mutual

theorem marks_operand : ∀ (v : Operand) (ts : List Token),
    sift false false (v.tokens ++ ts) = v.marks ++ sift false true ts
  | .number _ _, _ => rfl
  | .name _ _, _ => rfl
  | .negated sign inner, ts => by
    rw [Operand.tokens, Operand.marks, List.cons_append, List.cons_append, ← marks_operand inner ts]
    rfl
  | .grouped opened inner closed, ts => by
    rw [Operand.tokens, Operand.marks, List.cons_append, List.cons_append, List.append_assoc,
      List.append_assoc]
    exact congrArg (_ :: ·) (marks_formula inner (⟨.closing, closed⟩ :: ts))

theorem marks_formula : ∀ (f : Formula) (ts : List Token),
    sift false false (f.tokens ++ ts) = f.marks ++ sift false true ts
  | .single v, ts => marks_operand v ts
  | .chain v op pos rest, ts => by
    rw [Formula.tokens, Formula.marks, List.append_assoc, List.append_assoc, marks_operand v,
      ← marks_formula rest ts]
    rfl

end

/-- A minus sign before an operand, or a parenthesis. -/
def Lexeme.isBracketOrSign : Lexeme → Bool
  | operator .subtract | opening | closing => true
  | _ => false

mutual

theorem isBracketOrSign_operand : ∀ (v : Operand), ∀ t ∈ v.marks, t.lexeme.isBracketOrSign
  | .number _ _ => by simp [Operand.marks]
  | .name _ _ => by simp [Operand.marks]
  | .negated _ inner =>
    List.forall_mem_cons.2 ⟨rfl, isBracketOrSign_operand inner⟩
  | .grouped _ inner _ => by
    have hinner := isBracketOrSign_formula inner
    refine List.forall_mem_cons.2 ⟨rfl, List.forall_mem_append.2 ⟨hinner, ?_⟩⟩
    simp [Lexeme.isBracketOrSign]

theorem isBracketOrSign_formula : ∀ (f : Formula), ∀ t ∈ f.marks, t.lexeme.isBracketOrSign
  | .single v => isBracketOrSign_operand v
  | .chain v _ _ rest => List.forall_mem_append.2
      ⟨isBracketOrSign_operand v, isBracketOrSign_formula rest⟩

end

theorem Line.leaves_eq (line : Line) :
    Tree.leavesOf (Tree.ofLine? line) = (sift true false line.tokens).map Leaf.ofToken := by
  cases line with
  | blank stop => rfl
  | formula target body stop =>
    have hbody := leaves_formula body [⟨.newline, stop⟩]
    have hend : sift true true [⟨.newline, stop⟩] = [] := rfl
    rw [hend, List.map_nil, List.append_nil] at hbody
    rw [Line.tokens_formula, List.append_assoc]
    cases target with
    | none =>
      rw [Target.tokens?, List.nil_append, hbody]
      simp [Tree.ofLine?, Tree.leavesOf, Tree.leaves, Tree.leavesAll, Tree.ofFormula]
    | some t =>
      have htarget :
          sift true false (Target.tokens? (some t) ++ (body.tokens ++ [⟨.newline, stop⟩])) =
            ⟨.name t.name, t.start⟩ :: sift true false (body.tokens ++ [⟨.newline, stop⟩]) := rfl
      rw [htarget, List.map_cons, hbody]
      simp [Tree.ofLine?, Tree.leavesOf, Tree.leaves, Tree.leavesAll, Tree.ofFormula]

/-- The marks of a line: the equals sign of an assignment, then those of the formula, and last the
newline. -/
theorem Line.marks_eq (line : Line) :
    ∃ equals signs stop, sift false false line.tokens = equals ++ signs ++ [⟨.newline, stop⟩] ∧
      (equals = [] ∨ ∃ pos, equals = [⟨.equal, pos⟩]) ∧
      ∀ t ∈ signs, t.lexeme.isBracketOrSign := by
  cases line with
  | blank stop => exact ⟨[], [], stop, rfl, .inl rfl, by simp⟩
  | formula target body stop =>
    have hbody : sift false false (body.tokens ++ [⟨.newline, stop⟩]) =
        body.marks ++ [⟨.newline, stop⟩] := marks_formula body _
    have hsigns := isBracketOrSign_formula body
    rw [Line.tokens_formula, List.append_assoc]
    cases target with
    | none => exact ⟨[], body.marks, stop, hbody, .inl rfl, hsigns⟩
    | some t =>
      refine ⟨[⟨.equal, t.equal⟩], body.marks, stop, ?_, .inr ⟨_, rfl⟩, hsigns⟩
      exact congrArg (⟨.equal, t.equal⟩ :: ·) hbody

theorem Line.exists_newline (line : Line) :
    ∃ init stop, line.tokens = init ++ [⟨.newline, stop⟩] := by
  cases line with
  | blank stop => exact ⟨[], stop, rfl⟩
  | formula target body stop => exact ⟨_, stop, Line.tokens_formula target body stop⟩

/-! ## Places in a text -/

/-- The position behind the token. -/
def Token.stop (t : Token) : Nat := t.start + t.lexeme.text.length

/-- The character belongs to a word that separates lexemes, the longest word at its place. -/
def IsIgnoredAt (cs : List Char) (i : Nat) : Prop :=
  ∃ front word rest, cs = front ++ (word ++ rest) ∧ Munch (word ++ rest) word rest ∧
    isIgnored word ∧ front.length ≤ i ∧ i < front.length + word.length

theorem IsIgnoredAt.append {cs : List Char} {i : Nat} (h : IsIgnoredAt cs i)
    (before : List Char) : IsIgnoredAt (before ++ cs) (before.length + i) := by
  obtain ⟨front, word, rest, rfl, hmunch, hword, hle, hlt⟩ := h
  refine ⟨before ++ front, word, rest, (List.append_assoc _ _ _).symm, hmunch, hword, ?_, ?_⟩ <;>
    rw [List.length_append] <;> omega

namespace Tokenises

variable {pos : Nat} {cs : List Char} {ts : List Token}

/-- Tokens stand one behind the other. -/
theorem pairwise (h : Tokenises pos cs ts) :
    (∀ t ∈ ts, pos ≤ t.start) ∧ ts.Pairwise fun t u => t.stop ≤ u.start := by
  induction h with
  | done => simp
  | ignored _ _ _ ih => exact ⟨fun t ht => (Nat.le_add_right _ _).trans (ih.1 t ht), ih.2⟩
  | @lexeme pos cs rest ts l _ _ _ ih =>
    rw [String.length_toList] at ih
    refine ⟨List.forall_mem_cons.2 ⟨Nat.le_refl _, fun t ht => ?_⟩, List.pairwise_cons.2 ih⟩
    exact (Nat.le_add_right _ _).trans (ih.1 t ht)

/-- The text has the spelling of a token where the token begins. -/
theorem slice (h : Tokenises 0 cs ts) {t : Token} (ht : t ∈ ts) :
    (cs.drop t.start).take t.lexeme.text.length = t.lexeme.text.toList := by
  obtain ⟨before, after, rfl⟩ := List.append_of_mem ht
  obtain ⟨left, right, rfl, hstart, -⟩ := (cuts_nil_iff.2 h).exists_split
  rw [hstart, Nat.zero_add, List.drop_left, ← String.length_toList, List.take_left]

/-- What belongs to no token is ignored. -/
theorem covers (h : Tokenises pos cs ts) {i : Nat} (hi : i < cs.length) :
    (∃ t ∈ ts, t.start ≤ pos + i ∧ pos + i < t.stop) ∨ IsIgnoredAt cs i := by
  induction h generalizing i with
  | done => cases hi
  | @ignored pos cs word rest ts hmunch hword _ ih =>
    obtain rfl := hmunch.split
    rw [List.length_append] at hi
    by_cases hlt : i < word.length
    · exact .inr ⟨[], word, rest, rfl, hmunch, hword, Nat.zero_le _, by simpa using hlt⟩
    · obtain ⟨k, rfl⟩ := Nat.exists_eq_add_of_le (Nat.le_of_not_lt hlt)
      rw [← Nat.add_assoc]
      exact (ih (Nat.lt_of_add_lt_add_left hi)).imp_right fun h => h.append word
  | @lexeme pos cs rest ts l hmunch hl _ ih =>
    obtain rfl := hmunch.split
    rw [List.length_append] at hi
    by_cases hlt : i < l.text.toList.length
    · refine .inl ⟨_, List.mem_cons_self, Nat.le_add_right pos i, ?_⟩
      rw [String.length_toList] at hlt
      exact Nat.add_lt_add_left hlt pos
    · obtain ⟨k, rfl⟩ := Nat.exists_eq_add_of_le (Nat.le_of_not_lt hlt)
      rw [← Nat.add_assoc]
      refine (ih (Nat.lt_of_add_lt_add_left hi)).imp (fun h => ?_) fun h => h.append _
      obtain ⟨t, ht, hplace⟩ := h
      exact ⟨t, List.mem_cons_of_mem _ ht, hplace⟩

end Tokenises

theorem drop_take_append {core : List Char} {start length : Nat}
    (h : start + length ≤ core.length) (rest : List Char) :
    ((core ++ rest).drop start).take length = (core.drop start).take length := by
  rw [List.drop_append_of_le_length (by omega),
    List.take_append_of_le_length (by rw [List.length_drop]; omega)]

/-- On the first line columns follow positions. -/
theorem Rejection.column_of_not_mem {core : List Char} (hcore : '\n' ∉ core) {start : Nat}
    (h : start ≤ core.length) (rest : List Char) : column (core ++ rest) start = start + 1 := by
  have hlength : (core.take start).length = start := List.length_take_of_le h
  have htake : (core ++ rest).take ([] ++ core.take start).length = [] ++ core.take start := by
    rw [List.nil_append, hlength, List.take_append_of_le_length h]
  have hcolumn := column_append htake (fun hmem => hcore (List.mem_of_mem_take hmem)) (by simp)
  rwa [List.nil_append, hlength] at hcolumn

/-! ## Leaves in a text -/

/-- Leaves are spelled by one character at least. -/
theorem length_text_pos {l : Lexeme} (hl : l.isProper) : 0 < l.text.length := by
  rw [← String.length_toList]
  exact List.length_pos_of_ne_nil (IsWord.ne_nil (.inr ⟨l, hl, rfl⟩))

/-- The newline of a line is the last character of its text. -/
theorem Tokenises.start_newline {core : List Char} (hcore : '\n' ∉ core) {ts : List Token}
    (h : Tokenises 0 (core ++ ['\n']) ts) {stop : Nat} (hstop : ⟨.newline, stop⟩ ∈ ts) :
    stop = core.length := by
  have hslice : ((core ++ ['\n']).drop stop).take 1 = ['\n'] := by
    have htext : Lexeme.newline.text.toList = ['\n'] := rfl
    have hspelled := h.slice hstop
    rwa [← String.length_toList, htext] at hspelled
  rcases Nat.lt_trichotomy stop core.length with hlt | heq | hgt
  · -- before the end there is no newline
    rw [drop_take_append hlt] at hslice
    exact absurd (List.mem_of_mem_drop (List.mem_of_mem_take (hslice ▸ List.mem_singleton_self _)))
      hcore
  · exact heq
  · rw [List.drop_eq_nil_of_le (by rw [List.length_append]; exact hgt)] at hslice
    cases hslice

/-- Every leaf stands before the newline. -/
theorem Tokenises.stop_le_of_leaf {core : List Char} (hcore : '\n' ∉ core) {line : Line}
    (h : Tokenises 0 (core ++ ['\n']) line.tokens) {t : Token}
    (ht : t ∈ sift true false line.tokens) : t.stop ≤ core.length := by
  obtain ⟨init, stop, hinit⟩ := line.exists_newline
  have hstop : stop = core.length := h.start_newline hcore (hinit ▸ List.mem_concat_self)
  have hmem := (sift_sublist true false line.tokens).subset ht
  have hpairs := h.pairwise.2
  rw [hinit, List.mem_append] at hmem
  rw [hinit, List.pairwise_append] at hpairs
  rcases hmem with hmem | hmem
  · exact hstop ▸ hpairs.2.2 t hmem _ (List.mem_singleton_self _)
  · obtain ⟨held, hleaf⟩ := isLeaf_of_mem_sift ht
    rw [List.mem_singleton.1 hmem] at hleaf
    cases hleaf

/-- An accepted text is a core without newlines, and perhaps a newline after it. -/
theorem exists_core_append {text : String} {line : Line} (h : Line.ofText text = .ok line) :
    ∃ core rest, '\n' ∉ core ∧ text.toList = core ++ rest ∧
      Text.closed text.toList = core ++ ['\n'] := by
  obtain ⟨core, hcore, htext | htext⟩ := exists_core h
  · exact ⟨core, [], hcore, by rw [htext, List.append_nil], by rw [htext, closed_of_not_mem hcore]⟩
  · refine ⟨core, ['\n'], hcore, htext, ?_⟩
    rw [htext]
    exact if_pos List.getLast?_concat

theorem length_le_closed (cs : List Char) : cs.length ≤ (Text.closed cs).length := by
  unfold Text.closed
  split_ifs
  · exact Nat.le_refl _
  · rw [List.length_append]
    exact Nat.le_add_right _ _

/-- **Leaves.** The longest words of an accepted text give its tokens. The leaves of the tree are,
from left to right, the digits, the names and the operators with an operand before them; all other
tokens are an equals sign at most, then parentheses and minus signs without an operand before them,
and last the newline, which ends the text whether it is written or not. The leaves do not overlap
and stand in the order of the text, each where the text has its spelling and in the column after its
position, and what belongs to no token is ignored. -/
theorem leaves_cover_text {text : String} {line : Line} (hline : Line.ofText text = .ok line) :
    let cs := text.toList
    let leaves := Tree.leavesOf (Tree.ofLine? line)
    ∃ ts equals signs stop,
      Tokenises 0 (Text.closed cs) ts ∧
      leaves = (sift true false ts).map Leaf.ofToken ∧
      sift false false ts = equals ++ signs ++ [⟨.newline, stop⟩] ∧
      (equals = [] ∨ ∃ pos, equals = [⟨.equal, pos⟩]) ∧
      (∀ t ∈ signs, t.lexeme.isBracketOrSign) ∧
      (Text.closed cs).length = stop + 1 ∧
      leaves.Pairwise (fun l m => l.stop ≤ m.start) ∧
      (∀ l ∈ leaves, l.start < l.stop ∧ l.stop ≤ cs.length ∧
        (cs.drop l.start).take l.text.length = l.text.toList ∧
        Rejection.column cs l.start = l.start + 1) ∧
      ∀ i < cs.length, (∃ l ∈ leaves, l.start ≤ i ∧ i < l.stop) ∨
        (∃ t ∈ equals ++ signs ++ [⟨.newline, stop⟩], t.start ≤ i ∧ i < t.stop) ∨
        IsIgnoredAt (Text.closed cs) i := by
  intro cs leaves
  have hleaves : leaves = (sift true false line.tokens).map Leaf.ofToken := line.leaves_eq
  obtain ⟨equals, signs, stop, hmarks, hequals, hsigns⟩ := line.marks_eq
  have htokens : Tokenises 0 (Text.closed cs) line.tokens := Line.ofText_eq_ok.1 hline
  have hlength := length_le_closed cs
  obtain ⟨core, rest, hcore, hcs, hclosed⟩ := exists_core_append hline
  rw [show Text.closed cs = core ++ ['\n'] from hclosed] at htokens hlength ⊢
  have hstop : stop = core.length := htokens.start_newline hcore
    ((sift_sublist false false line.tokens).subset (hmarks ▸ List.mem_concat_self))
  refine ⟨line.tokens, equals, signs, stop, htokens, hleaves, hmarks, hequals, hsigns, ?_, ?_, ?_,
    ?_⟩
  · rw [hstop, List.length_append, List.length_singleton]
  · rw [hleaves]
    exact List.pairwise_map.2 (htokens.pairwise.2.sublist (sift_sublist true false line.tokens))
  · rw [hleaves, show cs = core ++ rest from hcs]
    intro l hl
    obtain ⟨t, ht, rfl⟩ := List.mem_map.1 hl
    have hmem := (sift_sublist true false line.tokens).subset ht
    have hinside : t.start + t.lexeme.text.length ≤ core.length :=
      htokens.stop_le_of_leaf hcore ht
    have hslice := htokens.slice hmem
    rw [drop_take_append hinside] at hslice
    refine ⟨Nat.lt_add_of_pos_right (length_text_pos (htokens.isProper t hmem)), ?_,
      (drop_take_append hinside rest).trans hslice,
      Rejection.column_of_not_mem hcore ((Nat.le_add_right _ _).trans hinside) rest⟩
    rw [List.length_append]
    exact hinside.trans (Nat.le_add_right _ _)
  · intro i hi
    rcases htokens.covers (Nat.lt_of_lt_of_le hi hlength) with ⟨t, ht, hspan⟩ | hignored
    · rw [Nat.zero_add] at hspan
      rcases mem_sift_or ht false with hleaf | hmark
      · exact .inl ⟨.ofToken t, hleaves ▸ List.mem_map_of_mem hleaf, hspan⟩
      · exact .inr (.inl ⟨t, hmarks ▸ hmark, hspan⟩)
    · exact .inr (.inr hignored)

/-- The leaves of an assignment with a sign, parentheses, a tab and a comment. -/
theorem leaves_cover_text_assignment :
    let text := "x = -(1 +\ty2)# 3"
    let line : Line := .formula (some ⟨"x", 0, 2⟩) (.single (.negated 4 (.grouped 5
      (.chain (.number "1" 6) .add 8 (.single (.name "y2" 10))) 12))) 16
    let leaves : List Leaf :=
      [⟨"NAME", "x", 0⟩, ⟨"DIGITS", "1", 6⟩, ⟨"PLUS", "+", 8⟩, ⟨"NAME", "y2", 10⟩]
    Line.ofText text = .ok line ∧ Tree.leavesOf (Tree.ofLine? line) = leaves ∧
      leaves.Pairwise (fun l m => l.stop ≤ m.start) ∧
      (∀ l ∈ leaves, (text.toList.drop l.start).take l.text.length = l.text.toList) ∧
      ∃ ts, Tokenises 0 (Text.closed text.toList) ts ∧
        leaves = (sift true false ts).map Leaf.ofToken := by
  intro text line leaves
  have hline : Line.ofText text = .ok line := by decide
  have hleaves : Tree.leavesOf (Tree.ofLine? line) = leaves := by decide
  obtain ⟨ts, -, -, -, htokens, hts, -, -, -, -, hordered, hplaced, -⟩ := leaves_cover_text hline
  rw [hleaves] at hts hordered hplaced
  exact ⟨hline, hleaves, hordered, fun l hl => (hplaced l hl).2.2.1, ts, htokens, hts⟩

end Calculator
