import Mathlib.Data.List.Basic
import Calculator.Script

/-!
# Physical lines

What a text is cut into at its line breaks, and what a script keeps of it.

1. A newline at the end of a text adds nothing to its lines, or an empty line after them
   (`lines_concat_newline`). A script drops empty lines, so it makes no difference whether a newline
   is added (`Script.ofLines_lines_concat`, `Script.ofText_eq`).
2. A carriage return ends a line as a newline does, with or without a newline after it, so the lines
   stay the same when all breaks of this kind are written as newlines (`lines_plainNewlines`).
3. Lines without breaks are read back from the text that joins them
   (`Script.ofText_intercalate`).
-/

namespace Calculator

namespace Text

/-! ## One line break -/

theorem lines_cons_of_isLineBreak {c : Char} {cs : List Char} (hc : isLineBreak c)
    (hnext : c = '\r' → cs.head? ≠ some '\n') : lines (c :: cs) = [] :: lines cs := by
  rw [lines, if_pos hc]
  rintro rest hreturn rfl
  exact hnext hreturn rfl

theorem lines_cons_of_not_isLineBreak {c : Char} (hc : ¬ isLineBreak c) (cs : List Char) :
    lines (c :: cs) = prepend c (lines cs) := by
  rw [lines, if_neg hc]
  rintro rest rfl
  exact absurd rfl hc

theorem lines_newline (cs : List Char) : lines ('\n' :: cs) = [] :: lines cs :=
  lines_cons_of_isLineBreak rfl fun h => absurd h (by decide)

/-- What stands before a break is its line. -/
theorem lines_append_of_lines_eq {l rest : List Char} {ls : List (List Char)}
    (hl : ∀ c ∈ l, ¬ isLineBreak c) (hrest : lines rest = [] :: ls) :
    lines (l ++ rest) = l :: ls := by
  induction l with
  | nil => exact hrest
  | cons c cs ih =>
    obtain ⟨hc, hcs⟩ := List.forall_mem_cons.1 hl
    rw [List.cons_append, lines_cons_of_not_isLineBreak hc, ih hcs, prepend]

theorem lines_append_newline {l : List Char} (hl : ∀ c ∈ l, ¬ isLineBreak c) (rest : List Char) :
    lines (l ++ '\n' :: rest) = l :: lines rest :=
  lines_append_of_lines_eq hl (lines_newline rest)

theorem not_isLineBreak_of_mem_lines {cs l : List Char} (hl : l ∈ lines cs) :
    ∀ c ∈ l, ¬ isLineBreak c := by
  fun_induction lines cs generalizing l with
  | case1 => cases hl
  | case2 cs ih =>
    rcases List.mem_cons.1 hl with rfl | hl
    · simp
    · exact ih hl
  | case3 c cs _ _ ih =>
    rcases List.mem_cons.1 hl with rfl | hl
    · simp
    · exact ih hl
  | case4 c cs _ hc ih =>
    -- The character stands before the first line, or it is a line of its own.
    rcases hlines : lines cs with _ | ⟨first, rest⟩ <;> rw [hlines] at hl ih
    · rw [List.mem_singleton.1 hl]
      simpa using hc
    · rcases List.mem_cons.1 hl with rfl | hl
      · exact List.forall_mem_cons.2 ⟨hc, ih (by simp)⟩
      · exact ih (by simp [hl])

theorem lines_eq_nil_iff {cs : List Char} : lines cs = [] ↔ cs = [] := by
  refine ⟨fun h => ?_, fun h => h ▸ rfl⟩
  unfold lines at h
  split at h
  · rfl
  · cases h
  · split_ifs at h
    unfold prepend at h
    split at h <;> cases h

/-- After its first line a text goes on with a break and the other lines, or it ends. -/
theorem exists_of_lines_eq_cons {cs l : List Char} {ls : List (List Char)}
    (h : lines cs = l :: ls) :
    ∃ gap rest, cs = l ++ (gap ++ rest) ∧ lines rest = ls ∧ ∀ c ∈ gap, isLineBreak c := by
  fun_induction lines cs generalizing l with
  | case1 => cases h
  | case2 cs =>
    obtain ⟨rfl, rfl⟩ := List.cons.inj h
    exact ⟨['\r', '\n'], cs, rfl, rfl, by simp [isLineBreak]⟩
  | case3 c cs _ hc =>
    obtain ⟨rfl, rfl⟩ := List.cons.inj h
    exact ⟨[c], cs, rfl, rfl, by simpa using hc⟩
  | case4 c cs _ hc ih =>
    rcases hlines : lines cs with _ | ⟨first, others⟩ <;> rw [hlines] at h ih <;>
      obtain ⟨rfl, rfl⟩ := List.cons.inj h
    · exact ⟨[], [], by rw [lines_eq_nil_iff.1 hlines]; rfl, rfl, by simp⟩
    · obtain ⟨gap, rest, hcs, hrest, hgap⟩ := ih rfl
      exact ⟨gap, rest, by rw [hcs, List.cons_append], hrest, hgap⟩

/-! ## A newline at the end -/

theorem prepend_append (c : Char) {ls : List (List Char)} (hls : ls ≠ []) (ms : List (List Char)) :
    prepend c (ls ++ ms) = prepend c ls ++ ms := by
  cases ls with
  | nil => exact absurd rfl hls
  | cons l ls => rfl

theorem lines_concat_newline (cs : List Char) :
    lines (cs ++ ['\n']) = lines cs ∨ lines (cs ++ ['\n']) = lines cs ++ [[]] := by
  fun_induction lines cs with
  | case1 => exact .inr rfl
  | case2 cs ih =>
    have hbreak : lines ('\r' :: '\n' :: cs ++ ['\n']) = [] :: lines (cs ++ ['\n']) := rfl
    rw [hbreak]
    exact ih.imp (congrArg ([] :: ·)) (congrArg ([] :: ·))
  | case3 c cs hreturn hc ih =>
    cases cs with
    | nil =>
      -- Only after a carriage return is the newline part of the break.
      by_cases hcr : c = '\r'
      · subst hcr
        exact .inl rfl
      · exact .inr (lines_cons_of_isLineBreak hc fun h => absurd h hcr)
    | cons d ds =>
      have hbreak : lines (c :: d :: ds ++ ['\n']) = [] :: lines (d :: ds ++ ['\n']) := by
        refine lines_cons_of_isLineBreak hc fun hcr hd => hreturn ds hcr ?_
        rw [Option.some.inj hd]
      rw [hbreak]
      exact ih.imp (congrArg ([] :: ·)) (congrArg ([] :: ·))
  | case4 c cs _ hc ih =>
    rw [List.cons_append, lines_cons_of_not_isLineBreak hc]
    rcases ih with ih | ih
    · exact .inl (congrArg (prepend c) ih)
    · by_cases hnil : lines cs = []
      · rw [ih, hnil]
        exact .inl rfl
      · rw [ih, prepend_append c hnil]
        exact .inr rfl

/-! ## Other writings of the same lines -/

/-- **Plain newlines.** Writing every carriage return, with the newline after it if there is one, as
one newline leaves the lines as they are. -/
theorem lines_plainNewlines (cs : List Char) : lines (plainNewlines cs) = lines cs := by
  fun_induction plainNewlines cs with
  | case1 => rfl
  | case2 cs ih =>
    rw [lines_newline, ih]
    rfl
  | case3 c cs hreturn ih =>
    by_cases hc : c = '\r'
    · have hnext : c = '\r' → cs.head? ≠ some '\n' := by
        intro _ hhead
        obtain ⟨rest, rfl⟩ := List.head?_eq_some_iff.1 hhead
        exact hreturn rest hc rfl
      rw [if_pos hc, lines_newline, ih, lines_cons_of_isLineBreak (hc ▸ rfl) hnext]
    · rw [if_neg hc]
      by_cases hbreak : isLineBreak c
      · rw [lines_cons_of_isLineBreak hbreak fun h => absurd h hc,
          lines_cons_of_isLineBreak hbreak fun h => absurd h hc, ih]
      · rw [lines_cons_of_not_isLineBreak hbreak, lines_cons_of_not_isLineBreak hbreak, ih]

theorem lines_intercalate_concat {l : List Char} {ls : List (List Char)}
    (hls : ∀ m ∈ l :: ls, ∀ c ∈ m, ¬ isLineBreak c) :
    lines (['\n'].intercalate (l :: ls) ++ ['\n']) = l :: ls := by
  induction ls generalizing l with
  | nil =>
    rw [List.intercalate_singleton]
    exact lines_append_newline (hls l (by simp)) []
  | cons m ls ih =>
    have hrest := ih fun n hn => hls n (List.mem_cons_of_mem l hn)
    rw [List.intercalate_cons_cons, List.append_assoc, List.append_assoc]
    exact (lines_append_newline (hls l (by simp)) _).trans (congrArg (l :: ·) hrest)

end Text

/-! ## Scripts -/

namespace Script

theorem ofLines_concat_nil (number : Nat) (ls : List (List Char)) :
    ofLines number (ls ++ [[]]) = ofLines number ls := by
  induction ls generalizing number with
  | nil => rfl
  | cons l ls ih => simp only [List.cons_append, ofLines, ih]

theorem ofLines_lines_concat (number : Nat) (cs : List Char) :
    ofLines number (Text.lines (cs ++ ['\n'])) = ofLines number (Text.lines cs) := by
  rcases Text.lines_concat_newline cs with h | h
  · rw [h]
  · rw [h, ofLines_concat_nil]

/-- The script of a text is that of its physical lines. -/
theorem ofText_eq (text : String) : ofText text = ofLines 1 (Text.lines text.toList) := by
  unfold ofText Text.closed
  split_ifs
  · rfl
  · exact ofLines_lines_concat 1 text.toList

theorem ofText_plainNewlines (text : String) :
    ofText (String.ofList (Text.plainNewlines text.toList)) = ofText text := by
  rw [ofText_eq, ofText_eq, String.toList_ofList, Text.lines_plainNewlines]

theorem ofText_intercalate {lines : List String}
    (hlines : ∀ line ∈ lines, ∀ c ∈ line.toList, ¬ Text.isLineBreak c) :
    ofText ("\n".intercalate lines) = ofLines 1 (lines.map String.toList) := by
  rw [ofText_eq, String.toList_intercalate, ← ofLines_lines_concat]
  cases lines with
  | nil => rfl
  | cons line lines =>
    refine congrArg (ofLines 1) (Text.lines_intercalate_concat ?_)
    intro m hm
    rw [← List.map_cons] at hm
    obtain ⟨line', hline', rfl⟩ := List.mem_map.1 hm
    exact hlines line' hline'

end Script

end Calculator
