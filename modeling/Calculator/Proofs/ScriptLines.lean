import Mathlib.Data.List.DropRight
import Calculator.Proofs.Margins
import Calculator.Proofs.PhysicalLines

/-!
# The lines that a script keeps

Which physical lines of a text a script keeps, under which numbers, and what becomes of them when a
text is put below another.

1. The physical lines of a text can be told without cutting it from the left: they have no break
   inside, and after each comes one break, which may be missing at the end of the text
   (`Text.BreaksInto`). There is one such list of lines (`Text.breaksInto_iff`).
2. A text that ends in a newline keeps its lines whatever is put below it
   (`Text.BreaksInto.append`).
3. A script keeps the lines that are not idle, without the blanks at their ends, under their numbers
   (`Script.mem_ofLines`), which grow by the count of the lines above (`Script.ofLines_append`).
-/

namespace Calculator

namespace Text

/-! ## Lines and breaks -/

/-- One line break: a single character, or a carriage return and the newline after it. -/
def IsBreak (gap : List Char) : Prop := gap = ['\r', '\n'] ∨ ∃ c, isLineBreak c ∧ gap = [c]

/-- The text consists of the lines and of one break after each. The last line may do without a break
if it is not empty. -/
inductive BreaksInto : List Char → List (List Char) → Prop where
  | nothing : BreaksInto [] []
  | last {l} : l ≠ [] → (∀ c ∈ l, ¬ isLineBreak c) → BreaksInto l [l]
  | line {l gap rest ls} : (∀ c ∈ l, ¬ isLineBreak c) → IsBreak gap →
      -- a carriage return and the newline after it are not two breaks
      (gap = ['\r'] → rest.head? ≠ some '\n') →
      BreaksInto rest ls → BreaksInto (l ++ (gap ++ rest)) (l :: ls)

theorem lines_of_not_isLineBreak {l : List Char} (hne : l ≠ []) (hl : ∀ c ∈ l, ¬ isLineBreak c) :
    lines l = [l] := by
  induction l with
  | nil => exact absurd rfl hne
  | cons c cs ih =>
    obtain ⟨hc, hcs⟩ := List.forall_mem_cons.1 hl
    rw [lines_cons_of_not_isLineBreak hc]
    cases cs with
    | nil => rfl
    | cons d ds => rw [ih (List.cons_ne_nil d ds) hcs, prepend]

theorem lines_append_of_isBreak {gap rest : List Char} (hgap : IsBreak gap)
    (hreturn : gap = ['\r'] → rest.head? ≠ some '\n') : lines (gap ++ rest) = [] :: lines rest := by
  rcases hgap with rfl | ⟨c, hc, rfl⟩
  · rfl
  · refine lines_cons_of_isLineBreak hc fun h => hreturn ?_
    rw [h]

theorem BreaksInto.cons {c : Char} {cs : List Char} {ls : List (List Char)}
    (hc : ¬ isLineBreak c) (h : BreaksInto cs ls) : BreaksInto (c :: cs) (prepend c ls) := by
  cases h with
  | nothing => exact .last (by simp) (by simpa using hc)
  | last _ hl => exact .last (by simp) (List.forall_mem_cons.2 ⟨hc, hl⟩)
  | line hl hgap hreturn hrest => exact .line (List.forall_mem_cons.2 ⟨hc, hl⟩) hgap hreturn hrest

/-- **Physical lines.** A text is cut into the only lines of which it can consist. -/
theorem breaksInto_iff {cs : List Char} {ls : List (List Char)} :
    BreaksInto cs ls ↔ lines cs = ls := by
  constructor
  · intro h
    induction h with
    | nothing => rfl
    | last hne hl => exact lines_of_not_isLineBreak hne hl
    | line hl hgap hreturn _ ih =>
      rw [lines_append_of_lines_eq hl (lines_append_of_isBreak hgap hreturn), ih]
  · rintro rfl
    fun_induction lines cs with
    | case1 => exact .nothing
    | case2 cs ih => exact @BreaksInto.line [] ['\r', '\n'] _ _ (by simp) (.inl rfl) (by simp) ih
    | case3 c cs hreturn hc ih =>
      refine @BreaksInto.line [] [c] _ _ (by simp) (.inr ⟨c, hc, rfl⟩) (fun hgap hhead => ?_) ih
      obtain ⟨rest, rfl⟩ := List.head?_eq_some_iff.1 hhead
      exact hreturn rest (List.cons.inj hgap).1 rfl
    | case4 c cs _ hc ih => exact ih.cons hc

/-- What is put below a newline begins with a line of its own. -/
theorem BreaksInto.append {cs ds : List Char} {ls ms : List (List Char)} (h : BreaksInto cs ls)
    (hlast : cs.getLast? = some '\n') (hbelow : BreaksInto ds ms) :
    BreaksInto (cs ++ ds) (ls ++ ms) := by
  induction h with
  | nothing => cases hlast
  | last _ hl => exact absurd rfl (hl '\n' (List.mem_of_getLast? hlast))
  | @line l gap rest ls hl hgap hreturn hrest ih =>
    rw [← List.append_assoc, List.getLast?_append] at hlast
    rw [List.append_assoc, List.append_assoc]
    cases rest with
    | nil =>
      obtain rfl : [] = ls := breaksInto_iff.1 hrest
      refine .line hl hgap ?_ hbelow
      rintro rfl
      simp at hlast
    | cons c cs =>
      refine .line hl hgap hreturn (ih ?_)
      simpa [List.getLast?_cons] using hlast

theorem lines_append_newline_append (cs ds : List Char) :
    lines (cs ++ '\n' :: ds) = lines (cs ++ ['\n']) ++ lines ds := by
  have habove : BreaksInto (cs ++ ['\n']) _ := breaksInto_iff.2 rfl
  have hboth := habove.append List.getLast?_concat (breaksInto_iff.2 rfl : BreaksInto ds _)
  rw [List.append_assoc, List.singleton_append] at hboth
  exact breaksInto_iff.1 hboth

/-! ## Blanks at the ends -/

theorem trimEnd_trimEnd (cs : List Char) : trimEnd (trimEnd cs) = trimEnd cs :=
  List.rdropWhile_idempotent isBlank cs

theorem trimStart_trim (cs : List Char) : trimStart (trim cs) = trim cs := by
  refine List.dropWhile_eq_self_iff.2 fun hpos => ?_
  -- what is left begins like the text without the blanks before it
  have hstart : trim cs <+: trimStart cs := List.rdropWhile_prefix isBlank _
  rw [hstart.getElem hpos]
  exact List.dropWhile_get_zero_not isBlank cs _

theorem trim_trim (cs : List Char) : trim (trim cs) = trim cs := by
  rw [trim, trimStart_trim, trim, trimEnd_trimEnd]

end Text

/-! ## Scripts -/

namespace Script

/-- The lines of a script once there are so many lines above them. -/
def below (above : Nat) (script : Script) : Script :=
  script.map fun line => { line with number := above + line.number }

theorem isIdle_eq_false_iff {line : List Char} :
    isIdle line = false ↔ line ≠ [] ∧ line.head? ≠ some '#' := by
  simp [isIdle]

theorem mem_ofLines {line : ScriptLine} {number : Nat} {ls : List (List Char)} :
    line ∈ ofLines number ls ↔
      ∃ i l, ls[i]? = some l ∧ isIdle (Text.trim l) = false ∧
        line = ⟨number + i, String.ofList (Text.trim l)⟩ := by
  induction ls generalizing number with
  | nil => simp [ofLines]
  | cons l ls ih =>
    have hstep : line ∈ ofLines number (l :: ls) ↔
        (isIdle (Text.trim l) = false ∧ line = ⟨number, String.ofList (Text.trim l)⟩) ∨
          line ∈ ofLines (number + 1) ls := by
      rw [ofLines]
      split_ifs with hidle <;> simp [hidle]
    rw [hstep, ih]
    constructor
    · rintro (⟨hl, hline⟩ | ⟨i, m, hm, hidle, hline⟩)
      · exact ⟨0, l, rfl, hl, hline⟩
      · exact ⟨i + 1, m, hm, hidle, by rw [hline, Nat.add_assoc, Nat.add_comm 1]⟩
    · rintro ⟨_ | i, m, hm, hidle, hline⟩
      · cases hm
        exact .inl ⟨hidle, hline⟩
      · exact .inr ⟨i, m, hm, hidle, by rw [hline, Nat.add_assoc, Nat.add_comm 1]⟩

theorem pairwise_ofLines (number : Nat) (ls : List (List Char)) :
    (ofLines number ls).Pairwise fun line line' => line.number < line'.number := by
  induction ls generalizing number with
  | nil => exact .nil
  | cons l ls ih =>
    rw [ofLines]
    split_ifs
    · exact ih (number + 1)
    · refine List.pairwise_cons.2 ⟨fun line hline => ?_, ih (number + 1)⟩
      obtain ⟨i, m, -, -, rfl⟩ := mem_ofLines.1 hline
      show number < number + 1 + i
      omega

theorem ofLines_add (above number : Nat) (ls : List (List Char)) :
    ofLines (above + number) ls = below above (ofLines number ls) := by
  induction ls generalizing number with
  | nil => rfl
  | cons l ls ih =>
    rw [ofLines, ofLines, Nat.add_assoc, ih]
    split_ifs <;> rfl

theorem ofLines_append (number : Nat) (ls ms : List (List Char)) :
    ofLines number (ls ++ ms) = ofLines number ls ++ ofLines (ls.length + number) ms := by
  induction ls generalizing number with
  | nil => rw [List.length_nil, Nat.zero_add]; rfl
  | cons l ls ih =>
    rw [List.cons_append, ofLines, ofLines, ih, List.length_cons, Nat.add_assoc ls.length,
      Nat.add_comm 1]
    split_ifs <;> rfl

theorem ofText_append_newline_append (a b : String) :
    ofText (a ++ "\n" ++ b) =
      ofText a ++ below (Text.lines (a ++ "\n").toList).length (ofText b) := by
  have hjoined : (a ++ "\n" ++ b).toList = a.toList ++ '\n' :: b.toList := by simp
  have habove : (a ++ "\n").toList = a.toList ++ ['\n'] := by simp
  rw [ofText_eq, ofText_eq, ofText_eq, hjoined, habove, Text.lines_append_newline_append,
    ofLines_append, ofLines_lines_concat, ofLines_add]

end Script

/-- **Kept lines.** The physical lines of a text are the only lines without breaks of which, with
one break after each, the text can consist. A script has, in strictly ascending order of their
numbers, which count from one, exactly those of them that are neither empty nor a comment without
the blanks at their ends, and it has them in this form, with no blanks at the ends and no break
inside. The script of a text that is put below another on a new line follows the script of the
other, and all its numbers grow by the count of the physical lines above. -/
theorem script_keeps_numbered_lines :
    (∀ cs ls, Text.BreaksInto cs ls ↔ Text.lines cs = ls) ∧
    (∀ (text : String) (line : ScriptLine), line ∈ Script.ofText text ↔
      ∃ i raw, (Text.lines text.toList)[i]? = some raw ∧ line.number = i + 1 ∧
        line.text.toList = Text.trim raw ∧ Text.trim raw ≠ [] ∧
        (Text.trim raw).head? ≠ some '#') ∧
    (∀ text, (Script.ofText text).Pairwise fun line line' => line.number < line'.number) ∧
    (∀ text, ∀ line ∈ Script.ofText text, Text.trimmed line.text = line.text ∧
      ∀ c ∈ line.text.toList, ¬ Text.isLineBreak c) ∧
    ∀ a b, Script.ofText (a ++ "\n" ++ b) = Script.ofText a ++
      Script.below (Text.lines (a ++ "\n").toList).length (Script.ofText b) := by
  refine ⟨fun cs ls => Text.breaksInto_iff, fun text line => ?_, fun text => ?_,
    fun text line hline => ?_, Script.ofText_append_newline_append⟩
  · rw [Script.ofText_eq, Script.mem_ofLines]
    constructor
    · rintro ⟨i, raw, hraw, hidle, rfl⟩
      exact ⟨i, raw, hraw, Nat.add_comm _ _, String.toList_ofList,
        Script.isIdle_eq_false_iff.1 hidle⟩
    · rintro ⟨i, raw, hraw, hnumber, htext, hkept⟩
      refine ⟨i, raw, hraw, Script.isIdle_eq_false_iff.2 hkept, ?_⟩
      rw [← htext, String.ofList_toList, Nat.add_comm, ← hnumber]
  · rw [Script.ofText_eq]
    exact Script.pairwise_ofLines 1 _
  · rw [Script.ofText_eq] at hline
    obtain ⟨i, raw, hraw, -, rfl⟩ := Script.mem_ofLines.1 hline
    refine ⟨?_, fun c hc => ?_⟩
    · rw [Text.trimmed, String.toList_ofList, Text.trim_trim]
    · rw [String.toList_ofList] at hc
      exact Text.not_isLineBreak_of_mem_lines (List.mem_of_getElem? hraw) c
        (Text.mem_of_mem_trim hc)

/-- Above stand a number, a carriage return, a blank line and a comment, and the text below begins
with a line feed. The newline in between belongs to the break after the comment. -/
theorem script_keeps_numbered_lines_return :
    let a := "1\r\n \x0c#c\r"
    let b := "\n\t2 "
    (⟨2, "2"⟩ : ScriptLine) ∈ Script.ofText b ∧ Text.trimmed "2" = "2" ∧
      (∀ c ∈ "2".toList, ¬ Text.isLineBreak c) ∧
      Script.ofText (a ++ "\n" ++ b) =
        Script.ofText a ++ Script.below (Text.lines (a ++ "\n").toList).length (Script.ofText b) ∧
      Script.ofText a = [⟨1, "1"⟩] ∧ Script.ofText (a ++ "\n" ++ b) = [⟨1, "1"⟩, ⟨5, "2"⟩] := by
  intro a b
  obtain ⟨-, -, -, hkept, hbelow⟩ := script_keeps_numbered_lines
  have hline : (⟨2, "2"⟩ : ScriptLine) ∈ Script.ofText b := by decide
  obtain ⟨htrimmed, hbreaks⟩ := hkept b _ hline
  exact ⟨hline, htrimmed, hbreaks, hbelow a b, by decide, by decide⟩

end Calculator
