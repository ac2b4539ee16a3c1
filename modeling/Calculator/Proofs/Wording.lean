import Mathlib.Data.List.Basic
import Mathlib.Data.List.TakeWhile
import Calculator.Line.Rejection

/-!
# The wording of rejections

What a description of a rejection is made of: the excerpt, a newline and the message, of which only
the last newline goes (`Rejection.describe_append_newline`). The line and the column in the message
are counted in the text before the place (`Rejection.place_append`).
-/

namespace Calculator

/-! ## Places -/

theorem take_of_closed {cs front rest : List Char} (h : Text.closed cs = front ++ rest)
    (hrest : rest ≠ []) : cs.take front.length = front := by
  unfold Text.closed at h
  split_ifs at h with hlast
  · rw [h, List.take_left]
  · have hdrop := congrArg List.dropLast h
    rw [List.dropLast_concat, List.dropLast_append_of_ne_nil hrest] at hdrop
    rw [hdrop, List.take_left]

/-- A text is whole lines and the beginning of one more. -/
theorem exists_own_line (cs : List Char) : ∃ above own, cs = above ++ own ∧ '\n' ∉ own ∧
    ∀ c ∈ above.getLast?, c = '\n' := by
  refine ⟨(cs.reverse.dropWhile (· ≠ '\n')).reverse, (cs.reverse.takeWhile (· ≠ '\n')).reverse,
    ?_, ?_, ?_⟩
  · rw [← List.reverse_append, List.takeWhile_append_dropWhile, List.reverse_reverse]
  · intro hmem
    have := List.mem_takeWhile_imp (List.mem_reverse.1 hmem)
    simp at this
  · intro c hc
    rw [List.getLast?_reverse] at hc
    have := List.head?_dropWhile_not (· ≠ '\n') cs.reverse
    rw [hc] at this
    simpa using this

namespace Rejection

variable {cs above own : List Char}

theorem lineNumber_append (hcs : cs.take (above ++ own).length = above ++ own)
    (hown : '\n' ∉ own) : lineNumber cs (above ++ own).length = above.count '\n' + 1 := by
  rw [lineNumber, hcs, List.count_append, List.count_eq_zero.2 hown, Nat.add_zero]

theorem column_append (hcs : cs.take (above ++ own).length = above ++ own) (hown : '\n' ∉ own)
    (habove : ∀ c ∈ above.getLast?, c = '\n') :
    column cs (above ++ own).length = own.length + 1 := by
  have hafter : above.reverse.takeWhile (· ≠ '\n') = [] := by
    rcases habove' : above.reverse with _ | ⟨c, rest⟩
    · rfl
    · have hc : c = '\n' := habove c (by rw [← List.head?_reverse, habove']; rfl)
      exact List.takeWhile_cons_of_neg (by simp [hc])
  have hline : ∀ c ∈ own.reverse, decide (c ≠ '\n') := by
    intro c hc
    refine decide_eq_true fun h => hown ?_
    rw [← h]
    exact List.mem_reverse.1 hc
  rw [column, beforeOnLine, hcs, List.reverse_append, List.takeWhile_append_of_pos hline, hafter,
    List.append_nil, List.reverse_reverse]

/-- The line and the column of a place, before which there are the lines `above` and the beginning
`own` of one more. -/
theorem place_append {rest : List Char} (h : Text.closed cs = above ++ own ++ rest)
    (hrest : rest ≠ []) (hown : '\n' ∉ own) (habove : ∀ c ∈ above.getLast?, c = '\n') :
    lineNumber cs (above ++ own).length = above.count '\n' + 1 ∧
      column cs (above ++ own).length = own.length + 1 := by
  have htake := take_of_closed h hrest
  exact ⟨lineNumber_append htake hown, column_append htake hown habove⟩

end Rejection

/-! ## Texts that end plainly -/

/-- The last character is there, and it is no blank. -/
def endsVisibly (cs : List Char) : Bool := cs.getLast?.any fun c => !Text.isBlank c

theorem endsVisibly_iff {cs : List Char} :
    endsVisibly cs ↔ ∃ init c, cs = init ++ [c] ∧ Text.isBlank c = false := by
  simp only [endsVisibly, Option.any_eq_true, List.getLast?_eq_some_iff, Bool.not_eq_true']
  constructor
  · rintro ⟨c, ⟨init, hcs⟩, hblank⟩
    exact ⟨init, c, hcs, hblank⟩
  · rintro ⟨init, c, hcs, hblank⟩
    exact ⟨c, ⟨init, hcs⟩, hblank⟩

theorem endsVisibly_append {cs : List Char} (h : endsVisibly cs) (before : List Char) :
    endsVisibly (before ++ cs) := by
  obtain ⟨init, c, rfl, hblank⟩ := endsVisibly_iff.1 h
  exact endsVisibly_iff.2 ⟨before ++ init, c, (List.append_assoc _ _ _).symm, hblank⟩

theorem trimEnd_concat_newline {cs : List Char} (h : endsVisibly cs) :
    Text.trimEnd (cs ++ ['\n']) = cs := by
  obtain ⟨init, c, rfl, hblank⟩ := endsVisibly_iff.1 h
  simp only [Text.trimEnd, List.reverse_append, List.reverse_cons, List.reverse_nil,
    List.nil_append, List.singleton_append]
  rw [List.dropWhile_cons_of_pos rfl, List.dropWhile_cons_of_neg (by simp [hblank]),
    List.reverse_cons, List.reverse_reverse]

/-- The text ends in a newline, with no other blank before it. -/
def EndsPlainly (text : String) : Prop := ∃ front, text = front ++ "\n" ∧ endsVisibly front.toList

theorem EndsPlainly.append {text : String} (h : EndsPlainly text) (before : String) :
    EndsPlainly (before ++ text) := by
  obtain ⟨front, rfl, hfront⟩ := h
  refine ⟨before ++ front, String.append_assoc.symm, ?_⟩
  rw [String.toList_append]
  exact endsVisibly_append hfront before.toList

namespace Rejection

theorem describe_append_newline {text : String} {r : Rejection}
    (h : EndsPlainly (r.message text.toList)) :
    r.describe text ++ "\n" =
      String.ofList (excerpt text.toList r.start) ++ "\n" ++ r.message text.toList := by
  obtain ⟨front, hmessage, hfront⟩ := h
  have htrim := trimEnd_concat_newline
    (endsVisibly_append hfront (excerpt text.toList r.start ++ ['\n']))
  rw [List.append_assoc, List.append_assoc, List.singleton_append] at htrim
  have hlist : (r.message text.toList).toList = front.toList ++ ['\n'] := by
    rw [hmessage, String.toList_append]
    rfl
  rw [describe, hlist, htrim, hmessage]
  refine String.toList_injective ?_
  simp

/-! ## Messages -/

/-- The opening words of a rejection that is about a character. -/
def strayHeadline (cs : List Char) (c : Char) (start : Nat) : String :=
  "No terminal matches '" ++ c.toString ++ "' in the current parser context, at line " ++
    (lineNumber cs start).repr ++ " col " ++ (column cs start).repr ++ "\n\n"

/-- The closing words of a rejection that is about a character. -/
def showLast (previous : Option Token) : String :=
  match previous with
  | some t => "\nPrevious tokens: " ++ t.lexeme.shown ++ "\n"
  | none => ""

theorem message_stray (cs : List Char) (c : Char) (start : Nat) (expected : List Terminal)
    (previous : Option Token) :
    (stray ⟨c, start⟩ expected previous).message cs =
      strayHeadline cs c start ++ String.ofList (excerpt cs start) ++ "\n" ++
        showExpected (expected.map scanLabel) ++ showLast previous := rfl

theorem exists_message_stray (cs : List Char) (c : Char) (start : Nat) (expected : List Terminal)
    (previous : Option Token) :
    ∃ more, (stray ⟨c, start⟩ expected previous).message cs = strayHeadline cs c start ++ more := by
  refine ⟨String.ofList (excerpt cs start) ++
    ("\n" ++ (showExpected (expected.map scanLabel) ++ showLast previous)), ?_⟩
  rw [message_stray, ← String.append_assoc, ← String.append_assoc, ← String.append_assoc]

theorem endsPlainly_showExpected {label : Terminal → String}
    (hlabel : ∀ t, EndsPlainly (label t ++ "\n")) {listed : List Terminal} (h : listed ≠ []) :
    EndsPlainly (showExpected (listed.map label)) := by
  obtain ⟨init, last, rfl⟩ := (List.eq_nil_or_concat listed).resolve_left h
  have hlast : EndsPlainly ("\t* " ++ label last ++ "\n") := by
    rw [String.append_assoc]
    exact (hlabel last).append _
  have hjoin : ∀ line : String, String.join [line] = line := fun line => by
    rw [String.join_cons, String.join_nil, String.append_empty]
  unfold showExpected
  rw [List.concat_eq_append, List.map_append, List.map_append, List.map_singleton,
    List.map_singleton, String.join_append, hjoin]
  exact (hlast.append _).append _

theorem endsPlainly_label (t : Terminal) : EndsPlainly (t.label ++ "\n") := by
  refine ⟨t.label, rfl, ?_⟩
  cases t with
  | operator op => cases op <;> decide
  | _ => decide

theorem endsPlainly_scanLabel (t : Terminal) : EndsPlainly (scanLabel t ++ "\n") := by
  cases t with
  | finish => exact ⟨"<END-OF-FILE>", rfl, by decide⟩
  | _ => exact endsPlainly_label _

theorem endsPlainly_shown (l : Lexeme) : EndsPlainly (l.shown ++ "\n") := by
  have hclose : EndsPlainly (")" ++ "\n") := ⟨")", rfl, by decide⟩
  rw [Lexeme.shown, showToken, String.append_assoc]
  exact hclose.append _

theorem endsPlainly_showPrevious (previous : Option Token) :
    EndsPlainly (showPrevious previous) := by
  have hclose : EndsPlainly ("]\n") := ⟨"]", rfl, by decide⟩
  exact hclose.append _

theorem endsPlainly_append_showLast {text : String} (h : EndsPlainly text)
    (previous : Option Token) :
    EndsPlainly (text ++ showLast previous) := by
  cases previous with
  | none => exact (String.append_empty (s := text)).symm ▸ h
  | some t =>
    have hshown := (endsPlainly_shown t.lexeme).append "\nPrevious tokens: "
    rw [← String.append_assoc] at hshown
    exact hshown.append text

/-- Every message that lists at least one terminal ends plainly. -/
theorem endsPlainly_message (cs : List Char) {r : Rejection} (h : r.expected ≠ []) :
    EndsPlainly (r.message cs) := by
  cases r with
  | stray found expected previous =>
    rw [message_stray]
    have hlist := endsPlainly_showExpected endsPlainly_scanLabel h
    exact endsPlainly_append_showLast (hlist.append _) previous
  | unexpected found expected previous => exact (endsPlainly_showPrevious previous).append _
  | unopened start => exact (endsPlainly_showExpected endsPlainly_label h).append _
  | unclosed start => exact (endsPlainly_showExpected endsPlainly_label h).append _
  | unfinished start expected previous => exact (endsPlainly_showPrevious previous).append _

end Rejection

end Calculator
