import Mathlib.Data.List.Basic
import Calculator.Proofs.Building

/-!
# Writing and reading

The text of a statement is read as the statement.

1. A lexeme that stands in a text is its first longest word, if what comes after it does not go on
   with it (`munch_text`). Only numbers and names could go on, and in the text of a statement none
   of them stands before another.
2. So what is written for an operand or a formula is cut up into its own tokens, up to positions,
   and into those of the text after it (`cutsInto_operand`, `cutsInto_formula`).
3. Every well-formed statement is written so (`exists_formula`), and accepted texts have well-formed
   statements, so both are read back (`Statement.round_trip`).
-/

namespace Calculator

/-! ## Words in a text -/

/-- Lexemes that further characters could belong to. -/
def Lexeme.isOpen : Lexeme → Bool
  | digits _ | name _ => true
  | _ => false

/-- The text does not go on with a number or a name. -/
def IsBoundary (cs : List Char) : Prop := ∀ c ∈ cs.head?, ¬ isNamePart c

theorem exists_char_of_not_isOpen {l : Lexeme} (h : l.isOpen = false) :
    ∃ c, Lexeme.ofChar? c = some l := by
  cases l with
  | digits text => cases h
  | name text => cases h
  | operator op => exact ⟨op.symbol, by cases op <;> rfl⟩
  | equal => exact ⟨'=', rfl⟩
  | opening => exact ⟨'(', rfl⟩
  | closing => exact ⟨')', rfl⟩
  | newline => exact ⟨'\n', rfl⟩

theorem isNamePart_of_ofChar? {c : Char} {l : Lexeme} (h : Lexeme.ofChar? c = some l) :
    isNamePart c = false := by
  unfold Lexeme.ofChar? at h
  split at h <;> cases h <;> rfl

theorem isBoundary_text {l : Lexeme} (hl : l.isOpen = false) (rest : List Char) :
    IsBoundary (l.text.toList ++ rest) := by
  obtain ⟨c, hc⟩ := exists_char_of_not_isOpen hl
  rw [(text_of_ofChar? hc).2.1]
  intro d hd
  cases hd
  simp [isNamePart_of_ofChar? hc]

theorem munch_text {l : Lexeme} {rest : List Char} (hl : l.isProper)
    (hrest : l.isOpen → IsBoundary rest) : Munch (l.text.toList ++ rest) l.text.toList rest := by
  cases hopen : l.isOpen with
  | false =>
    obtain ⟨c, hc⟩ := exists_char_of_not_isOpen hopen
    obtain ⟨-, htext, hcontinuation⟩ := text_of_ofChar? hc
    rw [htext]
    exact munch_append hcontinuation (by simp) (by simp)
  | true =>
    have hboundary := hrest hopen
    cases l with
    | digits text =>
      obtain ⟨c, cs, htext, hc, hcs⟩ := isDigits_iff.1 hl
      rw [Lexeme.text, htext]
      refine munch_append (continuation?_of_isDigit hc) hcs fun d hd hdigit => ?_
      exact hboundary d hd (by simp [isNamePart, hdigit])
    | name text =>
      obtain ⟨c, cs, htext, hc, hcs⟩ := isName_iff.1 hl
      rw [Lexeme.text, htext]
      exact munch_append (continuation?_of_isNameStart hc) hcs hboundary
    | operator op => cases hopen
    | equal => cases hopen
    | opening => cases hopen
    | closing => cases hopen
    | newline => cases hopen

theorem isProper_of_not_isOpen {l : Lexeme} (h : l.isOpen = false) : l.isProper := by
  obtain ⟨c, hc⟩ := exists_char_of_not_isOpen h
  exact (text_of_ofChar? hc).1

/-- No lexeme begins with a separator. -/
theorem not_isSeparator_of_mem_head? {l : Lexeme} (hl : l.isProper) :
    ∀ c ∈ l.text.toList.head?, ¬ isSeparator c := by
  intro c hc hseparator
  have hmunch : Munch (l.text.toList ++ []) l.text.toList [] :=
    munch_text hl fun _ => by simp [IsBoundary]
  obtain ⟨word, hword⟩ := List.head?_eq_some_iff.1 hc
  have hcs : l.text.toList ++ [] = c :: word := by rw [hword, List.append_nil]
  have hignored := (Tokens.ofHead?_of_munch (hcs ▸ hmunch) hl).2
  rw [(Tokens.ignoredLength_eq_zero.1 hignored).2] at hseparator
  cases hseparator

/-! ## Cutting up -/

/-- From any position, the text is cut up into tokens of which `U` holds. -/
def CutsInto (cs : List Char) (U : List Token → Prop) : Prop :=
  ∀ pos, ∃ ts, Tokenises pos cs ts ∧ U ts

theorem CutsInto.mono {cs : List Char} {U V : List Token → Prop} (h : CutsInto cs U)
    (hUV : ∀ ts, U ts → V ts) : CutsInto cs V := by
  intro pos
  obtain ⟨ts, hts, hU⟩ := h pos
  exact ⟨ts, hts, hUV ts hU⟩

theorem cutsInto_nil : CutsInto [] fun ts => ts = [] := fun _ => ⟨[], .done, rfl⟩

theorem CutsInto.lexeme {l : Lexeme} {rest : List Char} {U : List Token → Prop} (hl : l.isProper)
    (hrest : l.isOpen → IsBoundary rest) (h : CutsInto rest U) :
    CutsInto (l.text.toList ++ rest) fun ts => ∃ pos us, ts = ⟨l, pos⟩ :: us ∧ U us := by
  intro pos
  obtain ⟨us, hus, hU⟩ := h (pos + l.text.toList.length)
  exact ⟨_, .lexeme (munch_text hl hrest) hl hus, pos, us, rfl, hU⟩

theorem CutsInto.mark (l : Lexeme) {rest : List Char} {U : List Token → Prop}
    (hl : l.isOpen = false) (h : CutsInto rest U) :
    CutsInto (l.text.toList ++ rest) fun ts => ∃ pos us, ts = ⟨l, pos⟩ :: us ∧ U us :=
  h.lexeme (isProper_of_not_isOpen hl) fun hopen => nomatch hl.symm.trans hopen

theorem CutsInto.blank {rest : List Char} {U : List Token → Prop}
    (hrest : ∀ c ∈ rest.head?, ¬ isSeparator c) (h : CutsInto rest U) :
    CutsInto (' ' :: rest) U := by
  intro pos
  obtain ⟨ts, hts, hU⟩ := h (pos + 1)
  have hmunch : Munch (' ' :: ([] ++ rest)) [' '] rest := munch_append rfl (by simp) hrest
  exact ⟨ts, .ignored hmunch rfl hts, hU⟩

mutual

theorem cutsInto_operand : ∀ (v : Operand) {rest : List Char} {U : List Token → Prop}, v.IsProper →
    IsBoundary rest → CutsInto rest U → CutsInto (spelled v.tokens ++ rest) fun ts =>
      ∃ w us, ts = Operand.tokens w ++ us ∧ w.node = v.node ∧ U us
  | .number digits start, rest, U, hv, hrest, h => by
    rw [Operand.tokens, spelled_cons, List.append_assoc]
    refine (h.lexeme (hv _ (List.mem_singleton.2 rfl)) fun _ => hrest).mono ?_
    rintro _ ⟨pos, us, rfl, hU⟩
    exact ⟨.number digits pos, us, rfl, rfl, hU⟩
  | .name n start, rest, U, hv, hrest, h => by
    rw [Operand.tokens, spelled_cons, List.append_assoc]
    refine (h.lexeme (hv _ (List.mem_singleton.2 rfl)) fun _ => hrest).mono ?_
    rintro _ ⟨pos, us, rfl, hU⟩
    exact ⟨.name n pos, us, rfl, rfl, hU⟩
  | .negated sign inner, rest, U, hv, hrest, h => by
    rw [Operand.tokens, spelled_cons, List.append_assoc]
    refine ((cutsInto_operand inner hv.of_negated hrest h).mark (.operator .subtract) rfl).mono ?_
    rintro _ ⟨pos, _, rfl, w, us, rfl, hnode, hU⟩
    exact ⟨.negated pos w, us, rfl, congrArg Node.negation hnode, hU⟩
  | .grouped opened inner closed, rest, U, hv, hrest, h => by
    have hclosing : IsBoundary (Lexeme.closing.text.toList ++ rest) := isBoundary_text rfl rest
    have hinner := cutsInto_formula inner hv.of_grouped hclosing (h.mark .closing rfl)
    rw [Operand.tokens, spelled_cons, spelled_append, spelled_singleton, List.append_assoc,
      List.append_assoc]
    refine (hinner.mark .opening rfl).mono ?_
    rintro _ ⟨pos, _, rfl, g, _, rfl, hslots, pos', us, rfl, hU⟩
    refine ⟨.grouped pos g pos', us, by simp [Operand.tokens], ?_, hU⟩
    rw [Operand.node, hslots, Operand.node]

theorem cutsInto_formula : ∀ (f : Formula) {rest : List Char} {U : List Token → Prop}, f.IsProper →
    IsBoundary rest → CutsInto rest U → CutsInto (spelled f.tokens ++ rest) fun ts =>
      ∃ g us, ts = Formula.tokens g ++ us ∧ g.slots = f.slots ∧ U us
  | .single v, rest, U, hf, hrest, h => by
    refine (cutsInto_operand v hf hrest h).mono ?_
    rintro _ ⟨w, us, rfl, hnode, hU⟩
    exact ⟨.single w, us, rfl, by rw [Formula.slots, hnode, Formula.slots], hU⟩
  | .chain v op start after, rest, U, hf, hrest, h => by
    have hafter := (cutsInto_formula after hf.rest hrest h).mark (.operator op) rfl
    have hoperator := isBoundary_text (l := .operator op) rfl (spelled after.tokens ++ rest)
    rw [Formula.tokens, spelled_append, spelled_cons, List.append_assoc, List.append_assoc]
    refine (cutsInto_operand v hf.first hoperator hafter).mono ?_
    rintro _ ⟨w, _, rfl, hnode, pos, _, rfl, g, us, rfl, hslots, hU⟩
    refine ⟨.chain w op pos g, us, by simp [Formula.tokens], ?_, hU⟩
    rw [Formula.slots, hnode, hslots, Formula.slots]

end

/-- A formula and a newline are cut up into the tokens of such a formula and a newline. -/
theorem cutsInto_body {f : Formula} (hf : f.IsProper) :
    CutsInto (spelled f.tokens ++ ['\n']) fun ts =>
      ∃ g stop, ts = Formula.tokens g ++ [⟨.newline, stop⟩] ∧ g.slots = f.slots := by
  have hnewline := cutsInto_nil.mark .newline rfl
  refine (cutsInto_formula f hf (isBoundary_text (l := .newline) rfl []) hnewline).mono ?_
  rintro _ ⟨g, _, rfl, hslots, stop, _, rfl, rfl⟩
  exact ⟨g, stop, rfl, hslots⟩

theorem not_isSeparator_of_body {f : Formula} (hf : f.IsProper) :
    ∀ c ∈ (spelled f.tokens ++ ['\n']).head?, ¬ isSeparator c := by
  cases htokens : f.tokens with
  | nil => simp [spelled, isSeparator]
  | cons t ts =>
    have ht : t.lexeme.isProper := hf t (by simp [htokens])
    have hne : t.lexeme.text.toList ≠ [] := IsWord.ne_nil (.inr ⟨_, ht, rfl⟩)
    intro c hc
    rw [spelled_cons, List.append_assoc, List.head?_append_of_ne_nil _ hne] at hc
    exact not_isSeparator_of_mem_head? ht c hc

/-! ## Reading back -/

theorem not_mem_newline_spelled {f : Formula} (hf : f.IsProper) : '\n' ∉ spelled f.tokens := by
  intro hmem
  obtain ⟨t, ht, hmem⟩ := List.mem_flatMap.1 hmem
  have hcount := count_newline_text (hf t ht)
  rw [List.count_singleton, if_neg (by simpa using ne_newline_of_mem_formula f t ht)] at hcount
  exact List.count_eq_zero.1 hcount hmem

theorem not_mem_newline_name {n : String} (hn : isName n.toList) : '\n' ∉ n.toList :=
  List.count_eq_zero.1 (count_newline_text (l := .name n) hn)

theorem closed_of_not_mem {cs : List Char} (h : '\n' ∉ cs) : Text.closed cs = cs ++ ['\n'] :=
  if_neg fun hlast => h (List.mem_of_getLast? hlast)

theorem closed_append {cs : List Char} (h : cs.getLast? ≠ some '\n') (back : List Char) :
    Text.closed (cs ++ back) = cs ++ Text.closed back := by
  cases back with
  | nil =>
    rw [List.append_nil]
    exact if_neg h
  | cons c back =>
    unfold Text.closed
    rw [List.getLast?_append_cons, List.append_assoc]
    split_ifs <;> rfl

theorem ofText_formula {text : String} {f : Formula} (hf : f.IsProper)
    (htext : text.toList = spelled f.tokens) :
    ∃ g stop, Line.ofText text = .ok (.formula none g stop) ∧ g.slots = f.slots := by
  obtain ⟨_, hts, g, stop, rfl, hslots⟩ := cutsInto_body hf 0
  refine ⟨g, stop, Line.ofText_eq_ok.2 ?_, hslots⟩
  rw [htext, closed_of_not_mem (not_mem_newline_spelled hf)]
  exact hts

theorem ofText_assignment {text n : String} {f : Formula} (hn : isName n.toList) (hf : f.IsProper)
    (htext : text.toList = n.toList ++ [' ', '=', ' '] ++ spelled f.tokens) :
    ∃ t g stop, Line.ofText text = .ok (.formula (some t) g stop) ∧ t.name = n ∧
      g.slots = f.slots := by
  have hequal := ((cutsInto_body hf).blank (not_isSeparator_of_body hf)).mark .equal rfl
  have hblank : ∀ c ∈ (Lexeme.equal.text.toList ++ (' ' :: (spelled f.tokens ++ ['\n']))).head?,
      ¬ isSeparator c := by
    intro c hc
    cases hc
    decide
  have hboundary : IsBoundary (' ' :: (Lexeme.equal.text.toList ++
      (' ' :: (spelled f.tokens ++ ['\n'])))) := by
    intro c hc
    cases hc
    decide
  obtain ⟨_, hts, start, _, rfl, pos, _, rfl, g, stop, rfl, hslots⟩ :=
    (hequal.blank hblank).lexeme (l := .name n) hn (fun _ => hboundary) 0
  refine ⟨⟨n, start, pos⟩, g, stop, Line.ofText_eq_ok.2 ?_, rfl, hslots⟩
  rw [htext, closed_of_not_mem]
  · simpa [Lexeme.text, Line.tokens, Target.tokens] using hts
  · simp [not_mem_newline_name hn, not_mem_newline_spelled hf]

namespace Statement

/-- Statements that can be written: a name or nothing on the left, on the right slots that
alternate, and no more depth than lines may have. -/
structure WellFormed (s : Statement) : Prop where
  target : s.target = .hole ∨ ∃ n, isName n.toList ∧ s.target = .identifier n
  body : ∃ slots, Node.alternates slots ∧ s.body = .expression slots
  depth : s.body.depth ≤ Node.depthLimit

/-- A line whose formula builds the body of the statement gives the statement. -/
theorem ofText_eq {text : String} {s : Statement} {target : Option Target} {g : Formula}
    {stop : Nat} (hline : Line.ofText text = .ok (.formula target g stop))
    (htarget : Target.node? target = s.target) (hbody : g.node = s.body)
    (hdepth : s.body.depth ≤ Node.depthLimit) :
    ofText text = .ok (some s) := by
  rw [← hbody, g.depth_node] at hdepth
  rw [ofText_of_line hline, if_neg (by omega), htarget, hbody]

theorem WellFormed.ofText_text {s : Statement} (h : s.WellFormed) :
    ofText s.text = .ok (some s) := by
  obtain ⟨target, body⟩ := s
  obtain ⟨htarget, ⟨slots, hslots, hbody⟩, hdepth⟩ := h
  obtain rfl : body = .expression slots := hbody
  obtain ⟨f, hf, rfl, hspelled⟩ := exists_formula slots hslots
  rcases htarget with htarget | ⟨n, hn, htarget⟩
  · obtain rfl : target = .hole := htarget
    have htext : (text ⟨.hole, .expression f.slots⟩).toList = spelled f.tokens := by
      rw [hspelled]
      exact String.toList_ofList
    obtain ⟨g, stop, hline, hg⟩ := ofText_formula hf htext
    exact ofText_eq hline rfl (congrArg Node.expression hg) hdepth
  · obtain rfl : target = .identifier n := htarget
    have htext : (text ⟨.identifier n, .expression f.slots⟩).toList =
        n.toList ++ [' ', '=', ' '] ++ spelled f.tokens := by
      rw [hspelled]
      exact String.toList_ofList
    obtain ⟨t, g, stop, hline, rfl, hg⟩ := ofText_assignment hn hf htext
    exact ofText_eq hline rfl (congrArg Node.expression hg) hdepth

/-- The statement of an accepted text is well-formed. -/
theorem wellFormed_of_line {text : String} {target : Option Target} {body : Formula} {stop : Nat}
    (hline : Line.ofText text = .ok (.formula target body stop))
    (hdepth : body.depth ≤ Node.depthLimit) :
    WellFormed ⟨Target.node? target, body.node⟩ where
  target := by
    cases target with
    | none => exact .inl rfl
    | some t => exact .inr ⟨t.name, Target.isName_of_ofText hline, rfl⟩
  body := ⟨body.slots, alternates_slots body (Formula.isProper_of_ofText hline), rfl⟩
  depth := by rwa [body.depth_node]

/-- **Round trip.** The text of a well-formed statement is read as that statement, and every
accepted text that is not blank or too deep has a statement that is read back from its own text. -/
theorem round_trip :
    (∀ s : Statement, s.WellFormed → ofText s.text = .ok (some s)) ∧
    (∀ text target body stop, Line.ofText text = .ok (.formula target body stop) →
      body.depth ≤ Node.depthLimit →
      ∃ s, ofText text = .ok (some s) ∧ s.WellFormed ∧ ofText s.text = .ok (some s)) := by
  refine ⟨fun s h => h.ofText_text, fun text target body stop hline hdepth => ?_⟩
  have hwellFormed := wellFormed_of_line hline hdepth
  refine ⟨_, ofText_eq hline rfl rfl hwellFormed.depth, hwellFormed, hwellFormed.ofText_text⟩

/-- `a = 1--(-b)`: a minus sign after an operator, and one after a parenthesis. -/
theorem round_trip_signs :
    ∃ s : Statement, s.WellFormed ∧ s.text = "a = 1--(-b)" ∧
      ofText "a = 1--(-b)" = .ok (some s) := by
  have hwellFormed : WellFormed ⟨.identifier "a", .expression [.literal 1,
      .operator (.known .subtract),
      .negation (.parenthetical (.expression [.negation (.identifier "b")]))]⟩ :=
    ⟨.inr ⟨"a", by decide, rfl⟩, ⟨_, by decide, rfl⟩, by decide⟩
  have htext : text ⟨.identifier "a", .expression [.literal 1, .operator (.known .subtract),
      .negation (.parenthetical (.expression [.negation (.identifier "b")]))]⟩ = "a = 1--(-b)" := by
    decide +kernel
  have hread := round_trip.1 _ hwellFormed
  rw [htext] at hread
  exact ⟨_, hwellFormed, htext, hread⟩

end Statement

end Calculator
