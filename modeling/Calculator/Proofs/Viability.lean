import Calculator.Proofs.Grammar
import Calculator.Proofs.Reader

/-!
# Viable prefixes

Which tokens some line of the grammar begins with, and what may come next in it.

1. From every state of the reader some tokens lead to the end of a line: a missing operand is
   supplied, open parentheses are closed one by one, and a newline ends the line
   (`Reading.exists_completion`). So the reader gets over just the tokens that a line begins with
   (`isViable_iff`).
2. A state expects the terminals of the tokens that it can read (`Reading.isSome_step?`), hence
   exactly those that may come next (`Reading.expects_iff`).
-/

namespace Calculator

/-- Some line of the grammar begins with the tokens. -/
def IsViable (ts : List Token) : Prop := ∃ more trees, Derives .line (ts ++ more) trees

/-- The terminal may come next in a line of the grammar that begins with the tokens. After a whole
line this is the end of the input. -/
def CanFollow (ts : List Token) (t : Terminal) : Prop :=
  (∃ next : Token, next.lexeme.terminal = t ∧ IsViable (ts ++ [next])) ∨
    t = .finish ∧ ∃ trees, Derives .line ts trees

namespace Reading

/-! ## Completions -/

/-- All open parentheses are closed before the newline. -/
theorem exists_completion_holding (target : Option Target) (outer : List (Nat × Level)) :
    ∀ (level : Level) (v : Operand),
      ∃ more line, (holding ⟨target, outer, level⟩ v).steps? more = some (finished line) := by
  induction outer with
  | nil => exact fun level v => ⟨[⟨.newline, 0⟩], _, rfl⟩
  | cons opened outer ih =>
    intro level v
    let group : Operand := .grouped opened.1 (level.formula v) 0
    obtain ⟨more, line, hmore⟩ := ih { opened.2 with signs := [] } (opened.2.sign group)
    exact ⟨⟨.closing, 0⟩ :: more, line, hmore⟩

theorem exists_completion : ∀ s : Reading, ∃ more line, s.steps? more = some (finished line)
  | start => ⟨[⟨.newline, 0⟩], _, rfl⟩
  | firstName _ _ => ⟨[⟨.newline, 0⟩], _, rfl⟩
  | wanting ctx => by
    obtain ⟨more, line, hmore⟩ := exists_completion_holding ctx.target ctx.outer
      { ctx.level with signs := [] } (ctx.level.sign (.number "0" 0))
    exact ⟨⟨.digits "0", 0⟩ :: more, line, hmore⟩
  | holding ctx v => exists_completion_holding ctx.target ctx.outer ctx.level v
  | finished line => ⟨[], line, rfl⟩

end Reading

/-- What is read from the start on are the tokens of the line. -/
theorem derives_iff_steps? {ts : List Token} :
    (∃ trees, Derives .line ts trees) ↔
      ∃ line, Reading.start.steps? ts = some (.finished line) := by
  simp only [derives_line_iff]
  constructor
  · rintro ⟨trees, line, rfl, -⟩
    exact ⟨line, Reading.steps?_line line⟩
  · rintro ⟨line, hline⟩
    exact ⟨_, line, Reading.tokens_steps? hline, rfl⟩

/-- The reader gets over the tokens exactly if a line begins with them. -/
theorem isViable_iff {ts : List Token} : IsViable ts ↔ ∃ s, Reading.start.steps? ts = some s := by
  simp only [IsViable, derives_iff_steps?, Reading.steps?_append, Option.bind_eq_some_iff]
  constructor
  · rintro ⟨more, line, s, hs, -⟩
    exact ⟨s, hs⟩
  · rintro ⟨s, hs⟩
    obtain ⟨more, line, hmore⟩ := s.exists_completion
    exact ⟨more, line, s, hs, hmore⟩

/-! ## What may come next -/

/-- All terminals but the end of the input have lexemes. -/
theorem Terminal.exists_lexeme : ∀ t : Terminal, t ≠ .finish → ∃ l : Lexeme, l.terminal = t
  | .operator op, _ => ⟨.operator op, rfl⟩
  | .digits, _ => ⟨.digits "0", rfl⟩
  | .equal, _ => ⟨.equal, rfl⟩
  | .opening, _ => ⟨.opening, rfl⟩
  | .closing, _ => ⟨.closing, rfl⟩
  | .name, _ => ⟨.name "x", rfl⟩
  | .newline, _ => ⟨.newline, rfl⟩
  | .finish, h => absurd rfl h

namespace Reading

/-- A state reads just the tokens whose terminal it expects. -/
theorem isSome_step? (s : Reading) (t : Token) :
    (s.step? t).isSome = s.expects t.lexeme.terminal := by
  obtain ⟨lexeme, pos⟩ := t
  cases s with
  | start =>
    cases lexeme with
    | operator op => cases op <;> rfl
    | _ => rfl
  | firstName n start => cases lexeme <;> rfl
  | wanting ctx =>
    cases lexeme with
    | operator op => cases op <;> rfl
    | _ => rfl
  | holding ctx v =>
    obtain ⟨target, outer, level⟩ := ctx
    cases outer <;> cases lexeme <;> rfl
  | finished line => cases lexeme <;> rfl

/-- Only a whole line may be followed by the end of the input. -/
theorem expects_finish (s : Reading) : s.expects .finish ↔ ∃ line, s = finished line := by
  constructor
  · intro h
    cases s with
    | finished line => exact ⟨line, rfl⟩
    | holding ctx v =>
      obtain ⟨target, outer, level⟩ := ctx
      cases outer <;> exact absurd h Bool.false_ne_true
    | _ => exact absurd h Bool.false_ne_true
  · rintro ⟨line, rfl⟩
    rfl

/-- **Expected terminals.** Once it has read the tokens, the reader expects the terminals that may
come next in a line that begins with them. -/
theorem expects_iff {ts : List Token} {s : Reading} (hs : start.steps? ts = some s)
    (t : Terminal) : s.expects t ↔ CanFollow ts t := by
  have hnext : ∀ next : Token, IsViable (ts ++ [next]) ↔ s.expects next.lexeme.terminal := by
    intro next
    rw [isViable_iff, steps?_append, hs, Option.bind_some, ← isSome_step?,
      Option.isSome_iff_exists]
    refine exists_congr fun s' => ?_
    rw [steps?_cons, Option.bind_eq_some_iff]
    exact ⟨fun ⟨s'', hstep, heq⟩ => by cases heq; exact hstep, fun h => ⟨s', h, rfl⟩⟩
  have hfinish : (∃ trees, Derives .line ts trees) ↔ ∃ line, s = finished line := by
    rw [derives_iff_steps?, hs]
    simp only [Option.some.injEq]
  rw [CanFollow, hfinish, ← expects_finish]
  constructor
  · intro h
    by_cases ht : t = .finish
    · exact .inr ⟨ht, ht ▸ h⟩
    · obtain ⟨l, rfl⟩ := t.exists_lexeme ht
      exact .inl ⟨⟨l, 0⟩, rfl, (hnext _).2 h⟩
  · rintro (⟨next, rfl, hviable⟩ | ⟨rfl, h⟩)
    · exact (hnext next).1 hviable
    · exact h

/-- What is expected is also looked for. -/
theorem looksFor_of_expects {s : Reading} {t : Terminal} (h : s.expects t) : s.looksFor t := by
  cases s with
  | holding ctx v =>
    simp only [expects, Bool.or_eq_true] at h
    simp only [looksFor, Bool.or_eq_true, decide_eq_true_eq]
    rcases h with h | h
    · exact .inl (.inl h)
    · split_ifs at h with hempty
      · exact .inr (of_decide_eq_true h)
      · exact .inl (.inr (of_decide_eq_true h))
  | _ => exact h

end Reading

end Calculator
