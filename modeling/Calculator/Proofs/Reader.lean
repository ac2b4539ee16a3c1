import Mathlib.Tactic.Common
import Calculator.Line.Reading

/-!
# The reader and the tokens of lines

The reader accepts exactly the token lists of lines, each with the line they belong to.

1. A state of the reader holds tokens in order (`Reading.tokens`), and a step adds the token it
   reads (`tokens_step?`); so what is read in full are the tokens of the line (`tokens_steps?`).
2. From a state in which an operand is wanted, the tokens of an operand lead to the state that holds
   it (`steps?_operand`), and those of a formula to one that holds its pieces (`steps?_formula`).
3. Hence reading and `Line.tokens` are inverse to each other (`Line.ofTokens_eq_ok`), and no two
   lines have the same tokens (`Line.tokens_injective`).
-/

namespace Calculator

/-! ## The tokens of a state -/

def Level.signTokens (l : Level) : List Token :=
  l.signs.reverse.map fun pos => ⟨.operator .subtract, pos⟩

def Level.linkTokens (l : Level) : List Token :=
  l.links.reverse.flatMap fun (v, op, pos) => v.tokens ++ [⟨.operator op, pos⟩]

def Level.tokens (l : Level) : List Token := l.linkTokens ++ l.signTokens

def Target.tokens? : Option Target → List Token
  | some t => t.tokens
  | none => []

/-- The tokens before the operand of the innermost level and its signs. -/
def Context.tokens (ctx : Context) : List Token :=
  Target.tokens? ctx.target ++
    ctx.outer.reverse.flatMap (fun (opened, l) => l.tokens ++ [⟨.opening, opened⟩]) ++
    ctx.level.linkTokens

def Reading.tokens : Reading → List Token
  | start => []
  | firstName n pos => [⟨.name n, pos⟩]
  | wanting ctx => ctx.tokens ++ ctx.level.signTokens
  | holding ctx v => ctx.tokens ++ v.tokens
  | finished line => line.tokens

theorem Line.tokens_formula (target : Option Target) (body : Formula) (stop : Nat) :
    (Line.formula target body stop).tokens =
      Target.tokens? target ++ body.tokens ++ [⟨.newline, stop⟩] := by
  cases target <;> rfl

@[simp] theorem Level.linkTokens_addLink (l : Level) (v : Operand) (op : Operator) (pos : Nat) :
    (l.addLink v op pos).linkTokens = l.linkTokens ++ v.tokens ++ [⟨.operator op, pos⟩] := by
  simp [Level.linkTokens, Level.addLink]

@[simp] theorem Level.signTokens_addLink (l : Level) (v : Operand) (op : Operator) (pos : Nat) :
    (l.addLink v op pos).signTokens = [] := rfl

@[simp] theorem Level.tokens_sign (l : Level) (v : Operand) :
    (l.sign v).tokens = l.signTokens ++ v.tokens := by
  obtain ⟨links, signs⟩ := l
  simp only [Level.sign, Level.signTokens]
  induction signs generalizing v with
  | nil => rfl
  | cons pos signs ih => simp [ih, Operand.tokens]

@[simp] theorem Level.tokens_formula (l : Level) (v : Operand) :
    (l.formula v).tokens = l.linkTokens ++ v.tokens := by
  obtain ⟨links, signs⟩ := l
  simp only [Level.formula, Level.linkTokens]
  suffices ∀ f : Formula, (links.foldl (fun f (u, op, pos) => .chain u op pos f) f).tokens =
      links.reverse.flatMap (fun (v, op, pos) => v.tokens ++ [⟨.operator op, pos⟩]) ++ f.tokens from
    this (.single v)
  intro f
  induction links generalizing f with
  | nil => rfl
  | cons link links ih => simp [ih, Formula.tokens]

namespace Context

theorem tokens_supply (ctx : Context) (v : Operand) :
    (ctx.supply v).tokens = ctx.tokens ++ ctx.level.signTokens ++ v.tokens := by
  simp [supply, Reading.tokens, tokens, Level.linkTokens]

theorem tokens_begin? {ctx : Context} {t : Token} {s : Reading} (h : ctx.begin? t = some s) :
    s.tokens = ctx.tokens ++ ctx.level.signTokens ++ [t] := by
  obtain ⟨lexeme, start⟩ := t
  unfold begin? at h
  split at h <;> cases h
  · simp_all [tokens_supply, Operand.tokens]
  · simp_all [tokens_supply, Operand.tokens]
  · simp_all [Reading.tokens, tokens, Level.addSign, Level.signTokens, Level.linkTokens]
  · simp_all [Reading.tokens, tokens, Level.tokens, Level.empty, Level.signTokens, Level.linkTokens]

theorem tokens_continue? {ctx : Context} {v : Operand} {t : Token} {s : Reading}
    (h : ctx.continue? v t = some s) : s.tokens = ctx.tokens ++ v.tokens ++ [t] := by
  obtain ⟨lexeme, start⟩ := t
  unfold continue? at h
  split at h <;> cases h
  · simp_all [Reading.tokens, tokens]
  · simp_all [tokens_supply, tokens, Operand.tokens, Level.tokens]
  · simp_all [Reading.tokens, tokens, Line.tokens_formula]

end Context

namespace Reading

theorem tokens_step? {s s' : Reading} {t : Token} (h : s.step? t = some s') :
    s'.tokens = s.tokens ++ [t] := by
  cases s with
  | start =>
    simp only [step?] at h
    split at h
    · next hlexeme => cases h; simp [tokens, Line.tokens, ← hlexeme]
    · next hlexeme => cases h; simp [tokens, ← hlexeme]
    · exact Context.tokens_begin? h
  | firstName n pos =>
    simp only [step?] at h
    split at h
    · next hlexeme =>
      cases h
      simp [tokens, Context.tokens, Context.empty, Target.tokens?, Target.tokens,
        Level.empty, Level.linkTokens, Level.signTokens, ← hlexeme]
    · exact Context.tokens_continue? h
  | wanting ctx => exact Context.tokens_begin? h
  | holding ctx v => exact Context.tokens_continue? h
  | finished line => cases h

/-! ## Runs -/

/-- Reads all tokens on, as long as each may come next. -/
def steps? (s : Reading) (ts : List Token) : Option Reading := ts.foldlM step? s

theorem steps?_append (s : Reading) (ts us : List Token) :
    s.steps? (ts ++ us) = (s.steps? ts).bind fun s' => s'.steps? us := List.foldlM_append

theorem steps?_cons (s : Reading) (t : Token) (ts : List Token) :
    s.steps? (t :: ts) = (s.step? t).bind fun s' => s'.steps? ts := List.foldlM_cons

theorem tokens_steps? {s s' : Reading} {ts : List Token} (h : s.steps? ts = some s') :
    s'.tokens = s.tokens ++ ts := by
  induction ts generalizing s with
  | nil =>
    cases h
    rw [List.append_nil]
  | cons t ts ih =>
    rw [steps?_cons, Option.bind_eq_some_iff] at h
    obtain ⟨next, hstep, hsteps⟩ := h
    rw [ih hsteps, tokens_step? hstep, List.append_assoc, List.singleton_append]

theorem run_eq_ok {s : Reading} {previous : Option Token} {stray : Option Stray} {ts : List Token}
    {line : Line} :
    s.run previous stray ts = .ok line ↔ stray = none ∧ s.steps? ts = some (.finished line) := by
  induction ts generalizing s previous with
  | nil => cases stray <;> cases s <;> simp [run, steps?]
  | cons t ts ih =>
    rw [run, steps?_cons]
    cases s.step? t with
    | none => simp
    | some next => exact ih

/-! ## Reading a line back -/

mutual

/-- The tokens of an operand supply it, whatever was read before. -/
theorem steps?_operand : ∀ (v : Operand) (ctx : Context),
    (wanting ctx).steps? v.tokens = some (ctx.supply v)
  | .number _ _, _ => rfl
  | .name _ _, _ => rfl
  | .negated pos inner, ctx => by
    rw [Operand.tokens, steps?_cons]
    exact steps?_operand inner { ctx with level := ctx.level.addSign pos }
  | .grouped opened inner closed, ctx => by
    let inside : Context := { ctx with outer := (opened, ctx.level) :: ctx.outer, level := .empty }
    have hopen : (wanting ctx).step? ⟨.opening, opened⟩ = some (wanting inside) := rfl
    obtain ⟨ctx', v, hsteps, htarget, houter, hformula⟩ := steps?_formula inner inside rfl
    have hclose : (holding ctx' v).step? ⟨.closing, closed⟩ =
        some (ctx.supply (.grouped opened inner closed)) := by
      simp only [step?, Context.continue?, houter, hformula, Context.supply, htarget]
      rfl
    rw [Operand.tokens, steps?_cons, hopen, Option.bind_some, steps?_append, hsteps,
      Option.bind_some, steps?_cons, hclose]
    rfl

/-- The tokens of a formula lead to the state that holds its pieces, after those of the level. -/
theorem steps?_formula : ∀ (f : Formula) (ctx : Context), ctx.level.signs = [] →
    ∃ ctx' v, (wanting ctx).steps? f.tokens = some (holding ctx' v) ∧ ctx'.target = ctx.target ∧
      ctx'.outer = ctx.outer ∧
      ctx'.level.formula v = ctx.level.links.foldl (fun f (u, op, pos) => .chain u op pos f) f
  | .single v, ctx, hsigns => by
    refine ⟨{ ctx with level := { ctx.level with signs := [] } }, v, ?_, rfl, rfl, rfl⟩
    rw [Formula.tokens, steps?_operand, Context.supply, Level.sign, hsigns]
    rfl
  | .chain v op pos rest, ctx, hsigns => by
    have hoperand : (wanting ctx).steps? v.tokens = some (holding ctx v) := by
      rw [steps?_operand, Context.supply, Level.sign, hsigns, List.foldl_nil, ← hsigns]
    obtain ⟨ctx', u, hsteps, htarget, houter, hformula⟩ :=
      steps?_formula rest { ctx with level := ctx.level.addLink v op pos } rfl
    refine ⟨ctx', u, ?_, htarget, houter, hformula⟩
    rw [Formula.tokens, steps?_append, hoperand, Option.bind_some, steps?_cons]
    exact hsteps

end

/-- A line that begins with a name is read as if an operand were wanted, unless an equals sign
follows. -/
theorem steps?_start {ts : List Token} {line : Line}
    (h : (wanting .empty).steps? ts = some (finished line)) :
    start.steps? ts = some (finished line) := by
  cases ts with
  | nil => cases h
  | cons t ts =>
    rw [steps?_cons] at h ⊢
    rcases t with ⟨lexeme, pos⟩
    cases lexeme with
    | name n =>
      -- both states hold the name, but only the first would take an equals sign
      cases ts with
      | nil => cases h
      | cons u us =>
        rcases u with ⟨lexeme, pos'⟩
        cases lexeme with
        | equal => cases h
        | _ => exact h
    | newline => cases h
    | equal => cases h
    | closing => cases h
    | _ => exact h

theorem steps?_body (body : Formula) (target : Option Target) (stop : Nat) :
    (wanting ⟨target, [], .empty⟩).steps? (body.tokens ++ [⟨.newline, stop⟩]) =
      some (finished (.formula target body stop)) := by
  obtain ⟨ctx', v, hsteps, htarget, houter, hformula⟩ :=
    steps?_formula body ⟨target, [], .empty⟩ rfl
  have hstop : (holding ctx' v).step? ⟨.newline, stop⟩ =
      some (finished (.formula target body stop)) := by
    simp only [step?, Context.continue?, houter, hformula, htarget]
    rfl
  rw [steps?_append, hsteps, Option.bind_some, steps?_cons, hstop]
  rfl

theorem steps?_line (line : Line) : start.steps? line.tokens = some (finished line) := by
  match line with
  | .blank stop => rfl
  | .formula none body stop => exact steps?_start (steps?_body body none stop)
  | .formula (some t) body stop =>
    have htarget : start.steps? t.tokens = some (wanting ⟨some t, [], .empty⟩) := rfl
    rw [Line.tokens_formula, List.append_assoc, Target.tokens?, steps?_append, htarget,
      Option.bind_some, steps?_body]

end Reading

/-- **Reading a line.** Exactly the tokens of a line are read as that line. -/
theorem Line.ofTokens_eq_ok {ts : Tokens} {line : Line} :
    Line.ofTokens ts = .ok line ↔ ts.stray = none ∧ line.tokens = ts.list := by
  rw [Line.ofTokens, Reading.run_eq_ok]
  refine and_congr_right fun _ => ⟨fun h => ?_, fun h => h ▸ Reading.steps?_line line⟩
  rw [← List.nil_append ts.list]
  exact Reading.tokens_steps? h

/-- No two lines have the same tokens. -/
theorem Line.tokens_injective {line line' : Line} (h : line.tokens = line'.tokens) :
    line = line' := by
  have hline := Reading.steps?_line line
  rw [h, Reading.steps?_line line'] at hline
  cases hline
  rfl

end Calculator
