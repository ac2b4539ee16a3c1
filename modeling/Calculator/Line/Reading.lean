import Calculator.Line
import Calculator.Line.Rejection

/-!
# Reading a line

A line is read token by token. The state of the reader says which tokens may come next, and holds
the pieces of the line that are complete; a token that may not come next rejects the line.
-/

namespace Calculator

/-- One nesting level of a formula that is being read. -/
structure Level where
  /-- Complete operands, each with the operator after it and its position; the last one first. -/
  links : List (Operand × Operator × Nat)
  /-- Minus signs that wait for their operand, the innermost first. -/
  signs : List Nat

def Level.empty : Level := ⟨[], []⟩

/-- A further minus sign. -/
def Level.addSign (l : Level) (pos : Nat) : Level := { l with signs := pos :: l.signs }

/-- An operand and the operator after it. -/
def Level.addLink (l : Level) (v : Operand) (op : Operator) (pos : Nat) : Level :=
  ⟨(v, op, pos) :: l.links, []⟩

/-- An operand under the minus signs that waited for it. -/
def Level.sign (l : Level) (v : Operand) : Operand := l.signs.foldl (fun v pos => .negated pos v) v

/-- The formula of a level, given its last operand. -/
def Level.formula (l : Level) (v : Operand) : Formula :=
  l.links.foldl (fun f (u, op, pos) => .chain u op pos f) (.single v)

structure Context where
  target : Option Target
  /-- The open parentheses with the levels around them, the innermost first. -/
  outer : List (Nat × Level)
  level : Level

def Context.empty : Context := ⟨none, [], .empty⟩

/-- States of the reader. -/
inductive Reading where
  | start
  /-- The line begins with a name, which may turn out to be a target. -/
  | firstName (name : String) (start : Nat)
  /-- An operand has to follow. -/
  | wanting (ctx : Context)
  /-- An operand has just ended. -/
  | holding (ctx : Context) (last : Operand)
  | finished (line : Line)

namespace Context

/-- Takes in an operand that is complete but for the minus signs before it. -/
def supply (ctx : Context) (v : Operand) : Reading :=
  .holding { ctx with level := { ctx.level with signs := [] } } (ctx.level.sign v)

/-- What may follow where an operand is wanted. -/
def begin? (ctx : Context) (t : Token) : Option Reading :=
  match t.lexeme with
  | .digits ds => some (ctx.supply (.number ds t.start))
  | .name n => some (ctx.supply (.name n t.start))
  | .operator .subtract => some (.wanting { ctx with level := ctx.level.addSign t.start })
  | .opening =>
    some (.wanting { ctx with outer := (t.start, ctx.level) :: ctx.outer, level := .empty })
  | _ => none

/-- What may follow an operand. -/
def continue? (ctx : Context) (v : Operand) (t : Token) : Option Reading :=
  match t.lexeme, ctx.outer with
  | .operator op, _ => some (.wanting { ctx with level := ctx.level.addLink v op t.start })
  | .closing, (opened, level) :: outer =>
    let group := .grouped opened (ctx.level.formula v) t.start
    some (supply { ctx with outer := outer, level := level } group)
  | .newline, [] => some (.finished (.formula ctx.target (ctx.level.formula v) t.start))
  | _, _ => none

end Context

namespace Reading

/-- Reads one token on, if it may come next. -/
def step? (s : Reading) (t : Token) : Option Reading :=
  match s with
  | start =>
    match t.lexeme with
    | .newline => some (finished (.blank t.start))
    | .name n => some (firstName n t.start)
    | _ => Context.empty.begin? t
  | firstName n pos =>
    match t.lexeme with
    | .equal => some (wanting { Context.empty with target := some ⟨n, pos, t.start⟩ })
    | _ => Context.empty.continue? (.name n pos) t
  | wanting ctx => ctx.begin? t
  | holding ctx v => ctx.continue? v t
  | finished _ => none

/-- Classes that begin an operand. -/
def beginsOperand : Terminal → Bool
  | .digits | .name | .opening | .operator .subtract => true
  | _ => false

def isOperator : Terminal → Bool
  | .operator _ => true
  | _ => false

/-- The classes of tokens that may come next. -/
def expects : Reading → Terminal → Bool
  | start, t => beginsOperand t || t = .newline
  | firstName _ _, t => isOperator t || t = .equal || t = .newline
  | wanting _, t => beginsOperand t
  | holding ctx _, t => isOperator t || if ctx.outer.isEmpty then t = .newline else t = .closing
  | finished _, t => t = .finish

/-- The classes of lexemes looked for next: as `expects`, but after an operand without a count of
parentheses. -/
def looksFor (s : Reading) (t : Terminal) : Bool :=
  match s with
  | holding _ _ => isOperator t || t = .closing || t = .newline
  | _ => s.expects t

/-- Why a token may not come next. -/
def reject (s : Reading) (t : Token) (previous : Option Token) : Rejection :=
  match s, t.lexeme with
  | holding _ _, .closing => .unopened t.start
  | holding _ _, .newline => .unclosed t.start
  | _, _ => .unexpected t (Terminal.list s.expects) previous

/-- Reads the remaining tokens; `previous` is the token read last. -/
def run (s : Reading) (previous : Option Token) (stray : Option Stray) :
    List Token → Except Rejection Line
  | [] =>
    match stray, s with
    | some found, _ => .error (.stray found (Terminal.list s.looksFor) previous)
    | none, finished line => .ok line
    | none, _ =>
      .error (.unfinished (previous.elim 0 Token.start) (Terminal.list s.expects) previous)
  | t :: ts =>
    match s.step? t with
    | some next => next.run (some t) stray ts
    | none => .error (s.reject t previous)

end Reading

/-- The line that consists of exactly these tokens. -/
def Line.ofTokens (ts : Tokens) : Except Rejection Line := Reading.start.run none ts.stray ts.list

def Line.ofText (text : String) : Except Rejection Line := Line.ofTokens (Tokens.ofText text)

end Calculator
