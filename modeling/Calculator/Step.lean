import Calculator.Decimal
import Calculator.Operator
import Calculator.Table

/-!
# Steps

What happens on the way to the value of a line, and computations that tell their steps.
-/

namespace Calculator

inductive Step where
  | lookup (name : String) (value : Int)
  /-- The group in the given slot of its expression has a value. -/
  | group (index : Nat) (value : Int)
  | operation (op : Operator) (index : Nat) (lhs rhs result : Int)
  | assignment (name : String) (value : Int)
  deriving DecidableEq, Repr

namespace Step

def rule : Step → String
  | lookup _ _ => "IDENT"
  | group _ _ => "GROUP"
  | operation op _ _ _ _ => op.tag
  | assignment _ _ => "ASSIGN"

/-- What a step is about, with its numbers in short form. -/
def detail : Step → Table String
  | lookup name value => [("name", name), ("result", Decimal.short value)]
  | group index value => [("index", Decimal.short index), ("result", Decimal.short value)]
  | operation _ index lhs rhs result =>
    [("index", Decimal.short index), ("lhs", Decimal.short lhs), ("rhs", Decimal.short rhs),
      ("result", Decimal.short result)]
  | assignment name value => [("name", name), ("result", Decimal.short value)]

end Step

/-- The result of a computation, and the steps it took until it ended or failed. -/
structure Traced (ε α : Type) where
  steps : List Step
  result : Except ε α

namespace Traced

variable {ε α β : Type}

instance : Monad (Traced ε) where
  pure a := ⟨[], .ok a⟩
  bind x f :=
    match x.result with
    | .error e => ⟨x.steps, .error e⟩
    | .ok a => ⟨x.steps ++ (f a).steps, (f a).result⟩

def fail (e : ε) : Traced ε α := ⟨[], .error e⟩

def emit (s : Step) : Traced ε Unit := ⟨[s], .ok ()⟩

def lift (x : Except ε α) : Traced ε α := ⟨[], x⟩

def mapError {δ : Type} (f : ε → δ) (x : Traced ε α) : Traced δ α := ⟨x.steps, x.result.mapError f⟩

theorem pure_def (a : α) : (pure a : Traced ε α) = ⟨[], .ok a⟩ := rfl

theorem bind_ok (steps : List Step) (a : α) (f : α → Traced ε β) :
    ((⟨steps, .ok a⟩ : Traced ε α) >>= f) = ⟨steps ++ (f a).steps, (f a).result⟩ := rfl

theorem bind_error (steps : List Step) (e : ε) (f : α → Traced ε β) :
    ((⟨steps, .error e⟩ : Traced ε α) >>= f) = ⟨steps, .error e⟩ := rfl

instance : LawfulMonad (Traced ε) := LawfulMonad.mk' _
  (by rintro _ ⟨s, _ | a⟩
      · rfl
      · simp [Functor.map])
  (by intro _ _ a f; simp [pure_def, bind_ok])
  (by rintro _ _ _ ⟨s, _ | a⟩ f g
      · rfl
      · rcases h : f a with ⟨t, _ | b⟩ <;> simp [bind_ok, bind_error, h])

end Traced

end Calculator
