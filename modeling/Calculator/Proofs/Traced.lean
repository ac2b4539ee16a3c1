import Mathlib.Tactic.Common
import Calculator.Reduction

/-!
# Reasoning on traced computations

Two ways to speak of a computation that tells its steps, each with a rule for sequencing.

* `x.Ends P E`: if `x` has a result then it satisfies `P`, and if `x` fails then its error satisfies
  `E`.
* `x.Tracks R y`: work on slots and work without slots take the same steps and come out alike, with
  results related by `R` or with the same fault.
-/

namespace Calculator

/-- Faults that speak of the shape of a node, which no line causes. -/
def Fault.isMalformed : Fault → Bool
  | malformed _ => true
  | _ => false

namespace Traced

variable {ε α β γ δ : Type}

theorem result_map (f : α → β) (x : Traced ε α) : (f <$> x).result = x.result.map f := by
  obtain ⟨_, _ | _⟩ := x <;> rfl

/-! ## How a computation ends -/

def Ends (x : Traced ε α) (P : α → Prop) (E : ε → Prop) : Prop :=
  match x.result with
  | .ok a => P a
  | .error e => E e

theorem Ends.bind {x : Traced ε α} {f : α → Traced ε β} {P : α → Prop} {Q : β → Prop}
    {E : ε → Prop} (hx : x.Ends P E) (hf : ∀ a, P a → (f a).Ends Q E) : (x >>= f).Ends Q E := by
  obtain ⟨steps, e | a⟩ := x
  · exact hx
  · exact hf a hx

theorem Ends.map {x : Traced ε α} {f : α → β} {P : α → Prop} {Q : β → Prop} {E : ε → Prop}
    (hx : x.Ends P E) (hf : ∀ a, P a → Q (f a)) : (f <$> x).Ends Q E := by
  obtain ⟨steps, e | a⟩ := x
  · exact hx
  · exact hf a hx

theorem Ends.mono {x : Traced ε α} {P Q : α → Prop} {E F : ε → Prop} (hx : x.Ends P E)
    (hP : ∀ a, P a → Q a) (hE : ∀ e, E e → F e) : x.Ends Q F := by
  obtain ⟨steps, e | a⟩ := x
  · exact hE e hx
  · exact hP a hx

theorem Ends.and {x : Traced ε α} {P Q : α → Prop} {E F : ε → Prop} (hx : x.Ends P E)
    (hx' : x.Ends Q F) : x.Ends (fun a => P a ∧ Q a) fun e => E e ∧ F e := by
  obtain ⟨steps, e | a⟩ := x <;> exact ⟨hx, hx'⟩

theorem Ends.ok {x : Traced ε α} {P : α → Prop} {E : ε → Prop} (hx : x.Ends P E) {a : α}
    (h : x.result = .ok a) : P a := by
  rwa [Ends, h] at hx

theorem Ends.error {x : Traced ε α} {P : α → Prop} {E : ε → Prop} (hx : x.Ends P E) {e : ε}
    (h : x.result = .error e) : E e := by
  rwa [Ends, h] at hx

theorem ends_true (x : Traced ε α) : x.Ends (fun _ => True) fun _ => True := by
  obtain ⟨steps, e | a⟩ := x <;> trivial

/-! ## Work on slots -/

/-- The work on slots takes the steps of the work without them, and either both have related results
or both stop with the same fault. -/
inductive Tracks (R : α → β → Prop) : Traced Halt α → Traced Fault β → Prop where
  | ok {steps a b} : R a b → Tracks R ⟨steps, .ok a⟩ ⟨steps, .ok b⟩
  | error {steps stop} : Tracks R ⟨steps, .error stop⟩ ⟨steps, .error stop.fault⟩

theorem Tracks.pure {R : α → β → Prop} {a : α} {b : β} (h : R a b) :
    Tracks R (Pure.pure a) (Pure.pure b) := .ok h

theorem Tracks.bind {R : α → β → Prop} {S : γ → δ → Prop} {x : Traced Halt α} {y : Traced Fault β}
    {f : α → Traced Halt γ} {g : β → Traced Fault δ} (hxy : Tracks R x y)
    (hfg : ∀ a b, R a b → Tracks S (f a) (g b)) : Tracks S (x >>= f) (y >>= g) := by
  cases hxy with
  | @ok steps a b hab =>
    rw [bind_ok, bind_ok]
    generalize hx : f a = x
    generalize hy : g b = y
    have htail := hfg a b hab
    rw [hx, hy] at htail
    cases htail with
    | ok h => exact .ok h
    | error => exact .error
  | error => exact .error

theorem Tracks.emit {R : Unit → Unit → Prop} (s : Step) (h : R () ()) :
    Tracks R (Traced.emit s) (Traced.emit s) := .ok h

theorem Tracks.mapError {R : α → α → Prop} (hR : ∀ a, R a a) (x : Traced Fault α)
    (slots : List Slot) : Tracks R (x.mapError fun fault => ⟨fault, slots⟩) x := by
  obtain ⟨steps, e | a⟩ := x
  · exact .error
  · exact .ok (hR a)

theorem Tracks.and {R : α → β → Prop} {P : β → Prop} {E : Fault → Prop} {x : Traced Halt α}
    {y : Traced Fault β} (h : Tracks R x y) (hy : y.Ends P E) :
    Tracks (fun a b => R a b ∧ P b) x y := by
  cases h with
  | ok hab => exact .ok ⟨hab, hy⟩
  | error => exact .error

end Traced

end Calculator
