import Calculator.Decimal
import Calculator.Text.Blank
import Calculator.Text.DecimalDigit

/-!
# Numerals

Texts that denote integers: decimal digits of any script, with single underscores between them if
there are any, after a sign or none, and with blanks around it all.

`read?` takes a long text a block at a time, each block as a numeral of its own, so that a long
numeral costs few large products. On plain digits the blocks do not show: `read?_digits` says that
the positional value comes out.
-/

namespace Calculator.Numeral

/-! ## One block -/

/-- Blanks that may surround a numeral; the four information separators are none of them. -/
def isMargin (c : Char) : Bool := Text.isBlank c && !('\x1c' ≤ c && c ≤ '\x1f')

def trim (cs : List Char) : List Char :=
  ((cs.dropWhile isMargin).reverse.dropWhile isMargin).reverse

/-- Reads on after digits of the value `n`. An underscore has to stand before a digit. -/
def digitsAfter? (n : Nat) : List Char → Option Nat
  | [] => some n
  | '_' :: c :: cs =>
    match Text.decimalDigit? c with
    | some d => digitsAfter? (10 * n + d) cs
    | none => none
  | c :: cs =>
    match Text.decimalDigit? c with
    | some d => digitsAfter? (10 * n + d) cs
    | none => none

/-- The value of a numeral without a sign, which begins with a digit. -/
def magnitude? : List Char → Option Nat
  | [] => none
  | c :: cs => (Text.decimalDigit? c).bind fun d => digitsAfter? d cs

def ofBlock? (cs : List Char) : Option Int :=
  match trim cs with
  | '-' :: ds => (magnitude? ds).map fun n => -(n : Int)
  | '+' :: ds => (magnitude? ds).map fun n => (n : Int)
  | ds => (magnitude? ds).map fun n => (n : Int)

/-! ## Plain digits -/

/-- Facts about the digits are facts about ten characters. -/
theorem exists_of_isDigit {c : Char} (h : c.isDigit) :
    ∃ n < 10, c = Char.ofNat ('0'.toNat + n) := by
  have h : '0'.toNat ≤ c.toNat ∧ c.toNat ≤ '9'.toNat := by
    simpa [Char.isDigit, UInt32.le_iff_toNat_le] using h
  refine ⟨c.toNat - '0'.toNat, ?_, ?_⟩
  · have : '0'.toNat + 9 = '9'.toNat := rfl
    omega
  · rw [Nat.add_sub_cancel' h.1, Char.ofNat_toNat]

theorem decimalDigit?_of_isDigit {c : Char} (h : c.isDigit) :
    Text.decimalDigit? c = some (Decimal.digit c) := by
  obtain ⟨n, hn, rfl⟩ := exists_of_isDigit h
  revert n
  decide

theorem isMargin_of_isDigit {c : Char} (h : c.isDigit) : isMargin c = false := by
  obtain ⟨n, hn, rfl⟩ := exists_of_isDigit h
  revert n
  decide

theorem dropWhile_isMargin {ds : List Char} (h : ∀ c ∈ ds, c.isDigit) :
    ds.dropWhile isMargin = ds := by
  cases ds with
  | nil => rfl
  | cons c cs => simp [isMargin_of_isDigit (h c (by simp))]

theorem trim_digits {ds : List Char} (h : ∀ c ∈ ds, c.isDigit) : trim ds = ds := by
  rw [trim, dropWhile_isMargin h, dropWhile_isMargin (by simpa using h), List.reverse_reverse]

theorem digitsAfter?_digits (n : Nat) {ds : List Char} (h : ∀ c ∈ ds, c.isDigit) :
    digitsAfter? n ds = some (ds.foldl (fun n c => 10 * n + Decimal.digit c) n) := by
  induction ds generalizing n with
  | nil => rfl
  | cons c cs ih =>
    have hc : c.isDigit := h c (by simp)
    have hne : c ≠ '_' := by
      rintro rfl
      exact absurd hc (by decide)
    rw [digitsAfter?.eq_3 _ _ _ (by simp [hne]), decimalDigit?_of_isDigit hc]
    exact ih _ fun d hd => h d (by simp [hd])

theorem ofBlock?_digits {ds : List Char} (h : ∀ c ∈ ds, c.isDigit) (hne : ds ≠ []) :
    ofBlock? ds = some (Decimal.value ds : Int) := by
  obtain ⟨c, cs, rfl⟩ := List.exists_cons_of_ne_nil hne
  have hc : c.isDigit := h c (by simp)
  have hminus : c ≠ '-' := by
    rintro rfl
    exact absurd hc (by decide)
  have hplus : c ≠ '+' := by
    rintro rfl
    exact absurd hc (by decide)
  have hcs : ∀ d ∈ cs, d.isDigit := fun d hd => h d (by simp [hd])
  simp [ofBlock?, trim_digits h, hminus, hplus, magnitude?, decimalDigit?_of_isDigit hc,
    digitsAfter?_digits _ hcs, Decimal.value]

/-! ## Blocks -/

/-- A text whose last characters are still gathered in a block. -/
structure Blocks where
  /-- What the characters before the block denote. -/
  total : Option Int
  /-- The last character first. -/
  block : List Char
  length : Nat

namespace Blocks

def start : Blocks := ⟨some 0, [], 0⟩

/-- The integer read so far: a block scales what stands before it by ten for every character. -/
def number? (b : Blocks) : Option Int := do
  let t ← b.total
  let n ← ofBlock? b.block.reverse
  pure (t * Decimal.scale b.length + n)

/-- Takes in one character. A full block is joined to what stands before it. -/
def next (b : Blocks) (c : Char) : Blocks :=
  if b.length = Decimal.blockLength then ⟨b.number?, [c], 1⟩
  else ⟨b.total, c :: b.block, b.length + 1⟩

/-- The digits that a state has taken in. -/
structure Holds (b : Blocks) (ds : List Char) : Prop where
  total : ∃ front, ds = front ++ b.block.reverse ∧ b.total = some (Decimal.value front : Int)
  length : b.length = b.block.length
  digits : ∀ c ∈ ds, c.isDigit

theorem holds_start : start.Holds [] := ⟨⟨[], rfl, rfl⟩, rfl, by simp⟩

theorem Holds.number? {b : Blocks} {ds : List Char} (h : b.Holds ds) (hne : b.block ≠ []) :
    b.number? = some (Decimal.value ds : Int) := by
  obtain ⟨front, hds, htotal⟩ := h.total
  have hblock : ∀ c ∈ b.block.reverse, c.isDigit := fun c hc => h.digits c (by simp [hds, hc])
  rw [Blocks.number?, htotal, ofBlock?_digits hblock (by simpa using hne), hds,
    Decimal.value_append, h.length]
  simp

theorem Holds.next {b : Blocks} {ds : List Char} (h : b.Holds ds) {c : Char} (hc : c.isDigit) :
    (b.next c).Holds (ds ++ [c]) := by
  obtain ⟨front, hds, htotal⟩ := h.total
  have hdigits : ∀ d ∈ ds ++ [c], d.isDigit := by
    intro d hd
    rcases List.mem_append.mp hd with hd | hd
    · exact h.digits d hd
    · exact List.mem_singleton.mp hd ▸ hc
  unfold Blocks.next
  split
  · next hfull =>
    have hne : b.block ≠ [] := by
      intro hnil
      simp [h.length, hnil, Decimal.blockLength] at hfull
    exact ⟨⟨ds, by simp, h.number? hne⟩, rfl, hdigits⟩
  · exact ⟨⟨front, by simp [hds], htotal⟩, by simp [h.length], hdigits⟩

theorem Holds.foldl {b : Blocks} {ds : List Char} (h : b.Holds ds) {cs : List Char}
    (hcs : ∀ c ∈ cs, c.isDigit) : (cs.foldl Blocks.next b).Holds (ds ++ cs) := by
  induction cs generalizing b ds with
  | nil => simpa using h
  | cons c cs ih =>
    have := ih (h.next (hcs c (by simp))) fun d hd => hcs d (by simp [hd])
    rwa [List.append_assoc] at this

theorem block_next_ne_nil (b : Blocks) (c : Char) : (b.next c).block ≠ [] := by
  unfold Blocks.next
  split <;> simp

theorem block_foldl_ne_nil (b : Blocks) {cs : List Char} (h : cs ≠ []) :
    (cs.foldl Blocks.next b).block ≠ [] := by
  rw [← List.dropLast_concat_getLast h, List.foldl_append]
  exact block_next_ne_nil _ _

end Blocks

/-- The integer that a text denotes, if it denotes one; nothing written is zero. -/
def read? (cs : List Char) : Option Int :=
  if cs.isEmpty then some 0 else (cs.foldl Blocks.next .start).number?

theorem read?_digits {ds : List Char} (h : ∀ c ∈ ds, c.isDigit) :
    read? ds = some (Decimal.value ds : Int) := by
  unfold read?
  split
  · next hnil =>
    rw [List.isEmpty_iff.mp hnil]
    rfl
  · next hne =>
    have hne : ds ≠ [] := fun hnil => hne (by simp [hnil])
    simpa using (Blocks.holds_start.foldl h).number? (Blocks.block_foldl_ne_nil _ hne)

end Calculator.Numeral
