import Calculator.Decimal
import Calculator.Json

/-!
# Reading JSON

Values read from JSON text that may have any spacing and any escapes. Complete values and the marks
between them are kept on a stack; a closing bracket takes everything down to its opening bracket off
the stack and puts one value in its place.
-/

namespace Calculator.Json

/-! ## Strings -/

/-- What a string is made of: characters, and units of 16 bits that are given by their number. -/
inductive Piece where
  | char (c : Char)
  | unit (n : Nat)
  deriving DecidableEq, Repr

/-- The character that another one stands for after a backslash. -/
def ofEscape? : Char → Option Char
  | '"' => some '"'
  | '\\' => some '\\'
  | '/' => some '/'
  | 'b' => some '\x08'
  | 'f' => some '\x0c'
  | 'n' => some '\n'
  | 'r' => some '\r'
  | 't' => some '\t'
  | _ => none

/-- The value of a hexadecimal digit in either case. -/
def hexDigit? (c : Char) : Option Nat :=
  if '0' ≤ c && c ≤ '9' then some (c.toNat - '0'.toNat)
  else if 'a' ≤ c && c ≤ 'f' then some (c.toNat - 'a'.toNat + 10)
  else if 'A' ≤ c && c ≤ 'F' then some (c.toNat - 'A'.toNat + 10)
  else none

/-- The number that four hexadecimal digits write. -/
def unit? (a b c d : Char) : Option Nat := do
  let a ← hexDigit? a
  let b ← hexDigit? b
  let c ← hexDigit? c
  let d ← hexDigit? d
  return ((a * 16 + b) * 16 + c) * 16 + d

/-- The pieces of a string up to its closing mark, and what comes after the mark. Control characters
must be escaped. -/
def pieces? : List Char → Option (List Piece × List Char)
  | [] => none
  | c :: cs =>
    if c = '"' then some ([], cs)
    else if c = '\\' then
      match cs with
      | 'u' :: h₃ :: h₂ :: h₁ :: h₀ :: cs => do
        let n ← unit? h₃ h₂ h₁ h₀
        let (pieces, rest) ← pieces? cs
        return (.unit n :: pieces, rest)
      | e :: cs => do
        let c ← ofEscape? e
        let (pieces, rest) ← pieces? cs
        return (.char c :: pieces, rest)
      | [] => none
    else if c < ' ' then none
    else do
      let (pieces, rest) ← pieces? cs
      return (.char c :: pieces, rest)

/-- Units that carry the higher bits of a character beyond 16 bits. -/
def isHighHalf (n : Nat) : Bool := 0xd800 ≤ n && n < 0xdc00

/-- Units that carry the lower bits of a character beyond 16 bits. -/
def isLowHalf (n : Nat) : Bool := 0xdc00 ≤ n && n < 0xe000

/-- The characters of a string. A half without the other one is no character. -/
def join? : List Piece → Option (List Char)
  | [] => some []
  | .char c :: pieces => (join? pieces).map (c :: ·)
  | .unit n :: pieces =>
    if isHighHalf n then
      match pieces with
      | .unit m :: pieces =>
        if isLowHalf m then
          (join? pieces).map (Char.ofNat (0x10000 + (n - 0xd800) * 0x400 + (m - 0xdc00)) :: ·)
        else none
      | _ => none
    else if isLowHalf n then none
    else (join? pieces).map (Char.ofNat n :: ·)

/-! ## Symbols -/

inductive Mark where
  | openArray
  | closeArray
  | openObject
  | closeObject
  | comma
  | colon
  deriving DecidableEq, Repr

def Mark.ofChar? : Char → Option Mark
  | '[' => some openArray
  | ']' => some closeArray
  | '\x7b' => some openObject
  | '\x7d' => some closeObject
  | ',' => some comma
  | ':' => some colon
  | _ => none

inductive Symbol where
  | mark (m : Mark)
  | value (j : Json)
  deriving Repr

/-- Characters between symbols that say nothing. -/
def isSpace (c : Char) : Bool := c ∈ [' ', '\t', '\n', '\r']

/-- A number, without zeros before it. -/
def ofDigits? (ds : List Char) : Option Json :=
  if (Decimal.value ds).repr.toList = ds then some (number (Decimal.value ds)) else none

/-- The symbol at the head of a text, and how many characters it takes after the first one. -/
def head? (c : Char) (cs : List Char) : Option (Symbol × Nat) :=
  match Mark.ofChar? c with
  | some m => some (.mark m, 0)
  | none =>
    if c = '"' then do
      let (pieces, rest) ← pieces? cs
      let text ← join? pieces
      return (.value (string (String.ofList text)), cs.length - rest.length)
    else if c.isDigit then do
      let digits := cs.takeWhile Char.isDigit
      let n ← ofDigits? (c :: digits)
      return (.value n, digits.length)
    else if c = 'n' && cs.take 3 = ['u', 'l', 'l'] then some (.value null, 3)
    else none

/-! ## Values -/

/-- Takes the items of an array off the stack; those that come after them are at hand. -/
def closeArray (items : List Json) : List Symbol → Option (List Symbol)
  | .value item :: .mark .openArray :: below => some (.value (array (item :: items)) :: below)
  | .value item :: .mark .comma :: below => closeArray (item :: items) below
  | _ => none

/-- Takes the fields of an object off the stack, in their order and also where a key comes twice. -/
def closeObject (fields : List (String × Json)) : List Symbol → Option (List Symbol)
  | .value value :: .mark .colon :: .value (string key) :: .mark .openObject :: below =>
    some (.value (object ((key, value) :: fields)) :: below)
  | .value value :: .mark .colon :: .value (string key) :: .mark .comma :: below =>
    closeObject ((key, value) :: fields) below
  | _ => none

/-- The stack after a further symbol. -/
def push (symbol : Symbol) (stack : List Symbol) : Option (List Symbol) :=
  match symbol, stack with
  | .mark .closeArray, .mark .openArray :: below => some (.value (array []) :: below)
  | .mark .closeArray, stack => closeArray [] stack
  | .mark .closeObject, .mark .openObject :: below => some (.value (object []) :: below)
  | .mark .closeObject, stack => closeObject [] stack
  | symbol, stack => some (symbol :: stack)

/-- The stack once the text is read; its first `skip` characters are done with. -/
def readOn (stack : List Symbol) (skip : Nat) : List Char → Option (List Symbol)
  | [] => some stack
  | c :: cs =>
    match skip with
    | k + 1 => readOn stack k cs
    | 0 =>
      if isSpace c then readOn stack 0 cs
      else do
        let (symbol, k) ← head? c cs
        let stack ← push symbol stack
        readOn stack k cs

/-- The value that the text writes. -/
def read? (text : String) : Option Json :=
  match readOn [] 0 text.toList with
  | some [.value j] => some j
  | _ => none

end Calculator.Json
