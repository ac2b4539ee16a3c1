import Mathlib.Data.List.Induction
import Calculator.Json.Reader

/-!
# JSON text reads back

The text of every value is plain, and reading it gives the value back.

1. A character is escaped in one of four ways (`isEscape_escapeChar`). All of them are plain text
   (`IsEscape.allPlain`), and all are read as pieces that join to this one character
   (`IsEscape.exists_pieces`). So the text of every value is plain (`allPlain_print`), and every
   string reads back (`exists_pieces_escape`).
2. Reading on over the text of a value puts this value on the stack, whatever is on the stack and
   whatever comes after it but a digit (`reads_print`).
3. So the text of a value reads as the value (`read?_text`).
-/

namespace Calculator.Json

/-! ## Escapes -/

/-- The ways in which a character may be written in a string. -/
inductive IsEscape (c : Char) : List Char → Prop where
  | short {e : Char} (h : ofEscape? e = some c) : IsEscape c ['\\', e]
  | itself (hspace : ' ' ≤ c) (htilde : c ≤ '~') (hquote : c ≠ '"') (hslash : c ≠ '\\') :
    IsEscape c [c]
  | unit (h : c.toNat < 0x10000) : IsEscape c (unitEscape c.toNat)
  | pair (h : 0x10000 ≤ c.toNat) :
    IsEscape c (unitEscape (0xd800 + (c.toNat - 0x10000) / 0x400) ++
      unitEscape (0xdc00 + (c.toNat - 0x10000) % 0x400))

theorem isEscape_escapeChar (c : Char) : IsEscape c (escapeChar c) := by
  fun_cases escapeChar c with
  | case1 h =>
    simp only [Bool.or_eq_true, decide_eq_true_eq] at h
    rcases h with rfl | rfl <;> exact .short rfl
  | case2 _ h => exact .short (h ▸ rfl)
  | case3 _ _ h => exact .short (h ▸ rfl)
  | case4 _ _ _ h => exact .short (h ▸ rfl)
  | case5 _ _ _ _ h => exact .short (h ▸ rfl)
  | case6 _ _ _ _ _ h => exact .short (h ▸ rfl)
  | case7 hmarks _ _ _ _ _ h =>
    simp only [Bool.and_eq_true, Bool.or_eq_true, decide_eq_true_eq, not_or] at h hmarks
    exact .itself h.1 h.2 hmarks.1 hmarks.2
  | case8 _ _ _ _ _ _ _ _ h => exact .unit h
  | case9 _ _ _ _ _ _ _ _ h => exact .pair (Nat.le_of_not_lt h)

/-! ## Plain text -/

/-- Line breaks and printable ASCII. -/
def IsPlain (c : Char) : Prop := c = '\n' ∨ ' ' ≤ c ∧ c ≤ '~'

instance : DecidablePred IsPlain := fun c =>
  inferInstanceAs (Decidable (c = '\n' ∨ ' ' ≤ c ∧ c ≤ '~'))

/-- All characters of the text are plain. -/
def AllPlain (cs : List Char) : Prop := ∀ c ∈ cs, IsPlain c

instance : DecidablePred AllPlain := fun cs => List.decidableBAll IsPlain cs

@[simp] theorem allPlain_nil : AllPlain [] := List.forall_mem_nil _

@[simp] theorem allPlain_cons {c : Char} {cs : List Char} :
    AllPlain (c :: cs) ↔ IsPlain c ∧ AllPlain cs := List.forall_mem_cons

@[simp] theorem allPlain_append {cs ds : List Char} :
    AllPlain (cs ++ ds) ↔ AllPlain cs ∧ AllPlain ds := List.forall_mem_append

theorem isDigit_of_mem_toDigits {c : Char} {n : Nat} (h : c ∈ Nat.toDigits 10 n) :
    c.isDigit = true := Nat.isDigit_of_mem_toDigits (by decide) (by decide) h

theorem isPlain_digitChar : ∀ n < 16, IsPlain (Nat.digitChar n) := by decide

theorem isPlain_of_isDigit {c : Char} (h : c.isDigit = true) : IsPlain c := by
  simp only [Char.isDigit, Bool.and_eq_true, decide_eq_true_eq] at h
  exact .inr ⟨Char.le_def.2 (UInt32.le_trans (by decide) h.1),
    Char.le_def.2 (UInt32.le_trans h.2 (by decide))⟩

theorem isPlain_of_ofEscape? {e c : Char} (h : ofEscape? e = some c) : IsPlain e := by
  fun_cases ofEscape? e
  all_goals first | decide | simp [ofEscape?] at h

theorem allPlain_hex (width n : Nat) : AllPlain (Text.hex width n) := by
  induction width generalizing n with
  | zero => exact allPlain_nil
  | succ width ih =>
    rw [Text.hex, allPlain_append, allPlain_cons]
    exact ⟨ih _, isPlain_digitChar _ (Nat.mod_lt _ (by decide)), allPlain_nil⟩

theorem allPlain_unitEscape (n : Nat) : AllPlain (unitEscape n) :=
  allPlain_cons.2 ⟨by decide, allPlain_cons.2 ⟨by decide, allPlain_hex 4 n⟩⟩

theorem IsEscape.allPlain {c : Char} {ds : List Char} (h : IsEscape c ds) : AllPlain ds := by
  cases h with
  | short h => exact allPlain_cons.2 ⟨by decide, by simpa using isPlain_of_ofEscape? h⟩
  | itself hspace htilde => exact allPlain_cons.2 ⟨.inr ⟨hspace, htilde⟩, allPlain_nil⟩
  | unit => exact allPlain_unitEscape _
  | pair => exact allPlain_append.2 ⟨allPlain_unitEscape _, allPlain_unitEscape _⟩

@[simp] theorem allPlain_escape (text : String) : AllPlain (escape text) := by
  have htext : AllPlain (text.toList.flatMap escapeChar) := by
    intro d hd
    obtain ⟨c, _, hc⟩ := List.mem_flatMap.1 hd
    exact (isEscape_escapeChar c).allPlain d hc
  exact allPlain_cons.2 ⟨by decide, allPlain_append.2 ⟨htext, by decide⟩⟩

@[simp] theorem allPlain_newline (depth : Nat) : AllPlain (newline depth) := by
  refine allPlain_cons.2 ⟨by decide, fun c hc => ?_⟩
  rw [(List.mem_replicate.1 hc).2]
  decide

theorem allPlain_repr (n : Nat) : AllPlain n.repr.toList := fun _ hc =>
  isPlain_of_isDigit (isDigit_of_mem_toDigits (Nat.toList_repr ▸ hc))

/-- The text of a value is made of line breaks and printable ASCII. -/
theorem allPlain_print : (∀ depth j, AllPlain (print depth j)) ∧
    (∀ depth fields, AllPlain (printFields depth fields)) ∧
    ∀ depth items, AllPlain (printItems depth items) := by
  have hmarks : AllPlain ['[', ']', '\x7b', '\x7d', ',', ':', ' '] := by decide
  simp only [allPlain_cons] at hmarks
  -- the cases are the equations of `print`, then those of its two lists
  apply print.mutual_induct
  case case1 => exact fun _ => (by decide : AllPlain ['n', 'u', 'l', 'l'])
  case case2 => exact fun _ => allPlain_repr
  case case3 => exact fun _ => allPlain_escape
  all_goals simp_all [print, printItems, printFields]

/-! ## Reading strings -/

theorem hexDigit?_digitChar : ∀ n < 16, hexDigit? (Nat.digitChar n) = some n := by decide

theorem unit?_hex {n : Nat} (h : n < 0x10000) :
    unit? (Nat.digitChar (n / 16 / 16 / 16 % 16)) (Nat.digitChar (n / 16 / 16 % 16))
      (Nat.digitChar (n / 16 % 16)) (Nat.digitChar (n % 16)) = some n := by
  simp only [unit?, hexDigit?_digitChar _ (Nat.mod_lt _ (show 16 > 0 by decide)), bind,
    Option.bind, pure]
  congr 1
  omega

theorem pieces?_unitEscape {n : Nat} (h : n < 0x10000) (tail : List Char) :
    pieces? (unitEscape n ++ tail) = (pieces? tail).map fun r => (.unit n :: r.1, r.2) := by
  change pieces? ('\\' :: 'u' :: Nat.digitChar (n / 16 / 16 / 16 % 16) ::
    Nat.digitChar (n / 16 / 16 % 16) :: Nat.digitChar (n / 16 % 16) :: Nat.digitChar (n % 16) ::
    tail) = _
  rw [pieces?, unit?_hex h]
  cases pieces? tail <;> rfl

theorem pieces?_short {e c : Char} (h : ofEscape? e = some c) (tail : List Char) :
    pieces? ('\\' :: e :: tail) = (pieces? tail).map fun r => (.char c :: r.1, r.2) := by
  have hu : e ≠ 'u' := by
    rintro rfl
    simp [ofEscape?] at h
  rw [pieces?, h]
  · cases pieces? tail <;> rfl
  · exact fun _ _ _ _ _ he => absurd he hu

theorem pieces?_itself {c : Char} (hspace : ' ' ≤ c) (hquote : c ≠ '"') (hslash : c ≠ '\\')
    (tail : List Char) :
    pieces? (c :: tail) = (pieces? tail).map fun r => (.char c :: r.1, r.2) := by
  rw [pieces?.eq_def]
  simp only [if_neg hquote, if_neg hslash, if_neg (Char.not_lt.2 hspace)]
  cases pieces? tail <;> rfl

/-- A character is no half of a pair, so a unit of its number stands for itself. -/
theorem join?_unit {c : Char} (h : c.toNat < 0x10000) (ps : List Piece) :
    join? (.unit c.toNat :: ps) = (join? ps).map (c :: ·) := by
  have hvalid : c.toNat.isValidChar := c.valid
  have hhigh : isHighHalf c.toNat = false := by
    simp only [isHighHalf, Bool.and_eq_false_iff, decide_eq_false_iff_not]
    grind
  have hlow : isLowHalf c.toNat = false := by
    simp only [isLowHalf, Bool.and_eq_false_iff, decide_eq_false_iff_not]
    grind
  rw [join?.eq_def]
  simp only [hhigh, hlow, Bool.false_eq_true, if_false, Char.ofNat_toNat]

theorem toNat_lt (c : Char) : c.toNat < 0x110000 := by
  have hvalid : c.toNat.isValidChar := c.valid
  grind

theorem join?_pair {c : Char} (h : 0x10000 ≤ c.toNat) (ps : List Piece) :
    join? (.unit (0xd800 + (c.toNat - 0x10000) / 0x400) ::
      .unit (0xdc00 + (c.toNat - 0x10000) % 0x400) :: ps) = (join? ps).map (c :: ·) := by
  have hbound : c.toNat < 0x110000 := toNat_lt c
  have hhigh : isHighHalf (0xd800 + (c.toNat - 0x10000) / 0x400) = true := by
    simp only [isHighHalf, Bool.and_eq_true, decide_eq_true_eq]
    omega
  have hlow : isLowHalf (0xdc00 + (c.toNat - 0x10000) % 0x400) = true := by
    simp only [isLowHalf, Bool.and_eq_true, decide_eq_true_eq]
    omega
  have hsum : 0x10000 + (0xd800 + (c.toNat - 0x10000) / 0x400 - 0xd800) * 0x400 +
      (0xdc00 + (c.toNat - 0x10000) % 0x400 - 0xdc00) = c.toNat := by omega
  rw [join?, if_pos hhigh, if_pos hlow, hsum, Char.ofNat_toNat]

/-- A character that is written in any of the ways is read as pieces that join to it. -/
theorem IsEscape.exists_pieces {c : Char} {ds : List Char} (h : IsEscape c ds) :
    ∃ ps, (∀ tail, pieces? (ds ++ tail) = (pieces? tail).map fun r => (ps ++ r.1, r.2)) ∧
      ∀ qs, join? (ps ++ qs) = (join? qs).map (c :: ·) := by
  cases h with
  | short h => exact ⟨[.char c], pieces?_short h, fun _ => rfl⟩
  | itself hspace _ hquote hslash =>
    exact ⟨[.char c], pieces?_itself hspace hquote hslash, fun _ => rfl⟩
  | unit h => exact ⟨[.unit c.toNat], pieces?_unitEscape h, join?_unit h⟩
  | pair h =>
    have hbound : c.toNat < 0x110000 := toNat_lt c
    refine ⟨[_, _], fun tail => ?_, join?_pair h⟩
    rw [List.append_assoc, pieces?_unitEscape (by omega), pieces?_unitEscape (by omega),
      Option.map_map]
    rfl

theorem pieces?_quote (tail : List Char) : pieces? ('"' :: tail) = some ([], tail) := by
  rw [pieces?.eq_def]
  rfl

theorem exists_pieces_escape (text tail : List Char) :
    ∃ ps, pieces? (text.flatMap escapeChar ++ '"' :: tail) = some (ps, tail) ∧
      join? ps = some text := by
  induction text with
  | nil => exact ⟨[], pieces?_quote tail, rfl⟩
  | cons c cs ih =>
    obtain ⟨qs, hread, hjoin⟩ := ih
    obtain ⟨ps, hhead, hheadJoin⟩ := (isEscape_escapeChar c).exists_pieces
    refine ⟨ps ++ qs, ?_, ?_⟩
    · rw [List.flatMap_cons, List.append_assoc, hhead, hread]
      rfl
    · rw [hheadJoin, hjoin]
      rfl

/-! ## Reading on -/

/-- The text goes on with something that is no part of a number. -/
def EndsNumber (rest : List Char) : Prop := ∀ c ∈ rest.head?, c.isDigit = false

theorem readOn_skip (stack : List Symbol) (skip : Nat) (cs : List Char) :
    readOn stack skip cs = readOn stack 0 (cs.drop skip) := by
  induction cs generalizing skip with
  | nil => simp [readOn]
  | cons c cs ih =>
    cases skip with
    | zero => rfl
    | succ k => rw [readOn, ih, List.drop_succ_cons]

theorem readOn_space {c : Char} (h : isSpace c = true) (stack : List Symbol) (cs : List Char) :
    readOn stack 0 (c :: cs) = readOn stack 0 cs := by
  rw [readOn, if_pos h]

theorem readOn_newline (depth : Nat) (stack : List Symbol) (rest : List Char) :
    readOn stack 0 (newline depth ++ rest) = readOn stack 0 rest := by
  rw [newline, List.cons_append, readOn_space rfl]
  induction indentWidth * depth with
  | zero => rfl
  | succ n ih => rw [List.replicate_succ, List.cons_append, readOn_space rfl, ih]

/-- A symbol that takes `cs` after its first character is pushed, and reading goes on after it. -/
theorem readOn_symbol {c : Char} {cs rest : List Char} {symbol : Symbol}
    (hspace : isSpace c = false) (h : head? c (cs ++ rest) = some (symbol, cs.length))
    (stack : List Symbol) :
    readOn stack 0 (c :: cs ++ rest) =
      (push symbol stack).bind fun stack => readOn stack 0 rest := by
  rw [List.cons_append, readOn, if_neg (by simp [hspace]), h]
  change (push symbol stack).bind (fun stack => readOn stack cs.length (cs ++ rest)) = _
  simp only [readOn_skip _ cs.length, List.drop_left]

theorem readOn_mark {c : Char} {m : Mark} (h : Mark.ofChar? c = some m) (stack : List Symbol)
    (rest : List Char) :
    readOn stack 0 (c :: rest) = (push (.mark m) stack).bind fun stack => readOn stack 0 rest := by
  have hspace : isSpace c = false := by
    revert h
    fun_cases Mark.ofChar? c
    all_goals simp [isSpace]
  exact @readOn_symbol c [] rest (.mark m) hspace (by rw [head?, h]; rfl) stack

/-- A mark that closes nothing is put on the stack, and the break after it is nothing. -/
theorem readOn_mark_newline {c : Char} {m : Mark} {stack : List Symbol}
    (h : Mark.ofChar? c = some m) (hpush : push (.mark m) stack = some (.mark m :: stack))
    (depth : Nat) (rest : List Char) :
    readOn stack 0 (c :: (newline depth ++ rest)) = readOn (.mark m :: stack) 0 rest := by
  rw [readOn_mark h, hpush, Option.bind_some, readOn_newline]

/-- The text is read as this value wherever it stands. -/
def Reads (cs : List Char) (j : Json) : Prop :=
  ∀ stack rest, EndsNumber rest → readOn stack 0 (cs ++ rest) = readOn (.value j :: stack) 0 rest

theorem reads_null : Reads ['n', 'u', 'l', 'l'] null := fun stack rest _ =>
  @readOn_symbol 'n' ['u', 'l', 'l'] rest (.value null) rfl (by simp [head?, Mark.ofChar?]) stack

theorem takeWhile_isDigit {ds rest : List Char} (hds : ∀ d ∈ ds, d.isDigit = true)
    (hrest : EndsNumber rest) : (ds ++ rest).takeWhile Char.isDigit = ds := by
  rw [List.takeWhile_append_of_pos hds]
  cases rest with
  | nil => simp
  | cons c cs => simp [hrest c rfl]

theorem isSpace_of_isDigit {c : Char} (h : c.isDigit = true) : isSpace c = false := by
  rw [isSpace, decide_eq_false_iff_not]
  simp only [List.mem_cons, List.not_mem_nil, or_false]
  rintro (rfl | rfl | rfl | rfl) <;> simp at h

theorem head?_digits {c : Char} {ds rest : List Char} {n : Nat}
    (h : Nat.toDigits 10 n = c :: ds) (hrest : EndsNumber rest) :
    head? c (ds ++ rest) = some (.value (number n), ds.length) := by
  have hdigits (d : Char) (hd : d ∈ c :: ds) : d.isDigit = true :=
    isDigit_of_mem_toDigits (h ▸ hd)
  have hc : c.isDigit = true := hdigits c List.mem_cons_self
  have hmark : Mark.ofChar? c = none := by
    fun_cases Mark.ofChar? c
    all_goals first | rfl | simp at hc
  have hquote : c ≠ '"' := by
    rintro rfl
    simp at hc
  have hvalue : Decimal.value (c :: ds) = n := by rw [← h, Decimal.value_toDigits]
  have hnumber : ofDigits? (c :: ds) = some (number n) := by
    rw [ofDigits?, hvalue, Nat.toList_repr, if_pos h]
  rw [head?, hmark]
  simp only [if_neg hquote, if_pos hc]
  rw [takeWhile_isDigit (fun d hd => hdigits d (.tail _ hd)) hrest, hnumber]
  rfl

theorem reads_number (n : Nat) : Reads n.repr.toList (number n) := by
  intro stack rest hrest
  rw [Nat.toList_repr]
  cases h : Nat.toDigits 10 n with
  | nil => exact absurd h (by simp)
  | cons c ds =>
    have hc : c.isDigit = true := isDigit_of_mem_toDigits (h ▸ List.mem_cons_self)
    exact readOn_symbol (isSpace_of_isDigit hc) (head?_digits h hrest) stack

theorem reads_string (text : String) : Reads (escape text) (string text) := by
  intro stack rest _
  obtain ⟨ps, hread, hjoin⟩ := exists_pieces_escape text.toList rest
  have hhead : head? '"' (text.toList.flatMap escapeChar ++ ['"'] ++ rest) =
      some (.value (string text), (text.toList.flatMap escapeChar ++ ['"']).length) := by
    rw [List.append_assoc, List.singleton_append, head?]
    simp only [Mark.ofChar?, if_true, hread, hjoin, bind, Option.bind, pure]
    simp
    omega
  exact readOn_symbol rfl hhead stack

/-! ## Reading arrays and objects -/

/-- The stack after a further item and the comma before it. -/
def stackItem (stack : List Symbol) (item : Json) : List Symbol :=
  .value item :: .mark .comma :: stack

def stackPair (stack : List Symbol) (field : String × Json) : List Symbol :=
  .value field.2 :: .mark .colon :: .value (string field.1) :: stack

/-- The stack after a further field and the comma before it. -/
def stackField (stack : List Symbol) (field : String × Json) : List Symbol :=
  stackPair (.mark .comma :: stack) field

theorem closeArray_foldl (item : Json) (items after : List Json) (stack : List Symbol) :
    closeArray after (items.foldl stackItem (.value item :: .mark .openArray :: stack)) =
      some (.value (array (item :: items ++ after)) :: stack) := by
  induction items using List.reverseRecOn generalizing after with
  | nil => rfl
  | append_singleton items last ih =>
    rw [List.foldl_append, List.foldl_cons, List.foldl_nil, stackItem, closeArray, ih]
    simp

theorem push_closeArray (item : Json) (items : List Json) (stack : List Symbol) :
    push (.mark .closeArray) (items.foldl stackItem (.value item :: .mark .openArray :: stack)) =
      some (.value (array (item :: items)) :: stack) := by
  have hclose := closeArray_foldl item items [] stack
  rw [List.append_nil] at hclose
  rcases items.eq_nil_or_concat with rfl | ⟨items, last, rfl⟩
  · rfl
  · rw [← hclose, List.concat_eq_append, List.foldl_append]
    rfl

theorem closeObject_foldl (field : String × Json) (fields after : List (String × Json))
    (stack : List Symbol) :
    closeObject after (fields.foldl stackField (stackPair (.mark .openObject :: stack) field)) =
      some (.value (object (field :: fields ++ after)) :: stack) := by
  induction fields using List.reverseRecOn generalizing after with
  | nil => rfl
  | append_singleton fields last ih =>
    rw [List.foldl_append, List.foldl_cons, List.foldl_nil, stackField, stackPair, closeObject, ih]
    simp

theorem push_closeObject (field : String × Json) (fields : List (String × Json))
    (stack : List Symbol) :
    push (.mark .closeObject)
        (fields.foldl stackField (stackPair (.mark .openObject :: stack) field)) =
      some (.value (object (field :: fields)) :: stack) := by
  have hclose := closeObject_foldl field fields [] stack
  rw [List.append_nil] at hclose
  rcases fields.eq_nil_or_concat with rfl | ⟨fields, last, rfl⟩
  · rfl
  · rw [← hclose, List.concat_eq_append, List.foldl_append]
    rfl

theorem endsNumber_cons {c : Char} (h : c.isDigit = false) (cs : List Char) :
    EndsNumber (c :: cs) := by
  rintro _ ⟨rfl⟩
  exact h

theorem endsNumber_newline (depth : Nat) (rest : List Char) :
    EndsNumber (newline depth ++ rest) := endsNumber_cons rfl _

theorem endsNumber_printItems (depth : Nat) (items : List Json) {rest : List Char}
    (h : EndsNumber rest) : EndsNumber (printItems depth items ++ rest) := by
  cases items with
  | nil => rwa [printItems]
  | cons => exact endsNumber_cons rfl _

theorem endsNumber_printFields (depth : Nat) (fields : List (String × Json)) {rest : List Char}
    (h : EndsNumber rest) : EndsNumber (printFields depth fields ++ rest) := by
  cases fields with
  | nil => rwa [printFields]
  | cons => exact endsNumber_cons rfl _

/-- The text is read as further items wherever it stands. -/
def ReadsItems (cs : List Char) (items : List Json) : Prop :=
  ∀ stack rest, EndsNumber rest →
    readOn stack 0 (cs ++ rest) = readOn (items.foldl stackItem stack) 0 rest

def ReadsFields (cs : List Char) (fields : List (String × Json)) : Prop :=
  ∀ stack rest, EndsNumber rest →
    readOn stack 0 (cs ++ rest) = readOn (fields.foldl stackField stack) 0 rest

theorem reads_array {depth : Nat} {item : Json} {items : List Json}
    (hitem : Reads (print (depth + 1) item) item)
    (hitems : ReadsItems (printItems (depth + 1) items) items) :
    Reads (print depth (array (item :: items))) (array (item :: items)) := by
  intro stack rest _
  have hend := endsNumber_newline depth (']' :: rest)
  simp only [print, List.cons_append, List.append_assoc, List.nil_append]
  rw [readOn_mark_newline rfl rfl, hitem _ _ (endsNumber_printItems _ _ hend), hitems _ _ hend,
    readOn_newline, readOn_mark rfl, push_closeArray]
  rfl

theorem reads_pair {cs : List Char} {key : String} {value : Json} (h : Reads cs value)
    (stack : List Symbol) {rest : List Char} (hrest : EndsNumber rest) :
    readOn stack 0 (escape key ++ ':' :: ' ' :: (cs ++ rest)) =
      readOn (stackPair stack (key, value)) 0 rest := by
  rw [reads_string key stack _ (endsNumber_cons rfl _), readOn_mark rfl]
  exact (@readOn_space ' ' rfl _ _).trans (h _ _ hrest)

theorem reads_object {depth : Nat} {key : String} {value : Json} {fields : List (String × Json)}
    (hvalue : Reads (print (depth + 1) value) value)
    (hfields : ReadsFields (printFields (depth + 1) fields) fields) :
    Reads (print depth (object ((key, value) :: fields))) (object ((key, value) :: fields)) := by
  intro stack rest _
  have hend := endsNumber_newline depth ('\x7d' :: rest)
  simp only [print, List.cons_append, List.append_assoc, List.nil_append]
  rw [readOn_mark_newline rfl rfl, reads_pair hvalue _ (endsNumber_printFields _ _ hend),
    hfields _ _ hend, readOn_newline, readOn_mark rfl, push_closeObject]
  rfl

theorem readsItems_cons {depth : Nat} {item : Json} {items : List Json}
    (hitem : Reads (print depth item) item) (hitems : ReadsItems (printItems depth items) items) :
    ReadsItems (printItems depth (item :: items)) (item :: items) := by
  intro stack rest hrest
  simp only [printItems, List.cons_append, List.append_assoc]
  rw [readOn_mark_newline rfl rfl, hitem _ _ (endsNumber_printItems _ _ hrest), hitems _ _ hrest]
  rfl

theorem readsFields_cons {depth : Nat} {key : String} {value : Json}
    {fields : List (String × Json)} (hvalue : Reads (print depth value) value)
    (hfields : ReadsFields (printFields depth fields) fields) :
    ReadsFields (printFields depth ((key, value) :: fields)) ((key, value) :: fields) := by
  intro stack rest hrest
  simp only [printFields, List.cons_append, List.append_assoc]
  rw [readOn_mark_newline rfl rfl, reads_pair hvalue _ (endsNumber_printFields _ _ hrest),
    hfields _ _ hrest]
  rfl

/-- **Reading on.** The text of a value puts the value on the stack; the texts of further items and
fields put theirs there, each after its comma. -/
theorem reads_print : (∀ depth j, Reads (print depth j) j) ∧
    (∀ depth fields, ReadsFields (printFields depth fields) fields) ∧
    ∀ depth items, ReadsItems (printItems depth items) items := by
  apply print.mutual_induct
  case case1 => exact fun _ => reads_null
  case case2 => exact fun _ => reads_number
  case case3 => exact fun _ => reads_string
  case case4 => exact fun _ _ _ _ => rfl
  case case5 => exact fun _ _ _ => reads_array
  case case6 => exact fun _ _ _ _ => rfl
  case case7 => exact fun _ _ _ _ => reads_object
  case case8 => exact fun _ _ _ _ => rfl
  case case9 => exact fun _ _ _ => readsItems_cons
  case case10 => exact fun _ _ _ _ => rfl
  case case11 => exact fun _ _ _ _ => readsFields_cons

/-- Reading the text of a value gives the value back. -/
theorem read?_text (j : Json) : read? j.text = some j := by
  have hread := reads_print.1 0 j [] [] (fun _ h => nomatch h)
  rw [List.append_nil] at hread
  rw [read?, text, String.toList_ofList, hread]
  rfl

-- Other spacing and other escapes than those of the text are read too.
example : read? " [12 ,\x7b\"a\":\"\\/\\u00E9\\t\"\x7d]" =
    some (array [number 12, object [("a", string "/é\t")]]) := by cbv

end Calculator.Json
