import Mathlib.Tactic.Common
import Calculator.Numeral
import Calculator.Tokens

/-!
# The longest word

What a text is cut into, said without the scan. A *word* is what one pattern of the language
matches: the spelling of a lexeme, a run of separators or a comment. At every place the longest word
is cut off (`Munch`), and `Tokenises` lists the lexemes among the words with their positions.

1. The first character of a word decides which characters may continue it (`continuation?`), so the
   longest word is found by one `takeWhile` (`munch_iff`).
2. The scan cuts off the same words (`scan_of_munch_ignored`, `scan_of_munch_lexeme`), and it meets
   a stray character exactly where no word begins (`scan_of_continuation?_none`).
3. Hence the scan ends without a stray character exactly on the texts that can be cut up, and then
   with their tokens (`scan_eq_iff`).
-/

namespace Calculator

/-! ## Words -/

def isDigits (cs : List Char) : Bool := !cs.isEmpty && cs.all Char.isDigit

/-- A letter or an underscore, and then letters, underscores and digits. -/
def isName : List Char → Bool
  | [] => false
  | c :: cs => isNameStart c && cs.all isNamePart

def isSpacing (cs : List Char) : Bool := !cs.isEmpty && cs.all isSeparator

def isComment : List Char → Bool
  | [] => false
  | c :: cs => c = '#' && cs.all (· ≠ '\n')

/-- Words that separate lexemes and are none. -/
def isIgnored (cs : List Char) : Bool := isSpacing cs || isComment cs

/-- The pattern of its class matches the text of the lexeme. -/
def Lexeme.isProper : Lexeme → Bool
  | digits text => isDigits text.toList
  | name text => isName text.toList
  | _ => true

/-- What some pattern matches. -/
def IsWord (word : List Char) : Prop :=
  isIgnored word ∨ ∃ l : Lexeme, l.isProper ∧ l.text.toList = word

/-- The first word of a text: no longer word begins the text. -/
structure Munch (cs word rest : List Char) : Prop where
  split : cs = word ++ rest
  isWord : IsWord word
  longest : ∀ longer after, cs = longer ++ after → IsWord longer → longer.length ≤ word.length

/-- The text, which begins at position `pos`, is cut up into words, always the longest, and these
are the tokens among them. -/
inductive Tokenises : Nat → List Char → List Token → Prop where
  | done {pos} : Tokenises pos [] []
  | ignored {pos cs word rest ts} : Munch cs word rest → isIgnored word →
      Tokenises (pos + word.length) rest ts → Tokenises pos cs ts
  | lexeme {pos cs rest ts} {l : Lexeme} : Munch cs l.text.toList rest → l.isProper →
      Tokenises (pos + l.text.toList.length) rest ts → Tokenises pos cs (⟨l, pos⟩ :: ts)

theorem isDigits_iff {cs : List Char} :
    isDigits cs ↔ ∃ d ds, cs = d :: ds ∧ d.isDigit ∧ ∀ c ∈ ds, c.isDigit := by
  cases cs with
  | nil => simp [isDigits]
  | cons d ds => simp [isDigits]

theorem isName_iff {cs : List Char} :
    isName cs ↔ ∃ c ds, cs = c :: ds ∧ isNameStart c ∧ ∀ d ∈ ds, isNamePart d := by
  cases cs with
  | nil => simp [isName]
  | cons c ds => simp [isName]

/-! ## The first character of a word -/

/-- What may continue a word that begins with the character, if a word can begin with it. -/
def continuation? (c : Char) : Option (Char → Bool) :=
  if c.isDigit then some Char.isDigit
  else if isNameStart c then some isNamePart
  else if c = '#' then some (· ≠ '\n')
  else if isSeparator c then some isSeparator
  else if (Lexeme.ofChar? c).isSome then some fun _ => false
  else none

theorem not_isNameStart_of_isDigit {c : Char} (h : c.isDigit) : isNameStart c = false := by
  obtain ⟨n, hn, rfl⟩ := Numeral.exists_of_isDigit h
  revert n
  decide

theorem not_isDigit_of_isNameStart {c : Char} (h : isNameStart c) : c.isDigit = false := by
  refine Bool.eq_false_iff.2 fun hdigit => ?_
  rw [not_isNameStart_of_isDigit hdigit] at h
  cases h

theorem isSeparator_iff {c : Char} :
    isSeparator c ↔ c = ' ' ∨ c = '\t' ∨ c = '\x0c' ∨ c = '\r' := by
  simp [isSeparator]

theorem continuation?_of_isDigit {c : Char} (h : c.isDigit) :
    continuation? c = some Char.isDigit := by
  simp [continuation?, h]

theorem continuation?_of_isNameStart {c : Char} (h : isNameStart c) :
    continuation? c = some isNamePart := by
  simp [continuation?, h, not_isDigit_of_isNameStart h]

theorem continuation?_of_isSeparator {c : Char} (h : isSeparator c) :
    continuation? c = some isSeparator := by
  rcases isSeparator_iff.1 h with rfl | rfl | rfl | rfl <;> rfl

theorem continuation?_numberSign : continuation? '#' = some fun d => decide (d ≠ '\n') := rfl

/-- Lexemes of one character spell it. -/
theorem text_of_ofChar? {c : Char} {l : Lexeme} (h : Lexeme.ofChar? c = some l) :
    l.isProper ∧ l.text.toList = [c] ∧ continuation? c = some fun _ => false := by
  unfold Lexeme.ofChar? at h
  split at h <;> cases h <;> exact ⟨rfl, rfl, rfl⟩

/-- A word is its first character and what may continue it. -/
theorem isWord_cons {c : Char} {cs : List Char} :
    IsWord (c :: cs) ↔ ∃ p, continuation? c = some p ∧ ∀ d ∈ cs, p d := by
  constructor
  · rintro (h | ⟨l, hl, htext⟩)
    · rcases Bool.or_eq_true_iff.1 h with h | h
      · simp only [isSpacing, List.isEmpty_cons, Bool.not_false, List.all_cons, Bool.true_and,
          Bool.and_eq_true, List.all_eq_true] at h
        exact ⟨_, continuation?_of_isSeparator h.1, h.2⟩
      · simp only [isComment, Bool.and_eq_true, decide_eq_true_eq, List.all_eq_true] at h
        exact h.1 ▸ ⟨_, continuation?_numberSign, by simpa using h.2⟩
    · cases l with
      | digits text =>
        obtain ⟨d, ds, hdigits, hd, hds⟩ := isDigits_iff.1 hl
        obtain ⟨rfl, rfl⟩ := List.cons.inj (hdigits.symm.trans htext)
        exact ⟨_, continuation?_of_isDigit hd, hds⟩
      | name text =>
        obtain ⟨d, ds, hname, hd, hds⟩ := isName_iff.1 hl
        obtain ⟨rfl, rfl⟩ := List.cons.inj (hname.symm.trans htext)
        exact ⟨_, continuation?_of_isNameStart hd, hds⟩
      | operator op =>
        cases op <;> cases htext <;> exact ⟨_, rfl, by simp⟩
      | equal => cases htext; exact ⟨_, rfl, by simp⟩
      | opening => cases htext; exact ⟨_, rfl, by simp⟩
      | closing => cases htext; exact ⟨_, rfl, by simp⟩
      | newline => cases htext; exact ⟨_, rfl, by simp⟩
  · rintro ⟨p, hp, hcs⟩
    unfold continuation? at hp
    split at hp
    · next hc =>
      cases hp
      exact .inr ⟨.digits (String.ofList (c :: cs)),
        by simpa [Lexeme.isProper, isDigits, hc] using hcs, by simp [Lexeme.text]⟩
    split at hp
    · next hc =>
      cases hp
      exact .inr ⟨.name (String.ofList (c :: cs)),
        by simpa [Lexeme.isProper, isName, hc] using hcs, by simp [Lexeme.text]⟩
    split at hp
    · next hc =>
      cases hp
      exact .inl (Bool.or_eq_true_iff.2 (.inr (by simpa [isComment, hc] using hcs)))
    split at hp
    · next hc =>
      cases hp
      exact .inl (Bool.or_eq_true_iff.2 (.inl (by simpa [isSpacing, hc] using hcs)))
    split at hp
    · next hc =>
      cases hp
      obtain ⟨l, hl⟩ := Option.isSome_iff_exists.1 hc
      obtain ⟨hproper, htext, -⟩ := text_of_ofChar? hl
      have hnil : cs = [] := List.eq_nil_iff_forall_not_mem.2 fun d hd => by simpa using hcs d hd
      exact .inr ⟨l, hproper, by rw [htext, hnil]⟩
    · cases hp

theorem IsWord.ne_nil {word : List Char} (h : IsWord word) : word ≠ [] := by
  rintro rfl
  rcases h with h | ⟨l, hl, htext⟩
  · simp [isIgnored, isSpacing, isComment] at h
  · cases l with
    | digits text =>
      obtain ⟨d, ds, hdigits, -⟩ := isDigits_iff.1 hl
      cases hdigits.symm.trans htext
    | name text =>
      obtain ⟨c, cs, hname, -⟩ := isName_iff.1 hl
      cases hname.symm.trans htext
    | _ => simp [Lexeme.text] at htext

/-! ## The longest word -/

/-- The longest word is the first character and all that may continue it. -/
theorem munch_iff {c : Char} {cs word rest : List Char} :
    Munch (c :: cs) word rest ↔
      ∃ p, continuation? c = some p ∧ word = c :: cs.takeWhile p ∧ rest = cs.dropWhile p := by
  constructor
  · intro h
    obtain ⟨d, ds, rfl⟩ := List.exists_cons_of_ne_nil h.isWord.ne_nil
    have hsplit := h.split
    rw [List.cons_append, List.cons.injEq] at hsplit
    obtain ⟨rfl, hsplit⟩ := hsplit
    obtain ⟨p, hp, hds⟩ := isWord_cons.1 h.isWord
    have hlong := h.longest (c :: cs.takeWhile p) (cs.dropWhile p)
      (by rw [List.cons_append, List.takeWhile_append_dropWhile])
      (isWord_cons.2 ⟨p, hp, List.all_eq_true.1 List.all_takeWhile⟩)
    -- `ds` satisfies `p` throughout, so what `p` takes is `ds` and more; it is no longer than `ds`
    rw [hsplit, List.takeWhile_append_of_pos hds] at hlong
    have hrest : rest.takeWhile p = [] := by
      refine List.length_eq_zero_iff.1 ?_
      simp only [List.length_cons, List.length_append] at hlong
      omega
    refine ⟨p, hp, ?_, ?_⟩
    · rw [hsplit, List.takeWhile_append_of_pos hds, hrest, List.append_nil]
    · have hdrop := List.takeWhile_append_dropWhile (p := p) (l := rest)
      rw [hrest, List.nil_append] at hdrop
      rw [hsplit, List.dropWhile_append_of_pos hds, hdrop]
  · rintro ⟨p, hp, rfl, rfl⟩
    refine ⟨by rw [List.cons_append, List.takeWhile_append_dropWhile],
      isWord_cons.2 ⟨p, hp, List.all_eq_true.1 List.all_takeWhile⟩, ?_⟩
    intro longer after hsplit hword
    obtain ⟨d, ds, rfl⟩ := List.exists_cons_of_ne_nil hword.ne_nil
    rw [List.cons_append, List.cons.injEq] at hsplit
    obtain ⟨rfl, hcs⟩ := hsplit
    obtain ⟨q, hq, hds⟩ := isWord_cons.1 hword
    obtain rfl : p = q := Option.some.inj (hp.symm.trans hq)
    rw [hcs, List.takeWhile_append_of_pos hds]
    simp

/-- A word is the longest if the next character does not continue it. -/
theorem munch_append {c : Char} {cs rest : List Char} {p : Char → Bool}
    (hp : continuation? c = some p) (hcs : ∀ d ∈ cs, p d) (hrest : ∀ d ∈ rest.head?, ¬ p d) :
    Munch (c :: (cs ++ rest)) (c :: cs) rest := by
  have htake : rest.takeWhile p = [] := by
    cases rest with
    | nil => rfl
    | cons d ds => exact List.takeWhile_cons_of_neg (hrest d rfl)
  have hdrop : rest.dropWhile p = rest := by
    cases rest with
    | nil => rfl
    | cons d ds => exact List.dropWhile_cons_of_neg (hrest d rfl)
  refine munch_iff.2 ⟨p, hp, ?_, ?_⟩
  · rw [List.takeWhile_append_of_pos hcs, htake, List.append_nil]
  · rw [List.dropWhile_append_of_pos hcs, hdrop]

theorem Munch.unique {cs word rest word' rest' : List Char} (h : Munch cs word rest)
    (h' : Munch cs word' rest') : word = word' ∧ rest = rest' := by
  have hle := h'.longest word rest h.split h.isWord
  have hge := h.longest word' rest' h'.split h'.isWord
  exact List.append_inj (h.split.symm.trans h'.split) (Nat.le_antisymm hle hge)

/-! ## The scan cuts off the longest word -/

namespace Tokens

theorem scan_skip (start skip : Nat) (cs : List Char) :
    scan start skip cs = scan (start + skip) 0 (cs.drop skip) := by
  induction cs generalizing start skip with
  | nil => cases skip <;> rfl
  | cons c cs ih =>
    cases skip with
    | zero => rfl
    | succ k => rw [scan, ih, List.drop_succ_cons, Nat.add_assoc, Nat.add_comm 1 k]

theorem scan_of_ignoredLength {start k : Nat} {c : Char} {cs : List Char}
    (h : ignoredLength (c :: cs) = k + 1) :
    scan start 0 (c :: cs) = scan (start + (k + 1)) 0 (cs.drop k) := by
  rw [scan, h]
  simp only
  rw [scan_skip, Nat.add_assoc, Nat.add_comm 1 k]

theorem scan_of_isSpacing (start : Nat) {word : List Char} (rest : List Char)
    (h : ∀ c ∈ word, isSeparator c) :
    scan start 0 (word ++ rest) = scan (start + word.length) 0 rest := by
  induction word generalizing start with
  | nil => rfl
  | cons c cs ih =>
    have hc : isSeparator c := h c (by simp)
    have hlength : ignoredLength (c :: (cs ++ rest)) = 0 + 1 := by
      rcases isSeparator_iff.1 hc with rfl | rfl | rfl | rfl <;> rfl
    rw [List.cons_append, scan_of_ignoredLength hlength, List.drop_zero,
      ih _ fun d hd => h d (by simp [hd]), List.length_cons, Nat.add_assoc, Nat.add_comm (0 + 1)]

theorem scan_of_munch_ignored (pos : Nat) {cs word rest : List Char} (h : Munch cs word rest)
    (hword : isIgnored word) : scan pos 0 cs = scan (pos + word.length) 0 rest := by
  rcases Bool.or_eq_true_iff.1 hword with hspace | hcomment
  · rw [h.split]
    simp only [isSpacing, Bool.and_eq_true, List.all_eq_true] at hspace
    exact scan_of_isSpacing pos rest hspace.2
  · obtain ⟨c, body, rfl⟩ := List.exists_cons_of_ne_nil h.isWord.ne_nil
    simp only [isComment, Bool.and_eq_true, decide_eq_true_eq] at hcomment
    obtain ⟨rfl, -⟩ := hcomment
    have hsplit := h.split
    rw [List.cons_append] at hsplit
    subst hsplit
    obtain ⟨p, hp, hbody, -⟩ := munch_iff.1 h
    cases continuation?_numberSign.symm.trans hp
    have hlength : ignoredLength ('#' :: (body ++ rest)) = body.length + 1 := by
      rw [ignoredLength, if_pos rfl, ← (List.cons.inj hbody).2, Nat.add_comm]
    rw [scan_of_ignoredLength hlength, List.drop_left, List.length_cons]

theorem ignoredLength_eq_zero {c : Char} {cs : List Char} :
    ignoredLength (c :: cs) = 0 ↔ c ≠ '#' ∧ isSeparator c = false := by
  rw [ignoredLength]
  split_ifs with h₁ h₂ <;> simp_all

/-- Nothing is passed over where a word of another kind begins. -/
theorem ignoredLength_of_begins {begins : Char → Bool} {c : Char} {cs : List Char} (hc : begins c)
    (hnumber : begins '#' = false) (hseparator : ∀ d, isSeparator d → begins d = false) :
    ignoredLength (c :: cs) = 0 := by
  refine ignoredLength_eq_zero.2 ⟨?_, ?_⟩
  · rintro rfl
    rw [hnumber] at hc
    cases hc
  · refine Bool.eq_false_iff.2 fun h => ?_
    rw [hseparator c h] at hc
    cases hc

theorem not_isDigit_of_isSeparator (d : Char) (h : isSeparator d) : d.isDigit = false := by
  rcases isSeparator_iff.1 h with rfl | rfl | rfl | rfl <;> rfl

theorem not_isNameStart_of_isSeparator (d : Char) (h : isSeparator d) : isNameStart d = false := by
  rcases isSeparator_iff.1 h with rfl | rfl | rfl | rfl <;> rfl

/-- The lexeme at the head of a text is the one whose spelling is its longest word. -/
theorem ofHead?_of_munch {c : Char} {cs rest : List Char} {l : Lexeme}
    (h : Munch (c :: cs) l.text.toList rest) (hl : l.isProper) :
    Lexeme.ofHead? (c :: cs) = some l ∧ ignoredLength (c :: cs) = 0 := by
  obtain ⟨p, hp, htext, -⟩ := munch_iff.1 h
  cases l with
  | digits text =>
    obtain ⟨d, ds, hdigits, hc, -⟩ := isDigits_iff.1 hl
    rw [Lexeme.text] at htext
    obtain ⟨rfl, -⟩ := List.cons.inj (hdigits.symm.trans htext)
    obtain rfl : Char.isDigit = p := Option.some.inj ((continuation?_of_isDigit hc).symm.trans hp)
    refine ⟨?_, ignoredLength_of_begins hc rfl not_isDigit_of_isSeparator⟩
    rw [Lexeme.ofHead?, if_pos hc, ← htext, String.ofList_toList]
  | name text =>
    obtain ⟨d, ds, hname, hc, -⟩ := isName_iff.1 hl
    rw [Lexeme.text] at htext
    obtain ⟨rfl, -⟩ := List.cons.inj (hname.symm.trans htext)
    obtain rfl : isNamePart = p := Option.some.inj ((continuation?_of_isNameStart hc).symm.trans hp)
    refine ⟨?_, ignoredLength_of_begins hc rfl not_isNameStart_of_isSeparator⟩
    rw [Lexeme.ofHead?, if_neg (by simp [not_isDigit_of_isNameStart hc]), if_pos hc, ← htext,
      String.ofList_toList]
  | operator op =>
    cases op <;> obtain ⟨rfl, -⟩ := List.cons.inj htext <;> exact ⟨rfl, rfl⟩
  | _ => obtain ⟨rfl, -⟩ := List.cons.inj htext; exact ⟨rfl, rfl⟩

theorem scan_of_munch_lexeme (pos : Nat) {cs rest : List Char} {l : Lexeme}
    (h : Munch cs l.text.toList rest) (hl : l.isProper) :
    scan pos 0 cs =
      ⟨⟨l, pos⟩ :: (scan (pos + l.text.toList.length) 0 rest).list,
        (scan (pos + l.text.toList.length) 0 rest).stray⟩ := by
  obtain ⟨c, word, htext⟩ := List.exists_cons_of_ne_nil h.isWord.ne_nil
  obtain rfl : cs = c :: (word ++ rest) := by rw [h.split, htext, List.cons_append]
  obtain ⟨hhead, hignored⟩ := ofHead?_of_munch h hl
  have hlength : l.text.length = word.length + 1 := by
    rw [← String.length_toList, htext, List.length_cons]
  simp only [scan, hignored, hhead]
  rw [scan_skip, hlength, Nat.add_sub_cancel, List.drop_left, htext, List.length_cons,
    Nat.add_assoc, Nat.add_comm 1]

/-- Where no word begins there is a stray character. -/
theorem scan_of_continuation?_none (pos : Nat) {c : Char} (cs : List Char)
    (hc : continuation? c = none) : scan pos 0 (c :: cs) = ⟨[], some ⟨c, pos⟩⟩ := by
  unfold continuation? at hc
  split_ifs at hc with hdigit hname hnumber hseparator hchar
  have hignored : ignoredLength (c :: cs) = 0 :=
    ignoredLength_eq_zero.2 ⟨hnumber, by simpa using hseparator⟩
  have hhead : Lexeme.ofHead? (c :: cs) = none := by
    rw [Lexeme.ofHead?, if_neg hdigit, if_neg hname]
    simpa using hchar
  simp only [scan, hignored, hhead]

/-- **The scan is maximal munch.** A text is scanned to its end exactly if it can be cut up into
longest words, and then the scan finds the tokens among them. -/
theorem scan_eq_iff {pos : Nat} {cs : List Char} {ts : List Token} :
    scan pos 0 cs = ⟨ts, none⟩ ↔ Tokenises pos cs ts := by
  constructor
  · intro h
    induction hn : cs.length using Nat.strongRecOn generalizing pos cs ts with
    | _ n ih =>
    cases cs with
    | nil =>
      cases h
      exact .done
    | cons c tail =>
      rcases hc : continuation? c with _ | p
      · rw [scan_of_continuation?_none pos tail hc] at h
        cases h
      · have hmunch : Munch (c :: tail) (c :: tail.takeWhile p) (tail.dropWhile p) :=
          munch_iff.2 ⟨p, hc, rfl, rfl⟩
        have hlt : (tail.dropWhile p).length < n := by
          have := (tail.dropWhile_sublist p).length_le
          rw [← hn, List.length_cons]
          omega
        rcases hmunch.isWord with hword | ⟨l, hl, htext⟩
        · rw [scan_of_munch_ignored pos hmunch hword] at h
          exact .ignored hmunch hword (ih _ hlt h rfl)
        · rw [← htext] at hmunch
          rw [scan_of_munch_lexeme pos hmunch hl, Tokens.mk.injEq] at h
          obtain ⟨rfl, hstray⟩ := h
          exact .lexeme hmunch hl (ih _ hlt (congrArg₂ Tokens.mk rfl hstray) rfl)
  · intro h
    induction h with
    | done => rfl
    | ignored hmunch hword _ ih => rw [scan_of_munch_ignored _ hmunch hword, ih]
    | lexeme hmunch hl _ ih => rw [scan_of_munch_lexeme _ hmunch hl, ih]

end Tokens

/-! ## Facts about all tokens of a text -/

theorem Tokenises.isProper {pos : Nat} {cs : List Char} {ts : List Token}
    (h : Tokenises pos cs ts) : ∀ t ∈ ts, t.lexeme.isProper := by
  induction h with
  | done => simp
  | ignored _ _ _ ih => exact ih
  | lexeme _ hl _ ih => exact List.forall_mem_cons.2 ⟨hl, ih⟩

theorem not_mem_newline_of_isIgnored {word : List Char} (h : isIgnored word) : '\n' ∉ word := by
  intro hmem
  cases word with
  | nil => simp at hmem
  | cons c cs =>
    rcases Bool.or_eq_true_iff.1 h with h | h
    · simp only [isSpacing, Bool.and_eq_true, List.all_eq_true] at h
      exact absurd (h.2 _ hmem) (by decide)
    · simp only [isComment, Bool.and_eq_true, decide_eq_true_eq, List.all_eq_true] at h
      rcases List.mem_cons.1 hmem with hc | hcs
      · exact absurd (hc.trans h.1) (by decide)
      · exact h.2 _ hcs rfl

theorem count_newline_text {l : Lexeme} (hl : l.isProper) :
    l.text.toList.count '\n' = [l].count .newline := by
  cases l with
  | digits text =>
    refine List.count_eq_zero.2 fun hmem => ?_
    obtain ⟨d, ds, hdigits, hd, hds⟩ := isDigits_iff.1 hl
    rw [Lexeme.text, hdigits] at hmem
    rcases List.mem_cons.1 hmem with rfl | hmem
    · exact absurd hd (by decide)
    · exact absurd (hds _ hmem) (by decide)
  | name text =>
    refine List.count_eq_zero.2 fun hmem => ?_
    obtain ⟨c, cs, hname, hc, hcs⟩ := isName_iff.1 hl
    rw [Lexeme.text, hname] at hmem
    rcases List.mem_cons.1 hmem with rfl | hmem
    · exact absurd hc (by decide)
    · exact absurd (hcs _ hmem) (by decide)
  | operator op => cases op <;> rfl
  | _ => rfl

/-- Newlines stand in no other word, so every one of them is a token. -/
theorem Tokenises.count_newline {pos : Nat} {cs : List Char} {ts : List Token}
    (h : Tokenises pos cs ts) : (ts.map Token.lexeme).count .newline = cs.count '\n' := by
  induction h with
  | done => rfl
  | ignored hmunch hword _ ih =>
    rw [hmunch.split, List.count_append, ih,
      List.count_eq_zero.2 (not_mem_newline_of_isIgnored hword), Nat.zero_add]
  | lexeme hmunch hl _ ih =>
    rw [hmunch.split, List.count_append, count_newline_text hl, ← ih, List.map_cons,
      ← List.singleton_append, List.count_append]

end Calculator
