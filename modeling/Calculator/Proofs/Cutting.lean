import Mathlib.Data.List.Basic
import Calculator.Proofs.Munch

/-!
# Cutting up the front of a text

How far a text is cut up, whether or not it can be cut up to its end. `Cuts` is `Tokenises` for the
front of a text: the words are the longest in the whole text, and what comes after the front may be
anything.

1. The front of a text that is cut up to its end is the text (`cuts_nil_iff`). Cuts of fronts that
   follow each other are joined (`Cuts.append`), and a cut is taken apart at each of its tokens
   (`Cuts.exists_split`).
2. What comes after a front matters only as far as it could make the last word longer
   (`Cuts.replace`).
3. The scan cuts up the front before a stray character, where no word begins (`exists_cuts_scan`).
-/

namespace Calculator

/-- The text `front ++ rest` begins at position `pos`. Its front is cut up into words, always the
longest in the text, and these are the tokens among them. -/
inductive Cuts : Nat → List Char → List Char → List Token → Prop where
  | nothing {pos rest} : Cuts pos [] rest []
  | ignored {pos word front rest ts} : Munch (word ++ (front ++ rest)) word (front ++ rest) →
      isIgnored word → Cuts (pos + word.length) front rest ts → Cuts pos (word ++ front) rest ts
  | lexeme {pos front rest ts} {l : Lexeme} :
      Munch (l.text.toList ++ (front ++ rest)) l.text.toList (front ++ rest) → l.isProper →
      Cuts (pos + l.text.toList.length) front rest ts →
      Cuts pos (l.text.toList ++ front) rest (⟨l, pos⟩ :: ts)

theorem cuts_nil_iff {pos : Nat} {cs : List Char} {ts : List Token} :
    Cuts pos cs [] ts ↔ Tokenises pos cs ts := by
  constructor
  · intro h
    generalize hrest : ([] : List Char) = rest at h
    induction h with
    | nothing => exact .done
    | ignored hmunch hword _ ih =>
      subst hrest
      rw [List.append_nil] at hmunch
      exact .ignored hmunch hword (ih rfl)
    | lexeme hmunch hl _ ih =>
      subst hrest
      rw [List.append_nil] at hmunch
      exact .lexeme hmunch hl (ih rfl)
  · intro h
    induction h with
    | done => exact .nothing
    | @ignored pos cs word rest ts hmunch hword _ ih =>
      obtain rfl := hmunch.split
      rw [← List.append_nil rest] at hmunch
      exact .ignored (List.append_nil rest ▸ hmunch) hword ih
    | lexeme hmunch hl _ ih =>
      obtain rfl := hmunch.split
      exact .lexeme (by rwa [List.append_nil]) hl ih

/-! ## Taking cuts apart and joining them -/

theorem Cuts.append {pos : Nat} {front front' rest : List Char} {ts ts' : List Token}
    (h : Cuts pos front (front' ++ rest) ts) (h' : Cuts (pos + front.length) front' rest ts') :
    Cuts pos (front ++ front') rest (ts ++ ts') := by
  generalize hafter : front' ++ rest = after at h
  induction h with
  | nothing => exact h'
  | @ignored pos word front after ts hmunch hword _ ih =>
    subst hafter
    rw [List.append_assoc]
    rw [List.length_append, ← Nat.add_assoc] at h'
    exact .ignored (by rwa [List.append_assoc front]) hword (ih h' rfl)
  | @lexeme pos front after ts l hmunch hl _ ih =>
    subst hafter
    rw [List.append_assoc, List.cons_append]
    rw [List.length_append, ← Nat.add_assoc] at h'
    exact .lexeme (by rwa [List.append_assoc front]) hl (ih h' rfl)

/-- A cut taken apart before one of its tokens, and after it. -/
theorem Cuts.exists_split {pos : Nat} {front rest : List Char} {before after : List Token}
    {t : Token} (h : Cuts pos front rest (before ++ t :: after)) :
    ∃ left right, front = left ++ (t.lexeme.text.toList ++ right) ∧
      t.start = pos + left.length ∧ t.lexeme.isProper ∧
      Cuts pos left (t.lexeme.text.toList ++ (right ++ rest)) before ∧
      Munch (t.lexeme.text.toList ++ (right ++ rest)) t.lexeme.text.toList (right ++ rest) ∧
      Cuts (pos + left.length + t.lexeme.text.toList.length) right rest after := by
  generalize hall : before ++ t :: after = ts at h
  induction h generalizing before with
  | nothing => cases before <;> cases hall
  | @ignored pos word front rest ts hmunch hword _ ih =>
    obtain ⟨left, right, rfl, hstart, hproper, hleft, hmid, hright⟩ := ih hall
    refine ⟨word ++ left, right, (List.append_assoc _ _ _).symm, ?_, hproper, ?_, hmid, ?_⟩
    · rw [hstart, List.length_append, Nat.add_assoc]
    · rw [List.append_assoc, List.append_assoc] at hmunch
      exact .ignored hmunch hword hleft
    · rw [List.length_append, ← Nat.add_assoc]
      exact hright
  | @lexeme pos front rest ts l hmunch hl hcuts ih =>
    cases before with
    | nil =>
      cases hall
      exact ⟨[], front, rfl, rfl, hl, .nothing, hmunch, hcuts⟩
    | cons u before =>
      obtain ⟨rfl, htail⟩ := List.cons.inj hall
      obtain ⟨left, right, rfl, hstart, hproper, hleft, hmid, hright⟩ := ih htail
      refine ⟨l.text.toList ++ left, right, (List.append_assoc _ _ _).symm, ?_, hproper, ?_, hmid,
        ?_⟩
      · rw [hstart, List.length_append, Nat.add_assoc]
      · rw [List.append_assoc, List.append_assoc] at hmunch
        exact .lexeme hmunch hl hleft
      · rw [List.length_append, ← Nat.add_assoc]
        exact hright

/-! ## What comes after the front -/

/-- A longest word ends where what comes next does not continue it. -/
theorem Munch.exists_continuation {word rest : List Char} (h : Munch (word ++ rest) word rest) :
    ∃ c cs p, word = c :: cs ∧ continuation? c = some p ∧ (∀ d ∈ cs, p d) ∧
      ∀ d ∈ rest.head?, ¬ p d := by
  obtain ⟨c, cs, rfl⟩ := List.exists_cons_of_ne_nil h.isWord.ne_nil
  rw [List.cons_append] at h
  obtain ⟨p, hp, hword, hrest⟩ := munch_iff.1 h
  obtain ⟨q, hq, hcs⟩ := isWord_cons.1 h.isWord
  obtain rfl : p = q := Option.some.inj (hp.symm.trans hq)
  refine ⟨c, cs, p, rfl, hp, hcs, fun d hd hpd => ?_⟩
  -- otherwise the first character after the word would be dropped as well
  obtain ⟨tail, rfl⟩ := List.head?_eq_some_iff.1 hd
  rw [List.dropWhile_append_of_pos hcs, List.dropWhile_cons_of_pos hpd] at hrest
  have hlength := congrArg List.length hrest
  have hle := (tail.dropWhile_sublist p).length_le
  rw [List.length_cons] at hlength
  omega

/-- Any word of the front that `after'` would make longer is made longer by `after` already. -/
def Covers (front after after' : List Char) : Prop :=
  ∀ c ∈ front, ∀ p, continuation? c = some p → ∀ d' ∈ after'.head?, p d' → ∃ d ∈ after.head?, p d

theorem Covers.mono {front front' after after' : List Char} (h : Covers front after after')
    (hsub : front' ⊆ front) : Covers front' after after' := fun c hc => h c (hsub hc)

theorem Covers.append_left {front after after' : List Char} (h : Covers front after after')
    (middle : List Char) : Covers front (middle ++ after) (middle ++ after') := by
  intro c hc p hp d' hd' hpd
  cases middle with
  | nil => exact h c hc p hp d' hd' hpd
  | cons d middle => exact ⟨d', hd', hpd⟩

theorem Munch.replace {word rest rest' : List Char} (h : Munch (word ++ rest) word rest)
    (hrest : Covers word rest rest') : Munch (word ++ rest') word rest' := by
  obtain ⟨c, cs, p, rfl, hp, hcs, hhead⟩ := h.exists_continuation
  refine munch_append hp hcs fun d' hd' hpd => ?_
  obtain ⟨d, hd, hpd⟩ := hrest c List.mem_cons_self p hp d' hd' hpd
  exact hhead d hd hpd

/-- The front is cut up alike whatever comes after it, unless a word goes on there. -/
theorem Cuts.replace {pos : Nat} {front rest rest' : List Char} {ts : List Token}
    (h : Cuts pos front rest ts) (hrest : Covers front rest rest') : Cuts pos front rest' ts := by
  induction h with
  | nothing => exact .nothing
  | @ignored pos word front rest ts hmunch hword _ ih =>
    have hwhole := hrest.mono (List.subset_append_left word front)
    exact .ignored (hmunch.replace (hwhole.append_left front)) hword
      (ih (hrest.mono (List.subset_append_right word front)))
  | @lexeme pos front rest ts l hmunch hl _ ih =>
    have hwhole := hrest.mono (List.subset_append_left l.text.toList front)
    exact .lexeme (hmunch.replace (hwhole.append_left front)) hl
      (ih (hrest.mono (List.subset_append_right l.text.toList front)))

/-- Where the text begins makes no difference but to the positions. -/
theorem Cuts.exists_at {pos : Nat} {front rest : List Char} {ts : List Token}
    (h : Cuts pos front rest ts) (pos' : Nat) :
    ∃ ts', Cuts pos' front rest ts' ∧ ts'.map Token.lexeme = ts.map Token.lexeme := by
  induction h generalizing pos' with
  | nothing => exact ⟨[], .nothing, rfl⟩
  | ignored hmunch hword _ ih =>
    obtain ⟨ts', hcuts, hlexemes⟩ := ih (pos' + _)
    exact ⟨ts', .ignored hmunch hword hcuts, hlexemes⟩
  | lexeme hmunch hl _ ih =>
    obtain ⟨ts', hcuts, hlexemes⟩ := ih (pos' + _)
    refine ⟨_, .lexeme hmunch hl hcuts, ?_⟩
    rw [List.map_cons, hlexemes, List.map_cons]

/-! ## The scan -/

theorem continuation?_eq_none_iff {c : Char} {cs : List Char} :
    continuation? c = none ↔ ∀ word after, c :: cs = word ++ after → ¬ IsWord word := by
  constructor
  · intro hc word after hsplit hword
    obtain ⟨d, ds, rfl⟩ := List.exists_cons_of_ne_nil hword.ne_nil
    obtain ⟨rfl, -⟩ := List.cons.inj hsplit
    obtain ⟨p, hp, -⟩ := isWord_cons.1 hword
    rw [hc] at hp
    cases hp
  · intro h
    refine Option.eq_none_iff_forall_not_mem.2 fun p hp => ?_
    exact h [c] cs rfl (isWord_cons.2 ⟨p, hp, fun d hd => nomatch hd⟩)

namespace Tokens

/-- A scan cuts up the text as far as words begin. -/
theorem exists_cuts_scan (pos : Nat) (cs : List Char) :
    ∃ front rest, cs = front ++ rest ∧ Cuts pos front rest (scan pos 0 cs).list ∧
      (rest = [] ∧ (scan pos 0 cs).stray = none ∨
        ∃ c after, rest = c :: after ∧ continuation? c = none ∧
          (scan pos 0 cs).stray = some ⟨c, pos + front.length⟩) := by
  induction hn : cs.length using Nat.strongRecOn generalizing pos cs with
  | _ n ih =>
  cases cs with
  | nil => exact ⟨[], [], rfl, .nothing, .inl ⟨rfl, rfl⟩⟩
  | cons c tail =>
    rcases hc : continuation? c with _ | p
    · rw [scan_of_continuation?_none pos tail hc]
      exact ⟨[], c :: tail, rfl, .nothing, .inr ⟨c, tail, rfl, hc, rfl⟩⟩
    · have hmunch : Munch (c :: tail) (c :: tail.takeWhile p) (tail.dropWhile p) :=
        munch_iff.2 ⟨p, hc, rfl, rfl⟩
      generalize hword : c :: tail.takeWhile p = word at hmunch
      have hlt : (tail.dropWhile p).length < n := by
        have := (tail.dropWhile_sublist p).length_le
        rw [← hn, List.length_cons]
        omega
      obtain ⟨front, rest, hsplit, hcuts, hstray⟩ :=
        ih _ hlt (pos + word.length) (tail.dropWhile p) rfl
      have hcut : Munch (word ++ (front ++ rest)) word (front ++ rest) := by
        rw [← hsplit, ← hmunch.split]
        exact hmunch
      have hlength : pos + word.length + front.length = pos + (word ++ front).length := by
        rw [List.length_append, Nat.add_assoc]
      rw [hlength] at hstray
      rcases hmunch.isWord with hignored | ⟨l, hl, rfl⟩
      · rw [scan_of_munch_ignored pos hmunch hignored]
        refine ⟨word ++ front, rest, ?_, .ignored hcut hignored hcuts, hstray⟩
        rw [List.append_assoc, ← hsplit, hmunch.split]
      · rw [scan_of_munch_lexeme pos hmunch hl]
        refine ⟨l.text.toList ++ front, rest, ?_, .lexeme hcut hl hcuts, hstray⟩
        rw [List.append_assoc, ← hsplit, hmunch.split]

end Tokens

end Calculator
