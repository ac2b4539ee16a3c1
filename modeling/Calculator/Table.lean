/-!
# Tables

Association lists in the order in which their keys first came. Giving a key a new value leaves it in
its place.
-/

namespace Calculator

abbrev Table (α : Type) := List (String × α)

namespace Table

variable {α : Type}

def get? (t : Table α) (key : String) : Option α := (t.find? fun p => p.1 == key).map Prod.snd

def keys (t : Table α) : List String := t.map Prod.fst

def put (key : String) (value : α) : Table α → Table α
  | [] => [(key, value)]
  | (k, v) :: rest => if k = key then (k, value) :: rest else (k, v) :: put key value rest

/-- Puts the pairs one after the other. -/
def ofPairs (pairs : List (String × α)) : Table α := pairs.foldl (fun t p => put p.1 p.2 t) []

@[simp] theorem get?_nil (key : String) : get? ([] : Table α) key = none := rfl

theorem get?_put (t : Table α) (key other : String) (value : α) :
    get? (put key value t) other = if key = other then some value else get? t other := by
  induction t with
  | nil => by_cases h : key = other <;> simp [put, get?, h]
  | cons p rest ih =>
    obtain ⟨k, v⟩ := p
    by_cases hk : k = key
    · subst hk
      by_cases h : k = other <;> simp [put, get?, h]
    · by_cases h : k = other
      · subst h
        simp [put, hk, get?, Ne.symm hk]
      · simpa [put, hk, get?, h] using ih

/-- Pairs before the first one with the key are left alone. -/
theorem put_append {key : String} {before : Table α} (h : key ∉ keys before) (value : α)
    (rest : Table α) : put key value (before ++ rest) = before ++ put key value rest := by
  induction before with
  | nil => rfl
  | cons p before ih =>
    obtain ⟨k, v⟩ := p
    rw [keys, List.map_cons, List.mem_cons, not_or] at h
    rw [List.cons_append, put, if_neg (Ne.symm h.1), ih h.2]
    rfl

/-- A new key comes last, a known one keeps its place. -/
theorem keys_put (t : Table α) (key : String) (value : α) :
    keys (put key value t) = if key ∈ keys t then keys t else keys t ++ [key] := by
  induction t with
  | nil => rfl
  | cons p rest ih =>
    obtain ⟨k, v⟩ := p
    by_cases hk : k = key
    · subst hk
      simp [put, keys]
    · simp only [put, hk, if_false, keys, List.map_cons, List.mem_cons, Ne.symm hk, false_or]
        at ih ⊢
      by_cases h : key ∈ rest.map Prod.fst <;> simp [ih, h]

end Table

end Calculator
