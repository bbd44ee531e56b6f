/-!
# Tables that remember the order of insertion

A table is a list of keys with their values.  Setting a key that is there keeps its place
and changes its value; a new key goes to the end.
-/

namespace ContractKit

/-- A table from keys to values, in order of insertion. -/
abbrev Assoc (κ ν : Type) := List (κ × ν)

namespace Assoc

variable {κ ν : Type} [BEq κ]

def get? (k : κ) : Assoc κ ν → Option ν
  | [] => none
  | (k', v) :: rest => if k' == k then some v else get? k rest

/-- Whether a key is in the table. -/
def has (k : κ) (t : Assoc κ ν) : Bool := (get? k t).isSome

/-- Sets a key: in its place if it is there, at the end otherwise. -/
def set (k : κ) (v : ν) : Assoc κ ν → Assoc κ ν
  | [] => [(k, v)]
  | (k', v') :: rest => if k' == k then (k', v) :: rest else (k', v') :: set k v rest

def keys (t : Assoc κ ν) : List κ := t.map Prod.fst

def values (t : Assoc κ ν) : List ν := t.map Prod.snd

/-- The table without a key. -/
def erase (k : κ) (t : Assoc κ ν) : Assoc κ ν := t.filter fun (k', _) => !(k' == k)

/-- A table from entries; a repeated key keeps its first place and takes its last value. -/
def ofList (entries : List (κ × ν)) : Assoc κ ν :=
  entries.foldl (fun t (k, v) => set k v t) []

section Lemmas

variable [LawfulBEq κ]

@[simp] theorem get?_set_self (k : κ) (v : ν) (t : Assoc κ ν) : get? k (set k v t) = some v := by
  induction t with
  | nil => simp [set, get?]
  | cons e rest ih =>
    obtain ⟨k', v'⟩ := e
    by_cases h : k' = k
    · simp [set, get?, h]
    · simp [set, get?, h, ih]

/-- Setting one key leaves the others. -/
theorem get?_set_of_ne {k l : κ} (h : l ≠ k) (v : ν) (t : Assoc κ ν) :
    get? l (set k v t) = get? l t := by
  induction t with
  | nil => simp [set, get?, Ne.symm h]
  | cons e rest ih =>
    obtain ⟨k', v'⟩ := e
    by_cases hk : k' = k
    · subst hk
      simp [set, get?, Ne.symm h]
    · by_cases hl : k' = l
      · subst hl
        simp [set, get?, hk]
      · simp [set, get?, hk, hl, ih]

/-- Setting a key that is there keeps the keys and their order. -/
theorem keys_set_of_has {k : κ} {t : Assoc κ ν} (h : has k t = true) (v : ν) :
    keys (set k v t) = keys t := by
  induction t with
  | nil => simp [has, get?] at h
  | cons e rest ih =>
    obtain ⟨k', v'⟩ := e
    by_cases hk : k' = k
    · simp [set, keys, hk]
    · have hr : has k rest = true := by simpa [has, get?, hk] using h
      have hi := ih hr
      simp only [keys] at hi
      simp [set, keys, hk, hi]

/-- Setting a new key adds it at the end. -/
theorem set_of_not_has {k : κ} {t : Assoc κ ν} (h : has k t = false) (v : ν) :
    set k v t = t ++ [(k, v)] := by
  induction t with
  | nil => rfl
  | cons e rest ih =>
    obtain ⟨k', v'⟩ := e
    by_cases hk : k' = k
    · simp [has, get?, hk] at h
    · have hr : has k rest = false := by simpa [has, get?, hk] using h
      simp [set, hk, ih hr]

end Lemmas

end Assoc

end ContractKit
