import ContractKit.Data.Assoc

/-!
# Looking up and belonging

What a look-up finds is an entry of the table, and a table made from entries with
different keys is the list of those entries.  A table in which keys are set grows at its end,
by those that it does not have.
-/

namespace ContractKit.Assoc

variable {κ ν : Type} [BEq κ] [LawfulBEq κ]

theorem mem_of_get? {k : κ} {v : ν} {t : Assoc κ ν} (h : get? k t = some v) : (k, v) ∈ t := by
  induction t with
  | nil => simp [get?] at h
  | cons e rest ih =>
    obtain ⟨k', v'⟩ := e
    simp only [get?] at h
    split at h
    case isTrue heq =>
      obtain rfl : k' = k := eq_of_beq heq
      obtain rfl := Option.some.inj h
      exact List.mem_cons_self
    case isFalse => exact List.mem_cons_of_mem _ (ih h)

theorem get?_eq_none_of_not_mem_keys {k : κ} {t : Assoc κ ν} (h : k ∉ keys t) :
    get? k t = none := by
  cases hk : get? k t with
  | none => rfl
  | some v => exact (h (List.mem_map_of_mem (f := Prod.fst) (mem_of_get? hk))).elim

/-- A new key comes last. -/
theorem set_of_not_mem_keys {k : κ} {t : Assoc κ ν} (h : k ∉ keys t) (v : ν) :
    set k v t = t ++ [(k, v)] :=
  set_of_not_has (by simp [has, get?_eq_none_of_not_mem_keys h]) v

/-- Setting a key twice leaves the second value. -/
theorem set_set (k : κ) (v w : ν) (t : Assoc κ ν) : set k w (set k v t) = set k w t := by
  induction t with
  | nil => simp [set]
  | cons e rest ih =>
    obtain ⟨k', v'⟩ := e
    by_cases h : k' = k
    · simp [set, h]
    · simp [set, h, ih]

/-- An entry of a table whose keys are different is what is found. -/
theorem get?_of_mem {k : κ} {v : ν} {t : Assoc κ ν} (hkeys : (keys t).Nodup) (h : (k, v) ∈ t) :
    get? k t = some v := by
  induction t with
  | nil => simp at h
  | cons e rest ih =>
    obtain ⟨k', v'⟩ := e
    simp only [keys, List.map_cons, List.nodup_cons] at hkeys
    rcases List.mem_cons.mp h with heq | hrest
    · obtain ⟨rfl, rfl⟩ := Prod.mk.inj heq
      simp [get?]
    · have hne : k' ≠ k := by
        intro heq
        subst heq
        exact hkeys.1 (List.mem_map_of_mem (f := Prod.fst) hrest)
      simpa [get?, hne] using ih hkeys.2 hrest

omit [LawfulBEq κ] in
/-- What is found in a table is found in any longer one that begins with it. -/
theorem get?_of_isPrefix {t t' : Assoc κ ν} (h : t <+: t') {k : κ} {v : ν}
    (hget : get? k t = some v) : get? k t' = some v := by
  obtain ⟨back, rfl⟩ := h
  induction t with
  | nil => simp [get?] at hget
  | cons e rest ih =>
    obtain ⟨k', v'⟩ := e
    simp only [get?, List.cons_append] at hget ⊢
    split at hget
    case isTrue heq => rw [if_pos heq, hget]
    case isFalse hne => rw [if_neg hne, ih hget]

/-- The keys of a table are those it had and the one that is set. -/
theorem has_set {k l : κ} {v : ν} {t : Assoc κ ν} :
    has l (set k v t) = true ↔ l = k ∨ has l t = true := by
  by_cases h : l = k
  · simp [has, h]
  · simp [has, get?_set_of_ne h, h]

/-- What is set in a table was there before or is the new entry. -/
theorem mem_set {k : κ} {v : ν} {t : Assoc κ ν} {e : κ × ν} (h : e ∈ set k v t) :
    e ∈ t ∨ e = (k, v) := by
  induction t with
  | nil => simpa [set] using h
  | cons e' rest ih =>
    obtain ⟨k', v'⟩ := e'
    simp only [set] at h
    split at h
    case isTrue heq =>
      obtain rfl : k' = k := eq_of_beq heq
      rcases List.mem_cons.mp h with rfl | hrest
      · exact .inr rfl
      · exact .inl (List.mem_cons_of_mem _ hrest)
    case isFalse =>
      rcases List.mem_cons.mp h with rfl | hrest
      · exact .inl List.mem_cons_self
      · exact (ih hrest).imp_left (List.mem_cons_of_mem _)

theorem mem_foldl_set {entries : List (κ × ν)} {e : κ × ν} {t : Assoc κ ν}
    (h : e ∈ entries.foldl (fun t (k, v) => set k v t) t) : e ∈ t ∨ e ∈ entries := by
  induction entries generalizing t with
  | nil => exact .inl h
  | cons new rest ih =>
    rcases ih h with hset | hrest
    · rcases mem_set hset with hold | rfl
      · exact .inl hold
      · exact .inr List.mem_cons_self
    · exact .inr (List.mem_cons_of_mem _ hrest)

/-- A table made from entries holds no others. -/
theorem mem_ofList {entries : List (κ × ν)} {e : κ × ν} (h : e ∈ ofList entries) :
    e ∈ entries :=
  (mem_foldl_set h).resolve_left (by simp)

theorem get?_foldl_set_of_not_mem {entries : List (κ × ν)} {k : κ} (h : k ∉ keys entries)
    (t : Assoc κ ν) : get? k (entries.foldl (fun t (k, v) => set k v t) t) = get? k t := by
  induction entries generalizing t with
  | nil => rfl
  | cons new rest ih =>
    simp only [keys, List.map_cons, List.mem_cons, not_or] at h
    rw [List.foldl_cons, ih h.2]
    exact get?_set_of_ne h.1 new.2 t

/-- Of several entries with one key the last counts. -/
theorem get?_ofList_of_last {front back : List (κ × ν)} {k : κ} (v : ν) (h : k ∉ keys back) :
    get? k (ofList (front ++ (k, v) :: back)) = some v := by
  rw [ofList, List.foldl_append, List.foldl_cons, get?_foldl_set_of_not_mem h]
  exact get?_set_self k v _

theorem foldl_set_of_nodup {entries : List (κ × ν)} {t : Assoc κ ν}
    (h : (keys (t ++ entries)).Nodup) :
    entries.foldl (fun t (k, v) => set k v t) t = t ++ entries := by
  induction entries generalizing t with
  | nil => simp
  | cons new rest ih =>
    obtain ⟨k, v⟩ := new
    have hsplit : t ++ (k, v) :: rest = (t ++ [(k, v)]) ++ rest := by simp
    have hnew : k ∉ keys t := by
      simp only [keys, List.map_append, List.map_cons, List.nodup_append] at h
      exact fun hk => h.2.2 k hk k List.mem_cons_self rfl
    simp only [List.foldl_cons, set_of_not_mem_keys hnew]
    rw [hsplit] at h ⊢
    exact ih h

/-- Entries with different keys are the table they make. -/
theorem ofList_of_nodup {entries : List (κ × ν)} (h : (keys entries).Nodup) :
    ofList entries = entries :=
  foldl_set_of_nodup (t := []) h

/-! ## Keeping some keys -/

/-- What is found among the entries of some keys. -/
theorem get?_filter (keep : κ → Bool) (k : κ) (t : Assoc κ ν) :
    get? k (t.filter fun entry => keep entry.1) = if keep k then get? k t else none := by
  induction t with
  | nil => simp [get?]
  | cons entry rest ih =>
    obtain ⟨k', v⟩ := entry
    by_cases hk : k' = k
    · cases hkeep : keep k
      · simp [hk, hkeep, ih]
      · simp [hk, hkeep, get?]
    · cases hkeep : keep k' <;> simp [hkeep, get?, hk, ih]

/-- Setting one of the keys that are kept. -/
theorem filter_set {keep : κ → Bool} {k : κ} (h : keep k = true) (v : ν) (t : Assoc κ ν) :
    (set k v t).filter (fun entry => keep entry.1) =
      set k v (t.filter fun entry => keep entry.1) := by
  induction t with
  | nil => simp [set, h]
  | cons entry rest ih =>
    obtain ⟨k', v'⟩ := entry
    by_cases hk : k' = k
    · simp [set, hk, h]
    · cases hkeep : keep k' <;> simp [set, hk, hkeep, ih]

/-! ## Growing -/

/-- Keys with another one: a new one goes to the end. -/
def addKey (ks : List κ) (k : κ) : List κ := if ks.contains k then ks else ks ++ [k]

/-- The keys of a table in which others are set in turn. -/
def grow (ks new : List κ) : List κ := new.foldl addKey ks

theorem has_iff_mem_keys {k : κ} {t : Assoc κ ν} : has k t = true ↔ k ∈ keys t := by
  induction t with
  | nil => simp [has, get?, keys]
  | cons e rest ih =>
    obtain ⟨k', v⟩ := e
    by_cases hk : k' = k
    · simp [has, get?, keys, hk]
    · simp only [has, keys] at ih
      simp [has, get?, keys, hk, Ne.symm hk, ih]

theorem keys_set (k : κ) (v : ν) (t : Assoc κ ν) : keys (set k v t) = addKey (keys t) k := by
  by_cases hk : k ∈ keys t
  · simp [addKey, hk, keys_set_of_has (has_iff_mem_keys.mpr hk) v]
  · have hnew : has k t = false := by simpa [← has_iff_mem_keys] using hk
    simp only [keys] at hk
    simp [addKey, hk, set_of_not_has hnew v, keys]

omit [LawfulBEq κ] in
/-- Looking up a key after every value has been changed. -/
theorem get?_map_values {μ : Type} (g : ν → μ) (k : κ) (t : Assoc κ ν) :
    get? k (t.map fun entry => (entry.1, g entry.2)) = (get? k t).map g := by
  induction t with
  | nil => rfl
  | cons entry rest ih =>
    obtain ⟨k', v⟩ := entry
    by_cases hk : k' == k
    · simp [get?, hk]
    · simpa [get?, hk] using ih

/-- A table in which keys are different is known, up to a change of its values, from its keys and
from what is found under them. -/
theorem map_values_eq {μ : Type} {g : ν → μ} {t t' : Assoc κ ν} (hkeys : keys t' = keys t)
    (hnodup : (keys t).Nodup)
    (hget : ∀ k ∈ keys t, (get? k t').map g = (get? k t).map g) :
    t'.map (Prod.map id g) = t.map (Prod.map id g) := by
  induction t generalizing t' with
  | nil => simpa [keys] using hkeys
  | cons e rest ih =>
    obtain ⟨k, v⟩ := e
    cases t' with
    | nil => simp [keys] at hkeys
    | cons e' rest' =>
      obtain ⟨k', v'⟩ := e'
      simp only [keys, List.map_cons, List.cons.injEq, List.nodup_cons] at hkeys hnodup
      obtain ⟨rfl, hrest⟩ := hkeys
      have hfirst : g v' = g v := by simpa [keys, get?] using hget k' (by simp [keys])
      have hothers := ih hrest hnodup.2 fun l hl => by
        have hne : k' ≠ l := fun h => hnodup.1 (h ▸ hl)
        simpa [get?, hne] using hget l (List.mem_cons_of_mem _ hl)
      simp [hfirst, hothers]

section Grow

variable {ks js new : List κ} {k : κ}

omit [LawfulBEq κ] in
theorem addKey_isPrefix : ks <+: addKey ks k := by
  unfold addKey
  split
  · exact List.prefix_rfl
  · exact List.prefix_append ks [k]

omit [LawfulBEq κ] in
theorem isPrefix_grow : ks <+: grow ks new := by
  induction new generalizing ks with
  | nil => exact List.prefix_rfl
  | cons k rest ih => exact addKey_isPrefix.trans ih

theorem nodup_addKey (h : ks.Nodup) : (addKey ks k).Nodup := by
  unfold addKey
  split
  · exact h
  · grind

theorem nodup_grow (h : ks.Nodup) : (grow ks new).Nodup := by
  induction new generalizing ks with
  | nil => exact h
  | cons k rest ih => exact ih (nodup_addKey h)

/-- Keys that are set anyway may be there before, if they come in the same order. -/
theorem grow_eq_of_isPrefix (hjs : js <+: ks) (hks : ks <+: grow js new) :
    grow ks new = grow js new := by
  induction new generalizing js ks with
  | nil => exact hks.eq_of_length (Nat.le_antisymm hks.length_le hjs.length_le)
  | cons k rest ih =>
    by_cases hold : k ∈ js
    · have hboth : addKey js k = js ∧ addKey ks k = ks := by
        simp [addKey, hold, hjs.subset hold]
      simp only [grow, List.foldl_cons, hboth] at hks ⊢
      exact ih hjs hks
    · have hadd : addKey js k = js ++ [k] := by simp [addKey, hold]
      have hnext : js ++ [k] <+: grow js (k :: rest) := hadd ▸ isPrefix_grow
      rcases Nat.lt_or_ge js.length ks.length with hlt | hge
      · -- The new key is the next of those that were there before.
        have hprefix : js ++ [k] <+: ks :=
          List.prefix_of_prefix_length_le hnext hks (by rw [List.length_append]; exact hlt)
        have hthere : k ∈ ks := hprefix.subset (by simp)
        have hkeep : addKey ks k = ks := by simp [addKey, hthere]
        simp only [grow, List.foldl_cons, hadd, hkeep] at hks ⊢
        exact ih hprefix hks
      · rw [hjs.eq_of_length_le hge]

/-- What a table had before does not matter for its keys iff these are the first of those that
are set. -/
theorem grow_eq_iff : grow ks new = grow [] new ↔ ks <+: grow [] new := by
  refine ⟨fun h => ?_, fun h => ?_⟩
  · rw [← h]
    exact isPrefix_grow
  · exact grow_eq_of_isPrefix List.nil_prefix h

end Grow

end ContractKit.Assoc
