import ContractKit.Proofs.Json.RoundTrip

/-!
# What was read can be written and read again

A document that is read from a text has integers that are short enough, fractions that are
doubles, and objects whose fields have different names: a field that is repeated takes the place
of the first one.  So it can be changed, written and read again.
-/

namespace ContractKit

variable {j : Json} {fields : List (String × Json)}

theorem exists_of_bind_eq_ok {ε α β : Type} {x : Except ε α} {f : α → Except ε β} {b : β}
    (h : (x >>= f) = .ok b) : ∃ a, x = .ok a ∧ f a = .ok b := by
  cases x with
  | ok a => exact ⟨a, rfl, h⟩
  | error e => simp [bind, Except.bind] at h

namespace Json

/-! ## Numbers -/

theorem ofDigitChars_lt {cs : List Char} (hdigits : ∀ c ∈ cs, c.isDigit = true) {init bound : Nat}
    (hinit : init < bound) : Nat.ofDigitChars 10 cs init < bound * 10 ^ cs.length := by
  induction cs generalizing init bound with
  | nil => simpa using hinit
  | cons c cs ih =>
    have hc : c.isDigit = true := hdigits c List.mem_cons_self
    have hvalue : c.toNat - '0'.toNat < 10 := by
      simp only [Char.isDigit, Bool.and_eq_true, decide_eq_true_eq] at hc
      have hhigh : c.toNat ≤ 57 := hc.2
      have hzero : '0'.toNat = 48 := rfl
      omega
    rw [Nat.ofDigitChars_cons, List.length_cons, Nat.pow_succ', ← Nat.mul_assoc]
    apply ih fun d hd => hdigits d (List.mem_cons_of_mem c hd)
    omega

/-- So many digits stand for a number that is written with no more. -/
theorem length_toDigits_decimalDigits {cs : List Char} (hdigits : ∀ c ∈ cs, c.isDigit = true)
    (hpos : 0 < cs.length) : (Nat.toDigits 10 (decimalDigits cs)).length ≤ cs.length := by
  rw [Nat.length_toDigits_le_iff (by omega) hpos, decimalDigits_eq]
  simpa using ofDigitChars_lt hdigits Nat.one_pos

theorem readable_int {n : Nat} (h : (Nat.toDigits 10 n).length ≤ maxDigits) (isNegative : Bool) :
    Readable (.int (if isNegative then -(n : Int) else n)) := by
  cases isNegative <;> simpa [Readable] using h

theorem readable_number {c c' : Cursor} (h : number c = .ok (j, c')) : Readable j := by
  unfold number at h
  split at h
  rename_i isNegative rest hsigned
  extract_lets signSize whole rest' fraction fractionSize rest'' exponent size n power at h
  have hdigits : ∀ d ∈ whole, d.isDigit = true := by
    intro d hd
    simp only [whole] at hd
    split at hd
    · obtain rfl := List.mem_singleton.mp hd
      rfl
    · exact List.mem_takeWhile_imp hd
  clear_value whole
  split at h
  case isTrue => cases h
  case isFalse hempty =>
    split at h
    case isTrue =>
      -- An integer, which has no more digits than are read.
      split at h
      case isTrue => cases h
      case isFalse hlong =>
        obtain ⟨rfl, -⟩ := Prod.mk.inj (Except.ok.inj h)
        have hpos : 0 < whole.length := by
          rw [List.length_pos_iff]
          simpa using hempty
        exact readable_int ((length_toDigits_decimalDigits hdigits hpos).trans (by omega))
          isNegative
    case isFalse =>
      -- A fraction, which is rounded to a double.
      obtain ⟨rfl, -⟩ := Prod.mk.inj (Except.ok.inj h)
      exact Double.isProper_ofDecimal _ _ _

theorem readable_word? {c c' : Cursor} (h : word? c = some (j, c')) : Readable j := by
  unfold word? at h
  dsimp only at h
  split_ifs at h <;>
  · obtain ⟨rfl, -⟩ := Prod.mk.inj (Option.some.inj h)
    trivial

/-! ## Arrays and objects -/

theorem readableItems_iff {items : List Json} :
    ReadableItems items ↔ ∀ j ∈ items, Readable j := by
  induction items with
  | nil => simp [ReadableItems]
  | cons x xs ih => simp [ReadableItems, ih]

theorem readableFields_iff : ReadableFields fields ↔ ∀ entry ∈ fields, Readable entry.2 := by
  induction fields with
  | nil => simp [ReadableFields]
  | cons entry rest ih => simp [ReadableFields, ih]

/-- An object stays readable when a field of it is set. -/
theorem readable_set (h : Readable (.obj fields)) (name : String) (hj : Readable j) :
    Readable (.obj (Assoc.set name j fields)) := by
  refine ⟨?_, readableFields_iff.mpr fun entry hentry => ?_⟩
  · rw [Assoc.keys_set]
    exact Assoc.nodup_addKey h.1
  · rcases Assoc.mem_set hentry with hold | rfl
    · exact readableFields_iff.mp h.2 entry hold
    · exact hj

/-- What is found in a readable object is readable. -/
theorem Readable.of_get? (h : Readable (.obj fields)) {name : String}
    (hj : Assoc.get? name fields = some j) : Readable j :=
  readableFields_iff.mp h.2 _ (Assoc.mem_of_get? hj)

/-- What is read with some fuel is readable: documents, the items of an array after readable
ones, and the fields of an object after readable ones. -/
theorem readable_value_all (fuel : Nat) :
    (∀ c j c', value fuel c = .ok (j, c') → Readable j) ∧
    (∀ acc c items c', ReadableItems acc → itemsTail fuel acc c = .ok (items, c') →
      ReadableItems items) ∧
    (∀ acc c fields c', Readable (.obj acc) → fieldsTail fuel acc c = .ok (fields, c') →
      Readable (.obj fields)) := by
  induction fuel with
  | zero => simp [value, itemsTail, fieldsTail]
  | succ fuel ih =>
    obtain ⟨ihvalue, ihitems, ihfields⟩ := ih
    refine ⟨?_, ?_, ?_⟩
    · intro c j c' h
      rw [value.eq_def] at h
      dsimp only at h
      split at h
      case h_1 =>
        obtain ⟨⟨text, c₁⟩, -, hresult⟩ := exists_of_bind_eq_ok h
        obtain ⟨rfl, -⟩ := Prod.mk.inj (Except.ok.inj hresult)
        trivial
      case h_2 =>
        split at h
        · obtain ⟨rfl, -⟩ := Prod.mk.inj (Except.ok.inj h)
          trivial
        · obtain ⟨⟨items, c₁⟩, hitems, hresult⟩ := exists_of_bind_eq_ok h
          obtain ⟨rfl, -⟩ := Prod.mk.inj (Except.ok.inj hresult)
          exact ihitems [] _ items c₁ trivial hitems
      case h_3 =>
        split at h
        · obtain ⟨rfl, -⟩ := Prod.mk.inj (Except.ok.inj h)
          exact ⟨List.nodup_nil, trivial⟩
        · obtain ⟨⟨fields, c₁⟩, hfields, hresult⟩ := exists_of_bind_eq_ok h
          obtain ⟨rfl, -⟩ := Prod.mk.inj (Except.ok.inj hresult)
          exact ihfields [] _ fields c₁ ⟨List.nodup_nil, trivial⟩ hfields
      case h_4 =>
        split at h
        case h_1 r hword =>
          obtain rfl := Except.ok.inj h
          exact readable_word? hword
        case h_2 => exact readable_number h
    · intro acc c items c' hacc h
      rw [itemsTail.eq_def] at h
      obtain ⟨⟨item, c₁⟩, hitem, hrest⟩ := exists_of_bind_eq_ok h
      have hmore : ReadableItems (item :: acc) := ⟨ihvalue c item c₁ hitem, hacc⟩
      dsimp only at hrest
      split at hrest
      · obtain ⟨rfl, -⟩ := Prod.mk.inj (Except.ok.inj hrest)
        rw [readableItems_iff] at hmore ⊢
        exact fun j hj => hmore j (List.mem_reverse.mp hj)
      · exact ihitems _ _ items c' hmore hrest
      · cases hrest
    · intro acc c fields c' hacc h
      rw [fieldsTail.eq_def] at h
      dsimp only at h
      split at h
      case h_2 => cases h
      case h_1 =>
        obtain ⟨⟨name, c₁⟩, -, hafter⟩ := exists_of_bind_eq_ok h
        dsimp only at hafter
        split at hafter
        case h_2 => cases hafter
        case h_1 =>
          obtain ⟨⟨j, c₂⟩, hj, hrest⟩ := exists_of_bind_eq_ok hafter
          have hmore := readable_set hacc name (ihvalue _ j c₂ hj)
          dsimp only at hrest
          split at hrest
          · obtain ⟨rfl, -⟩ := Prod.mk.inj (Except.ok.inj hrest)
            exact hmore
          · exact ihfields _ _ fields c' hmore hrest
          · cases hrest

/-- The document of a text can be written and read again. -/
theorem readable_of_parse {text : String} (h : parse text = .ok j) : Readable j := by
  unfold parse at h
  dsimp only at h
  split at h
  case h_2 => cases h
  case h_1 v hresult =>
    obtain rfl := Except.ok.inj h
    split_ifs at hresult
    obtain ⟨⟨v', c⟩, hvalue, hend⟩ := exists_of_bind_eq_ok hresult
    dsimp only at hend
    split_ifs at hend
    obtain rfl := Except.ok.inj hend
    exact (readable_value_all _).1 _ v' c hvalue

end Json

end ContractKit
