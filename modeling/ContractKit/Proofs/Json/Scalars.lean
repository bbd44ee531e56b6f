import Mathlib
import ContractKit.Json.Read
import ContractKit.Json.Write
import ContractKit.Proofs.Text.Decode

/-!
# Texts and integers in documents

A text is written between quotes with escapes, an integer by its digits.  Both are read as they
were written, whatever may follow them in a document.
-/

namespace ContractKit

open Text

/-! ## Hexadecimal digits -/

namespace Text

/-- The last digit of a filled number. -/
theorem hexPadded_succ (width n : Nat) :
    hexPadded (width + 2) n = hexPadded (width + 1) (n / 16) ++ [(n % 16).digitChar] := by
  rcases Nat.lt_or_ge n 16 with h | h
  · have hzero : n / 16 = 0 := by omega
    have hmod : n % 16 = n := Nat.mod_eq_of_lt h
    have hfill : width + 2 - 1 = width + 1 := rfl
    simp only [hexPadded, hzero, hmod, Nat.toDigits_of_lt_base h, Nat.toDigits_zero,
      List.length_singleton, Nat.add_sub_cancel, hfill, List.replicate_succ']
  · have hfill : ∀ size, width + 2 - (size + 1) = width + 1 - size := by omega
    simp only [hexPadded, Nat.toDigits_of_base_le (by omega) h, List.length_append,
      List.length_singleton, hfill, List.append_assoc]

theorem hexPadded_one {n : Nat} (h : n < 16) : hexPadded 1 n = [n.digitChar] := by
  simp [hexPadded, Nat.toDigits_of_lt_base h]

theorem hexValue?_digitChar {d : Nat} (h : d < 16) : hexValue? d.digitChar = some d := by
  have hall : ∀ d < 16, hexValue? (Nat.digitChar d) = some d := by decide
  exact hall d h

theorem hexPadded_four {n : Nat} (h : n < 0x10000) :
    hexPadded 4 n = [(n / 4096).digitChar, (n / 256 % 16).digitChar, (n / 16 % 16).digitChar,
      (n % 16).digitChar] := by
  rw [hexPadded_succ, hexPadded_succ, hexPadded_succ, hexPadded_one (by omega)]
  simp only [Nat.div_div_eq_div_mul, List.cons_append, List.nil_append]

end Text

namespace Json

/-- Four digits are read as their number. -/
theorem fourHex?_hexPadded {n : Nat} (h : n < 0x10000) (rest : List Char) :
    fourHex? (hexPadded 4 n ++ rest) = some n := by
  rw [hexPadded_four h]
  simp only [List.cons_append, fourHex?, hexValue?_digitChar (show n / 4096 < 16 by omega),
    hexValue?_digitChar (show n / 256 % 16 < 16 by omega),
    hexValue?_digitChar (show n / 16 % 16 < 16 by omega),
    hexValue?_digitChar (show n % 16 < 16 by omega)]
  simp only [bind, Option.bind, Option.some.injEq]
  omega

theorem length_hexPadded_four {n : Nat} (h : n < 0x10000) : (hexPadded 4 n).length = 4 := by
  rw [hexPadded_four h]
  rfl

theorem drop_hexPadded_four {n : Nat} (h : n < 0x10000) (more : List Char) :
    (hexPadded 4 n ++ more).drop 4 = more :=
  List.drop_left' (length_hexPadded_four h)

/-! ## Texts -/

section Texts

variable (start fuel : Nat) (acc : List Char) (position : Nat) {rest : List Char}

theorem stringTail_plain {c : Char} (hquote : c ≠ '"') (hescape : c ≠ '\\') (hc : 32 ≤ c.toNat) :
    stringTail start (fuel + 1) acc ⟨position, c :: rest⟩ =
      stringTail start fuel (c :: acc) ⟨position + 1, rest⟩ := by
  rw [stringTail.eq_def]
  simp only
  split
  case h_1 h => exact absurd h (by simp)
  case h_2 h => exact absurd (List.cons.inj h).1 hquote
  case h_3 h => exact absurd (List.cons.inj h).1 hescape
  case h_4 h => exact absurd (List.cons.inj h).1 hescape
  case h_5 h => exact absurd (List.cons.inj h).1 hescape
  case h_6 c' rest' _ _ _ h =>
    obtain ⟨rfl, rfl⟩ := List.cons.inj h
    rw [if_neg (by omega)]
    rfl

theorem stringTail_unit {n : Nat} (h : n < 0x10000) (hsurrogate : n < 0xD800 ∨ 0xE000 ≤ n)
    (hrest : rest ≠ []) :
    stringTail start (fuel + 1) acc ⟨position, unitEscape n ++ rest⟩ =
      stringTail start fuel (Char.ofNat n :: acc) ⟨position + 6, rest⟩ := by
  have hlength := length_hexPadded_four h
  have hmore := List.length_pos_iff.mpr hrest
  have hlong : ¬ (hexPadded 4 n ++ rest).length < 5 := by
    rw [List.length_append]
    omega
  have hdrop := drop_hexPadded_four h rest
  have hchar : unitText n = [Char.ofNat n] := if_neg (by omega)
  simp only [unitEscape, List.cons_append]
  rw [stringTail]
  simp only [if_neg hlong, fourHex?_hexPadded h, hchar]
  rw [if_neg (by omega)]
  simp [Cursor.advance, hdrop]

theorem stringTail_pair {n : Nat} (h : n < 0x100000) (hrest : rest ≠ []) :
    stringTail start (fuel + 1) acc
        ⟨position, unitEscape (0xD800 + n / 0x400) ++ unitEscape (0xDC00 + n % 0x400) ++ rest⟩ =
      stringTail start fuel (Char.ofNat (0x10000 + n) :: acc) ⟨position + 12, rest⟩ := by
  have hhigh : 0xD800 + n / 0x400 < 0x10000 := by omega
  have hlow : 0xDC00 + n % 0x400 < 0x10000 := by omega
  have hlength := length_hexPadded_four hhigh
  have hlength' := length_hexPadded_four hlow
  have hmore := List.length_pos_iff.mpr hrest
  have hlong' : ¬ (hexPadded 4 (0xDC00 + n % 0x400) ++ rest).length < 5 := by
    rw [List.length_append]
    omega
  have hlong : ¬ (hexPadded 4 (0xD800 + n / 0x400) ++
      '\\' :: 'u' :: (hexPadded 4 (0xDC00 + n % 0x400) ++ rest)).length < 5 := by
    rw [List.length_append, List.length_cons]
    omega
  have hpoint : 0x10000 + (0xD800 + n / 0x400 - 0xD800) * 0x400 + (0xDC00 + n % 0x400 - 0xDC00) =
      0x10000 + n := by omega
  simp only [unitEscape, List.cons_append, List.append_assoc]
  rw [stringTail]
  simp only [if_neg hlong, fourHex?_hexPadded hhigh]
  rw [if_pos (by omega)]
  simp only [drop_hexPadded_four hhigh, if_neg hlong', fourHex?_hexPadded hlow]
  rw [if_pos (by omega), hpoint]
  have hadvance : ∀ more, ('\\' :: 'u' :: (hexPadded 4 (0xD800 + n / 0x400) ++
      '\\' :: 'u' :: (hexPadded 4 (0xDC00 + n % 0x400) ++ more))).drop 12 = more := by
    intro more
    rw [show 12 = 6 + 6 from rfl, ← List.drop_drop]
    simp only [List.drop_succ_cons, drop_hexPadded_four hhigh, drop_hexPadded_four hlow]
  simp only [Cursor.advance, hadvance]

theorem stringTail_char (c : Char) (hrest : rest ≠ []) :
    ∃ position', stringTail start (fuel + 1) acc ⟨position, charText c ++ rest⟩ =
      stringTail start fuel (c :: acc) ⟨position', rest⟩ := by
  have hrange := Text.char_range c
  unfold charText
  split_ifs with h₁ h₂ h₃ h₄ h₅ h₆ h₇ h₈ h₉
  · obtain rfl := beq_iff_eq.mp h₁
    exact ⟨position + 2, rfl⟩
  · obtain rfl := beq_iff_eq.mp h₂
    exact ⟨position + 2, rfl⟩
  · obtain rfl := beq_iff_eq.mp h₃
    exact ⟨position + 2, rfl⟩
  · obtain rfl := beq_iff_eq.mp h₄
    exact ⟨position + 2, rfl⟩
  · obtain rfl := beq_iff_eq.mp h₅
    exact ⟨position + 2, rfl⟩
  · obtain rfl := beq_iff_eq.mp h₆
    exact ⟨position + 2, rfl⟩
  · obtain rfl := beq_iff_eq.mp h₇
    exact ⟨position + 2, rfl⟩
  · exact ⟨_, stringTail_plain start fuel acc position (by simpa using h₁) (by simpa using h₂) h₈.1⟩
  · have hunit := stringTail_unit start fuel acc position h₉ (by omega) hrest
    rw [Char.ofNat_toNat] at hunit
    exact ⟨_, hunit⟩
  · have hpair := stringTail_pair start fuel acc position
      (show c.toNat - 0x10000 < 0x100000 by omega) hrest
    rw [Nat.add_sub_cancel' (by omega), Char.ofNat_toNat] at hpair
    exact ⟨_, hpair⟩

/-- What follows is an escape with which the first half of a pair is not read alone. -/
def BeginsLow (text : List Char) : Prop :=
  ∃ more, text = '\\' :: 'u' :: more ∧ ∀ n, fourHex? more = some n → 0xDC00 ≤ n ∧ n < 0xE000

/-- Half of a pair that stands alone. -/
theorem stringTail_half {n : Nat} (h : 0xD800 ≤ n ∧ n < 0xE000) (hrest : rest ≠ [])
    (halone : n < 0xDC00 → ¬BeginsLow rest) :
    stringTail start (fuel + 1) acc ⟨position, unitEscape n ++ rest⟩ =
      stringTail start fuel ((halfText n).reverse ++ acc) ⟨position + 6, rest⟩ := by
  have hn : n < 0x10000 := by omega
  have hlength := length_hexPadded_four hn
  have hmore := List.length_pos_iff.mpr hrest
  have hlong : ¬ (hexPadded 4 n ++ rest).length < 5 := by
    rw [List.length_append]
    omega
  have hunit : unitText n = halfText n := if_pos h
  have hdrop := drop_hexPadded_four hn rest
  have hadvance : Cursor.advance ⟨position, '\\' :: 'u' :: (hexPadded 4 n ++ rest)⟩ 6 =
      ⟨position + 6, rest⟩ := by simp [Cursor.advance, hdrop]
  simp only [unitEscape, List.cons_append]
  rw [stringTail]
  simp only [if_neg hlong, fourHex?_hexPadded hn, hunit, hdrop, hadvance]
  split
  case isFalse => rfl
  case isTrue hhigh =>
    split
    case h_2 => rfl
    case h_1 more =>
      split
      case isTrue => rfl
      case isFalse =>
        -- An escape, but not of the second half of a pair.
        have hnot : ¬ ∀ m, fourHex? more = some m → 0xDC00 ≤ m ∧ m < 0xE000 := fun hall =>
          halone hhigh.2 ⟨more, rfl, hall⟩
        push Not at hnot
        obtain ⟨m, hm, hlow⟩ := hnot
        simp only [hm]
        rw [if_neg (by omega)]

theorem not_beginsLow_unitEscape {n : Nat} (h : n < 0x10000) (hn : n < 0xDC00 ∨ 0xE000 ≤ n)
    (more : List Char) : ¬BeginsLow (unitEscape n ++ more) := by
  rintro ⟨more', heq, hall⟩
  obtain rfl : hexPadded 4 n ++ more = more' := by simpa [unitEscape] using heq
  have := hall n (fourHex?_hexPadded h more)
  omega

theorem not_beginsLow_charText (c : Char) (more : List Char) :
    ¬BeginsLow (charText c ++ more) := by
  have hrange := Text.char_range c
  unfold charText
  split_ifs with h₁ h₂ h₃ h₄ h₅ h₆ h₇ h₈ h₉
  case pos | pos | pos | pos | pos | pos | pos => rintro ⟨more', heq, -⟩; simp at heq
  case pos =>
    rintro ⟨more', heq, -⟩
    have hc : c = '\\' := (List.cons.inj heq).1
    simp [hc] at h₂
  case pos => exact not_beginsLow_unitEscape h₉ (by omega) more
  case neg =>
    rw [List.append_assoc]
    exact not_beginsLow_unitEscape (by omega) (by omega) _

/-- What two characters keep is half of a pair, and the only half that they keep. -/
theorem half?_eq_some {c d : Char} {n : Nat} (h : half? c d = some n) :
    (0xD800 ≤ n ∧ n < 0xE000) ∧ halfText n = [c, d] := by
  unfold half? at h
  split_ifs at h with hd
  obtain ⟨rfl, hlow, hhigh⟩ := hd
  obtain rfl := Option.some.inj h
  refine ⟨by omega, ?_⟩
  rw [halfText, Nat.sub_add_cancel (by omega), Char.ofNat_toNat]

/-- Characters that do not begin with the second half of a pair. -/
theorem not_beginsLow_charsText {cs : List Char} (h : beginsLow cs = false) (more : List Char) :
    ¬BeginsLow (charsText cs ++ '"' :: more) := by
  unfold charsText
  split
  · rintro ⟨more', heq, -⟩
    simp at heq
  · exact not_beginsLow_charText _ _
  case h_3 c d rest =>
    split
    case h_2 => rw [List.append_assoc]; exact not_beginsLow_charText _ _
    case h_1 n hn =>
      have hlow : n < 0xDC00 := by simpa [beginsLow, hn] using h
      obtain ⟨hrange, -⟩ := half?_eq_some hn
      split_ifs
      · rw [List.append_assoc]
        exact not_beginsLow_charText _ _
      · rw [List.append_assoc]
        exact not_beginsLow_unitEscape (by omega) (.inl hlow) _

/-- Characters are read up to the closing quote. -/
def ReadsChars (start fuel : Nat) (rest cs : List Char) : Prop :=
  ∀ acc position, ∃ position', stringTail start fuel acc
    ⟨position, charsText cs ++ '"' :: rest⟩ =
      .ok (String.ofList (acc.reverse ++ cs), ⟨position', rest⟩)

theorem ReadsChars.cons {cs : List Char} (h : ReadsChars start fuel rest cs) (c : Char) :
    ∃ position', stringTail start (fuel + 1) acc
      ⟨position, charText c ++ charsText cs ++ '"' :: rest⟩ =
        .ok (String.ofList (acc.reverse ++ c :: cs), ⟨position', rest⟩) := by
  obtain ⟨middle, hchar⟩ := stringTail_char start fuel acc position c
    (show charsText cs ++ '"' :: rest ≠ [] by simp)
  obtain ⟨position', hchars⟩ := h (c :: acc) middle
  rw [List.append_assoc, hchar, hchars]
  exact ⟨position', by simp⟩

/-- The characters of a text, up to its closing quote. -/
theorem readsChars (start : Nat) {fuel : Nat} (rest cs : List Char) (hfuel : cs.length < fuel) :
    ReadsChars start fuel rest cs := by
  intro acc position
  obtain ⟨fuel, rfl⟩ :=
    Nat.exists_eq_add_one_of_ne_zero (Nat.ne_of_gt (Nat.zero_lt_of_lt hfuel))
  rw [Nat.lt_succ_iff] at hfuel
  fun_induction charsText cs generalizing fuel acc position with
  | case1 => exact ⟨position + 1, by simp [stringTail, Cursor.advance]⟩
  | case2 c =>
    obtain ⟨fuel, rfl⟩ := Nat.exists_eq_add_of_le' hfuel
    have hend : ReadsChars start (fuel + 1) rest [] := fun acc position =>
      ⟨position + 1, by simp [charsText, stringTail, Cursor.advance]⟩
    simpa [charsText] using hend.cons start _ acc position c
  | case3 c d more n hhalf hlow ih | case5 c d more hhalf ih =>
    obtain ⟨fuel, rfl⟩ := Nat.exists_eq_add_of_le' (Nat.le_of_add_left_le hfuel)
    have hmore : ReadsChars start (fuel + 1) rest (d :: more) := fun acc position =>
      ih acc position fuel (by simpa using hfuel)
    exact hmore.cons start _ acc position c
  | case4 c d more n hhalf hlow ih =>
    obtain ⟨fuel, rfl⟩ := Nat.exists_eq_add_of_le' (Nat.le_of_add_left_le hfuel)
    obtain ⟨hrange, htext⟩ := half?_eq_some hhalf
    have halone : n < 0xDC00 → ¬BeginsLow (charsText more ++ '"' :: rest) := by
      intro hn
      exact not_beginsLow_charsText (by simpa [hn] using hlow) rest
    rw [List.append_assoc, stringTail_half start _ acc position hrange (by simp) halone, htext]
    obtain ⟨position', hchars⟩ := ih (d :: c :: acc) (position + 6) fuel (by simp at hfuel; omega)
    exact ⟨position', by simpa using hchars⟩

end Texts

theorem charText_ne_nil (c : Char) : charText c ≠ [] := by
  unfold charText
  repeat' split
  all_goals exact List.cons_ne_nil _ _

theorem length_le_length_charsText (cs : List Char) : cs.length ≤ (charsText cs).length := by
  have hpos : ∀ c, 0 < (charText c).length := fun c => List.length_pos_iff.mpr (charText_ne_nil c)
  fun_induction charsText cs with
  | case1 => simp
  | case2 c => exact hpos c
  | case3 c d more n hhalf hlow ih | case5 c d more hhalf ih =>
    have := hpos c
    simp only [List.length_cons, List.length_append] at ih ⊢
    omega
  | case4 c d more n hhalf hlow ih =>
    simp only [unitEscape, List.length_cons, List.length_append]
    omega

/-- A text is read between its quotes. -/
theorem stringAfterQuote_text (s : String) (position : Nat) (rest : List Char) :
    ∃ position', stringAfterQuote ⟨position, charsText s.toList ++ '"' :: rest⟩ =
      .ok (s, ⟨position', rest⟩) := by
  have hlength := length_le_length_charsText s.toList
  have hfuel : s.toList.length < (charsText s.toList ++ '"' :: rest).length + 1 := by
    rw [List.length_append]
    omega
  obtain ⟨position', htail⟩ := readsChars (position - 1) rest s.toList hfuel [] position
  exact ⟨position', by simpa [stringAfterQuote] using htail⟩

theorem stringText_append (s : String) (rest : List Char) :
    stringText s ++ rest = '"' :: (charsText s.toList ++ '"' :: rest) := by
  simp [stringText]

/-! ## Numbers -/

/-- What follows a value in a document: nothing, a comma or a line end. -/
def Delimited (rest : List Char) : Prop := ∀ c ∈ rest.head?, c = ',' ∨ c = '\n'

theorem delimited_cons {c : Char} {rest : List Char} (h : c = ',' ∨ c = '\n') :
    Delimited (c :: rest) := by
  intro c' hc'
  obtain rfl : c = c' := by simpa using hc'
  exact h

theorem fractionDigits_of_delimited {rest : List Char} (h : Delimited rest) :
    fractionDigits rest = [] := by
  cases rest with
  | nil => rfl
  | cons c rest => rcases h c (by simp) with rfl | rfl <;> rfl

theorem exponentPart_of_delimited {rest : List Char} (h : Delimited rest) :
    exponentPart rest = none := by
  cases rest with
  | nil => rfl
  | cons c rest => rcases h c (by simp) with rfl | rfl <;> rfl

theorem takeWhile_isDigit {digits rest : List Char} (hdigits : ∀ c ∈ digits, c.isDigit = true)
    (hrest : Delimited rest) : (digits ++ rest).takeWhile Char.isDigit = digits := by
  rw [List.takeWhile_append_of_pos hdigits]
  cases rest with
  | nil => simp
  | cons c rest => rcases hrest c (by simp) with rfl | rfl <;> simp [Char.isDigit]

theorem decimalDigits_toDigits (n : Nat) : decimalDigits (Nat.toDigits 10 n) = n := by
  have hdigits : ∀ (cs : List Char) (m : Nat), Nat.ofDigitChars 10 cs m =
      cs.foldl (fun n c => n * 10 + (c.toNat - '0'.toNat)) m := by
    intro cs
    induction cs with
    | nil => exact fun m => rfl
    | cons c cs ih =>
      intro m
      rw [List.foldl_cons, ← ih, Nat.mul_comm m]
      rfl
  rw [decimalDigits, ← hdigits, Nat.ofDigitChars_toDigits (by omega) (by omega)]

theorem eq_zero_of_toDigits {n : Nat} {rest : List Char} (h : Nat.toDigits 10 n = '0' :: rest) :
    n = 0 := by
  induction n using Nat.strongRecOn generalizing rest with
  | ind n ih =>
    rcases Nat.lt_or_ge n 10 with hn | hn
    · rw [Nat.toDigits_of_lt_base hn] at h
      have hall : ∀ d < 10, Nat.digitChar d = '0' → d = 0 := by decide
      exact hall n hn (List.cons.inj h).1
    · rw [Nat.toDigits_of_base_le (by omega) hn] at h
      cases hfront : Nat.toDigits 10 (n / 10) with
      | nil => exact absurd hfront Nat.toDigits_ne_nil
      | cons c cs =>
        rw [hfront, List.cons_append] at h
        obtain rfl := (List.cons.inj h).1
        have := ih (n / 10) (by omega) hfront
        omega

def wholeDigits : List Char → List Char
  | '0' :: _ => ['0']
  | rest => rest.takeWhile Char.isDigit

theorem wholeDigits_toDigits (n : Nat) {rest : List Char} (hrest : Delimited rest) :
    wholeDigits (Nat.toDigits 10 n ++ rest) = Nat.toDigits 10 n := by
  rcases eq_or_ne n 0 with rfl | hn
  · rfl
  · rw [wholeDigits]
    · exact takeWhile_isDigit
        (fun c hc => Nat.isDigit_of_mem_toDigits (by omega) (by omega) hc) hrest
    · intro more hmore
      cases hdigits : Nat.toDigits 10 n with
      | nil => exact absurd hdigits Nat.toDigits_ne_nil
      | cons c cs =>
        rw [hdigits, List.cons_append] at hmore
        obtain rfl := (List.cons.inj hmore).1
        exact hn (eq_zero_of_toDigits hdigits)

/-- The sign of a number, and what follows it. -/
def takeSign : List Char → Bool × List Char
  | '-' :: rest => (true, rest)
  | rest => (false, rest)

theorem number_of_whole {isNegative : Bool} {c : Cursor} {rest : List Char} {n : Nat}
    (hsign : takeSign c.rest = (isNegative, Nat.toDigits 10 n ++ rest)) (hrest : Delimited rest)
    (hsize : (Nat.toDigits 10 n).length ≤ maxDigits) :
    number c = .ok (.int (if isNegative then -n else n),
      c.advance ((if isNegative then 1 else 0) + (Nat.toDigits 10 n).length)) := by
  have hwhole := wholeDigits_toDigits n hrest
  have hne : (Nat.toDigits 10 n).isEmpty = false := by simp [Nat.toDigits_ne_nil]
  unfold number
  split
  case h_1 isNegative' text heq =>
    obtain ⟨rfl, rfl⟩ := Prod.mk.inj (heq.symm.trans hsign)
    extract_lets signSize whole more fraction fractionSize after exponent size m power
    have hdigits : whole = Nat.toDigits 10 n := hwhole
    have hmore : more = rest := by
      simp only [more, hdigits]
      exact List.drop_left
    have hfraction : fraction = [] := by
      simp only [fraction, hmore]
      exact fractionDigits_of_delimited hrest
    have hexponent : exponent = none := by
      simp only [exponent, after, fractionSize, hfraction, hmore]
      exact exponentPart_of_delimited hrest
    have hvalue : m = n := by simp only [m, hdigits, decimalDigits_toDigits]
    have hadvance : size = signSize + (Nat.toDigits 10 n).length := by
      simp [size, fractionSize, hfraction, hexponent, hdigits]
    rw [if_neg (by simp [hdigits, hne]), if_pos (by simp [hfraction, hexponent]),
      if_neg (by simpa [hdigits] using hsize), hvalue, hadvance]

theorem toList_ofNat (n : Nat) : (toString (Int.ofNat n)).toList = Nat.toDigits 10 n := by
  change (Nat.repr n).toList = _
  rw [Nat.repr_eq_ofList_toDigits, String.toList_ofList]

theorem toList_negSucc (n : Nat) :
    (toString (Int.negSucc n)).toList = '-' :: Nat.toDigits 10 (n + 1) := by
  change ("-" ++ Nat.repr (n + 1)).toList = _
  rw [Nat.repr_eq_ofList_toDigits, String.toList_append, String.toList_ofList]
  simp

theorem ne_of_isDigit {c d : Char} (hc : c.isDigit = true) (hd : d.isDigit = false) : c ≠ d := by
  rintro rfl
  exact absurd hc (by simp [hd])

theorem toDigits_head (n : Nat) : ∃ c more, Nat.toDigits 10 n = c :: more ∧ c.isDigit = true := by
  cases hdigits : Nat.toDigits 10 n with
  | nil => exact absurd hdigits Nat.toDigits_ne_nil
  | cons c more =>
    exact ⟨c, more, rfl, Nat.isDigit_of_mem_toDigits (b := 10) (n := n) (by omega) (by omega)
      (by simp [hdigits])⟩

theorem number_int (n : Int) (hsize : (Nat.toDigits 10 n.natAbs).length ≤ maxDigits)
    {rest : List Char} (hrest : Delimited rest) (position : Nat) :
    ∃ position', number ⟨position, (toString n).toList ++ rest⟩ =
      .ok (.int n, ⟨position', rest⟩) := by
  cases n with
  | ofNat n =>
    have hsign : takeSign (Nat.toDigits 10 n ++ rest) = (false, Nat.toDigits 10 n ++ rest) := by
      obtain ⟨c, more, hdigits, hc⟩ := toDigits_head n
      rw [hdigits, List.cons_append, takeSign]
      intro rest' h
      exact ne_of_isDigit hc (by decide) (List.cons.inj h).1
    rw [toList_ofNat, number_of_whole hsign hrest hsize]
    exact ⟨_, by simp [Cursor.advance]; rfl⟩
  | negSucc n =>
    have hsize : (Nat.toDigits 10 (n + 1)).length ≤ maxDigits := hsize
    have hdrop : ('-' :: (Nat.toDigits 10 (n + 1) ++ rest)).drop
        (1 + (Nat.toDigits 10 (n + 1)).length) = rest := by
      rw [Nat.add_comm, List.drop_succ_cons, List.drop_left]
    rw [toList_negSucc, List.cons_append, number_of_whole rfl hrest hsize]
    simp only [if_true, Cursor.advance, hdrop]
    exact ⟨_, rfl⟩

/-- Whether a text begins as a number does: with a digit, or with a minus and a digit. -/
def NumberHead (cs : List Char) : Prop :=
  ∃ c more, c.isDigit = true ∧ (cs = c :: more ∨ cs = '-' :: c :: more)

theorem NumberHead.append {cs : List Char} (h : NumberHead cs) (rest : List Char) :
    NumberHead (cs ++ rest) := by
  obtain ⟨c, more, hc, rfl | rfl⟩ := h
  · exact ⟨c, more ++ rest, hc, .inl rfl⟩
  · exact ⟨c, more ++ rest, hc, .inr rfl⟩

theorem numberHead_int (n : Int) : NumberHead (toString n).toList := by
  cases n with
  | ofNat n =>
    obtain ⟨c, more, hdigits, hc⟩ := toDigits_head n
    exact ⟨c, more, hc, .inl (by rw [toList_ofNat, hdigits])⟩
  | negSucc n =>
    obtain ⟨c, more, hdigits, hc⟩ := toDigits_head (n + 1)
    exact ⟨c, more, hc, .inr (by rw [toList_negSucc, hdigits])⟩

end Json

end ContractKit
