import ContractKit.Proofs.Json.Scalars
import ContractKit.Proofs.Number.Shortest

/-!
# Fractions in documents

A fraction is written by the shortest digits that read back, with a point or a power of ten.
However the digits are laid out, the parts of the text stand for the same decimal, and that is
rounded to the double that was written.
-/

namespace ContractKit

/-! ## Digits -/

namespace Json

theorem decimalDigits_eq (cs : List Char) : decimalDigits cs = Nat.ofDigitChars 10 cs 0 := by
  rw [decimalDigits, Nat.ofDigitChars_eq_foldl]
  congr 1
  funext n c
  rw [Nat.mul_comm]

theorem decimalDigits_append_zeros (cs : List Char) (count : Nat) :
    decimalDigits (cs ++ List.replicate count '0') = decimalDigits cs * 10 ^ count := by
  rw [decimalDigits_eq, decimalDigits_eq, Nat.ofDigitChars_append, Nat.ofDigitChars_replicate_zero,
    Nat.mul_comm]

theorem decimalDigits_zeros_append (count : Nat) (cs : List Char) :
    decimalDigits (List.replicate count '0' ++ cs) = decimalDigits cs := by
  rw [decimalDigits_eq, decimalDigits_eq, Nat.ofDigitChars_append, Nat.ofDigitChars_replicate_zero,
    Nat.mul_zero]

/-- Digits end before a text that begins with something else. -/
def NoDigit (rest : List Char) : Prop := ∀ c ∈ rest.head?, c.isDigit = false

theorem noDigit_cons {c : Char} {rest : List Char} (h : c.isDigit = false) :
    NoDigit (c :: rest) := by
  intro d hd
  obtain rfl : c = d := by simpa using hd
  exact h

theorem Delimited.noDigit {rest : List Char} (h : Delimited rest) : NoDigit rest := by
  intro c hc
  rcases h c hc with rfl | rfl <;> rfl

theorem takeWhile_digits {digits rest : List Char} (hdigits : ∀ c ∈ digits, c.isDigit = true)
    (hrest : NoDigit rest) : (digits ++ rest).takeWhile Char.isDigit = digits := by
  rw [List.takeWhile_append_of_pos hdigits]
  cases rest with
  | nil => simp
  | cons c rest => simp [hrest c (by simp)]

/-! ## The parts of a number -/

/-- The parts of a number with a point or a power of ten. -/
structure DecimalText where
  whole : List Char
  fraction : List Char
  exponent : Option Int

namespace DecimalText

/-- The power of ten of a number: a letter, a sign and at least two digits. -/
def exponentText : Option Int → List Char
  | none => []
  | some n => (if n < 0 then ['e', '-'] else ['e', '+']) ++ Double.twoDigits n.natAbs

def chars (d : DecimalText) : List Char :=
  d.whole ++ (if d.fraction.isEmpty then [] else '.' :: d.fraction) ++ exponentText d.exponent

/-- The power of ten by which all the digits count. -/
def power (d : DecimalText) : Int := d.exponent.getD 0 - d.fraction.length

/-- The parts are those of a number that is read whole: digits, no zero before others, and
something that shows that it is no integer. -/
structure WellFormed (d : DecimalText) : Prop where
  whole_digits : ∀ c ∈ d.whole, c.isDigit = true
  whole_head : d.whole = ['0'] ∨ ∃ c more, d.whole = c :: more ∧ c ≠ '0'
  fraction_digits : ∀ c ∈ d.fraction, c.isDigit = true
  broken : d.fraction ≠ [] ∨ d.exponent.isSome = true

end DecimalText

theorem digits_twoDigits (n : Nat) : ∀ c ∈ Double.twoDigits n, c.isDigit = true := by
  have hall : ∀ c ∈ Nat.toDigits 10 n, c.isDigit = true := fun c hc =>
    Nat.isDigit_of_mem_toDigits (by omega) (by omega) hc
  unfold Double.twoDigits
  dsimp only
  split_ifs
  · exact List.forall_mem_cons.mpr ⟨rfl, hall⟩
  · exact hall

theorem decimalDigits_twoDigits (n : Nat) : decimalDigits (Double.twoDigits n) = n := by
  unfold Double.twoDigits
  dsimp only
  split_ifs
  · exact (decimalDigits_zeros_append 1 _).trans (decimalDigits_toDigits n)
  · exact decimalDigits_toDigits n

theorem twoDigits_ne_nil (n : Nat) : Double.twoDigits n ≠ [] := by
  unfold Double.twoDigits
  dsimp only
  split_ifs
  · exact List.cons_ne_nil _ _
  · exact Nat.toDigits_ne_nil

/-- A power of ten is read from its text. -/
theorem exponentPart_exponentText (exponent : Option Int) {rest : List Char}
    (hrest : Delimited rest) :
    exponentPart (DecimalText.exponentText exponent ++ rest) =
      exponent.map fun n => (n, (DecimalText.exponentText exponent).length) := by
  cases exponent with
  | none => exact exponentPart_of_delimited hrest
  | some n =>
    have htake := takeWhile_digits (digits_twoDigits n.natAbs) hrest.noDigit
    have hne : (Double.twoDigits n.natAbs).isEmpty = false := by
      simpa using twoDigits_ne_nil n.natAbs
    by_cases hsign : n < 0
    · have hvalue : -((n.natAbs : Nat) : Int) = n := by omega
      simp only [DecimalText.exponentText, hsign, if_true, List.cons_append, List.nil_append,
        exponentPart, htake, hne, decimalDigits_twoDigits, hvalue]
      simp
      omega
    · have hvalue : ((n.natAbs : Nat) : Int) = n := by omega
      simp only [DecimalText.exponentText, hsign, if_false, List.cons_append, List.nil_append,
        exponentPart, htake, hne, decimalDigits_twoDigits, hvalue]
      simp
      omega

/-- Whole digits end before a text that begins with something else. -/
theorem DecimalText.WellFormed.wholeDigits_append {d : DecimalText} (h : d.WellFormed)
    {tail : List Char} (htail : NoDigit tail) : wholeDigits (d.whole ++ tail) = d.whole := by
  rcases h.whole_head with hzero | ⟨c, more, hwhole, hc⟩
  · rw [hzero]
    rfl
  · rw [wholeDigits]
    · exact takeWhile_digits h.whole_digits htail
    · intro rest hrest
      rw [hwhole, List.cons_append] at hrest
      exact hc (List.cons.inj hrest).1

theorem head?_exponentText (exponent : Option Int) {rest : List Char} (hrest : Delimited rest) :
    ∀ c ∈ (DecimalText.exponentText exponent ++ rest).head?, c = 'e' ∨ c = ',' ∨ c = '\n' := by
  cases exponent with
  | none => exact fun c hc => .inr (hrest c hc)
  | some n =>
    intro c hc
    by_cases hsign : n < 0
    · exact .inl (by simpa [DecimalText.exponentText, hsign] using hc.symm)
    · exact .inl (by simpa [DecimalText.exponentText, hsign] using hc.symm)

theorem noDigit_exponentText (exponent : Option Int) {rest : List Char} (hrest : Delimited rest) :
    NoDigit (DecimalText.exponentText exponent ++ rest) := by
  intro c hc
  rcases head?_exponentText exponent hrest c hc with rfl | rfl | rfl <;> rfl

/-- The digits after the point are read, if there are any. -/
theorem fractionDigits_text {fraction : List Char} (hdigits : ∀ c ∈ fraction, c.isDigit = true)
    (exponent : Option Int) {rest : List Char} (hrest : Delimited rest) :
    fractionDigits ((if fraction.isEmpty then [] else '.' :: fraction) ++
      (DecimalText.exponentText exponent ++ rest)) = fraction := by
  cases fraction with
  | nil =>
    rw [List.isEmpty_nil, if_pos rfl, List.nil_append]
    cases htext : DecimalText.exponentText exponent ++ rest with
    | nil => rfl
    | cons c more =>
      rcases head?_exponentText exponent hrest c (by simp [htext]) with rfl | rfl | rfl <;> rfl
  | cons c more =>
    exact takeWhile_digits hdigits (noDigit_exponentText exponent hrest)

/-- What stands after the whole digits begins with something else. -/
theorem noDigit_fractionText (fraction : List Char) (exponent : Option Int) {rest : List Char}
    (hrest : Delimited rest) :
    NoDigit ((if fraction.isEmpty then [] else '.' :: fraction) ++
      (DecimalText.exponentText exponent ++ rest)) := by
  by_cases hempty : fraction.isEmpty
  · simpa [hempty] using noDigit_exponentText exponent hrest
  · simpa [hempty] using noDigit_cons rfl

theorem DecimalText.WellFormed.exists_whole {d : DecimalText} (h : d.WellFormed) :
    ∃ c more, d.whole = c :: more := by
  rcases h.whole_head with hzero | ⟨c, more, hwhole, -⟩
  · exact ⟨'0', [], hzero⟩
  · exact ⟨c, more, hwhole⟩

theorem DecimalText.WellFormed.head_chars {d : DecimalText} (h : d.WellFormed) :
    ∃ c more, d.chars = c :: more ∧ c.isDigit = true := by
  obtain ⟨c, more, hwhole⟩ := h.exists_whole
  exact ⟨c, _, by rw [DecimalText.chars, hwhole]; rfl, h.whole_digits c (by simp [hwhole])⟩

theorem number_decimalText {d : DecimalText} (h : d.WellFormed) {isNegative : Bool} {c : Cursor}
    {rest : List Char} (hsign : takeSign c.rest = (isNegative, d.chars ++ rest))
    (hrest : Delimited rest) :
    number c = .ok (.float (.ofDecimal isNegative (decimalDigits (d.whole ++ d.fraction)) d.power),
      c.advance ((if isNegative then 1 else 0) + d.chars.length)) := by
  have hsplit : d.chars ++ rest =
      d.whole ++ ((if d.fraction.isEmpty then [] else '.' :: d.fraction) ++
      (DecimalText.exponentText d.exponent ++ rest)) := by simp [DecimalText.chars]
  have htail := noDigit_fractionText d.fraction d.exponent hrest
  have hne : d.whole ≠ [] := by
    obtain ⟨c, more, hwhole⟩ := h.exists_whole
    simp [hwhole]
  rw [hsplit] at hsign
  unfold number
  split
  case h_1 isNegative' text heq =>
    obtain ⟨rfl, rfl⟩ := Prod.mk.inj (heq.symm.trans hsign)
    extract_lets signSize whole more fraction fractionSize after exponent size m power
    have hwhole : whole = d.whole := h.wholeDigits_append htail
    have hmore : more = (if d.fraction.isEmpty then [] else '.' :: d.fraction) ++
        (DecimalText.exponentText d.exponent ++ rest) := by
      simp only [more, hwhole]
      exact List.drop_left
    have hfraction : fraction = d.fraction := by
      simp only [fraction, hmore]
      exact fractionDigits_text h.fraction_digits d.exponent hrest
    have hafter : after = DecimalText.exponentText d.exponent ++ rest := by
      simp only [after, fractionSize, hfraction, hmore]
      by_cases hempty : d.fraction.isEmpty
      · simp [hempty]
      · simp [hempty]
    have hexponent : exponent =
        d.exponent.map fun n => (n, (DecimalText.exponentText d.exponent).length) := by
      simp only [exponent, hafter]
      exact exponentPart_exponentText d.exponent hrest
    have hpower : power = d.power := by
      simp only [power, hexponent, hfraction, DecimalText.power]
      cases d.exponent <;> rfl
    have hsize : size = signSize + d.chars.length := by
      simp only [size, fractionSize, hexponent, hfraction, hwhole, DecimalText.chars]
      cases d.exponent with
      | none => cases d.fraction <;> simp [DecimalText.exponentText, Nat.add_assoc]
      | some n =>
        cases d.fraction with
        | nil => simp [Nat.add_assoc]
        | cons c more =>
          simp
          omega
    have hbroken : (fraction.isEmpty && exponent.isNone) = false := by
      rw [hfraction, hexponent]
      rcases h.broken with hdigits | hpower
      · simp [hdigits]
      · obtain ⟨n, hn⟩ := Option.isSome_iff_exists.mp hpower
        simp [hn]
    rw [if_neg (by simpa [hwhole] using hne), if_neg (by simp [hbroken]), hwhole, hfraction, hpower,
      hsize]

/-! ## Digits without zeros at the end -/

theorem eq_replicate_of_takeWhile (cs : List Char) :
    cs.takeWhile (· == '0') = List.replicate (cs.takeWhile (· == '0')).length '0' := by
  refine List.eq_replicate_iff.mpr ⟨rfl, fun c hc => ?_⟩
  have hzero := List.mem_takeWhile_imp hc
  simpa using hzero

/-- Dropping zeros at the end of the digits of a positive number leaves its first digit. -/
theorem dropTrailingZeros_toDigits {k : Nat} (hk : 0 < k) :
    ∃ (c : Char) (more : List Char) (zeros : Nat), c ≠ '0' ∧
      Double.dropTrailingZeros (Nat.toDigits 10 k) = c :: more ∧
      Nat.toDigits 10 k = c :: more ++ List.replicate zeros '0' := by
  set ds := Nat.toDigits 10 k with hds
  set zeros := (ds.reverse.takeWhile (· == '0')).length with hzeros
  have hsplit : ds = (ds.reverse.dropWhile (· == '0')).reverse ++ List.replicate zeros '0' := by
    have happend := List.takeWhile_append_dropWhile (p := (· == '0')) (l := ds.reverse)
    rw [eq_replicate_of_takeWhile] at happend
    have hreverse := congrArg List.reverse happend
    rwa [List.reverse_append, List.reverse_reverse, List.reverse_replicate, eq_comm] at hreverse
  unfold Double.dropTrailingZeros
  cases hshort : (ds.reverse.dropWhile (· == '0')).reverse with
  | nil =>
    -- Digits that are all zeros are those of zero.
    rw [hshort, List.nil_append] at hsplit
    have hvalue := decimalDigits_toDigits k
    rw [← hds, hsplit, ← List.append_nil (List.replicate zeros '0'), decimalDigits_zeros_append]
      at hvalue
    exact absurd hvalue (by simpa [decimalDigits] using hk.ne)
  | cons c more =>
    rw [hshort] at hsplit
    refine ⟨c, more, zeros, ?_, rfl, hsplit⟩
    rintro rfl
    rw [List.cons_append] at hsplit
    exact hk.ne' (eq_zero_of_toDigits (hds ▸ hsplit))

/-! ## Layouts -/

/-- The number that digits with a point stand for. -/
def decimalValue (d : DecimalDigits) : ℚ :=
  decimalDigits d.digits * 10 ^ (d.point - d.digits.length)

/-- Digits are laid out as the parts of a number, which stands for the same decimal. -/
structure LaidOut (d : DecimalDigits) (t : DecimalText) : Prop where
  wellFormed : t.WellFormed
  text : Double.layout d ['.', '0'] = t.chars
  value : (decimalDigits (t.whole ++ t.fraction) : ℚ) * 10 ^ t.power = decimalValue d

section Layouts

variable {d : DecimalDigits} {first : Char} {more : List Char}

theorem isDigit_zeros (count : Nat) : ∀ c ∈ List.replicate count '0', c.isDigit = true := by
  intro c hc
  rw [List.eq_of_mem_replicate hc]
  rfl

/-- Zeros stand between the point and the digits. -/
theorem laidOut_below (hdigits : ∀ c ∈ d.digits, c.isDigit = true)
    (hhead : d.digits = first :: more)
    (hlow : -4 < d.point) (hhigh : d.point ≤ 0) :
    LaidOut d ⟨['0'], List.replicate d.point.natAbs '0' ++ d.digits, none⟩ where
  wellFormed := by
    refine ⟨by simp, .inl rfl, ?_, .inl (by simp [hhead])⟩
    exact List.forall_mem_append.mpr ⟨isDigit_zeros _, hdigits⟩
  text := by
    rw [Double.layout, if_pos ⟨hlow, by omega⟩, if_pos hhigh]
    simp [DecimalText.chars, DecimalText.exponentText, hhead]
  value := by
    have hvalue : decimalDigits (['0'] ++ (List.replicate d.point.natAbs '0' ++ d.digits)) =
        decimalDigits d.digits :=
      (decimalDigits_zeros_append 1 _).trans (decimalDigits_zeros_append _ _)
    rw [hvalue, decimalValue]
    congr 2
    simp only [DecimalText.power, Option.getD_none, List.length_append, List.length_replicate]
    omega

/-- Zeros stand between the digits and the point. -/
theorem laidOut_integral (hdigits : ∀ c ∈ d.digits, c.isDigit = true)
    (hhead : d.digits = first :: more) (hfirst : first ≠ '0') (hlow : 0 < d.point)
    (hhigh : d.point ≤ 16) (hlength : d.digits.length ≤ d.point) :
    LaidOut d ⟨d.digits ++ List.replicate (d.point - d.digits.length).toNat '0', ['0'], none⟩ where
  wellFormed := by
    refine ⟨List.forall_mem_append.mpr ⟨hdigits, isDigit_zeros _⟩, .inr ⟨first,
      more ++ List.replicate (d.point - d.digits.length).toNat '0', by simp [hhead], hfirst⟩,
      by simp, .inl (by simp)⟩
  text := by
    rw [Double.layout, if_pos ⟨by omega, hhigh⟩, if_neg (by omega), if_pos hlength]
    simp [DecimalText.chars, DecimalText.exponentText]
  value := by
    have hpoint : d.point - d.digits.length = (d.point - d.digits.length).toNat := by omega
    rw [decimalValue, hpoint, Int.toNat_natCast, show ['0'] = List.replicate 1 '0' from rfl,
      decimalDigits_append_zeros, decimalDigits_append_zeros]
    have hpower : DecimalText.power
        ⟨d.digits ++ List.replicate (d.point - d.digits.length).toNat '0',
        List.replicate 1 '0', none⟩ = -1 := rfl
    rw [hpower, zpow_natCast, zpow_neg_one]
    push_cast
    field_simp

theorem laidOut_between (hdigits : ∀ c ∈ d.digits, c.isDigit = true)
    (hhead : d.digits = first :: more) (hfirst : first ≠ '0') (hlow : 0 < d.point)
    (hhigh : d.point ≤ 16) (hlength : d.point < d.digits.length) :
    LaidOut d ⟨d.digits.take d.point.toNat, d.digits.drop d.point.toNat, none⟩ where
  wellFormed := by
    obtain ⟨n, hn⟩ : ∃ n, d.point.toNat = n + 1 := ⟨d.point.toNat - 1, by omega⟩
    refine ⟨fun c hc => hdigits c (List.mem_of_mem_take hc), .inr ⟨first, more.take n, ?_, hfirst⟩,
      fun c hc => hdigits c (List.mem_of_mem_drop hc), .inl ?_⟩
    · rw [hn, hhead, List.take_succ_cons]
    · simp only [ne_eq, List.drop_eq_nil_iff]
      omega
  text := by
    have hne : (d.digits.drop d.point.toNat).isEmpty = false := by
      simp only [List.isEmpty_eq_false_iff, ne_eq, List.drop_eq_nil_iff]
      omega
    rw [Double.layout, if_pos ⟨by omega, hhigh⟩, if_neg (by omega), if_neg (by omega)]
    simp [DecimalText.chars, DecimalText.exponentText, hne]
  value := by
    rw [List.take_append_drop, decimalValue]
    congr 2
    simp only [DecimalText.power, Option.getD_none, List.length_drop]
    omega

/-- One digit stands before the point, and a power of ten behind the digits. -/
theorem laidOut_power (hdigits : ∀ c ∈ d.digits, c.isDigit = true)
    (hhead : d.digits = first :: more) (hfirst : first ≠ '0')
    (hpoint : ¬ (-4 < d.point ∧ d.point ≤ 16)) : LaidOut d ⟨[first], more, some (d.point - 1)⟩ where
  wellFormed := by
    rw [hhead, List.forall_mem_cons] at hdigits
    exact ⟨by simpa using hdigits.1, .inr ⟨first, [], rfl, hfirst⟩, hdigits.2, .inr rfl⟩
  text := by
    rw [Double.layout, if_neg hpoint, hhead]
    cases more with
    | nil => simp [DecimalText.chars, DecimalText.exponentText]
    | cons c rest => simp [DecimalText.chars, DecimalText.exponentText]
  value := by
    rw [decimalValue, hhead]
    congr 2
    simp only [DecimalText.power, Option.getD_some, List.length_cons]
    push_cast
    ring

/-- Digits that begin with no zero are laid out as a number that is read whole. -/
theorem exists_laidOut (hdigits : ∀ c ∈ d.digits, c.isDigit = true)
    (hhead : d.digits = first :: more) (hfirst : first ≠ '0') : ∃ t, LaidOut d t := by
  by_cases hplain : -4 < d.point ∧ d.point ≤ 16
  · rcases Int.lt_or_le 0 d.point with hpos | hneg
    · rcases Int.lt_or_le d.point d.digits.length with hlt | hle
      · exact ⟨_, laidOut_between hdigits hhead hfirst hpos hplain.2 hlt⟩
      · exact ⟨_, laidOut_integral hdigits hhead hfirst hpos hplain.2 hle⟩
    · exact ⟨_, laidOut_below hdigits hhead hplain.1 hneg⟩
  · exact ⟨_, laidOut_power hdigits hhead hfirst hplain⟩

end Layouts

/-! ## Doubles -/

/-- The text of a double is that of a number that is read as it. -/
theorem exists_text_eq {m : Nat} {e : Int} (h : Double.Proper m e) (negative : Bool) :
    ∃ t : DecimalText, t.WellFormed ∧
      (Double.finite negative m e).text.toList =
        (if negative then '-' :: t.chars else t.chars) ∧
      Double.ofDecimal negative (decimalDigits (t.whole ++ t.fraction)) t.power =
        .finite negative m e := by
  rcases Nat.eq_zero_or_pos m with rfl | hm
  · refine ⟨⟨['0'], ['0'], none⟩, ⟨by simp, .inl rfl, by simp, .inl (by simp)⟩, ?_, ?_⟩
    · cases negative <;>
        simp [Double.text, Double.textWith, DecimalText.chars, DecimalText.exponentText]
    · have hleast : e = Double.leastExponent := h.leading.resolve_right (by norm_num)
      rw [hleast]
      rfl
  · obtain ⟨k, places, point, hk, hround, hshortest⟩ := Double.exists_shortest_eq h hm
    obtain ⟨first, more, zeros, hfirst, hdrop, hdigits⟩ := dropTrailingZeros_toDigits hk
    have hall : ∀ c ∈ first :: more, c.isDigit = true := fun c hc =>
      Nat.isDigit_of_mem_toDigits (b := 10) (n := k) (by omega) (by omega)
        (by rw [hdigits]; exact List.mem_append_left _ hc)
    have hhead : (Double.shortest m e).digits = first :: more := by rw [hshortest, hdrop]
    obtain ⟨t, ht⟩ := exists_laidOut (by rw [hshortest, hdrop]; exact hall) hhead hfirst
    refine ⟨t, ht.wellFormed, ?_, ?_⟩
    · have htext : (Double.finite negative m e).text.toList =
          (if negative then '-' :: Double.layout (Double.shortest m e) ".0".toList
            else Double.layout (Double.shortest m e) ".0".toList) := by
        rw [Double.text, Double.textWith, if_neg hm.ne', String.toList_ofList]
      rw [htext]
      exact congrArg (fun cs => if negative then '-' :: cs else cs) ht.text
    · refine Double.ofDecimal_of_roundsTo negative h hm ?_
      have hvalue : (k : ℚ) = decimalDigits (first :: more) * 10 ^ zeros := by
        have hsame := decimalDigits_toDigits k
        rw [hdigits, decimalDigits_append_zeros] at hsame
        exact_mod_cast hsame.symm
      rw [hvalue, mul_assoc, ← zpow_natCast, ← zpow_add₀ (by norm_num)] at hround
      rw [ht.value, hshortest, decimalValue, hdrop]
      convert hround using 3
      rw [hdigits, List.length_append, List.length_replicate]
      push_cast
      ring

theorem number_double {m : Nat} {e : Int} (h : Double.Proper m e) (negative : Bool)
    {rest : List Char} (hrest : Delimited rest) (position : Nat) :
    ∃ position', number ⟨position, (Double.finite negative m e).text.toList ++ rest⟩ =
      .ok (.float (.finite negative m e), ⟨position', rest⟩) := by
  obtain ⟨t, ht, htext, hvalue⟩ := exists_text_eq h negative
  have hsign : takeSign ((Double.finite negative m e).text.toList ++ rest) =
      (negative, t.chars ++ rest) := by
    rw [htext]
    cases negative with
    | true => rfl
    | false =>
      obtain ⟨c, more, hchars, hc⟩ := ht.head_chars
      rw [if_neg (by simp), hchars, List.cons_append, takeSign]
      intro rest' hminus
      exact ne_of_isDigit hc (by decide) (List.cons.inj hminus).1
  have hdrop : ((Double.finite negative m e).text.toList ++ rest).drop
      ((if negative then 1 else 0) + t.chars.length) = rest := by
    rw [htext]
    cases negative with
    | true => rw [if_pos rfl, if_pos rfl, Nat.add_comm, List.cons_append, List.drop_succ_cons,
        List.drop_left]
    | false => rw [if_neg (by simp), if_neg (by simp), Nat.zero_add, List.drop_left]
  rw [number_decimalText ht hsign hrest, hvalue]
  simp only [Cursor.advance, hdrop]
  exact ⟨_, rfl⟩

theorem numberHead_double {m : Nat} {e : Int} (h : Double.Proper m e) (negative : Bool) :
    NumberHead (Double.finite negative m e).text.toList := by
  obtain ⟨t, ht, htext, -⟩ := exists_text_eq h negative
  obtain ⟨c, more, hchars, hc⟩ := ht.head_chars
  rw [htext, hchars]
  cases negative with
  | true => exact ⟨c, more, hc, .inr rfl⟩
  | false => exact ⟨c, more, hc, .inl rfl⟩

/-- The characters of a fraction: digits, a sign, a point and the mark of a power of ten. -/
theorem mem_text_double {m : Nat} {e : Int} (h : Double.Proper m e) (negative : Bool) :
    ∀ c ∈ (Double.finite negative m e).text.toList,
      c.isDigit = true ∨ c ∈ ['-', '.', 'e', '+'] := by
  obtain ⟨t, ht, htext, -⟩ := exists_text_eq h negative
  have hchars : ∀ c ∈ t.chars, c.isDigit = true ∨ c ∈ ['-', '.', 'e', '+'] := by
    intro c hc
    rw [DecimalText.chars, List.mem_append, List.mem_append] at hc
    rcases hc with (hwhole | hfraction) | hexponent
    · exact .inl (ht.whole_digits c hwhole)
    · split_ifs at hfraction
      · simp at hfraction
      · rcases List.mem_cons.mp hfraction with rfl | hdigit
        · exact .inr (by simp)
        · exact .inl (ht.fraction_digits c hdigit)
    · cases hsome : t.exponent with
      | none => simp [hsome, DecimalText.exponentText] at hexponent
      | some n =>
        rw [hsome, DecimalText.exponentText, List.mem_append] at hexponent
        rcases hexponent with hmark | hdigit
        · split_ifs at hmark
          · exact .inr (by simp at hmark ⊢; tauto)
          · exact .inr (by simp at hmark ⊢; tauto)
        · exact .inl (digits_twoDigits _ c hdigit)
  rw [htext]
  cases negative with
  | true => exact List.forall_mem_cons.mpr ⟨.inr (by simp), hchars⟩
  | false => exact hchars

end Json

end ContractKit
