import Mathlib
import ContractKit.Number.Double

/-!
# Rounding to the nearest double

A double is proper if its mantissa has 53 bits, unless its exponent is the least one.  What is
rounded is proper, and a quotient in the rounding interval of a proper double is rounded to that
double.  Quotients are compared as rational numbers, so that powers of two can be moved from one
side to the other.
-/

namespace ContractKit.Double

variable {num den k m : Nat} {e : Int} {q : ℚ}

/-! ## Quotients scaled by powers -/

theorem two_zpow_pos (e : Int) : (0 : ℚ) < 2 ^ e := zpow_pos (by norm_num) e

theorem ten_zpow_pos (e : Int) : (0 : ℚ) < 10 ^ e := zpow_pos (by norm_num) e

theorem two_pow_mul_zpow (n : Nat) (e : Int) : (2 : ℚ) ^ n * 2 ^ e = 2 ^ (n + e) := by
  rw [zpow_add₀ (by norm_num), zpow_natCast]

/-- A quotient scaled by a power of two. -/
theorem scaleByTwo_spec (num : Nat) (hden : 0 < den) (e : Int) :
    0 < (scaleByTwo num den e).2 ∧
      ((scaleByTwo num den e).1 : ℚ) / (scaleByTwo num den e).2 = num / den * 2 ^ e := by
  cases e with
  | ofNat k =>
    refine ⟨hden, ?_⟩
    simp only [scaleByTwo, Nat.pow_eq, Int.ofNat_eq_natCast, zpow_natCast]
    push_cast
    ring
  | negSucc k =>
    refine ⟨Nat.mul_pos hden (Nat.pow_pos (by omega)), ?_⟩
    simp only [scaleByTwo, Nat.pow_eq, zpow_negSucc]
    push_cast
    rw [div_mul_eq_div_div, div_eq_mul_inv _ ((2 : ℚ) ^ (k + 1))]

/-- A quotient scaled by a power of ten. -/
theorem scaleByTen_spec (num : Nat) (hden : 0 < den) (e : Int) :
    0 < (scaleByTen num den e).2 ∧
      ((scaleByTen num den e).1 : ℚ) / (scaleByTen num den e).2 = num / den * 10 ^ e := by
  cases e with
  | ofNat k =>
    refine ⟨hden, ?_⟩
    simp only [scaleByTen, Nat.pow_eq, Int.ofNat_eq_natCast, zpow_natCast]
    push_cast
    ring
  | negSucc k =>
    refine ⟨Nat.mul_pos hden (Nat.pow_pos (by omega)), ?_⟩
    simp only [scaleByTen, Nat.pow_eq, zpow_negSucc]
    push_cast
    rw [div_mul_eq_div_div, div_eq_mul_inv _ ((10 : ℚ) ^ (k + 1))]

theorem scaled_lt_iff {n d : Nat} (hd : 0 < d) : n < d ↔ (n : ℚ) / d < 1 := by
  rw [div_lt_one (by exact_mod_cast hd)]
  exact Nat.cast_lt.symm

/-! ## The binary exponent -/

theorem zpow_log2_le (h : 0 < num) : (2 : ℚ) ^ (num.log2 : Int) ≤ num := by
  rw [zpow_natCast]
  exact_mod_cast Nat.log2_self_le (by omega)

theorem lt_zpow_log2 (num : Nat) : (num : ℚ) < 2 ^ ((num.log2 : Int) + 1) := by
  have hlt : (num : ℚ) < ((2 ^ (num.log2 + 1) : Nat) : ℚ) := Nat.cast_lt.mpr Nat.lt_log2_self
  calc (num : ℚ) < ((2 ^ (num.log2 + 1) : Nat) : ℚ) := hlt
    _ = 2 ^ ((num.log2 : Int) + 1) := by
        rw [Nat.cast_pow, ← zpow_natCast]
        norm_cast

/-- The binary exponent of a quotient: the power of two below it. -/
theorem binaryExponent_spec (hnum : 0 < num) (hden : 0 < den) :
    (2 : ℚ) ^ binaryExponent num den ≤ num / den ∧
      (num : ℚ) / den < 2 ^ (binaryExponent num den + 1) := by
  have hpos : (0 : ℚ) < den := by exact_mod_cast hden
  have hguess : (2 : ℚ) ^ ((num.log2 : Int) - den.log2 - 1) ≤ num / den := by
    rw [le_div_iff₀ hpos]
    calc (2 : ℚ) ^ ((num.log2 : Int) - den.log2 - 1) * den
        ≤ 2 ^ ((num.log2 : Int) - den.log2 - 1) * 2 ^ ((den.log2 : Int) + 1) :=
          mul_le_mul_of_nonneg_left (lt_zpow_log2 den).le (two_zpow_pos _).le
      _ = 2 ^ (num.log2 : Int) := by
          rw [← zpow_add₀ (by norm_num)]
          congr 1
          ring
      _ ≤ num := zpow_log2_le hnum
  have hnext : (num : ℚ) / den < 2 ^ ((num.log2 : Int) - den.log2 + 1) := by
    rw [div_lt_iff₀ hpos]
    calc (num : ℚ) < 2 ^ ((num.log2 : Int) + 1) := lt_zpow_log2 num
      _ = 2 ^ ((num.log2 : Int) - den.log2 + 1) * 2 ^ (den.log2 : Int) := by
          rw [← zpow_add₀ (by norm_num)]
          congr 1
          ring
      _ ≤ 2 ^ ((num.log2 : Int) - den.log2 + 1) * den :=
          mul_le_mul_of_nonneg_left (zpow_log2_le hden) (two_zpow_pos _).le
  -- The logarithms leave two candidates, and the comparison decides between them.
  obtain ⟨hscaled, hvalue⟩ := scaleByTwo_spec num hden (-((num.log2 : Int) - den.log2))
  have hbelow :=
    scaled_lt_iff (n := (scaleByTwo num den (-((num.log2 : Int) - den.log2))).1) hscaled
  rw [hvalue, zpow_neg, ← div_eq_mul_inv, div_lt_one (two_zpow_pos _)] at hbelow
  unfold binaryExponent
  by_cases h : (scaleByTwo num den (-((num.log2 : Int) - den.log2))).1 <
      (scaleByTwo num den (-((num.log2 : Int) - den.log2))).2
  · simp only [h, if_true]
    exact ⟨hguess, by simpa using hbelow.mp h⟩
  · simp only [h, if_false]
    exact ⟨not_lt.mp fun hlt => h (hbelow.mpr hlt), hnext⟩

/-- A binary exponent is known from two powers around the quotient. -/
theorem binaryExponent_le (hnum : 0 < num) (hden : 0 < den) (h : (num : ℚ) / den < 2 ^ (e + 1)) :
    binaryExponent num den ≤ e := by
  have hlow := (binaryExponent_spec hnum hden).1
  have hlt := (zpow_lt_zpow_iff_right₀ (by norm_num : (1 : ℚ) < 2)).mp (hlow.trans_lt h)
  omega

theorem le_binaryExponent (hnum : 0 < num) (hden : 0 < den) (h : (2 : ℚ) ^ e ≤ num / den) :
    e ≤ binaryExponent num den := by
  have hhigh := (binaryExponent_spec hnum hden).2
  have hlt := (zpow_lt_zpow_iff_right₀ (by norm_num : (1 : ℚ) < 2)).mp (h.trans_lt hhigh)
  omega

/-! ## The nearest natural number -/

/-- A quotient within a half of a number, less than that if the number is odd, is rounded to it. -/
theorem roundHalfEven_eq (hlow : 2 * k * den ≤ 2 * num + den) (hhigh : 2 * num ≤ 2 * k * den + den)
    (hodd : k % 2 = 1 → 2 * k * den < 2 * num + den ∧ 2 * num < 2 * k * den + den)
    (hden : 0 < den) : roundHalfEven num den = k := by
  have hsplit := Nat.div_add_mod num den
  have hrest := Nat.mod_lt num hden
  have hfloor : num / den = k ∨ num / den + 1 = k := by
    rcases Nat.lt_or_ge num (k * den) with hbelow | habove
    · have hlt : num / den < k := Nat.div_lt_of_lt_mul (by rwa [Nat.mul_comm])
      refine .inr (Nat.le_antisymm hlt (Nat.not_lt.mp fun hgap => ?_))
      have hle : (num / den + 2) * den ≤ k * den := Nat.mul_le_mul_right den hgap
      nlinarith
    · refine .inl (Nat.div_eq_of_lt_le habove ?_)
      nlinarith
  unfold roundHalfEven
  rcases hfloor with hfloor | hfloor
  · have hnum : 2 * num = 2 * k * den + 2 * (num % den) := by rw [← hfloor]; nlinarith
    simp only [hfloor]
    split_ifs with hsmall hlarge heven
    · rfl
    · omega
    · rfl
    · have := hodd (by simp only [beq_iff_eq] at heven; omega)
      omega
  · have hnum : 2 * num + 2 * den = 2 * k * den + 2 * (num % den) := by rw [← hfloor]; nlinarith
    simp only [hfloor]
    split_ifs with hsmall hlarge heven
    · omega
    · rfl
    · have := hodd (by simp only [beq_iff_eq] at heven; omega)
      omega
    · rfl

theorem roundHalfEven_mem (num den : Nat) :
    roundHalfEven num den = num / den ∨ roundHalfEven num den = num / den + 1 := by
  unfold roundHalfEven
  dsimp only
  split_ifs
  · exact .inl rfl
  · exact .inr rfl
  · exact .inl rfl
  · exact .inr rfl

/-- A rational number is nearest to a natural one, an exact half going to the even one. -/
structure Nearest (k : Nat) (q : ℚ) : Prop where
  low : (k : ℚ) - 1 / 2 ≤ q
  high : q ≤ k + 1 / 2
  odd : k % 2 = 1 → (k : ℚ) - 1 / 2 < q ∧ q < k + 1 / 2

theorem Nearest.roundHalfEven_eq (hden : 0 < den) (h : Nearest k (num / den)) :
    roundHalfEven num den = k := by
  have hpos : (0 : ℚ) < den := by exact_mod_cast hden
  have hlow := h.low
  have hhigh := h.high
  rw [le_div_iff₀ hpos] at hlow
  rw [div_le_iff₀ hpos] at hhigh
  refine Double.roundHalfEven_eq ?_ ?_ ?_ hden
  · have : (2 * k * den : ℚ) ≤ 2 * num + den := by linarith
    exact_mod_cast this
  · have : (2 * num : ℚ) ≤ 2 * k * den + den := by linarith
    exact_mod_cast this
  · intro hk
    have hstrict := h.odd hk
    rw [lt_div_iff₀ hpos, div_lt_iff₀ hpos] at hstrict
    constructor
    · have : (2 * k * den : ℚ) < 2 * num + den := by linarith
      exact_mod_cast this
    · have : (2 * num : ℚ) < 2 * k * den + den := by linarith
      exact_mod_cast this

/-! ## Doubles -/

/-- Mantissa and exponent of a double: 53 bits with the first one set, or fewer at the least
exponent. -/
structure Proper (m : Nat) (e : Int) : Prop where
  mantissa : m < 2 ^ 53
  least : leastExponent ≤ e
  greatest : e ≤ greatestExponent
  leading : e = leastExponent ∨ 2 ^ 52 ≤ m

def IsProper : Double → Prop
  | .finite _ m e => Proper m e
  | .infinite _ => True
  | .nan => True

theorem proper_zero : Proper 0 leastExponent :=
  ⟨by norm_num, le_rfl, by decide, .inl rfl⟩

/-- How far below a double its rounding interval begins, in units of its last place: below the
least mantissa the spacing is half as large. -/
def lowerGap (m : Nat) (e : Int) : ℚ := if m = 2 ^ 52 ∧ leastExponent < e then 1 / 4 else 1 / 2

/-- A rational number in the rounding interval of a double, whose ends belong to it if the
mantissa is even. -/
structure RoundsTo (m : Nat) (e : Int) (q : ℚ) : Prop where
  low : ((m : ℚ) - lowerGap m e) * 2 ^ e ≤ q
  high : q ≤ (m + 1 / 2) * 2 ^ e
  odd : m % 2 = 1 → ((m : ℚ) - lowerGap m e) * 2 ^ e < q ∧ q < (m + 1 / 2) * 2 ^ e

theorem lowerGap_le (m : Nat) (e : Int) : lowerGap m e ≤ 1 / 2 := by
  unfold lowerGap
  split_ifs <;> norm_num

theorem lowerGap_pos (m : Nat) (e : Int) : 0 < lowerGap m e := by
  unfold lowerGap
  split_ifs <;> norm_num

theorem RoundsTo.pos (h : RoundsTo m e q) (hm : 0 < m) : 0 < q := by
  have hone : (1 : ℚ) ≤ m := by exact_mod_cast hm
  have hgap := lowerGap_le m e
  exact lt_of_lt_of_le (mul_pos (by linarith) (two_zpow_pos e)) h.low

theorem roundsTo_self (m : Nat) (e : Int) : RoundsTo m e (m * 2 ^ e) := by
  have hpos := two_zpow_pos e
  have hgap := mul_pos (lowerGap_pos m e) hpos
  exact ⟨by linarith, by linarith, fun _ => ⟨by linarith, by linarith⟩⟩

theorem RoundsTo.between {a b c : ℚ} (ha : RoundsTo m e a) (hb : RoundsTo m e b) (hac : a ≤ c)
    (hcb : c ≤ b) : RoundsTo m e c :=
  ⟨ha.low.trans hac, hcb.trans hb.high,
    fun hodd => ⟨(ha.odd hodd).1.trans_le hac, hcb.trans_lt (hb.odd hodd).2⟩⟩

/-! ## Rounding a quotient -/

/-- The exponent to which a quotient is rounded first. -/
def roundingExponent (num den : Nat) : Int := max (binaryExponent num den - 52) leastExponent

/-- A mantissa that was rounded at an exponent: one bit too many is carried to the exponent, and
too large an exponent makes the double infinite. -/
def carried (negative : Bool) (mantissa : Nat) (exponent : Int) : Double :=
  if mantissa = 2 ^ 53 then
    if greatestExponent < exponent + 1 then .infinite negative
    else .finite negative (2 ^ 52) (exponent + 1)
  else
    if greatestExponent < exponent then .infinite negative
    else .finite negative mantissa exponent

/-- Rounding a quotient: it is scaled, rounded to a natural number, and the carry is moved. -/
theorem exists_ofRatio_eq (negative : Bool) (hnum : 0 < num) (hden : 0 < den) :
    ∃ n d : Nat, 0 < d ∧ (n : ℚ) / d = num / den / 2 ^ roundingExponent num den ∧
      ofRatio negative num den =
        carried negative (roundHalfEven n d) (roundingExponent num den) := by
  obtain ⟨hscaled, hvalue⟩ := scaleByTwo_spec num hden (-roundingExponent num den)
  rw [zpow_neg, ← div_eq_mul_inv] at hvalue
  refine ⟨_, _, hscaled, hvalue, ?_⟩
  unfold ofRatio carried
  rw [if_neg (by omega)]
  simp only [Nat.pow_eq]
  by_cases hcarry : roundHalfEven (scaleByTwo num den (-roundingExponent num den)).1
      (scaleByTwo num den (-roundingExponent num den)).2 = 2 ^ 53
  · have hcarry' := hcarry
    simp only [roundingExponent] at hcarry'
    simp only [hcarry, hcarry', if_true]
    rfl
  · have hcarry' := hcarry
    simp only [roundingExponent] at hcarry'
    simp only [hcarry, hcarry', if_false]
    rfl

theorem isProper_carried (negative : Bool) (hm : m ≤ 2 ^ 53) (hleast : leastExponent ≤ e)
    (hleading : e = leastExponent ∨ 2 ^ 52 ≤ m) : IsProper (carried negative m e) := by
  unfold carried
  split_ifs with hcarry hlarge hlarge
  · trivial
  · exact ⟨by norm_num, by omega, not_lt.mp hlarge, .inr le_rfl⟩
  · trivial
  · exact ⟨by omega, hleast, not_lt.mp hlarge, hleading⟩

section Scaled

variable {n d : Nat}

/-- A quotient scaled by its rounding exponent has at most 53 bits. -/
theorem floor_scaled_lt (hnum : 0 < num) (hden : 0 < den) (hd : 0 < d)
    (hvalue : (n : ℚ) / d = num / den / 2 ^ roundingExponent num den) : n / d < 2 ^ 53 := by
  have hmax : binaryExponent num den - 52 ≤ roundingExponent num den := le_max_left _ _
  have hdpos : (0 : ℚ) < d := by exact_mod_cast hd
  have hlt : (n : ℚ) / d < 2 ^ 53 := by
    rw [hvalue, div_lt_iff₀ (two_zpow_pos _)]
    calc (num : ℚ) / den < 2 ^ (binaryExponent num den + 1) := (binaryExponent_spec hnum hden).2
      _ ≤ 2 ^ ((53 : Nat) + roundingExponent num den) :=
          zpow_le_zpow_right₀ (by norm_num) (by omega)
      _ = 2 ^ 53 * 2 ^ roundingExponent num den := (two_pow_mul_zpow 53 _).symm
  rw [div_lt_iff₀ hdpos] at hlt
  rw [Nat.div_lt_iff_lt_mul hd]
  exact_mod_cast hlt

theorem le_floor_scaled (hnum : 0 < num) (hden : 0 < den) (hd : 0 < d)
    (hvalue : (n : ℚ) / d = num / den / 2 ^ roundingExponent num den)
    (hleast : leastExponent < roundingExponent num den) : 2 ^ 52 ≤ n / d := by
  have hdpos : (0 : ℚ) < d := by exact_mod_cast hd
  have hexponent : (52 : Nat) + roundingExponent num den = binaryExponent num den := by
    unfold roundingExponent at hleast ⊢
    omega
  have hle : (2 : ℚ) ^ 52 ≤ n / d := by
    rw [hvalue, le_div_iff₀ (two_zpow_pos _), two_pow_mul_zpow, hexponent]
    exact (binaryExponent_spec hnum hden).1
  rw [le_div_iff₀ hdpos] at hle
  rw [Nat.le_div_iff_mul_le hd]
  exact_mod_cast hle

end Scaled

theorem isProper_ofRatio (negative : Bool) (num : Nat) (hden : 0 < den) :
    IsProper (ofRatio negative num den) := by
  rcases Nat.eq_zero_or_pos num with rfl | hnum
  · exact proper_zero
  obtain ⟨n, d, hd, hvalue, heq⟩ := exists_ofRatio_eq negative hnum hden
  have hleast : leastExponent ≤ roundingExponent num den := le_max_right _ _
  have hbelow := floor_scaled_lt hnum hden hd hvalue
  have habove : roundingExponent num den = leastExponent ∨ 2 ^ 52 ≤ n / d :=
    hleast.eq_or_lt.imp Eq.symm (le_floor_scaled hnum hden hd hvalue)
  rw [heq]
  rcases roundHalfEven_mem n d with hround | hround
  · exact isProper_carried negative (by omega) hleast (by omega)
  · exact isProper_carried negative (by omega) hleast (by omega)

/-! ## Rounding to a double -/

section Units

variable {x : ℚ}

/-- A number of units of the last place of a double, in its rounding interval. -/
structure UnitsTo (m : Nat) (e : Int) (x : ℚ) : Prop where
  low : (m : ℚ) - lowerGap m e ≤ x
  high : x ≤ m + 1 / 2
  odd : m % 2 = 1 → (m : ℚ) - lowerGap m e < x ∧ x < m + 1 / 2

theorem RoundsTo.exists_units (h : RoundsTo m e q) : ∃ x, q = x * 2 ^ e ∧ UnitsTo m e x := by
  have hpos := two_zpow_pos e
  obtain ⟨x, rfl⟩ : ∃ x : ℚ, q = x * 2 ^ e := ⟨q / 2 ^ e, (div_mul_cancel₀ _ hpos.ne').symm⟩
  exact ⟨x, rfl, le_of_mul_le_mul_right h.low hpos, le_of_mul_le_mul_right h.high hpos, fun hm =>
    ⟨lt_of_mul_lt_mul_right (h.odd hm).1 hpos.le, lt_of_mul_lt_mul_right (h.odd hm).2 hpos.le⟩⟩

/-- The binary exponent of a quotient of fewer units than a power of two. -/
theorem binaryExponent_le_of_units (hnum : 0 < num) (hden : 0 < den)
    (hx : (num : ℚ) / den = x * 2 ^ e) (bits : Nat) (h : x < 2 ^ (bits + 1)) :
    binaryExponent num den ≤ e + bits := by
  refine binaryExponent_le hnum hden ?_
  have hpower : e + bits + 1 = (bits + 1 : Nat) + e := by push_cast; ring
  rw [hx, hpower, ← two_pow_mul_zpow]
  exact mul_lt_mul_of_pos_right h (two_zpow_pos e)

/-- The binary exponent of a quotient of at least a power of two of units. -/
theorem le_binaryExponent_of_units (hnum : 0 < num) (hden : 0 < den)
    (hx : (num : ℚ) / den = x * 2 ^ e) (bits : Nat) (h : 2 ^ bits ≤ x) :
    e + bits ≤ binaryExponent num den := by
  refine le_binaryExponent hnum hden ?_
  rw [hx, add_comm, ← two_pow_mul_zpow]
  exact mul_le_mul_of_nonneg_right h (two_zpow_pos e).le

/-- A quotient is rounded to the natural number nearest to it at its rounding exponent. -/
theorem ofRatio_of_nearest (negative : Bool) (hnum : 0 < num) (hden : 0 < den)
    (he : roundingExponent num den = e) (h : Nearest k (num / den / 2 ^ e)) :
    ofRatio negative num den = carried negative k e := by
  obtain ⟨n, d, hd, hvalue, heq⟩ := exists_ofRatio_eq negative hnum hden
  rw [he] at hvalue heq
  rw [← hvalue] at h
  rw [heq, h.roundHalfEven_eq hd]

theorem carried_of_proper (negative : Bool) (h : Proper m e) :
    carried negative m e = .finite negative m e := by
  rw [carried, if_neg h.mantissa.ne, if_neg (not_lt.mpr h.greatest)]

theorem carried_below (negative : Bool) (h : e ≤ greatestExponent) :
    carried negative (2 ^ 53) (e - 1) = .finite negative (2 ^ 52) e := by
  rw [carried, if_pos rfl, sub_add_cancel, if_neg (not_lt.mpr h)]

/-- A quotient with the exponent of a double is rounded at that exponent. -/
theorem ofRatio_of_units (negative : Bool) (hproper : Proper m e) (hnum : 0 < num) (hden : 0 < den)
    (hx : (num : ℚ) / den = x * 2 ^ e) (h : UnitsTo m e x)
    (hbinade : e = leastExponent ∨ 2 ^ 52 ≤ x) :
    ofRatio negative num den = .finite negative m e := by
  have hbits : (m : ℚ) + 1 ≤ 2 ^ (52 + 1) := by exact_mod_cast hproper.mantissa
  have hupper := binaryExponent_le_of_units hnum hden hx 52 (by linarith [h.high])
  have hexponent : roundingExponent num den = e := by
    unfold roundingExponent
    rcases hbinade with rfl | hx52
    · omega
    · have hlower := le_binaryExponent_of_units hnum hden hx 52 hx52
      have hleast := hproper.least
      omega
  have hgap : (m : ℚ) - 1 / 2 ≤ m - lowerGap m e := by linarith [lowerGap_le m e]
  have hnearest : Nearest m (num / den / 2 ^ e) := by
    rw [hx, mul_div_cancel_right₀ _ (two_zpow_pos e).ne']
    exact ⟨hgap.trans h.low, h.high, fun hm => ⟨hgap.trans_lt (h.odd hm).1, (h.odd hm).2⟩⟩
  rw [ofRatio_of_nearest negative hnum hden hexponent hnearest, carried_of_proper negative hproper]

/-- Only the least mantissa of an exponent has quotients of a smaller exponent in its rounding
interval. -/
theorem UnitsTo.eq_of_lt (h : UnitsTo m e x) (hleading : 2 ^ 52 ≤ m) (hx : x < 2 ^ 52) :
    m = 2 ^ 52 := by
  by_contra hne
  have hlarge : ((2 ^ 52 + 1 : Nat) : ℚ) ≤ m := by
    exact_mod_cast Nat.lt_of_le_of_ne hleading (Ne.symm hne)
  push_cast at hlarge
  linarith [lowerGap_le m e, h.low]

/-- A quotient below the least mantissa of an exponent is rounded at the exponent below and
carried. -/
theorem ofRatio_of_units_below (negative : Bool) (hproper : Proper (2 ^ 52) e)
    (hleast : e ≠ leastExponent) (hnum : 0 < num) (hden : 0 < den)
    (hx : (num : ℚ) / den = x * 2 ^ e) (h : UnitsTo (2 ^ 52) e x) (hsmall : x < 2 ^ 52) :
    ofRatio negative num den = .finite negative (2 ^ 52) e := by
  have hlt : leastExponent < e := lt_of_le_of_ne hproper.least (Ne.symm hleast)
  have hlow := h.low
  rw [lowerGap, if_pos ⟨rfl, hlt⟩] at hlow
  push_cast at hlow
  have hexponent : roundingExponent num den = e - 1 := by
    have hupper := binaryExponent_le_of_units hnum hden hx 51 hsmall
    have hlower := le_binaryExponent_of_units hnum hden hx 51 (by linarith)
    unfold roundingExponent
    omega
  have hhalf : (2 : ℚ) ^ e = 2 * 2 ^ (e - 1) := by
    rw [mul_comm, ← zpow_add_one₀ (by norm_num), sub_add_cancel]
  have hnearest : Nearest (2 ^ 53) (num / den / 2 ^ (e - 1)) := by
    rw [hx, hhalf, ← mul_assoc, mul_div_cancel_right₀ _ (two_zpow_pos _).ne']
    push_cast
    exact ⟨by linarith, by linarith, fun hodd => absurd hodd (by norm_num)⟩
  rw [ofRatio_of_nearest negative hnum hden hexponent hnearest,
    carried_below negative hproper.greatest]

end Units

/-- A quotient in the rounding interval of a double is rounded to it. -/
theorem ofRatio_of_roundsTo (negative : Bool) (hproper : Proper m e) (hm : 0 < m) (hden : 0 < den)
    (h : RoundsTo m e (num / den)) : ofRatio negative num den = .finite negative m e := by
  have hnum : 0 < num := by
    have hq := h.pos hm
    rcases Nat.eq_zero_or_pos num with rfl | hnum
    · simp at hq
    · exact hnum
  obtain ⟨x, hx, hunits⟩ := h.exists_units
  by_cases hbinade : e = leastExponent ∨ (2 : ℚ) ^ 52 ≤ x
  · exact ofRatio_of_units negative hproper hnum hden hx hunits hbinade
  · push Not at hbinade
    obtain ⟨hleast, hsmall⟩ := hbinade
    obtain rfl := hunits.eq_of_lt (hproper.leading.resolve_left hleast) hsmall
    exact ofRatio_of_units_below negative hproper hleast hnum hden hx hunits hsmall

/-! ## Products and integer parts -/

theorem ratio_spec (m : Nat) (e : Int) :
    0 < (ratio m e).2 ∧ ((ratio m e).1 : ℚ) / (ratio m e).2 = m * 2 ^ e := by
  have h := scaleByTwo_spec m Nat.one_pos e
  simpa [ratio] using h

theorem isProper_mul (x y : Double) : IsProper (x.mul y) := by
  cases x with
  | finite s m e =>
    cases y with
    | finite t n f =>
      exact isProper_ofRatio _ _ (Nat.mul_pos (ratio_spec m e).1 (ratio_spec n f).1)
    | infinite t =>
      simp only [mul]
      split_ifs <;> trivial
    | nan => trivial
  | infinite s =>
    cases y with
    | nan => trivial
    | _ =>
      simp only [mul]
      split_ifs <;> trivial
  | nan => cases y <;> trivial

/-- The integer part of a double has at most 1024 bits. -/
theorem integerPart_lt (h : Proper m e) : (ratio m e).1 / (ratio m e).2 < 2 ^ 1024 := by
  obtain ⟨hden, hvalue⟩ := ratio_spec m e
  have hgreatest : e ≤ 971 := h.greatest
  have hmantissa : (m : ℚ) < 2 ^ 53 := by exact_mod_cast h.mantissa
  have hlt : ((ratio m e).1 : ℚ) / (ratio m e).2 < 2 ^ 1024 := by
    calc ((ratio m e).1 : ℚ) / (ratio m e).2 = m * 2 ^ e := hvalue
      _ < 2 ^ 53 * 2 ^ e := mul_lt_mul_of_pos_right hmantissa (two_zpow_pos e)
      _ = 2 ^ ((53 : Nat) + e) := two_pow_mul_zpow 53 e
      _ ≤ 2 ^ ((1024 : Nat) : Int) := zpow_le_zpow_right₀ (by norm_num) (by omega)
      _ = 2 ^ 1024 := zpow_natCast 2 1024
  have hpos : (0 : ℚ) < (ratio m e).2 := by exact_mod_cast hden
  rw [div_lt_iff₀ hpos] at hlt
  rw [Nat.div_lt_iff_lt_mul hden]
  exact_mod_cast hlt

end ContractKit.Double
