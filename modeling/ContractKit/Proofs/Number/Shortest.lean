import ContractKit.Number.Shortest
import ContractKit.Proofs.Number.Rounding

/-!
# The shortest digits read back

The digits that are written of a double stand for a number in its rounding interval, so the double
is what they are rounded to.  Seventeen digits always suffice: the grid of so many digits is finer
than the interval is wide.
-/

namespace ContractKit.Double

variable {m k places : Nat} {e point : Int}

/-! ## The rounding interval -/

theorem ratio_eq_unit (m : Nat) (e : Int) : ratio m e = (m * (ratio 1 e).1, (ratio 1 e).2) := by
  cases e with
  | ofNat k => simp [ratio, scaleByTwo]
  | negSucc k => simp [ratio, scaleByTwo]

/-- The ends of the rounding interval and the double itself, over a common denominator. -/
theorem roundingInterval_spec (hm : 0 < m) (e : Int) :
    0 < (roundingInterval m e).2.2.2 ∧
      ((roundingInterval m e).1 : ℚ) / (roundingInterval m e).2.2.2 =
        (m - lowerGap m e) * 2 ^ e ∧
      ((roundingInterval m e).2.1 : ℚ) / (roundingInterval m e).2.2.2 = m * 2 ^ e ∧
      ((roundingInterval m e).2.2.1 : ℚ) / (roundingInterval m e).2.2.2 = (m + 1 / 2) * 2 ^ e := by
  obtain ⟨hden, hunit⟩ := ratio_spec 1 e
  unfold roundingInterval
  rw [ratio_eq_unit m e]
  dsimp only
  generalize (ratio 1 e).1 = unit at hunit ⊢
  generalize (ratio 1 e).2 = den at hden hunit ⊢
  have hpos : (0 : ℚ) < den := by exact_mod_cast hden
  rw [Nat.cast_one, one_mul] at hunit
  have hone : unit ≤ m * unit := Nat.le_mul_of_pos_left unit hm
  refine ⟨by simpa using hden, ?_, ?_, ?_⟩
  · rw [← hunit]
    simp only [lowerGap, Nat.pow_eq]
    split_ifs
    · rw [Nat.cast_sub (by omega)]
      push_cast
      field_simp
    · rw [Nat.cast_sub (by omega)]
      push_cast
      field_simp
      ring
  · rw [← hunit]
    push_cast
    field_simp
  · rw [← hunit]
    push_cast
    field_simp
    ring

/-! ## Points of a grid -/

/-- Whether a point of a grid lies in the rounding interval of a double. -/
def readsBack (mantissa : Nat) (exponent shift : Int) (k : Nat) : Bool :=
  let interval := roundingInterval mantissa exponent
  let point := scaleByTen k 1 (-shift)
  if mantissa % 2 == 0 then
    decide (interval.1 * point.2 ≤ point.1 * interval.2.2.2 ∧
      point.1 * interval.2.2.2 ≤ interval.2.2.1 * point.2)
  else
    decide (interval.1 * point.2 < point.1 * interval.2.2.2 ∧
      point.1 * interval.2.2.2 < interval.2.2.1 * point.2)

theorem cast_div_lt_iff {a b c d : Nat} (hb : 0 < b) (hd : 0 < d) :
    (a : ℚ) / b < c / d ↔ a * d < c * b := by
  rw [div_lt_div_iff₀ (by exact_mod_cast hb) (by exact_mod_cast hd)]
  norm_cast

theorem cast_div_le_iff {a b c d : Nat} (hb : 0 < b) (hd : 0 < d) :
    (a : ℚ) / b ≤ c / d ↔ a * d ≤ c * b := by
  rw [div_le_div_iff₀ (by exact_mod_cast hb) (by exact_mod_cast hd)]
  norm_cast

theorem readsBack_iff (hm : 0 < m) (shift : Int) :
    readsBack m e shift k = true ↔ RoundsTo m e (k * 10 ^ (-shift)) := by
  obtain ⟨hden, hlow, -, hhigh⟩ := roundingInterval_spec hm e
  obtain ⟨hpoint, hvalue⟩ := scaleByTen_spec k Nat.one_pos (-shift)
  rw [Nat.cast_one, div_one] at hvalue
  unfold readsBack
  by_cases heven : m % 2 = 0
  · simp only [heven, beq_self_eq_true, if_true, decide_eq_true_eq]
    rw [← cast_div_le_iff hden hpoint, ← cast_div_le_iff hpoint hden, hlow, hhigh, hvalue]
    exact ⟨fun h => ⟨h.1, h.2, fun hodd => by omega⟩, fun h => ⟨h.low, h.high⟩⟩
  · simp only [heven, beq_iff_eq, if_false, decide_eq_true_eq]
    rw [← cast_div_lt_iff hden hpoint, ← cast_div_lt_iff hpoint hden, hlow, hhigh, hvalue]
    exact ⟨fun h => ⟨h.1.le, h.2.le, fun _ => h⟩, fun h => h.odd (by omega)⟩

/-- A grid offers its two points around the double, the nearer one first. -/
theorem exists_onGrid?_eq (hm : 0 < m) (e point : Int) (places : Nat) :
    ∃ near far floor : Nat,
      (near = floor ∧ far = floor + 1 ∨ near = floor + 1 ∧ far = floor) ∧
      (floor : ℚ) * 10 ^ (point - places) ≤ m * 2 ^ e ∧
      (m : ℚ) * 2 ^ e < (floor + 1 : Nat) * 10 ^ (point - places) ∧
      onGrid? m e point places =
        if readsBack m e (places - point) near then some near
        else if readsBack m e (places - point) far then some far else none := by
  obtain ⟨hden, -, hvalue, -⟩ := roundingInterval_spec hm e
  obtain ⟨hd, hscaled⟩ := scaleByTen_spec (roundingInterval m e).2.1 hden
    ((places : Int) - point)
  rw [hvalue] at hscaled
  set n := (scaleByTen (roundingInterval m e).2.1 (roundingInterval m e).2.2.2
    ((places : Int) - point)).1
  set d := (scaleByTen (roundingInterval m e).2.1 (roundingInterval m e).2.2.2
    ((places : Int) - point)).2
  have hdpos : (0 : ℚ) < d := by exact_mod_cast hd
  have hgrid : (10 : ℚ) ^ ((places : Int) - point) * 10 ^ (point - places) = 1 := by
    rw [← zpow_add₀ (by norm_num), show (places : Int) - point + (point - places) = 0 by ring,
      zpow_zero]
  have hself : (m : ℚ) * 2 ^ e = n / d * 10 ^ (point - places) := by
    rw [hscaled, mul_assoc, hgrid, mul_one]
  refine ⟨roundHalfEven n d, if roundHalfEven n d = n / d then n / d + 1 else n / d, n / d,
    ?_, ?_, ?_, rfl⟩
  · rcases roundHalfEven_mem n d with h | h
    · exact .inl ⟨h, if_pos h⟩
    · exact .inr ⟨h, if_neg (by omega)⟩
  · rw [hself]
    refine mul_le_mul_of_nonneg_right ?_ (ten_zpow_pos _).le
    rw [le_div_iff₀ hdpos]
    exact_mod_cast Nat.div_mul_le_self n d
  · rw [hself]
    refine mul_lt_mul_of_pos_right ?_ (ten_zpow_pos _)
    rw [div_lt_iff₀ hdpos]
    exact_mod_cast Nat.lt_mul_of_div_lt (Nat.lt_succ_self (n / d)) hd

/-- What a grid gives lies in the rounding interval. -/
theorem roundsTo_of_onGrid? (hm : 0 < m) (h : onGrid? m e point places = some k) :
    RoundsTo m e (k * 10 ^ (point - places)) := by
  obtain ⟨near, far, floor, -, -, -, heq⟩ := exists_onGrid?_eq hm e point places
  rw [heq] at h
  have hback : readsBack m e (places - point) k = true := by
    split_ifs at h with hnear hfar
    · exact Option.some.inj h ▸ hnear
    · exact Option.some.inj h ▸ hfar
  simpa using (readsBack_iff hm _).mp hback

/-- A grid with a point in the rounding interval gives one: one of the two points next to the
double is at least as near. -/
theorem onGrid?_isSome (hm : 0 < m) (h : RoundsTo m e (k * 10 ^ (point - places))) :
    (onGrid? m e point places).isSome = true := by
  obtain ⟨near, far, floor, hpoints, hfloor, hnext, heq⟩ := exists_onGrid?_eq hm e point places
  have hgrid := ten_zpow_pos (point - places)
  have hback : readsBack m e (places - point) floor = true ∨
      readsBack m e (places - point) (floor + 1) = true := by
    rw [readsBack_iff hm, readsBack_iff hm, neg_sub]
    rcases Nat.lt_or_ge floor k with hlt | hle
    · refine .inr ((roundsTo_self m e).between h hnext.le ?_)
      exact mul_le_mul_of_nonneg_right (by exact_mod_cast hlt) hgrid.le
    · refine .inl (h.between (roundsTo_self m e) ?_ hfloor)
      exact mul_le_mul_of_nonneg_right (by exact_mod_cast hle) hgrid.le
  rw [heq]
  rcases hpoints with ⟨rfl, rfl⟩ | ⟨rfl, rfl⟩
  · rcases hback with h | h <;> split_ifs <;> simp_all
  · rcases hback with h | h <;> split_ifs <;> simp_all

/-! ## Seventeen digits -/

/-- A grid that is finer than the rounding interval has a point in it. -/
theorem exists_roundsTo_of_lt {step : ℚ} (hstep : 0 < step)
    (h : step < (lowerGap m e + 1 / 2) * 2 ^ e) : ∃ j : Nat, RoundsTo m e (j * step) := by
  have hhigh : 0 < ((m : ℚ) + 1 / 2) * 2 ^ e := mul_pos (by positivity) (two_zpow_pos e)
  -- The last point strictly below the upper end.
  obtain ⟨j, hj⟩ : ∃ j, ⌈((m : ℚ) + 1 / 2) * 2 ^ e / step⌉₊ = j + 1 :=
    Nat.exists_eq_add_one_of_ne_zero (Nat.ceil_pos.mpr (div_pos hhigh hstep)).ne'
  have habove : ((m : ℚ) + 1 / 2) * 2 ^ e ≤ (j + 1) * step := by
    have hceil := Nat.le_ceil (((m : ℚ) + 1 / 2) * 2 ^ e / step)
    rw [hj, div_le_iff₀ hstep] at hceil
    exact_mod_cast hceil
  have hbelow : (j : ℚ) * step < (m + 1 / 2) * 2 ^ e := by
    have hlt : j < ⌈((m : ℚ) + 1 / 2) * 2 ^ e / step⌉₊ := by omega
    exact (lt_div_iff₀ hstep).mp (Nat.lt_ceil.mp hlt)
  have hlow : ((m : ℚ) - lowerGap m e) * 2 ^ e < j * step := by linarith
  exact ⟨j, hlow.le, hbelow.le, fun _ => ⟨hlow, hbelow⟩⟩

/-- The rounding interval is wider than the last of seventeen digits. -/
theorem exists_seventeen (hproper : Proper m e)
    (hpoint : (10 : ℚ) ^ (point - 1) ≤ m * 2 ^ e) :
    ∃ j : Nat, RoundsTo m e (j * 10 ^ (point - (17 : Nat))) := by
  refine exists_roundsTo_of_lt (ten_zpow_pos _) ?_
  have hpos := two_zpow_pos e
  have hstep : (10 : ℚ) ^ (point - (17 : Nat)) * 10 ^ 16 ≤ m * 2 ^ e := by
    refine le_trans (le_of_eq ?_) hpoint
    rw [← zpow_natCast, ← zpow_add₀ (by norm_num)]
    congr 1
    push_cast
    ring
  generalize (10 : ℚ) ^ (point - (17 : Nat)) = step at hstep ⊢
  unfold lowerGap
  split_ifs with hleast
  · rw [hleast.1] at hstep
    push_cast at hstep
    linarith
  · have hbits : (m : ℚ) ≤ 2 ^ 53 := by exact_mod_cast hproper.mantissa.le
    have hle := mul_le_mul_of_nonneg_right hbits hpos.le
    linarith

/-! ## The place of the point -/

/-- Three tens are less than ten doublings, and twenty-eight tens more than ninety-three: enough to
compare a power of ten with a power of two in the range of doubles. -/
theorem ten_zpow_le {guess binary : Int} (hguess : guess * 100000 ≤ binary * 30103)
    (hlow : -1100 ≤ binary) (hhigh : binary ≤ 1100) : (10 : ℚ) ^ (guess - 2) ≤ 2 ^ binary := by
  rcases le_or_gt 0 binary with hbinary | hbinary
  · rcases le_or_gt guess 2 with hsmall | hlarge
    · calc (10 : ℚ) ^ (guess - 2) ≤ 1 := zpow_le_one_of_nonpos₀ (by norm_num) (by omega)
        _ ≤ 2 ^ binary := one_le_zpow₀ (by norm_num) hbinary
    · obtain ⟨g, hg⟩ := Int.eq_ofNat_of_zero_le (show 0 ≤ guess - 2 by omega)
      obtain ⟨b, rfl⟩ := Int.eq_ofNat_of_zero_le hbinary
      rw [hg, zpow_natCast, zpow_natCast]
      refine le_of_pow_le_pow_left₀ (n := 3) (by norm_num) (by positivity) ?_
      calc ((10 : ℚ) ^ g) ^ 3 = (10 ^ 3) ^ g := by rw [← pow_mul, ← pow_mul, Nat.mul_comm]
        _ ≤ (2 ^ 10) ^ g := pow_le_pow_left₀ (by norm_num) (by norm_num) g
        _ = 2 ^ (10 * g) := (pow_mul 2 10 g).symm
        _ ≤ 2 ^ (b * 3) := pow_le_pow_right₀ (by norm_num) (by omega)
        _ = (2 ^ b) ^ 3 := pow_mul 2 b 3
  · obtain ⟨g, hg⟩ := Int.eq_ofNat_of_zero_le (show 0 ≤ -(guess - 2) by omega)
    obtain ⟨b, hb⟩ := Int.eq_ofNat_of_zero_le (show 0 ≤ -binary by omega)
    rw [← neg_neg (guess - 2), ← neg_neg binary, hg, hb, zpow_neg, zpow_neg, zpow_natCast,
      zpow_natCast]
    refine inv_anti₀ (by positivity) ?_
    refine le_of_pow_le_pow_left₀ (n := 28) (by norm_num) (by positivity) ?_
    calc ((2 : ℚ) ^ b) ^ 28 = 2 ^ (b * 28) := (pow_mul 2 b 28).symm
      _ ≤ 2 ^ (93 * g) := pow_le_pow_right₀ (by norm_num) (by omega)
      _ = (2 ^ 93) ^ g := pow_mul 2 93 g
      _ ≤ (10 ^ 28) ^ g := pow_le_pow_left₀ (by norm_num) (by norm_num) g
      _ = (10 ^ g) ^ 28 := by rw [← pow_mul, ← pow_mul, Nat.mul_comm]

/-- The point is not too far to the right: the first digit counts. -/
theorem ten_zpow_decimalPoint_le {num den : Nat} (hnum : 0 < num) (hden : 0 < den)
    (hlow : (2 : ℚ) ^ (-1100 : Int) ≤ num / den) (hhigh : (num : ℚ) / den < 2 ^ (1101 : Int)) :
    (10 : ℚ) ^ (decimalPoint num den - 1) ≤ num / den := by
  have hbelow : ∀ k : Int,
      ¬ decide ((scaleByTen num den (-k)).1 < (scaleByTen num den (-k)).2) = true →
      (10 : ℚ) ^ k ≤ num / den := by
    intro k hk
    obtain ⟨hd, hvalue⟩ := scaleByTen_spec num hden (-k)
    rw [decide_eq_true_iff, scaled_lt_iff hd, hvalue, zpow_neg, ← div_eq_mul_inv,
      div_lt_one (ten_zpow_pos k)] at hk
    exact not_lt.mp hk
  have hguess : (binaryExponent num den * 30103).fdiv 100000 * 100000 ≤
      binaryExponent num den * 30103 := by
    rw [Int.fdiv_eq_ediv_of_nonneg _ (by omega)]
    omega
  unfold decimalPoint
  dsimp only
  split_ifs with h₁ h₂ h₃
  · -- Only here the guess itself has to be good enough.
    refine (le_of_eq ?_).trans ((ten_zpow_le hguess (le_binaryExponent hnum hden hlow)
      (binaryExponent_le hnum hden hhigh)).trans (binaryExponent_spec hnum hden).1)
    congr 1
    ring
  · exact hbelow _ h₁
  · rw [add_sub_cancel_right]
    exact hbelow _ h₂
  · refine (le_of_eq ?_).trans (hbelow _ h₃)
    congr 1
    ring

/-! ## The shortest digits -/

/-- The magnitude of a double is in the range in which the point is found. -/
theorem Proper.range (hproper : Proper m e) (hm : 0 < m) :
    (2 : ℚ) ^ (-1100 : Int) ≤ m * 2 ^ e ∧ (m : ℚ) * 2 ^ e < 2 ^ (1101 : Int) := by
  have hleast : -1074 ≤ e := hproper.least
  have hgreatest : e ≤ 971 := hproper.greatest
  constructor
  · calc (2 : ℚ) ^ (-1100 : Int) ≤ 2 ^ e := zpow_le_zpow_right₀ (by norm_num) (by omega)
      _ ≤ m * 2 ^ e := le_mul_of_one_le_left (two_zpow_pos e).le (by exact_mod_cast hm)
  · have hbits : (m : ℚ) < 2 ^ 53 := by exact_mod_cast hproper.mantissa
    calc (m : ℚ) * 2 ^ e < 2 ^ 53 * 2 ^ e := mul_lt_mul_of_pos_right hbits (two_zpow_pos e)
      _ = 2 ^ ((53 : Nat) + e) := two_pow_mul_zpow 53 e
      _ ≤ 2 ^ (1101 : Int) := zpow_le_zpow_right₀ (by norm_num) (by push_cast; omega)

/-- The shortest digits of a double are those of a number in its rounding interval. -/
theorem exists_shortest_eq (hproper : Proper m e) (hm : 0 < m) :
    ∃ (k places : Nat) (point : Int), 0 < k ∧ RoundsTo m e (k * 10 ^ (point - places)) ∧
      shortest m e = ⟨dropTrailingZeros (Nat.toDigits 10 k),
        point + (((Nat.toDigits 10 k).length : Int) - places)⟩ := by
  obtain ⟨hden, hvalue⟩ := ratio_spec m e
  have hnum : 0 < (ratio m e).1 := by
    rw [ratio_eq_unit]
    exact Nat.mul_pos hm (by cases e <;> simp [ratio, scaleByTwo])
  obtain ⟨hlow, hhigh⟩ := hproper.range hm
  have hpoint := ten_zpow_decimalPoint_le hnum hden (by rwa [hvalue]) (by rwa [hvalue])
  rw [hvalue] at hpoint
  obtain ⟨j, hj⟩ := exists_seventeen hproper hpoint
  -- The search succeeds, at seventeen digits if not before.
  have hfound : ((List.range 17).findSome? fun i =>
      (onGrid? m e (decimalPoint (ratio m e).1 (ratio m e).2) (i + 1)).map fun k =>
        (i + 1, k)).isSome = true := by
    rw [List.findSome?_isSome_iff]
    exact ⟨16, by simp, by simpa using onGrid?_isSome hm hj⟩
  obtain ⟨⟨places, k⟩, hsome⟩ := Option.isSome_iff_exists.mp hfound
  obtain ⟨i, -, hgrid⟩ := List.exists_of_findSome?_eq_some hsome
  obtain ⟨k', hk', heq⟩ := Option.map_eq_some_iff.mp hgrid
  obtain ⟨rfl, rfl⟩ := Prod.mk.inj heq
  have hround := roundsTo_of_onGrid? hm hk'
  have hk : 0 < k' := by
    have hpos := hround.pos hm
    rcases Nat.eq_zero_or_pos k' with rfl | hk
    · simp at hpos
    · exact hk
  refine ⟨k', i + 1, _, hk, hround, ?_⟩
  unfold shortest
  simp only [hsome]

/-! ## Reading decimals -/

theorem digitCount_le_iff {n count : Nat} (h : 0 < count) : digitCount n ≤ count ↔ n < 10 ^ count :=
  Nat.length_toDigits_le_iff (by omega) h

/-- A decimal lies below the power of ten with as many places, and not below the one before. -/
theorem decimal_range {digits : Nat} (h : 0 < digits) (exponent : Int) :
    (10 : ℚ) ^ ((digitCount digits : Int) + exponent - 1) ≤ digits * 10 ^ exponent ∧
      (digits : ℚ) * 10 ^ exponent < 10 ^ ((digitCount digits : Int) + exponent) := by
  have hcount : 0 < digitCount digits := Nat.length_toDigits_pos
  have hpos := ten_zpow_pos exponent
  constructor
  · have hlow : (10 : ℚ) ^ (digitCount digits - 1) ≤ digits := by
      rcases Nat.lt_or_ge 1 (digitCount digits) with hlong | hshort
      · have hnot : ¬ digits < 10 ^ (digitCount digits - 1) :=
          (digitCount_le_iff (by omega)).not.mp (by omega)
        exact_mod_cast Nat.le_of_not_lt hnot
      · rw [show digitCount digits - 1 = 0 by omega, pow_zero]
        exact_mod_cast h
    calc (10 : ℚ) ^ ((digitCount digits : Int) + exponent - 1)
        = 10 ^ (digitCount digits - 1) * 10 ^ exponent := by
          rw [← zpow_natCast, ← zpow_add₀ (by norm_num)]
          congr 1
          omega
      _ ≤ digits * 10 ^ exponent := mul_le_mul_of_nonneg_right hlow hpos.le
  · rw [zpow_add₀ (by norm_num), zpow_natCast]
    refine mul_lt_mul_of_pos_right ?_ hpos
    exact_mod_cast (digitCount_le_iff hcount).mp le_rfl

/-- A number that is rounded to a double is in the range in which decimals are read. -/
theorem RoundsTo.range {q : ℚ} (h : RoundsTo m e q) (hproper : Proper m e) (hm : 0 < m) :
    (10 : ℚ) ^ (-400 : Int) < q ∧ q < 10 ^ (400 : Int) := by
  have hleast : -1074 ≤ e := hproper.least
  have hgreatest : e ≤ 971 := hproper.greatest
  have hpos := two_zpow_pos e
  have height : (2 : ℚ) ^ (1200 : Int) < 10 ^ (400 : Int) := by
    rw [show (1200 : Int) = 3 * 400 by norm_num, zpow_mul]
    exact zpow_lt_zpow_left₀ (by norm_num) (by norm_num) (by norm_num)
  constructor
  · have hone : (1 : ℚ) ≤ m := by exact_mod_cast hm
    have hgap := lowerGap_le m e
    calc (10 : ℚ) ^ (-400 : Int) < 2 ^ (-1200 : Int) := by
          rw [zpow_neg, zpow_neg]
          exact inv_strictAnti₀ (two_zpow_pos _) height
      _ ≤ 2 ^ (-1 + e) := zpow_le_zpow_right₀ (by norm_num) (by omega)
      _ = 1 / 2 * 2 ^ e := by rw [zpow_add₀ (by norm_num), zpow_neg_one, one_div]
      _ ≤ ((m : ℚ) - lowerGap m e) * 2 ^ e := mul_le_mul_of_nonneg_right (by linarith) hpos.le
      _ ≤ q := h.low
  · have hbits : (m : ℚ) + 1 ≤ 2 ^ 53 := by exact_mod_cast hproper.mantissa
    calc q ≤ ((m : ℚ) + 1 / 2) * 2 ^ e := h.high
      _ ≤ 2 ^ 53 * 2 ^ e := mul_le_mul_of_nonneg_right (by linarith) hpos.le
      _ = 2 ^ ((53 : Nat) + e) := two_pow_mul_zpow 53 e
      _ ≤ 2 ^ (1200 : Int) := zpow_le_zpow_right₀ (by norm_num) (by push_cast; omega)
      _ < 10 ^ (400 : Int) := height

/-- A decimal in the rounding interval of a double is rounded to it. -/
theorem ofDecimal_of_roundsTo (negative : Bool) {digits : Nat} {exponent : Int}
    (hproper : Proper m e) (hm : 0 < m) (h : RoundsTo m e (digits * 10 ^ exponent)) :
    ofDecimal negative digits exponent = .finite negative m e := by
  have hdigits : 0 < digits := by
    have hpos := h.pos hm
    rcases Nat.eq_zero_or_pos digits with rfl | hdigits
    · simp at hpos
    · exact hdigits
  obtain ⟨hlow, hhigh⟩ := h.range hproper hm
  obtain ⟨hfirst, hlast⟩ := decimal_range hdigits exponent
  have hsize : (digitCount digits : Int) + exponent ≤ 400 := by
    have hlt := (zpow_lt_zpow_iff_right₀ (by norm_num : (1 : ℚ) < 10)).mp (hfirst.trans_lt hhigh)
    omega
  have hsize' : -400 ≤ (digitCount digits : Int) + exponent := by
    have hlt := (zpow_lt_zpow_iff_right₀ (by norm_num : (1 : ℚ) < 10)).mp (hlow.trans hlast)
    omega
  obtain ⟨hd, hvalue⟩ := scaleByTen_spec digits Nat.one_pos exponent
  rw [Nat.cast_one, div_one] at hvalue
  unfold ofDecimal
  rw [if_neg (by omega)]
  dsimp only
  rw [if_neg (by omega), if_neg (by omega)]
  exact ofRatio_of_roundsTo negative hproper hm hd (by rwa [hvalue])

theorem isProper_ofDecimal (negative : Bool) (digits : Nat) (exponent : Int) :
    IsProper (ofDecimal negative digits exponent) := by
  unfold ofDecimal
  dsimp only
  split_ifs
  · exact proper_zero
  · trivial
  · exact proper_zero
  · exact isProper_ofRatio negative _ (scaleByTen_spec digits Nat.one_pos exponent).1

end ContractKit.Double
