import Mathlib
import ContractKit.Text.Decode

/-!
# Text files

A text is kept in a file by its UTF-8 bytes.  They are read as the text again; since reading makes
every line end a line feed, this holds of texts without carriage returns.
-/

namespace ContractKit.Text

variable {n : Nat}

theorem toNat_toUInt8_of_lt (h : n < 256) : n.toUInt8.toNat = n := by
  simp [Nat.mod_eq_of_lt h]

/-! ## Continuations -/

theorem toNat_continuation (h : n < 64) : (0x80 + n).toUInt8.toNat = 0x80 + n :=
  toNat_toUInt8_of_lt (by omega)

theorem goodContinuations_zero (low high : Nat) (bytes : List UInt8) :
    goodContinuations 0 low high bytes = 0 := by
  cases bytes <;> simp [goodContinuations]

/-- A byte within the bounds is counted. -/
theorem goodContinuations_succ {low high : Nat} {b : UInt8} (k : Nat) (hlow : low ≤ b.toNat)
    (hhigh : b.toNat ≤ high) (rest : List UInt8) :
    goodContinuations (k + 1) low high (b :: rest) = 1 + goodContinuations k 0x80 0xBF rest := by
  simp [goodContinuations, hlow, hhigh]

/-! ## Characters -/

theorem decodeFrom_ascii {b : UInt8} (h : b.toNat < 0x80) (position fuel : Nat)
    (rest : List UInt8) :
    decodeFrom position (fuel + 1) (b :: rest) =
      (decodeFrom (position + 1) fuel rest).map (Char.ofNat b.toNat :: ·) := by
  have hb : b < 0x80 := h
  rw [decodeFrom, if_pos hb]
  cases decodeFrom (position + 1) fuel rest <;> rfl

theorem decodeFrom_continued {b : UInt8} {needed low high : Nat}
    (hfirst : 0x80 ≤ b.toNat) (hneeded : continuation? b = some (needed, low, high))
    {tail : List UInt8} (hlength : tail.length = needed) {rest : List UInt8}
    (hgood : goodContinuations needed low high (tail ++ rest) = needed) (position fuel : Nat) :
    decodeFrom position (fuel + 1) (b :: (tail ++ rest)) =
      (decodeFrom (position + 1 + needed) fuel rest).map
        (Char.ofNat (pointOfBytes needed b tail) :: ·) := by
  have hb : ¬ b < 0x80 := Nat.not_lt.mpr hfirst
  rw [decodeFrom, if_neg hb, hneeded]
  simp only [hgood, if_true]
  subst hlength
  rw [List.drop_left, List.take_left]
  cases decodeFrom (position + 1 + tail.length) fuel rest <;> rfl

theorem continuation?_two {b : UInt8} (h : 0xC2 ≤ b.toNat) (h' : b.toNat < 0xE0) :
    continuation? b = some (1, 0x80, 0xBF) := by
  rw [continuation?, if_neg (by omega), if_pos h']

/-- The lowest second byte of a character of three bytes, and the highest. -/
theorem continuation?_three {b : UInt8} (h : 0xE0 ≤ b.toNat) (h' : b.toNat < 0xF0) :
    continuation? b = some (2, if b.toNat = 0xE0 then 0xA0 else 0x80,
      if b.toNat = 0xED then 0x9F else 0xBF) := by
  simp only [continuation?]
  split_ifs <;> first | rfl | omega

/-- The lowest second byte of a character of four bytes, and the highest. -/
theorem continuation?_four {b : UInt8} (h : 0xF0 ≤ b.toNat) (h' : b.toNat ≤ 0xF4) :
    continuation? b = some (3, if b.toNat = 0xF0 then 0x90 else 0x80,
      if b.toNat = 0xF4 then 0x8F else 0xBF) := by
  simp only [continuation?]
  split_ifs <;> first | rfl | omega

/-- The code point of a character is below the last one, and no surrogate. -/
theorem char_range (c : Char) :
    c.toNat < 0xD800 ∨ 0xE000 ≤ c.toNat ∧ c.toNat < 0x110000 := by
  rcases c.valid with h | h
  · exact .inl h
  · exact .inr ⟨h.1, h.2⟩

theorem utf8Bytes_two (h : 0x80 ≤ n) (h' : n < 0x800) :
    utf8Bytes n = [(0xC0 + n / 64).toUInt8, (0x80 + n % 64).toUInt8] := by
  simp [utf8Bytes, h', Nat.not_lt.mpr h]

theorem utf8Bytes_three (h : 0x800 ≤ n) (h' : n < 0x10000) :
    utf8Bytes n =
      [(0xE0 + n / 4096).toUInt8, (0x80 + n / 64 % 64).toUInt8, (0x80 + n % 64).toUInt8] := by
  have hone : ¬ n < 0x80 := by omega
  simp [utf8Bytes, h', Nat.not_lt.mpr h, hone]

theorem utf8Bytes_four (h : 0x10000 ≤ n) :
    utf8Bytes n =
      [(0xF0 + n / 262144).toUInt8, (0x80 + n / 4096 % 64).toUInt8,
        (0x80 + n / 64 % 64).toUInt8, (0x80 + n % 64).toUInt8] := by
  have hone : ¬ n < 0x80 := by omega
  have htwo : ¬ n < 0x800 := by omega
  simp [utf8Bytes, Nat.not_lt.mpr h, hone, htwo]

theorem decodeFrom_two (h : 0x80 ≤ n) (h' : n < 0x800) (position fuel : Nat)
    (rest : List UInt8) :
    decodeFrom position (fuel + 1) (utf8Bytes n ++ rest) =
      (decodeFrom (position + 2) fuel rest).map (Char.ofNat n :: ·) := by
  have hfirst := toNat_toUInt8_of_lt (n := 0xC0 + n / 64) (by omega)
  have hlast := toNat_continuation (n := n % 64) (by omega)
  have hneeded := continuation?_two (b := (0xC0 + n / 64).toUInt8) (by omega) (by omega)
  have hpoint : pointOfBytes 1 (0xC0 + n / 64).toUInt8 [(0x80 + n % 64).toUInt8] = n := by
    change (0xC0 + n / 64).toUInt8.toNat % 32 * 64 + (0x80 + n % 64).toUInt8.toNat % 64 = n
    omega
  rw [utf8Bytes_two h h', List.cons_append, decodeFrom_continued (by omega) hneeded rfl, hpoint]
  rw [List.cons_append, goodContinuations_succ 0 (by omega) (by omega), goodContinuations_zero]

theorem decodeFrom_three (h : 0x800 ≤ n) (h' : n < 0x10000) (hsurrogate : n < 0xD800 ∨ 0xE000 ≤ n)
    (position fuel : Nat) (rest : List UInt8) :
    decodeFrom position (fuel + 1) (utf8Bytes n ++ rest) =
      (decodeFrom (position + 3) fuel rest).map (Char.ofNat n :: ·) := by
  have hfirst := toNat_toUInt8_of_lt (n := 0xE0 + n / 4096) (by omega)
  have hsecond := toNat_continuation (n := n / 64 % 64) (by omega)
  have hlast := toNat_continuation (n := n % 64) (by omega)
  have hneeded := continuation?_three (b := (0xE0 + n / 4096).toUInt8) (by omega) (by omega)
  have hpoint : pointOfBytes 2 (0xE0 + n / 4096).toUInt8
      [(0x80 + n / 64 % 64).toUInt8, (0x80 + n % 64).toUInt8] = n := by
    change ((0xE0 + n / 4096).toUInt8.toNat % 16 * 64 + (0x80 + n / 64 % 64).toUInt8.toNat % 64) *
      64 + (0x80 + n % 64).toUInt8.toNat % 64 = n
    omega
  rw [utf8Bytes_three h h', List.cons_append, decodeFrom_continued (by omega) hneeded rfl, hpoint]
  rw [List.cons_append, goodContinuations_succ 1 (by split <;> omega) (by split <;> omega),
    List.cons_append, goodContinuations_succ 0 (by omega) (by omega), goodContinuations_zero]

theorem decodeFrom_four (h : 0x10000 ≤ n) (h' : n < 0x110000) (position fuel : Nat)
    (rest : List UInt8) :
    decodeFrom position (fuel + 1) (utf8Bytes n ++ rest) =
      (decodeFrom (position + 4) fuel rest).map (Char.ofNat n :: ·) := by
  have hfirst := toNat_toUInt8_of_lt (n := 0xF0 + n / 262144) (by omega)
  have hsecond := toNat_continuation (n := n / 4096 % 64) (by omega)
  have hthird := toNat_continuation (n := n / 64 % 64) (by omega)
  have hlast := toNat_continuation (n := n % 64) (by omega)
  have hneeded := continuation?_four (b := (0xF0 + n / 262144).toUInt8) (by omega) (by omega)
  have hpoint : pointOfBytes 3 (0xF0 + n / 262144).toUInt8
      [(0x80 + n / 4096 % 64).toUInt8, (0x80 + n / 64 % 64).toUInt8, (0x80 + n % 64).toUInt8] =
        n := by
    change (((0xF0 + n / 262144).toUInt8.toNat % 8 * 64 +
      (0x80 + n / 4096 % 64).toUInt8.toNat % 64) * 64 + (0x80 + n / 64 % 64).toUInt8.toNat % 64) *
      64 + (0x80 + n % 64).toUInt8.toNat % 64 = n
    omega
  rw [utf8Bytes_four h, List.cons_append, decodeFrom_continued (by omega) hneeded rfl, hpoint]
  rw [List.cons_append, goodContinuations_succ 2 (by split <;> omega) (by split <;> omega),
    List.cons_append, goodContinuations_succ 1 (by omega) (by omega),
    List.cons_append, goodContinuations_succ 0 (by omega) (by omega), goodContinuations_zero]

theorem decodeFrom_point (hrange : n < 0xD800 ∨ 0xE000 ≤ n ∧ n < 0x110000) (position fuel : Nat)
    (rest : List UInt8) :
    ∃ position', decodeFrom position (fuel + 1) (utf8Bytes n ++ rest) =
      (decodeFrom position' fuel rest).map (Char.ofNat n :: ·) := by
  rcases Nat.lt_or_ge n 0x80 with hone | hone
  · have hbyte := toNat_toUInt8_of_lt (n := n) (by omega)
    have hbytes : utf8Bytes n = [n.toUInt8] := by simp [utf8Bytes, hone]
    rw [hbytes, List.cons_append, decodeFrom_ascii (by omega), hbyte]
    exact ⟨_, rfl⟩
  rcases Nat.lt_or_ge n 0x800 with htwo | htwo
  · exact ⟨_, decodeFrom_two hone htwo ..⟩
  rcases Nat.lt_or_ge n 0x10000 with hthree | hthree
  · exact ⟨_, decodeFrom_three htwo hthree (by omega) ..⟩
  · exact ⟨_, decodeFrom_four hthree (by omega) ..⟩

theorem decodeFrom_char (c : Char) (position fuel : Nat) (rest : List UInt8) :
    ∃ position', decodeFrom position (fuel + 1) (utf8Bytes c.toNat ++ rest) =
      (decodeFrom position' fuel rest).map (c :: ·) := by
  simpa only [Char.ofNat_toNat] using decodeFrom_point (char_range c) position fuel rest

/-! ## Texts -/

theorem decodeFrom_utf8 (cs : List Char) (position fuel : Nat) (h : cs.length ≤ fuel) :
    decodeFrom position fuel ((cs.map Char.toNat).flatMap utf8Bytes) = .ok cs := by
  induction cs generalizing position fuel with
  | nil => cases fuel <;> rfl
  | cons c rest ih =>
    obtain ⟨fuel, rfl⟩ := Nat.exists_eq_add_one_of_ne_zero (show fuel ≠ 0 by simp at h; omega)
    rw [List.map_cons, List.flatMap_cons]
    obtain ⟨position', hchar⟩ := decodeFrom_char c position fuel
      ((rest.map Char.toNat).flatMap utf8Bytes)
    rw [hchar, ih position' fuel (by simpa using h)]
    rfl

theorem utf8Bytes_ne_nil (n : Nat) : utf8Bytes n ≠ [] := by
  simp only [utf8Bytes]
  split_ifs <;> simp

theorem length_le_length_flatMap (points : List Nat) :
    points.length ≤ (points.flatMap utf8Bytes).length := by
  induction points with
  | nil => simp
  | cons n rest ih =>
    have hpos := List.length_pos_iff.mpr (utf8Bytes_ne_nil n)
    rw [List.flatMap_cons, List.length_append, List.length_cons]
    omega

theorem decode_utf8 (s : String) : decode (utf8 s) = .ok s := by
  have hlength := length_le_length_flatMap (pointsOf s)
  rw [pointsOf, List.length_map] at hlength
  rw [decode, utf8, pointsOf, decodeFrom_utf8 s.toList 0 _ hlength]
  exact congrArg Except.ok String.ofList_toList

theorem unifyLines_of_not_mem {cs : List Char} (h : '\r' ∉ cs) : unifyLines cs = cs := by
  induction cs with
  | nil => rfl
  | cons c rest ih =>
    simp only [List.mem_cons, not_or] at h
    rw [unifyLines, ih h.2]
    · rintro rest' rfl
      exact absurd rfl h.1
    · exact Ne.symm h.1

/-- A text without carriage returns is what is read from its bytes. -/
theorem readText_utf8 {s : String} (h : '\r' ∉ s.toList) : readText (utf8 s) = .ok s := by
  rw [readText, decode_utf8]
  simp only [Except.map, unifyLines_of_not_mem h, String.ofList_toList]

end ContractKit.Text
