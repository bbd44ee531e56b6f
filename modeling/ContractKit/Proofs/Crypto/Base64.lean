import ContractKit.Crypto.Base64
import Mathlib

/-!
# Base64 is read back

Reading passes through a group of four characters in four phases.  Each phase turns what is
carried over and the next number into a byte, so a written group gives its bytes and leaves
nothing behind.
-/

namespace ContractKit.Crypto.Base64

variable {a : Alphabet} {n carry pads : Nat} {done : List UInt8} {rest : List Char}

/-! ## Characters -/

theorem value?_char (a : Alphabet) (h : n < 64) : a.value? (a.char n) = some n := by
  revert n
  cases a <;> decide

theorem char_ne_filler (a : Alphabet) (h : n < 64) : a.char n ≠ '=' := by
  revert n
  cases a <;> decide

theorem toNat_char_lt (a : Alphabet) (h : n < 64) : (a.char n).toNat < 128 := by
  revert n
  cases a <;> decide

/-! ## The four phases of a group -/

theorem decodeFrom_first (h : n < 64) :
    decodeFrom a 0 carry pads done (a.char n :: rest) = decodeFrom a 1 n 0 done rest := by
  simp only [decodeFrom, if_neg (char_ne_filler a h), value?_char a h]

theorem decodeFrom_second (h : n < 64) :
    decodeFrom a 1 carry pads done (a.char n :: rest) =
      decodeFrom a 2 (n % 16) 0 ((carry * 4 + n / 16).toUInt8 :: done) rest := by
  simp only [decodeFrom, if_neg (char_ne_filler a h), value?_char a h]

theorem decodeFrom_third (h : n < 64) :
    decodeFrom a 2 carry pads done (a.char n :: rest) =
      decodeFrom a 3 (n % 4) 0 ((carry * 16 + n / 4).toUInt8 :: done) rest := by
  simp only [decodeFrom, if_neg (char_ne_filler a h), value?_char a h]

theorem decodeFrom_fourth (h : n < 64) :
    decodeFrom a 3 carry pads done (a.char n :: rest) =
      decodeFrom a 0 0 0 ((carry * 64 + n).toUInt8 :: done) rest := by
  simp only [decodeFrom, if_neg (char_ne_filler a h), value?_char a h]

/-! ## Whole texts -/

theorem decodeFrom_encode (a : Alphabet) (bytes done : List UInt8) :
    decodeFrom a 0 0 0 done (encode a bytes) = .ok (done.reverse ++ bytes) := by
  fun_induction encode a bytes generalizing done with
  | case1 => simp [decodeFrom]
  | case2 x n =>
    have hx := x.toNat_lt
    have first : n / 64 * 4 + n % 64 / 16 = x.toNat := by omega
    rw [decodeFrom_first (by omega), decodeFrom_second (by omega), first]
    simp [decodeFrom]
  | case3 x y n =>
    have hx := x.toNat_lt
    have hy := y.toNat_lt
    have first : n / 4096 * 4 + n / 64 % 64 / 16 = x.toNat := by omega
    have second : n / 64 % 64 % 16 * 16 + n % 64 / 4 = y.toNat := by omega
    rw [decodeFrom_first (by omega), decodeFrom_second (by omega), decodeFrom_third (by omega),
      first, second]
    simp [decodeFrom]
  | case4 x y z rest n ih =>
    have hx := x.toNat_lt
    have hy := y.toNat_lt
    have hz := z.toNat_lt
    have first : n / 262144 * 4 + n / 4096 % 64 / 16 = x.toNat := by omega
    have second : n / 4096 % 64 % 16 * 16 + n / 64 % 64 / 4 = y.toNat := by omega
    have third : n / 64 % 64 % 4 * 64 + n % 64 = z.toNat := by omega
    rw [decodeFrom_first (by omega), decodeFrom_second (by omega), decodeFrom_third (by omega),
      decodeFrom_fourth (by omega), first, second, third, ih]
    simp

/-- Reading what was written gives the bytes. -/
theorem decode_encode (a : Alphabet) (bytes : List UInt8) : decode a (encode a bytes) = .ok bytes :=
  decodeFrom_encode a bytes []

theorem forall_mem_encode (a : Alphabet) (bytes : List UInt8) :
    ∀ c ∈ encode a bytes, c.toNat < 128 := by
  have filler : '='.toNat < 128 := by decide
  fun_induction encode a bytes with
  | case1 => simp
  | case2 x n =>
    have hx := x.toNat_lt
    simp only [List.forall_mem_cons]
    exact ⟨toNat_char_lt a (by omega), toNat_char_lt a (by omega), filler, filler, by simp⟩
  | case3 x y n =>
    have hx := x.toNat_lt
    have hy := y.toNat_lt
    simp only [List.forall_mem_cons]
    exact ⟨toNat_char_lt a (by omega), toNat_char_lt a (by omega), toNat_char_lt a (by omega),
      filler, by simp⟩
  | case4 x y z rest n ih =>
    have hx := x.toNat_lt
    have hy := y.toNat_lt
    have hz := z.toNat_lt
    simp only [List.forall_mem_cons]
    exact ⟨toNat_char_lt a (by omega), toNat_char_lt a (by omega), toNat_char_lt a (by omega),
      toNat_char_lt a (by omega), ih⟩

end ContractKit.Crypto.Base64
