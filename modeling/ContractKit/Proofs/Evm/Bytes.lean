import ContractKit.Evm.Emitter
import Mathlib.Tactic.NormNum
import Mathlib.Tactic.Positivity
import Mathlib.Tactic.Ring

/-!
# Numbers as bytes

`bigEndianBytes` writes a number and `Layout.bigEndian` reads one.  This module says how
far the two undo each other, how many bytes a number needs, and what becomes of it as a
word of the machine.
-/

namespace ContractKit.Evm

open Layout (bigEndian)

/-- A word of the machine. -/
abbrev Word := BitVec 256

@[simp] theorem length_bigEndianBytes (size n : Nat) : (bigEndianBytes size n).length = size := by
  induction size generalizing n with
  | zero => rfl
  | succ size ih => simp [bigEndianBytes, ih]

/-! ## Reading -/

@[simp] theorem bigEndian_nil : bigEndian [] = 0 := rfl

@[simp] theorem bigEndian_concat (bytes : List UInt8) (b : UInt8) :
    bigEndian (bytes ++ [b]) = bigEndian bytes * 256 + b.toNat := by
  simp [bigEndian]

/-- Bytes in front count by the length of those behind them. -/
theorem bigEndian_append (front back : List UInt8) :
    bigEndian (front ++ back) = bigEndian front * 256 ^ back.length + bigEndian back := by
  induction back using List.reverseRecOn with
  | nil => simp
  | append_singleton back b ih =>
    rw [← List.append_assoc, bigEndian_concat, bigEndian_concat, ih, List.length_append]
    simp only [List.length_singleton, pow_succ]
    ring

theorem bigEndian_cons (b : UInt8) (bytes : List UInt8) :
    bigEndian (b :: bytes) = b.toNat * 256 ^ bytes.length + bigEndian bytes := by
  have h := bigEndian_append [b] bytes
  simpa [bigEndian] using h

theorem bigEndian_lt (bytes : List UInt8) : bigEndian bytes < 256 ^ bytes.length := by
  induction bytes with
  | nil => simp
  | cons b bytes ih =>
    have hb : b.toNat ≤ 255 := Nat.le_of_lt_succ b.toNat_lt
    rw [bigEndian_cons, List.length_cons, pow_succ]
    calc b.toNat * 256 ^ bytes.length + bigEndian bytes
        < b.toNat * 256 ^ bytes.length + 256 ^ bytes.length := by omega
      _ = (b.toNat + 1) * 256 ^ bytes.length := by ring
      _ ≤ 256 * 256 ^ bytes.length := Nat.mul_le_mul_right _ (by omega)
      _ = 256 ^ bytes.length * 256 := by ring

/-- Byte strings of one length are told apart by the numbers they stand for. -/
theorem bigEndian_injective {xs ys : List UInt8} (hlen : xs.length = ys.length)
    (h : bigEndian xs = bigEndian ys) : xs = ys := by
  induction xs generalizing ys with
  | nil => exact (List.eq_nil_of_length_eq_zero hlen.symm).symm
  | cons x xs ih =>
    obtain _ | ⟨y, ys⟩ := ys
    · simp at hlen
    have hlen' : xs.length = ys.length := by simpa using hlen
    have hx := bigEndian_lt xs
    have hy := bigEndian_lt ys
    rw [bigEndian_cons, bigEndian_cons, ← hlen'] at h
    rw [← hlen'] at hy
    -- The head is the quotient and the tail the remainder by the same power.
    have hpos : 0 < 256 ^ xs.length := by positivity
    have hhead : x.toNat = y.toNat := by
      have hq := congrArg (· / 256 ^ xs.length) h
      simpa only [Nat.add_comm _ (bigEndian _), Nat.add_mul_div_right _ _ hpos,
        Nat.div_eq_of_lt hx, Nat.div_eq_of_lt hy, Nat.zero_add] using hq
    have htail : bigEndian xs = bigEndian ys := by
      rw [hhead] at h
      omega
    rw [UInt8.toNat_inj.mp hhead, ih hlen' htail]

/-! ## Writing -/

/-- Reading what was written gives the number modulo the room there was. -/
theorem bigEndian_bigEndianBytes (size n : Nat) :
    bigEndian (bigEndianBytes size n) = n % 256 ^ size := by
  induction size generalizing n with
  | zero => simp [bigEndianBytes, Nat.mod_one]
  | succ size ih =>
    have hb : n.toUInt8.toNat = n % 256 := by simp
    rw [bigEndianBytes, bigEndian_concat, ih, hb, pow_succ, Nat.mul_comm (256 ^ size),
      Nat.mod_mul]
    ring

theorem bigEndian_bigEndianBytes_of_lt {size n : Nat} (h : n < 256 ^ size) :
    bigEndian (bigEndianBytes size n) = n := by
  rw [bigEndian_bigEndianBytes, Nat.mod_eq_of_lt h]

/-- Writing what was read gives the bytes back. -/
theorem bigEndianBytes_bigEndian (bytes : List UInt8) :
    bigEndianBytes bytes.length (bigEndian bytes) = bytes :=
  bigEndian_injective (by simp) (bigEndian_bigEndianBytes_of_lt (bigEndian_lt bytes))

/-! ## How many bytes a number needs -/

theorem byteLength_pos (n : Nat) : 0 < byteLength n := by
  unfold byteLength
  split <;> omega

/-- A number fits into a positive number of bytes iff it is below their power of 256. -/
theorem byteLength_le_iff {n size : Nat} (hs : 0 < size) :
    byteLength n ≤ size ↔ n < 256 ^ size := by
  unfold byteLength
  split
  case isTrue h =>
    subst h
    exact ⟨fun _ => by positivity, fun _ => hs⟩
  case isFalse h =>
    have hpow : (256 : Nat) ^ size = 2 ^ (8 * size) := by
      rw [pow_mul]
      norm_num
    rw [hpow, ← Nat.log2_lt h]
    omega

theorem lt_pow_byteLength (n : Nat) : n < 256 ^ byteLength n :=
  (byteLength_le_iff (byteLength_pos n)).mp le_rfl

theorem bigEndian_minimal (n : Nat) : bigEndian (bigEndianBytes (byteLength n) n) = n :=
  bigEndian_bigEndianBytes_of_lt (lt_pow_byteLength n)

theorem word_size : (256 : Nat) ^ 32 = 2 ^ 256 := by norm_num

theorem byteLength_le_word {n : Nat} : byteLength n ≤ 32 ↔ n < 2 ^ 256 := by
  rw [byteLength_le_iff (by omega), word_size]

/-! ## Words -/

def wordOf (bytes : List UInt8) : Word := BitVec.ofNat 256 (bigEndian bytes)

def bytesOf (w : Word) : List UInt8 := bigEndianBytes 32 w.toNat

@[simp] theorem length_bytesOf (w : Word) : (bytesOf w).length = 32 := by simp [bytesOf]

@[simp] theorem wordOf_minimal (n : Nat) :
    wordOf (bigEndianBytes (byteLength n) n) = BitVec.ofNat 256 n := by
  rw [wordOf, bigEndian_minimal]

theorem toNat_wordOf {bytes : List UInt8} (h : bytes.length ≤ 32) :
    (wordOf bytes).toNat = bigEndian bytes := by
  have hlt : bigEndian bytes < 2 ^ 256 :=
    calc bigEndian bytes < 256 ^ bytes.length := bigEndian_lt bytes
      _ ≤ 256 ^ 32 := Nat.pow_le_pow_right (by omega) h
      _ = 2 ^ 256 := word_size
  rw [wordOf, BitVec.toNat_ofNat, Nat.mod_eq_of_lt hlt]

end ContractKit.Evm
