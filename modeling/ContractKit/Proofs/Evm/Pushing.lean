import ContractKit.Proofs.Evm.Emission

/-!
# Pushing integers

An integer is pushed by the byte of an instruction and the bytes of the integer, most
significant first.  Their number is given, or it is the least that the integer needs.  An
integer that is negative or does not fit is refused, and nothing is written.

The machine has instructions that push up to 32 bytes.  The bytes that follow theirs belong to
other instructions, but they are computed in the same way: only where the sum would leave the
range of a byte the integer is refused.  So an integer in 33 to 160 bytes is neither pushed nor
refused: the byte of another instruction is written, and the bytes of the integer behind it.
-/

namespace ContractKit

/-- The integer that a value is; a truth value is one of zero and one. -/
def Value.integer? : Value → Option Int
  | .int n => some n
  | .bool b => some (if b then 1 else 0)
  | _ => Option.none

namespace Evm

open Layout (bigEndian)

/-- The number of bytes in which an integer is to be pushed, if it can be. -/
def pushWidth (n : Int) (size : Option Int) : Nat := (size.getD (byteLength n.natAbs)).toNat

/-- The most bytes for which there is a byte to write in front of them. -/
def maxPushWidth : Nat := 160

/-- The most bytes that an instruction pushes. -/
def wordWidth : Nat := 32

/-- An integer was pushed, or refused: one instruction from `PUSH1` to `PUSH32` was appended to
the code that is being written, with as many bytes as belong to it, and they stand for the
integer; or the emitter is the same. -/
def PushedOrRefused (n : Int) (e : Emitter) : EStateM.Result Fault Emitter Unit → Prop
  | .ok _ e' => ∃ op bytes, 0x60 ≤ UInt8.toNat op ∧ op.toNat ≤ 0x7f ∧
      bytes.length = op.toNat - 0x5f ∧ (bigEndian bytes : Int) = n ∧ Wrote e (op :: bytes) e'
  | .error _ e' => e' = e

/-! ## What is written -/

variable {v : Value} {n : Int} {size : Option Int}

theorem operand_integer (hv : v.integer? = some n) (size : Option Int) :
    operand v size = integerOperand n size := by
  cases v with
  | int m =>
    obtain rfl := Option.some.inj hv
    rfl
  | bool b =>
    obtain rfl := Option.some.inj hv
    rfl
  | none | float _ | imaginary _ | text _ | bytes _ | list _ | dict _ | ellipsis =>
    simp [Value.integer?] at hv

/-- A width that is given is positive, and so is the least one. -/
theorem pushWidth_pos (hsize : ∀ s ∈ size, 1 ≤ s) : 0 < pushWidth n size := by
  unfold pushWidth
  cases size with
  | none => simpa using byteLength_pos n.natAbs
  | some s =>
    have hs := hsize s rfl
    simp only [Option.getD_some]
    omega

/-- An integer can be written in a positive number of bytes iff it is not negative and below
their power of 256. -/
theorem checkWord_natCast {width : Nat} (hwidth : 0 < width) :
    checkWord n width = .ok () ↔ 0 ≤ n ∧ n < 256 ^ width := by
  have hfits : byteLength n.toNat ≤ width ↔ n.toNat < 256 ^ width := byteLength_le_iff hwidth
  constructor
  · intro hcheck
    obtain ⟨-, hpos, hlt⟩ := checkWord_eq_ok hcheck
    refine ⟨hpos, ?_⟩
    rw [Int.toNat_natCast] at hlt
    have hcast : (n.toNat : Int) < ((256 ^ width : Nat) : Int) := Int.ofNat_lt.mpr hlt
    rwa [Int.toNat_of_nonneg hpos, Nat.cast_pow] at hcast
  · rintro ⟨hpos, hlt⟩
    have hnat : n.toNat < 256 ^ width := by
      rw [Int.toNat_lt hpos, Nat.cast_pow]
      exact hlt
    rw [checkWord, if_neg (by omega), if_neg (by omega), Int.toNat_natCast, if_pos (hfits.mpr hnat)]

/-- **What is written for an integer.**  If it is not negative, fits into the bytes and these are
at most 160, then the byte that counts from `PUSH1` and the bytes are appended, and pushing is
charged for.  Otherwise nothing is done. -/
theorem emitPushSized_integer (hv : v.integer? = some n) (hsize : ∀ s ∈ size, 1 ≤ s)
    (e : Emitter) :
    (0 ≤ n ∧ n < 256 ^ pushWidth n size ∧ pushWidth n size ≤ maxPushWidth ∧
      emitPushSized v size e = .ok () ((e.append ((0x5f + pushWidth n size).toUInt8 ::
        bigEndianBytes (pushWidth n size) n.toNat)).charge pushCost)) ∨
    (¬(0 ≤ n ∧ n < 256 ^ pushWidth n size ∧ pushWidth n size ≤ maxPushWidth) ∧
      ∃ fault, emitPushSized v size e = .error fault e) := by
  have hpos : 0 < pushWidth n size := pushWidth_pos hsize
  have hwidth : size.getD (byteLength n.natAbs) = (pushWidth n size : Int) := by
    have hnonneg : 0 ≤ size.getD (byteLength n.natAbs) := by
      cases size with
      | none => simp
      | some s => exact (Int.zero_le_ofNat 1).trans (hsize s rfl)
    exact (Int.toNat_of_nonneg hnonneg).symm
  unfold emitPushSized
  rw [operand_integer hv]
  simp only [integerOperand, hwidth, Int.toNat_natCast]
  cases hcheck : checkWord n (pushWidth n size) with
  | error fault =>
    refine .inr ⟨fun hfits => ?_, fault, rfl⟩
    rw [(checkWord_natCast hpos).mpr ⟨hfits.1, hfits.2.1⟩] at hcheck
    simp at hcheck
  | ok _ =>
    obtain ⟨hn, hlt⟩ := (checkWord_natCast hpos).mp hcheck
    by_cases hmax : pushWidth n size ≤ maxPushWidth
    · have hbyte : pushByte (pushWidth n size) = .ok (0x5f + pushWidth n size).toUInt8 := by
        simp only [maxPushWidth] at hmax
        rw [pushByte, if_pos (by omega), Nat.add_comm]
      exact .inl ⟨hn, hlt, hmax, by simp only [hbyte]⟩
    · have hbyte : pushByte (pushWidth n size) = .error .byteRange := by
        simp only [maxPushWidth] at hmax
        rw [pushByte, if_neg (by omega)]
      exact .inr ⟨fun hfits => hmax hfits.2.2, .byteRange, by simp only [hbyte]⟩

/-! ## When it pushes -/

theorem toNat_pushByte_of_le {width : Nat} (h : width ≤ maxPushWidth) :
    (0x5f + width).toUInt8.toNat = 0x5f + width := by
  simp only [maxPushWidth] at h
  simp only [Nat.toUInt8_eq, UInt8.toNat_ofNat']
  omega

/-- **Pushing or nothing.**  Let an integer be pushed in a number of bytes that is given and
positive, or in as few as it needs, whatever the emitter has written before and whichever code it
writes.  Then one instruction that pushes this integer is written, or nothing is, unless the
integer fits into the bytes and these are more than a word has and no more than 160. -/
theorem pushed_or_refused_iff (hv : v.integer? = some n) (hsize : ∀ s ∈ size, 1 ≤ s)
    (e : Emitter) :
    PushedOrRefused n e (emitPushSized v size e) ↔
      ¬(0 ≤ n ∧ n < 256 ^ pushWidth n size ∧ wordWidth < pushWidth n size ∧
        pushWidth n size ≤ maxPushWidth) := by
  rcases emitPushSized_integer hv hsize e with ⟨hn, hlt, hmax, heq⟩ | ⟨hout, fault, heq⟩
  case inr =>
    rw [heq]
    exact ⟨fun _ hwide => hout ⟨hwide.1, hwide.2.1, hwide.2.2.2⟩, fun _ => rfl⟩
  case inl =>
    have hwrote := wrote_append e ((0x5f + pushWidth n size).toUInt8 ::
      bigEndianBytes (pushWidth n size) n.toNat) pushCost
    have hop := toNat_pushByte_of_le hmax
    rw [heq]
    constructor
    · rintro ⟨op, bytes, -, hop', -, -, hwrote'⟩ ⟨-, -, hwide, -⟩
      -- What was appended is determined by the two emitters.
      have hsame := List.append_cancel_left (hwrote'.current.symm.trans hwrote.current)
      rw [(List.cons.inj hsame).1, hop] at hop'
      simp only [wordWidth] at hwide
      omega
    · intro hnarrow
      have hle : pushWidth n size ≤ wordWidth := by
        by_contra hwide
        exact hnarrow ⟨hn, hlt, by omega, hmax⟩
      have hpos : 0 < pushWidth n size := pushWidth_pos hsize
      simp only [wordWidth] at hle
      refine ⟨_, _, by omega, by omega, by rw [length_bigEndianBytes]; omega, ?_, hwrote⟩
      have hnat : n.toNat < 256 ^ pushWidth n size := by
        rw [Int.toNat_lt hn, Nat.cast_pow]
        exact hlt
      rw [bigEndian_bigEndianBytes_of_lt hnat, Int.toNat_of_nonneg hn]

/-- The greatest word is pushed, the least integer above it and a one in 33 bytes are not, and a
negative integer or one in 161 bytes is refused. -/
theorem pushed_or_refused_near_word :
    PushedOrRefused (2 ^ 256 - 1) {} (emitPushSized (.int (2 ^ 256 - 1)) none {}) ∧
      ¬PushedOrRefused (2 ^ 256) {} (emitPushSized (.int (2 ^ 256)) none {}) ∧
      ¬PushedOrRefused 1 {} (emitPushSized (.bool true) (some 33) {}) ∧
      PushedOrRefused (-1) {} (emitPushSized (.int (-1)) none {}) ∧
      PushedOrRefused 1 {} (emitPushSized (.int 1) (some 161) {}) :=
  ⟨(pushed_or_refused_iff rfl (by simp) {}).mpr (by decide +kernel),
    fun h => (pushed_or_refused_iff rfl (by simp) {}).mp h (by decide +kernel),
    fun h => (pushed_or_refused_iff rfl (by simp) {}).mp h (by decide +kernel),
    (pushed_or_refused_iff rfl (by simp) {}).mpr (by decide +kernel),
    (pushed_or_refused_iff rfl (by simp) {}).mpr (by decide +kernel)⟩

/-- Pushing the least integer that no word holds succeeds, but what is written begins with a byte
that no instruction from `PUSH1` to `PUSH32` has. -/
theorem wide_integer_not_pushed :
    ∃ e', emitPush (.int (2 ^ 256)) {} = .ok () e' ∧
      e'.init.toList = 0x80 :: 0x01 :: List.replicate 32 0x00 ∧
      ¬PushedOrRefused (2 ^ 256) {} (emitPush (.int (2 ^ 256)) {}) := by
  refine ⟨_, rfl, by decide +kernel, ?_⟩
  rintro ⟨op, bytes, -, hop, -, -, hwrote⟩
  have hcode : 0x80 :: 0x01 :: List.replicate 32 0x00 = op :: bytes := by
    refine Eq.trans ?_ hwrote.current
    decide +kernel
  rw [← (List.cons.inj hcode).1] at hop
  exact absurd hop (by decide)

end Evm

end ContractKit
