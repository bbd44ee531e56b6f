import ContractKit.Proofs.Compiler
import ContractKit.Proofs.Evm.Charges
import ContractKit.Proofs.Evm.Runtime
import ContractKit.Json.Read

/-!
# Estimates are short

What is charged for a code is bounded by its size: every charge goes with a byte that is written,
and none is above that for storing a first value.  The creation code has fewer than `2 ^ 16` bytes
and the size of the runtime code is pushed, so the estimate of a compiled contract has few digits.
-/

namespace ContractKit

namespace Evm

/-- How many bytes an emitter has written. -/
def Emitter.size (e : Emitter) : Nat := e.init.size + e.runtime.size

/-! ## Sizes -/

theorem Emitter.size_append (e : Emitter) (bytes : List UInt8) :
    (e.append bytes).size = e.size + bytes.length := by
  obtain ⟨init, runtime, gas, region, contract, log⟩ := e
  cases region with
  | init =>
    have happend : (init ++ bytes).size = init.size + bytes.length := by
      simp [← Array.length_toList]
    simp only [Emitter.append, Emitter.size, happend]
    omega
  | runtime label =>
    have happend : (runtime ++ bytes).size = runtime.size + bytes.length := by
      simp [← Array.length_toList]
    simp only [Emitter.append, Emitter.size, happend]
    omega

theorem Emitter.size_le_setCurrent {e : Emitter} {code : Code} (h : e.current.size ≤ code.size) :
    e.size ≤ (e.setCurrent code).size := by
  obtain ⟨init, runtime, gas, region, contract, log⟩ := e
  cases region <;> simp [Emitter.setCurrent, Emitter.size, Emitter.current] at h ⊢ <;> omega

/-- Bytes that replace no more than their number do not shorten a code. -/
theorem size_le_splice {code : Code} {start stop : Int} {bytes : List UInt8}
    (h : clampPosition code.size stop ≤ clampPosition code.size start + bytes.length) :
    code.size ≤ (splice code start stop bytes).size := by
  have hstart : clampPosition code.size start ≤ code.size := Nat.min_le_right _ _
  have hstop : clampPosition code.size stop ≤ code.size := Nat.min_le_right _ _
  simp only [splice, Array.size_append, Array.size_extract, List.size_toArray]
  omega

/-- The places before and behind some bytes are no further apart than their number. -/
theorem clampPosition_add_le (size : Nat) (position : Int) {count : Int} (h : 0 ≤ count) :
    clampPosition size (position + count) ≤ clampPosition size position + count.toNat := by
  simp only [clampPosition]
  split <;> split <;> omega

theorem toBytes_length {value size : Int} {bytes : List UInt8}
    (h : toBytes value size = .ok bytes) :
    0 ≤ size ∧ bytes.length = size.toNat := by
  unfold toBytes at h
  split at h
  · simp at h
  case h_2 hcheck =>
    rw [← Except.ok.inj h, length_bigEndianBytes]
    exact ⟨(checkWord_eq_ok hcheck).1, rfl⟩

/-! ## Charges -/

/-- Between two emitters no more was charged than for storing a first value with each byte. -/
def WithinSize (e e' : Emitter) : Prop :=
  e'.gas + firstStoreCost * e.size ≤ e.gas + firstStoreCost * e'.size

theorem WithinSize.trans {e e' e'' : Emitter} (h : WithinSize e e') (h' : WithinSize e' e'') :
    WithinSize e e'' := by
  simp only [WithinSize] at *
  omega

theorem withinSize_of_same {e e' : Emitter} (hgas : e'.gas = e.gas) (hsize : e.size ≤ e'.size) :
    WithinSize e e' := by
  simp only [WithinSize, hgas, firstStoreCost]
  omega

theorem withinSize_append (e : Emitter) {bytes : List UInt8} {cost : Int} (hbytes : bytes ≠ [])
    (hcost : cost ≤ firstStoreCost) : WithinSize e ((e.append bytes).charge cost) := by
  have hsize : ((e.append bytes).charge cost).size = e.size + bytes.length := e.size_append bytes
  have hgas : ((e.append bytes).charge cost).gas = e.gas + cost := by simp [Emitter.charge]
  have hpos := List.length_pos_iff.mpr hbytes
  simp only [WithinSize, hsize, hgas, firstStoreCost] at *
  push_cast
  omega

/-- What writing charges goes with the bytes that are written.  By induction over how the
operation is made. -/
theorem Charges.gas_le {S : String → Option Int} {α : Type} {x : Emit α} {n : Int}
    (h : Charges S none x n) {e e' : Emitter} {a : α} (hS : e.slot? = S) (hok : x e = .ok a e') :
    WithinSize e e' := by
  induction h generalizing e e' with
  | pure a =>
    obtain ⟨-, rfl⟩ := pure_eq_ok.mp hok
    exact withinSize_of_same rfl (Nat.le_refl _)
  | @bind α β x f n k hx _ ihx ihf =>
    obtain ⟨b, e₁, hfirst, hrest⟩ := bind_eq_ok.mp hok
    have hspent := hx.spent hS
    simp only [hfirst, Spent] at hspent
    exact (ihx hS hfirst).trans (ihf b ((e.slot?_of_contract hspent.2.2).trans hS) hrest)
  | read _ _ ih => exact ih e hS (by simp) hS hok
  | op o _ hcost =>
    obtain ⟨-, rfl⟩ := EStateM.Result.ok.inj hok
    exact withinSize_append e (by simp) hcost
  | push v size =>
    unfold emitPushSized at hok
    split at hok
    · simp at hok
    split at hok
    · simp at hok
    split at hok
    · simp at hok
    obtain ⟨-, rfl⟩ := EStateM.Result.ok.inj hok
    exact withinSize_append e (by simp) (by decide)
  | report line =>
    obtain ⟨-, rfl⟩ := EStateM.Result.ok.inj hok
    exact withinSize_of_same rfl (Nat.le_refl _)
  | setRegion r _ =>
    obtain ⟨-, rfl⟩ := EStateM.Result.ok.inj hok
    exact withinSize_of_same rfl (Nat.le_refl _)
  | patch position target size _ =>
    unfold Evm.patch at hok
    split at hok
    · simp at hok
    case h_2 bytes hbytes =>
      obtain ⟨-, rfl⟩ := EStateM.Result.ok.inj hok
      obtain ⟨hsize, hlength⟩ := toBytes_length hbytes
      refine withinSize_of_same (e.gas_setCurrent _) (Emitter.size_le_setCurrent ?_)
      refine size_le_splice ?_
      rw [hlength]
      exact clampPosition_add_le _ _ hsize
  | patchRuntimeOffset start _ =>
    unfold Evm.patchRuntimeOffset at hok
    split at hok
    · obtain ⟨-, rfl⟩ := EStateM.Result.ok.inj hok
      exact withinSize_of_same rfl (Nat.le_refl _)
    case h_2 i _ =>
      split at hok
      · simp at hok
      case h_2 bytes hbytes =>
        obtain ⟨-, rfl⟩ := EStateM.Result.ok.inj hok
        obtain ⟨-, hlength⟩ := toBytes_length hbytes
        refine withinSize_of_same rfl (Nat.add_le_add_right (size_le_splice ?_) _)
        rw [hlength]
        have hstop : (i : Int) + 3 = i + 1 + 2 := by omega
        rw [hstop]
        exact clampPosition_add_le _ _ (show (0 : Int) ≤ 2 by decide)

variable {c : ContractState} {e e' : Emitter} {u : Unit}

/-- The estimate for a contract. -/
theorem gas_of_emitContract (h : (emitContract c).run {} = .ok () e) :
    0 ≤ e.gas ∧ e.gas ≤ firstStoreCost * e.size := by
  obtain ⟨n, hcodes⟩ := charges_emitCodes (S := fun x => Assoc.get? x c.slots) c
  obtain ⟨k, -, hprologue⟩ := charges_emitPrologue (S := fun x => Assoc.get? x c.slots)
  have hcharges := hprologue.bind hcodes
  have hrun : (emitPrologue >>= emitCodes c) (({} : Emitter).opened.withContract (some c)) =
      .ok () e := by
    rw [← emitContract_eq]
    exact h
  have hspent := hcharges.spent (e := ({} : Emitter).opened.withContract (some c)) rfl
  have hwithin := hcharges.gas_le rfl hrun
  have hgas : (({} : Emitter).opened.withContract (some c)).gas = 0 := rfl
  have hsize : (({} : Emitter).opened.withContract (some c)).size = 0 := rfl
  simp only [hrun, Spent, hgas] at hspent
  simp only [WithinSize, hgas, hsize] at hwithin
  omega

/-! ## Digits -/

/-- A number that is pushed has no more bytes than one instruction can announce. -/
theorem lt_of_emitInt {n : Nat} (h : emitInt n e = .ok u e') : n < 256 ^ 160 := by
  unfold emitInt emitPushSized at h
  split at h
  · simp at h
  case h_2 x hx =>
    split at h
    · simp at h
    case h_2 op hop =>
      obtain ⟨-, hlt, -⟩ := integerOperand_eq_ok (show integerOperand n none = .ok x from hx)
      have hsize : x.size ≤ 160 := by
        unfold pushByte at hop
        split at hop
        · omega
        · simp at hop
      exact Nat.lt_of_lt_of_le hlt (Nat.pow_le_pow_right (by omega) hsize)

theorem runtimeSize_lt_of_emitInit {size : Nat} (h : emitInit c size e = .ok u e') :
    size < 256 ^ 160 := by
  obtain ⟨_, _, -, h⟩ := bind_eq_ok.mp h
  obtain ⟨_, _, -, h⟩ := bind_eq_ok.mp h
  obtain ⟨_, _, -, h⟩ := bind_eq_ok.mp h
  obtain ⟨_, _, hpush, -⟩ := bind_eq_ok.mp h
  exact lt_of_emitInt hpush

theorem size_of_emitContract (h : (emitContract c).run {} = .ok () e) :
    e.size < 65536 + 256 ^ 160 := by
  obtain ⟨e₁, -, hinit⟩ := emitContract_steps h
  obtain ⟨-, hsize, hruntime⟩ := sizes_of_emitInit rfl hinit
  have hlt := runtimeSize_lt_of_emitInit hinit
  rw [Emitter.size, hruntime]
  exact Nat.add_lt_add hsize hlt

/-- A charge for each byte of a code that can be written is a number of few digits. -/
theorem charge_lt {size : Nat} (h : size < 65536 + 256 ^ 160) :
    20000 * size < 10 ^ Json.maxDigits := by
  have hsmall : 65536 ≤ 256 ^ 160 := by norm_num
  have hbase : 256 ^ 160 ≤ (10 ^ 3) ^ 160 := Nat.pow_le_pow_left (by omega) 160
  have hlimit : ∀ k, 3 * k ≤ Json.maxDigits → (10 ^ 3) ^ k ≤ 10 ^ Json.maxDigits := by
    intro k hk
    rw [← Nat.pow_mul]
    exact Nat.pow_le_pow_right (by omega) hk
  calc 20000 * size
      < 20000 * (65536 + 256 ^ 160) := by omega
    _ ≤ (10 ^ 3) ^ 2 * (10 ^ 3) ^ 160 := by omega
    _ = (10 ^ 3) ^ (2 + 160) := (Nat.pow_add (10 ^ 3) 2 160).symm
    _ ≤ 10 ^ Json.maxDigits := hlimit _ (by decide)

end Evm

theorem CompileSteps.length_gas_le {source : String} {statements : List Source.Stmt} {r : Compiled}
    (h : CompileSteps source statements r) :
    (Nat.toDigits 10 r.gas.natAbs).length ≤ Json.maxDigits := by
  obtain ⟨hpos, hgas⟩ := Evm.gas_of_emitContract h.generated
  have hcharge := Evm.charge_lt (Evm.size_of_emitContract h.generated)
  rw [Nat.length_toDigits_le_iff (by omega) (by decide), h.gas]
  refine Nat.lt_of_le_of_lt ?_ hcharge
  simp only [Evm.firstStoreCost] at hgas
  omega

end ContractKit
