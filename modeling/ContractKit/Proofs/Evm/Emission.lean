import ContractKit.Evm.Compile
import ContractKit.Proofs.Evm.Listing
import Mathlib

/-!
# What an operation on an emitter writes

Every operation that succeeds appends bytes to the code that is being written and leaves
the other code, the region and the contract alone.  `Wrote` says so, and operations that
follow one another compose.  A patch overwrites bytes that were appended since some
moment, so seen from that moment it only changes what was appended.
-/

namespace ContractKit

/-- Whether a value takes no more bytes than a word has. -/
def Value.FitsWord : Value → Prop
  | .int n => n < 2 ^ 256
  | .bytes b => b.length ≤ 32
  | .list items => items.length ≤ 32
  | .dict entries => entries.length ≤ 32
  | _ => True

end ContractKit

namespace ContractKit.Evm

variable {value : Int} {n : Nat} {α β : Type} {u : Unit} {v : Value} {x : Emit α} {f : α → Emit β}

/-- The code that is not being written. -/
def Emitter.other (e : Emitter) : Code :=
  match e.region with
  | .init => e.runtime
  | .runtime _ => e.init

/-- From the first emitter to the second nothing has happened but that bytes were appended
to the code that is being written. -/
structure Wrote (e : Emitter) (bytes : List UInt8) (e' : Emitter) : Prop where
  current : e'.current.toList = e.current.toList ++ bytes
  other : e'.other = e.other
  region : e'.region = e.region
  contract : e'.contract = e.contract

namespace Wrote

variable {e e₁ e₂ : Emitter} {front back old : List UInt8}

protected theorem refl (e : Emitter) : Wrote e [] e := ⟨by simp, rfl, rfl, rfl⟩

theorem trans (h : Wrote e front e₁) (h' : Wrote e₁ back e₂) : Wrote e (front ++ back) e₂ where
  current := by rw [h'.current, h.current, List.append_assoc]
  other := h'.other.trans h.other
  region := h'.region.trans h.region
  contract := h'.contract.trans h.contract

/-- Listings that are written one after the other make one listing. -/
theorem append {is js : List Instr} (h : Wrote e (assemble is) e₁)
    (h' : Wrote e₁ (assemble js) e₂) : Wrote e (assemble (is ++ js)) e₂ := by
  rw [assemble_append]
  exact h.trans h'

theorem size (h : Wrote e front e₁) : e₁.current.size = e.current.size + front.length := by
  have hlen := congrArg List.length h.current
  simpa using hlen

protected theorem codeSize {is : List Instr} (h : Wrote e (assemble is) e₁) :
    e₁.current.size = e.current.size + codeSize is :=
  h.size

theorem slot? (h : Wrote e front e₁) : e₁.slot? = e.slot? := by
  funext x
  simp only [Emitter.slot?, h.contract]

end Wrote

/-- A sequence of operations succeeds iff its first operation does and the others do on
what it leaves. -/
theorem bind_eq_ok {e e' : Emitter} {b : β} :
    (x >>= f) e = .ok b e' ↔ ∃ a e₁, x e = .ok a e₁ ∧ f a e₁ = .ok b e' := by
  simp only [bind, EStateM.bind]
  cases x e with
  | ok a e₁ => simp
  | error fault e₁ => simp

theorem bind_of_ok {e e₁ : Emitter} {a : α} (h : x e = .ok a e₁) : (x >>= f) e = f a e₁ := by
  simp only [bind, EStateM.bind, h]

theorem bind_of_error {e e₁ : Emitter} {fault : Fault} (h : x e = .error fault e₁) :
    (x >>= f) e = .error fault e₁ := by
  simp only [bind, EStateM.bind, h]

theorem pure_eq_ok {a b : α} {e e' : Emitter} :
    (pure a : Emit α) e = .ok b e' ↔ a = b ∧ e = e' := by
  simp [pure, EStateM.pure]

theorem offset_eq_ok {e e' : Emitter} : offset e = .ok n e' ↔ e.current.size = n ∧ e = e' := by
  simp [offset, bind, EStateM.bind, get, getThe, MonadStateOf.get, EStateM.get, pure,
    EStateM.pure]

theorem get_bind (f : Emitter → Emit α) (e : Emitter) : (get >>= f) e = f e e := rfl

/-! ## Appending -/

theorem wrote_append (e : Emitter) (bytes : List UInt8) (cost : Int) :
    Wrote e bytes ((e.append bytes).charge cost) := by
  obtain ⟨init, runtime, gas, region, contract, log⟩ := e
  cases region <;>
    exact ⟨by simp [Emitter.append, Emitter.charge, Emitter.current], rfl, rfl, rfl⟩

@[simp] theorem Emitter.gas_append (e : Emitter) (bytes : List UInt8) :
    (e.append bytes).gas = e.gas := by
  obtain ⟨init, runtime, gas, region, contract, log⟩ := e
  cases region <;> rfl

theorem wrote_opByte {op : Opcode} {cost : Int} {e e' : Emitter} (h : emitOp op cost e = .ok u e') :
    Wrote e [op.byte] e' := by
  have he : (e.append [op.byte]).charge cost = e' := by
    simpa [emitOp, modify, modifyGet, MonadStateOf.modifyGet, EStateM.modifyGet] using h
  exact he ▸ wrote_append e [op.byte] cost

theorem wrote_emitOp {op : Opcode} {cost : Int} {e e' : Emitter} (h : emitOp op cost e = .ok u e')
    (plain : op.isPush = false := by decide) : Wrote e (assemble [.op op plain]) e' :=
  wrote_opByte h

theorem wrote_report {line : String} {e e' : Emitter} (h : report line e = .ok u e') :
    Wrote e [] e' := by
  have he : { e with log := e.log ++ [line] } = e' := by
    simpa [report, modify, modifyGet, MonadStateOf.modifyGet, EStateM.modifyGet] using h
  subst he
  obtain ⟨init, runtime, gas, region, contract, log⟩ := e
  cases region <;> exact ⟨by simp [Emitter.current], rfl, rfl, rfl⟩

/-! ## Pushing -/

theorem pushByte_eq_ok {size : Nat} {b : UInt8} (h : pushByte size = .ok b) :
    b = (0x5f + size).toUInt8 := by
  unfold pushByte at h
  split at h
  · rw [Nat.add_comm]
    exact (Except.ok.inj h).symm
  · simp at h

/-- What is written to push a value is the byte of the instruction and the operand. -/
theorem wrote_emitPushSized {size : Option Int} {e e' : Emitter}
    (h : emitPushSized v size e = .ok u e') :
    ∃ n bytes, operand v size = .ok ⟨n, .ok bytes⟩ ∧
      Wrote e ((0x5f + n).toUInt8 :: bytes) e' := by
  unfold emitPushSized at h
  split at h
  · simp at h
  case h_2 x hx =>
    split at h
    · simp at h
    case h_2 b hb =>
      split at h
      · simp at h
      case h_2 bytes hbytes =>
        obtain ⟨n, rest⟩ := x
        simp only at hbytes hb
        subst hbytes
        refine ⟨n, bytes, hx, ?_⟩
        have he : (e.append (b :: bytes)).charge pushCost = e' := by simpa using h
        rw [← pushByte_eq_ok hb, ← he]
        exact wrote_append e (b :: bytes) pushCost

theorem checkWord_eq_ok {size : Int} (h : checkWord value size = .ok u) :
    0 ≤ size ∧ 0 ≤ value ∧ value.toNat < 256 ^ size.toNat := by
  unfold checkWord at h
  split at h
  · simp at h
  case isFalse hsize =>
    split at h
    · simp at h
    case isFalse hvalue =>
      refine ⟨by omega, by omega, ?_⟩
      split at h
      case isTrue hle =>
        have hpos : 0 < size.toNat := (byteLength_pos _).trans_le hle
        exact (byteLength_le_iff hpos).mp hle
      case isFalse =>
        split at h
        case isTrue hzero =>
          rw [hzero]
          exact Nat.pow_pos (by omega)
        case isFalse => simp at h

theorem integerOperand_eq_ok {size : Option Int} {x : Operand}
    (h : integerOperand value size = .ok x) :
    0 ≤ value ∧ value.toNat < 256 ^ x.size ∧ x.size = (size.getD (byteLength value.natAbs)).toNat ∧
      x.bytes = .ok (bigEndianBytes x.size value.toNat) := by
  simp only [integerOperand] at h
  split at h
  · simp at h
  case h_2 hcheck =>
    split at h
    · simp at h
    case h_2 =>
      obtain ⟨-, hvalue, hlt⟩ := checkWord_eq_ok hcheck
      obtain rfl := Except.ok.inj h
      exact ⟨hvalue, hlt, rfl, rfl⟩

/-- An integer below the word size is pushed by one instruction. -/
theorem wrote_emitInt {n : Int} {e e' : Emitter} (h : emitInt n e = .ok u e') (hn : n < 2 ^ 256) :
    0 ≤ n ∧ Wrote e (assemble [.pushNat n.toNat]) e' := by
  obtain ⟨size, bytes, hop, hw⟩ := wrote_emitPushSized h
  obtain ⟨hpos, -, hsize, hbytes⟩ := integerOperand_eq_ok (show integerOperand n none = _ from hop)
  have habs : n.natAbs = n.toNat := by omega
  simp only [Option.getD_none, Int.toNat_natCast, habs] at hsize
  have hlen : (bigEndianBytes (byteLength n.toNat) n.toNat).length ≤ 32 := by
    rw [length_bigEndianBytes]
    exact byteLength_le_word.mpr (by omega)
  refine ⟨hpos, ?_⟩
  rw [Instr.pushNat, Instr.ofBytes_eq hlen]
  simp only [Except.ok.injEq] at hbytes
  subst hsize hbytes
  simpa [Instr.encode] using hw

theorem wrote_zero {e e' : Emitter} (h : emitInt 0 e = .ok u e') :
    Wrote e (assemble [.pushNat 0]) e' :=
  (wrote_emitInt h (by norm_num)).2

/-- A number that is pushed in a given number of bytes fits into them. -/
theorem wrote_emitSized {size : Nat} {e e' : Emitter} (hs : size ≤ 32)
    (h : emitPushSized (.int n) (some size) e = .ok u e') :
    n < 256 ^ size ∧
      Wrote e (assemble [.push (bigEndianBytes size n) (by simpa using hs)]) e' := by
  obtain ⟨width, bytes, hop, hw⟩ := wrote_emitPushSized h
  obtain ⟨-, hlt, hsize, hbytes⟩ :=
    integerOperand_eq_ok (show integerOperand n (some (size : Int)) = _ from hop)
  simp only [Option.getD_some, Int.toNat_natCast, Except.ok.injEq] at hlt hsize hbytes
  subst hsize hbytes
  exact ⟨hlt, by simpa [Instr.encode] using hw⟩

theorem wrote_emitTarget {e e' : Emitter} (h : emitTarget n e = .ok u e') :
    Wrote e (assemble [.pushTarget n]) e' :=
  (@wrote_emitSized n _ 2 _ _ (by omega) h).2

/-! ## Values that fit into a word -/

/-- The bytes that are pushed for a value; none if it cannot be pushed. -/
def pushedBytes (v : Value) : List UInt8 :=
  match operand v none with
  | .ok ⟨_, .ok bytes⟩ => bytes
  | _ => []

@[simp] theorem length_wordBytes (bytes : List UInt8) : (Layout.wordBytes bytes).length = 32 := by
  simp only [Layout.wordBytes, List.length_append, List.length_replicate, List.length_take]
  omega

theorem length_of_mapM_eq_ok {f : α → Except Fault UInt8} {xs : List α} {bytes : List UInt8}
    (h : xs.mapM f = .ok bytes) : bytes.length = xs.length := by
  induction xs generalizing bytes with
  | nil =>
    obtain rfl := Except.ok.inj h
    rfl
  | cons x xs ih =>
    rw [List.mapM_cons] at h
    cases hx : f x with
    | error fault => simp [hx, bind, Except.bind] at h
    | ok b =>
      cases hxs : xs.mapM f with
      | error fault => simp [hx, hxs, bind, Except.bind] at h
      | ok rest =>
        have hbytes : b :: rest = bytes := by
          simpa [hx, hxs, bind, Except.bind, pure, Except.pure] using h
        rw [← hbytes, List.length_cons, List.length_cons, ih hxs]

/-- The operand of a value that fits into a word has as many bytes as it announces, and no
more than a word. -/
theorem length_operand (hv : v.FitsWord) {bytes : List UInt8}
    (h : operand v none = .ok ⟨n, .ok bytes⟩) : bytes.length = n ∧ n ≤ 32 := by
  have hint : ∀ i : Int, i < 2 ^ 256 → integerOperand i none = .ok ⟨n, .ok bytes⟩ →
      bytes.length = n ∧ n ≤ 32 := by
    intro i hi hop
    obtain ⟨hpos, -, hsize, hbytes⟩ := integerOperand_eq_ok hop
    simp only [Option.getD_none, Int.toNat_natCast, Except.ok.injEq] at hsize hbytes
    subst hbytes
    refine ⟨by simp, ?_⟩
    rw [hsize]
    exact byteLength_le_word.mpr (by omega)
  cases v with
  | int i => exact hint i hv h
  | bool b => exact hint _ (by split <;> norm_num) h
  | text s =>
    simp only [operand] at h
    split at h
    · simp only [Except.ok.injEq, Operand.mk.injEq] at h
      obtain ⟨rfl, rfl⟩ := h
      simp
    · simp at h
  | bytes b =>
    simp only [operand, Except.ok.injEq, Operand.mk.injEq] at h
    obtain ⟨rfl, rfl⟩ := h
    exact ⟨rfl, hv⟩
  | list items =>
    simp only [operand, Except.ok.injEq, Operand.mk.injEq] at h
    exact ⟨(length_of_mapM_eq_ok h.2).trans h.1, h.1 ▸ hv⟩
  | dict entries =>
    simp only [operand, Except.ok.injEq, Operand.mk.injEq] at h
    exact ⟨(length_of_mapM_eq_ok h.2).trans h.1, h.1 ▸ hv⟩
  | none | float _ | imaginary _ | ellipsis => simp [operand] at h

/-- A value that fits into a word is pushed by one instruction. -/
theorem wrote_emitPush {e e' : Emitter} (hv : v.FitsWord) (h : emitPush v e = .ok u e') :
    (pushedBytes v).length ≤ 32 ∧ Wrote e (assemble [.ofBytes (pushedBytes v)]) e' := by
  obtain ⟨n, bytes, hop, hw⟩ := wrote_emitPushSized h
  obtain ⟨rfl, hle⟩ := length_operand hv hop
  have hbytes : pushedBytes v = bytes := by simp [pushedBytes, hop]
  rw [hbytes, Instr.ofBytes_eq hle]
  exact ⟨hle, by simpa [Instr.encode] using hw⟩

/-! ## Patching -/

theorem toList_splice {code : Code} {front old back bytes : List UInt8} {start stop : Int}
    (hcode : code.toList = front ++ old ++ back) (hstart : start = front.length)
    (hstop : stop = front.length + old.length) :
    (splice code start stop bytes).toList = front ++ bytes ++ back := by
  have hsize : code.size = front.length + old.length + back.length := by
    have hlen := congrArg List.length hcode
    simpa [Nat.add_assoc] using hlen
  have hi : clampPosition code.size start = front.length := by
    simp only [clampPosition, hstart, hsize]
    split <;> omega
  have hj : clampPosition code.size stop = front.length + old.length := by
    simp only [clampPosition, hstop, hsize]
    split <;> omega
  have hmax : max front.length (front.length + old.length) = (front ++ old).length := by
    simp
  have htake : (code.extract 0 front.length).toList = front := by
    simp [hcode]
  have hdrop : (code.extract (front ++ old).length code.size).toList = back := by
    simp [hcode, hsize]
  simp only [splice, hi, hj, hmax, Array.toList_append, htake, hdrop]

theorem toBytes_eq_ok {size : Int} {bytes : List UInt8} (h : toBytes value size = .ok bytes) :
    value.toNat < 256 ^ size.toNat ∧ bytes = bigEndianBytes size.toNat value.toNat := by
  unfold toBytes at h
  split at h
  · simp at h
  case h_2 hcheck => exact ⟨(checkWord_eq_ok hcheck).2.2, (Except.ok.inj h).symm⟩

section SetCurrent

variable (e : Emitter) (code : Code)

@[simp] theorem Emitter.current_setCurrent : (e.setCurrent code).current = code := by
  cases hr : e.region <;> simp [Emitter.setCurrent, Emitter.current, hr]

@[simp] theorem Emitter.other_setCurrent : (e.setCurrent code).other = e.other := by
  cases hr : e.region <;> simp [Emitter.setCurrent, Emitter.other, hr]

@[simp] theorem Emitter.region_setCurrent : (e.setCurrent code).region = e.region := by
  cases hr : e.region <;> simp [Emitter.setCurrent, hr]

@[simp] theorem Emitter.contract_setCurrent : (e.setCurrent code).contract = e.contract := by
  cases hr : e.region <;> simp [Emitter.setCurrent, hr]

@[simp] theorem Emitter.gas_setCurrent : (e.setCurrent code).gas = e.gas := by
  cases hr : e.region <;> simp [Emitter.setCurrent, hr]

end SetCurrent

/-- Code that begins as it did at `e₀` can stand for all that was written since. -/
theorem Wrote.setCurrent {e₀ e : Emitter} {old bytes : List UInt8} {code : Code}
    (hw : Wrote e₀ old e) (hcode : code.toList = e₀.current.toList ++ bytes) :
    Wrote e₀ bytes (e.setCurrent code) where
  current := by rw [e.current_setCurrent, hcode]
  other := (e.other_setCurrent code).trans hw.other
  region := (e.region_setCurrent code).trans hw.region
  contract := (e.contract_setCurrent code).trans hw.contract

/-- Patching two bytes that were written since `e₀` changes them and nothing else.  What is
written over them fits. -/
theorem Wrote.patch {e₀ e e' : Emitter} {front old back : List UInt8} {position : Int}
    {target : Nat} (hw : Wrote e₀ (front ++ old ++ back) e) (hold : old.length = 2)
    (hpos : position = e₀.current.size + front.length)
    (h : Evm.patch position target 2 e = .ok u e') :
    target < 65536 ∧ Wrote e₀ (front ++ bigEndianBytes 2 target ++ back) e' := by
  unfold Evm.patch at h
  split at h
  · simp at h
  case h_2 bytes hbytes =>
    obtain ⟨hlt, rfl⟩ := toBytes_eq_ok hbytes
    obtain rfl : e.setCurrent _ = e' := by simpa using h
    have hcurrent : e.current.toList = (e₀.current.toList ++ front) ++ old ++ back := by
      simpa using hw.current
    have hsplice : (splice e.current position (position + 2) (bigEndianBytes 2 target)).toList =
        (e₀.current.toList ++ front) ++ bigEndianBytes 2 target ++ back :=
      toList_splice hcurrent (by simp [hpos]) (by simp [hpos, hold])
    exact ⟨by simpa using hlt, hw.setCurrent (by simpa using hsplice)⟩

/-- Patching a jump target of a listing gives the listing with that target. -/
theorem Wrote.patchTarget {e₀ e e' : Emitter} {is js : List Instr} {position : Int}
    {old target : Nat} (hw : Wrote e₀ (assemble (is ++ .pushTarget old :: js)) e)
    (hpos : position = e₀.current.size + codeSize is + 1)
    (h : Evm.patch position target 2 e = .ok u e') :
    target < 65536 ∧ Wrote e₀ (assemble (is ++ .pushTarget target :: js)) e' := by
  have hbytes : ∀ n, assemble (is ++ .pushTarget n :: js) =
      (assemble is ++ [0x61]) ++ bigEndianBytes 2 n ++ assemble js := by
    intro n
    simp [Instr.pushTarget, Instr.encode]
  rw [hbytes] at hw ⊢
  exact hw.patch (by simp) (by simpa [codeSize, Int.add_assoc] using hpos) h

end ContractKit.Evm
