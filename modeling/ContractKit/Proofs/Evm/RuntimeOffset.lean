import ContractKit.Proofs.Evm.Creation
import ContractKit.Proofs.Evm.Pushing

/-!
# Where the runtime code is copied from

At the end of a creation code three numbers are pushed for `CODECOPY`: the size of the runtime
code, the position at which it begins, and zero.  That position is the size of the creation code;
it is filled in last, over the first bytes that look like the placeholder for it.

The search begins with the instruction that pushes the size.  There are sizes for which this
instruction looks like the placeholder, or has its bytes inside: then the position is written into
the size, and the placeholder is left as the position.
-/

namespace ContractKit.Evm

open Layout (bigEndian)

/-! ## Sizes that look like the placeholder -/

/-- The number is the one that stands in the placeholder, or has the three bytes of the whole
placeholder one after the other. -/
def LooksLikePlaceholder (n : Nat) : Prop :=
  n = runtimePlaceholder ∨ ∃ k, n / 256 ^ k % 256 ^ 3 = 0x61DEAD

/-- The low bytes of a number are those of its higher part, then those of its lower part. -/
theorem bigEndianBytes_add (i j n : Nat) :
    bigEndianBytes (i + j) n = bigEndianBytes i (n / 256 ^ j) ++ bigEndianBytes j n := by
  induction j generalizing n with
  | zero => simp [bigEndianBytes]
  | succ j ih =>
    have hdiv : n / 256 / 256 ^ j = n / 256 ^ (j + 1) := by
      rw [Nat.div_div_eq_div_mul, pow_succ, Nat.mul_comm]
    rw [← Nat.add_assoc, bigEndianBytes, bigEndianBytes, ih, hdiv, List.append_assoc]

theorem bigEndianBytes_placeholder {q : Nat} (h : q % 256 ^ 3 = 0x61DEAD) :
    bigEndianBytes 3 q = placeholderBytes := by
  refine bigEndian_injective (by simp [placeholderBytes]) ?_
  rw [bigEndian_bigEndianBytes, h]
  rfl

/-- The bytes of a number hold the placeholder iff it has the three bytes one after the other. -/
theorem placeholder_infix_bytes_iff {n : Nat} :
    placeholderBytes <:+: bigEndianBytes (byteLength n) n ↔
      ∃ k, n / 256 ^ k % 256 ^ 3 = 0x61DEAD := by
  constructor
  · rintro ⟨before, after, hbytes⟩
    refine ⟨after.length, ?_⟩
    have hvalue : n =
        (bigEndian before * 256 ^ 3 + 0x61DEAD) * 256 ^ after.length + bigEndian after := by
      rw [← bigEndian_minimal n, ← hbytes, bigEndian_append, bigEndian_append]
      rfl
    have hquotient : n / 256 ^ after.length = bigEndian before * 256 ^ 3 + 0x61DEAD := by
      rw [hvalue, Nat.add_comm, Nat.add_mul_div_right _ _ (by positivity),
        Nat.div_eq_of_lt (bigEndian_lt after), Nat.zero_add]
    rw [hquotient]
    omega
  · rintro ⟨k, hk⟩
    -- There are three bytes in front of the last `k`, since the highest of them is not zero.
    have hlength : k + 3 ≤ byteLength n := by
      by_contra hshort
      have hlt : n < 256 ^ (k + 2) := (byteLength_le_iff (by omega)).mp (by omega)
      have hquotient : n / 256 ^ k < 256 ^ 2 := by
        rw [Nat.div_lt_iff_lt_mul (by positivity), ← pow_add, Nat.add_comm 2 k]
        exact hlt
      rw [Nat.mod_eq_of_lt (by omega)] at hk
      omega
    obtain ⟨i, hi⟩ := Nat.exists_eq_add_of_le hlength
    have hsplit : byteLength n = (i + 3) + k := by omega
    refine ⟨bigEndianBytes i (n / 256 ^ k / 256 ^ 3), bigEndianBytes k n, ?_⟩
    rw [hsplit, bigEndianBytes_add (i + 3) k, bigEndianBytes_add i 3,
      bigEndianBytes_placeholder hk]

/-- The instruction itself looks like the placeholder for one number only. -/
theorem placeholder_prefix_numberBytes_iff {n : Nat} (hn : n < 2 ^ 256) :
    placeholderBytes <+: numberBytes n ↔ n = runtimePlaceholder := by
  constructor
  · intro hprefix
    obtain ⟨hop, hbytes⟩ := List.cons_prefix_cons.mp hprefix
    have hword := byteLength_le_word.mpr hn
    have htwo : byteLength n = 2 := by
      have hnat := congrArg UInt8.toNat hop
      rw [toNat_pushByte_of_le (by simp only [maxPushWidth]; omega)] at hnat
      exact Nat.add_left_cancel hnat.symm
    have hall : [0xDE, 0xAD] = bigEndianBytes (byteLength n) n :=
      hbytes.eq_of_length (by simp [htwo])
    rw [← bigEndian_minimal n, ← hall]
    rfl
  · rintro rfl
    exact ⟨[], rfl⟩

/-- **Sizes that look like the placeholder.** -/
theorem placeholder_infix_numberBytes_iff {n : Nat} (hn : n < 2 ^ 256) :
    placeholderBytes <:+: numberBytes n ↔ LooksLikePlaceholder n := by
  rw [LooksLikePlaceholder, ← placeholder_prefix_numberBytes_iff hn, ← placeholder_infix_bytes_iff]
  exact List.infix_cons_iff

/-! ## Numbers that are pushed -/

/-- Wherever the machine has this code in front of other code, from the position `start` to the
position `stop` it pushes the numbers, the last of them first, and does nothing else. -/
def PushesNumbers (code : List UInt8) (start stop : Nat) (numbers : List Nat) : Prop :=
  ∀ env : Env, code <+: env.code → ∀ m σ,
    ∃ words : List Word, Passes env m σ start [] stop words ∧ words.map BitVec.toNat = numbers

/-- The creation code pushes, from the position `start` on, the operands for copying `size` bytes
from the position `offset` of the code to the begin of memory; and behind the `CODECOPY` at the
position `copy` it pushes the operands for returning as many bytes from there. -/
structure CopiesRuntime (code : List UInt8) (start copy offset size : Nat) : Prop where
  /-- What `CODECOPY` is given. -/
  copied : PushesNumbers code start copy [0, offset, size]
  /-- What `RETURN`, the last byte, is given. -/
  returned : PushesNumbers code (copy + 1) (code.length - 1) [0, size]

namespace PushesNumbers

variable {code : List UInt8} {start stop : Nat} {numbers numbers' : List Nat}

theorem of_computes {front back : List UInt8} {is : List Instr} {words : List Word}
    (hcode : code = front ++ assemble is ++ back) (hnumbers : words.map BitVec.toNat = numbers)
    (h : ∀ env m σ, Computes env m σ is [] words) :
    PushesNumbers code front.length (front ++ assemble is).length numbers := by
  intro env hprefix m σ
  obtain ⟨rest, hrest⟩ := hprefix
  have hat : StandsAt env front.length (assemble is) :=
    ⟨front, back ++ rest, by simp [← hrest, hcode], rfl⟩
  exact ⟨words, by simpa [codeSize] using h env m σ _ hat, hnumbers⟩

/-- What is pushed is determined by the code, so it can be read off any run. -/
theorem unique (h : PushesNumbers code start stop numbers)
    (h' : PushesNumbers code start stop numbers') : numbers = numbers' := by
  let env : Env := ⟨code, [], by simp⟩
  obtain ⟨words, hpass, rfl⟩ := h env List.prefix_rfl (fun _ => 0) (fun _ => 0)
  obtain ⟨words', hpass', rfl⟩ := h' env List.prefix_rfl (fun _ => 0) (fun _ => 0)
  rw [hpass.unique hpass']

theorem lt (h : PushesNumbers code start stop numbers) {n : Nat} (hn : n ∈ numbers) :
    n < 2 ^ 256 := by
  obtain ⟨words, -, rfl⟩ := h ⟨code, [], by simp⟩ List.prefix_rfl (fun _ => 0) (fun _ => 0)
  obtain ⟨w, -, rfl⟩ := List.mem_map.mp hn
  exact w.isLt

end PushesNumbers

namespace CreationParts

variable {c : ContractState} {n target : Nat} {e : Emitter} {stores bytes : List UInt8}

/-- What stands in front of `CODECOPY`: the stores, the two instructions that push the size and the
position, and the one that pushes zero. -/
def beforeCopy (n : Nat) (stores bytes : List UInt8) (target : Nat) : List UInt8 :=
  stores ++ (((0x5f + byteLength n).toUInt8 :: bytes) ++ (0x61 :: bigEndianBytes 2 target) ++
    assemble [.pushNat 0])

variable (hparts : CreationParts c n {} e stores bytes target)

include hparts

theorem code_eq :
    e.init.toList = beforeCopy n stores bytes target ++
      Opcode.codeCopy.byte :: (numberBytes n ++ [0x60, 0x00, 0xf3]) := by
  rw [hparts.code, copyBytes, beforeCopy]
  simp only [List.append_assoc, List.cons_append]
  rfl

/-- The three numbers that are pushed for `CODECOPY`. -/
theorem pushes_copied (hn : n < 2 ^ 256) :
    PushesNumbers e.init.toList stores.length (beforeCopy n stores bytes target).length
      [0, target, bigEndian bytes] := by
  have hword : bytes.length ≤ 32 := hparts.length.trans_le (byteLength_le_word.mpr hn)
  have hlisting : beforeCopy n stores bytes target =
      stores ++ assemble [.ofBytes bytes, .pushTarget target, .pushNat 0] := by
    simp [beforeCopy, assemble, Instr.ofBytes_eq hword, Instr.encode, Instr.pushTarget,
      hparts.length]
  have hcode := hparts.code_eq
  rw [hlisting] at hcode ⊢
  have hnumbers : [0, wordOf (bigEndianBytes 2 target), wordOf bytes].map BitVec.toNat =
      [0, target, bigEndian bytes] := by
    simp [toNat_target hparts.target_lt, toNat_wordOf hword]
  exact .of_computes hcode hnumbers fun env m σ =>
    .cons (.ofBytes hword _) (.cons (.push _ _ _) (computes_zero _))

theorem pushes_returned (hn : n < 2 ^ 256) :
    PushesNumbers e.init.toList ((beforeCopy n stores bytes target).length + 1)
      (e.init.toList.length - 1) [0, n] := by
  have hlisting : numberBytes n ++ [0x60, 0x00] = assemble [.pushNat n, .pushNat 0] := by
    simp only [assemble_cons, assemble_nil, encode_pushNat hn, List.append_nil]
    rfl
  have hcode : e.init.toList = (beforeCopy n stores bytes target ++ [Opcode.codeCopy.byte]) ++
      assemble [.pushNat n, .pushNat 0] ++ [0xf3] := by
    rw [hparts.code_eq, ← hlisting]
    simp
  have hstart : (beforeCopy n stores bytes target).length + 1 =
      (beforeCopy n stores bytes target ++ [Opcode.codeCopy.byte]).length := by
    rw [List.length_append]
    rfl
  have hlast : e.init.toList.length - 1 = ((beforeCopy n stores bytes target ++
      [Opcode.codeCopy.byte]) ++ assemble [.pushNat n, .pushNat 0]).length := by
    rw [hcode, List.length_append]
    rfl
  have hnumbers : [0, BitVec.ofNat 256 n].map BitVec.toNat = [0, n] := by
    simpa using Nat.mod_eq_of_lt hn
  rw [hstart, hlast]
  exact .of_computes hcode hnumbers fun env m σ => .cons (.pushNat hn _) (computes_zero _)

/-- The operands are right iff there is an instruction to push the size, and it and the size of the
creation code are what is pushed. -/
theorem copiesRuntime_iff :
    CopiesRuntime e.init.toList stores.length (beforeCopy n stores bytes target).length e.init.size
        n ↔
      n < 2 ^ 256 ∧ bytes = bigEndianBytes (byteLength n) n ∧ target = e.init.size := by
  constructor
  · rintro ⟨hcopied, -⟩
    have hn : n < 2 ^ 256 := hcopied.lt (by simp)
    have hsame := hcopied.unique (hparts.pushes_copied hn)
    simp only [List.cons.injEq, true_and, and_true] at hsame
    refine ⟨hn, bigEndian_injective (by simp [hparts.length]) ?_, hsame.1.symm⟩
    rw [← hsame.2, bigEndian_minimal]
  · rintro ⟨hn, rfl, rfl⟩
    refine ⟨?_, hparts.pushes_returned hn⟩
    simpa [bigEndian_minimal] using hparts.pushes_copied hn

end CreationParts

/-! ## The creation code as a whole -/

/-- The stores of values that can be pushed are run through. -/
theorem executes_stores {c : ContractState} {slots : List (String × Int)} {e e' : Emitter}
    {u : Unit} {env : Env}
    (hfit : ∀ entry ∈ slots, (c.initialValue entry.1).FitsWord ∧ entry.2 < 2 ^ 256)
    (h : emitInitialStores c slots e = .ok u e') (stack : List Word) (m : Memory) (σ : Storage) :
    ∃ σ', Executes env (storesCode c slots) ⟨stack, m, σ⟩ ⟨stack, m, σ'⟩ := by
  induction slots generalizing e σ with
  | nil => exact ⟨σ, .nil _⟩
  | cons entry rest ih =>
    obtain ⟨x, slot⟩ := entry
    obtain ⟨_, e₁, hvalue, h⟩ := bind_eq_ok.mp h
    obtain ⟨_, e₂, hslot, h⟩ := bind_eq_ok.mp h
    obtain ⟨_, e₃, -, h⟩ := bind_eq_ok.mp h
    obtain ⟨hword, hlt⟩ := hfit _ List.mem_cons_self
    have hpush : Executes env _ _ _ := .ofBytes (wrote_emitPush hword hvalue).1 stack m σ
    have hslotPush : Executes env _ _ _ := executes_slotWord ⟨(wrote_emitInt hslot hlt).1, hlt⟩
      (wordOf (pushedBytes (c.initialValue x)) :: stack) m σ
    obtain ⟨σ', hrest⟩ := ih (fun entry he => hfit entry (List.mem_cons_of_mem _ he)) h
      (σ.set (slotWord slot) (wordOf (pushedBytes (c.initialValue x))))
    exact ⟨σ', (hpush.cons (hslotPush.cons (.op rfl))).append hrest⟩

/-- **Where the runtime code is copied from.**  Let the creation code for a runtime code of size
`n` be written by a fresh emitter.  It begins with the stores of the first values, and it has a last
`CODECOPY`, behind which it only pushes two numbers and returns.  If the first values can be pushed,
the machine comes to the end of the stores with nothing left on the stack.  What is pushed from
there on is right, and so is what is
pushed for `RETURN`, iff `n` is a number that a word can hold and does not look like the placeholder
of the position, or the position is the number in the placeholder. -/
theorem copies_runtime_iff {c : ContractState} {n : Nat} {e : Emitter}
    (h : emitInit c n {} = .ok () e) :
    ∃ e₀ e₁ copy, Wrote {} [] e₀ ∧ emitInitialStores c c.slots e₀ = .ok () e₁ ∧
      e.init.toList.drop copy = Opcode.codeCopy.byte :: (numberBytes n ++ [0x60, 0x00, 0xf3]) ∧
      ((∀ entry ∈ c.slots, (c.initialValue entry.1).FitsWord ∧ entry.2 < 2 ^ 256) →
        ∀ env : Env, e.init.toList <+: env.code → ∀ m σ, ∃ σ',
          Runs env 0 e₁.init.size ⟨0, ⟨[], m, σ⟩⟩ ⟨e₁.init.size, ⟨[], m, σ'⟩⟩) ∧
      (CopiesRuntime e.init.toList e₁.init.size copy e.init.size n ↔
        n < 2 ^ 256 ∧ (LooksLikePlaceholder n → e.init.size = runtimePlaceholder)) := by
  obtain ⟨stores, bytes, target, hparts⟩ := exists_creationParts rfl h
  obtain ⟨e₀, e₁, hreport, hstores, hw⟩ := hparts.stored
  have hend : e₁.init.size = stores.length := by
    have hregion : e₁.region = .init := hw.region.trans hreport.region
    have hcurrent := (hreport.trans hw).current
    rw [current_of_init hregion, current_of_init rfl] at hcurrent
    simpa using congrArg List.length hcurrent
  refine ⟨e₀, e₁, (CreationParts.beforeCopy n stores bytes target).length, hreport, hstores, ?_, ?_,
    ?_⟩
  · rw [hparts.code_eq, List.drop_left]
  · intro hfit env hprefix m σ
    obtain rfl : assemble (storesCode c c.slots) = stores :=
      List.append_cancel_left ((wrote_emitInitialStores hfit hstores).current.symm.trans hw.current)
    have hfront : assemble (storesCode c c.slots) <+: e.init.toList := by
      rw [hparts.code_eq, CreationParts.beforeCopy, List.append_assoc]
      exact List.prefix_append _ _
    obtain ⟨rest, hrest⟩ := hfront.trans hprefix
    have hspan : Spans env 0 (assemble (storesCode c c.slots)).length 0 (storesCode c c.slots) :=
      ⟨⟨[], rest, hrest.symm, rfl⟩, le_rfl, by rw [Nat.zero_add, codeSize]⟩
    obtain ⟨σ', hexec⟩ := executes_stores hfit hstores [] m σ
    rw [hend]
    exact ⟨σ', by simpa [codeSize] using hexec _ _ _ hspan⟩
  · rw [hend, hparts.copiesRuntime_iff, hparts.pushed_iff]
    exact and_congr_right fun hn => by rw [placeholder_infix_numberBytes_iff hn]

/-- A contract with one variable, and a runtime code of seven bytes. -/
theorem copies_runtime_of_seven :
    ∃ e start copy, emitInit { slots := [("total", 0)] } 7 {} = .ok () e ∧
      CopiesRuntime e.init.toList start copy e.init.size 7 := by
  obtain ⟨e₀, e₁, copy, -, -, -, -, hiff⟩ :=
    copies_runtime_iff (c := { slots := [("total", 0)] }) (n := 7) rfl
  refine ⟨_, e₁.init.size, copy, rfl, hiff.mpr ⟨by norm_num, fun hlooks => ?_⟩⟩
  rw [← placeholder_infix_numberBytes_iff (by norm_num)] at hlooks
  exact absurd hlooks (by decide)

/-- A runtime code of as many bytes as the placeholder says: its size is taken for the position,
and the other way round. -/
theorem size_taken_for_position :
    ∃ e, emitInit {} runtimePlaceholder {} = .ok () e ∧
      e.init.toList = [0x61, 0x00, 0x0f, 0x61, 0xDE, 0xAD, 0x60, 0x00, 0x39,
        0x61, 0xDE, 0xAD, 0x60, 0x00, 0xf3] ∧
      PushesNumbers e.init.toList 0 8 [0, runtimePlaceholder, e.init.size] ∧
      ¬CopiesRuntime e.init.toList 0 8 e.init.size runtimePlaceholder := by
  have hcode : ∃ e, emitInit {} runtimePlaceholder {} = .ok () e ∧
      e.init.toList = [0x61, 0x00, 0x0f, 0x61, 0xDE, 0xAD, 0x60, 0x00, 0x39,
        0x61, 0xDE, 0xAD, 0x60, 0x00, 0xf3] := ⟨_, rfl, by decide +kernel⟩
  obtain ⟨e, hinit, hcode⟩ := hcode
  have hsize : e.init.size = 15 := by rw [← Array.length_toList, hcode]; rfl
  have hpushes : PushesNumbers e.init.toList 0 8 [0, runtimePlaceholder, e.init.size] := by
    have hsplit : e.init.toList = [] ++ assemble [.pushTarget 15, .pushTarget runtimePlaceholder,
        .pushNat 0] ++ [0x39, 0x61, 0xDE, 0xAD, 0x60, 0x00, 0xf3] := hcode
    rw [hsize]
    exact .of_computes hsplit rfl fun env m σ =>
      .cons (.push _ _ _) (.cons (.push _ _ _) (computes_zero _))
  refine ⟨e, hinit, hcode, hpushes, fun hcopies => ?_⟩
  have hsame := hpushes.unique hcopies.copied
  rw [hsize] at hsame
  exact absurd hsame (by decide)

end ContractKit.Evm
