import ContractKit.Evm.Contract
import ContractKit.Proofs.Evm.BodyListing

/-!
# The listing of a creation code

The creation code stores the first value of each variable, copies the runtime code into
memory and returns it.  Where the runtime code begins is known only when the creation code
is complete; it is written over the first bytes, from behind the stores on, that look like
the instruction standing for it.  Those bytes belong to that instruction unless they are met
earlier, inside of the instruction that pushes the size of the runtime code.  In that case
this instruction pushes another number, but the code is still a listing.

Whatever the first values are, a creation code that is written has less than 65536 bytes,
so a contract for which code is generated has few variables.
-/

namespace ContractKit.Evm

variable {code : Code} {slots : List (String × Int)} {front push rest : List UInt8}
  {i size start : Nat}

variable {c : ContractState} {e e' : Emitter} {u : Unit}

/-! ## Stores -/

/-- The code that stores the first values of variables. -/
def storesCode (c : ContractState) (slots : List (String × Int)) : List Instr :=
  slots.flatMap fun (x, slot) =>
    [.ofBytes (pushedBytes (c.initialValue x)), .pushNat slot.toNat, .op .sstore]

/-- First values that fit into a word are stored by this listing. -/
theorem turns_emitInitialStores {sound : Prop} {slot? : String → Option Int} {start : Nat}
    {slots : List (String × Int)}
    (hfit : ∀ entry ∈ slots, (c.initialValue entry.1).FitsWord ∧ entry.2 < 2 ^ 256)
    (hs : sound → ∀ entry ∈ slots,
      (∃ n bytes, operand (c.initialValue entry.1) none = .ok ⟨n, .ok bytes⟩ ∧ n ≤ 32) ∧
        0 ≤ entry.2) :
    Turns sound slot? start [] (emitInitialStores c slots) () (storesCode c slots) True := by
  induction slots generalizing start with
  | nil => exact .pure ()
  | cons entry rest ih =>
    obtain ⟨x, slot⟩ := entry
    obtain ⟨⟨hword, hlt⟩, hrest⟩ := List.forall_mem_cons.mp hfit
    exact (Turns.push hword fun h => (hs h _ List.mem_cons_self).1).seq <|
      (Turns.int hlt fun h => (hs h _ List.mem_cons_self).2).seq <| (Turns.op _ _).seq <|
      (ih hrest fun h entry he => hs h entry (List.mem_cons_of_mem _ he)).behind rfl

theorem wrote_emitInitialStores
    (hfit : ∀ entry ∈ slots, (c.initialValue entry.1).FitsWord ∧ entry.2 < 2 ^ 256)
    (h : emitInitialStores c slots e = .ok u e') : Wrote e (assemble (storesCode c slots)) e' :=
  ((turns_emitInitialStores hfit False.elim).ok rfl h).2.2

/-- Any first value takes at least three bytes to be stored. -/
theorem size_emitInitialStores (h : emitInitialStores c slots e = .ok u e') :
    ∃ bytes, Wrote e bytes e' ∧ 3 * slots.length ≤ bytes.length := by
  induction slots generalizing e with
  | nil =>
    obtain ⟨-, rfl⟩ := pure_eq_ok.mp h
    exact ⟨[], .refl e, le_rfl⟩
  | cons entry rest ih =>
    obtain ⟨x, slot⟩ := entry
    obtain ⟨_, e₁, hvalue, h⟩ := bind_eq_ok.mp h
    obtain ⟨_, e₂, hslot, h⟩ := bind_eq_ok.mp h
    obtain ⟨_, e₃, hstore, h⟩ := bind_eq_ok.mp h
    obtain ⟨_, _, -, hw₁⟩ := wrote_emitPushSized hvalue
    obtain ⟨_, _, -, hw₂⟩ := wrote_emitPushSized hslot
    obtain ⟨bytes, hw, hlen⟩ := ih h
    refine ⟨_, hw₁.trans (hw₂.trans ((wrote_opByte hstore).trans hw)), ?_⟩
    simp only [List.length_append, List.length_cons]
    omega

/-! ## Looking for the placeholder -/

/-- The bytes of the instruction that stands for the position of the runtime code. -/
def placeholderBytes : List UInt8 := [0x61, 0xDE, 0xAD]

/-- The placeholder stands at a position. -/
def PlaceholderAt (code : Code) (i : Nat) : Prop :=
  code[i]? = some 0x61 ∧ code[i + 1]? = some 0xDE ∧ code[i + 2]? = some 0xAD

/-- Where there is a placeholder in reach, the search finds the first one. -/
theorem findPlaceholder?_of_at {fuel k : Nat} (hk : k < fuel) (h : PlaceholderAt code (start + k)) :
    ∃ i ≤ k, PlaceholderAt code (start + i) ∧
      findPlaceholder? code fuel start = some (start + i) := by
  induction fuel generalizing start k with
  | zero => omega
  | succ fuel ih =>
    simp only [findPlaceholder?, Bool.and_eq_true, beq_iff_eq, and_assoc]
    by_cases hat : PlaceholderAt code start
    · exact ⟨0, by omega, hat, if_pos hat⟩
    · obtain _ | k := k
      · exact (hat h).elim
      have hnext : PlaceholderAt code (start + 1 + k) := by
        rwa [Nat.add_assoc, Nat.add_comm 1 k]
      obtain ⟨i, hi, hfirst, heq⟩ := ih (by omega) hnext
      refine ⟨i + 1, by omega, ?_, (if_neg hat).trans ?_⟩
      · rwa [Nat.add_comm i 1, ← Nat.add_assoc]
      · rw [heq, Nat.add_assoc, Nat.add_comm 1 i]

/-- A placeholder that begins within bytes which another one follows lies inside of them or
is the one that follows: it cannot reach from the bytes into the other. -/
theorem placeholder_inside (hcode : code.toList = front ++ push ++ placeholderBytes ++ rest)
    (hi : i ≤ push.length) (hat : PlaceholderAt code (front.length + i)) :
    i = push.length ∨
      ∃ before after, push = before ++ placeholderBytes ++ after ∧ i = before.length := by
  have hget : ∀ j, code[front.length + j]? = (push ++ placeholderBytes ++ rest)[j]? := by
    intro j
    rw [← Array.getElem?_toList, hcode, List.append_assoc, List.append_assoc,
      List.getElem?_append_right (by omega), Nat.add_sub_cancel_left, List.append_assoc]
  obtain ⟨h₀, h₁, h₂⟩ := hat
  rw [Nat.add_assoc] at h₁ h₂
  rw [hget] at h₀ h₁ h₂
  -- Its second and third byte are not the first byte of the one that follows.
  have hborder : (push ++ placeholderBytes ++ rest)[push.length]? = some 0x61 := by
    rw [List.append_assoc, List.getElem?_append_right le_rfl, Nat.sub_self]
    rfl
  have hne₁ : i + 1 ≠ push.length := by
    rintro heq
    rw [heq, hborder] at h₁
    simp at h₁
  have hne₂ : i + 2 ≠ push.length := by
    rintro heq
    rw [heq, hborder] at h₂
    simp at h₂
  by_cases hend : i = push.length
  · exact .inl hend
  have hlt : i + 2 < push.length := by omega
  rw [List.append_assoc, List.getElem?_append_left (by omega)] at h₀ h₁ h₂
  refine .inr ⟨push.take i, push.drop (i + 3), ?_, by simp; omega⟩
  have hsplit : push.drop i = placeholderBytes ++ push.drop (i + 3) := by
    rw [List.drop_eq_getElem?_toList_append, List.drop_eq_getElem?_toList_append,
      List.drop_eq_getElem?_toList_append, h₀, h₁, h₂]
    rfl
  rw [List.append_assoc, ← hsplit, List.take_append_drop]

theorem placeholderAt_length (hcode : code.toList = front ++ placeholderBytes ++ rest) :
    PlaceholderAt code front.length := by
  have hget : ∀ j, code[front.length + j]? = (placeholderBytes ++ rest)[j]? := by
    intro j
    rw [← Array.getElem?_toList, hcode, List.append_assoc, List.getElem?_append_right (by omega),
      Nat.add_sub_cancel_left]
  exact ⟨hget 0, hget 1, hget 2⟩

/-- If behind `front` the code has some bytes and then a placeholder, the search from there finds
the first placeholder within the bytes, or the one behind them if there is none. -/
theorem findPlaceholder?_behind {fuel : Nat}
    (hcode : code.toList = front ++ push ++ placeholderBytes ++ rest) (hfuel : push.length < fuel) :
    (¬placeholderBytes <:+: push ∧
      findPlaceholder? code fuel front.length = some (front.length + push.length)) ∨
    ∃ before after, push = before ++ placeholderBytes ++ after ∧
      findPlaceholder? code fuel front.length = some (front.length + before.length) := by
  by_cases hin : placeholderBytes <:+: push
  · obtain ⟨before, after, hpush⟩ := hin
    have hlen : push.length = before.length + 3 + after.length := by
      simp [← hpush, placeholderBytes]
      omega
    have hat : PlaceholderAt code (front.length + before.length) := by
      have hsplit : code.toList =
          (front ++ before) ++ placeholderBytes ++ (after ++ placeholderBytes ++ rest) := by
        simpa [← hpush] using hcode
      simpa using placeholderAt_length hsplit
    have hreach : before.length < fuel := by omega
    obtain ⟨i, hi, hfirst, hfound⟩ := findPlaceholder?_of_at hreach hat
    obtain rfl | ⟨before', after', hpush', rfl⟩ := placeholder_inside hcode (by omega) hfirst
    · omega
    · exact .inr ⟨before', after', hpush', hfound⟩
  · have hat : PlaceholderAt code (front.length + push.length) := by
      simpa using placeholderAt_length hcode
    obtain ⟨i, hi, hfirst, hfound⟩ := findPlaceholder?_of_at hfuel hat
    obtain rfl | ⟨before, after, hpush, -⟩ := placeholder_inside hcode hi hfirst
    · exact .inl ⟨hin, hfound⟩
    · exact (hin ⟨before, after, hpush.symm⟩).elim

/-! ## Writing the position of the runtime code -/

/-- Writing over a placeholder changes its last two bytes. -/
theorem toList_splice_placeholder (hcode : code.toList = front ++ placeholderBytes ++ rest)
    (hi : i = front.length) (bytes : List UInt8) :
    (splice code (i + 1) (i + 3) bytes).toList = front ++ (0x61 :: bytes) ++ rest := by
  have hcut : code.toList = (front ++ [0x61]) ++ [0xDE, 0xAD] ++ rest := by
    simpa [placeholderBytes] using hcode
  have hsplice : (splice code (i + 1) (i + 3) bytes).toList = (front ++ [0x61]) ++ bytes ++ rest :=
    toList_splice hcut (by simp [hi]) (by simp [hi]; omega)
  simpa using hsplice

/-- The position is written over the last two bytes of the placeholder that is found. -/
theorem patchRuntimeOffset_of_found
    (hfound : findPlaceholder? e.init (e.init.size - start) start = some i)
    (h : patchRuntimeOffset start e = .ok u e') :
    e.init.size < 65536 ∧
      e' = { e with init := splice e.init (i + 1) (i + 3) (bigEndianBytes 2 e.init.size) } := by
  unfold patchRuntimeOffset at h
  rw [hfound] at h
  simp only at h
  split at h
  · simp at h
  case h_2 bytes hbytes =>
  obtain ⟨hlt, rfl⟩ := toBytes_eq_ok hbytes
  exact ⟨by simpa using hlt, (EStateM.Result.ok.inj h).2.symm⟩

/-- What writing the position of the runtime code changes, if behind `front` the code has
some bytes and then a placeholder.  The bytes keep their length and the first of them.  They are
unchanged and the position is written behind them iff there is no placeholder among them, or the
position is the number that stands in a placeholder anyway. -/
theorem patched_of_ok (hcode : e.init.toList = front ++ push ++ placeholderBytes ++ rest)
    (h : patchRuntimeOffset front.length e = .ok u e') :
    e.init.size < 65536 ∧ e'.runtime = e.runtime ∧
      ∃ (push' : List UInt8) (target : Nat),
        e'.init.toList = front ++ push' ++ (0x61 :: bigEndianBytes 2 target) ++ rest ∧
        push'.length = push.length ∧ push'.head? = push.head? ∧ target < 65536 ∧
        (push' = push ∧ target = e.init.size ↔
          (placeholderBytes <:+: push → e.init.size = runtimePlaceholder)) := by
  have hsize : e.init.size = front.length + push.length + 3 + rest.length := by
    have hlen := congrArg List.length hcode
    simp only [Array.length_toList, List.length_append] at hlen
    exact hlen
  have hreach : push.length < e.init.size - front.length := by omega
  obtain ⟨hfree, hfound⟩ | ⟨before, after, rfl, hfound⟩ := findPlaceholder?_behind hcode hreach
  case inl =>
    obtain ⟨hlt, rfl⟩ := patchRuntimeOffset_of_found hfound h
    refine ⟨hlt, rfl, push, e.init.size, ?_, rfl, rfl, hlt, fun _ hin => (hfree hin).elim,
      fun _ => ⟨rfl, rfl⟩⟩
    exact toList_splice_placeholder hcode (by simp) _
  case inr =>
    -- The size of the runtime code is pushed by bytes with a placeholder in them.
    obtain ⟨hlt, rfl⟩ := patchRuntimeOffset_of_found hfound h
    have hcode' : e.init.toList =
        (front ++ before) ++ placeholderBytes ++ (after ++ placeholderBytes ++ rest) := by
      simpa using hcode
    refine ⟨hlt, rfl, before ++ (0x61 :: bigEndianBytes 2 e.init.size) ++ after,
      runtimePlaceholder, ?_, ?_, ?_, by decide, fun hsame _ => hsame.2.symm, fun hsame => ?_⟩
    · rw [toList_splice_placeholder hcode' (by simp)]
      simp [placeholderBytes, runtimePlaceholder, bigEndianBytes]
    · simp only [List.length_append, List.length_cons, length_bigEndianBytes, placeholderBytes,
        List.length_nil]
    · cases before <;> simp [placeholderBytes]
    · have htarget : e.init.size = runtimePlaceholder := hsame ⟨before, after, rfl⟩
      refine ⟨?_, htarget.symm⟩
      rw [htarget]
      rfl

/-! ## The whole -/

/-- The bytes that push a number: an instruction if there are no more than a word has. -/
def numberBytes (n : Nat) : List UInt8 :=
  (0x5f + byteLength n).toUInt8 :: bigEndianBytes (byteLength n) n

theorem encode_pushNat {n : Nat} (h : n < 2 ^ 256) : (Instr.pushNat n).encode = numberBytes n := by
  have hlen : (bigEndianBytes (byteLength n) n).length ≤ 32 := by
    simpa using byteLength_le_word.mpr h
  rw [Instr.pushNat, Instr.ofBytes_eq hlen, Instr.encode, length_bigEndianBytes, numberBytes]

theorem wrote_emitNumber {n : Nat} (h : emitInt n e = .ok u e') : Wrote e (numberBytes n) e' := by
  obtain ⟨size, bytes, hop, hw⟩ := wrote_emitPushSized h
  obtain ⟨-, -, hsize, hbytes⟩ := integerOperand_eq_ok (show integerOperand n none = _ from hop)
  simp only [Option.getD_none, Int.toNat_natCast, Int.natAbs_natCast, Except.ok.injEq]
    at hsize hbytes
  subst hsize hbytes
  exact hw

/-- What follows the position of the runtime code, given the size of that code. -/
def copyBytes (size : Nat) : List UInt8 :=
  assemble [.pushNat 0, .op .codeCopy] ++ numberBytes size ++ assemble [.pushNat 0, .op .return_]

/-- Writes the code that copies runtime code of some size into memory and returns it, with a
placeholder for the position of that code. -/
def emitCopy (size : Int) : Emit Unit := do
  emitInt size
  emitTarget runtimePlaceholder
  emitInt 0
  emitOp .codeCopy
  emitInt size
  emitInt 0
  emitOp .return_

theorem wrote_emitCopy (h : emitCopy size e = .ok u e') :
    Wrote e (numberBytes size ++ placeholderBytes ++ copyBytes size) e' := by
  obtain ⟨_, e₂, h₂, h⟩ := bind_eq_ok.mp h
  obtain ⟨_, e₃, h₃, h⟩ := bind_eq_ok.mp h
  obtain ⟨_, e₄, h₄, h⟩ := bind_eq_ok.mp h
  obtain ⟨_, e₅, h₅, h⟩ := bind_eq_ok.mp h
  obtain ⟨_, e₆, h₆, h⟩ := bind_eq_ok.mp h
  obtain ⟨_, e₇, h₇, h₈⟩ := bind_eq_ok.mp h
  have hplace : Wrote e₂ placeholderBytes e₃ := wrote_emitTarget h₃
  have hcopy := (wrote_zero h₄).append (wrote_emitOp h₅)
  have hret := (wrote_zero h₇).append (wrote_emitOp h₈)
  have hrest : Wrote e₃ (copyBytes size) e' := (hcopy.trans (wrote_emitNumber h₆)).trans hret
  exact ((wrote_emitNumber h₂).trans hplace).trans hrest

theorem emitInit_eq (c : ContractState) (size : Int) :
    emitInit c size = (do
      report "[blue]Generating initialization code...[/blue]"
      emitInitialStores c c.slots
      let start := (← get).init.size
      emitCopy size
      patchRuntimeOffset start) := by
  simp only [emitInit, emitCopy, bind_assoc]

/-- The creation code is written in three steps: stores, the copying of the runtime code
with a placeholder in it, and the position of the runtime code. -/
theorem emitInit_steps (h : emitInit c size e = .ok u e') :
    ∃ e₀ e₁ e₂ : Emitter, Wrote e [] e₀ ∧ emitInitialStores c c.slots e₀ = .ok () e₁ ∧
      Wrote e₁ (numberBytes size ++ placeholderBytes ++ copyBytes size) e₂ ∧
      patchRuntimeOffset e₁.init.size e₂ = .ok u e' := by
  rw [emitInit_eq] at h
  obtain ⟨_, e₀, h₀, h⟩ := bind_eq_ok.mp h
  obtain ⟨_, e₁, h₁, h⟩ := bind_eq_ok.mp h
  rw [get_bind] at h
  obtain ⟨_, e₂, h₂, h⟩ := bind_eq_ok.mp h
  exact ⟨e₀, e₁, e₂, wrote_report h₀, h₁, wrote_emitCopy h₂, h⟩

theorem current_of_init (h : e.region = .init) : e.current = e.init := by
  simp [Emitter.current, h]

theorem other_of_init (h : e.region = .init) : e.other = e.runtime := by
  simp [Emitter.other, h]

/-- The parts of a creation code that was appended to other code: the stores, the bytes that push
the size of the runtime code and those that push its position, and the copying. -/
structure CreationParts (c : ContractState) (size : Nat) (e e' : Emitter)
    (stores bytes : List UInt8) (target : Nat) : Prop where
  /-- The stores, as they were written. -/
  stored : ∃ e₀ e₁, Wrote e [] e₀ ∧ emitInitialStores c c.slots e₀ = .ok () e₁ ∧ Wrote e₀ stores e₁
  /-- The code that results. -/
  code : e'.init.toList = e.init.toList ++ stores ++ ((0x5f + byteLength size).toUInt8 :: bytes) ++
    (0x61 :: bigEndianBytes 2 target) ++ copyBytes size
  /-- The size is pushed by as many bytes as it needs. -/
  length : bytes.length = byteLength size
  /-- The position fits into its bytes. -/
  target_lt : target < 65536
  /-- So does the size of the creation code. -/
  size_lt : e'.init.size < 65536
  /-- The runtime code is left alone. -/
  runtime : e'.runtime = e.runtime
  /-- The size and the end of the creation code are pushed, unless the size looks like the
  placeholder. -/
  pushed_iff : bytes = bigEndianBytes (byteLength size) size ∧ target = e'.init.size ↔
    (placeholderBytes <:+: numberBytes size → e'.init.size = runtimePlaceholder)

theorem exists_creationParts (hregion : e.region = .init) (h : emitInit c size e = .ok u e') :
    ∃ stores bytes target, CreationParts c size e e' stores bytes target := by
  obtain ⟨e₀, e₁, e₂, hreport, hstores, hcopy, hpatch⟩ := emitInit_steps h
  obtain ⟨stores, hw, -⟩ := size_emitInitialStores hstores
  have hregion₁ : e₁.region = .init := by rw [hw.region, hreport.region, hregion]
  have hregion₂ : e₂.region = .init := hcopy.region.trans hregion₁
  have hinit₁ : e₁.init.toList = e.init.toList ++ stores := by
    have hcurrent := (hreport.trans hw).current
    rwa [current_of_init hregion₁, current_of_init hregion] at hcurrent
  have hinit₂ : e₂.init.toList =
      e₁.init.toList ++ numberBytes size ++ placeholderBytes ++ copyBytes size := by
    have hcurrent := hcopy.current
    rw [current_of_init hregion₁, current_of_init hregion₂] at hcurrent
    simpa using hcurrent
  obtain ⟨hlt, hruntime, push, target, hinit, hlen, hhead, htarget, hsame⟩ :=
    patched_of_ok hinit₂ hpatch
  have hsize : e'.init.size = e₂.init.size := by
    have hlen₂ := congrArg List.length hinit₂
    have hlen' := congrArg List.length hinit
    simp only [Array.length_toList, List.length_append, List.length_cons, hlen,
      length_bigEndianBytes, placeholderBytes, List.length_nil] at hlen₂ hlen'
    omega
  -- What pushes the size keeps the byte of its instruction.
  obtain _ | ⟨b, bytes⟩ := push
  · simp [numberBytes] at hhead
  obtain rfl : b = (0x5f + byteLength size).toUInt8 := by simpa [numberBytes] using hhead
  refine ⟨stores, bytes, target, ⟨e₀, e₁, hreport, hstores, hw⟩, ?_, ?_, htarget, ?_, ?_, ?_⟩
  · rw [hinit, hinit₁]
  · simpa [numberBytes] using hlen
  · omega
  · rw [hruntime, ← other_of_init hregion₂, hcopy.other, hw.other, hreport.other,
      other_of_init hregion]
  · simpa [numberBytes, hsize] using hsame

/-- Writing a creation code leaves the runtime code alone.  There are bytes for each variable, and
all of them together are so few that their number fits into two bytes. -/
theorem sizes_of_emitInit (hregion : e.region = .init) (h : emitInit c size e = .ok u e') :
    3 * c.slots.length ≤ e'.init.size ∧ e'.init.size < 65536 ∧ e'.runtime = e.runtime := by
  obtain ⟨stores, bytes, target, hparts⟩ := exists_creationParts hregion h
  obtain ⟨e₀, e₁, -, hstores, hw⟩ := hparts.stored
  obtain ⟨stores', hw', hlen⟩ := size_emitInitialStores hstores
  obtain rfl : stores' = stores := List.append_cancel_left (hw'.current.symm.trans hw.current)
  have hsize := congrArg List.length hparts.code
  simp only [Array.length_toList, List.length_append] at hsize
  exact ⟨by omega, hparts.size_lt, hparts.runtime⟩

/-- A creation code can only be written for a number of variables that fits into two bytes. -/
theorem slots_lt_of_emitInit (hregion : e.region = .init) (h : emitInit c size e = .ok u e') :
    c.slots.length < 65536 ∧ e'.runtime = e.runtime := by
  obtain ⟨hslots, hsize, hruntime⟩ := sizes_of_emitInit hregion h
  exact ⟨by omega, hruntime⟩

/-- The code that copies code of some size from a position into memory and returns it.  The
size is pushed twice, the first time as the given bytes. -/
def copyCode (sizeBytes : List UInt8) (target size : Nat) : List Instr :=
  [.ofBytes sizeBytes, .pushTarget target, .pushNat 0, .op .codeCopy, .pushNat size, .pushNat 0,
    .op .return_]

theorem assemble_copyCode {bytes : List UInt8} {target : Nat} (hbytes : bytes.length ≤ 32)
    (hsize : size < 2 ^ 256) :
    assemble (copyCode bytes target size) =
      ((0x5f + bytes.length).toUInt8 :: bytes) ++ (0x61 :: bigEndianBytes 2 target) ++
        copyBytes size := by
  have hfirst : (Instr.ofBytes bytes).encode = (0x5f + bytes.length).toUInt8 :: bytes := by
    rw [Instr.ofBytes_eq hbytes, Instr.encode]
  have htarget : (Instr.pushTarget target).encode = 0x61 :: bigEndianBytes 2 target := by
    simp [Instr.pushTarget, Instr.encode]
  simp only [copyCode, copyBytes, assemble_cons, assemble_nil, hfirst, htarget,
    encode_pushNat hsize, List.append_assoc, List.append_nil]

/-- The creation code is a listing.  Unless the bytes that push the size of the runtime code
look like a placeholder, that size and the position of the runtime code are what it pushes. -/
theorem listing_of_emitInit (hregion : e.region = .init) (hempty : e.init = #[])
    (hsize : size < 2 ^ 256)
    (hfit : ∀ entry ∈ c.slots, (c.initialValue entry.1).FitsWord ∧ entry.2 < 2 ^ 256)
    (h : emitInit c size e = .ok u e') :
    ∃ (bytes : List UInt8) (target : Nat), bytes.length ≤ 32 ∧ target < 65536 ∧
      e'.init.toList = assemble (storesCode c c.slots ++ copyCode bytes target size) ∧
      (¬placeholderBytes <:+: numberBytes size →
        bytes = bigEndianBytes (byteLength size) size ∧ target = e'.init.size) := by
  obtain ⟨stores, bytes, target, hparts⟩ := exists_creationParts hregion h
  obtain ⟨e₀, e₁, -, hstores, hw⟩ := hparts.stored
  obtain rfl : assemble (storesCode c c.slots) = stores :=
    List.append_cancel_left ((wrote_emitInitialStores hfit hstores).current.symm.trans hw.current)
  have hword : bytes.length ≤ 32 := hparts.length.trans_le (byteLength_le_word.mpr hsize)
  refine ⟨bytes, target, hword, hparts.target_lt, ?_, fun hfree => ?_⟩
  · rw [hparts.code, hempty, assemble_append, assemble_copyCode hword hsize, hparts.length]
    simp
  · exact hparts.pushed_iff.mpr fun hin => (hfree hin).elim

end ContractKit.Evm
