import ContractKit.Proofs.Evm.Machine

/-!
# Listings

A listing is code as a sequence of instructions.  Its bytes decode to itself from any of
its instructions on, so the machine can be followed instruction by instruction, and a
`JUMPDEST` of a listing can be jumped to whatever bytes the listing pushes.
-/

namespace ContractKit.Evm

/-- Whether an instruction is followed by bytes to push. -/
def Opcode.isPush : Opcode → Bool
  | .push1 | .push2 | .push4 | .push32 => true
  | _ => false

/-- An instruction that stands alone.  For a given one this evaluates to `True`. -/
def Opcode.IsPlain (o : Opcode) : Prop := bif o.isPush then False else True

theorem Opcode.IsPlain.isPush_eq {o : Opcode} (h : o.IsPlain) : o.isPush = false := by
  cases hpush : o.isPush with
  | false => rfl
  | true => simp [IsPlain, hpush] at h

/-- An instruction with its immediate bytes, of which the machine takes at most a word. -/
inductive Instr where
  | push (bytes : List UInt8) (fits : bytes.length ≤ 32)
  | op (o : Opcode) (plain : o.isPush = false := by exact Opcode.IsPlain.isPush_eq True.intro)

namespace Instr

def encode : Instr → List UInt8
  | .push bytes _ => (0x5f + bytes.length).toUInt8 :: bytes
  | .op o _ => [o.byte]

/-- The instruction that pushes some bytes, of which it keeps the first 32. -/
def ofBytes (bytes : List UInt8) : Instr :=
  .push (bytes.take 32) (List.length_take_le 32 bytes)

theorem ofBytes_eq {bytes : List UInt8} (h : bytes.length ≤ 32) :
    ofBytes bytes = .push bytes h := by
  simp [ofBytes, List.take_of_length_le h]

/-- The instruction that pushes a number in as few bytes as it needs. -/
def pushNat (n : Nat) : Instr := ofBytes (bigEndianBytes (byteLength n) n)

def pushTarget (n : Nat) : Instr := .push (bigEndianBytes 2 n) (by simp)

end Instr

def assemble (is : List Instr) : List UInt8 := is.flatMap Instr.encode

/-- The number of bytes of a listing. -/
def codeSize (is : List Instr) : Nat := (assemble is).length

@[simp] theorem assemble_nil : assemble [] = [] := rfl

@[simp] theorem assemble_cons (i : Instr) (is : List Instr) :
    assemble (i :: is) = i.encode ++ assemble is := rfl

@[simp] theorem assemble_append (is js : List Instr) :
    assemble (is ++ js) = assemble is ++ assemble js := by
  simp [assemble]

@[simp] theorem codeSize_nil : codeSize [] = 0 := rfl

@[simp] theorem codeSize_cons (i : Instr) (is : List Instr) :
    codeSize (i :: is) = i.encode.length + codeSize is := by
  simp [codeSize]

@[simp] theorem codeSize_append (is js : List Instr) :
    codeSize (is ++ js) = codeSize is + codeSize js := by
  simp [codeSize]

namespace Instr

@[simp] theorem length_encode_op (o : Opcode) (h : o.isPush = false) :
    (Instr.op o h).encode.length = 1 := rfl

@[simp] theorem length_encode_push (bytes : List UInt8) (h : bytes.length ≤ 32) :
    (Instr.push bytes h).encode.length = bytes.length + 1 := rfl

@[simp] theorem length_encode_pushTarget (n : Nat) : (pushTarget n).encode.length = 3 := by
  simp [pushTarget]

end Instr

/-! ## Decoding -/

theorem toNat_pushByte {n : Nat} (h : n ≤ 32) : (0x5f + n).toUInt8.toNat = 0x5f + n := by
  simp only [Nat.toUInt8_eq, UInt8.toNat_ofNat']
  omega

theorem immediateSize_pushByte {n : Nat} (h : n ≤ 32) : immediateSize (0x5f + n).toUInt8 = n := by
  rw [immediateSize, toNat_pushByte h, if_pos (by omega)]
  omega

theorem not_pushByte_byte {op : Opcode} (h : op.isPush = false) :
    ¬(0x5f ≤ op.byte.toNat ∧ op.byte.toNat ≤ 0x7f) := by
  cases op <;> simp_all [Opcode.isPush, Opcode.byte]

theorem immediateSize_byte {op : Opcode} (h : op.isPush = false) : immediateSize op.byte = 0 :=
  if_neg (not_pushByte_byte h)

@[simp] theorem ofByte?_byte (op : Opcode) : Opcode.ofByte? op.byte = some op := by
  cases op <;> rfl

theorem instructionStarts_skip (skip : List UInt8) (rest : List UInt8) :
    instructionStarts skip.length (skip ++ rest) =
      List.replicate skip.length false ++ instructionStarts 0 rest := by
  induction skip with
  | nil => simp
  | cons b skip ih => simp [instructionStarts, List.replicate_succ, ih]

/-- A sweep that starts at an instruction takes it as a whole. -/
theorem instructionStarts_encode (i : Instr) (rest : List UInt8) :
    instructionStarts 0 (i.encode ++ rest) =
      true :: (List.replicate (i.encode.length - 1) false ++ instructionStarts 0 rest) := by
  cases i with
  | push bytes h =>
    have hskip := instructionStarts_skip bytes rest
    simp only [Instr.encode, List.cons_append, instructionStarts, immediateSize_pushByte h,
      hskip, List.length_cons, Nat.add_sub_cancel]
  | op op h =>
    simp [Instr.encode, instructionStarts, immediateSize_byte h]

/-- A sweep over a listing meets what stands behind it. -/
theorem getElem?_instructionStarts (is : List Instr) (rest : List UInt8) (k : Nat) :
    (instructionStarts 0 (assemble is ++ rest))[codeSize is + k]? =
      (instructionStarts 0 rest)[k]? := by
  induction is with
  | nil => simp
  | cons i is ih =>
    have hpos : 0 < i.encode.length := by cases i <;> simp [Instr.encode]
    have hidx : codeSize (i :: is) + k =
        (i.encode.length - 1) + (codeSize is + k) + 1 := by
      rw [codeSize_cons]
      omega
    rw [assemble_cons, List.append_assoc, instructionStarts_encode, hidx,
      List.getElem?_cons_succ, List.getElem?_append_right (by simp)]
    simpa using ih

/-! ## Single instructions -/

section Perform

variable {env : Env}

theorem perform_of_op {op : Opcode} {pc : Nat} (plain : op.isPush = false)
    (h : env.code[pc]? = some op.byte) (s : State) : perform env pc s = (op.execute env s, 1) := by
  simp only [perform, h, if_neg (not_pushByte_byte plain), ofByte?_byte]

theorem slice_immediate (pre bytes rest : List UInt8) (b : UInt8) :
    slice (pre ++ (b :: bytes ++ rest)) (pre.length + 1) bytes.length = bytes := by
  apply List.ext_getElem
  · simp [slice]
  · intro k _ hk
    have hidx : pre.length + 1 + k = pre.length + (k + 1) := by omega
    simp only [slice, List.getElem_map, List.getElem_range, hidx]
    rw [List.getD_eq_getElem?_getD, List.getElem?_append_right (by omega),
      Nat.add_sub_cancel_left, List.cons_append, List.getElem?_cons_succ,
      List.getElem?_append_left hk, List.getElem?_eq_getElem hk]
    rfl

theorem perform_of_push {pre bytes rest : List UInt8} (fits : bytes.length ≤ 32)
    (hcode : env.code = pre ++ ((0x5f + bytes.length).toUInt8 :: bytes ++ rest)) (s : State) :
    perform env pre.length s =
      (.next (s.withStack (wordOf bytes :: s.stack)), 1 + bytes.length) := by
  have hbyte : env.code[pre.length]? = some (0x5f + bytes.length).toUInt8 := by
    rw [hcode, List.getElem?_append_right le_rfl]
    simp
  have hrange : 0x5f ≤ (0x5f + bytes.length).toUInt8.toNat ∧
      (0x5f + bytes.length).toUInt8.toNat ≤ 0x7f := by
    rw [toNat_pushByte fits]
    omega
  have himm : slice env.code (pre.length + 1) bytes.length = bytes := by
    rw [hcode]
    exact slice_immediate _ _ _ _
  simp only [perform, hbyte, if_pos hrange, immediateSize_pushByte fits, himm]

end Perform

/-! ## Listings at a position -/

/-- The listing `is` stands at the position `pc` of the code, behind other instructions, and
lies in the range from `lo` to `hi`. -/
structure Spans (env : Env) (lo hi pc : Nat) (is : List Instr) : Prop where
  placed : ∃ pre rest, env.code = assemble pre ++ (assemble is ++ rest) ∧ pc = codeSize pre
  lo_le : lo ≤ pc
  le_hi : pc + codeSize is ≤ hi

namespace Spans

variable {env : Env} {lo hi pc : Nat} {i : Instr} {is js : List Instr}

theorem left (h : Spans env lo hi pc (is ++ js)) : Spans env lo hi pc is := by
  obtain ⟨⟨pre, rest, hcode, hpc⟩, hlo, hhi⟩ := h
  refine ⟨⟨pre, assemble js ++ rest, ?_, hpc⟩, hlo, ?_⟩
  · simpa using hcode
  · rw [codeSize_append] at hhi
    omega

theorem right (h : Spans env lo hi pc (is ++ js)) : Spans env lo hi (pc + codeSize is) js := by
  obtain ⟨⟨pre, rest, hcode, hpc⟩, hlo, hhi⟩ := h
  refine ⟨⟨pre ++ is, rest, ?_, ?_⟩, by omega, ?_⟩
  · simpa using hcode
  · rw [codeSize_append, hpc]
  · rw [codeSize_append] at hhi
    omega

theorem head (h : Spans env lo hi pc (i :: is)) : Spans env lo hi pc [i] :=
  @left _ _ _ _ [i] is h

theorem tail (h : Spans env lo hi pc (i :: is)) : Spans env lo hi (pc + i.encode.length) is := by
  simpa using @right _ _ _ _ [i] is h

theorem whole (h : Spans env lo hi pc is) : Spans env 0 env.code.length pc is := by
  obtain ⟨⟨pre, rest, hcode, hpc⟩, -, -⟩ := h
  refine ⟨⟨pre, rest, hcode, hpc⟩, Nat.zero_le pc, ?_⟩
  rw [hcode, hpc]
  simp only [codeSize, List.length_append]
  omega

theorem getElem?_op {op : Opcode} {plain : op.isPush = false}
    (h : Spans env lo hi pc (.op op plain :: is)) : env.code[pc]? = some op.byte := by
  obtain ⟨⟨pre, rest, hcode, rfl⟩, -, -⟩ := h
  rw [hcode, codeSize, List.getElem?_append_right le_rfl]
  simp [Instr.encode]

theorem isJumpDest (h : Spans env lo hi pc (.op .jumpDest :: is)) :
    isJumpDest env.code pc = true := by
  have hbyte := h.getElem?_op
  obtain ⟨⟨pre, rest, hcode, rfl⟩, -, -⟩ := h
  have hstart : (instructionStarts 0 env.code)[codeSize pre]? = some true := by
    have hsweep := getElem?_instructionStarts pre (assemble (.op .jumpDest :: is) ++ rest) 0
    rw [Nat.add_zero, ← hcode] at hsweep
    rw [hsweep, assemble_cons, List.append_assoc, instructionStarts_encode]
    rfl
  simp [Evm.isJumpDest, hbyte, hstart]

/-! ## What an instruction of a listing does -/

theorem perform_op {op : Opcode} {plain : op.isPush = false}
    (h : Spans env lo hi pc (.op op plain :: is)) (s : State) :
    perform env pc s = (op.execute env s, 1) :=
  perform_of_op plain h.getElem?_op s

theorem within_op {op : Opcode} {plain : op.isPush = false}
    (h : Spans env lo hi pc (.op op plain :: is)) (s : State) : Within env lo hi ⟨pc, s⟩ := by
  have hhi := h.head.le_hi
  rw [Within, h.perform_op]
  exact ⟨h.lo_le, by simpa using hhi⟩

/-- An instruction that jumps leads to its target if that can be jumped to. -/
theorem runs_jump {op : Opcode} {plain : op.isPush = false} {s t : State} {target : Nat}
    (h : Spans env lo hi pc (.op op plain :: is)) (hexec : op.execute env s = .jump target t)
    (hdest : Evm.isJumpDest env.code target = true) :
    Runs env lo hi ⟨pc, s⟩ ⟨target, t⟩ := by
  refine .head (h.within_op s) ?_ (.refl _)
  simp [step, h.perform_op, hexec, hdest]

/-- An instruction that ends the execution is its last. -/
theorem halts {op : Opcode} {plain : op.isPush = false} {s : State} {outcome : Halt}
    (h : Spans env lo hi pc (.op op plain :: is)) (hexec : op.execute env s = .halt outcome) :
    Halts env lo hi ⟨pc, s⟩ outcome ⟨pc, s⟩ := by
  refine ⟨.refl _, h.within_op s, ?_⟩
  simp [step, h.perform_op, hexec]

end Spans

end ContractKit.Evm
