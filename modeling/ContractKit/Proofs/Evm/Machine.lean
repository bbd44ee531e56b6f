import ContractKit.Proofs.Evm.Bytes

/-!
# The machine that runs the code

A stack machine over words of 256 bits for the instructions of `Opcode`.  Numbers wrap;
division by zero gives zero; storage and memory are total, and everything that was never
written is zero; reading beyond the end of the code or of the call data gives zeros.  A
jump leads to a `JUMPDEST` that a sweep over the code from its beginning meets as an
instruction, or it fails.  Gas and the depth of the stack are not bounded.

What the code generator never writes is left out: `CALL`, `CALLVALUE`, `CALLER`, `GAS` and
every byte that is no instruction of `Opcode` end an execution with `Halt.failed`, so no
statement below can rest on them.
-/

namespace ContractKit.Evm

variable {f g last : Frame} {h : Halt} {hi hi' lo : Nat}

/-- The persistent words of a contract, by slot. -/
abbrev Storage := Word → Word

/-- The bytes of a call's memory, by position. -/
abbrev Memory := Nat → UInt8

/-- What an execution reads: the code and the data of the message.  The length of the data
is a word, for `CALLDATASIZE` tells it. -/
structure Env where
  code : List UInt8
  data : List UInt8
  fits : data.length < 2 ^ 256

/-- What an execution changes. -/
structure State where
  stack : List Word
  memory : Memory
  storage : Storage

/-- An execution under way: the position of the next instruction, and the state. -/
structure Frame where
  pc : Nat
  state : State

/-- How an execution ends. -/
inductive Halt where
  | returned (data : List UInt8)
  | reverted (data : List UInt8)
  | stopped
  | failed
  deriving DecidableEq, Repr

/-- What an instruction does beside changing the state: go on, jump, or end. -/
inductive Effect where
  | next (s : State)
  | jump (target : Nat) (s : State)
  | halt (h : Halt)

/-! ## Bytes of code, data and memory -/

/-- Some bytes from a position on; behind the end there are zeros. -/
def slice (bytes : List UInt8) (start size : Nat) : List UInt8 :=
  (List.range size).map fun i => bytes.getD (start + i) 0

/-- The word of the call data at a position. -/
def dataWord (data : List UInt8) (start : Nat) : Word := wordOf (slice data start 32)

/-- Some bytes of the memory from a position on. -/
def Memory.read (m : Memory) (start size : Nat) : List UInt8 :=
  (List.range size).map fun i => m (start + i)

/-- The memory with bytes written from a position on. -/
def Memory.write (m : Memory) (start : Nat) (bytes : List UInt8) : Memory := fun i =>
  if start ≤ i ∧ i < start + bytes.length then bytes.getD (i - start) 0 else m i

theorem Memory.read_write (m : Memory) (start : Nat) (bytes : List UInt8) :
    (m.write start bytes).read start bytes.length = bytes := by
  apply List.ext_getElem
  · simp [Memory.read]
  · intro i _ hi
    simp [Memory.read, Memory.write, hi]

def Storage.set (σ : Storage) (slot value : Word) : Storage := fun k =>
  if k = slot then value else σ k

/-- The number of bytes that belong to an instruction beside its own. -/
def immediateSize (b : UInt8) : Nat := if 0x5f ≤ b.toNat ∧ b.toNat ≤ 0x7f then b.toNat - 0x5f else 0

/-- For each byte of the code whether an instruction begins there, given how many of them
still belong to an earlier one. -/
def instructionStarts : (skip : Nat) → List UInt8 → List Bool
  | _, [] => []
  | 0, b :: rest => true :: instructionStarts (immediateSize b) rest
  | skip + 1, _ :: rest => false :: instructionStarts skip rest

/-- Whether a position of the code can be jumped to. -/
def isJumpDest (code : List UInt8) (i : Nat) : Bool :=
  code[i]? == some Opcode.jumpDest.byte && (instructionStarts 0 code)[i]? == some true

/-! ## Instructions -/

def Opcode.ofByte? (b : UInt8) : Option Opcode :=
  (Opcode.mnemonics.find? fun (_, op) => op.byte == b).map Prod.snd

/-- One for true, zero for false. -/
def flag (p : Prop) [Decidable p] : Word := if p then 1 else 0

theorem flag_eq_zero (p : Prop) [Decidable p] : flag p = 0 ↔ ¬p := by
  unfold flag
  split <;> simp_all

theorem flag_not (p q : Prop) [Decidable p] [Decidable q] (h : ¬p ↔ q) :
    flag (flag p = 0) = flag q := by
  have hiff : flag p = 0 ↔ q := (flag_eq_zero p).trans h
  unfold flag at hiff ⊢
  by_cases hq : q
  · rw [if_pos (hiff.mpr hq), if_pos hq]
  · rw [if_neg (mt hiff.mp hq), if_neg hq]

def State.withStack (s : State) (stack : List Word) : State := { s with stack := stack }

/-- What an instruction without immediate bytes does. -/
def Opcode.execute (env : Env) (op : Opcode) (s : State) : Effect :=
  match op, s.stack with
  | .pop, _ :: rest => .next (s.withStack rest)
  | .dup1, a :: rest => .next (s.withStack (a :: a :: rest))
  | .dup2, a :: b :: rest => .next (s.withStack (b :: a :: b :: rest))
  | .swap1, a :: b :: rest => .next (s.withStack (b :: a :: rest))
  | .add, a :: b :: rest => .next (s.withStack ((a + b) :: rest))
  | .sub, a :: b :: rest => .next (s.withStack ((a - b) :: rest))
  | .mul, a :: b :: rest => .next (s.withStack ((a * b) :: rest))
  | .div, a :: b :: rest => .next (s.withStack ((a / b) :: rest))
  | .mod, a :: b :: rest => .next (s.withStack ((if b = 0 then 0 else a % b) :: rest))
  | .eq, a :: b :: rest => .next (s.withStack (flag (a = b) :: rest))
  | .lt, a :: b :: rest => .next (s.withStack (flag (a < b) :: rest))
  | .gt, a :: b :: rest => .next (s.withStack (flag (b < a) :: rest))
  | .and, a :: b :: rest => .next (s.withStack ((a &&& b) :: rest))
  | .shr, a :: b :: rest => .next (s.withStack ((b >>> a.toNat) :: rest))
  | .isZero, a :: rest => .next (s.withStack (flag (a = 0) :: rest))
  | .sload, slot :: rest => .next (s.withStack (s.storage slot :: rest))
  | .sstore, slot :: value :: rest =>
    .next { s with stack := rest, storage := s.storage.set slot value }
  | .mstore, start :: value :: rest =>
    .next { s with stack := rest, memory := s.memory.write start.toNat (bytesOf value) }
  | .mload, start :: rest =>
    .next (s.withStack (wordOf (s.memory.read start.toNat 32) :: rest))
  | .codeCopy, target :: start :: size :: rest =>
    .next { s with
      stack := rest
      memory := s.memory.write target.toNat (slice env.code start.toNat size.toNat) }
  | .codeSize, rest => .next (s.withStack (BitVec.ofNat 256 env.code.length :: rest))
  | .callDataSize, rest => .next (s.withStack (BitVec.ofNat 256 env.data.length :: rest))
  | .callDataLoad, start :: rest =>
    .next (s.withStack (dataWord env.data start.toNat :: rest))
  | .callDataCopy, target :: start :: size :: rest =>
    .next { s with
      stack := rest
      memory := s.memory.write target.toNat (slice env.data start.toNat size.toNat) }
  | .jump, target :: rest => .jump target.toNat (s.withStack rest)
  | .jumpI, target :: condition :: rest =>
    if condition = 0 then .next (s.withStack rest) else .jump target.toNat (s.withStack rest)
  | .jumpDest, rest => .next (s.withStack rest)
  | .stop, _ => .halt .stopped
  | .return_, start :: size :: _ => .halt (.returned (s.memory.read start.toNat size.toNat))
  | .revert, start :: size :: _ => .halt (.reverted (s.memory.read start.toNat size.toNat))
  | _, _ => .halt .failed

section Execute

variable (env : Env) (rest : List Word) (m : Memory) (σ : Storage)

theorem execute_mstore (start value : Word) :
    Opcode.mstore.execute env ⟨start :: value :: rest, m, σ⟩ =
      .next ⟨rest, m.write start.toNat (bytesOf value), σ⟩ := rfl

theorem execute_callDataLoad (start : Word) :
    Opcode.callDataLoad.execute env ⟨start :: rest, m, σ⟩ =
      .next ⟨dataWord env.data start.toNat :: rest, m, σ⟩ := rfl

theorem execute_codeCopy (target start size : Word) :
    Opcode.codeCopy.execute env ⟨target :: start :: size :: rest, m, σ⟩ =
      .next ⟨rest, m.write target.toNat (slice env.code start.toNat size.toNat), σ⟩ := rfl

theorem execute_jump (target : Word) :
    Opcode.jump.execute env ⟨target :: rest, m, σ⟩ = .jump target.toNat ⟨rest, m, σ⟩ := rfl

theorem execute_jumpI (target : Word) {condition : Word} (h : condition ≠ 0) :
    Opcode.jumpI.execute env ⟨target :: condition :: rest, m, σ⟩ =
      .jump target.toNat ⟨rest, m, σ⟩ :=
  if_neg h

theorem execute_return (start size : Word) :
    Opcode.return_.execute env ⟨start :: size :: rest, m, σ⟩ =
      .halt (.returned (m.read start.toNat size.toNat)) := rfl

end Execute

/-- What the instruction at a position does, and how many bytes it takes.  Behind its end
the code stops. -/
def perform (env : Env) (pc : Nat) (s : State) : Effect × Nat :=
  match env.code[pc]? with
  | none => (.halt .stopped, 1)
  | some b =>
    if 0x5f ≤ b.toNat ∧ b.toNat ≤ 0x7f then
      (.next (s.withStack (wordOf (slice env.code (pc + 1) (immediateSize b)) :: s.stack)),
        1 + immediateSize b)
    else
      match Opcode.ofByte? b with
      | none => (.halt .failed, 1)
      | some op => (op.execute env s, 1)

/-- The effect of one instruction: the execution goes on, or it has ended. -/
def step (env : Env) (f : Frame) : Frame ⊕ Halt :=
  match perform env f.pc f.state with
  | (.next s, size) => .inl ⟨f.pc + size, s⟩
  | (.jump target s, _) => if isJumpDest env.code target then .inl ⟨target, s⟩ else .inr .failed
  | (.halt h, _) => .inr h

/-! ## Executions -/

/-- The instruction at a position lies between two positions of the code, with all of its
bytes. -/
def Within (env : Env) (lo hi : Nat) (f : Frame) : Prop :=
  lo ≤ f.pc ∧ f.pc + (perform env f.pc f.state).2 ≤ hi

/-- An execution of any number of instructions, all of which lie between two positions. -/
inductive Runs (env : Env) (lo hi : Nat) : Frame → Frame → Prop where
  | refl (f : Frame) : Runs env lo hi f f
  | head {f g h : Frame} : Within env lo hi f → step env f = .inl g → Runs env lo hi g h →
      Runs env lo hi f h

/-- An execution that ends, with the frame of its last instruction. -/
structure Halts (env : Env) (lo hi : Nat) (f : Frame) (h : Halt) (last : Frame) : Prop where
  runs : Runs env lo hi f last
  within : Within env lo hi last
  step_eq : step env last = .inr h

theorem Runs.trans {env : Env} {h : Frame} (hfg : Runs env lo hi f g) (hgh : Runs env lo hi g h) :
    Runs env lo hi f h := by
  induction hfg with
  | refl => exact hgh
  | head hin hstep _ ih => exact .head hin hstep (ih hgh)

theorem Runs.halts {env : Env} (hfg : Runs env lo hi f g) (hg : Halts env lo hi g h last) :
    Halts env lo hi f h last :=
  ⟨hfg.trans hg.runs, hg.within, hg.step_eq⟩

theorem Within.mono {env : Env} (h : Within env lo hi f) (hhi : hi ≤ hi') : Within env lo hi' f :=
  ⟨h.1, h.2.trans hhi⟩

/-- A larger range of the code admits the same executions. -/
theorem Runs.mono {env : Env} (h : Runs env lo hi f g) (hhi : hi ≤ hi') : Runs env lo hi' f g := by
  induction h with
  | refl f => exact .refl f
  | head hin hstep _ ih => exact .head (hin.mono hhi) hstep ih

/-- An execution ends in one way only, whatever range it is seen in. -/
theorem Halts.unique {env : Env} {lo' : Nat} {last' : Frame} {h' : Halt}
    (hhalts : Halts env lo hi f h last) (hhalts' : Halts env lo' hi' f h' last') :
    h = h' ∧ last = last' := by
  obtain ⟨hruns, hin, hstep⟩ := hhalts
  obtain ⟨hruns', hin', hstep'⟩ := hhalts'
  induction hruns with
  | refl f =>
    cases hruns' with
    | refl => exact ⟨Sum.inr.inj (hstep.symm.trans hstep'), rfl⟩
    | head _ hnext _ => simp [hstep] at hnext
  | head _ hnext _ ih =>
    cases hruns' with
    | refl => simp [hstep'] at hnext
    | head _ hnext' hrest =>
      obtain rfl := Sum.inl.inj (hnext.symm.trans hnext')
      exact ih hin hstep hrest

theorem Halts.mono {env : Env} (hhalts : Halts env lo hi f h last) (hhi : hi ≤ hi') :
    Halts env lo hi' f h last :=
  ⟨hhalts.runs.mono hhi, hhalts.within.mono hhi, hhalts.step_eq⟩

end ContractKit.Evm
