import ContractKit.Proofs.Evm.Listing

/-!
# Straight code

Code that only computes goes on from each instruction to the next one, changes neither memory nor
storage, and replaces words on top of the stack by others.  What lies below these words plays no
part: every instruction does the same whatever it is, also if nothing lies there.  So a word that
straight code takes is one that it has pushed itself or was given.

Straight code may stand behind any bytes, for nothing jumps into it.  `Moves` and `Executes` say
what a listing does to the state in a way that mentions no position, and listings that follow one
another compose; for the latter they stand behind other instructions.
-/

namespace ContractKit.Evm

variable {o : Opcode} {plain : o.isPush = false}

/-- The bytes stand at the position `pc` of the code. -/
def StandsAt (env : Env) (pc : Nat) (bytes : List UInt8) : Prop :=
  ∃ front back, env.code = front ++ (bytes ++ back) ∧ pc = front.length

namespace StandsAt

variable {env : Env} {pc : Nat} {bytes more : List UInt8}

theorem left (h : StandsAt env pc (bytes ++ more)) : StandsAt env pc bytes := by
  obtain ⟨front, back, hcode, hpc⟩ := h
  exact ⟨front, more ++ back, by rw [hcode, List.append_assoc], hpc⟩

theorem right (h : StandsAt env pc (bytes ++ more)) : StandsAt env (pc + bytes.length) more := by
  obtain ⟨front, back, hcode, hpc⟩ := h
  refine ⟨front ++ bytes, back, ?_, ?_⟩
  · simp only [hcode, List.append_assoc]
  · rw [hpc, List.length_append]

theorem getElem?_head {b : UInt8} (h : StandsAt env pc (b :: bytes)) :
    env.code[pc]? = some b := by
  obtain ⟨front, back, hcode, rfl⟩ := h
  simp [hcode]

end StandsAt

theorem Spans.standsAt {env : Env} {lo hi pc : Nat} {is : List Instr}
    (h : Spans env lo hi pc is) : StandsAt env pc (assemble is) := by
  obtain ⟨pre, rest, hcode, hpc⟩ := h.placed
  exact ⟨assemble pre, rest, hcode, hpc⟩

/-! ## Runs that replace words -/

/-- The instruction at a position replaces the words `top` by the words `top'`, whatever lies below
them, changes nothing else, and goes on to the next instruction. -/
def Replaces (env : Env) (m : Memory) (σ : Storage) (pc size : Nat) (top top' : List Word) : Prop :=
  ∀ base, perform env pc ⟨top ++ base, m, σ⟩ = (.next ⟨top' ++ base, m, σ⟩, size)

/-- Going on from each instruction to the next one, from the position `pc` to the position `stop`,
the words `top` become the words `last`.  No instruction takes a word from below these words, and
none changes memory or storage. -/
inductive Passes (env : Env) (m : Memory) (σ : Storage) :
    (pc : Nat) → (top : List Word) → (stop : Nat) → (last : List Word) → Prop where
  | refl (pc : Nat) (top : List Word) : Passes env m σ pc top pc top
  | head {pc size stop : Nat} {top top' last : List Word} : Replaces env m σ pc size top top' →
      Passes env m σ (pc + size) top' stop last → Passes env m σ pc top stop last

variable {env : Env} {m : Memory} {σ : Storage}

/-- Every instruction takes a byte. -/
theorem perform_size_pos (env : Env) (pc : Nat) (s : State) : 0 < (perform env pc s).2 := by
  unfold perform
  split
  · exact Nat.one_pos
  · split
    · exact Nat.add_pos_left Nat.one_pos _
    · split <;> exact Nat.one_pos

namespace Replaces

variable {pc size size' : Nat} {top top' top'' : List Word}

theorem size_pos (h : Replaces env m σ pc size top top') : 0 < size := by
  have hpos := perform_size_pos env pc ⟨top ++ [], m, σ⟩
  rwa [h []] at hpos

theorem unique (h : Replaces env m σ pc size top top') (h' : Replaces env m σ pc size' top top'') :
    size = size' ∧ top' = top'' := by
  have hsame := (h []).symm.trans (h' [])
  simp only [List.append_nil, Prod.mk.injEq, Effect.next.injEq, State.mk.injEq] at hsame
  exact ⟨hsame.2, hsame.1.1⟩

theorem above (h : Replaces env m σ pc size top top') (more : List Word) :
    Replaces env m σ pc size (top ++ more) (top' ++ more) := by
  intro base
  rw [List.append_assoc, List.append_assoc]
  exact h (more ++ base)

end Replaces

namespace Passes

variable {pc mid stop : Nat} {top top' last last' : List Word}

theorem trans (h : Passes env m σ pc top mid top') (h' : Passes env m σ mid top' stop last) :
    Passes env m σ pc top stop last := by
  induction h with
  | refl => exact h'
  | head hfirst _ ih => exact .head hfirst (ih h')

theorem single {size : Nat} (h : Replaces env m σ pc size top top') :
    Passes env m σ pc top (pc + size) top' :=
  .head h (.refl _ _)

theorem le (h : Passes env m σ pc top stop last) : pc ≤ stop := by
  induction h with
  | refl => exact le_rfl
  | head _ _ ih => omega

theorem above (h : Passes env m σ pc top stop last) (more : List Word) :
    Passes env m σ pc (top ++ more) stop (last ++ more) := by
  induction h with
  | refl => exact .refl _ _
  | head hfirst _ ih => exact .head (hfirst.above more) ih

/-- Positions grow with every instruction, so two runs to one position make the same steps. -/
theorem unique (h : Passes env m σ pc top stop last) (h' : Passes env m σ pc top stop last') :
    last = last' := by
  induction h with
  | refl =>
    cases h' with
    | refl => rfl
    | head hfirst hrest =>
      have hpos := hfirst.size_pos
      have hle := hrest.le
      omega
  | head hfirst hrest ih =>
    cases h' with
    | refl =>
      have hpos := hfirst.size_pos
      have hle := hrest.le
      omega
    | head hfirst' hrest' =>
      obtain ⟨rfl, rfl⟩ := hfirst.unique hfirst'
      exact ih hrest'

/-- From any stack, the machine runs through straight code. -/
theorem runs (h : Passes env m σ pc top stop last) (base : List Word) {lo hi : Nat}
    (hlo : lo ≤ pc) (hhi : stop ≤ hi) :
    Runs env lo hi ⟨pc, ⟨top ++ base, m, σ⟩⟩ ⟨stop, ⟨last ++ base, m, σ⟩⟩ := by
  induction h with
  | refl => exact .refl _
  | head hfirst hrest ih =>
    refine .head ⟨hlo, ?_⟩ ?_ (ih (by omega) hhi)
    · have hle := hrest.le
      rw [hfirst base]
      exact hle.trans hhi
    · rw [step, hfirst base]

end Passes

/-! ## Listings that compute -/

/-- Running through the listing, wherever it stands, replaces the words `top` by the words
`top'`. -/
def Computes (env : Env) (m : Memory) (σ : Storage) (is : List Instr) (top top' : List Word) :
    Prop :=
  ∀ pc, StandsAt env pc (assemble is) → Passes env m σ pc top (pc + codeSize is) top'

namespace Computes

variable {is js : List Instr} {top top' top'' : List Word}

theorem nil (top : List Word) : Computes env m σ [] top top := fun pc _ => .refl pc top

theorem append (h : Computes env m σ is top top') (h' : Computes env m σ js top' top'') :
    Computes env m σ (is ++ js) top top'' := by
  intro pc hat
  rw [assemble_append] at hat
  have hpass := (h pc hat.left).trans (h' _ hat.right)
  rwa [codeSize_append, ← Nat.add_assoc]

theorem cons {i : Instr} (h : Computes env m σ [i] top top') (h' : Computes env m σ is top' top'') :
    Computes env m σ (i :: is) top top'' :=
  append h h'

theorem above (h : Computes env m σ is top top') (more : List Word) :
    Computes env m σ is (top ++ more) (top' ++ more) :=
  fun pc hat => (h pc hat).above more

/-- An instruction that does the same whatever lies below its operands. -/
theorem op (h : ∀ base, o.execute env ⟨top ++ base, m, σ⟩ = .next ⟨top' ++ base, m, σ⟩) :
    Computes env m σ [.op o plain] top top' := by
  intro pc hat
  have hbyte : env.code[pc]? = some o.byte := hat.getElem?_head
  have hone : Replaces env m σ pc 1 top top' := by
    intro base
    rw [perform_of_op plain hbyte, h base]
  exact .single hone

theorem push (bytes : List UInt8) (fits : bytes.length ≤ 32) (top : List Word) :
    Computes env m σ [.push bytes fits] top (wordOf bytes :: top) := by
  rintro pc ⟨front, back, hcode, rfl⟩
  have hstop : codeSize [Instr.push bytes fits] = 1 + bytes.length := by simp [Nat.add_comm]
  rw [hstop]
  refine .single fun base => ?_
  exact perform_of_push fits (by simpa [Instr.encode] using hcode) ⟨top ++ base, m, σ⟩

theorem ofBytes {bytes : List UInt8} (h : bytes.length ≤ 32) (top : List Word) :
    Computes env m σ [.ofBytes bytes] top (wordOf bytes :: top) := by
  rw [Instr.ofBytes_eq h]
  exact push bytes h top

/-- A number that fits into a word is pushed as that word. -/
theorem pushNat {n : Nat} (h : n < 2 ^ 256) (top : List Word) :
    Computes env m σ [.pushNat n] top (BitVec.ofNat 256 n :: top) := by
  rw [← wordOf_minimal n]
  exact ofBytes (by simpa using byteLength_le_word.mpr h) top

end Computes

/-! ## Listings that store -/

/-- Running through the listing, wherever it stands, takes the state `s` to the state `t`. -/
def Moves (env : Env) (is : List Instr) (s t : State) : Prop :=
  ∀ lo hi pc, StandsAt env pc (assemble is) → lo ≤ pc → pc + codeSize is ≤ hi →
    Runs env lo hi ⟨pc, s⟩ ⟨pc + codeSize is, t⟩

theorem Computes.moves {is : List Instr} {top top' : List Word} (h : Computes env m σ is top top')
    (base : List Word) : Moves env is ⟨top ++ base, m, σ⟩ ⟨top' ++ base, m, σ⟩ :=
  fun _ _ pc hat hlo hhi => (h pc hat).runs base hlo hhi

/-- An instruction that stands somewhere and goes on is a run. -/
theorem StandsAt.within_op {lo hi pc : Nat} {bytes : List UInt8} (plain : o.isPush = false)
    (hat : StandsAt env pc (o.byte :: bytes)) (hlo : lo ≤ pc) (hhi : pc + 1 ≤ hi) (s : State) :
    Within env lo hi ⟨pc, s⟩ := by
  rw [Within, perform_of_op plain hat.getElem?_head]
  exact ⟨hlo, hhi⟩

namespace Moves

variable {is js : List Instr} {s t u : State}

theorem nil (s : State) : Moves env [] s s := fun _ _ pc _ _ _ => .refl ⟨pc, s⟩

theorem append (h : Moves env is s t) (h' : Moves env js t u) : Moves env (is ++ js) s u := by
  intro lo hi pc hat hlo hhi
  rw [assemble_append] at hat
  rw [codeSize_append] at hhi ⊢
  rw [← Nat.add_assoc] at hhi ⊢
  exact (h lo hi pc hat.left hlo (by omega)).trans (h' lo hi _ hat.right (by omega) hhi)

theorem cons {i : Instr} (h : Moves env [i] s t) (h' : Moves env is t u) :
    Moves env (i :: is) s u :=
  append h h'

theorem op (h : o.execute env s = .next t) : Moves env [.op o plain] s t := by
  intro lo hi pc hat hlo hhi
  refine .head (hat.within_op plain hlo hhi s) ?_ (.refl _)
  rw [step, perform_of_op plain hat.getElem?_head, h]
  rfl

/-- Such code in front of an instruction that ends the execution. -/
theorem halts {outcome : Halt} {lo hi pc : Nat} (h : Moves env is s t)
    (hat : StandsAt env pc (assemble (is ++ [Instr.op o plain])))
    (hexec : o.execute env t = .halt outcome) (hlo : lo ≤ pc)
    (hhi : pc + codeSize (is ++ [Instr.op o plain]) ≤ hi) :
    Halts env lo hi ⟨pc, s⟩ outcome ⟨pc + codeSize is, t⟩ := by
  rw [assemble_append] at hat
  have hend : pc + codeSize is + 1 ≤ hi := by simpa [Nat.add_assoc] using hhi
  have hlast : StandsAt env (pc + codeSize is) (o.byte :: []) := hat.right
  have hruns := h lo hi pc hat.left hlo (by omega)
  refine hruns.halts ⟨.refl _, hlast.within_op plain (by omega) hend t, ?_⟩
  rw [step, perform_of_op plain hlast.getElem?_head, hexec]

end Moves

/-- Running through the listing, wherever it stands behind other instructions, takes the state `s`
to the state `t`. -/
def Executes (env : Env) (is : List Instr) (s t : State) : Prop :=
  ∀ lo hi pc, Spans env lo hi pc is → Runs env lo hi ⟨pc, s⟩ ⟨pc + codeSize is, t⟩

theorem Moves.executes {is : List Instr} {s t : State} (h : Moves env is s t) :
    Executes env is s t :=
  fun lo hi pc hspan => h lo hi pc hspan.standsAt hspan.lo_le hspan.le_hi

theorem Computes.executes {is : List Instr} {top top' : List Word}
    (h : Computes env m σ is top top') (base : List Word) :
    Executes env is ⟨top ++ base, m, σ⟩ ⟨top' ++ base, m, σ⟩ :=
  (h.moves base).executes

namespace Executes

variable {is js : List Instr} {s t u : State}

theorem nil (s : State) : Executes env [] s s := (Moves.nil s).executes

theorem append (h : Executes env is s t) (h' : Executes env js t u) :
    Executes env (is ++ js) s u := by
  intro lo hi pc hspan
  have hruns := (h lo hi pc hspan.left).trans (h' lo hi _ hspan.right)
  simpa [Nat.add_assoc] using hruns

theorem cons {i : Instr} (h : Executes env [i] s t) (h' : Executes env is t u) :
    Executes env (i :: is) s u :=
  append h h'

theorem op (h : o.execute env s = .next t) : Executes env [.op o plain] s t :=
  (Moves.op h).executes

theorem push (bytes : List UInt8) (fits : bytes.length ≤ 32) (s : State) :
    Executes env [.push bytes fits] s (s.withStack (wordOf bytes :: s.stack)) :=
  (Computes.push bytes fits []).executes s.stack

theorem ofBytes {bytes : List UInt8} (h : bytes.length ≤ 32) (stack : List Word) (m : Memory)
    (σ : Storage) : Executes env [.ofBytes bytes] ⟨stack, m, σ⟩ ⟨wordOf bytes :: stack, m, σ⟩ :=
  (Computes.ofBytes h []).executes stack

theorem pushNat {n : Nat} (h : n < 2 ^ 256) (stack : List Word) (m : Memory) (σ : Storage) :
    Executes env [.pushNat n] ⟨stack, m, σ⟩ ⟨BitVec.ofNat 256 n :: stack, m, σ⟩ :=
  (Computes.pushNat h []).executes stack

/-- Straight code in front of an instruction that ends the execution. -/
theorem halts {outcome : Halt} {lo hi pc : Nat} (h : Executes env is s t)
    (hspan : Spans env lo hi pc (is ++ .op o plain :: js))
    (hexec : o.execute env t = .halt outcome) :
    Halts env lo hi ⟨pc, s⟩ outcome ⟨pc + codeSize is, t⟩ :=
  (h lo hi pc hspan.left).halts (hspan.right.halts hexec)

end Executes

end ContractKit.Evm
