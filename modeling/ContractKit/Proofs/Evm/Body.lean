import ContractKit.Proofs.Evm.ExprStack

/-!
# The code of a body keeps its meaning

Running through the code of a supported expression pushes its value and does nothing else.
Running through the code of supported statements either arrives behind it, with the storage
that the statements leave and the same stack and memory, or returns what they return.
-/

namespace ContractKit.Evm

open Source

variable {env : Env} {S : Scope}

/-! ## Expressions -/

theorem executes_slotWord {slot : Int} (h : 0 ≤ slot ∧ slot < 2 ^ 256) (stack : List Word)
    (m : Memory) (σ : Storage) :
    Executes env [.pushNat slot.toNat] ⟨stack, m, σ⟩ ⟨slotWord slot :: stack, m, σ⟩ :=
  (computes_slotWord h []).executes stack

theorem executes_slot (hS : S.Fits) {x : String} {slot : Int} (h : S.slot? x = some slot)
    (s : State) :
    Executes env [.pushNat slot.toNat] s (s.withStack (slotWord slot :: s.stack)) :=
  executes_slotWord (hS.slot x slot h) s.stack s.memory s.storage

theorem executes_zero (stack : List Word) (m : Memory) (σ : Storage) :
    Executes env [.pushNat 0] ⟨stack, m, σ⟩ ⟨0 :: stack, m, σ⟩ :=
  .pushNat (by norm_num) stack m σ

/-- Running through the code of a supported expression pushes its value. -/
theorem executes_exprCode (hS : S.Fits) {expr : Expr} (h : SupportedExpr expr) (s : State) :
    Executes env (exprCode S expr) s
      (s.withStack (evalExpr S env.data s.storage expr :: s.stack)) := by
  have hcode := @computes_exprCode env S s.memory s.storage hS expr h.fits
  rw [exprStack_of_supported h] at hcode
  exact hcode.executes s.stack

/-! ## Jumps -/

section Jumps

variable {lo hi pc target : Nat} {is : List Instr}

theorem toNat_target (h : target < 65536) : (wordOf (bigEndianBytes 2 target)).toNat = target := by
  rw [toNat_wordOf (by simp)]
  exact bigEndian_bigEndianBytes_of_lt (by simpa using h)

theorem runs_jump (hspan : Spans env lo hi pc (.pushTarget target :: .op .jump :: is))
    (hdest : isJumpDest env.code target = true) (hlt : target < 65536) (s : State) :
    Runs env lo hi ⟨pc, s⟩ ⟨target, s⟩ := by
  have hpush := Executes.push _ _ s lo hi pc hspan.head
  have hjump := execute_jump env s.stack s.memory s.storage (wordOf (bigEndianBytes 2 target))
  rw [toNat_target hlt] at hjump
  exact hpush.trans (hspan.tail.runs_jump hjump hdest)

/-- A conditional jump leads to its target unless the condition is zero. -/
theorem runs_jumpI_taken (hspan : Spans env lo hi pc (.pushTarget target :: .op .jumpI :: is))
    (hdest : isJumpDest env.code target = true) (hlt : target < 65536) {c : Word} (hc : c ≠ 0)
    (rest : List Word) (m : Memory) (σ : Storage) :
    Runs env lo hi ⟨pc, ⟨c :: rest, m, σ⟩⟩ ⟨target, ⟨rest, m, σ⟩⟩ := by
  have hpush := Executes.push _ _ ⟨c :: rest, m, σ⟩ lo hi pc hspan.head
  have hjump := execute_jumpI env rest m σ (wordOf (bigEndianBytes 2 target)) hc
  rw [toNat_target hlt] at hjump
  exact hpush.trans (hspan.tail.runs_jump hjump hdest)

/-- A conditional jump whose condition is zero goes on behind it. -/
theorem executes_jumpI_passed (target : Nat) (rest : List Word) (m : Memory) (σ : Storage) :
    Executes env [.pushTarget target, .op .jumpI] ⟨0 :: rest, m, σ⟩ ⟨rest, m, σ⟩ :=
  .cons (.push _ _ _) (.op rfl)

end Jumps

/-! ## Statements -/

/-- From a frame the machine does what statements do: it arrives at the position behind
them with the storage they leave, or it ends with the data they return. -/
def Follows (env : Env) (lo hi : Nat) (f : Frame) (stop : Nat) :
    Storage × Option (List UInt8) → Prop
  | (σ, none) => Runs env lo hi f ⟨stop, { f.state with storage := σ }⟩
  | (σ, some returned) =>
    ∃ last, Halts env lo hi f (.returned returned) last ∧ last.state.storage = σ

/-- The code of a statement does what the statement means. -/
def StmtFollowed (env : Env) (S : Scope) (stmt : Stmt) : Prop :=
  ∀ {lo hi pc : Nat} {code : List Instr} {s : State}, stmtCode S pc stmt = some code →
    SupportedStmt stmt → Spans env lo hi pc code →
    Follows env lo hi ⟨pc, s⟩ (pc + codeSize code) (execStmt S env.data s.storage stmt)

/-- The code of statements does what they mean. -/
def StmtsFollowed (env : Env) (S : Scope) (stmts : List Stmt) : Prop :=
  ∀ {lo hi pc : Nat} {code : List Instr} {s : State}, stmtsCode S pc stmts = some code →
    SupportedStmts stmts → Spans env lo hi pc code →
    Follows env lo hi ⟨pc, s⟩ (pc + codeSize code) (execStmts S env.data s.storage stmts)

theorem stmtFollowed_assign (hS : S.Fits) (target value : Expr) :
    StmtFollowed env S (.assign [target] value) := by
  intro lo hi pc code s hcode hsup hspan
  simp only [stmtCode, Option.some.injEq] at hcode
  subst hcode
  obtain ⟨htarget, hvalue⟩ := hsup
  simp only [execStmt]
  -- Every target is stored to by straight code or by none.
  suffices hexec : Executes env (assignCode S target value) s
      { s with storage := execAssign S env.data s.storage target value } from
    hexec lo hi pc hspan
  have hval : Executes env (exprCode S value) s _ := executes_exprCode hS hvalue s
  unfold SupportedTarget at htarget
  split at htarget
  case h_1 field =>
    simp only [assignCode, execAssign]
    cases hk : S.slot? field with
    | none => exact .nil s
    | some slot => exact hval.append (.cons (executes_slot hS hk _) (.op rfl))
  case h_2 field index =>
    simp only [assignCode, execAssign]
    cases hk : S.slot? field with
    | none => exact .nil s
    | some slot =>
      exact (hval.append (executes_exprCode hS htarget _)).append
        (.cons (executes_slot hS hk _) (.cons (.op rfl) (.op rfl)))
  case h_3 => exact htarget.elim

section Returns

variable {lo hi pc : Nat}

/-- The word on the stack is returned as its bytes, wherever the code for it stands. -/
theorem halts_returnWord_at (w : Word) (rest : List Word) (m : Memory) (σ : Storage)
    (hat : StandsAt env pc (assemble returnWordCode)) (hlo : lo ≤ pc)
    (hhi : pc + codeSize returnWordCode ≤ hi) :
    ∃ last, Halts env lo hi ⟨pc, ⟨w :: rest, m, σ⟩⟩ (.returned (bytesOf w)) last ∧
      last.state.storage = σ := by
  have hstart : Moves env [.pushNat 0] ⟨w :: rest, m, σ⟩ ⟨0 :: w :: rest, m, σ⟩ :=
    (computes_zero []).moves (w :: rest)
  have hstore : Moves env [.op .mstore] ⟨0 :: w :: rest, m, σ⟩ ⟨rest, m.write 0 (bytesOf w), σ⟩ :=
    .op (execute_mstore env rest m σ 0 w)
  have hpushes : Computes env (m.write 0 (bytesOf w)) σ [.pushNat 32, .pushNat 0] [] [0, 32] :=
    .cons (.pushNat (by norm_num) []) (computes_zero _)
  have hmoves : Moves env [.pushNat 0, .op .mstore, .pushNat 32, .pushNat 0]
      ⟨w :: rest, m, σ⟩ ⟨0 :: 32 :: rest, m.write 0 (bytesOf w), σ⟩ :=
    .cons hstart (.cons hstore (hpushes.moves rest))
  have hread : (m.write 0 (bytesOf w)).read 0 32 = bytesOf w := by
    simpa only [length_bytesOf] using m.read_write 0 (bytesOf w)
  have hret : Opcode.return_.execute env ⟨0 :: 32 :: rest, m.write 0 (bytesOf w), σ⟩ =
      .halt (.returned (bytesOf w)) := by
    rw [execute_return, show (0 : Word).toNat = 0 from rfl, show (32 : Word).toNat = 32 from rfl,
      hread]
  exact ⟨_, hmoves.halts hat hret hlo hhi, rfl⟩

theorem halts_returnWord (w : Word) (rest : List Word) (m : Memory) (σ : Storage)
    (hspan : Spans env lo hi pc returnWordCode) :
    ∃ last, Halts env lo hi ⟨pc, ⟨w :: rest, m, σ⟩⟩ (.returned (bytesOf w)) last ∧
      last.state.storage = σ :=
  halts_returnWord_at w rest m σ hspan.standsAt hspan.lo_le hspan.le_hi

theorem halts_returnEmpty_at (s : State) (hat : StandsAt env pc (assemble returnEmptyCode))
    (hlo : lo ≤ pc) (hhi : pc + codeSize returnEmptyCode ≤ hi) :
    ∃ last, Halts env lo hi ⟨pc, s⟩ (.returned []) last ∧ last.state.storage = s.storage := by
  have hpushes : Computes env s.memory s.storage [.pushNat 0, .pushNat 0] [] [0, 0] :=
    .cons (computes_zero []) (computes_zero _)
  exact ⟨_, (hpushes.moves s.stack).halts hat rfl hlo hhi, rfl⟩

theorem halts_returnEmpty (s : State) (hspan : Spans env lo hi pc returnEmptyCode) :
    ∃ last, Halts env lo hi ⟨pc, s⟩ (.returned []) last ∧ last.state.storage = s.storage :=
  halts_returnEmpty_at s hspan.standsAt hspan.lo_le hspan.le_hi

end Returns

theorem stmtFollowed_ret (hS : S.Fits) (value : Expr) :
    StmtFollowed env S (.ret (some value)) := by
  intro lo hi pc code s hcode hsup hspan
  simp only [stmtCode, Option.some.injEq] at hcode
  subst hcode
  have hval := executes_exprCode hS hsup s lo hi pc hspan.left
  obtain ⟨last, hhalts, hstorage⟩ := halts_returnWord _ s.stack s.memory s.storage hspan.right
  simp only [execStmt]
  exact ⟨last, hval.halts hhalts, hstorage⟩

/-- A branch ends behind the place where its parts join. -/
theorem stop_branchCode (pc : Nat) (test body orelse : List Instr) :
    pc + codeSize (branchCode pc test body orelse) = endTarget pc test body orelse + 1 := by
  simp only [branchCode, endTarget, elseTarget, codeSize_append, codeSize_cons, codeSize_nil,
    Instr.length_encode_op, Instr.length_encode_pushTarget]
  omega

theorem Spans.branch {lo hi pc : Nat} {test body orelse : List Instr}
    (h : Spans env lo hi pc (branchCode pc test body orelse)) :
    Spans env lo hi pc (test ++ [Instr.op .isZero]) ∧
    Spans env lo hi (pc + codeSize test + 1)
      [.pushTarget (elseTarget pc test body), .op .jumpI] ∧
    Spans env lo hi (pc + codeSize test + 5) body ∧
    Spans env lo hi (pc + codeSize test + 5 + codeSize body)
      [.pushTarget (endTarget pc test body orelse), .op .jump] ∧
    Spans env lo hi (elseTarget pc test body) (.op .jumpDest :: orelse) ∧
    Spans env lo hi (endTarget pc test body orelse) [.op .jumpDest] := by
  have hcode : branchCode pc test body orelse =
      (test ++ [Instr.op .isZero]) ++ ([Instr.pushTarget (elseTarget pc test body), .op .jumpI] ++
        (body ++ ([Instr.pushTarget (endTarget pc test body orelse), .op .jump] ++
          ((Instr.op .jumpDest :: orelse) ++ [Instr.op .jumpDest])))) := by
    simp [branchCode]
  rw [hcode] at h
  have hjump := h.right
  have hbody := hjump.right
  have hexit := hbody.right
  have helse := hexit.right
  have hend := helse.right
  simp only [codeSize_append, codeSize_cons, codeSize_nil, Instr.length_encode_op,
    Instr.length_encode_pushTarget, ← Nat.add_assoc] at hjump hbody hexit helse hend
  refine ⟨h.left, hjump.left, hbody.left, hexit.left, ?_, ?_⟩
  · exact helse.left
  · simpa only [endTarget, elseTarget] using hend

/-- A run that changes no more than the storage can stand in front of statements. -/
theorem Follows.of_runs {lo hi pc pc' stop : Nat} {s : State} {σ : Storage}
    {r : Storage × Option (List UInt8)}
    (hrun : Runs env lo hi ⟨pc, s⟩ ⟨pc', { s with storage := σ }⟩)
    (h : Follows env lo hi ⟨pc', { s with storage := σ }⟩ stop r) :
    Follows env lo hi ⟨pc, s⟩ stop r := by
  obtain ⟨σ', _ | returned⟩ := r
  · exact Runs.trans hrun h
  · obtain ⟨last, hhalts, hstorage⟩ := h
    exact ⟨last, hrun.halts hhalts, hstorage⟩

/-- Where statements end the execution may go on without changing the state. -/
theorem Follows.of_stop {lo hi stop stop' : Nat} {f : Frame} {r : Storage × Option (List UInt8)}
    (h : Follows env lo hi f stop r)
    (hrun : ∀ s, Runs env lo hi ⟨stop, s⟩ ⟨stop', s⟩) : Follows env lo hi f stop' r := by
  obtain ⟨σ', _ | returned⟩ := r
  · exact Runs.trans h (hrun _)
  · exact h

theorem runs_jumpDest {lo hi pc : Nat} (hspan : Spans env lo hi pc [.op .jumpDest]) (s : State) :
    Runs env lo hi ⟨pc, s⟩ ⟨pc + 1, s⟩ :=
  Executes.op rfl lo hi pc hspan

/-- How the machine goes through a branch: behind the test one of the parts is entered, and from
the end of either part the end of the branch is reached. -/
structure BranchRuns (env : Env) (lo hi pc : Nat) (test body orelse : List Instr) : Prop where
  bodySpan : Spans env lo hi (pc + codeSize test + 5) body
  elseSpan : Spans env lo hi (elseTarget pc test body + 1) orelse
  enterBody : ∀ {s : State} {rest : List Word} {m : Memory} {σ : Storage},
    Executes env (test ++ [Instr.op .isZero]) s ⟨0 :: rest, m, σ⟩ →
    Runs env lo hi ⟨pc, s⟩ ⟨pc + codeSize test + 5, ⟨rest, m, σ⟩⟩
  leaveBody : ∀ t : State, Runs env lo hi ⟨pc + codeSize test + 5 + codeSize body, t⟩
    ⟨pc + codeSize (branchCode pc test body orelse), t⟩
  enterElse : ∀ {s : State} {w : Word} {rest : List Word} {m : Memory} {σ : Storage}, w ≠ 0 →
    Executes env (test ++ [Instr.op .isZero]) s ⟨w :: rest, m, σ⟩ →
    Runs env lo hi ⟨pc, s⟩ ⟨elseTarget pc test body + 1, ⟨rest, m, σ⟩⟩
  leaveElse : ∀ t : State, Runs env lo hi ⟨elseTarget pc test body + 1 + codeSize orelse, t⟩
    ⟨pc + codeSize (branchCode pc test body orelse), t⟩

theorem branchRuns_of_spans {lo hi pc : Nat} {test body orelse : List Instr}
    (h : Spans env lo hi pc (branchCode pc test body orelse))
    (hlt : endTarget pc test body orelse < 65536) : BranchRuns env lo hi pc test body orelse := by
  obtain ⟨htestSpan, hjumpSpan, hbodySpan, hexitSpan, helseSpan, hendSpan⟩ := h.branch
  have htest : ∀ {s t : State}, Executes env (test ++ [Instr.op .isZero]) s t →
      Runs env lo hi ⟨pc, s⟩ ⟨pc + codeSize test + 1, t⟩ := by
    intro s t hexec
    have hrun := hexec lo hi pc htestSpan
    simpa only [codeSize_append, codeSize_cons, codeSize_nil, Instr.length_encode_op,
      ← Nat.add_assoc] using hrun
  refine ⟨hbodySpan, helseSpan.tail, ?_, ?_, ?_, ?_⟩
  · intro s rest m σ hexec
    exact (htest hexec).trans (executes_jumpI_passed _ rest m σ lo hi _ hjumpSpan)
  · intro t
    rw [stop_branchCode]
    exact (runs_jump hexitSpan hendSpan.isJumpDest hlt t).trans (runs_jumpDest hendSpan t)
  · intro s w rest m σ hw hexec
    have helse : elseTarget pc test body < 65536 := by
      simp only [endTarget] at hlt
      omega
    have hjump := runs_jumpI_taken hjumpSpan helseSpan.isJumpDest helse hw rest m σ
    exact ((htest hexec).trans hjump).trans (runs_jumpDest helseSpan.head _)
  · intro t
    rw [stop_branchCode]
    exact runs_jumpDest hendSpan t

theorem stmtFollowed_ifThen (hS : S.Fits) {test : Expr} {body orelse : List Stmt}
    (hbody : StmtsFollowed env S body) (horelse : StmtsFollowed env S orelse) :
    StmtFollowed env S (.ifThen test body orelse) := by
  intro lo hi pc code s hcode hsup hspan
  obtain ⟨hsupTest, hsupBody, hsupElse⟩ := hsup
  obtain ⟨bodyCode, elseCode, hbodyCode, helseCode, hlt, rfl⟩ := stmtCode_ifThen_eq_some.mp hcode
  have hbranch := branchRuns_of_spans hspan hlt
  -- Up to the conditional jump: the word that says whether the test is zero.
  have htest : Executes env (exprCode S test ++ [Instr.op .isZero]) s
      (s.withStack (flag (evalExpr S env.data s.storage test = 0) :: s.stack)) :=
    (executes_exprCode hS hsupTest s).append (.op rfl)
  simp only [execStmt]
  split
  case isTrue hzero =>
    have hcond : flag (evalExpr S env.data s.storage test = 0) ≠ 0 := by simp [flag, hzero]
    have helse := horelse (s := s) helseCode hsupElse hbranch.elseSpan
    exact .of_runs (hbranch.enterElse hcond htest) (helse.of_stop hbranch.leaveElse)
  case isFalse hzero =>
    have hcond : flag (evalExpr S env.data s.storage test = 0) = 0 := (flag_eq_zero _).mpr hzero
    rw [hcond] at htest
    have hthen := hbody (s := s) hbodyCode hsupBody hbranch.bodySpan
    exact .of_runs (hbranch.enterBody htest) (hthen.of_stop hbranch.leaveBody)

/-- The code of supported statements does what they mean. -/
theorem stmtsFollowed (hS : S.Fits) (stmts : List Stmt) : StmtsFollowed env S stmts := by
  refine (compileStmt.mutual_induct (StmtFollowed env S) (StmtsFollowed env S)
    ?assign ?ret ?retNone ?branch ?other ?nil ?cons).2 stmts
  case assign => exact stmtFollowed_assign hS
  case ret => exact stmtFollowed_ret hS
  case retNone =>
    intro lo hi pc code s hcode _ hspan
    simp only [stmtCode, Option.some.injEq] at hcode
    subst hcode
    simp only [execStmt]
    exact halts_returnEmpty s hspan
  case branch => exact fun _ _ _ => stmtFollowed_ifThen hS
  case other =>
    intro stmt h₁ h₂ h₃ h₄ lo hi pc code s hcode _ _
    rw [stmtCode, Option.some.injEq] at hcode <;> try assumption
    subst hcode
    rw [execStmt] <;> try assumption
    exact .refl _
  case nil =>
    intro lo hi pc code s hcode _ _
    simp only [stmtsCode, Option.some.injEq] at hcode
    subst hcode
    exact .refl _
  case cons =>
    intro stmt rest hstmt hrest lo hi pc code s hcode hsup hspan
    obtain ⟨first, others, hfirst, hothers, rfl⟩ := stmtsCode_cons_eq_some.mp hcode
    have hrun := hstmt (s := s) hfirst hsup.1 hspan.left
    simp only [execStmts]
    cases hexec : execStmt S env.data s.storage stmt with
    | mk σ returned =>
    rw [hexec] at hrun
    cases returned with
    | some returned => exact hrun
    | none =>
      have hmore := hrest (s := { s with storage := σ }) hothers hsup.2 hspan.right
      rw [codeSize_append, ← Nat.add_assoc]
      exact .of_runs hrun hmore

end ContractKit.Evm
