import ContractKit.Proofs.Evm.Turning
import ContractKit.Proofs.Source.Parts

/-!
# Listings of expressions and statements

The code of an expression and of statements, written down without an emitter.  An
expression has the same code everywhere; a branch jumps to absolute positions, so the code
of a statement depends on where it begins, and there is none if a position does not fit
into the two bytes of a jump target.

The compiler writes these listings: placeholders and patches have left no trace once a
statement is complete.  This needs that every literal, slot and argument offset fits into a
word, for no instruction pushes more.
-/

namespace ContractKit.Evm

open Source

variable {expr target test value : Expr}

/-- Where the variables of a contract and the arguments of a call are found. -/
structure Scope where
  slot? : String → Option Int
  args : ArgMap

/-- All slots and all positions of arguments in the call data are words. -/
structure Scope.Fits (S : Scope) : Prop where
  slot : ∀ x k, S.slot? x = some k → 0 ≤ k ∧ k < 2 ^ 256
  offset : ∀ x i, Assoc.get? x S.args = some i → 0 ≤ i ∧ argumentOffset i < 2 ^ 256

/-! ## Expressions -/

/-- The code of a binary operator behind that of its operands. -/
def binaryCode : BinaryOp → List Instr
  | .add => [.op .add]
  | .sub => [.op .sub]
  | .mult => [.op .mul]
  | .div => [.op .div]
  | .mod => [.op .mod]
  | _ => []

/-- The code of a comparison behind that of its operands. -/
def compareCode : CompareOp → List Instr
  | .eq => [.op .eq]
  | .lt => [.op .swap1, .op .lt]
  | .gt => [.op .swap1, .op .gt]
  | .ltE => [.op .swap1, .op .gt, .op .isZero]
  | .gtE => [.op .swap1, .op .lt, .op .isZero]
  | _ => []

def exprCode (S : Scope) : Expr → List Instr
  | .literal v => [.ofBytes (pushedBytes (.ofLiteral v))]
  | .name x =>
    match Assoc.get? x S.args with
    | some index => [.pushNat (argumentOffset index).toNat, .op .callDataLoad]
    | none => [.pushNat 0]
  | .attribute (.name "self") field =>
    match S.slot? field with
    | some slot => [.pushNat slot.toNat, .op .sload]
    | none => [.pushNat 0]
  | .subscript (.attribute (.name "self") field) index =>
    match S.slot? field with
    | some slot => exprCode S index ++ [Instr.pushNat slot.toNat, .op .add, .op .sload]
    | none => [.pushNat 0]
  | .binary left op right => exprCode S left ++ exprCode S right ++ binaryCode op
  | .compare left op right [] => exprCode S left ++ exprCode S right ++ compareCode op
  | .compare left _ _ _ => exprCode S left
  | _ => [.pushNat 0]

/-- The literals of an expression that are compiled fit into a word. -/
def ExprFits : Expr → Prop
  | .literal v => (Value.ofLiteral v).FitsWord
  | .subscript (.attribute (.name "self") _) index => ExprFits index
  | .binary left _ right => ExprFits left ∧ ExprFits right
  | .compare left _ right [] => ExprFits left ∧ ExprFits right
  | .compare left _ _ _ => ExprFits left
  | _ => True

/-! ## Statements -/

def returnWordCode : List Instr :=
  [.pushNat 0, .op .mstore, .pushNat 32, .pushNat 0, .op .return_]

def returnEmptyCode : List Instr := [.pushNat 0, .pushNat 0, .op .return_]

def assignCode (S : Scope) (target value : Expr) : List Instr :=
  match target with
  | .attribute (.name "self") field =>
    match S.slot? field with
    | some slot => exprCode S value ++ [Instr.pushNat slot.toNat, .op .sstore]
    | none => []
  | .subscript (.attribute (.name "self") field) index =>
    match S.slot? field with
    | some slot =>
      exprCode S value ++ exprCode S index ++ [Instr.pushNat slot.toNat, .op .add, .op .sstore]
    | none => []
  | _ => []

/-- Where the second part of a branch begins, given where the branch does. -/
def elseTarget (start : Nat) (test body : List Instr) : Nat :=
  start + codeSize test + 5 + codeSize body + 4

/-- Where a branch ends, given where it begins. -/
def endTarget (start : Nat) (test body orelse : List Instr) : Nat :=
  elseTarget start test body + 1 + codeSize orelse

/-- The code of a branch made from that of its parts. -/
def branchCode (start : Nat) (test body orelse : List Instr) : List Instr :=
  test ++ [Instr.op .isZero, .pushTarget (elseTarget start test body), .op .jumpI] ++ body ++
    [Instr.pushTarget (endTarget start test body orelse), .op .jump, .op .jumpDest] ++ orelse ++
    [Instr.op .jumpDest]

mutual

/-- The code of a statement that begins at a position. -/
def stmtCode (S : Scope) (start : Nat) : Stmt → Option (List Instr)
  | .assign [target] value => some (assignCode S target value)
  | .ret (some value) => some (exprCode S value ++ returnWordCode)
  | .ret none => some returnEmptyCode
  | .ifThen test body orelse =>
    (stmtsCode S (start + codeSize (exprCode S test) + 5) body).bind fun bodyCode =>
      (stmtsCode S (elseTarget start (exprCode S test) bodyCode + 1) orelse).bind
        fun elseCode =>
          if endTarget start (exprCode S test) bodyCode elseCode < 65536 then
            some (branchCode start (exprCode S test) bodyCode elseCode)
          else none
  | _ => some []

/-- The code of statements that begin at a position. -/
def stmtsCode (S : Scope) (start : Nat) : List Stmt → Option (List Instr)
  | [] => some []
  | s :: rest =>
    (stmtCode S start s).bind fun code =>
      (stmtsCode S (start + codeSize code) rest).map (code ++ ·)

end

theorem stmtCode_ifThen_eq_some {S : Scope} {start : Nat} {body orelse : List Stmt}
    {code : List Instr} :
    stmtCode S start (.ifThen test body orelse) = some code ↔
      ∃ bodyCode elseCode,
        stmtsCode S (start + codeSize (exprCode S test) + 5) body = some bodyCode ∧
        stmtsCode S (elseTarget start (exprCode S test) bodyCode + 1) orelse = some elseCode ∧
        endTarget start (exprCode S test) bodyCode elseCode < 65536 ∧
        branchCode start (exprCode S test) bodyCode elseCode = code := by
  simp only [stmtCode, Option.bind_eq_some_iff, Option.ite_none_right_eq_some, Option.some.injEq,
    exists_and_left]

theorem stmtsCode_cons_eq_some {S : Scope} {start : Nat} {s : Stmt} {rest : List Stmt}
    {code : List Instr} :
    stmtsCode S start (s :: rest) = some code ↔
      ∃ first others, stmtCode S start s = some first ∧
        stmtsCode S (start + codeSize first) rest = some others ∧ first ++ others = code := by
  simp only [stmtsCode, Option.bind_eq_some_iff, Option.map_eq_some_iff, exists_and_left]

/-- The literals of an assignment that are compiled fit into a word. -/
def AssignFits (target value : Expr) : Prop :=
  match target with
  | .attribute (.name "self") _ => ExprFits value
  | .subscript (.attribute (.name "self") _) index => ExprFits value ∧ ExprFits index
  | _ => True

mutual

/-- The literals of a statement that are compiled fit into a word. -/
def StmtFits : Stmt → Prop
  | .assign [target] value => AssignFits target value
  | .ret (some value) => ExprFits value
  | .ifThen test body orelse => ExprFits test ∧ StmtsFit body ∧ StmtsFit orelse
  | _ => True

/-- The literals of statements that are compiled fit into a word. -/
def StmtsFit : List Stmt → Prop
  | [] => True
  | s :: rest => StmtFits s ∧ StmtsFit rest

end

/-! ## What the compiler writes -/

variable {sound : Prop} {S : Scope} {start : Nat} {is : List Instr} {e e' : Emitter} {u : Unit}

/-- The literals of an expression that are compiled can be pushed. -/
def ExprPushable : Expr → Prop
  | .literal v => (Value.ofLiteral v).Pushable
  | .subscript (.attribute (.name "self") _) index => ExprPushable index
  | .binary left _ right => ExprPushable left ∧ ExprPushable right
  | .compare left _ right [] => ExprPushable left ∧ ExprPushable right
  | .compare left _ _ _ => ExprPushable left
  | _ => True

theorem turns_compare (op : CompareOp) :
    Turns sound S.slot? start [] (emitOps (compareOpcodes op)) () (compareCode op) True := by
  cases op
  case eq => exact (Turns.op _ _).seq (.pure ())
  case lt | gt => exact (Turns.op _ _).seq ((Turns.op _ _).seq (.pure ()))
  case ltE | gtE => exact (Turns.op _ _).seq ((Turns.op _ _).seq ((Turns.op _ _).seq (.pure ())))
  all_goals exact .pure ()

theorem turns_binary (op : BinaryOp) :
    Turns sound S.slot? start [] (match binaryOpcode? op with
      | some op => emitOp op
      | none => return () : Emit Unit) () (binaryCode op) True := by
  cases op
  case add | sub | mult | div | mod => exact .op _ _
  all_goals exact .pure ()

theorem turns_slot (hS : S.Fits) {field : String} {slot : Int} (hk : S.slot? field = some slot) :
    Turns sound S.slot? start is (emitInt slot) () (is ++ [.pushNat slot.toNat]) True :=
  .int (hS.slot field slot hk).2 fun _ => (hS.slot field slot hk).1

/-- Parts whose literals can all be pushed. -/
def Pushables (ps : List Part) : Prop := ∀ v, .literal v ∈ ps → (Value.ofLiteral v).Pushable

namespace Pushables

variable {ps ps' : List Part}

theorem mono (h : Pushables ps') (hps : ps.Sublist ps') : Pushables ps :=
  fun v hv => h v (hps.subset hv)

theorem tail (h : Pushables (.node :: ps)) : Pushables ps :=
  h.mono (List.sublist_cons_self _ _)

theorem append_left (h : Pushables (ps ++ ps')) : Pushables ps :=
  h.mono (List.sublist_append_left _ _)

theorem append_right (h : Pushables (ps ++ ps')) : Pushables ps' :=
  h.mono (List.sublist_append_right _ _)

theorem exprPushable (h : Pushables expr.parts) : ExprPushable expr := by
  fun_induction ExprPushable expr with
  | case1 v => exact h v List.mem_cons_self
  | case2 field index ih => exact ih h.tail.append_right
  | case3 left op right ihl ihr => exact ⟨ihl h.tail.append_left, ihr h.tail.append_right⟩
  | case4 left op right ihl ihr =>
    exact ⟨ihl h.tail.append_left.append_left, ihr h.tail.append_left.append_right⟩
  | case5 left op right more hmore ih => exact ih h.tail.append_left.append_left
  | case6 => trivial

end Pushables

/-- The code of an expression is what the compiler writes for it. -/
theorem turns_compileExpr (hS : S.Fits) (hfit : ¬sound → ExprFits expr)
    (hs : sound → ExprPushable expr) :
    Turns sound S.slot? start [] (compileExpr S.args expr) () (exprCode S expr) True := by
  fun_induction compileExpr S.args expr generalizing start with
  | case1 v =>
    rw [exprCode]
    refine .push ?_ fun h => operand_of_pushable (hs h)
    by_cases h : sound
    · exact (hs h).fitsWord
    · exact hfit h
  | case2 x index hget =>
    obtain ⟨hpos, hlt⟩ := hS.offset x index hget
    have hoffset : 0 ≤ argumentOffset index := by
      simp only [argumentOffset]
      omega
    simp only [exprCode, hget]
    exact (Turns.int hlt fun _ => hoffset).seq (.op _ _)
  | case3 x hget =>
    simp only [exprCode, hget]
    exact .zero
  -- What is compiled for a variable depends on its slot, which no operation before has changed.
  | case4 field =>
    refine .get fun e hslot => ?_
    simp only [exprCode, hslot]
    cases hk : S.slot? field with
    | none => exact .zero
    | some slot => exact (turns_slot hS hk).seq (.op _ _)
  | case5 field index ih =>
    refine .get fun e hslot => ?_
    simp only [exprCode, hslot]
    cases hk : S.slot? field with
    | none => exact .zero
    | some slot =>
      exact ((ih hfit hs).seq ((turns_slot hS hk).seq ((Turns.op _ _).seq (.op _ _)))).congr
        (by simp) .rfl
  | case6 left op right ihl ihr =>
    rw [exprCode]
    exact (ihl (fun h => (hfit h).1) fun h => (hs h).1).seq
      (((ihr (fun h => (hfit h).2) fun h => (hs h).2).behind rfl).seq
        ((turns_binary op).behind rfl))
  | case7 left op right ihl ihr =>
    rw [exprCode]
    exact (ihl (fun h => (hfit h).1) fun h => (hs h).1).seq
      (((ihr (fun h => (hfit h).2) fun h => (hs h).2).behind rfl).seq
        ((turns_compare op).behind rfl))
  | case8 left op right more hmore ih =>
    rw [exprCode]
    · exact ih (by simpa [ExprFits] using hfit) (by simpa [ExprPushable] using hs)
    · exact hmore
  | case9 t h1 h2 h3 h4 h5 h6 h7 =>
    rw [exprCode]
    · exact .zero
    all_goals assumption

theorem wrote_compileExpr (hS : S.Fits) (hfit : ExprFits expr) (hslot : e.slot? = S.slot?)
    (h : compileExpr S.args expr e = .ok u e') : Wrote e (assemble (exprCode S expr)) e' :=
  ((turns_compileExpr hS (fun _ => hfit) False.elim).ok hslot h).2.2

/-- An expression whose literals can be pushed is compiled. -/
theorem succeeds_compileExpr (hS : S.Fits) (h : ExprPushable expr) (e : Emitter)
    (hslot : e.slot? = S.slot?) : ∃ e', compileExpr S.args expr e = .ok () e' := by
  obtain ⟨-, e', hok, -⟩ | ⟨hfalse, -⟩ :=
    (turns_compileExpr hS (fun hn => (hn trivial).elim) fun _ => h).or hslot rfl
  · exact ⟨e', hok⟩
  · exact (hfalse trivial).elim

theorem turns_returnWord {slot? : String → Option Int} :
    Turns sound slot? start is emitReturnWord () (is ++ returnWordCode) True :=
  (Turns.zero.seq ((Turns.op _ _).seq ((Turns.int (by norm_num) (by simp)).seq
    (Turns.zero.seq (.op _ _))))).congr (by simp; rfl) .rfl

theorem turns_returnEmpty {slot? : String → Option Int} :
    Turns sound slot? start is emitReturnEmpty () (is ++ returnEmptyCode) True :=
  (Turns.zero.seq (Turns.zero.seq (.op _ _))).congr (by simp; rfl) .rfl

theorem turns_compileAssign (hS : S.Fits) (hfit : ¬sound → AssignFits target value)
    (hs : sound → Pushables target.parts ∧ Pushables value.parts) :
    Turns sound S.slot? start [] (compileAssign S.args target value) ()
      (assignCode S target value) True := by
  unfold compileAssign
  split
  case h_1 field =>
    refine .get fun e hslot => ?_
    simp only [assignCode, hslot]
    cases hk : S.slot? field with
    | none => exact .pure ()
    | some slot =>
      exact ((turns_compileExpr hS hfit fun h => (hs h).2.exprPushable).seq
        ((turns_slot hS hk).seq (.op _ _))).congr (by simp) .rfl
  case h_2 field index =>
    refine .get fun e hslot => ?_
    simp only [assignCode, hslot]
    cases hk : S.slot? field with
    | none => exact .pure ()
    | some slot =>
      have hindex := fun h => (hs h).1.tail.append_right.exprPushable
      exact ((turns_compileExpr hS (fun h => (hfit h).1) fun h => (hs h).2.exprPushable).seq
        (((turns_compileExpr hS (fun h => (hfit h).2) hindex).behind rfl).seq
          ((turns_slot hS hk).seq ((Turns.op _ _).seq (.op _ _))))).congr (by simp) .rfl
  case h_3 hattr hsub =>
    have hnone : assignCode S target value = [] := by
      unfold assignCode
      split
      · exact (hattr _ rfl).elim
      · exact (hsub _ _ rfl).elim
      · rfl
    rw [hnone]
    exact .pure ()

theorem wrote_compileAssign (hS : S.Fits) (hfit : AssignFits target value)
    (hslot : e.slot? = S.slot?) (h : compileAssign S.args target value e = .ok u e') :
    Wrote e (assemble (assignCode S target value)) e' :=
  ((turns_compileAssign hS (fun _ => hfit) False.elim).ok hslot h).2.2

/-! ## Branches -/

/-- Writes the jump over the first part of a branch, behind its test. -/
def emitElseJump : Emit Unit := do
  emitOp .isZero
  emitTarget elsePlaceholder
  emitOp .jumpI

/-- Writes the jump to the end of a branch and the place where its second part begins. -/
def emitEndJump : Emit Unit := do
  emitTarget endPlaceholder
  emitOp .jump
  emitOp .jumpDest

theorem wrote_emitElseJump (h : emitElseJump e = .ok u e') :
    Wrote e (assemble [.op .isZero, .pushTarget elsePlaceholder, .op .jumpI]) e' := by
  obtain ⟨_, e₁, hzero, h⟩ := bind_eq_ok.mp h
  obtain ⟨_, e₂, htarget, hjump⟩ := bind_eq_ok.mp h
  exact (wrote_emitOp hzero).append ((wrote_emitTarget htarget).append (wrote_emitOp hjump))

theorem wrote_emitEndJump (h : emitEndJump e = .ok u e') :
    Wrote e (assemble [.pushTarget endPlaceholder, .op .jump, .op .jumpDest]) e' := by
  obtain ⟨_, e₁, htarget, h⟩ := bind_eq_ok.mp h
  obtain ⟨_, e₂, hjump, hdest⟩ := bind_eq_ok.mp h
  exact (wrote_emitTarget htarget).append ((wrote_emitOp hjump).append (wrote_emitOp hdest))

/-- A branch is compiled part by part, and the jumps between its parts are filled in at last. -/
theorem compile_branch {args : ArgMap} {body orelse : List Stmt}
    (h : compileStmt args (.ifThen test body orelse) e = .ok u e') :
    ∃ (e₁ e₂ e₃ e₄ e₅ e₆ e₇ : Emitter) (target : Nat), compileExpr args test e = .ok () e₁ ∧
      emitElseJump e₁ = .ok () e₂ ∧ compileStmts args body e₂ = .ok () e₃ ∧
      emitEndJump e₃ = .ok () e₄ ∧ compileStmts args orelse e₄ = .ok () e₅ ∧
      emitOp .jumpDest 0 e₅ = .ok () e₆ ∧ e₄.current.size = target + 1 ∧
      patch (e₁.current.size + 2) target 2 e₆ = .ok () e₇ ∧
      patch (e₃.current.size + 1) e₅.current.size 2 e₇ = .ok () e' := by
  simp only [compileStmt] at h
  obtain ⟨_, e₁, htest, h⟩ := bind_eq_ok.mp h
  obtain ⟨_, i₁, hzero, h⟩ := bind_eq_ok.mp h
  obtain ⟨elseJump, _, hoff, h⟩ := bind_eq_ok.mp h
  obtain ⟨rfl, rfl⟩ := offset_eq_ok.mp hoff
  obtain ⟨_, i₂, helse, h⟩ := bind_eq_ok.mp h
  obtain ⟨_, e₂, hjumpI, h⟩ := bind_eq_ok.mp h
  obtain ⟨_, e₃, hbody, h⟩ := bind_eq_ok.mp h
  obtain ⟨endJump, _, hoff, h⟩ := bind_eq_ok.mp h
  obtain ⟨rfl, rfl⟩ := offset_eq_ok.mp hoff
  obtain ⟨_, i₃, hend, h⟩ := bind_eq_ok.mp h
  obtain ⟨_, i₄, hjump, h⟩ := bind_eq_ok.mp h
  obtain ⟨target, _, hoff, h⟩ := bind_eq_ok.mp h
  obtain ⟨rfl, rfl⟩ := offset_eq_ok.mp hoff
  obtain ⟨_, e₄, hdest, h⟩ := bind_eq_ok.mp h
  obtain ⟨_, e₅, horelse, h⟩ := bind_eq_ok.mp h
  obtain ⟨endTarget, _, hoff, h⟩ := bind_eq_ok.mp h
  obtain ⟨rfl, rfl⟩ := offset_eq_ok.mp hoff
  obtain ⟨_, e₆, hlast, h⟩ := bind_eq_ok.mp h
  obtain ⟨_, e₇, hpatch, hpatch'⟩ := bind_eq_ok.mp h
  have hzeroSize : i₁.current.size = e₁.current.size + 1 := (wrote_emitOp hzero).codeSize
  refine ⟨e₁, e₂, e₃, e₄, e₅, e₆, e₇, i₄.current.size, htest,
    bind_eq_ok.mpr ⟨_, _, hzero, bind_eq_ok.mpr ⟨_, _, helse, hjumpI⟩⟩, hbody,
    bind_eq_ok.mpr ⟨_, _, hend, bind_eq_ok.mpr ⟨_, _, hjump, hdest⟩⟩, horelse, hlast,
    (wrote_emitOp hdest).codeSize, ?_, hpatch'⟩
  rw [hzeroSize, Nat.cast_add, Int.add_assoc] at hpatch
  exact hpatch


/-! ## Statements -/

mutual

/-- The instructions of a statement that begins at a position, whether its jump targets fit into
their bytes or not. -/
def stmtListing (S : Scope) (start : Nat) : Stmt → List Instr
  | .assign [target] value => assignCode S target value
  | .ret (some value) => exprCode S value ++ returnWordCode
  | .ret none => returnEmptyCode
  | .ifThen test body orelse =>
    let bodyCode := stmtsListing S (start + codeSize (exprCode S test) + 5) body
    branchCode start (exprCode S test) bodyCode
      (stmtsListing S (elseTarget start (exprCode S test) bodyCode + 1) orelse)
  | _ => []

def stmtsListing (S : Scope) (start : Nat) : List Stmt → List Instr
  | [] => []
  | s :: rest =>
    stmtListing S start s ++ stmtsListing S (start + codeSize (stmtListing S start s)) rest

end

mutual

/-- The positions that the jumps of a statement lead to: for each branch in it the beginning of its
second part and its end. -/
def stmtTargets (S : Scope) (start : Nat) : Stmt → List Nat
  | .ifThen test body orelse =>
    let bodyCode := stmtsListing S (start + codeSize (exprCode S test) + 5) body
    let middle := elseTarget start (exprCode S test) bodyCode
    stmtsTargets S (start + codeSize (exprCode S test) + 5) body ++
      stmtsTargets S (middle + 1) orelse ++
      [middle, endTarget start (exprCode S test) bodyCode (stmtsListing S (middle + 1) orelse)]
  | _ => []

def stmtsTargets (S : Scope) (start : Nat) : List Stmt → List Nat
  | [] => []
  | s :: rest =>
    stmtTargets S start s ++ stmtsTargets S (start + codeSize (stmtListing S start s)) rest

end

/-- Jump targets that fit into two bytes. -/
def TargetsFit (targets : List Nat) : Prop := ∀ t ∈ targets, t < 65536

/-- Compiling a statement writes its listing, and its jump targets fit. -/
def StmtTurns (sound : Prop) (S : Scope) (s : Stmt) : Prop :=
  (¬sound → StmtFits s) → (sound → Pushables s.parts) → ∀ start,
    Turns sound S.slot? start [] (compileStmt S.args s) () (stmtListing S start s)
      (TargetsFit (stmtTargets S start s))

/-- Compiling statements writes their listing, and their jump targets fit. -/
def StmtsTurn (sound : Prop) (S : Scope) (ss : List Stmt) : Prop :=
  (¬sound → StmtsFit ss) → (sound → Pushables (parts ss)) → ∀ start,
    Turns sound S.slot? start [] (compileStmts S.args ss) () (stmtsListing S start ss)
      (TargetsFit (stmtsTargets S start ss))

theorem stmtTurns_ifThen (hS : S.Fits) {body orelse : List Stmt} (hbody : StmtsTurn sound S body)
    (horelse : StmtsTurn sound S orelse) : StmtTurns sound S (.ifThen test body orelse) := by
  intro hfit hs start
  simp only [compileStmt, stmtListing, stmtTargets]
  have htest : Turns sound S.slot? start [] (compileExpr S.args test) () (exprCode S test) True :=
    turns_compileExpr hS (fun h => (hfit h).1) fun h =>
      (hs h).tail.append_left.append_left.exprPushable
  have hfirst := hbody (fun h => (hfit h).2.1) (fun h => (hs h).tail.append_left.append_right)
    (start + codeSize (exprCode S test) + 5)
  generalize exprCode S test = testCode at *
  generalize stmtsListing S (start + codeSize testCode + 5) body = bodyCode at *
  have hsecond := horelse (fun h => (hfit h).2.2) (fun h => (hs h).tail.append_right)
    (elseTarget start testCode bodyCode + 1)
  generalize stmtsListing S (elseTarget start testCode bodyCode + 1) orelse = elseCode at *
  -- The parts are written with placeholders, which are filled in at last.
  refine (htest.seq <| (Turns.op _ _).seq <| (Turns.offset rfl).seq <|
    (Turns.placeholder (by decide)).seq <| (Turns.op _ _).seq <| (hfirst.behind ?body).bind <|
    (Turns.offset rfl).seq <| (Turns.placeholder (by decide)).seq <| (Turns.op _ _).seq <|
    (Turns.offset (n := elseTarget start testCode bodyCode) ?middle).seq <|
    (Turns.op _ _).seq <| (hsecond.behind ?orelse).bind <|
    (Turns.offset (n := endTarget start testCode bodyCode elseCode) ?last).seq <|
    (Turns.op _ _).seq <|
    (Turns.patch (testCode ++ [Instr.op .isZero]) ([Instr.op .jumpI] ++ bodyCode ++
      [Instr.pushTarget endPlaceholder, .op .jump, .op .jumpDest] ++ elseCode ++
        [Instr.op .jumpDest]) elsePlaceholder _ (by simp) ?elsePosition).bind <|
    Turns.patch (testCode ++ [Instr.op .isZero, .pushTarget (elseTarget start testCode bodyCode),
      .op .jumpI] ++ bodyCode) ([Instr.op .jump, .op .jumpDest] ++ elseCode ++
        [Instr.op .jumpDest]) endPlaceholder _ (by simp) ?endPosition).congr
      (by simp [branchCode]) ?fits
  case fits => simp [TargetsFit, or_imp, forall_and]
  all_goals
    simp only [elseTarget, endTarget, codeSize_append, codeSize_cons, codeSize_nil,
      Instr.length_encode_op, Instr.length_encode_pushTarget]
    omega

/-- The listing of statements is what the compiler writes for them. -/
theorem stmtsTurn (sound : Prop) (hS : S.Fits) (ss : List Stmt) : StmtsTurn sound S ss := by
  refine (compileStmt.mutual_induct (StmtTurns sound S) (StmtsTurn sound S)
    ?assign ?ret ?retNone ?branch ?other ?nil ?cons).2 ss
  case assign =>
    intro target value hfit hs start
    simp only [compileStmt, stmtListing, stmtTargets]
    refine (turns_compileAssign hS hfit fun h => ?_).congr rfl (by simp [TargetsFit])
    exact ⟨(hs h).tail.append_left.append_left, (hs h).tail.append_right⟩
  case ret =>
    intro value hfit hs start
    simp only [compileStmt, stmtListing, stmtTargets]
    exact ((turns_compileExpr hS hfit fun h => (hs h).tail.exprPushable).seq
      turns_returnWord).congr rfl (by simp [TargetsFit])
  case retNone =>
    intro _ _ start
    simp only [compileStmt, stmtListing, stmtTargets]
    exact turns_returnEmpty.congr rfl (by simp [TargetsFit])
  case branch => exact fun _ _ _ => stmtTurns_ifThen hS
  case other =>
    intro s h₁ h₂ h₃ h₄ _ _ start
    rw [compileStmt, stmtListing, stmtTargets] <;> try assumption
    exact (Turns.pure ()).congr rfl (by simp [TargetsFit])
  case nil => exact fun _ _ _ => (Turns.pure ()).congr rfl (by simp [stmtsTargets, TargetsFit])
  case cons =>
    intro s rest hs hrest hfit hp start
    simp only [compileStmts, stmtsListing, stmtsTargets]
    exact ((hs (fun h => (hfit h).1) (fun h => (hp h).append_left) start).append
      (hrest (fun h => (hfit h).2) (fun h => (hp h).append_right) _)).congr rfl
        List.forall_mem_append.symm

/-- Statements whose jump targets fit have a code. -/
theorem stmtsCode_of_targetsFit {ss : List Stmt} (h : TargetsFit (stmtsTargets S start ss)) :
    stmtsCode S start ss = some (stmtsListing S start ss) := by
  refine (compileStmt.mutual_induct (fun s => ∀ start, TargetsFit (stmtTargets S start s) →
      stmtCode S start s = some (stmtListing S start s))
    (fun ss => ∀ start, TargetsFit (stmtsTargets S start ss) →
      stmtsCode S start ss = some (stmtsListing S start ss))
    ?assign ?ret ?retNone ?branch ?other ?nil ?cons).2 ss start h
  case assign | ret | retNone =>
    intros
    simp only [stmtCode, stmtListing]
  case branch =>
    intro test body orelse hbody horelse start h
    simp only [stmtTargets, TargetsFit, List.forall_mem_append, List.forall_mem_cons] at h
    simp only [stmtListing]
    exact stmtCode_ifThen_eq_some.mpr
      ⟨_, _, hbody _ h.1.1, horelse _ h.1.2, h.2.2.1, rfl⟩
  case other =>
    intro s h₁ h₂ h₃ h₄ start _
    rw [stmtCode, stmtListing] <;> assumption
  case nil => exact fun _ _ => rfl
  case cons =>
    intro s rest hs hrest start h
    obtain ⟨hfirst, hothers⟩ := List.forall_mem_append.mp h
    exact stmtsCode_cons_eq_some.mpr ⟨_, _, hs _ hfirst, hrest _ hothers, rfl⟩

end ContractKit.Evm
