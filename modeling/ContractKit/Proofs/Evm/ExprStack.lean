import ContractKit.Proofs.Evm.Meaning
import ContractKit.Proofs.Evm.Straight

/-!
# What expressions leave on the stack

The code of an expression is straight: it only computes.  This module says which words it leaves on
the stack, for every expression there is, also where they are not what one would wish for.  An
operator is written behind its operands, so the right one lies on top of the left one.  Arithmetic
takes the top as its first operand; a comparison exchanges the two before it compares them.  An
operator that has no code leaves both of its operands where they are, and what is computed next
takes them as they lie.
-/

namespace ContractKit.Evm

open Source

/-! ## Stacks -/

/-- What the code of a binary operator makes of a stack: the machine takes the top as the first
operand. -/
def binaryStack (op : BinaryOp) : List Word → List Word
  | b :: a :: rest =>
    if (binaryOpcode? op).isSome then binaryValue op b a :: rest else b :: a :: rest
  | stack => stack

/-- What the code of a comparison makes of a stack: the top is its second operand. -/
def compareStack (op : CompareOp) : List Word → List Word
  | b :: a :: rest =>
    if compareOpcodes op = [] then b :: a :: rest else compareValue op a b :: rest
  | stack => stack

/-- The words that the code of an expression leaves on the stack, the top first. -/
def exprStack (S : Scope) (data : List UInt8) (σ : Storage) : Expr → List Word
  | .literal v => [wordOf (pushedBytes (.ofLiteral v))]
  | .name x =>
    match Assoc.get? x S.args with
    | some index => [dataWord data (4 + 32 * index.toNat)]
    | none => [0]
  | .attribute (.name "self") field =>
    match S.slot? field with
    | some slot => [σ (slotWord slot)]
    | none => [0]
  | .subscript (.attribute (.name "self") field) index =>
    match S.slot? field with
    | some slot => (exprStack S data σ index).modifyHead fun k => σ (slotWord slot + k)
    | none => [0]
  | .binary left op right => binaryStack op (exprStack S data σ right ++ exprStack S data σ left)
  | .compare left op right [] =>
    compareStack op (exprStack S data σ right ++ exprStack S data σ left)
  | .compare left _ _ _ => exprStack S data σ left
  | _ => [0]

/-- The number of operators in the compiled part of an expression that have no code. -/
def residue (S : Scope) : Expr → Nat
  | .subscript (.attribute (.name "self") field) index =>
    match S.slot? field with
    | some _ => residue S index
    | none => 0
  | .binary left op right =>
    residue S left + residue S right + if (binaryOpcode? op).isSome then 0 else 1
  | .compare left op right [] =>
    residue S left + residue S right + if compareOpcodes op = [] then 1 else 0
  | .compare left _ _ _ => residue S left
  | _ => 0

variable {env : Env} {S : Scope} {m : Memory} {σ : Storage}

theorem length_binaryStack (op : BinaryOp) (stack : List Word) (h : 2 ≤ stack.length) :
    (binaryStack op stack).length + 1 =
      stack.length + if (binaryOpcode? op).isSome then 0 else 1 := by
  obtain _ | ⟨b, _ | ⟨a, rest⟩⟩ := stack
  · simp at h
  · simp at h
  · rw [binaryStack]
    split <;> simp

theorem length_compareStack (op : CompareOp) (stack : List Word) (h : 2 ≤ stack.length) :
    (compareStack op stack).length + 1 =
      stack.length + if compareOpcodes op = [] then 1 else 0 := by
  obtain _ | ⟨b, _ | ⟨a, rest⟩⟩ := stack
  · simp at h
  · simp at h
  · rw [compareStack]
    split <;> simp

/-- Every operator without code leaves a word more. -/
theorem length_exprStack (S : Scope) (data : List UInt8) (σ : Storage) (expr : Expr) :
    (exprStack S data σ expr).length = residue S expr + 1 := by
  fun_induction exprStack S data σ expr with
  | case1 | case2 | case3 | case4 | case5 => rfl
  | case6 field index slot hk ih => simp [residue, hk, ih]
  | case7 field index hk => simp [residue, hk]
  | case8 left op right ihr ihl =>
    have hlen := length_binaryStack op (exprStack S data σ right ++ exprStack S data σ left)
    rw [List.length_append, ihl, ihr] at hlen
    rw [residue]
    omega
  | case9 left op right ihr ihl =>
    have hlen := length_compareStack op (exprStack S data σ right ++ exprStack S data σ left)
    rw [List.length_append, ihl, ihr] at hlen
    rw [residue]
    omega
  | case10 left op right more hmore ih =>
    rw [residue]
    · exact ih
    · exact hmore
  | case11 =>
    rw [residue]
    · rfl
    all_goals assumption

/-! ## The code of the parts -/

theorem pushedBytes_int {n : Nat} (h : n < 2 ^ 256) :
    pushedBytes (.int n) = bigEndianBytes (byteLength n) n := by
  simp only [pushedBytes, operand, integerOperand_natCast h]

theorem length_pushedBytes {v : Value} (hv : v.FitsWord) : (pushedBytes v).length ≤ 32 := by
  unfold pushedBytes
  split
  case h_1 n bytes hop =>
    obtain ⟨hlen, hle⟩ := length_operand hv hop
    omega
  case h_2 => simp

theorem computes_binaryCode (op : BinaryOp) (b a : Word) (rest : List Word) :
    Computes env m σ (binaryCode op) (b :: a :: rest) (binaryStack op (b :: a :: rest)) := by
  cases op
  case add | sub | mult | div | mod => exact .op fun _ => rfl
  all_goals exact .nil _

theorem computes_compareCode (op : CompareOp) (b a : Word) (rest : List Word) :
    Computes env m σ (compareCode op) (b :: a :: rest) (compareStack op (b :: a :: rest)) := by
  have hswap : Computes env m σ [.op .swap1] (b :: a :: rest) (a :: b :: rest) :=
    .op fun _ => rfl
  have hlt : Computes env m σ [.op .lt] (a :: b :: rest) (flag (a < b) :: rest) :=
    .op fun _ => rfl
  have hgt : Computes env m σ [.op .gt] (a :: b :: rest) (flag (b < a) :: rest) :=
    .op fun _ => rfl
  have hzero : ∀ w, Computes env m σ [.op .isZero] (w :: rest) (flag (w = 0) :: rest) :=
    fun _ => .op fun _ => rfl
  cases op
  case eq =>
    have hcomm : compareStack .eq (b :: a :: rest) = flag (b = a) :: rest := by
      simp only [compareStack, compareValue, flag, eq_comm]
      rfl
    rw [hcomm]
    exact .op fun _ => rfl
  case lt => exact hswap.cons hlt
  case gt => exact hswap.cons hgt
  -- The machine has no weak order: it negates the strict one.
  case ltE =>
    have hnot : compareStack .ltE (b :: a :: rest) = flag (flag (b < a) = 0) :: rest := by
      rw [flag_not (b < a) (a ≤ b) BitVec.not_lt]
      rfl
    rw [hnot]
    exact hswap.cons (hgt.cons (hzero _))
  case gtE =>
    have hnot : compareStack .gtE (b :: a :: rest) = flag (flag (a < b) = 0) :: rest := by
      rw [flag_not (a < b) (b ≤ a) BitVec.not_lt]
      rfl
    rw [hnot]
    exact hswap.cons (hlt.cons (hzero _))
  all_goals exact .nil _

theorem computes_slotWord {slot : Int} (h : 0 ≤ slot ∧ slot < 2 ^ 256) (top : List Word) :
    Computes env m σ [.pushNat slot.toNat] top (slotWord slot :: top) := by
  have hword : slotWord slot = BitVec.ofNat 256 slot.toNat := by
    rw [slotWord, ← BitVec.ofInt_natCast, Int.toNat_of_nonneg h.1]
  rw [hword]
  exact .pushNat (by omega) top

theorem computes_zero (top : List Word) : Computes env m σ [.pushNat 0] top (0 :: top) :=
  .pushNat (by norm_num) top

theorem computes_argument {index : Int} (h : 0 ≤ index ∧ argumentOffset index < 2 ^ 256) :
    Computes env m σ [.pushNat (argumentOffset index).toNat, .op .callDataLoad] []
      [dataWord env.data (4 + 32 * index.toNat)] := by
  obtain ⟨hpos, hlt⟩ := h
  have hoff : (argumentOffset index).toNat = 4 + 32 * index.toNat := by
    simp only [argumentOffset]
    omega
  have hlt' : 4 + 32 * index.toNat < 2 ^ 256 := by omega
  rw [hoff]
  refine .cons (.pushNat hlt' []) (.op fun base => ?_)
  have hload := execute_callDataLoad env base m σ (BitVec.ofNat 256 (4 + 32 * index.toNat))
  rwa [BitVec.toNat_ofNat, Nat.mod_eq_of_lt hlt'] at hload

/-- The element of a mapping is loaded from as far behind its slot as the key says. -/
theorem computes_element {slot : Int} (h : 0 ≤ slot ∧ slot < 2 ^ 256) (k : Word)
    (rest : List Word) :
    Computes env m σ [.pushNat slot.toNat, .op .add, .op .sload] (k :: rest)
      (σ (slotWord slot + k) :: rest) := by
  have hadd : Computes env m σ [.op .add] (slotWord slot :: k :: rest)
      ((slotWord slot + k) :: rest) := .op fun _ => rfl
  exact (computes_slotWord h _).cons (hadd.cons (.op fun _ => rfl))

/-! ## The code of an expression -/

/-- Two expressions leave at least a word each. -/
theorem exists_operands (S : Scope) (data : List UInt8) (σ : Storage) (left right : Expr) :
    ∃ b a rest, exprStack S data σ right ++ exprStack S data σ left = b :: a :: rest := by
  obtain ⟨b, stack, hright⟩ :=
    List.exists_cons_of_length_eq_add_one (length_exprStack S data σ right)
  obtain ⟨a, lower, hleft⟩ :=
    List.exists_cons_of_length_eq_add_one (length_exprStack S data σ left)
  rw [hright, hleft]
  cases stack with
  | nil => exact ⟨b, a, lower, rfl⟩
  | cons b' stack => exact ⟨b, b', stack ++ a :: lower, rfl⟩

/-- The code of two operands, the right one behind the left one, leaves the words of both. -/
theorem Computes.operands {is js : List Instr} {lower upper : List Word}
    (hleft : Computes env m σ is [] lower) (hright : Computes env m σ js [] upper) :
    Computes env m σ (is ++ js) [] (upper ++ lower) :=
  hleft.append (hright.above lower)

/-- Running through the code of an expression leaves its words on the stack and does nothing
else. -/
theorem computes_exprCode (hS : S.Fits) {expr : Expr} (hfit : ExprFits expr) :
    Computes env m σ (exprCode S expr) [] (exprStack S env.data σ expr) := by
  fun_induction exprCode S expr with
  | case1 v => exact .ofBytes (length_pushedBytes hfit) []
  | case2 x index hget =>
    simp only [exprStack, hget]
    exact computes_argument (hS.offset x index hget)
  | case3 x hget =>
    simp only [exprStack, hget]
    exact computes_zero []
  | case4 field slot hk =>
    simp only [exprStack, hk]
    exact (computes_slotWord (hS.slot field slot hk) []).cons (.op fun _ => rfl)
  | case5 field hk =>
    simp only [exprStack, hk]
    exact computes_zero []
  | case6 field index slot hk ih =>
    obtain ⟨k, rest, hindex⟩ :=
      List.exists_cons_of_length_eq_add_one (length_exprStack S env.data σ index)
    have hkey := ih hfit
    simp only [exprStack, hk, hindex] at hkey ⊢
    exact hkey.append (computes_element (hS.slot field slot hk) k rest)
  | case7 field index hk =>
    simp only [exprStack, hk]
    exact computes_zero []
  | case8 left op right ihl ihr =>
    have hoperands := (ihl hfit.1).operands (ihr hfit.2)
    obtain ⟨b, a, rest, hstack⟩ := exists_operands S env.data σ left right
    rw [hstack] at hoperands
    rw [exprStack, hstack]
    exact hoperands.append (computes_binaryCode op b a rest)
  | case9 left op right ihl ihr =>
    have hoperands := (ihl hfit.1).operands (ihr hfit.2)
    obtain ⟨b, a, rest, hstack⟩ := exists_operands S env.data σ left right
    rw [hstack] at hoperands
    rw [exprStack, hstack]
    exact hoperands.append (computes_compareCode op b a rest)
  | case10 left op right more hmore ih =>
    rw [exprStack]
    · exact ih (by simpa [ExprFits] using hfit)
    · exact hmore
  | case11 =>
    rw [exprStack]
    · exact computes_zero []
    all_goals assumption

/-! ## Supported expressions -/

theorem wordOf_literal {v : Literal} (h : SupportedExpr (.literal v)) (data : List UInt8)
    (σ : Storage) :
    wordOf (pushedBytes (.ofLiteral v)) = evalExpr S data σ (.literal v) := by
  cases v with
  | int n =>
    have hn : n < 2 ^ 256 := by simpa [SupportedExpr] using h
    rw [Value.ofLiteral, pushedBytes_int hn, wordOf_minimal, evalExpr]
  | bool b => cases b <;> rfl
  | none | float _ | imaginary _ | text _ | bytes _ | ellipsis => exact h.elim

/-- A supported expression leaves its value. -/
theorem exprStack_of_supported {expr : Expr} (h : SupportedExpr expr) (data : List UInt8)
    (σ : Storage) : exprStack S data σ expr = [evalExpr S data σ expr] := by
  fun_induction exprStack S data σ expr with
  | case1 v => rw [wordOf_literal h]
  | case2 x index hget => simp only [evalExpr, hget]
  | case3 x hget => simp only [evalExpr, hget]
  | case4 field slot hk => simp only [evalExpr, hk]
  | case5 field hk => simp only [evalExpr, hk]
  | case6 field index slot hk ih =>
    simp only [evalExpr, hk, ih h]
    rfl
  | case7 field index hk => simp only [evalExpr, hk]
  | case8 left op right ihr ihl =>
    obtain ⟨hop, hleft, hright⟩ := h
    rw [ihl hleft, ihr hright, evalExpr]
    rcases hop with rfl | rfl
    · rw [binaryValue, BitVec.add_comm]
      rfl
    · rw [binaryValue, BitVec.mul_comm]
      rfl
  | case9 left op right ihr ihl =>
    obtain ⟨hop, hleft, hright⟩ := h
    rw [ihl hleft, ihr hright, evalExpr]
    simp only [List.mem_cons, List.not_mem_nil, or_false] at hop
    rcases hop with rfl | rfl | rfl | rfl | rfl <;> rfl
  | case10 left op right more hmore =>
    obtain _ | ⟨c, more⟩ := more
    · exact (hmore rfl).elim
    · exact h.elim
  | case11 t h₁ =>
    rw [SupportedExpr] at h
    · exact h.elim
    · exact fun n => h₁ _
    · exact fun b => h₁ _
    all_goals assumption

end ContractKit.Evm
