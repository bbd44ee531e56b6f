import ContractKit.Proofs.Evm.Expressions

/-!
# The order of operands

The code of an operator finds its right operand on top of the stack and its left operand below.
Subtraction, division and remainder take the top as their first operand.  Comparisons exchange the
two words before they compare them; these operations do not, so what they push is the result for
the operands in the opposite order.  The two results agree on few words only.
-/

namespace ContractKit.Evm

open Source

/-- The words that an operator may take in either order: those whose difference is its own
negative, and those one of which is zero or that are equal. -/
def Interchangeable : BinaryOp → Word → Word → Prop
  | .sub, a, b => a = b ∨ a - b = BitVec.ofNat 256 (2 ^ 255)
  | .div, a, b => a = b ∨ a = 0 ∨ b = 0
  | .mod, a, b => a = b ∨ a = 0 ∨ b = 0
  | _, _, _ => True

/-! ## Both orders -/

/-- Of two different positive numbers only the larger one has a positive quotient by the other. -/
theorem natDiv_comm_iff (a b : Nat) : a / b = b / a ↔ a = b ∨ a = 0 ∨ b = 0 := by
  constructor
  · intro heq
    rcases Nat.lt_trichotomy a b with hlt | rfl | hlt
    · rw [Nat.div_eq_of_lt hlt, eq_comm, Nat.div_eq_zero_iff] at heq
      omega
    · exact .inl rfl
    · rw [Nat.div_eq_of_lt hlt, Nat.div_eq_zero_iff] at heq
      omega
  · rintro (rfl | rfl | rfl) <;> simp

/-- Of two different positive numbers the smaller one is its own remainder, and the remainder of
the other is smaller still. -/
theorem natMod_comm_iff (a b : Nat) (ha : a ≠ 0) (hb : b ≠ 0) : a % b = b % a ↔ a = b := by
  constructor
  · intro heq
    have hba := Nat.mod_lt b (Nat.pos_of_ne_zero ha)
    have hab := Nat.mod_lt a (Nat.pos_of_ne_zero hb)
    rcases Nat.lt_trichotomy a b with hlt | rfl | hlt
    · rw [Nat.mod_eq_of_lt hlt] at heq
      omega
    · rfl
    · rw [Nat.mod_eq_of_lt hlt] at heq
      omega
  · rintro rfl
    rfl

theorem sub_comm_iff (a b : Word) : a - b = b - a ↔ Interchangeable .sub a b := by
  simp only [Interchangeable]
  bv_omega

theorem div_comm_iff (a b : Word) : a / b = b / a ↔ Interchangeable .div a b := by
  simp only [Interchangeable, ← BitVec.toNat_inj, BitVec.toNat_udiv]
  exact natDiv_comm_iff a.toNat b.toNat

theorem mod_comm_iff (a b : Word) :
    (if b = 0 then 0 else a % b) = (if a = 0 then 0 else b % a) ↔ Interchangeable .mod a b := by
  simp only [Interchangeable]
  by_cases ha : a = 0
  · simp [ha]
  by_cases hb : b = 0
  · simp [hb]
  simp only [ha, hb, if_false, or_false, ← BitVec.toNat_inj, BitVec.toNat_umod]
  exact natMod_comm_iff a.toNat b.toNat (by simpa [← BitVec.toNat_inj] using ha)
    (by simpa [← BitVec.toNat_inj] using hb)

/-- The result does not depend on the order of the operands exactly if they are
interchangeable. -/
theorem binaryValue_comm_iff (op : BinaryOp) (a b : Word) :
    binaryValue op a b = binaryValue op b a ↔ Interchangeable op a b := by
  cases op
  case sub => exact sub_comm_iff a b
  case div => exact div_comm_iff a b
  case mod => exact mod_comm_iff a b
  case add => simp [binaryValue, Interchangeable, BitVec.add_comm]
  case mult => simp [binaryValue, Interchangeable, BitVec.mul_comm]
  all_goals simp [binaryValue, Interchangeable]

/-! ## Compiled operators -/

theorem exprStack_binary {S : Scope} {left right : Expr} {op : BinaryOp}
    (hop : (binaryOpcode? op).isSome) (hleft : SupportedExpr left) (hright : SupportedExpr right)
    (data : List UInt8) (σ : Storage) :
    exprStack S data σ (.binary left op right) =
      [binaryValue op (evalExpr S data σ right) (evalExpr S data σ left)] := by
  rw [exprStack, exprStack_of_supported hleft, exprStack_of_supported hright]
  simp only [List.singleton_append, binaryStack, hop, if_true]

/-- **Subtraction, division and remainder exchange their operands.**  Let the slots of the contract
and the places of the arguments be words.  Compiling one of these operations on two supported
expressions succeeds and only appends.  Where the operands have the values `a` and `b`, the code
that is appended pushes the result for `b` and `a`; this is the result for `a` and `b` if the words
are interchangeable, and only then. -/
theorem arithmetic_exchanges_operands {e : Emitter} {c : ContractState} {args : ArgMap}
    {left right : Expr} {op : BinaryOp} (hcontract : e.contract = some c)
    (hslots : ∀ entry ∈ c.slots, 0 ≤ entry.2 ∧ entry.2 < 2 ^ 256)
    (hargs : ∀ entry ∈ args, 0 ≤ entry.2 ∧ 4 + 32 * entry.2 < 2 ^ 256)
    (hop : op ∈ [BinaryOp.sub, .div, .mod]) (hleft : SupportedExpr left)
    (hright : SupportedExpr right) :
    ∃ bytes e', compileExpr args (.binary left op right) e = .ok () e' ∧ Wrote e bytes e' ∧
      ∀ env pc m σ a b, StandsAt env pc bytes →
        evalExpr (e.scope args) env.data σ left = a →
        evalExpr (e.scope args) env.data σ right = b →
        Passes env m σ pc [] (pc + bytes.length) [binaryValue op b a] ∧
        (Passes env m σ pc [] (pc + bytes.length) [binaryValue op a b] ↔
          Interchangeable op a b) := by
  have hS := Emitter.scope_fits hcontract hslots hargs
  have hpush : ExprPushable (.binary left op right) := ⟨hleft.pushable, hright.pushable⟩
  have hfit : ExprFits (.binary left op right) := ⟨hleft.fits, hright.fits⟩
  have hcode : (binaryOpcode? op).isSome := by
    simp only [List.mem_cons, List.not_mem_nil, or_false] at hop
    rcases hop with rfl | rfl | rfl <;> rfl
  obtain ⟨e', hok⟩ := succeeds_compileExpr hS hpush e rfl
  obtain ⟨bytes, hwrote, hpasses⟩ := compiled_passes hS hfit hok
  refine ⟨bytes, e', hok, hwrote, ?_⟩
  rintro env pc m σ a b hat rfl rfl
  have hpass := hpasses env pc m σ hat
  rw [exprStack_binary hcode hleft hright] at hpass
  refine ⟨hpass, ?_⟩
  rw [← binaryValue_comm_iff]
  constructor
  · intro hwish
    exact (List.singleton_inj.mp (hpass.unique hwish)).symm
  · intro hcomm
    rwa [hcomm]

/-- One less than a total of three is two, but what is pushed is three less than one. -/
theorem passes_total_minus_one :
    ∃ bytes e', compileExpr []
        (.binary (.attribute (.name "self") "total") .sub (.literal (.int 1))) shelfEmitter =
          .ok () e' ∧ Wrote shelfEmitter bytes e' ∧
      ∀ env pc m, StandsAt env pc bytes →
        Passes env m (fun _ => 3) pc [] (pc + bytes.length) [1 - 3] ∧
        ¬Passes env m (fun _ => 3) pc [] (pc + bytes.length) [3 - 1] := by
  have hleft : SupportedExpr (.attribute (.name "self") "total") := trivial
  have hright : SupportedExpr (.literal (.int 1)) := by simp [SupportedExpr]
  obtain ⟨bytes, e', hok, hwrote, hpasses⟩ := arithmetic_exchanges_operands (e := shelfEmitter) rfl
    shelf_slots (List.forall_mem_nil _) (List.mem_cons_self) hleft hright
  refine ⟨bytes, e', hok, hwrote, fun env pc m hat => ?_⟩
  obtain ⟨hpass, hwish⟩ := hpasses env pc m (fun _ => 3) 3 1 hat rfl rfl
  refine ⟨hpass, fun h => ?_⟩
  have hinter : ¬Interchangeable .sub 3 1 := by simp [Interchangeable]
  exact hinter (hwish.mp h)

/-- `5 - 3` is compiled to code that computes `3 - 5`. -/
theorem five_minus_three_exchanged :
    ∃ e', compileExpr [] (.binary (.literal (.int 5)) .sub (.literal (.int 3)))
        { contract := some {} } = .ok () e' ∧ e'.init = #[0x60, 5, 0x60, 3, 0x03] ∧
      ∀ env pc m σ, StandsAt env pc [0x60, 5, 0x60, 3, 0x03] →
        Passes env m σ pc [] (pc + 5) [3 - 5] ∧ ¬Passes env m σ pc [] (pc + 5) [5 - 3] := by
  have hfit : ExprFits (.binary (.literal (.int 5)) .sub (.literal (.int 3))) := by
    simp [ExprFits, Value.ofLiteral, Value.FitsWord]
  refine ⟨_, rfl, rfl, fun env pc m σ hat => ?_⟩
  have hpass : Passes env m σ pc [] (pc + 5) [3 - 5] :=
    computes_exprCode Scope.empty_fits hfit pc hat
  refine ⟨hpass, fun hwish => ?_⟩
  have hsame := List.singleton_inj.mp (hpass.unique hwish)
  simp at hsame

end ContractKit.Evm
