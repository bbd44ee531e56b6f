import ContractKit.Proofs.Evm.Extension

/-!
# Parts of compiled code

Whatever is compiled, an operation that succeeds has appended bytes to the code that is being
written and has left everything else as it was.  In contrast to the listings this needs nothing
of the literals that are pushed.  The jumps of a branch are filled in when the branch is
complete; these patches fall between the codes of its parts, so what was written for a part
stands in the code of the whole where it was written.
-/

namespace ContractKit.Evm

open Source

/-- An operation that, if it succeeds, has done nothing but append bytes. -/
def Appends {α : Type} (x : Emit α) : Prop :=
  ∀ ⦃e : Emitter⦄ ⦃a : α⦄ ⦃e' : Emitter⦄, x e = .ok a e' → ∃ bytes, Wrote e bytes e'

theorem Appends.of_charges {α : Type} {x : Emit α} (h : ∀ S front, ∃ n, Charges S front x n) :
    Appends x := by
  intro e a e' hx
  obtain ⟨n, hcharges⟩ := h e.slot? (some e.current.size)
  have hextended := hcharges.extended rfl rfl (.refl e)
  simp only [Emitter.after, hx] at hextended
  exact hextended.wrote

theorem Appends.bind {α β : Type} {x : Emit α} {f : α → Emit β} (hx : Appends x)
    (hf : ∀ a, Appends (f a)) : Appends (x >>= f) := by
  intro e b e' h
  obtain ⟨a, e₁, hfirst, hrest⟩ := bind_eq_ok.mp h
  obtain ⟨front, hw⟩ := hx hfirst
  obtain ⟨back, hw'⟩ := hf a hrest
  exact ⟨front ++ back, hw.trans hw'⟩

theorem appends_emitOp (op : Opcode) (cost : Int) : Appends (emitOp op cost) :=
  fun _ _ _ h => ⟨_, wrote_opByte h⟩

theorem appends_emitInt (n : Int) : Appends (emitInt n) := .of_charges fun _ _ => ⟨_, .int n⟩

/-- Pushing a number and then writing an instruction. -/
theorem appends_emitInt_op (n : Int) (op : Opcode) (cost : Int) :
    Appends (do emitInt n; emitOp op cost) :=
  (appends_emitInt n).bind fun _ => appends_emitOp op cost

theorem appends_emitOps (ops : List Opcode) : Appends (emitOps ops) :=
  .of_charges fun _ _ => ⟨_, charges_emitOps ops⟩

theorem appends_emitReturnWord : Appends emitReturnWord :=
  .of_charges charges_emitReturnWord

/-- The instruction of an operator, if it has one. -/
theorem appends_binaryOp (op : BinaryOp) :
    Appends (match binaryOpcode? op with
      | some op => emitOp op
      | none => return () : Emit Unit) :=
  .of_charges fun _ _ => ⟨_, charges_binaryOp op⟩

theorem appends_compileExpr (args : ArgMap) (expr : Expr) : Appends (compileExpr args expr) :=
  .of_charges (charges_compileExpr · · args expr)

theorem appends_compileStmt (args : ArgMap) (s : Stmt) : Appends (compileStmt args s) :=
  .of_charges fun S front => (charges_compile S front args).1 s

theorem appends_compileStmts (args : ArgMap) (stmts : List Stmt) :
    Appends (compileStmts args stmts) :=
  .of_charges fun S front => (charges_compile S front args).2 stmts

theorem appends_emitFunction (f : Function) : Appends (emitFunction f) :=
  .of_charges (charges_emitFunction · · f)

theorem appends_emitFunctions (fs : List (String × Function)) : Appends (emitFunctions fs) :=
  .of_charges (charges_emitFunctions · · fs)

/-! ## What is kept -/

/-- Patching two bytes that were written since `e₀`, by their place among these bytes. -/
theorem Wrote.patchAt {e₀ e e' : Emitter} {bytes : List UInt8} {position : Int} {i target : Nat}
    {u : Unit} (hw : Wrote e₀ bytes e) (hi : i + 2 ≤ bytes.length)
    (hpos : position = e₀.current.size + i) (h : Evm.patch position target 2 e = .ok u e') :
    Wrote e₀ (bytes.take i ++ bigEndianBytes 2 target ++ bytes.drop (i + 2)) e' := by
  have hcut : bytes = bytes.take i ++ (bytes.drop i).take 2 ++ bytes.drop (i + 2) := by
    rw [List.append_assoc, ← List.drop_drop, List.take_append_drop, List.take_append_drop]
  have htake : (bytes.take i).length = i := by
    rw [List.length_take]
    omega
  rw [hcut] at hw
  exact (hw.patch (by simp; omega) (by rw [htake]; exact hpos) h).2

/-- What was written from `e₁` to `e₁'` stands, at the place where it was written, in what was
written from `e` to `e'`. -/
structure Kept (e e' e₁ e₁' : Emitter) : Prop where
  region : e₁.region = e.region
  code : ∃ front code back, e₁.current.size = e.current.size + front.length ∧
    Wrote e₁ code e₁' ∧ Wrote e (front ++ code ++ back) e'

namespace Kept

variable {e e' e'' e₁ e₁' e₂ e₂' : Emitter} {front code back : List UInt8}

theorem of_wrote (h₁ : Wrote e front e₁) (h₂ : Wrote e₁ code e₁') (h₃ : Wrote e₁' back e') :
    Kept e e' e₁ e₁' :=
  ⟨h₁.region, front, code, back, h₁.size, h₂, (h₁.trans h₂).trans h₃⟩

theorem first (h₂ : Wrote e code e₁) (h₃ : Wrote e₁ back e') : Kept e e' e e₁ :=
  of_wrote (.refl e) h₂ h₃

protected theorem refl (h : Wrote e code e') : Kept e e' e e' := first h (.refl e')

theorem trans (h : Kept e e' e₁ e₁') (h' : Kept e₁ e₁' e₂ e₂') : Kept e e' e₂ e₂' := by
  obtain ⟨hregion, front, code, back, hsize, hw₁, hw⟩ := h
  obtain ⟨hregion', front', code', back', hsize', hw₂, hw₁'⟩ := h'
  -- What was written from `e₁` to `e₁'` is determined by the two.
  obtain rfl : code = front' ++ code' ++ back' :=
    List.append_cancel_left (hw₁.current.symm.trans hw₁'.current)
  refine ⟨hregion'.trans hregion, front ++ front', code', back' ++ back, ?_, hw₂, ?_⟩
  · rw [hsize', hsize, List.length_append, Nat.add_assoc]
  · simpa using hw

/-- A patch of bytes written in front of something or behind it keeps it. -/
theorem patch (h : Kept e e' e₁ e₁') {position : Int} {target : Nat} {u : Unit}
    (hpatch : Evm.patch position target 2 e' = .ok u e'') (hlo : e.current.size ≤ position)
    (hhi : position + 2 ≤ e'.current.size)
    (hout : position + 2 ≤ e₁.current.size ∨ e₁'.current.size ≤ position) :
    e''.current.size = e'.current.size ∧ Kept e e'' e₁ e₁' := by
  obtain ⟨hregion, front, code, back, hsize, hw₁, hw⟩ := h
  have hsize₁ := hw₁.size
  have hsize' := hw.size
  simp only [List.length_append] at hsize'
  obtain ⟨i, hi⟩ : ∃ i : Nat, position = e.current.size + i :=
    ⟨(position - e.current.size).toNat, by omega⟩
  have hw' := hw.patchAt (by simp; omega) hi hpatch
  refine ⟨?_, hregion, ?_⟩
  · have hsize'' := hw'.size
    simp only [List.length_append, List.length_take, List.length_drop, length_bigEndianBytes]
      at hsize''
    omega
  rcases hout with hfront | hback
  · have hle : i + 2 ≤ front.length := by omega
    rw [List.append_assoc front, List.take_append_of_le_length (by omega),
      List.drop_append_of_le_length hle] at hw'
    refine ⟨front.take i ++ bigEndianBytes 2 target ++ front.drop (i + 2), code, back, ?_, hw₁,
      by simpa using hw'⟩
    simp only [List.length_append, List.length_take, List.length_drop, length_bigEndianBytes]
    omega
  · have hle : (front ++ code).length ≤ i := by simp; omega
    obtain ⟨j, rfl⟩ := Nat.exists_eq_add_of_le hle
    rw [List.take_length_add_append, Nat.add_assoc, List.drop_length_add_append] at hw'
    exact ⟨front, code, back.take j ++ bigEndianBytes 2 target ++ back.drop (j + 2), hsize, hw₁,
      by simpa using hw'⟩

end Kept

/-! ## Branches -/

variable {args : ArgMap} {e e' : Emitter} {u : Unit}

/-- A branch is compiled part by part, and the jumps between its parts are filled in at last.
The parts are kept. -/
theorem branch_steps {test : Expr} {body orelse : List Stmt}
    (h : compileStmt args (.ifThen test body orelse) e = .ok u e') :
    ∃ e₁ e₂ e₃ e₄ e₅, compileExpr args test e = .ok () e₁ ∧ emitElseJump e₁ = .ok () e₂ ∧
      compileStmts args body e₂ = .ok () e₃ ∧ emitEndJump e₃ = .ok () e₄ ∧
      compileStmts args orelse e₄ = .ok () e₅ ∧
      Kept e e' e e₁ ∧ Kept e e' e₂ e₃ ∧ Kept e e' e₄ e₅ := by
  obtain ⟨e₁, e₂, e₃, e₄, e₅, e₆, e₇, target, htest, hopen, hthen, hmid, hrest, hlast, -, hpatch,
    hpatch'⟩ := compile_branch h
  obtain ⟨test', hw₁⟩ := appends_compileExpr args test htest
  obtain ⟨body', hw₃⟩ := appends_compileStmts args body hthen
  obtain ⟨orelse', hw₅⟩ := appends_compileStmts args orelse hrest
  have hw₂ := wrote_emitElseJump hopen
  have hwEnd := wrote_emitEndJump hmid
  have hwLast := wrote_emitOp hlast
  -- Where the parts and the two jumps lie.
  have hsize₁ := hw₁.size
  have hsize₂ : e₂.current.size = e₁.current.size + 5 := hw₂.codeSize
  have hsize₃ := hw₃.size
  have hsizeEnd : e₄.current.size = e₃.current.size + 5 := hwEnd.codeSize
  have hsize₅ := hw₅.size
  have hsize₆ : e₆.current.size = e₅.current.size + 1 := hwLast.codeSize
  have hfilled : ∀ {a a' : Emitter}, Kept e e₆ a a' →
      (e₁.current.size + 4 ≤ a.current.size ∨ a'.current.size ≤ e₁.current.size + 2) →
      (e₃.current.size + 3 ≤ a.current.size ∨ a'.current.size ≤ e₃.current.size + 1) →
      Kept e e' a a' := by
    intro a a' hkept helse hend
    obtain ⟨hsize₇, hkept⟩ := hkept.patch hpatch (by omega) (by omega) (by omega)
    exact (hkept.patch hpatch' (by omega) (by omega) (by omega)).2
  refine ⟨e₁, e₂, e₃, e₄, e₅, htest, hopen, hthen, hmid, hrest, hfilled ?_ ?_ ?_, hfilled ?_ ?_ ?_,
    hfilled ?_ ?_ ?_⟩
  · exact .first hw₁ (hw₂.trans (hw₃.trans (hwEnd.trans (hw₅.trans hwLast))))
  · omega
  · omega
  · exact .of_wrote (hw₁.trans hw₂) hw₃ (hwEnd.trans (hw₅.trans hwLast))
  · omega
  · omega
  · exact .of_wrote (hw₁.trans (hw₂.trans (hw₃.trans hwEnd))) hw₅ hwLast
  · omega
  · omega

end ContractKit.Evm
