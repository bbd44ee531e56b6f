import ContractKit.Proofs.Evm.Runtime
import Mathlib.Logic.Relation

/-!
# References to parameters

While the compiler works on a body it calls itself for the parts of statements and
expressions, each time with the emitter as it stands by then.  A reference to a parameter is a
call for a name.  What such a call writes is kept in the code of the body, in that of the
function, and in the runtime code, where only the dispatcher is patched after the functions
are written.
-/

namespace ContractKit.Evm

open Source Relation

/-! ## Calls of the compiler -/

/-- What the compiler is called for. -/
inductive Part where
  | expr (x : Expr)
  | stmt (s : Stmt)
  | stmts (ss : List Stmt)

def Part.compile (args : ArgMap) : Part → Emit Unit
  | .expr x => compileExpr args x
  | .stmt s => compileStmt args s
  | .stmts ss => compileStmts args ss

theorem appends_compile (args : ArgMap) (p : Part) : Appends (p.compile args) := by
  cases p with
  | expr x => exact appends_compileExpr args x
  | stmt s => exact appends_compileStmt args s
  | stmts ss => exact appends_compileStmts args ss

/-- The calls that the compiler makes when it is called for a part: the parts of the part that
have code, each with the emitter that the earlier ones leave. -/
inductive Calls (args : ArgMap) : Part × Emitter → Part × Emitter → Prop where
  | element {field index slot e} : e.slot? field = some slot →
      Calls args (.expr (.subscript (.attribute (.name "self") field) index), e) (.expr index, e)
  | binaryLeft {left op right e} :
      Calls args (.expr (.binary left op right), e) (.expr left, e)
  | binaryRight {left op right e e₁} : compileExpr args left e = .ok () e₁ →
      Calls args (.expr (.binary left op right), e) (.expr right, e₁)
  | compareLeft {left op right more e} :
      Calls args (.expr (.compare left op right more), e) (.expr left, e)
  | compareRight {left op right e e₁} : compileExpr args left e = .ok () e₁ →
      Calls args (.expr (.compare left op right []), e) (.expr right, e₁)
  | assigned {field value slot e} : e.slot? field = some slot →
      Calls args (.stmt (.assign [.attribute (.name "self") field] value), e) (.expr value, e)
  | elementAssigned {field index value slot e} : e.slot? field = some slot →
      Calls args (.stmt (.assign [.subscript (.attribute (.name "self") field) index] value), e)
        (.expr value, e)
  | elementIndex {field index value slot e e₁} : e.slot? field = some slot →
      compileExpr args value e = .ok () e₁ →
      Calls args (.stmt (.assign [.subscript (.attribute (.name "self") field) index] value), e)
        (.expr index, e₁)
  | returned {value e} : Calls args (.stmt (.ret (some value)), e) (.expr value, e)
  | test {test body orelse e} : Calls args (.stmt (.ifThen test body orelse), e) (.expr test, e)
  | body {test body orelse e e₁ e₂} : compileExpr args test e = .ok () e₁ →
      emitElseJump e₁ = .ok () e₂ →
      Calls args (.stmt (.ifThen test body orelse), e) (.stmts body, e₂)
  | orelse {test body orelse e e₁ e₂ e₃ e₄} : compileExpr args test e = .ok () e₁ →
      emitElseJump e₁ = .ok () e₂ → compileStmts args body e₂ = .ok () e₃ →
      emitEndJump e₃ = .ok () e₄ →
      Calls args (.stmt (.ifThen test body orelse), e) (.stmts orelse, e₄)
  | head {s rest e} : Calls args (.stmts (s :: rest), e) (.stmt s, e)
  | tail {s rest e e₁} : compileStmt args s e = .ok () e₁ →
      Calls args (.stmts (s :: rest), e) (.stmts rest, e₁)

variable {args : ArgMap} {p q : Part} {e e' e₁ : Emitter} {u : Unit}

/-- The first part of an expression or a statement. -/
theorem first_of_bind {α : Type} {x : Expr} {rest : Emit α} {a : α} (hrest : Appends rest)
    (h : (do compileExpr args x; rest) e = .ok a e') :
    ∃ e₁, compileExpr args x e = .ok () e₁ ∧ Kept e e' e e₁ := by
  obtain ⟨_, e₁, hfirst, h⟩ := bind_eq_ok.mp h
  obtain ⟨_, hw⟩ := appends_compileExpr args x hfirst
  obtain ⟨_, hw'⟩ := hrest h
  exact ⟨e₁, hfirst, .first hw hw'⟩

/-- A part that follows another. -/
theorem second_of_bind {α : Type} {x y : Expr} {rest : Emit α} {a : α} (hrest : Appends rest)
    (hfirst : compileExpr args x e = .ok () e₁)
    (h : (do compileExpr args x; compileExpr args y; rest) e = .ok a e') :
    ∃ e₂, compileExpr args y e₁ = .ok () e₂ ∧ Kept e e' e₁ e₂ := by
  obtain ⟨_, _, hfirst', h⟩ := bind_eq_ok.mp h
  obtain ⟨-, rfl⟩ := EStateM.Result.ok.inj (hfirst.symm.trans hfirst')
  obtain ⟨_, e₂, hsecond, h⟩ := bind_eq_ok.mp h
  obtain ⟨_, hw⟩ := appends_compileExpr args x hfirst
  obtain ⟨_, hw'⟩ := appends_compileExpr args y hsecond
  obtain ⟨_, hw''⟩ := hrest h
  exact ⟨e₂, hsecond, .of_wrote hw hw' hw''⟩

/-- If a call succeeds, so does every call that it makes, and what that one writes is kept. -/
theorem Calls.kept (h : Calls args (p, e) (q, e₁)) (hp : p.compile args e = .ok u e') :
    ∃ e₁', q.compile args e₁ = .ok () e₁' ∧ Kept e e' e₁ e₁' := by
  cases h with
  | element hslot =>
    simp only [Part.compile, compileExpr, get_bind, hslot] at hp
    exact first_of_bind ((appends_emitInt _).bind fun _ => (appends_emitOp _ _).bind fun _ =>
      appends_emitOp _ _) hp
  | @binaryLeft left op right =>
    simp only [Part.compile, compileExpr] at hp
    exact first_of_bind ((appends_compileExpr _ _).bind fun _ => appends_binaryOp op) hp
  | @binaryRight left op right _ _ hleft =>
    simp only [Part.compile, compileExpr] at hp
    exact second_of_bind (appends_binaryOp op) hleft hp
  | @compareLeft left op right more =>
    cases more with
    | nil =>
      simp only [Part.compile, compileExpr] at hp
      exact first_of_bind ((appends_compileExpr _ _).bind fun _ => appends_emitOps _) hp
    | cons next more =>
      simp only [Part.compile, compileExpr] at hp
      obtain ⟨_, hw⟩ := appends_compileExpr _ _ hp
      exact ⟨e', hp, .refl hw⟩
  | compareRight hleft =>
    simp only [Part.compile, compileExpr] at hp
    exact second_of_bind (appends_emitOps _) hleft hp
  | assigned hslot =>
    simp only [Part.compile, compileStmt, compileAssign, get_bind, hslot] at hp
    exact first_of_bind (appends_emitInt_op _ _ _) hp
  | elementAssigned hslot =>
    simp only [Part.compile, compileStmt, compileAssign, get_bind, hslot] at hp
    exact first_of_bind ((appends_compileExpr _ _).bind fun _ => (appends_emitInt _).bind fun _ =>
      (appends_emitOp _ _).bind fun _ => appends_emitOp _ _) hp
  | elementIndex hslot hvalue =>
    simp only [Part.compile, compileStmt, compileAssign, get_bind, hslot] at hp
    exact second_of_bind ((appends_emitInt _).bind fun _ => (appends_emitOp _ _).bind fun _ =>
      appends_emitOp _ _) hvalue hp
  | returned =>
    simp only [Part.compile, compileStmt] at hp
    exact first_of_bind appends_emitReturnWord hp
  | test =>
    obtain ⟨i₁, i₂, i₃, i₄, i₅, htest, -, -, -, -, hkept, -, -⟩ := branch_steps hp
    exact ⟨i₁, htest, hkept⟩
  | body htest hjump =>
    obtain ⟨i₁, i₂, i₃, i₄, i₅, htest', hjump', hbody', -, -, -, hkept, -⟩ := branch_steps hp
    obtain ⟨-, rfl⟩ := EStateM.Result.ok.inj (htest.symm.trans htest')
    obtain ⟨-, rfl⟩ := EStateM.Result.ok.inj (hjump.symm.trans hjump')
    exact ⟨i₃, hbody', hkept⟩
  | orelse htest hjump hbody hend =>
    obtain ⟨i₁, i₂, i₃, i₄, i₅, htest', hjump', hbody', hend', horelse', -, -, hkept⟩ :=
      branch_steps hp
    obtain ⟨-, rfl⟩ := EStateM.Result.ok.inj (htest.symm.trans htest')
    obtain ⟨-, rfl⟩ := EStateM.Result.ok.inj (hjump.symm.trans hjump')
    obtain ⟨-, rfl⟩ := EStateM.Result.ok.inj (hbody.symm.trans hbody')
    obtain ⟨-, rfl⟩ := EStateM.Result.ok.inj (hend.symm.trans hend')
    exact ⟨i₅, horelse', hkept⟩
  | head =>
    simp only [Part.compile, compileStmts] at hp
    obtain ⟨_, e₁, hs, hp⟩ := bind_eq_ok.mp hp
    obtain ⟨_, hw⟩ := appends_compileStmt _ _ hs
    obtain ⟨_, hw'⟩ := appends_compileStmts _ _ hp
    exact ⟨e₁, hs, .first hw hw'⟩
  | tail hs =>
    simp only [Part.compile, compileStmts] at hp
    obtain ⟨_, _, hs', hp⟩ := bind_eq_ok.mp hp
    obtain ⟨-, rfl⟩ := EStateM.Result.ok.inj (hs.symm.trans hs')
    obtain ⟨_, hw⟩ := appends_compileStmt _ _ hs
    obtain ⟨_, hw'⟩ := appends_compileStmts _ _ hp
    exact ⟨e', hp, .of_wrote hw hw' (.refl e')⟩

theorem calls_kept (h : ReflTransGen (Calls args) (p, e) (q, e₁))
    (hp : p.compile args e = .ok u e') :
    ∃ e₁', q.compile args e₁ = .ok () e₁' ∧ Kept e e' e₁ e₁' := by
  generalize hend : (q, e₁) = last at h
  induction h generalizing q e₁ with
  | refl =>
    obtain ⟨rfl, rfl⟩ := Prod.mk.inj hend
    obtain ⟨_, hw⟩ := appends_compile args q hp
    exact ⟨e', hp, .refl hw⟩
  | @tail middle _ _ hcall ih =>
    subst hend
    obtain ⟨p', e₂⟩ := middle
    obtain ⟨e₂', hp', hkept⟩ := ih rfl
    obtain ⟨e₁', hq, hkept'⟩ := hcall.kept hp'
    exact ⟨e₁', hq, hkept.trans hkept'⟩

/-! ## Functions -/

theorem emitFunction_steps {f : Function} {position : Nat}
    (h : emitFunction f e = .ok position e') :
    position = e.current.size ∧ ∃ e₁ e₂, emitOp .jumpDest 0 e = .ok () e₁ ∧
      compileStmts (argMap f) f.body e₁ = .ok () e₂ ∧ Kept e e' e₁ e₂ := by
  obtain ⟨size, _, hoff, h⟩ := bind_eq_ok.mp h
  obtain ⟨rfl, rfl⟩ := offset_eq_ok.mp hoff
  obtain ⟨_, e₁, hdest, h⟩ := bind_eq_ok.mp h
  obtain ⟨_, e₂, hbody, h⟩ := bind_eq_ok.mp h
  obtain ⟨rfl, -, hw'⟩ := (turns_ending f _ : Turns False _ _ _ _ _ _ _).ok rfl h
  obtain ⟨_, hw⟩ := appends_compileStmts _ _ hbody
  exact ⟨rfl, e₁, e₂, hdest, hbody, .of_wrote (wrote_opByte hdest) hw hw'⟩

/-- The functions in front of one, then that function, then those behind it are written; the
code of the function is kept, and its position is given back in its place. -/
theorem emitFunctions_getElem? {fs : List (String × Function)} {positions : List Nat} {k : Nat}
    {name : String} {f : Function} (h : emitFunctions fs e = .ok positions e')
    (hk : fs[k]? = some (name, f)) :
    ∃ others e₁ e₂, emitFunctions (fs.take k) e = .ok others e₁ ∧
      emitFunction f e₁ = .ok e₁.current.size e₂ ∧ positions[k]? = some e₁.current.size ∧
      Kept e e' e₁ e₂ := by
  induction fs generalizing e positions k with
  | nil => simp at hk
  | cons entry rest ih =>
    obtain ⟨position, e₁, hfirst, h⟩ := bind_eq_ok.mp h
    obtain ⟨others, e₂, hrest, h⟩ := bind_eq_ok.mp h
    obtain ⟨rfl, rfl⟩ := pure_eq_ok.mp h
    obtain ⟨_, hw⟩ := appends_emitFunction _ hfirst
    obtain ⟨_, hw'⟩ := appends_emitFunctions _ hrest
    cases k with
    | zero =>
      obtain rfl : entry = (name, f) := by simpa using hk
      obtain rfl := (emitFunction_steps hfirst).1
      exact ⟨[], e, e₁, rfl, hfirst, rfl, .first hw hw'⟩
    | succ k =>
      obtain ⟨others', e₃, e₄, htake, hfun, hposition, hkept⟩ := ih hrest (by simpa using hk)
      refine ⟨position :: others', e₃, e₄, ?_, hfun, by simpa using hposition, ?_⟩
      · exact bind_eq_ok.mpr ⟨_, _, hfirst, bind_eq_ok.mpr ⟨_, _, htake, rfl⟩⟩
      · exact (Kept.of_wrote hw hw' (.refl e₂)).trans hkept

variable {c : ContractState} {d₁ d₂ : Emitter} {targets : List Nat} {bytes : List UInt8} {k : Nat}
  {name : String} {f : Function}

theorem current_of_runtime {label : String} (h : e.region = .runtime label) :
    e.current = e.runtime := by
  simp [Emitter.current, h]

namespace RuntimeSteps

/-- A function that messages can call is written where `emitUpTo` arrives.  This is also the
target of its test, and its code is kept. -/
theorem function (h : RuntimeSteps c openedRuntime e' d₁ d₂ targets bytes)
    (hk : c.dispatchable[k]? = some (name, f)) :
    ∃ others e₁ e₂, (emitUpTo c k).run {} = .ok others e₁ ∧
      emitFunction f e₁ = .ok (functionStart c k) e₂ ∧ targets[k]? = some (functionStart c k) ∧
      Kept d₁ d₂ e₁ e₂ := by
  obtain ⟨jumps, hdispatcher⟩ := h.dispatcher
  obtain ⟨others, e₁, e₂, htake, hfun, htarget, hkept⟩ := emitFunctions_getElem? h.functions hk
  have hrun := emitUpTo_eq_ok hdispatcher htake
  have hstart : functionStart c k = e₁.current.size := by
    rw [current_of_runtime (hkept.region.trans h.start_region)]
    simp only [functionStart, hrun]
  rw [hstart]
  exact ⟨others, e₁, e₂, hrun, hfun, htarget, hkept⟩

/-- What is kept in the code of the functions stands in the runtime code. -/
theorem code_kept (h : RuntimeSteps c openedRuntime e' d₁ d₂ targets bytes)
    (hkept : Kept d₁ d₂ e e₁) {code : List UInt8} (hw : Wrote e code e₁) :
    code <+: e'.runtime.toList.drop e.runtime.size := by
  obtain ⟨hregion, front, code', back, hsize, hw', hwrote⟩ := hkept
  obtain rfl : code' = code := List.append_cancel_left (hw'.current.symm.trans hw.current)
  obtain rfl : bytes = front ++ code' ++ back :=
    List.append_cancel_left (h.wrote.current.symm.trans hwrote.current)
  have hlen : targets.length = c.dispatchable.length := length_emitFunctions h.functions
  have hdispatcher : (assemble (dispatcherCode c targets)).length = d₁.current.size :=
    (codeSize_dispatcherCode hlen).trans h.start_size.symm
  have hcode := h.code
  rw [current_of_runtime h.region] at hcode
  rw [← current_of_runtime (hregion.trans h.start_region), hsize, hcode, ← hdispatcher,
    List.drop_length_add_append, List.append_assoc, List.drop_left]
  exact List.prefix_append _ _

end RuntimeSteps

/-! ## References -/

/-- Writes the runtime code of a contract up to the body of one of the functions that messages
can call. -/
def emitUpToBody (c : ContractState) (k : Nat) : Emit Unit := do
  let _ ← emitUpTo c k
  emitOp .jumpDest

/-- One of the functions that messages can call refers to a name, and the runtime code of this
reference begins at a position. -/
def Reference (c : ContractState) (k : Nat) (x : String) (position : Nat) : Prop :=
  ∃ name f e e₁, c.dispatchable[k]? = some (name, f) ∧ (emitUpToBody c k).run {} = .ok () e ∧
    ReflTransGen (Calls (argMap f)) (.stmts f.body, e) (.expr (.name x), e₁) ∧
    position = e₁.runtime.size

/-- The bytes that push the place of a parameter in the call data and load the word there. -/
def loadBytes (index : Nat) : List UInt8 :=
  numberBytes (4 + 32 * index) ++ [Opcode.callDataLoad.byte]

/-- Compiling the name of a parameter writes these bytes. -/
theorem wrote_argument {x : String} {j : Nat} (hj : Assoc.get? x args = some (j : Int))
    (h : compileExpr args (.name x) e = .ok u e') : Wrote e (loadBytes j) e' := by
  simp only [compileExpr, hj] at h
  have hoffset : argumentOffset j = ((4 + 32 * j : Nat) : Int) := by
    simp only [argumentOffset]
    omega
  obtain ⟨_, e₁, hpush, hload⟩ := bind_eq_ok.mp h
  rw [hoffset] at hpush
  exact (wrote_emitNumber hpush).trans (wrote_opByte hload)

/-- A reference to a parameter is code that loads its word of the call data. -/
theorem Reference.loads {x : String} {position j : Nat}
    (hgen : (emitContract c).run {} = .ok u e) (h : Reference c k x position)
    (hk : c.dispatchable[k]? = some (name, f)) (hdistinct : f.args.Nodup)
    (hj : f.args[j]? = some x) : loadBytes j <+: e.runtime.toList.drop position := by
  obtain ⟨name', f', e₀, e₁, hk', hopen, hcalls, rfl⟩ := h
  obtain ⟨rfl, rfl⟩ : name' = name ∧ f' = f := by simpa [hk] using hk'.symm
  obtain ⟨e', hruntime, hinit⟩ := emitContract_steps hgen
  have hkeep : e.runtime = e'.runtime := (slots_lt_of_emitInit rfl hinit).2
  obtain ⟨d₁, d₂, targets, bytes, hsteps⟩ := emitRuntime_steps rfl hruntime
  obtain ⟨others, i₁, i₂, hup, hfun, -, hkept⟩ := hsteps.function hk
  obtain ⟨-, i₃, i₄, hdest, hbody, hkept'⟩ := emitFunction_steps hfun
  -- Both ways to the body arrive with the same emitter.
  obtain ⟨_, _, hup', hdest'⟩ := bind_eq_ok.mp hopen
  obtain ⟨-, rfl⟩ := EStateM.Result.ok.inj (hup.symm.trans hup')
  obtain ⟨-, rfl⟩ := EStateM.Result.ok.inj (hdest.symm.trans hdest')
  have hcompile : (Part.stmts f'.body).compile (argMap f') i₃ = .ok () i₄ := hbody
  obtain ⟨e₂, hname, hkept''⟩ := calls_kept hcalls hcompile
  have hw := wrote_argument (get?_argMap hdistinct hj) hname
  rw [hkeep]
  exact hsteps.code_kept ((hkept.trans hkept').trans hkept'') hw

/-- Where such bytes stand, an execution that comes there pushes the word of the call data. -/
theorem runs_loadBytes {env : Env} {position j : Nat}
    (h : loadBytes j <+: env.code.drop position) (hj : 4 + 32 * j < 2 ^ 256) (s : State) :
    Runs env position (position + (loadBytes j).length) ⟨position, s⟩
      ⟨position + (loadBytes j).length,
        s.withStack (dataWord env.data (4 + 32 * j) :: s.stack)⟩ := by
  obtain ⟨rest, hrest⟩ := h
  let operand := bigEndianBytes (byteLength (4 + 32 * j)) (4 + 32 * j)
  have hsize : (loadBytes j).length = 1 + operand.length + 1 := by
    simp [loadBytes, numberBytes, operand]
    omega
  have hlen : (env.code.take position).length = position := by
    have hdrop := congrArg List.length hrest
    simp only [List.length_append, List.length_drop, hsize] at hdrop
    rw [List.length_take]
    omega
  have hcode : env.code = env.code.take position ++ ((0x5f + operand.length).toUInt8 :: operand ++
      Opcode.callDataLoad.byte :: rest) := by
    conv_lhs => rw [← List.take_append_drop position env.code, ← hrest]
    simp [loadBytes, numberBytes, operand]
  have hpush := perform_of_push (by simpa [operand] using byteLength_le_word.mpr hj) hcode s
  rw [hlen] at hpush
  have hbyte : env.code[position + (1 + operand.length)]? = some Opcode.callDataLoad.byte := by
    have hnumber : (numberBytes (4 + 32 * j)).length = 1 + operand.length := by
      simp [numberBytes, operand, Nat.add_comm]
    rw [← List.getElem?_drop, ← hrest, loadBytes, List.append_assoc,
      List.getElem?_append_right hnumber.le, hnumber, Nat.sub_self]
    rfl
  have hword : wordOf operand = BitVec.ofNat 256 (4 + 32 * j) := wordOf_minimal _
  have heffect : Opcode.callDataLoad.execute env (s.withStack (wordOf operand :: s.stack)) =
      .next (s.withStack (dataWord env.data (4 + 32 * j) :: s.stack)) := by
    have hplace : (wordOf operand).toNat = 4 + 32 * j := by
      rw [hword, BitVec.toNat_ofNat, Nat.mod_eq_of_lt hj]
    rw [← hplace]
    rfl
  have hload := perform_of_op (by rfl) hbyte (s.withStack (wordOf operand :: s.stack))
  rw [heffect] at hload
  refine .head (g := ⟨position + (1 + operand.length), s.withStack (wordOf operand :: s.stack)⟩)
    ⟨le_rfl, ?_⟩ ?_ (.head ⟨?_, ?_⟩ ?_ (.refl _))
  · simp only [hpush]
    omega
  · simp only [step, hpush]
  · exact Nat.le_add_right _ _
  · simp only [hload]
    omega
  · rw [hsize]
    simp only [step, hload, Nat.add_assoc]

end ContractKit.Evm
