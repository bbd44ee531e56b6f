import ContractKit.Proofs.Evm.Outputs

/-!
# Guards

A function can begin with a guard: a call of `self.require`, or a branch that raises an
exception.  Neither a call that stands alone nor raising an exception has code.  So a guard
refuses nothing: a call returns whether the guard fails or not, and does what it would do
without the guard.
-/

namespace ContractKit.Evm

open Source

/-! ## Guards -/

/-- A condition that a call has to meet, or must not meet, and the message if it is refused. -/
inductive Guard where
  | require (condition message : Expr)
  | raising (condition message : Expr)

namespace Guard

def condition : Guard → Expr
  | require condition _ | raising condition _ => condition

/-- The statement: `self.require(condition, message)`, or `if condition: raise
Exception(message)`. -/
def stmt : Guard → Stmt
  | require condition message =>
    .expression (.call (.attribute (.name "self") "require") [condition, message] [])
  | raising condition message =>
    .ifThen condition [.raise (some (.call (.name "Exception") [message] [])) none] []

/-- A required condition that does not hold, or one that raises and holds. -/
def Fails (S : Scope) (data : List UInt8) (σ : Storage) : Guard → Prop
  | require condition _ => evalExpr S data σ condition = 0
  | raising condition _ => evalExpr S data σ condition ≠ 0

instance (S : Scope) (data : List UInt8) (σ : Storage) :
    (g : Guard) → Decidable (g.Fails S data σ)
  | require _ _ => inferInstanceAs (Decidable (_ = _))
  | raising _ _ => inferInstanceAs (Decidable (_ ≠ _))

theorem isReturn_stmt (g : Guard) : isReturn g.stmt = false := by
  cases g <;> rfl

end Guard

/-! ## Their code -/

variable {env : Env} {S : Scope} {lo hi pc : Nat} {code : List Instr} {g : Guard}
  {rest : List Stmt} {c : ContractState} {f : Function}

/-- Running through the code of a guard does nothing. -/
theorem Guard.follows (hS : S.Fits) (hcond : SupportedExpr g.condition)
    (hcode : stmtCode S pc g.stmt = some code) (hspan : Spans env lo hi pc code) (s : State) :
    Runs env lo hi ⟨pc, s⟩ ⟨pc + codeSize code, s⟩ := by
  cases g with
  | require condition message =>
    obtain rfl : [] = code := by simpa [stmt, stmtCode] using hcode
    exact .refl _
  | raising condition message =>
    obtain ⟨bodyCode, elseCode, hbody, helse, hlt, rfl⟩ := stmtCode_ifThen_eq_some.mp hcode
    obtain rfl : [] = bodyCode := by simpa [stmtsCode, stmtCode] using hbody
    obtain rfl : [] = elseCode := by simpa [stmtsCode] using helse
    have hbranch := branchRuns_of_spans hspan hlt
    have htest : Executes env (exprCode S condition ++ [Instr.op .isZero]) s
        (s.withStack (flag (evalExpr S env.data s.storage condition = 0) :: s.stack)) :=
      (executes_exprCode hS hcond s).append (.op rfl)
    -- Both parts of the branch are empty, so either way leads to its end.
    by_cases hzero : flag (evalExpr S env.data s.storage condition = 0) = 0
    · rw [hzero] at htest
      exact (hbranch.enterBody htest).trans (hbranch.leaveBody s)
    · exact (hbranch.enterElse hzero htest).trans (hbranch.leaveElse s)

/-- Statements behind a guard are followed as if it did not stand there. -/
theorem Guard.follows_stmts (hS : S.Fits) (hcond : SupportedExpr g.condition)
    (hrest : SupportedStmts rest) (hcode : stmtsCode S pc (g.stmt :: rest) = some code)
    (hspan : Spans env lo hi pc code) (s : State) :
    Follows env lo hi ⟨pc, s⟩ (pc + codeSize code) (execStmts S env.data s.storage rest) := by
  obtain ⟨first, others, hfirst, hothers, rfl⟩ := stmtsCode_cons_eq_some.mp hcode
  have hguard := g.follows hS hcond hfirst hspan.left s
  have hmore := stmtsFollowed hS rest (s := s) hothers hrest hspan.right
  rw [codeSize_append, ← Nat.add_assoc]
  exact Follows.of_runs hguard hmore

/-- A function that begins with a guard does what it means without the guard. -/
theorem halts_guarded {start : Nat} (hS : (bodyScope c f).Fits) (hbody : f.body = g.stmt :: rest)
    (hcond : SupportedExpr g.condition) (hsup : SupportedFunction { f with body := rest })
    (hcode : functionCode c start f = some code) (hspan : Spans env lo hi start code) (s : State) :
    ∃ last, Halts env lo hi ⟨start, s⟩
        (.returned (callFunction c { f with body := rest } env.data s.storage).2) last ∧
      last.state.storage = (callFunction c { f with body := rest } env.data s.storage).1 := by
  obtain ⟨body, hbodyCode, rfl⟩ := Option.map_eq_some_iff.mp hcode
  rw [hbody] at hbodyCode
  have hfollow := Guard.follows_stmts hS hcond hsup.body hbodyCode hspan.tail.left s
  have hscope : bodyScope c f = scopeOf c f := bodyScope_eq hsup.distinct
  rw [hscope] at hfollow
  rw [callFunction_eq]
  refine halts_of_follows hspan ?_ hfollow
  intro hreturn
  rw [hbody, List.any_cons, g.isReturn_stmt, Bool.false_or] at hreturn
  exact execStmts_returns _ _ _ hreturn

/-! ## Calls of guarded functions -/

section Calls

variable {source : String} {r : Compiled} {k : Nat} {name : String} {data : List UInt8}

/-- In a compiled source, a message that means a guarded function does what the function means
without the guard. -/
theorem halts_guarded_call (hok : (compile source).2.result = .ok r)
    (hcall : Callable (compile source).1.contract)
    (hfit : ∀ entry ∈ (compile source).1.contract.dispatchable, StmtsFit entry.2.body)
    (hk : (compile source).1.contract.dispatchable[k]? = some (name, f))
    (hbody : f.body = g.stmt :: rest) (hcond : SupportedExpr g.condition)
    (hsup : SupportedFunction { f with body := rest }) (hdata : data.length < 2 ^ 256)
    (hroute : routed? (compile source).1.contract data = some k) (m : Memory) (σ : Storage) :
    ∃ last, Halts ⟨(compile source).1.runtime, data, hdata⟩ 0 (compile source).1.runtime.length
        ⟨0, ⟨[], m, σ⟩⟩ (.returned
          (callFunction (compile source).1.contract { f with body := rest } data σ).2) last ∧
      last.state.storage =
        (callFunction (compile source).1.contract { f with body := rest } data σ).1 := by
  obtain ⟨statements, hsteps⟩ := compile_steps hok
  obtain ⟨codes, hlist⟩ := runtime_listing hsteps.contract_analyzed hcall hfit hsteps.generated
  obtain ⟨code, hcode, hspan, hruns⟩ := @enters_function _
    ⟨(compile source).1.runtime, data, hdata⟩ m σ codes hlist k name f hk hroute
  have hS := hlist.fit.scope _ (List.mem_of_getElem? hk)
  obtain ⟨last, hhalts, hstorage⟩ :=
    halts_guarded hS hbody hcond hsup hcode hspan ⟨[wordOf (data.take 4)], m, σ⟩
  exact ⟨last, hruns.halts hhalts, hstorage⟩

/-- **Guards.**  Take a compiled source whose literals fit into words, and a function of it that
messages can call and that begins with a guard.  Whatever the storage is, a call of the function
returns; if the code keeps the meaning of what stands behind the guard, storage and data are those
that the function means without the guard.  So a call is reverted if the guard fails only in the
empty sense that the guard does not fail. -/
theorem guarded_call_returns (hok : (compile source).2.result = .ok r)
    (hcall : Callable (compile source).1.contract)
    (hfit : ∀ entry ∈ (compile source).1.contract.dispatchable, StmtsFit entry.2.body)
    (hk : (compile source).1.contract.dispatchable[k]? = some (name, f))
    (hbody : f.body = g.stmt :: rest) (hdata : data.length < 2 ^ 256)
    (hroute : routed? (compile source).1.contract data = some k) (m : Memory) (σ : Storage) :
    (∃ returned last, Halts ⟨(compile source).1.runtime, data, hdata⟩ 0
        (compile source).1.runtime.length ⟨0, ⟨[], m, σ⟩⟩ (.returned returned) last ∧
      (SupportedExpr g.condition → SupportedFunction { f with body := rest } →
        (last.state.storage, returned) =
          callFunction (compile source).1.contract { f with body := rest } data σ)) ∧
    ((g.Fails (bodyScope (compile source).1.contract f) data σ →
        ∃ reason last, Halts ⟨(compile source).1.runtime, data, hdata⟩ 0
            (compile source).1.runtime.length ⟨0, ⟨[], m, σ⟩⟩ (.reverted reason) last ∧
          last.state.storage = σ) ↔
      ¬g.Fails (bodyScope (compile source).1.contract f) data σ) := by
  obtain ⟨statements, hsteps⟩ := compile_steps hok
  obtain ⟨returned, last, hhalts, -⟩ := halts_routed hsteps.contract_analyzed hcall hfit
    hsteps.generated hk hdata hroute m σ
  refine ⟨⟨returned, last, hhalts, ?_⟩, ?_, fun hholds hfails => absurd hfails hholds⟩
  · intro hcond hsup
    obtain ⟨last', hhalts', hstorage⟩ :=
      halts_guarded_call hok hcall hfit hk hbody hcond hsup hdata hroute m σ
    obtain ⟨hreturned, rfl⟩ := hhalts.unique hhalts'
    exact Prod.ext hstorage (Halt.returned.inj hreturned)
  · intro hrefused hfails
    obtain ⟨reason, last', hreverted, -⟩ := hrefused hfails
    have hsame := (hhalts.unique hreverted).1
    simp at hsame

end Calls

/-! ## A contract with both kinds of guards -/

/-- A source with a function that requires a small amount, and one that raises an exception for a
high value. -/
def mintText : String :=
  "class Mint(PySmartContract):\n" ++
  "    @public_function\n" ++
  "    def mint(self, amount: int):\n" ++
  "        self.require(amount < 5, \"no\")\n" ++
  "        self.supply = amount\n" ++
  "    @public_function\n" ++
  "    def rate(self, value: int):\n" ++
  "        if value > 5:\n" ++
  "            raise Exception(\"no\")\n" ++
  "        self.level = value\n"

/-- The guard of the first function. -/
def mintGuard : Guard :=
  .require (.compare (.name "amount") .lt (.literal (.int 5)) []) (.literal (.text [110, 111]))

def rateGuard : Guard :=
  .raising (.compare (.name "value") .gt (.literal (.int 5)) []) (.literal (.text [110, 111]))

/-- What stands behind the guard of the first function. -/
def mintRest : List Stmt := [.assign [.attribute (.name "self") "supply"] (.name "amount")]

/-- What stands behind that of the second. -/
def rateRest : List Stmt := [.assign [.attribute (.name "self") "level"] (.name "value")]

def mint : Function where
  isPublic := true
  args := ["amount"]
  paramTypes := ["uint256"]
  body := mintGuard.stmt :: mintRest

def rate : Function where
  isPublic := true
  args := ["value"]
  paramTypes := ["uint256"]
  body := rateGuard.stmt :: rateRest

def mintStatements : List Stmt :=
  [.classDef "Mint" [.name "PySmartContract"] []
    [.functionDef false "mint" [⟨.regular, "self", none, none⟩,
        ⟨.regular, "amount", some (.name "int"), none⟩] mint.body [.name "public_function"] none,
     .functionDef false "rate" [⟨.regular, "self", none, none⟩,
        ⟨.regular, "value", some (.name "int"), none⟩] rate.body [.name "public_function"] none] []]

theorem read_mint : readStatements mintText = some mintStatements :=
  readStatements_eq (by repeat' constructor) (by decide +kernel)

/-- The contract found in the source. -/
def mintContract : ContractState where
  slots := [("supply", 0), ("level", 1)]
  initialValues := [("supply", .int 0), ("level", .int 0)]
  functions := [("mint", mint), ("rate", rate)]

theorem contract_mint :
    (({} : Analyzer).analyze mintStatements).1.layout.toState = mintContract := by cbv

theorem compile_mint :
    ∃ r, (compile mintText).2.result = .ok r ∧ (compile mintText).1.contract = mintContract := by
  obtain ⟨r, hok, hcontract, -⟩ := exists_compiled read_mint contract_mint (by decide +kernel)
  exact ⟨r, hok, hcontract⟩

theorem entries_mint : ∀ entry ∈ mintContract.dispatchable,
    entry = ("mint", mint) ∨ entry = ("rate", rate) := by
  intro entry he
  have hentries : mintContract.dispatchable = [("mint", mint), ("rate", rate)] := rfl
  simpa [hentries] using he

theorem callable_mint : Callable mintContract := by
  intro entry he
  rcases entries_mint entry he with rfl | rfl <;> decide

theorem fit_mint : ∀ entry ∈ mintContract.dispatchable, StmtsFit entry.2.body := by
  intro entry he
  rcases entries_mint entry he with rfl | rfl
  · simp [mint, mintGuard, mintRest, Guard.stmt, StmtsFit, StmtFits, AssignFits, ExprFits]
  · simp [rate, rateGuard, rateRest, Guard.stmt, StmtsFit, StmtFits, AssignFits, ExprFits,
      Value.ofLiteral, Value.FitsWord]

/-- The message `mint(9)`. -/
def mintNine : List UInt8 := [0xa0, 0x71, 0x2d, 0x68] ++ bytesOf 9

theorem mintNine_lt : mintNine.length < 2 ^ 256 := by
  simp [mintNine]

/-- The message `rate(9)`. -/
def rateNine : List UInt8 := [0xe7, 0xee, 0x6a, 0xd6] ++ bytesOf 9

theorem rateNine_lt : rateNine.length < 2 ^ 256 := by
  simp [rateNine]

/-- An amount of nine is not below five, but minting it returns and sets the supply. -/
theorem failed_require_passes :
    ∃ r last, (compile mintText).2.result = .ok r ∧
      (compile mintText).1.contract = mintContract ∧
      mintContract.dispatchable[0]? = some ("mint", mint) ∧
      mint.body = mintGuard.stmt :: mintRest ∧
      routed? mintContract mintNine = some 0 ∧
      mintGuard.Fails (bodyScope mintContract mint) mintNine (fun _ => 0) ∧
      Halts ⟨(compile mintText).1.runtime, mintNine, mintNine_lt⟩ 0
        (compile mintText).1.runtime.length ⟨0, ⟨[], fun _ => 0, fun _ => 0⟩⟩ (.returned []) last ∧
      last.state.storage (slotWord 0) = 9 := by
  obtain ⟨r, hok, hcontract⟩ := compile_mint
  have hroute : routed? mintContract mintNine = some 0 := by decide +kernel
  have hcond : SupportedExpr mintGuard.condition := by
    simp [mintGuard, Guard.condition, SupportedExpr]
  have hsup : SupportedFunction { mint with body := mintRest } :=
    ⟨by decide, by decide, by simp [mintRest, SupportedStmts, SupportedStmt, SupportedTarget,
      SupportedExpr]⟩
  obtain ⟨last, hhalts, hstorage⟩ := halts_guarded_call hok (by rw [hcontract]; exact callable_mint)
    (by rw [hcontract]; exact fit_mint)
    (show (compile mintText).1.contract.dispatchable[0]? = some ("mint", mint) by
      rw [hcontract]; rfl)
    (show mint.body = mintGuard.stmt :: mintRest from rfl) hcond hsup mintNine_lt
    (by rw [hcontract]; exact hroute) (fun _ => 0) (fun _ => 0)
  rw [hcontract] at hhalts hstorage
  have hfails : mintGuard.Fails (bodyScope mintContract mint) mintNine (fun _ => 0) := by
    decide +kernel
  have hreturned : (callFunction mintContract { mint with body := mintRest } mintNine
      fun _ => 0).2 = [] := by decide +kernel
  have hsupply : (callFunction mintContract { mint with body := mintRest } mintNine
      fun _ => 0).1 (slotWord 0) = 9 := by decide +kernel
  rw [hreturned] at hhalts
  refine ⟨r, last, hok, hcontract, rfl, rfl, hroute, hfails, hhalts, ?_⟩
  rw [hstorage]
  exact hsupply

/-- A rate of nine is above five, but setting it is not reverted. -/
theorem guarded_call_returns_rate :
    ∃ r returned last, (compile mintText).2.result = .ok r ∧
      rateGuard.Fails (bodyScope mintContract rate) rateNine (fun _ => 0) ∧
      Halts ⟨(compile mintText).1.runtime, rateNine, rateNine_lt⟩ 0
        (compile mintText).1.runtime.length ⟨0, ⟨[], fun _ => 0, fun _ => 0⟩⟩
        (.returned returned) last ∧
      last.state.storage (slotWord 1) = 9 ∧
      ¬∃ reason last, Halts ⟨(compile mintText).1.runtime, rateNine, rateNine_lt⟩ 0
        (compile mintText).1.runtime.length ⟨0, ⟨[], fun _ => 0, fun _ => 0⟩⟩
        (.reverted reason) last ∧ last.state.storage = fun _ => 0 := by
  obtain ⟨r, hok, hcontract⟩ := compile_mint
  have hfails : rateGuard.Fails (bodyScope mintContract rate) rateNine (fun _ => 0) := by
    decide +kernel
  have hroute : routed? mintContract rateNine = some 1 := by decide +kernel
  have hcond : SupportedExpr rateGuard.condition := by
    simp [rateGuard, Guard.condition, SupportedExpr]
  have hsup : SupportedFunction { rate with body := rateRest } :=
    ⟨by decide, by decide, by simp [rateRest, SupportedStmts, SupportedStmt, SupportedTarget,
      SupportedExpr]⟩
  obtain ⟨⟨returned, last, hhalts, hmeaning⟩, hrefused⟩ := guarded_call_returns hok
    (by rw [hcontract]; exact callable_mint) (by rw [hcontract]; exact fit_mint)
    (show (compile mintText).1.contract.dispatchable[1]? = some ("rate", rate) by
      rw [hcontract]; rfl)
    (show rate.body = rateGuard.stmt :: rateRest from rfl) rateNine_lt
    (by rw [hcontract]; exact hroute) (fun _ => 0) (fun _ => 0)
  rw [hcontract] at hmeaning hrefused
  have hstorage : last.state.storage = _ := congrArg Prod.fst (hmeaning hcond hsup)
  refine ⟨r, returned, last, hok, hfails, hhalts, ?_, fun hreverted => ?_⟩
  · rw [hstorage]
    decide +kernel
  · exact hrefused.mp (fun _ => hreverted) hfails

end ContractKit.Evm
