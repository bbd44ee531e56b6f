import ContractKit.Proofs.Compiler
import ContractKit.Proofs.Evm.Creation
import ContractKit.Proofs.Source.SameTree

/-!
# Elements of mappings share the storage with variables

Every variable of a contract has a slot of its own.  The element of a mapping under a key lies
as many slots behind that of the mapping as the key says, and the sum wraps.  So an element has
no place of its own: storing into it changes another variable, or an element of another mapping,
whenever the key is the distance between the two places.
-/

namespace ContractKit

open Source

/-- A contract for which code was generated has fewer variables than a jump has targets. -/
theorem CompileSteps.slots_lt {source : String} {statements : List Stmt} {r : Compiled}
    (h : CompileSteps source statements r) :
    (compile source).1.contract.slots.length < 65536 := by
  obtain ⟨e, -, hinit⟩ := Evm.emitContract_steps h.generated
  exact (Evm.slots_lt_of_emitInit rfl hinit).1

theorem CompileSteps.slot_lt_word {source : String} {statements : List Stmt} {r : Compiled}
    (h : CompileSteps source statements r) :
    ∀ entry ∈ (compile source).1.contract.slots, 0 ≤ entry.2 ∧ entry.2 < 2 ^ 256 := by
  intro entry hentry
  have hlt := h.contract_analyzed.slot_lt hentry
  have hfew := h.slots_lt
  omega

namespace Evm

/-! ## Elements -/

/-- The element of a mapping under a key. -/
def element (m : String) (key : Expr) : Expr := .subscript (.attribute (.name "self") m) key

/-- The statement that stores a value into an element of a mapping. -/
def elementStore (m : String) (key value : Expr) : Stmt := .assign [element m key] value

/-- With this storage, running through the code of an expression pushes a word and does nothing
else. -/
def Yields (env : Env) (S : Scope) (σ : Storage) (expr : Expr) (w : Word) : Prop :=
  ∀ (stack : List Word) (m : Memory),
    Executes env (exprCode S expr) ⟨stack, m, σ⟩ ⟨w :: stack, m, σ⟩

variable {env : Env} {S : Scope} {σ : Storage} {m : String} {base : Int} {key value : Expr}
  {k x : Word}

theorem Yields.of_supported (hS : S.Fits) {expr : Expr} (h : SupportedExpr expr) (σ : Storage) :
    Yields env S σ expr (evalExpr S env.data σ expr) :=
  fun stack m => executes_exprCode hS h ⟨stack, m, σ⟩

/-- An element of a mapping yields the word that lies as far behind the slot of the mapping as
the key says. -/
theorem Yields.element (hS : S.Fits) (hm : S.slot? m = some base) (hkey : Yields env S σ key k) :
    Yields env S σ (element m key) (σ (slotWord base + k)) := by
  intro stack mem
  simp only [Evm.element, exprCode, hm]
  exact (hkey stack mem).append (.cons (executes_slot hS hm _) (.cons (.op rfl) (.op rfl)))

/-- Storing into an element of a mapping changes that word. -/
theorem executes_elementStore (hS : S.Fits) (hm : S.slot? m = some base) {s : State}
    (hkey : Yields env S s.storage key k) (hvalue : Yields env S s.storage value x) :
    Executes env (assignCode S (element m key) value) s
      { s with storage := s.storage.set (slotWord base + k) x } := by
  simp only [element, assignCode, hm]
  exact ((hvalue s.stack s.memory).append (hkey _ _)).append
    (.cons (executes_slot hS hm _) (.cons (.op rfl) (.op rfl)))

/-- A word stays what it was unless another value is stored into it. -/
theorem Storage.set_keeps_iff (σ : Storage) (slot value w : Word) :
    σ.set slot value w = σ w ↔ (w = slot → value = σ w) := by
  unfold Storage.set
  by_cases h : w = slot
  · simp [h]
  · simp [h]

/-! ## Compiled contracts -/

/-- Two variables of an analyzed contract have different slots. -/
theorem slotWord_ne {c : ContractState} (hc : Analyzed c) (hslots : c.slots.length < 65536)
    {v : String} {slot : Int} (hm : Assoc.get? m c.slots = some base)
    (hv : Assoc.get? v c.slots = some slot) (hne : v ≠ m) : slotWord slot ≠ slotWord base := by
  intro heq
  have hentry := List.inj_on_of_nodup_map (nodup_slotWords hc hslots) (Assoc.mem_of_get? hv)
    (Assoc.mem_of_get? hm) heq
  exact hne (congrArg Prod.fst hentry)

section Compiled

variable {source : String} {r : Compiled} {f : Function}

/-- **Storing into an element of a mapping.**  Take a variable `m` of a compiled source and what
is written to store a value into its element under a key.  Running through it with the key `k`
and the value `x` leaves another variable `v` its word unless `k` is the distance from the slot of
`m` to that of `v` and `x` is another word.  It leaves the element of `v` under a key `k'` what it
was unless the elements lie in the same place and `x` is another word.  -/
theorem element_store_keeps_iff {v : String} {slot : Int} {e e' : Emitter}
    (hok : (compile source).2.result = .ok r) (hargs : 4 + 32 * f.args.length < 2 ^ 256)
    (hm : Assoc.get? m (compile source).1.contract.slots = some base)
    (hv : Assoc.get? v (compile source).1.contract.slots = some slot) (hne : v ≠ m)
    (hkey : ExprFits key) (hvalue : ExprFits value)
    (hcontract : e.contract = some (compile source).1.contract)
    (hwritten : compileStmt (argMap f) (elementStore m key value) e = .ok () e') :
    slotWord slot ≠ slotWord base ∧
    ∃ code, Wrote e (assemble code) e' ∧ ∀ (env : Env) (s : State) (k x : Word),
      Yields env (bodyScope (compile source).1.contract f) s.storage key k →
      Yields env (bodyScope (compile source).1.contract f) s.storage value x →
      ∃ σ, Executes env code s { s with storage := σ } ∧
        (σ (slotWord slot) = s.storage (slotWord slot) ↔
          (k = slotWord slot - slotWord base → x = s.storage (slotWord slot))) ∧
        ∀ (key' : Expr) (k' : Word),
          Yields env (bodyScope (compile source).1.contract f) s.storage key' k' →
          Yields env (bodyScope (compile source).1.contract f) σ key' k' →
          ∃ old new,
            Yields env (bodyScope (compile source).1.contract f) s.storage (element v key') old ∧
            Yields env (bodyScope (compile source).1.contract f) σ (element v key') new ∧
            (new = old ↔ (slotWord base + k = slotWord slot + k' → x = old)) := by
  obtain ⟨statements, hsteps⟩ := compile_steps hok
  have hS := bodyScope_fits hsteps.contract_analyzed hsteps.slots_lt hargs
  refine ⟨slotWord_ne hsteps.contract_analyzed hsteps.slots_lt hm hv hne,
    assignCode (bodyScope (compile source).1.contract f) (element m key) value, ?_, ?_⟩
  · have hslot : e.slot? = (bodyScope (compile source).1.contract f).slot? := by
      funext y
      simp [Emitter.slot?, hcontract, bodyScope]
    exact wrote_compileAssign hS ⟨hvalue, hkey⟩ hslot hwritten
  · intro env s k x hk hx
    refine ⟨_, executes_elementStore hS hm hk hx, ?_, ?_⟩
    · rw [Storage.set_keeps_iff]
      have hdistance : slotWord slot = slotWord base + k ↔ k = slotWord slot - slotWord base := by
        rw [BitVec.eq_sub_iff_add_eq, BitVec.add_comm, eq_comm]
      rw [hdistance]
    · intro key' k' hold hnew
      refine ⟨_, _, .element hS hv hold, .element hS hv hnew, ?_⟩
      rw [Storage.set_keeps_iff, eq_comm]

end Compiled

/-! ## A ledger -/

/-- A source with two mappings and a variable between them. -/
def ledgerText : String :=
  "class Ledger(PySmartContract):\n" ++
  "    def setup(self):\n" ++
  "        self.balances = {}\n" ++
  "        self.owner = 7\n" ++
  "        self.allowed = {}\n" ++
  "    @public_function\n" ++
  "    def put(self, key: int, amount: int):\n" ++
  "        self.balances[key] = amount\n"

/-- The function that gives the variables their first values. -/
def ledgerSetup : Function where
  body :=
    [.assign [.attribute (.name "self") "balances"] (.dict []),
     .assign [.attribute (.name "self") "owner"] (.literal (.int 7)),
     .assign [.attribute (.name "self") "allowed"] (.dict [])]

/-- The function that stores into one of the mappings. -/
def ledgerPut : Function where
  isPublic := true
  args := ["key", "amount"]
  paramTypes := ["uint256", "uint256"]
  body := [elementStore "balances" (.name "key") (.name "amount")]

def ledgerStatements : List Stmt :=
  [.classDef "Ledger" [.name "PySmartContract"] []
    [.functionDef false "setup" [⟨.regular, "self", none, none⟩] ledgerSetup.body [] none,
     .functionDef false "put" [⟨.regular, "self", none, none⟩,
        ⟨.regular, "key", some (.name "int"), none⟩,
        ⟨.regular, "amount", some (.name "int"), none⟩]
      ledgerPut.body [.name "public_function"] none] []]

theorem read_ledger : readStatements ledgerText = some ledgerStatements :=
  readStatements_eq (by repeat' constructor) (by decide +kernel)

/-- The contract found in the source. -/
def ledger : ContractState where
  slots := [("balances", 0), ("owner", 1), ("allowed", 2)]
  initialValues := [("balances", .dict []), ("owner", .int 7), ("allowed", .dict [])]
  functions := [("setup", ledgerSetup), ("put", ledgerPut)]

theorem contract_ledger :
    (({} : Analyzer).analyze ledgerStatements).1.layout.toState = ledger := by
  cbv

theorem compile_ledger :
    ∃ r, (compile ledgerText).2.result = .ok r ∧ (compile ledgerText).1.contract = ledger := by
  obtain ⟨r, hok, hcontract, -⟩ := exists_compiled read_ledger contract_ledger (by decide +kernel)
  exact ⟨r, hok, hcontract⟩

/-- What is written for the body of `put`. -/
def ledgerPutCode : List Instr :=
  assignCode (bodyScope ledger ledgerPut) (element "balances" (.name "key")) (.name "amount")

theorem written_put :
    ∃ e', compileStmt (argMap ledgerPut) (elementStore "balances" (.name "key") (.name "amount"))
      { contract := some ledger } = .ok () e' :=
  ⟨_, rfl⟩

theorem fits_ledgerPut : (bodyScope ledger ledgerPut).Fits := by
  obtain ⟨r, hok, hcontract⟩ := compile_ledger
  obtain ⟨statements, hsteps⟩ := compile_steps hok
  rw [← hcontract]
  exact bodyScope_fits hsteps.contract_analyzed hsteps.slots_lt (by decide)

theorem yields_key (env : Env) (σ : Storage) :
    Yields env (bodyScope ledger ledgerPut) σ (.name "key") (dataWord env.data 4) := by
  have hname : SupportedExpr (.name "key") := trivial
  exact .of_supported fits_ledgerPut hname σ

/-- The value is the second argument. -/
theorem yields_amount (env : Env) (σ : Storage) :
    Yields env (bodyScope ledger ledgerPut) σ (.name "amount") (dataWord env.data 36) := by
  have hname : SupportedExpr (.name "amount") := trivial
  exact .of_supported fits_ledgerPut hname σ

def twoArguments (a b : Word) : Env where
  code := []
  data := [0, 0, 0, 0] ++ bytesOf a ++ bytesOf b
  fits := by simp

/-- A state in which the owner is seven, and no element of a mapping is set. -/
def ownerSeven : State := ⟨[], fun _ => 0, fun w => if w = 1 then 7 else 0⟩

/-- `put(1, 42)` stores into the slot of the owner, and `put(3, 42)` changes what is read under
the key one from the other mapping. -/
theorem element_store_overwrites_owner :
    ∃ r e', (compile ledgerText).2.result = .ok r ∧
      (compile ledgerText).1.contract = ledger ∧
      compileStmt (argMap ledgerPut) (elementStore "balances" (.name "key") (.name "amount"))
        { contract := some ledger } = .ok () e' ∧
      Wrote { contract := some ledger } (assemble ledgerPutCode) e' ∧
      (∃ σ, Executes (twoArguments 1 42) ledgerPutCode ownerSeven
          { ownerSeven with storage := σ } ∧
        Assoc.get? "owner" ledger.slots = some 1 ∧
        ownerSeven.storage (slotWord 1) = 7 ∧ σ (slotWord 1) = 42) ∧
      ∃ σ, Executes (twoArguments 3 42) ledgerPutCode ownerSeven
          { ownerSeven with storage := σ } ∧
        Yields (twoArguments 3 42) (bodyScope ledger ledgerPut) ownerSeven.storage
          (element "allowed" (.literal (.int 1))) 0 ∧
        Yields (twoArguments 3 42) (bodyScope ledger ledgerPut) σ
          (element "allowed" (.literal (.int 1))) 42 := by
  obtain ⟨r, hok, hcontract⟩ := compile_ledger
  obtain ⟨e', he'⟩ := written_put
  have hwrote : Wrote { contract := some ledger } (assemble ledgerPutCode) e' :=
    wrote_compileAssign fits_ledgerPut ⟨trivial, trivial⟩ rfl he'
  have hput : ∀ env, Executes env ledgerPutCode ownerSeven
      { ownerSeven with
        storage := ownerSeven.storage.set (slotWord 0 + dataWord env.data 4)
          (dataWord env.data 36) } :=
    fun env => executes_elementStore fits_ledgerPut rfl (yields_key env _) (yields_amount env _)
  have helement : SupportedExpr (element "allowed" (.literal (.int 1))) := by
    simp [element, SupportedExpr]
  refine ⟨r, e', hok, hcontract, he', hwrote, ⟨_, hput _, rfl, rfl, by decide +kernel⟩,
    _, hput _, ?_, ?_⟩
  · exact .of_supported fits_ledgerPut helement _
  · have hread : evalExpr (bodyScope ledger ledgerPut) (twoArguments 3 42).data
        (ownerSeven.storage.set (slotWord 0 + dataWord (twoArguments 3 42).data 4)
          (dataWord (twoArguments 3 42).data 36)) (element "allowed" (.literal (.int 1))) = 42 := by
      decide +kernel
    have hvalue := @Yields.of_supported (twoArguments 3 42) _ fits_ledgerPut _ helement
      (ownerSeven.storage.set (slotWord 0 + dataWord (twoArguments 3 42).data 4)
        (dataWord (twoArguments 3 42).data 36))
    rwa [hread] at hvalue

/-- Among the stores of `put`, one under the key five leaves the owner as it is, and one under the
key one does not. -/
theorem element_store_keeps_iff_ledger :
    ∃ r e' code, (compile ledgerText).2.result = .ok r ∧
      (compile ledgerText).1.contract = ledger ∧
      Wrote { contract := some ledger } (assemble code) e' ∧
      (∃ σ, Executes (twoArguments 5 42) code ownerSeven { ownerSeven with storage := σ } ∧
        σ (slotWord 1) = 7) ∧
      ∃ σ, Executes (twoArguments 1 42) code ownerSeven { ownerSeven with storage := σ } ∧
        σ (slotWord 1) ≠ 7 := by
  obtain ⟨r, hok, hcontract⟩ := compile_ledger
  obtain ⟨e', he'⟩ := written_put
  have hslots : ∀ x, Assoc.get? x (compile ledgerText).1.contract.slots =
      Assoc.get? x ledger.slots := by rw [hcontract]; exact fun _ => rfl
  have hkey : ExprFits (.name "key") := trivial
  have hamount : ExprFits (.name "amount") := trivial
  obtain ⟨-, code, hwrote, hstore⟩ := element_store_keeps_iff (f := ledgerPut) hok (by decide)
    (hslots "balances") (hslots "owner") (by decide) hkey hamount (by rw [hcontract]) he'
  rw [hcontract] at hstore
  refine ⟨r, e', code, hok, hcontract, hwrote, ?_, ?_⟩
  · obtain ⟨σ, hexec, hiff, -⟩ := hstore (twoArguments 5 42) ownerSeven _ _ (yields_key _ _)
      (yields_amount _ _)
    refine ⟨σ, hexec, hiff.mpr ?_⟩
    intro hkey
    exact absurd hkey (by decide +kernel)
  · obtain ⟨σ, hexec, hiff, -⟩ := hstore (twoArguments 1 42) ownerSeven _ _ (yields_key _ _)
      (yields_amount _ _)
    refine ⟨σ, hexec, fun hkept => ?_⟩
    exact absurd (hiff.mp hkept (by decide +kernel)) (by decide +kernel)

end Evm

end ContractKit
