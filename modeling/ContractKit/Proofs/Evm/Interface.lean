import ContractKit.Proofs.Compiler
import ContractKit.Proofs.Evm.References
import ContractKit.Proofs.Layout.Functions
import ContractKit.Proofs.Source.SameTree

/-!
# Interface and runtime code agree

A caller knows a contract by its interface: it hashes the signature of a function to address
it and puts the arguments behind the selector in the order of the inputs.  The runtime code
has a test for each declared function, in the order of the interface, for the selector of the
declared signature, and the code of the function takes each input from where the caller has
put it.
-/

namespace ContractKit

/-- The signature of a declared function: its name and the types of its inputs. -/
def DeclaredFunction.signature (d : DeclaredFunction) : String :=
  d.name ++ "(" ++ ",".intercalate (d.inputs.map TypedName.type) ++ ")"

/-- The selector of a declared function: the first four bytes of the hash of its signature. -/
def DeclaredFunction.selector (d : DeclaredFunction) : List UInt8 :=
  (Hash.keccak256 (Text.utf8 d.signature)).take 4

theorem Function.Read.selector_declared {f : Function} (h : f.Read) (name : String) :
    (f.declared name).selector = Hash.selector (f.signature name) := by
  have htypes : (f.declared name).inputs.map TypedName.type = f.signatureTypes := h.types_inputsOf
  rw [DeclaredFunction.selector, DeclaredFunction.signature, htypes]
  rfl

namespace Evm

open Relation

/-! ## Reading the tests -/

/-- The tests for functions with which some code begins: for each the selector that is compared
and the position that is jumped to. -/
def readTests : List UInt8 → List (List UInt8 × Nat)
  | dup :: push :: a :: b :: c :: d :: eq :: pushTarget :: t :: u :: jump :: rest =>
    if [dup, push, eq, pushTarget, jump] =
        [Opcode.dup1.byte, 0x63, Opcode.eq.byte, 0x61, Opcode.jumpI.byte] then
      ([a, b, c, d], Layout.bigEndian [t, u]) :: readTests rest
    else []
  | _ => []

/-- The tests of a runtime code, which stand behind its prologue. -/
def dispatchTable (runtime : List UInt8) : List (List UInt8 × Nat) := readTests (runtime.drop 14)

/-- Code that begins with another instruction begins with no test. -/
theorem readTests_of_ne {b : UInt8} (h : b ≠ Opcode.dup1.byte) (rest : List UInt8) :
    readTests (b :: rest) = [] := by
  unfold readTests
  split
  case h_1 heq =>
    obtain ⟨rfl, -⟩ := List.cons.inj heq
    rw [if_neg]
    simp [h]
  case h_2 => rfl

/-- Tests are read back as they were written. -/
theorem readTests_dispatchesCode {entries : List (List UInt8 × Nat)}
    (hentries : ∀ entry ∈ entries, entry.1.length = 4 ∧ entry.2 < 65536) (rest : List UInt8) :
    readTests (assemble (dispatchesCode entries) ++ rest) = entries ++ readTests rest := by
  induction entries with
  | nil => rfl
  | cons entry entries ih =>
    obtain ⟨selector, target⟩ := entry
    obtain ⟨hlen, hlt⟩ := hentries _ List.mem_cons_self
    obtain ⟨a, b, c, d, rfl⟩ : ∃ a b c d, selector = [a, b, c, d] := by
      match selector, hlen with
      | [a, b, c, d], _ => exact ⟨a, b, c, d, rfl⟩
    have htarget : Layout.bigEndian (bigEndianBytes 2 target) = target :=
      bigEndian_bigEndianBytes_of_lt (by omega)
    have hrest := ih fun entry he => hentries entry (List.mem_cons_of_mem _ he)
    obtain ⟨t, u, htu⟩ : ∃ t u, bigEndianBytes 2 target = [t, u] := ⟨_, _, rfl⟩
    have hbytes : assemble (dispatchCode [a, b, c, d] target) =
        [Opcode.dup1.byte, 0x63, a, b, c, d, Opcode.eq.byte, 0x61, t, u,
          Opcode.jumpI.byte] := by
      simp [dispatchCode, Instr.ofBytes, Instr.pushTarget, Instr.encode, htu]
    rw [dispatchesCode_cons, assemble_append, List.append_assoc, hbytes]
    simp only [List.cons_append, List.nil_append]
    rw [readTests, if_pos rfl, hrest, ← htu, htarget]

variable {c : ContractState} {e e' : Emitter} {u : Unit}

/-- The tests of a generated runtime code: one for each function that messages can call, with
the selector of its signature and the position where its code begins. -/
theorem dispatchTable_runtime (hgen : (emitContract c).run {} = .ok u e) :
    dispatchTable e.runtime.toList =
      c.dispatchable.zipIdx.map fun ((name, f), k) =>
        (Hash.selector (f.signature name), functionStart c k) := by
  obtain ⟨e', hruntime, hinit⟩ := emitContract_steps hgen
  have hkeep : e.runtime = e'.runtime := (slots_lt_of_emitInit rfl hinit).2
  obtain ⟨d₁, d₂, targets, bytes, hsteps⟩ := emitRuntime_steps rfl hruntime
  have hlen : targets.length = c.dispatchable.length := length_emitFunctions hsteps.functions
  have hcode := hsteps.code
  rw [current_of_runtime hsteps.region, dispatcherCode, List.append_assoc, assemble_append,
    assemble_append, List.append_assoc, List.append_assoc] at hcode
  have hdrop : e'.runtime.toList.drop 14 = assemble (dispatchesCode
      ((selectors c.dispatchable).zip targets)) ++ (assemble revertCode ++ bytes) := by
    rw [hcode, List.drop_left' (codeSize_prologueCode _)]
  have hentries : ∀ entry ∈ (selectors c.dispatchable).zip targets,
      entry.1.length = 4 ∧ entry.2 < 65536 := by
    intro entry hentry
    obtain ⟨hselector, htarget⟩ := List.of_mem_zip hentry
    exact ⟨length_of_mem_selectors hselector, hsteps.targets_lt _ htarget⟩
  have hrevert : readTests (assemble revertCode ++ bytes) = [] :=
    readTests_of_ne (by decide) _
  rw [hkeep, dispatchTable, hdrop, readTests_dispatchesCode hentries, hrevert, List.append_nil]
  apply List.ext_getElem
  · simp [selectors, hlen]
  · intro k _ hk
    have hk' : k < c.dispatchable.length := by simpa using hk
    obtain ⟨-, -, -, -, -, htarget, -⟩ := hsteps.function (List.getElem?_eq_getElem hk')
    obtain ⟨_, hget⟩ := List.getElem?_eq_some_iff.mp htarget
    simp [selectors, hget]

/-- A reference to an input of a function, at a position of the runtime code: there stands code
that loads the word of the call data at the place of the input, and an execution that comes
there pushes this word. -/
structure LoadsInput (runtime : List UInt8) (position index : Nat) : Prop where
  code : loadBytes index <+: runtime.drop position
  runs : ∀ env : Env, env.code = runtime → 4 + 32 * index < 2 ^ 256 → ∀ s : State,
    Runs env position (position + (loadBytes index).length) ⟨position, s⟩
      ⟨position + (loadBytes index).length,
        s.withStack (dataWord env.data (4 + 32 * index) :: s.stack)⟩

/-- **Interface and runtime code agree.**  The code of a compiled source is its creation code
and then its runtime code.  The tests of the runtime code correspond, in order, to the
functions that the interface declares: each compares the selector of the declared signature
and leads to where the code of the function begins.  If the inputs of a declared function have
different names, every reference of the function to one of them loads the word that the caller
puts at its place. -/
theorem interface_matches_code {source : String} {r : Compiled}
    (hok : (compile source).2.result = .ok r) :
    r.code = (compile source).1.emitter.init.toList ++ (compile source).1.runtime ∧
      dispatchTable (compile source).1.runtime =
        r.interface.functions.zipIdx.map (fun (d, k) =>
          (d.selector, functionStart (compile source).1.contract k)) ∧
      ∀ (k j position : Nat) (d : DeclaredFunction) (input : TypedName),
        r.interface.functions[k]? = some d → (d.inputs.map TypedName.name).Nodup →
        d.inputs[j]? = some input →
        Reference (compile source).1.contract k input.name position →
        LoadsInput (compile source).1.runtime position j := by
  obtain ⟨statements, hsteps⟩ := compile_steps hok
  have hfunctions := hsteps.functions_eq
  refine ⟨hsteps.code, ?_, ?_⟩
  · rw [Compiler.runtime, dispatchTable_runtime hsteps.generated, hfunctions, List.zipIdx_map,
      List.map_map]
    apply List.map_congr_left
    rintro ⟨⟨name, f⟩, k⟩ hmem
    have hread := hsteps.contract_analyzed.functionsRead (List.fst_mem_of_mem_zipIdx hmem)
    exact Prod.ext (hread.selector_declared name).symm rfl
  · intro k j position d input hd hdistinct hinput href
    rw [hfunctions, List.getElem?_map, Option.map_eq_some_iff] at hd
    obtain ⟨⟨name, f⟩, hk, rfl⟩ := hd
    have hnames : (f.declared name).inputs.map TypedName.name = f.args :=
      Interface.names_inputsOf f
    have hj : f.args[j]? = some input.name := by
      rw [← hnames, List.getElem?_map, hinput]
      rfl
    rw [hnames] at hdistinct
    have hload := href.loads hsteps.generated hk hdistinct hj
    refine ⟨hload, ?_⟩
    intro env henv hlt s
    exact runs_loadBytes (by rw [henv]; exact hload) hlt s

/-! ## A contract with two inputs -/

/-- A source with one function, which refers to its second input in a branch. -/
def clampText : String :=
  "class Clamp(PySmartContract):\n" ++
  "    @public_function\n" ++
  "    def clamp(self, who: str, n: int):\n" ++
  "        if n > 5:\n" ++
  "            return n\n" ++
  "        return 5\n"

open Source in
def clampTest : Expr := .compare (.name "n") .gt (.literal (.int 5)) []

open Source in
def clampBody : List Stmt :=
  [.ifThen clampTest [.ret (some (.name "n"))] [], .ret (some (.literal (.int 5)))]

open Source in
def clampStatements : List Stmt :=
  [.classDef "Clamp" [.name "PySmartContract"] []
    [.functionDef false "clamp" [⟨.regular, "self", none, none⟩,
        ⟨.regular, "who", some (.name "str"), none⟩, ⟨.regular, "n", some (.name "int"), none⟩]
      clampBody [.name "public_function"] none] []]

def clamp : Function where
  isPublic := true
  args := ["who", "n"]
  paramTypes := ["address", "uint256"]
  hasReturn := true
  body := clampBody

open Source in
theorem read_clamp : readStatements clampText = some clampStatements :=
  readStatements_eq (by repeat' constructor) (by decide +kernel)

/-- The contract found in the source. -/
def clampContract : ContractState where
  functions := [("clamp", clamp)]

theorem contract_clamp :
    (({} : Analyzer).analyze clampStatements).1.layout.toState = clampContract := by cbv

theorem compile_clamp :
    ∃ r, (compile clampText).2.result = .ok r ∧ (compile clampText).1.contract = clampContract ∧
      r.interface.functions = [clamp.declared "clamp"] :=
  exists_compiled read_clamp contract_clamp (by decide +kernel)

/-- The size of the runtime code that has been written. -/
def writtenSize : EStateM.Result Fault Emitter Unit → Nat
  | .ok () e => e.runtime.size
  | .error _ _ => 0

/-- The compiler comes to the reference in the branch with an emitter that has written 44
bytes. -/
theorem reference_clamp : Reference clampContract 0 "n" 44 := by
  have hsize : writtenSize ((do
      emitUpToBody clampContract 0
      compileExpr (argMap clamp) clampTest
      emitElseJump : Emit Unit).run {}) = 44 := by decide +kernel
  unfold writtenSize at hsize
  split at hsize
  case h_1 e₂ hrun =>
    obtain ⟨_, e, hopen, hrun⟩ := bind_eq_ok.mp hrun
    obtain ⟨_, e₁, htest, hjump⟩ := bind_eq_ok.mp hrun
    refine ⟨"clamp", clamp, e, e₂, rfl, hopen, ?_, hsize.symm⟩
    have hbranch : ReflTransGen (Calls (argMap clamp)) (.stmts clampBody, e)
        (.stmts [.ret (some (.name "n"))], e₂) := .tail (.single .head) (.body htest hjump)
    exact .tail (.tail hbranch .head) .returned
  case h_2 => simp at hsize

/-- The only test leads to the position behind the dispatcher, and the reference to `n` in the
branch loads the second argument. -/
theorem interface_matches_code_clamp :
    ∃ r, (compile clampText).2.result = .ok r ∧
      (dispatchTable (compile clampText).1.runtime).map Prod.fst =
        [(Hash.keccak256 (Text.utf8 "clamp(address,uint256)")).take 4] ∧
      LoadsInput (compile clampText).1.runtime 44 1 := by
  obtain ⟨r, hok, hcontract, hfunctions⟩ := compile_clamp
  obtain ⟨-, htable, hload⟩ := interface_matches_code hok
  have hsignature : (clamp.declared "clamp").signature = "clamp(address,uint256)" := by
    decide +kernel
  refine ⟨r, hok, ?_, ?_⟩
  · rw [htable, hfunctions, ← hsignature]
    simp [DeclaredFunction.selector]
  · refine hload 0 1 44 (clamp.declared "clamp") ⟨"n", "uint256"⟩ ?_ ?_ rfl ?_
    · rw [hfunctions]
      rfl
    · decide
    · rw [hcontract]
      exact reference_clamp

end Evm

end ContractKit
