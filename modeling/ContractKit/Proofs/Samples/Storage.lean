import ContractKit.Proofs.Evm.Creation
import ContractKit.Proofs.Evm.Messages
import ContractKit.Proofs.Simulation.Declarations
import ContractKit.Proofs.Source.SameTree
import ContractKit.Samples

/-!
# The storage sample on the chain

The sample `SimpleStorage` keeps one number, which messages set and get.  Its source is compiled,
created on an empty storage and sent requests; an instance of its class is simulated and called
alike.  Both are a cell that holds the last number set: on the chain a request to set returns
nothing and one to get returns the word held, in the simulation the first has no result and the
second has the number.  The chain refuses all other requests.
-/

namespace ContractKit.Samples

open Source Simulation Evm

/-! ## The source -/

/-- The body of the method that sets the number. -/
def setBody : List Stmt :=
  [.expression (.literal (.text (Text.pointsOf "Set stored data."))),
   .assign [.attribute (.name "self") "stored_data"] (.name "value"),
   .expression (.call (.attribute (.name "self") "event")
     [.literal (.text (Text.pointsOf "DataStored")), .name "value"] [])]

def getBody : List Stmt :=
  [.expression (.literal (.text (Text.pointsOf "Get stored data."))),
   .ret (some (.attribute (.name "self") "stored_data"))]

def storageBody : List Stmt :=
  [.expression (.literal (.text (Text.pointsOf "Simple storage contract in Python."))),
   .functionDef false "__init__" [⟨.regular, "self", none, none⟩]
     [baseSetup, Layout.declaration ("stored_data", 0)] [] none,
   .functionDef false "set" [⟨.regular, "self", none, none⟩,
     ⟨.regular, "value", some (.name "int"), none⟩] setBody [.name "public_function"] none,
   .functionDef false "get" [⟨.regular, "self", none, none⟩] getBody [.name "view_function"]
     (some (.name "int"))]

def storageStatements : List Stmt :=
  [.classDef "SimpleStorage" [.name "PySmartContract"] [] storageBody []]

def storageSample : Sample := ⟨"SimpleStorage", simpleStorage⟩

theorem read_simpleStorage : readStatements simpleStorage = some storageStatements :=
  readStatements_lines (by repeat constructor) (by decide +kernel)

theorem read_storage : readStatements storageSample.source = some storageStatements :=
  read_simpleStorage

/-! ## The contract -/

def setFunction : Function where
  isPublic := true
  args := ["value"]
  paramTypes := ["uint256"]
  body := setBody

def getFunction : Function where
  isView := true
  hasReturn := true
  body := getBody

/-- What the analysis knows of the source at its end. -/
def storageLayout : Layout where
  slots := [("stored_data", 0)]
  initialValues := [("stored_data", .int 0)]
  types := [("stored_data", .uint256)]
  functions := [("set", setFunction), ("get", getFunction)]
  nextSlot := 1

/-- The contract found in the source. -/
def storageContract : ContractState := storageLayout.toState

theorem outline_storage :
    Layout.outline storageStatements =
      [.contract "SimpleStorage", .constructor,
       .assign "stored_data" (Layout.declaringCall ("stored_data", 0)), .leave,
       .function "set" [⟨.regular, "self", none, none⟩,
         ⟨.regular, "value", some (.name "int"), none⟩] setBody [.name "public_function"],
       .assign "stored_data" (.name "value"), .leave,
       .function "get" [⟨.regular, "self", none, none⟩] getBody [.name "view_function"],
       .leave] := by cbv

theorem shown?_zero : (Value.int 0).shown? = some "0" := by
  decide +kernel

-- Only the text of the first value keeps the analysis from being evaluated: it compares the value
-- with a power of ten that has thousands of digits.
theorem analyze_storage :
    (({} : Analyzer).analyze storageStatements).1.layout = storageLayout ∧
      (({} : Analyzer).analyze storageStatements).2 = none := by
  rw [Analyzer.analyze, outline_storage]
  simp only [Analyzer.walk, Analyzer.step, Analyzer.assign, Analyzer.reportInitial,
    Analyzer.declare, Layout.assignedValue, Layout.declaringCall, shown?_zero]
  exact ⟨rfl, rfl⟩

theorem analyzed_storage : Analyzed storageContract := by
  rw [storageContract, ← analyze_storage.1]
  exact .of_fresh analyze_storage.2

theorem size_storage : runtimeSize? storageContract = some 66 := by decide +kernel

theorem supported_storage :
    ∀ entry ∈ storageContract.dispatchable, SupportedFunction entry.2 := by
  intro entry he
  have hentries : storageContract.dispatchable = [("set", setFunction), ("get", getFunction)] := rfl
  rw [hentries] at he
  simp only [List.mem_cons, List.not_mem_nil, or_false] at he
  rcases he with rfl | rfl
  · refine ⟨by decide, by decide, ?_⟩
    simp [setFunction, setBody, SupportedStmts, SupportedStmt, SupportedTarget, SupportedExpr]
  · refine ⟨by decide, by decide, ?_⟩
    simp [getFunction, getBody, SupportedStmts, SupportedStmt, SupportedExpr]

theorem created_storage :
    ∃ r e last, (compile storageSample.source).2.result = .ok r ∧
      (emitContract storageContract).run {} = .ok () e ∧
      Halts ⟨r.code, [], by decide⟩ 0 r.code.length ⟨0, ⟨[], fun _ => 0, fun _ => 0⟩⟩
        (.returned e.runtime.toList) last ∧ last.state.storage 0 = 0 := by
  obtain ⟨e, hgen⟩ := exists_of_runtimeSize? (by rw [size_storage]; rfl)
  have hsize : e.runtime.size = 66 :=
    Option.some.inj ((runtimeSize?_eq hgen).symm.trans size_storage)
  obtain ⟨-, hcompiled, -⟩ := compile_of_analyzed read_storage analyze_storage.2
    (congrArg Layout.toState analyze_storage.1)
  obtain ⟨r, hok, hcode⟩ := hcompiled e hgen
  have hvalue : ∀ entry ∈ storageContract.slots,
      StorableValue (storageContract.initialValue entry.1) := by
    intro entry he
    obtain rfl : entry = ("stored_data", 0) := List.mem_singleton.mp he
    exact ⟨by decide, by decide⟩
  obtain ⟨returned, last, hhalts, hstorage, hruntime⟩ := creation_halts analyzed_storage hgen hvalue
    (by rw [hsize]; decide) (show ([] : List UInt8).length < 2 ^ 256 by decide) (fun _ => 0)
    (fun _ => 0)
  rw [hruntime (by rw [hsize]; decide +kernel)] at hhalts
  refine ⟨r, e, last, hok, hgen, ?_, ?_⟩
  · rw [hcode]
    exact hhalts.mono (by simp [Emitter.code])
  · rw [hstorage]
    rfl

/-! ## Requests -/

/-- The selector of the function that sets the number. -/
def setSelector : List UInt8 := Hash.selector "set(uint256)"

def getSelector : List UInt8 := Hash.selector "get()"

/-- What can be asked of the contract: to set the number, to get it, or anything whose data begin
with neither selector. -/
inductive Request where
  | set (value : Word)
  | get
  | unknown (data : List UInt8) (fits : data.length < 2 ^ 256)
      (foreign : data.take 4 ≠ setSelector ∧ data.take 4 ≠ getSelector)

namespace Request

def data : Request → List UInt8
  | set value => setSelector ++ bytesOf value
  | get => getSelector
  | unknown data _ _ => data

def value? : Request → Option Word
  | set value => some value
  | _ => none

/-- How the chain answers while a number is held. -/
def reply (w : Word) : Request → Halt
  | set _ => .returned []
  | get => .returned (bytesOf w)
  | unknown _ _ _ => .reverted []

/-- The method that an instance has for a request, with its arguments. -/
def call? : Request → Option (String × List Value)
  | set value => some ("set", [.int value.toNat])
  | get => some ("get", [])
  | unknown _ _ _ => none

/-- What the method returns while a number is held. -/
def result? (w : Word) : Request → Option (Except Failure Value)
  | set _ => some (.ok .none)
  | get => some (.ok (.int w.toNat))
  | unknown _ _ _ => none

end Request

/-- The number held after requests: the last that was set, or the first one. -/
def held (w : Word) (requests : List Request) : Word :=
  (requests.filterMap Request.value?).getLastD w

/-- What each request is told, by the number held when it is made. -/
def tell {α : Type} (answer : Word → Request → α) (w : Word) (requests : List Request) : List α :=
  requests.mapIdx fun i q => answer (held w (requests.take i)) q

theorem held_cons (w : Word) (q : Request) (rest : List Request) :
    held w (q :: rest) = held (q.value?.getD w) rest := by
  cases hvalue : q.value? with
  | none => simp only [held, List.filterMap_cons, hvalue, Option.getD_none]
  | some v => simp only [held, List.filterMap_cons, hvalue, List.getLastD_cons, Option.getD_some]

/-- The first request is told by the number held at the start, and the others by what it leaves. -/
theorem tell_cons {α : Type} (answer : Word → Request → α) (w : Word) (q : Request)
    (rest : List Request) :
    tell answer w (q :: rest) = answer w q :: tell answer (q.value?.getD w) rest := by
  simp [tell, List.mapIdx_cons, held]

/-! ## The chain -/

theorem selectors_ne : setSelector ≠ getSelector := by decide +kernel

theorem take_selector (signature : String) (more : List UInt8) :
    (Hash.selector signature ++ more).take 4 = Hash.selector signature := by
  rw [← length_selector signature, List.take_left]

theorem signature_set : setFunction.signature "set" = "set(uint256)" := by decide

theorem signature_get : getFunction.signature "get" = "get()" := by decide

theorem routed?_storage (data : List UInt8) :
    routed? storageContract data =
      if data.take 4 = setSelector then some 0
      else if data.take 4 = getSelector then some 1 else none := by
  have hshort : ∀ signature, data.length < 4 → data.take 4 ≠ Hash.selector signature := by
    intro signature hlt heq
    have hlen := congrArg List.length heq
    simp only [List.length_take, length_selector] at hlen
    omega
  have hentries : storageContract.dispatchable = [("set", setFunction), ("get", getFunction)] := rfl
  by_cases hlt : data.length < 4
  · simp [routed?, hlt, setSelector, getSelector, hshort _ hlt]
  · simp only [routed?, hlt, if_false, hentries, List.findIdx?_cons, signature_set, signature_get,
      beq_iff_eq, eq_comm (b := data.take 4), setSelector, getSelector]
    by_cases hset : data.take 4 = Hash.selector "set(uint256)"
    · simp [hset]
    · by_cases hget : data.take 4 = Hash.selector "get()" <;> simp [hset, hget]

theorem Request.length_data_lt (q : Request) : q.data.length < 2 ^ 256 := by
  cases q with
  | set v => simp [data, setSelector, length_selector]
  | get => simp [data, getSelector, length_selector]
  | unknown data fits foreign => exact fits

theorem dataWord_set (v : Word) : dataWord (Request.set v).data 4 = v := by
  have hslice := slice_append_right setSelector (bytesOf v)
  rw [setSelector, length_selector, length_bytesOf] at hslice
  rw [Request.data, setSelector, dataWord, hslice, wordOf, bytesOf,
    bigEndian_bigEndianBytes_of_lt v.isLt]
  simp

theorem callFunction_set (data : List UInt8) (σ : Storage) :
    callFunction storageContract setFunction data σ = (σ.set 0 (dataWord data 4), []) := rfl

theorem callFunction_get (data : List UInt8) (σ : Storage) :
    callFunction storageContract getFunction data σ = (σ, bytesOf (σ 0)) := rfl

section Chain

variable {e : Emitter} (hgen : (emitContract storageContract).run {} = .ok () e)

include hgen

/-- One request: it is answered by the number in the storage, and leaves there what it sets. -/
theorem answers_request (q : Request) (σ : Storage) :
    ∃ σ', Answers e.runtime.toList σ q.data (q.reply (σ 0)) σ' ∧ σ' 0 = q.value?.getD (σ 0) := by
  have hroute := routed?_storage q.data
  cases q with
  | set v =>
    have hset : (Request.set v).data.take 4 = setSelector := take_selector _ _
    rw [if_pos hset] at hroute
    have hanswer := answers_routed analyzed_storage hgen supported_storage
      (show storageContract.dispatchable[0]? = some ("set", setFunction) from rfl)
      (Request.length_data_lt _) hroute σ
    rw [callFunction_set, dataWord_set] at hanswer
    exact ⟨_, hanswer, rfl⟩
  | get =>
    have hget : Request.get.data.take 4 = getSelector := by
      simpa [Request.data, getSelector] using take_selector "get()" []
    have hset : Request.get.data.take 4 ≠ setSelector := by
      rw [hget]
      exact selectors_ne.symm
    rw [if_neg hset, if_pos hget] at hroute
    have hanswer := answers_routed analyzed_storage hgen supported_storage
      (show storageContract.dispatchable[1]? = some ("get", getFunction) from rfl)
      (Request.length_data_lt _) hroute σ
    rw [callFunction_get] at hanswer
    exact ⟨σ, hanswer, rfl⟩
  | unknown data fits foreign =>
    have hroute : routed? storageContract data = none := by
      rw [routed?_storage, if_neg foreign.1, if_neg foreign.2]
    exact ⟨σ, answers_unrouted analyzed_storage hgen supported_storage fits hroute σ, rfl⟩

/-- Requests in turn are answered by the numbers held when they are made. -/
theorem served_requests (requests : List Request) (σ : Storage) :
    ∃ σ', Served e.runtime.toList σ (requests.map Request.data)
        (tell Request.reply (σ 0) requests) σ' ∧ σ' 0 = held (σ 0) requests := by
  induction requests generalizing σ with
  | nil => exact ⟨σ, .nil σ, rfl⟩
  | cons q rest ih =>
    obtain ⟨σ₁, hanswer, hheld⟩ := answers_request hgen q σ
    obtain ⟨σ₂, hserved, hlast⟩ := ih σ₁
    rw [hheld] at hserved hlast
    refine ⟨σ₂, ?_, ?_⟩
    · rw [List.map_cons, tell_cons]
      exact .cons hanswer hserved
    · rw [hlast, held_cons]

end Chain

/-! ## The simulation -/

/-- What an instance returns for requests in turn; one for which it has no method is passed over. -/
def simulate (i : Instance) : List Request → List (Option (Except Failure Value))
  | [] => []
  | q :: rest =>
    match q.call? with
    | none => none :: simulate i rest
    | some (name, args) => some (i.call name args).1 :: simulate (i.call name args).2 rest

def storageClass : Simulation.Class := .ofBody storageBody

def holding (n : Int) : Instance where
  cls := storageClass
  machine :=
    { cells := [.dict [(.text "stored_data", .int 0)], .dict [(.text "stored_data", .int 0)]]
      attributes := [("_state", .dict 0), ("_storage_slots", .dict 1), ("_slot_counter", .int 1),
        ("stored_data", .int n)] }

theorem class?_storage : storageSample.class? = some storageClass := by
  rw [Sample.class?, Class.ofSource?, read_storage]
  rfl

theorem instantiate_storage : storageClass.instantiate = (.ok (), holding 0) := rfl

theorem call_set (n k : Int) : (holding n).call "set" [.int k] = (.ok .none, holding k) := rfl

theorem call_get (n : Int) : (holding n).call "get" [] = (.ok (.int n), holding n) := rfl

/-- Requests to an instance are told by the numbers held when they are made. -/
theorem simulate_eq (requests : List Request) (w : Word) :
    simulate (holding w.toNat) requests = tell Request.result? w requests := by
  induction requests generalizing w with
  | nil => rfl
  | cons q rest ih =>
    rw [tell_cons]
    cases q with
    | set v => simp [simulate, Request.call?, call_set, ih, Request.result?, Request.value?]
    | get => simp [simulate, Request.call?, call_get, ih, Request.result?, Request.value?]
    | unknown data fits foreign =>
      simp [simulate, Request.call?, ih, Request.result?, Request.value?]

/-- **The storage sample.**  The sample that is shipped is compiled, and its code creates a
contract.  Whatever requests this contract is sent, each is answered by the last number set before
it, or by zero: a request to set returns nothing, one to get returns the word of that number, and
data that begin with neither selector are refused and change nothing.  An instance of the sample's
class returns the same numbers for the same requests. -/
theorem simpleStorage_keeps_last_value :
    ∃ shippedSample simulatedSample cls inst r runtime last,
      find? "SimpleStorage" shipped = some shippedSample ∧
      find? "SimpleStorage" builtIn = some simulatedSample ∧
      simulatedSample.class? = some cls ∧ cls.instantiate = (.ok (), inst) ∧
      (compile shippedSample.source).2.result = .ok r ∧
      Halts ⟨r.code, [], by decide⟩ 0 r.code.length ⟨0, ⟨[], fun _ => 0, fun _ => 0⟩⟩
        (.returned runtime) last ∧
      ∀ requests : List Request,
        (∃ σ, Served runtime last.state.storage (requests.map Request.data)
          (tell Request.reply 0 requests) σ) ∧
        simulate inst requests = tell Request.result? 0 requests := by
  obtain ⟨r, e, last, hok, hgen, hhalts, hzero⟩ := created_storage
  refine ⟨storageSample, storageSample, storageClass, holding 0, r, e.runtime.toList, last, rfl,
    rfl, class?_storage, instantiate_storage, hok, hhalts, ?_⟩
  intro requests
  obtain ⟨σ, hserved, -⟩ := served_requests hgen requests last.state.storage
  rw [hzero] at hserved
  exact ⟨⟨σ, hserved⟩, simulate_eq requests 0⟩

end ContractKit.Samples
