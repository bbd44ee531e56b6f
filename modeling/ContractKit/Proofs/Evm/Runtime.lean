import ContractKit.Proofs.Evm.CreationListing
import ContractKit.Proofs.Evm.RuntimeListing
import ContractKit.Proofs.Evm.Straight
import ContractKit.Proofs.Layout.Slots

/-!
# The runtime code of an analyzed contract

If code is generated for a contract that came out of an analysis, its slots fit into words,
so its runtime code is the listing of `RuntimeListing`.  The code of each function lies
between two positions that the generator itself passes through: where it stands when it
begins to write the function, and where it stands when it begins with the next.
-/

namespace ContractKit.Evm

variable {f : Function} {k : Nat} {name : String}

variable {c : ContractState} {e e' : Emitter} {u : Unit}

/-! ## Steps of a generation -/

/-- Writes the runtime code of a contract up to one of the functions that messages can
call, as generating the whole code does. -/
def emitUpTo (c : ContractState) (k : Nat) : Emit (List Nat) := do
  report "[blue]Generating complete contract bytecode...[/blue]"
  setRegion (.runtime "runtime")
  let _ ← emitDispatcher c
  emitFunctions (c.dispatchable.take k)

/-- Where the code of a function begins, by its place among those that messages can call;
behind the last of them, where the runtime code ends. -/
def functionStart (c : ContractState) (k : Nat) : Nat :=
  match (emitUpTo c k).run {} with
  | .ok _ e => e.runtime.size
  | .error _ e => e.runtime.size

/-- The emitter with which a generation begins to write the runtime code. -/
def openedRuntime : Emitter where
  region := .runtime "runtime"
  log := ["[blue]Generating complete contract bytecode...[/blue]"]

theorem run_emitContract (c : ContractState) :
    (emitContract c).run {} = (do
      emitRuntime c
      setRegion .init
      emitInit c (← get).runtime.size) openedRuntime := rfl

theorem emitContract_steps (h : (emitContract c).run {} = .ok u e) :
    ∃ e₁, emitRuntime c openedRuntime = .ok () e₁ ∧
      emitInit c e₁.runtime.size { e₁ with region := .init } = .ok u e := by
  rw [run_emitContract] at h
  obtain ⟨_, e₁, hruntime, h⟩ := bind_eq_ok.mp h
  exact ⟨e₁, hruntime, h⟩

/-- The size of the runtime code of a contract, if code can be generated for it. -/
def runtimeSize? (c : ContractState) : Option Nat :=
  match (emitContract c).run {} with
  | .ok _ e => some e.runtime.size
  | .error _ _ => none

theorem runtimeSize?_eq (h : (emitContract c).run {} = .ok u e) :
    runtimeSize? c = some e.runtime.size := by
  simp [runtimeSize?, h]

theorem exists_of_runtimeSize? (h : (runtimeSize? c).isSome = true) :
    ∃ e, (emitContract c).run {} = .ok () e := by
  unfold runtimeSize? at h
  split at h
  case h_1 e hrun => exact ⟨e, hrun⟩
  case h_2 => simp at h

/-- What is written up to a function: the dispatcher and the functions in front of it. -/
theorem emitUpTo_eq_ok {jumps positions : List Nat}
    (hdispatcher : emitDispatcher c openedRuntime = .ok jumps e)
    (hfunctions : emitFunctions (c.dispatchable.take k) e = .ok positions e') :
    (emitUpTo c k).run {} = .ok positions e' :=
  bind_eq_ok.mpr ⟨_, _, rfl, bind_eq_ok.mpr ⟨_, _, rfl,
    bind_eq_ok.mpr ⟨_, _, hdispatcher, hfunctions⟩⟩⟩

/-- Of functions that can be written all at once the first few can be. -/
theorem emitFunctions_take {fs : List (String × Function)} {positions : List Nat}
    (h : emitFunctions fs e = .ok positions e') (k : Nat) :
    ∃ positions' e'', emitFunctions (fs.take k) e = .ok positions' e'' := by
  induction fs generalizing e positions k with
  | nil => exact ⟨_, _, by simpa using h⟩
  | cons entry rest ih =>
    obtain _ | k := k
    · exact ⟨[], e, rfl⟩
    obtain ⟨name, f⟩ := entry
    obtain ⟨position, e₁, hfirst, h⟩ := bind_eq_ok.mp h
    obtain ⟨others, e₂, hrest, h⟩ := bind_eq_ok.mp h
    obtain ⟨-, rfl⟩ := pure_eq_ok.mp h
    obtain ⟨others', e₃, htake⟩ := ih hrest k
    exact ⟨_, _, bind_eq_ok.mpr ⟨_, _, hfirst, bind_eq_ok.mpr ⟨_, _, htake, rfl⟩⟩⟩

/-- Functions are written one behind the other: those in front of one of them, this one, and those
behind it. -/
theorem emitFunctions_at {fs : List (String × Function)} {positions : List Nat}
    (h : emitFunctions fs e = .ok positions e') (hk : fs[k]? = some (name, f)) :
    ∃ front back ps position ps' e₁ e₂, emitFunctions (fs.take k) e = .ok ps e₁ ∧
      emitFunction f e₁ = .ok position e₂ ∧ emitFunctions (fs.take (k + 1)) e = .ok ps' e₂ ∧
      Wrote e front e₁ ∧ Wrote e₂ back e' := by
  induction fs generalizing e positions k with
  | nil => simp at hk
  | cons entry rest ih =>
    obtain ⟨name', g⟩ := entry
    obtain ⟨position, e₁, hfirst, h⟩ := bind_eq_ok.mp h
    obtain ⟨others, e₂, hrest, h⟩ := bind_eq_ok.mp h
    obtain ⟨-, rfl⟩ := pure_eq_ok.mp h
    obtain _ | k := k
    · obtain ⟨-, rfl⟩ : name' = name ∧ g = f := by simpa using hk
      obtain ⟨back, hback⟩ := appends_emitFunctions _ hrest
      exact ⟨[], back, [], position, [position], e, e₁, rfl, hfirst,
        bind_eq_ok.mpr ⟨_, _, hfirst, rfl⟩, .refl e, hback⟩
    · obtain ⟨front, back, ps, position', ps', e₃, e₄, htake, hfun, htake', hfront, hback⟩ :=
        ih hrest (by simpa using hk)
      obtain ⟨bytes, hw⟩ := appends_emitFunction g hfirst
      exact ⟨bytes ++ front, back, _, position', _, e₃, e₄,
        bind_eq_ok.mpr ⟨_, _, hfirst, bind_eq_ok.mpr ⟨_, _, htake, rfl⟩⟩, hfun,
        bind_eq_ok.mpr ⟨_, _, hfirst, bind_eq_ok.mpr ⟨_, _, htake', rfl⟩⟩, hw.trans hfront, hback⟩

theorem functionsCode_take {start : Nat} {fs : List (String × Function)}
    {codes : List (List Instr)} (h : functionsCode c start fs = some codes) (k : Nat) :
    functionsCode c start (fs.take k) = some (codes.take k) := by
  induction fs generalizing start codes k with
  | nil =>
    obtain rfl := Option.some.inj h
    simp [functionsCode]
  | cons entry rest ih =>
    obtain _ | k := k
    · rfl
    obtain ⟨code, others, hcode, hothers, rfl⟩ := functionsCode_cons_eq_some.mp h
    exact functionsCode_cons_eq_some.mpr ⟨code, others.take k, hcode, ih hothers k, rfl⟩

/-- The code of a function is compiled for the position at which it comes to stand. -/
theorem functionsCode_getElem? {start : Nat} {fs : List (String × Function)}
    {codes : List (List Instr)} (h : functionsCode c start fs = some codes)
    (hk : fs[k]? = some (name, f)) :
    ∃ code, codes[k]? = some code ∧
      functionCode c (start + codeSize (codes.take k).flatten) f = some code := by
  induction fs generalizing start codes k with
  | nil => simp at hk
  | cons entry rest ih =>
    obtain ⟨first, others, hfirst, hothers, rfl⟩ := functionsCode_cons_eq_some.mp h
    obtain _ | k := k
    · obtain rfl : entry = (name, f) := by simpa using hk
      exact ⟨first, rfl, hfirst⟩
    · obtain ⟨code, hcode, hfun⟩ := ih hothers (by simpa using hk)
      exact ⟨code, by simpa using hcode, by simpa [Nat.add_assoc] using hfun⟩

/-! ## What fits into words -/

/-- A message can hold the arguments of each function that messages can call. -/
def Callable (c : ContractState) : Prop :=
  ∀ entry ∈ c.dispatchable, 4 + 32 * entry.2.args.length < 2 ^ 256

theorem bodyScope_fits_of_lt (hc : Analyzed c) (hslots : c.slots.length < 2 ^ 256)
    (hargs : 4 + 32 * f.args.length < 2 ^ 256) : (bodyScope c f).Fits where
  slot := by
    intro x k hk
    obtain ⟨hpos, hlt⟩ := hc.slot_lt (Assoc.mem_of_get? hk)
    omega
  offset := by
    intro x i hi
    have hmem := Assoc.mem_ofList (Assoc.mem_of_get? hi)
    obtain ⟨⟨y, j⟩, hj, heq⟩ := List.mem_map.mp hmem
    obtain ⟨-, rfl⟩ := Prod.mk.inj heq
    have hlt : j < f.args.length := (List.mem_zipIdx' hj).1
    simp only [argumentOffset]
    omega

theorem bodyScope_fits (hc : Analyzed c) (hslots : c.slots.length < 65536)
    (hargs : 4 + 32 * f.args.length < 2 ^ 256) : (bodyScope c f).Fits :=
  bodyScope_fits_of_lt hc (by omega) hargs

theorem functionsFit (hc : Analyzed c) (hslots : c.slots.length < 65536) (hcall : Callable c)
    (hbody : ∀ entry ∈ c.dispatchable, StmtsFit entry.2.body) : FunctionsFit c c.dispatchable :=
  ⟨fun entry he => bodyScope_fits hc hslots (hcall entry he), hbody⟩

/-! ## The listing -/

/-- A runtime code is a listing, with the given codes of the functions that messages can
call. -/
structure RuntimeListing (c : ContractState) (runtime : List UInt8) (codes : List (List Instr)) :
    Prop where
  fit : FunctionsFit c c.dispatchable
  codes_eq : functionsCode c (functionsStart c) c.dispatchable = some codes
  runtime_eq : runtime = assemble (runtimeCode c codes)
  revert_lt : revertStart c < 65536
  starts_lt : ∀ t ∈ codeStarts (functionsStart c) codes, t < 65536
  functionStart_eq : ∀ k, functionStart c k = functionsStart c + codeSize (codes.take k).flatten

/-- The generator passes through the position of each function. -/
theorem functionStart_of_codes (hfit : FunctionsFit c c.dispatchable)
    (h : emitRuntime c openedRuntime = .ok u e) {codes : List (List Instr)}
    (hcodes : functionsCode c (functionsStart c) c.dispatchable = some codes) (k : Nat) :
    functionStart c k = functionsStart c + codeSize (codes.take k).flatten := by
  obtain ⟨jumps, e₁, hdispatcher, h⟩ := bind_eq_ok.mp h
  obtain ⟨targets, e₂, hfunctions, -⟩ := bind_eq_ok.mp h
  obtain ⟨positions, e₃, htake⟩ := emitFunctions_take hfunctions k
  have hrun := emitUpTo_eq_ok hdispatcher htake
  obtain ⟨-, -, hw₁⟩ := wrote_emitDispatcher rfl hdispatcher
  have hstart : e₁.current.size = functionsStart c := by
    rw [hw₁.codeSize, codeSize_dispatcherCode (length_placeholders c)]
    exact Nat.zero_add _
  have hfit' : FunctionsFit c (c.dispatchable.take k) :=
    ⟨fun entry he => hfit.scope entry (List.mem_of_mem_take he),
      fun entry he => hfit.body entry (List.mem_of_mem_take he)⟩
  obtain ⟨codes', hcodes', -, hw₂⟩ := wrote_emitFunctions hfit' hw₁.contract htake
  rw [hstart, functionsCode_take hcodes, Option.some.injEq] at hcodes'
  subst hcodes'
  have hruntime : e₃.current = e₃.runtime := by
    have hregion₃ : e₃.region = .runtime "runtime" := by rw [hw₂.region, hw₁.region]; rfl
    simp [Emitter.current, hregion₃]
  simp only [functionStart, hrun, ← hruntime]
  rw [hw₂.codeSize, hstart]

/-- The runtime code that is generated for an analyzed contract is a listing. -/
theorem runtime_listing (hc : Analyzed c) (hcall : Callable c)
    (hbody : ∀ entry ∈ c.dispatchable, StmtsFit entry.2.body)
    (h : (emitContract c).run {} = .ok u e) :
    ∃ codes, RuntimeListing c e.runtime.toList codes := by
  obtain ⟨e₁, hruntime, hinit⟩ := emitContract_steps h
  obtain ⟨hslots, hkeep⟩ := slots_lt_of_emitInit rfl hinit
  have hfit := functionsFit hc hslots hcall hbody
  obtain ⟨codes, hcodes, hrevert, hstarts, hlist, -, hregion⟩ := wrote_emitRuntime hfit rfl hruntime
  have hcurrent : e₁.current = e₁.runtime := by
    simp [Emitter.current, hregion, openedRuntime]
  refine ⟨codes, hfit, hcodes, ?_, hrevert, hstarts, functionStart_of_codes hfit hruntime hcodes⟩
  rw [hkeep, ← hlist, hcurrent]

/-- Whatever the other functions are, a function that fits into words has its code at its place, and
the next function begins behind it. -/
theorem function_stands (h : (emitContract c).run {} = .ok u e)
    (hk : c.dispatchable[k]? = some (name, f)) (hS : (bodyScope c f).Fits)
    (hfit : StmtsFit f.body) :
    ∃ code, functionCode c (functionStart c k) f = some code ∧
      functionStart c (k + 1) = functionStart c k + codeSize code ∧
      ∀ env : Env, env.code = e.runtime.toList →
        StandsAt env (functionStart c k) (assemble code) := by
  obtain ⟨e₁, hruntime, hinit⟩ := emitContract_steps h
  obtain ⟨-, hkeep⟩ := slots_lt_of_emitInit rfl hinit
  obtain ⟨e₂, e₃, targets, bytes, hsteps⟩ := emitRuntime_steps rfl hruntime
  obtain ⟨jumps, hdispatcher⟩ := hsteps.dispatcher
  obtain ⟨front, back, ps, position, ps', e₄, e₅, htake, hfun, htake', hfront, hback⟩ :=
    emitFunctions_at hsteps.functions hk
  obtain ⟨-, code, hcode, hw⟩ :=
    wrote_emitFunction hS hfit (hfront.contract.trans hsteps.start_contract) hfun
  -- The generator passes through the position in front of the function and the one behind it.
  have hcurrent : ∀ e' : Emitter, e'.region = e₂.region → e'.current = e'.runtime := by
    intro e' hregion
    rw [hsteps.start_region] at hregion
    simp [Emitter.current, hregion, openedRuntime]
  have hstart : functionStart c k = e₄.current.size := by
    rw [functionStart, emitUpTo_eq_ok hdispatcher htake, hcurrent e₄ hfront.region]
  have hnext : functionStart c (k + 1) = e₅.current.size := by
    rw [functionStart, emitUpTo_eq_ok hdispatcher htake',
      hcurrent e₅ (hw.region.trans hfront.region)]
  refine ⟨code, hstart ▸ hcode, by rw [hnext, hstart, hw.codeSize], fun env henv => ?_⟩
  have hbytes : bytes = front ++ assemble code ++ back :=
    List.append_cancel_left
      (hsteps.wrote.current.symm.trans ((hfront.trans hw).trans hback).current)
  have hlength : (assemble (dispatcherCode c targets)).length = functionsStart c :=
    codeSize_dispatcherCode (length_emitFunctions hsteps.functions)
  refine ⟨assemble (dispatcherCode c targets) ++ front, back, ?_, ?_⟩
  · have hwhole : e₁.current = e₁.runtime :=
      hcurrent e₁ (hsteps.region.trans hsteps.start_region.symm)
    rw [henv, hkeep, ← hwhole, hsteps.code, hbytes]
    simp
  · rw [hstart, hfront.size, hsteps.start_size, List.length_append, hlength]

namespace RuntimeListing

variable (env : Env) {codes : List (List Instr)}

theorem length_codes (h : RuntimeListing c env.code codes) : codes.length = c.dispatchable.length :=
  length_functionsCode h.codes_eq

/-- The runtime code ends where the code of its last function does. -/
theorem length_runtime (h : RuntimeListing c env.code codes) :
    env.code.length = functionStart c c.dispatchable.length := by
  have hlen : (codeStarts (functionsStart c) codes).length = c.dispatchable.length :=
    (length_codeStarts _ _).trans (h.length_codes env)
  rw [h.functionStart_eq, ← h.length_codes env, List.take_length, h.runtime_eq]
  exact (codeSize_append _ _).trans (by rw [codeSize_dispatcherCode hlen])

/-- In front of the functions stands the dispatcher. -/
theorem spans_dispatcher (h : RuntimeListing c env.code codes) :
    Spans env 0 (functionStart c 0) 0 (dispatcherCode c (codeStarts (functionsStart c) codes)) := by
  have hlen : (codeStarts (functionsStart c) codes).length = c.dispatchable.length :=
    (length_codeStarts _ _).trans (h.length_codes env)
  refine ⟨⟨[], assemble codes.flatten, ?_, rfl⟩, le_rfl, ?_⟩
  · simpa [runtimeCode] using h.runtime_eq
  · rw [h.functionStart_eq, codeSize_dispatcherCode hlen]
    simp

/-- The code of each function stands at its place, and that of no other function is in
its range. -/
theorem spans_function (h : RuntimeListing c env.code codes)
    (hk : c.dispatchable[k]? = some (name, f)) :
    ∃ code, functionCode c (functionStart c k) f = some code ∧
      Spans env (functionStart c k) (functionStart c (k + 1)) (functionStart c k) code := by
  obtain ⟨code, hcode, hfun⟩ := functionsCode_getElem? h.codes_eq hk
  rw [← h.functionStart_eq] at hfun
  have hlen : (codeStarts (functionsStart c) codes).length = c.dispatchable.length :=
    (length_codeStarts _ _).trans (h.length_codes env)
  have hlt : k < codes.length := (List.getElem?_eq_some_iff.mp hcode).1
  have hget : codes[k] = code := (List.getElem?_eq_some_iff.mp hcode).2
  refine ⟨code, hfun, ⟨dispatcherCode c (codeStarts (functionsStart c) codes) ++
    (codes.take k).flatten, assemble (codes.drop (k + 1)).flatten, ?_, ?_⟩, le_rfl, ?_⟩
  · have hsplit : codes = codes.take k ++ (code :: codes.drop (k + 1)) := by
      rw [← hget, List.getElem_cons_drop, List.take_append_drop]
    have hflat : codes.flatten =
        (codes.take k).flatten ++ (code ++ (codes.drop (k + 1)).flatten) := by
      rw [← List.flatten_cons, ← List.flatten_append, ← hsplit]
    rw [h.runtime_eq, runtimeCode, hflat]
    simp
  · rw [h.functionStart_eq, codeSize_append, codeSize_dispatcherCode hlen]
  · rw [h.functionStart_eq, h.functionStart_eq, List.take_succ_eq_append_getElem hlt, hget]
    simp [Nat.add_assoc]

end RuntimeListing

/-! ## A contract

A contract with one function, at which the statements about all contracts can be looked at.
A number above five is added to `count` and the sum is returned; a smaller one is refused.
The last number accepted is not kept, but `bonus` is set to seven. -/

open Source in
def tallyBody : List Stmt :=
  [.ifThen (.compare (.name "n") .gt (.literal (.int 5)) [])
    [.assign [.attribute (.name "self") "count"]
      (.binary (.attribute (.name "self") "count") .add (.name "n")),
     .assign [.attribute (.name "self") "bonus"] (.literal (.int 7))]
    [.ret none],
   .ret (some (.attribute (.name "self") "count"))]

open Source in
def tallySource : List Stmt :=
  [.classDef "Tally" [.name "PySmartContract"] []
    [.functionDef false "add" [⟨.regular, "self", none, none⟩, ⟨.regular, "n", none, none⟩]
      tallyBody [.name "public_function"] none] []]

def tallyAdd : Function where
  isPublic := true
  args := ["n"]
  paramTypes := ["uint256"]
  hasReturn := true
  body := tallyBody

def tally : ContractState where
  slots := [("count", 0), ("bonus", 1)]
  initialValues := [("count", .int 0), ("bonus", .int 7)]
  functions := [("add", tallyAdd)]

theorem analyzed_tally : Analyzed tally := by
  have hstate : (({} : Analyzer).analyze tallySource).1.layout.toState = tally := by cbv
  exact hstate ▸ .of_fresh (by cbv)

theorem generated_tally : (runtimeSize? tally).isSome = true := by decide +kernel

theorem supported_tallyAdd : SupportedFunction tallyAdd where
  distinct := by decide
  callable := by decide
  body := by
    simp [tallyAdd, tallyBody, SupportedStmts, SupportedStmt, SupportedExpr, SupportedTarget]

theorem supported_tally : ∀ entry ∈ tally.dispatchable, SupportedFunction entry.2 := by
  intro entry he
  obtain rfl : entry = ("add", tallyAdd) := List.mem_singleton.mp he
  exact supported_tallyAdd

end ContractKit.Evm
