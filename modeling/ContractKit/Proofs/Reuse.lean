import ContractKit.Proofs.Compiler
import ContractKit.Proofs.Layout.Reanalysis
import ContractKit.Proofs.Source.SameTree

/-!
# Using a compiler again

A compiler keeps its tables, its codes and what it has charged from one source to the next.  So
what it delivers for a source depends on the sources before it.  If one of these was analyzed to
its end something was charged for it, and nothing that compiles afterwards is delivered as by a
fresh compiler.  If all of them failed before, only the tables can show: they do not iff what is
left in them comes first in the source anyway.
-/

namespace ContractKit

open Source

namespace Compiler

/-- What a compiler delivers for a source: code, interface and metadata, or why there are none. -/
def artifact (c : Compiler) (source : String) :
    Except CompileError (List UInt8 × Interface × Json) :=
  (c.compile source).2.result.map fun r =>
    (r.code, r.interface, r.metadata (c.compile source).1.slots)

def after (sources : List String) : Compiler := (({} : Compiler).compileAll sources).1

/-- What the analyzer of a compiler makes of statements, once its report is handed over. -/
def analysis (c : Compiler) (statements : List Stmt) : Analyzer × Option Fault :=
  c.takeLog.2.analyzer.analyze statements

/-- A source is analyzed to its end, so that code is written for it. -/
def Reaches (c : Compiler) (source : String) : Prop :=
  ∃ statements, readStatements source = some statements ∧ (c.analysis statements).2 = none

/-- Some source of several is analyzed to its end. -/
def Writes (c : Compiler) : List String → Prop
  | [] => False
  | source :: rest => c.Reaches source ∨ (c.compile source).1.Writes rest

/-- The emitter that writing a contract leaves. -/
def emitterOf : EStateM.Result Fault Evm.Emitter Unit → Evm.Emitter
  | .ok _ e => e
  | .error _ e => e

/-- What is delivered for a contract once it is written. -/
def delivered (l : Layout) :
    EStateM.Result Fault Evm.Emitter Unit → Except CompileError (List UInt8 × Interface × Json)
  | .ok _ e =>
    let r : Compiled := ⟨e.code, Interface.ofState l.toState, e.gas, Assoc.keys l.functions⟩
    .ok (r.code, r.interface, r.metadata l.slots)
  | .error fault _ => .error (.fault fault)

variable {c : Compiler} {source : String} {statements : List Stmt} {a : Analyzer} {fault : Fault}

/-! ## One source -/

theorem compile_of_none (hread : readStatements source = none) :
    (c.compile source).1 = c ∧ c.artifact source = .error .notASource := by
  refine ⟨?_, ?_⟩
  · simp only [compile, hread]
  · simp only [artifact, compile, hread]
    rfl

theorem compile_of_stops (hread : readStatements source = some statements)
    (hstops : c.analysis statements = (a, some fault)) :
    (c.compile source).1 = { analyzer := a, emitter := c.takeLog.2.emitter } ∧
      c.artifact source = .error (.fault fault) := by
  simp only [analysis, takeLog] at hstops
  simp only [artifact, compile, hread, compileStatements, hstops]
  exact ⟨rfl, rfl⟩

theorem compile_of_reaches (hread : readStatements source = some statements)
    (hend : c.analysis statements = (a, none)) :
    (c.compile source).1 =
        { analyzer := a,
          emitter := emitterOf (Evm.emitContract a.layout.toState c.takeLog.2.emitter) } ∧
      c.artifact source =
        delivered a.layout (Evm.emitContract a.layout.toState c.takeLog.2.emitter) := by
  simp only [analysis, takeLog] at hend ⊢
  simp only [artifact, compile, hread, compileStatements, hend, generate, EStateM.run]
  cases Evm.emitContract a.layout.toState { c.emitter with log := [] } with
  | ok u e => exact ⟨rfl, rfl⟩
  | error fault e => exact ⟨rfl, rfl⟩

/-- A source that does not reach its end leaves the emitter alone, its report apart. -/
theorem emitter_compile (h : ¬c.Reaches source) :
    (c.compile source).1.takeLog.2.emitter = c.takeLog.2.emitter := by
  cases hread : readStatements source with
  | none => rw [(compile_of_none hread).1]
  | some statements =>
    cases hanalysis : c.analysis statements with
    | mk a stop =>
      cases stop with
      | none => exact (h ⟨statements, hread, by rw [hanalysis]⟩).elim
      | some fault =>
        rw [(compile_of_stops hread hanalysis).1]
        rfl

/-- For a source that reaches its end something is charged. -/
theorem gas_compile_of_reaches (h : c.Reaches source) :
    c.emitter.gas < (c.compile source).1.emitter.gas := by
  obtain ⟨statements, hread, hend⟩ := h
  have hanalysis : c.analysis statements = ((c.analysis statements).1, none) := Prod.ext rfl hend
  rw [(compile_of_reaches hread hanalysis).1]
  obtain ⟨n, hspent⟩ := Evm.spent_emitContract (c.analysis statements).1.layout.toState
  have hcharged := hspent c.takeLog.2.emitter
  cases hemit : Evm.emitContract (c.analysis statements).1.layout.toState c.takeLog.2.emitter with
  | ok u e =>
    rw [hemit] at hcharged
    exact hcharged.2
  | error fault e =>
    rw [hemit] at hcharged
    exact hcharged

theorem gas_compile (c : Compiler) (source : String) :
    c.emitter.gas ≤ (c.compile source).1.emitter.gas := by
  by_cases h : c.Reaches source
  · exact Int.le_of_lt (gas_compile_of_reaches h)
  · have hsame := congrArg Evm.Emitter.gas (emitter_compile h)
    exact Int.le_of_eq hsame.symm

/-- What an analyzer has learned stays, wherever it stopped. -/
theorem analyzer_compile (hread : readStatements source = some statements) :
    (c.compile source).1.analyzer = (c.analysis statements).1 := by
  cases hanalysis : c.analysis statements with
  | mk a stop =>
    cases stop with
    | none => rw [(compile_of_reaches hread hanalysis).1]
    | some fault => rw [(compile_of_stops hread hanalysis).1]

theorem reached_compile (h : c.analyzer.Reached) (source : String) :
    (c.compile source).1.analyzer.Reached := by
  cases hread : readStatements source with
  | none => rwa [(compile_of_none hread).1]
  | some statements =>
    rw [analyzer_compile hread]
    exact h.clearLog.analyze statements

/-! ## Several sources -/

/-- Sources that do not reach their ends leave the emitter alone, its report apart. -/
theorem emitter_compileAll {sources : List String} (h : ¬c.Writes sources) :
    (c.compileAll sources).1.takeLog.2.emitter = c.takeLog.2.emitter := by
  induction sources generalizing c with
  | nil => rfl
  | cons source rest ih =>
    obtain ⟨hfirst, hrest⟩ := not_or.mp h
    exact (ih hrest).trans (emitter_compile hfirst)

theorem gas_compileAll (c : Compiler) (sources : List String) :
    c.emitter.gas ≤ (c.compileAll sources).1.emitter.gas := by
  induction sources generalizing c with
  | nil => exact Int.le_refl _
  | cons source rest ih => exact Int.le_trans (gas_compile c source) (ih _)

/-- For sources of which one reaches its end something is charged. -/
theorem gas_compileAll_of_writes {sources : List String} (h : c.Writes sources) :
    c.emitter.gas < (c.compileAll sources).1.emitter.gas := by
  induction sources generalizing c with
  | nil => exact h.elim
  | cons source rest ih =>
    rcases h with hfirst | hrest
    · exact Int.lt_of_lt_of_le (gas_compile_of_reaches hfirst) (gas_compileAll _ rest)
    · exact Int.lt_of_le_of_lt (gas_compile c source) (ih hrest)

theorem reached_compileAll (h : c.analyzer.Reached) (sources : List String) :
    (c.compileAll sources).1.analyzer.Reached := by
  induction sources generalizing c with
  | nil => exact h
  | cons source rest ih => exact ih (reached_compile h source)

theorem writes_single : c.Writes [source] ↔ c.Reaches source := by
  simp only [Writes, or_false]

theorem analyzer_after_single (hread : readStatements source = some statements) :
    (after [source]).analyzer = (({} : Compiler).analysis statements).1 :=
  analyzer_compile hread

theorem analysis_after_single (hread : readStatements source = some statements)
    (next : List Stmt) :
    (after [source]).analysis next =
      ({ layout := (({} : Compiler).analysis statements).1.layout } : Analyzer).analyze next := by
  rw [← analyzer_after_single hread]
  rfl

theorem reached_after (sources : List String) : (after sources).analyzer.Reached :=
  reached_compileAll .fresh sources

/-! ## What is delivered -/

/-- Metadata tell what was charged, the variables with their slots and the functions. -/
theorem metadata_inj {r r' : Compiled} {slots slots' : Assoc String Nat}
    (h : r'.metadata slots' = r.metadata slots) :
    r'.gas = r.gas ∧ slots' = slots ∧ r'.functions = r.functions := by
  simp only [Compiled.metadata, Json.obj.injEq, List.cons.injEq, Prod.mk.injEq, true_and, and_true,
    Json.int.injEq, Json.arr.injEq] at h
  obtain ⟨hgas, hslots, hfunctions⟩ := h
  refine ⟨hgas, ?_, ?_⟩
  · refine List.map_injective_iff.mpr ?_ hslots
    intro entry entry' heq
    simpa [Prod.ext_iff] using heq
  · refine List.map_injective_iff.mpr ?_ hfunctions
    intro name name' heq
    exact Json.str.inj heq

/-- What is delivered depends on the tables only through slots, names and interface, and not on
the emitter's contract. -/
theorem delivered_congr {l l' : Layout} (hslots : l'.slots = l.slots)
    (hfunctions : Assoc.keys l'.functions = Assoc.keys l.functions)
    (hinterface : Interface.ofState l'.toState = Interface.ofState l.toState)
    (contract : Option ContractState) (result : EStateM.Result Fault Evm.Emitter Unit) :
    delivered l' (Evm.replaceContract contract result) = delivered l result := by
  cases result with
  | error fault e => rfl
  | ok u e =>
    simp only [delivered, Evm.replaceContract, hslots, hfunctions, hinterface]
    rfl

theorem delivered_inj {l l' : Layout} {u : Unit} {e : Evm.Emitter}
    {result : EStateM.Result Fault Evm.Emitter Unit}
    (h : delivered l' result = delivered l (.ok u e)) :
    ∃ e', result = .ok () e' ∧ e'.gas = e.gas ∧ l'.slots = l.slots ∧
      Assoc.keys l'.functions = Assoc.keys l.functions ∧
      Interface.ofState l'.toState = Interface.ofState l.toState := by
  cases result with
  | error fault e' => simp [delivered] at h
  | ok u' e' =>
    simp only [delivered, Except.ok.injEq, Prod.mk.injEq] at h
    obtain ⟨-, hinterface, hmetadata⟩ := h
    obtain ⟨hgas, hslots, hfunctions⟩ := metadata_inj hmetadata
    exact ⟨e', rfl, hgas, hslots, hfunctions, hinterface⟩

/-- Of what a compiler keeps only that it is inside a constructor matters for where it stops. -/
theorem fault_analysis (c : Compiler) (statements : List Stmt) :
    (c.analysis statements).2 =
      Layout.fault? c.analyzer.layout.inConstructor (Layout.outline statements) :=
  Analyzer.fault_walk _ _

theorem fault_analysis_fresh (statements : List Stmt) :
    (({} : Compiler).analysis statements).2 = Layout.fault? false (Layout.outline statements) :=
  fault_analysis {} statements

end Compiler

/-! ## Interfaces -/

/-- The outputs of the functions that messages can call. -/
def ContractState.outputs (c : ContractState) : List (List TypedName) :=
  c.dispatchable.map fun (_, f) => Interface.outputsOf f

/-- The entry of a function, made from what its code depends on and from its outputs. -/
def Interface.entryWith (entry : String × Function) (outputs : List TypedName) : InterfaceEntry :=
  .function entry.1 (inputsOf entry.2) outputs entry.2.isView

theorem ContractState.SameCode.interface_eq_iff {c c' : ContractState} (h : c.SameCode c')
    (hevents : c'.events = c.events) :
    Interface.ofState c' = Interface.ofState c ↔ c'.outputs = c.outputs := by
  refine ⟨fun hsame => ?_, fun hsame => ?_⟩
  · have houtputs : ∀ c : ContractState,
        c.outputs = (Interface.ofState c).functions.map DeclaredFunction.outputs := by
      intro c
      rw [Interface.functions_ofState, List.map_map]
      rfl
    rw [houtputs, houtputs, hsame]
  · have hentries : ∀ c : ContractState,
        c.dispatchable.map (fun (name, f) => Interface.entryOf name f) =
          List.zipWith Interface.entryWith (c.dispatchable.map (Prod.map id Function.coded))
            c.outputs := by
      intro c
      rw [outputs, List.zipWith_map, List.zipWith_self]
      rfl
    rw [Interface.ofState, Interface.ofState, hentries, hentries, Evm.dispatchable_coded h, hsame,
      hevents]

/-! ## Earlier sources -/

/-- Nothing shows of earlier sources in what is delivered for statements that a fresh analyzer
reads to their end. -/
structure Undisturbed (earlier : List String) (statements : List Stmt) : Prop where
  /-- None of them was analyzed to its end. -/
  unwritten : ¬({} : Compiler).Writes earlier
  /-- The variables that they left are the first of the statements. -/
  slots : Assoc.keys (Compiler.after earlier).slots <+:
    Assoc.keys (({} : Compiler).analysis statements).1.layout.slots
  /-- The functions that they left are the first of the statements. -/
  functions : Assoc.keys (Compiler.after earlier).analyzer.layout.functions <+:
    Assoc.keys (({} : Compiler).analysis statements).1.layout.functions
  /-- If they ended inside a constructor, the statements are read to their end from there too. -/
  outside : (Compiler.after earlier).analyzer.layout.inConstructor = true →
    Layout.fault? true (Layout.outline statements) = none
  /-- Functions return the same types, also if these are those of variables. -/
  outputs : ((Compiler.after earlier).analysis statements).1.layout.toState.outputs =
    (({} : Compiler).analysis statements).1.layout.toState.outputs

/-- Nothing shows of earlier sources in what is delivered for a source. -/
inductive Reusable (earlier : List String) (source : String) : Prop where
  | notASource : readStatements source = none → Reusable earlier source
  /-- If they ended inside a constructor, the source stops for the same reason from there. -/
  | stops {statements : List Stmt} {fault : Fault} : readStatements source = some statements →
      (({} : Compiler).analysis statements).2 = some fault →
      ((Compiler.after earlier).analyzer.layout.inConstructor = true →
        Layout.fault? true (Layout.outline statements) = some fault) →
      Reusable earlier source
  | reaches {statements : List Stmt} : readStatements source = some statements →
      (({} : Compiler).analysis statements).2 = none → Undisturbed earlier statements →
      Reusable earlier source

/-- A fresh compiler can write the code of a source if it reaches its end. -/
def Writable (source : String) : Prop :=
  ({} : Compiler).Reaches source → ∃ r, (compile source).2.result = .ok r

section Reuse

variable {earlier : List String} {source : String} {statements : List Stmt}

theorem artifact_eq_iff_of_stops {a : Analyzer} {fault : Fault}
    (hread : readStatements source = some statements)
    (hfresh : ({} : Compiler).analysis statements = (a, some fault)) :
    (Compiler.after earlier).artifact source = ({} : Compiler).artifact source ↔
      ((Compiler.after earlier).analyzer.layout.inConstructor = true →
        Layout.fault? true (Layout.outline statements) = some fault) := by
  have houtside : Layout.fault? false (Layout.outline statements) = some fault := by
    rw [← Compiler.fault_analysis_fresh, hfresh]
  -- Inside a constructor an analysis does not get farther.
  obtain ⟨fault', hfault'⟩ : ∃ fault',
      Layout.fault? (Compiler.after earlier).analyzer.layout.inConstructor
        (Layout.outline statements) = some fault' := by
    cases (Compiler.after earlier).analyzer.layout.inConstructor with
    | false => exact ⟨fault, houtside⟩
    | true =>
      cases hinside : Layout.fault? true (Layout.outline statements) with
      | some fault' => exact ⟨fault', rfl⟩
      | none => simp [Layout.fault?_eq_none_of_inside hinside] at houtside
  have hused : (Compiler.after earlier).analysis statements =
      (((Compiler.after earlier).analysis statements).1, some fault') :=
    Prod.ext rfl (((Compiler.after earlier).fault_analysis statements).trans hfault')
  rw [(Compiler.compile_of_stops hread hfresh).2, (Compiler.compile_of_stops hread hused).2]
  cases hinside : (Compiler.after earlier).analyzer.layout.inConstructor with
  | false =>
    rw [hinside, houtside] at hfault'
    obtain rfl := Option.some.inj hfault'
    simp
  | true =>
    rw [hinside] at hfault'
    simp [hfault']

section TwoStarts

variable {fresh used : Analyzer}
  (hfresh : ({} : Compiler).analysis statements = (fresh, none))
  (hused : (Compiler.after earlier).analysis statements = (used, none))

include hfresh hused

theorem slots_after_eq_iff :
    Assoc.keys used.layout.slots = Assoc.keys fresh.layout.slots ↔
      Assoc.keys (Compiler.after earlier).slots <+: Assoc.keys fresh.layout.slots :=
  Analyzer.GrowsBy.eq_iff hfresh hused Analyzer.growsBy_variable rfl

theorem functions_after_eq_iff :
    Assoc.keys used.layout.functions = Assoc.keys fresh.layout.functions ↔
      Assoc.keys (Compiler.after earlier).analyzer.layout.functions <+:
        Assoc.keys fresh.layout.functions :=
  Analyzer.GrowsBy.eq_iff hfresh hused Analyzer.growsBy_function rfl

end TwoStarts

/-- If nothing is left of earlier sources that shows, all is as from a fresh start. -/
theorem artifact_of_undisturbed {fresh : Analyzer}
    (hread : readStatements source = some statements)
    (hfresh : ({} : Compiler).analysis statements = (fresh, none))
    (h : Undisturbed earlier statements) :
    (Compiler.after earlier).artifact source = ({} : Compiler).artifact source := by
  obtain ⟨hunwritten, hslots, hfunctions, houtside, houtputs⟩ := h
  have hend : ((Compiler.after earlier).analysis statements).2 = none := by
    rw [Compiler.fault_analysis]
    cases hinside : (Compiler.after earlier).analyzer.layout.inConstructor with
    | true => exact houtside hinside
    | false => rw [← Compiler.fault_analysis_fresh, hfresh]
  have hused : (Compiler.after earlier).analysis statements =
      (((Compiler.after earlier).analysis statements).1, none) := Prod.ext rfl hend
  rw [hfresh] at hslots hfunctions houtputs
  have hnames := (slots_after_eq_iff hfresh hused).mpr hslots
  have hdefined := (functions_after_eq_iff hfresh hused).mpr hfunctions
  have hreached := (Compiler.reached_after earlier).clearLog
  have hcode := Analyzer.sameCode hfresh hused hreached hnames hdefined
  have hinterface := (hcode.interface_eq_iff rfl).mpr houtputs
  have hemitter : (Compiler.after earlier).takeLog.2.emitter = {} :=
    Compiler.emitter_compileAll hunwritten
  rw [(Compiler.compile_of_reaches hread hused).2, (Compiler.compile_of_reaches hread hfresh).2,
    hemitter, Evm.emitContract_sameCode hcode]
  exact Compiler.delivered_congr (Analyzer.slots_eq hfresh hused hreached hnames) hdefined
    hinterface _ _

/-- The code of a source that compiles can be written. -/
theorem exists_emitted {fresh : Analyzer} {r : Compiled}
    (hread : readStatements source = some statements)
    (hfresh : ({} : Compiler).analysis statements = (fresh, none))
    (hok : (compile source).2.result = .ok r) :
    ∃ e, Evm.emitContract fresh.layout.toState {} = .ok () e := by
  have hsteps := CompileSteps.of_read hread hok
  have hanalyzed : (fresh, none) = ((compile source).1.analyzer, none) :=
    hfresh.symm.trans hsteps.analyzed
  obtain ⟨rfl, -⟩ := Prod.mk.inj hanalyzed
  exact ⟨_, hsteps.generated⟩

/-- What is delivered for a source that compiles shows that nothing is left of earlier ones. -/
theorem undisturbed_of_artifact {fresh : Analyzer} {r : Compiled}
    (hread : readStatements source = some statements)
    (hfresh : ({} : Compiler).analysis statements = (fresh, none))
    (hok : (compile source).2.result = .ok r)
    (hsame : (Compiler.after earlier).artifact source = ({} : Compiler).artifact source) :
    Undisturbed earlier statements := by
  obtain ⟨e, he⟩ := exists_emitted hread hfresh hok
  rw [(Compiler.compile_of_reaches hread hfresh).2] at hsame
  change _ = Compiler.delivered fresh.layout (Evm.emitContract fresh.layout.toState {}) at hsame
  rw [he] at hsame
  cases hused : (Compiler.after earlier).analysis statements with
  | mk used stop =>
    cases stop with
    | some fault =>
      rw [(Compiler.compile_of_stops hread hused).2] at hsame
      simp [Compiler.delivered] at hsame
    | none =>
      rw [(Compiler.compile_of_reaches hread hused).2] at hsame
      obtain ⟨e', he', hgas, hslots, hfunctions, hinterface⟩ := Compiler.delivered_inj hsame
      have hnames := congrArg Assoc.keys hslots
      have hcode := Analyzer.sameCode hfresh hused (Compiler.reached_after earlier).clearLog
        hnames hfunctions
      have hcharged := Evm.charged_sameCode hcode he he'
      refine ⟨fun hwrites => ?_, ?_, ?_, fun hinside => ?_, ?_⟩
      · -- What was charged before would have been charged in addition.
        have hpositive := Compiler.gas_compileAll_of_writes hwrites
        have hstart : (Compiler.after earlier).takeLog.2.emitter.gas =
          (({} : Compiler).compileAll earlier).1.emitter.gas := rfl
        have hzero : ({} : Compiler).emitter.gas = ({} : Evm.Emitter).gas := rfl
        omega
      · rw [hfresh]
        exact (slots_after_eq_iff hfresh hused).mp hnames
      · rw [hfresh]
        exact (functions_after_eq_iff hfresh hused).mp hfunctions
      · rw [← hinside, ← Compiler.fault_analysis, hused]
      · rw [hfresh, hused]
        exact (hcode.interface_eq_iff rfl).mp hinterface

end Reuse

/-- After any sources a compiler delivers for a source what a fresh one does if nothing is left of
them that shows.  Otherwise it delivers something else, unless a fresh compiler reaches the end of
the source and cannot write its code. -/
theorem artifact_after (earlier : List String) (source : String) :
    (Reusable earlier source →
      (Compiler.after earlier).artifact source = ({} : Compiler).artifact source) ∧
    (Writable source →
      (Compiler.after earlier).artifact source = ({} : Compiler).artifact source →
      Reusable earlier source) := by
  refine ⟨fun h => ?_, fun hwritable hsame => ?_⟩
  · cases h with
    | notASource hread =>
      exact (Compiler.compile_of_none hread).2.trans (Compiler.compile_of_none hread).2.symm
    | stops hread hstop hinside =>
      exact (artifact_eq_iff_of_stops hread (Prod.ext rfl hstop)).mpr hinside
    | reaches hread hend hleft => exact artifact_of_undisturbed hread (Prod.ext rfl hend) hleft
  · cases hread : readStatements source with
    | none => exact .notASource hread
    | some statements =>
      cases hstop : (({} : Compiler).analysis statements).2 with
      | some fault =>
        have hinside := (artifact_eq_iff_of_stops hread (Prod.ext rfl hstop)).mp hsame
        exact .stops hread hstop hinside
      | none =>
        obtain ⟨r, hok⟩ := hwritable ⟨statements, hread, hstop⟩
        exact .reaches hread hstop
          (undisturbed_of_artifact hread (Prod.ext rfl hstop) hok hsame)

/-! ## Contracts that set one variable -/

/-- A source with one contract that sets one variable. -/
def settingText (name x value : String) : String :=
  "class " ++ name ++ "(PySmartContract):\n" ++
  "    def setup(self):\n" ++
  "        self." ++ x ++ " = " ++ value ++ "\n"

def settingStatements (name x : String) (value : Expr) : List Stmt :=
  [.classDef name [.name "PySmartContract"] []
    [.functionDef false "setup" [⟨.regular, "self", none, none⟩]
      [.assign [.attribute (.name "self") x] value] [] none] []]

def counterText : String := settingText "Counter" "count" "1"

def counterStatements : List Stmt := settingStatements "Counter" "count" (.literal (.int 1))

/-- A counter that starts with a text that has no bytes. -/
def faultyText : String := settingText "Counter" "count" "'\\ud800'"

def faultyStatements : List Stmt :=
  settingStatements "Counter" "count" (.literal (.text [0xd800]))

def switchText : String := settingText "Switch" "level" "2"

def switchStatements : List Stmt := settingStatements "Switch" "level" (.literal (.int 2))

theorem read_counter : readStatements counterText = some counterStatements :=
  readStatements_eq (by repeat' constructor) (by decide +kernel)

theorem read_faulty : readStatements faultyText = some faultyStatements :=
  readStatements_eq (by repeat' constructor) (by decide +kernel)

theorem read_switch : readStatements switchText = some switchStatements :=
  readStatements_eq (by repeat' constructor) (by decide +kernel)

theorem analysis_counter : (({} : Compiler).analysis counterStatements).2 = none := by
  cbv

theorem analysis_switch : (({} : Compiler).analysis switchStatements).2 = none := by
  cbv

/-- The attempt stops, but not inside a constructor. -/
theorem analysis_faulty : (({} : Compiler).analysis faultyStatements).2.isSome = true ∧
    (({} : Compiler).analysis faultyStatements).1.layout.inConstructor = false := by
  refine ⟨?_, ?_⟩ <;> cbv

theorem compile_counter : ∃ r, (compile counterText).2.result = .ok r := by
  obtain ⟨r, hok, -⟩ := exists_compiled read_counter rfl (by decide +kernel)
  exact ⟨r, hok⟩

theorem compile_switch : ∃ r, (compile switchText).2.result = .ok r := by
  obtain ⟨r, hok, -⟩ := exists_compiled read_switch rfl (by decide +kernel)
  exact ⟨r, hok⟩

/-- A switch that is compiled after a counter is delivered with other code and metadata: its
variable has the second slot. -/
theorem switch_after_counter_differs :
    (Compiler.after [counterText]).artifact switchText ≠ ({} : Compiler).artifact switchText ∧
      ((Compiler.after [counterText]).compile switchText).1.slots = [("count", 0), ("level", 1)] ∧
      (compile switchText).1.slots = [("level", 0)] := by
  refine ⟨fun hsame => ?_, ?_, ?_⟩
  · obtain ⟨r, hok⟩ := compile_switch
    have hleft := undisturbed_of_artifact read_switch (Prod.ext rfl analysis_switch) hok hsame
    have hreaches : ({} : Compiler).Reaches counterText :=
      ⟨counterStatements, read_counter, analysis_counter⟩
    exact hleft.unwritten (Compiler.writes_single.mpr hreaches)
  · rw [Compiler.slots, Compiler.analyzer_compile read_switch,
      Compiler.analysis_after_single read_counter]
    cbv
  · rw [compile, Compiler.slots, Compiler.analyzer_compile read_switch]
    cbv

/-- A counter that is compiled after an attempt that failed is delivered as by a fresh compiler:
the variable and the function that the attempt left are its own. -/
theorem artifact_after_faulty :
    Reusable [faultyText] counterText ∧ Writable counterText ∧
      (Compiler.after [faultyText]).slots = [("count", 0)] ∧
      (Compiler.after [faultyText]).artifact counterText =
        ({} : Compiler).artifact counterText := by
  have hfaulty := Compiler.analyzer_after_single read_faulty
  obtain ⟨hstops, houtside⟩ := analysis_faulty
  have hreusable : Reusable [faultyText] counterText := by
    refine .reaches read_counter analysis_counter ⟨?_, ?_, ?_, ?_, ?_⟩
    · rw [Compiler.writes_single]
      rintro ⟨statements, hread, hend⟩
      obtain rfl := Option.some.inj (hread.symm.trans read_faulty)
      simp [hend] at hstops
    · rw [Compiler.slots, hfaulty]
      exact ⟨[], by cbv⟩
    · rw [hfaulty]
      exact ⟨[], by cbv⟩
    · rw [hfaulty]
      simp [houtside]
    · rw [Compiler.analysis_after_single read_faulty]
      cbv
  refine ⟨hreusable, fun _ => compile_counter, ?_, (artifact_after _ _).1 hreusable⟩
  rw [Compiler.slots, hfaulty]
  cbv

end ContractKit
