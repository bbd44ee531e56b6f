import ContractKit.Proofs.Evm.Charges
import ContractKit.Proofs.Layout.FirstValues
import ContractKit.Proofs.Layout.Functions

/-!
# Analyzing a source after others

An analyzer that has seen other sources goes on with what it knows from them.  Where it stops in
a source depends on these only if it was left inside a constructor.  If it gets to the end, its
tables have grown by what is new in the source: so they are those of a fresh analyzer iff what was
there before comes first in the source as well.  Then the contract has the same code too, since
every first value and every function in it was read from the source.
-/

namespace ContractKit.Layout

open Source

/-! ## Where an analysis stops -/

/-- Why a landmark stops an analysis, which is inside a constructor or not. -/
def Landmark.fault? (inside : Bool) : Landmark → Option Fault
  | .assign _ e =>
    match assignedValue e with
    | .error fault => some fault
    | .ok (value, _) => if inside && value.shown?.isNone then some .tooManyDigits else none
  | _ => none

/-- Whether an analysis is inside a constructor behind a landmark. -/
def Landmark.inside (inside : Bool) : Landmark → Bool
  | .constructor => true
  | .function name .. => name == constructorName
  | .leave => false
  | .contract _ | .assign .. => inside

/-- Why landmarks stop an analysis that begins inside a constructor or not. -/
def fault? (inside : Bool) : List Landmark → Option Fault
  | [] => none
  | m :: rest => (m.fault? inside).or (fault? (m.inside inside) rest)

/-- Landmarks that let an analysis pass inside a constructor let it pass outside. -/
theorem fault?_eq_none_of_inside {landmarks : List Landmark} (h : fault? true landmarks = none) :
    fault? false landmarks = none := by
  induction landmarks with
  | nil => rfl
  | cons m rest ih =>
    obtain ⟨hfirst, hrest⟩ := Option.or_eq_none_iff.mp h
    refine Option.or_eq_none_iff.mpr ?_
    cases m with
    | contract name => exact ⟨rfl, ih hrest⟩
    | constructor | function _ _ _ _ | leave => exact ⟨rfl, hrest⟩
    | assign x e =>
      refine ⟨?_, ih hrest⟩
      simp only [Landmark.fault?] at hfirst ⊢
      split at hfirst
      case h_1 => simp at hfirst
      case h_2 => rfl

/-! ## What is defined -/

def Landmark.target? : Landmark → Option String
  | .assign x _ => some x
  | _ => none

/-- The function whose definition a landmark begins. -/
def Landmark.function? : Landmark → Option String
  | .function x .. => some x
  | _ => none

/-- How a landmark defines a function, apart from the type that is returned. -/
def Landmark.defined? (x : String) : Landmark → Option Function
  | .function y params body decorators =>
    if y = x then some (({} : Layout).functionOf params body decorators).coded else none
  | _ => none

/-- The last definition of a function, apart from the type that is returned. -/
def lastDefined? (x : String) : List Landmark → Option Function
  | [] => none
  | m :: rest => (lastDefined? x rest).or (m.defined? x)

/-- What is known from earlier matters only for the type that a function returns. -/
theorem coded_functionOf (l : Layout) (params : List (Parameter Expr)) (body : List Stmt)
    (decorators : List Expr) :
    (l.functionOf params body decorators).coded =
      (({} : Layout).functionOf params body decorators).coded := rfl

/-- Slots that are given out in order are known from the variables that have them. -/
theorem SlotsInOrder.slots_eq {l l' : Layout} (h : l.SlotsInOrder) (h' : l'.SlotsInOrder)
    (hkeys : Assoc.keys l'.slots = Assoc.keys l.slots) : l'.slots = l.slots := by
  have hlength : l'.slots.length = l.slots.length := by
    simpa [Assoc.keys] using congrArg List.length hkeys
  have hvalues : Assoc.values l'.slots = Assoc.values l.slots := by
    rw [h, h', ← h.length_eq, ← h'.length_eq, hlength]
  calc l'.slots = (Assoc.keys l'.slots).zip (Assoc.values l'.slots) := List.zip_of_prod rfl rfl
    _ = (Assoc.keys l.slots).zip (Assoc.values l.slots) := by rw [hkeys, hvalues]
    _ = l.slots := (List.zip_of_prod rfl rfl).symm

theorem inConstructor_declare (l : Layout) (x : String) :
    (l.declare x).inConstructor = l.inConstructor := by
  unfold declare
  split <;> rfl

theorem inConstructor_assign (l : Layout) (x : String) (v : Value) (t : VarType) :
    (l.assign x v t).inConstructor = l.inConstructor := by
  cases t <;> rfl

end ContractKit.Layout

namespace ContractKit.Analyzer

open Source Layout

variable {a : Analyzer} {x : String} {landmarks : List Landmark}

/-- Whether an analyzer is inside a constructor depends on the last landmark of its kind. -/
theorem inConstructor_step (a : Analyzer) (m : Landmark) :
    (a.step m).1.layout.inConstructor = m.inside a.layout.inConstructor := by
  cases m with
  | contract name => rfl
  | constructor => rfl
  | function name params body decorators =>
    simp [step, Landmark.inside, inConstructor, change, report, addFunction, enter]
  | leave => rfl
  | assign x e =>
    change (a.assign x e).1.layout.inConstructor = a.layout.inConstructor
    rw [layout_assign]
    split
    case h_1 => exact inConstructor_declare a.layout x
    case h_2 => rw [inConstructor_assign, inConstructor_declare]

theorem fault_step (a : Analyzer) (m : Landmark) :
    (a.step m).2 = m.fault? a.layout.inConstructor := by
  cases m with
  | contract name => rfl
  | constructor => rfl
  | function name params body decorators => rfl
  | leave => rfl
  | assign x e =>
    simp only [step, Analyzer.assign, Landmark.fault?]
    cases assignedValue e with
    | error fault => rfl
    | ok assigned =>
      obtain ⟨value, type⟩ := assigned
      have hinside : ((a.declare x).change (·.assign x value type)).layout.inConstructor =
          a.layout.inConstructor := by
        rw [change, inConstructor_assign, layout_declare, inConstructor_declare]
      simp only [reportInitial, hinside]
      cases a.layout.inConstructor with
      | false => rfl
      | true => cases value.shown? <;> rfl

/-- Of what an analyzer knows only that it is inside a constructor matters for where it stops. -/
theorem fault_walk (a : Analyzer) (landmarks : List Landmark) :
    (a.walk landmarks).2 = fault? a.layout.inConstructor landmarks := by
  induction landmarks generalizing a with
  | nil => rfl
  | cons m rest ih =>
    have hfault := fault_step a m
    have hinside := inConstructor_step a m
    simp only [walk, Layout.fault?]
    split
    case h_1 a' ha' =>
      rw [ha'] at hfault hinside
      rw [ih, hinside, ← hfault, Option.none_or]
    case h_2 a' fault ha' =>
      rw [ha'] at hfault
      rw [← hfault, Option.some_or]

/-! ## How tables grow -/

/-- Each landmark adds at most the key that it brings to a table. -/
def GrowsBy (keysOf : Layout → List String) (new? : Landmark → Option String) : Prop :=
  ∀ (a : Analyzer) (m : Landmark),
    keysOf (a.step m).1.layout = Assoc.grow (keysOf a.layout) (new? m).toList

/-- Such a table grows along a walk by all that the landmarks bring. -/
theorem GrowsBy.walk {keysOf : Layout → List String} {new? : Landmark → Option String}
    (h : GrowsBy keysOf new?) (hend : (a.walk landmarks).2 = none) :
    keysOf (a.walk landmarks).1.layout =
      Assoc.grow (keysOf a.layout) (landmarks.filterMap new?) := by
  induction landmarks generalizing a with
  | nil => rfl
  | cons m rest ih =>
    have hfirst := h a m
    simp only [Analyzer.walk] at hend ⊢
    split at hend
    case h_1 a' ha' =>
      rw [ha'] at hfirst
      rw [ih hend, hfirst]
      cases hm : new? m <;> simp [hm, Assoc.grow]
    case h_2 => simp at hend

theorem growsBy_variable : GrowsBy (fun l => Assoc.keys l.slots) Landmark.target? := by
  intro a m
  cases m with
  | contract name => rfl
  | constructor => rfl
  | function name params body decorators => rfl
  | leave => rfl
  | assign x e =>
    simp only [layout_step_assign]
    unfold Layout.declare
    split
    case isTrue hold =>
      have hmem := Assoc.has_iff_mem_keys.mp hold
      simp [Landmark.target?, Assoc.grow, Assoc.addKey, hmem]
    case isFalse => exact Assoc.keys_set _ _ _

theorem growsBy_function : GrowsBy (fun l => Assoc.keys l.functions) Landmark.function? := by
  intro a m
  cases m with
  | contract name => rfl
  | constructor => rfl
  | function name params body decorators => exact Assoc.keys_set _ _ _
  | leave => rfl
  | assign x e => exact congrArg Assoc.keys (functions_assign a x e)

/-- A landmark changes the definition of a function, up to the type that is returned, only if it is
one. -/
theorem defined_step (a : Analyzer) (m : Landmark) :
    (Assoc.get? x (a.step m).1.layout.functions).map Function.coded =
      (m.defined? x).or ((Assoc.get? x a.layout.functions).map Function.coded) := by
  cases m with
  | contract name => rfl
  | constructor => rfl
  | leave => rfl
  | assign y e => simp [step, functions_assign, Landmark.defined?]
  | function y params body decorators =>
    change (Assoc.get? x (Assoc.set y _ a.layout.functions)).map Function.coded = _
    by_cases hy : y = x
    · subst hy
      simp [Landmark.defined?, coded_functionOf]
    · simp [Landmark.defined?, hy, Assoc.get?_set_of_ne (Ne.symm hy)]

/-- A walk to the end leaves the last definition of a function. -/
theorem defined_walk (hend : (a.walk landmarks).2 = none) :
    (Assoc.get? x (a.walk landmarks).1.layout.functions).map Function.coded =
      (lastDefined? x landmarks).or ((Assoc.get? x a.layout.functions).map Function.coded) := by
  induction landmarks generalizing a with
  | nil => rfl
  | cons m rest ih =>
    have hfirst := defined_step (x := x) a m
    simp only [walk] at hend ⊢
    split at hend
    case h_1 a' ha' =>
      rw [ha'] at hfirst
      rw [ih hend, hfirst, lastDefined?, Option.or_assoc]
    case h_2 => simp at hend

/-! ## One source from two starts -/

section TwoStarts

variable {statements : List Stmt} {fresh used : Analyzer}
  (hfresh : ({} : Analyzer).analyze statements = (fresh, none))
  (hused : a.analyze statements = (used, none))

include hfresh hused

/-- A table that was empty at the fresh start has the same keys from both iff those that were
there at the other come first. -/
theorem GrowsBy.eq_iff {keysOf : Layout → List String} {new? : Landmark → Option String}
    (h : GrowsBy keysOf new?) (hempty : keysOf {} = []) :
    keysOf used.layout = keysOf fresh.layout ↔ keysOf a.layout <+: keysOf fresh.layout := by
  have hkeys := h.walk (congrArg Prod.snd hfresh)
  have hkeys' := h.walk (congrArg Prod.snd hused)
  rw [← analyze, hfresh, hempty] at hkeys
  rw [← analyze, hused] at hkeys'
  rw [hkeys, hkeys']
  exact Assoc.grow_eq_iff

/-- Variables that a source declares get the same first values. -/
theorem initialValue_eq (hx : x ∈ Assoc.keys fresh.layout.slots) :
    used.layout.toState.initialValue x = fresh.layout.toState.initialValue x := by
  have hrecorded := slotsRecorded_analyze hfresh x (Assoc.has_iff_mem_keys.mpr hx)
  have hvalue := recorded_analyze (x := x) hfresh
  have hvalue' := recorded_walk (x := x) (congrArg Prod.snd hused)
  rw [← analyze, hused] at hvalue'
  have hlast : ∃ e, lastAssigned? x (outline statements) = some e := by
    rw [Assoc.has, hvalue] at hrecorded
    cases hlast : lastAssigned? x (outline statements) with
    | none => simp [hlast] at hrecorded
    | some e => exact ⟨e, rfl⟩
  obtain ⟨e, he⟩ := hlast
  simp only [he, Option.bind_some] at hvalue hvalue'
  simp only [ContractState.initialValue, toState, hvalue, hvalue']

/-- Functions that a source defines are the same up to the types that they return. -/
theorem coded_eq (hx : x ∈ Assoc.keys fresh.layout.functions) :
    (Assoc.get? x used.layout.functions).map Function.coded =
      (Assoc.get? x fresh.layout.functions).map Function.coded := by
  have hdefined := defined_walk (x := x) (congrArg Prod.snd hfresh)
  have hdefined' := defined_walk (x := x) (congrArg Prod.snd hused)
  rw [← analyze, hfresh] at hdefined
  rw [← analyze, hused] at hdefined'
  obtain ⟨f, hf⟩ := Option.isSome_iff_exists.mp (Assoc.has_iff_mem_keys.mpr hx)
  cases hlast : lastDefined? x (outline statements) with
  | none => simp [hlast, hf, Assoc.get?] at hdefined
  | some g => rw [hdefined, hdefined', hlast, Option.some_or, Option.some_or]

/-- Variables have the same slots if they have the same names. -/
theorem slots_eq (ha : a.Reached)
    (hvariables : Assoc.keys used.layout.slots = Assoc.keys fresh.layout.slots) :
    used.layout.slots = fresh.layout.slots := by
  have horder := (Reached.fresh.analyze statements).slotsInOrder
  have horder' := (ha.analyze statements).slotsInOrder
  rw [hfresh] at horder
  rw [hused] at horder'
  exact horder.slots_eq horder' hvariables

/-- Contracts read from one source have the same code if their variables and functions have the
same names. -/
theorem sameCode (ha : a.Reached)
    (hvariables : Assoc.keys used.layout.slots = Assoc.keys fresh.layout.slots)
    (hfunctions : Assoc.keys used.layout.functions = Assoc.keys fresh.layout.functions) :
    fresh.layout.toState.SameCode used.layout.toState := by
  have hnodup : (Assoc.keys fresh.layout.functions).Nodup := by
    have hkeys := growsBy_function.walk (congrArg Prod.snd hfresh)
    rw [← analyze, hfresh] at hkeys
    exact hkeys ▸ Assoc.nodup_grow List.nodup_nil
  refine ⟨?_, ?_, ?_⟩
  · simp only [toState, slots_eq hfresh hused ha hvariables]
  · intro entry hentry
    refine initialValue_eq hfresh hused ?_
    obtain ⟨⟨y, k⟩, hk, rfl⟩ := List.mem_map.mp hentry
    exact List.mem_map_of_mem (f := Prod.fst) hk
  · exact Assoc.map_values_eq hfunctions hnodup fun x hx => coded_eq hfresh hused hx

end TwoStarts

end ContractKit.Analyzer
