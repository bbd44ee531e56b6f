import ContractKit.Proofs.Compiler
import ContractKit.Proofs.Layout.Allocation
import ContractKit.Proofs.Layout.Reanalysis
import ContractKit.Proofs.Source.SameTree
import Mathlib

/-!
# The order of methods and the types in the interface

The type that the interface declares for what a function returns is looked up while the analysis
is still on its way.  What counts is what stands before the function: the last assignment to the
variable that is returned, or a dictionary assigned to the one whose element is.  So the order of
the methods of a contract matters.  Two orders give the same entries exactly if what stands before
each function suggests the same type in both.
-/

namespace ContractKit

open Source

namespace Layout

/-! ## Types from what stands before -/

/-- The type that an assigned expression suggests. -/
def assignedType : Expr → VarType
  | .dict _ => .mapping
  | .call function _ _ => if isMsgSender function then .address else .uint256
  | .literal (.text s) => if looksLikeAddress s then .address else .bytes32
  | _ => .uint256

/-- Whether a landmark assigns a dictionary to a variable. -/
def Landmark.mapsVariable (x : String) : Landmark → Bool
  | .assign y (.dict _) => y == x
  | _ => false

/-- The type of a variable, from the last assignment to it; a variable that was not assigned is
taken for a word. -/
def variableType (x : String) (before : List Landmark) : VarType :=
  ((lastAssigned? x before).map assignedType).getD .uint256

/-- The type of a returned expression, from what stands before the function. -/
def returnedTypeAfter? (before : List Landmark) (e : Expr) : Option VarType :=
  match e with
  | .attribute .. => (selfAttribute? e).bind fun x => (lastAssigned? x before).map assignedType
  | .subscript .. =>
    (selfElement? e).bind fun x =>
      if before.any (Landmark.mapsVariable x) then some .uint256 else none
  | _ => none

/-- The type that a function returns, from what stands before it. -/
def returnTypeAfter (before : List Landmark) (body : List Stmt) : VarType :=
  (body.filterMap returned?).foldl (fun t e => (returnedTypeAfter? before e).getD t) .uint256

/-- What is known of a function, from its definition and what stands before it. -/
def functionAfter (before : List Landmark) (params : List (Parameter Expr)) (body : List Stmt)
    (decorators : List Expr) : Function :=
  { ({} : Layout).functionOf params body decorators with
    returnType := (returnTypeAfter before body).name }

def Landmark.interface? (before : List Landmark) : Landmark → Option InterfaceEntry
  | .function x params body decorators =>
    if (({} : Layout).functionOf params body decorators).isDispatchable then
      some (Interface.entryOf x (functionAfter before params body decorators))
    else none
  | _ => none

/-- Whether an interface declares that a function returns something. -/
def declaresOutput (f : Function) : Bool := f.isDispatchable && (f.hasReturn || f.isView)

def Landmark.outputType? (before : List Landmark) : Landmark → Option VarType
  | .function _ params body decorators =>
    if declaresOutput (({} : Layout).functionOf params body decorators) then
      some (returnTypeAfter before body)
    else none
  | _ => none

theorem assignedType_eq {e : Expr} {value : Value} {type : VarType}
    (h : assignedValue e = .ok (value, type)) : type = assignedType e := by
  unfold assignedValue at h
  split at h
  case h_3 s =>
    simp only [textValue] at h
    simp only [assignedType]
    split_ifs at h ⊢
    · split at h <;> simp_all
    · split at h <;> simp_all
  case h_5 hdict hcall htext hliteral =>
    obtain ⟨-, rfl⟩ : .int 0 = value ∧ VarType.uint256 = type := by simpa using h
    unfold assignedType
    split <;> simp_all
  all_goals simp_all [assignedType]

theorem VarType.name_injective : Function.Injective VarType.name := by
  intro t t'
  cases t <;> cases t' <;> decide

theorem valueType_assign (l : Layout) (x y : String) (v : Value) (t : VarType) :
    (Assoc.get? x (l.assign y v t).mappings).map MappingInfo.valueType =
      if y = x ∧ t = .mapping then some .uint256
      else (Assoc.get? x l.mappings).map MappingInfo.valueType := by
  cases t with
  | mapping =>
    change (Assoc.get? x (Assoc.set y _ l.mappings)).map MappingInfo.valueType = _
    by_cases hy : y = x
    · subst hy
      simp
    · simp [hy, Assoc.get?_set_of_ne (Ne.symm hy)]
  | uint256 | bytes32 | address => simp; rfl

theorem assignedType_eq_mapping_iff {e : Expr} :
    assignedType e = .mapping ↔ ∃ entries, e = .dict entries := by
  constructor
  · intro h
    unfold assignedType at h
    split at h
    case h_1 entries => exact ⟨entries, rfl⟩
    case h_2 => split_ifs at h
    case h_3 => split_ifs at h
    case h_4 => cases h
  · rintro ⟨entries, rfl⟩
    rfl

theorem Landmark.mapsVariable_assign (x y : String) (e : Expr) :
    (Landmark.assign y e).mapsVariable x = true ↔ y = x ∧ assignedType e = .mapping := by
  rw [assignedType_eq_mapping_iff]
  unfold mapsVariable
  split
  case h_1 z entries hz =>
    obtain ⟨rfl, rfl⟩ := Landmark.assign.inj hz
    simp
  case h_2 hnone =>
    simp only [Bool.false_eq_true, false_iff, not_and, not_exists]
    rintro - entries rfl
    exact hnone y entries rfl

end Layout

theorem Assoc.mem_of_mem_grow {k : String} {new : List String}
    (h : k ∈ Assoc.grow [] new) : k ∈ new := by
  suffices ∀ ks, k ∈ Assoc.grow ks new → k ∈ ks ∨ k ∈ new by simpa using this [] h
  clear h
  induction new with
  | nil => exact fun ks h => .inl h
  | cons j rest ih =>
    intro ks h
    have hadd : k ∈ Assoc.addKey ks j → k ∈ ks ∨ k = j := by
      unfold Assoc.addKey
      split <;> simp +contextual
    rcases ih _ h with h | h
    · rcases hadd h with h | rfl
      · exact .inl h
      · exact .inr List.mem_cons_self
    · exact .inr (List.mem_cons_of_mem _ h)

namespace Analyzer

open Layout

/-! ## What stays at the end of a walk -/

/-- If what is known of something is what a landmark says of it, or else what was known before,
then it is what the last landmark says that says anything. -/
theorem walk_last {β : Type} {f : Layout → Option β} {g : Landmark → Option β}
    (hstep : ∀ (a : Analyzer) (m : Landmark), (a.step m).2 = none →
      f (a.step m).1.layout = (g m).or (f a.layout))
    {a : Analyzer} {landmarks : List Landmark} (hend : (a.walk landmarks).2 = none) :
    f (a.walk landmarks).1.layout = (landmarks.reverse.findSome? g).or (f a.layout) := by
  induction landmarks generalizing a with
  | nil => rfl
  | cons m rest ih =>
    have hfirst := hstep a m
    simp only [walk] at hend ⊢
    split at hend
    case h_1 a' ha' =>
      rw [ha'] at hfirst
      rw [ih hend, hfirst rfl, List.reverse_cons, List.findSome?_append, Option.or_assoc]
      simp
    case h_2 => simp at hend

theorem lastAssigned?_eq (x : String) (landmarks : List Landmark) :
    lastAssigned? x landmarks = landmarks.reverse.findSome? (Landmark.assigned? x) := by
  induction landmarks with
  | nil => rfl
  | cons m rest ih =>
    rw [lastAssigned?, ih, List.reverse_cons, List.findSome?_append]
    simp

theorem findSome?_ite {α β : Type} (p : α → Bool) (b : β) (l : List α) :
    l.findSome? (fun a => if p a then some b else none) = if l.any p then some b else none := by
  induction l with
  | nil => rfl
  | cons a l ih => cases h : p a <;> simp [h, ih]

section Fresh

variable {landmarks : List Landmark} (hend : (({} : Analyzer).walk landmarks).2 = none)

include hend

theorem types_walk (x : String) :
    Assoc.get? x (({} : Analyzer).walk landmarks).1.layout.types =
      (lastAssigned? x landmarks).map assignedType := by
  have hstep : ∀ (a : Analyzer) (m : Landmark), (a.step m).2 = none →
      Assoc.get? x (a.step m).1.layout.types =
        ((m.assigned? x).map assignedType).or (Assoc.get? x a.layout.types) := by
    intro a m hm
    cases m with
    | contract _ | constructor | function _ _ _ _ | leave => rfl
    | assign y e =>
      obtain ⟨value, type, hvalue⟩ := assignedValue_of_step hm
      change Assoc.get? x (a.assign y e).1.layout.types = _
      rw [layout_assign]
      simp only [hvalue, types_assign, types_declare, Landmark.assigned?]
      by_cases hy : y = x
      · subst hy
        simp [assignedType_eq hvalue]
      · simp [hy, Assoc.get?_set_of_ne (Ne.symm hy)]
  have hwalk := walk_last (f := fun l => Assoc.get? x l.types) hstep hend
  rw [hwalk, lastAssigned?_eq, List.map_findSome?]
  exact Option.or_none

/-- A variable has elements if a dictionary was assigned to it. -/
theorem mappings_walk (x : String) :
    (Assoc.get? x (({} : Analyzer).walk landmarks).1.layout.mappings).map MappingInfo.valueType =
      if landmarks.any (Landmark.mapsVariable x) then some .uint256 else none := by
  have hstep : ∀ (a : Analyzer) (m : Landmark), (a.step m).2 = none →
      (Assoc.get? x (a.step m).1.layout.mappings).map MappingInfo.valueType =
        (if m.mapsVariable x then some VarType.uint256 else none).or
          ((Assoc.get? x a.layout.mappings).map MappingInfo.valueType) := by
    intro a m hm
    cases m with
    | contract _ | constructor | function _ _ _ _ | leave => rfl
    | assign y e =>
      obtain ⟨value, type, hvalue⟩ := assignedValue_of_step hm
      change (Assoc.get? x (a.assign y e).1.layout.mappings).map MappingInfo.valueType = _
      rw [layout_assign]
      simp only [hvalue, valueType_assign, mappings_declare, Landmark.mapsVariable_assign,
        assignedType_eq hvalue]
      split_ifs <;> rfl
  have hwalk := walk_last
    (f := fun l => (Assoc.get? x l.mappings).map MappingInfo.valueType) hstep hend
  rw [hwalk, findSome?_ite, List.any_reverse]
  exact Option.or_none

/-- The type that a function returns is that of what stands before it. -/
theorem returnType_walk (body : List Stmt) :
    (({} : Analyzer).walk landmarks).1.layout.returnType body =
      returnTypeAfter landmarks body := by
  have hreturned : (({} : Analyzer).walk landmarks).1.layout.returnedType? =
      returnedTypeAfter? landmarks := by
    funext e
    cases e <;>
      simp only [returnedType?, returnedTypeAfter?, types_walk hend, mappings_walk hend]
  rw [returnType, hreturned, returnTypeAfter]

theorem functionOf_walk (params : List (Parameter Expr)) (body : List Stmt)
    (decorators : List Expr) :
    (({} : Analyzer).walk landmarks).1.layout.functionOf params body decorators =
      functionAfter landmarks params body decorators := by
  simp only [functionAfter, functionOf, returnType_walk hend]

end Fresh

/-! ## Definitions of functions -/

theorem walk_append (a : Analyzer) (front back : List Landmark)
    (hend : (a.walk (front ++ back)).2 = none) :
    (a.walk front).2 = none ∧ a.walk (front ++ back) = (a.walk front).1.walk back := by
  induction front generalizing a with
  | nil => exact ⟨rfl, rfl⟩
  | cons m rest ih =>
    simp only [List.cons_append, walk] at hend ⊢
    split at hend
    case h_1 a' ha' => exact ih a' hend
    case h_2 => simp at hend

/-- A definition of a function stays as it is until the next one of its name. -/
theorem get?_functions_walk {x : String} {a : Analyzer} {landmarks : List Landmark}
    (h : x ∉ landmarks.filterMap Landmark.function?) {f : Function}
    (hf : Assoc.get? x a.layout.functions = some f) :
    Assoc.get? x (a.walk landmarks).1.layout.functions = some f := by
  refine walk_keeps (P := fun l => Assoc.get? x l.functions = some f) ?_ hf
  intro m hm a ha
  cases m with
  | contract _ | constructor | leave => exact ha
  | assign y e => exact (congrArg (Assoc.get? x) (functions_assign a y e)).trans ha
  | function y params body decorators =>
    have hy : x ≠ y := by
      rintro rfl
      exact h (List.mem_filterMap.mpr ⟨_, hm, rfl⟩)
    exact (Assoc.get?_set_of_ne hy _ _).trans ha

section Definitions

variable {landmarks : List Landmark} (hend : (({} : Analyzer).walk landmarks).2 = none)
  (hnames : (landmarks.filterMap Landmark.function?).Nodup)

include hend hnames

/-- What is known of a function at the end, if it has one definition. -/
theorem get?_functions_of_split {x : String} {params : List (Parameter Expr)} {body : List Stmt}
    {decorators : List Expr} {before after : List Landmark}
    (hsplit : landmarks = before ++ .function x params body decorators :: after) :
    Assoc.get? x (({} : Analyzer).walk landmarks).1.layout.functions =
      some (functionAfter before params body decorators) := by
  subst hsplit
  obtain ⟨hbefore, hwalk⟩ := walk_append _ _ _ hend
  have hafter : x ∉ after.filterMap Landmark.function? := by
    have hfirst : (Landmark.function x params body decorators).function? = some x := rfl
    rw [List.filterMap_append, List.filterMap_cons_some hfirst] at hnames
    exact (List.nodup_cons.mp (List.nodup_append.mp hnames).2.1).1
  rw [hwalk, walk]
  refine get?_functions_walk hafter ?_
  change Assoc.get? x (Assoc.set x _ _) = _
  rw [Assoc.get?_set_self, ← functionOf_walk hbefore]
  rfl

omit hnames in
theorem nodup_functions :
    (Assoc.keys (({} : Analyzer).walk landmarks).1.layout.functions).Nodup := by
  rw [growsBy_function.walk hend]
  exact Assoc.nodup_grow List.nodup_nil

/-- The functions at the end are those that the landmarks define. -/
theorem mem_functions_iff {x : String} {f : Function} :
    (x, f) ∈ (({} : Analyzer).walk landmarks).1.layout.functions ↔
      ∃ before params body decorators after,
        landmarks = before ++ .function x params body decorators :: after ∧
        f = functionAfter before params body decorators := by
  constructor
  · intro h
    have hkey : x ∈ Assoc.keys (({} : Analyzer).walk landmarks).1.layout.functions :=
      List.mem_map_of_mem (f := Prod.fst) h
    rw [growsBy_function.walk hend] at hkey
    obtain ⟨m, hm, hx⟩ := List.mem_filterMap.mp (Assoc.mem_of_mem_grow hkey)
    cases m with
    | function y params body decorators =>
      obtain rfl : y = x := Option.some.inj hx
      obtain ⟨before, after, hsplit⟩ := List.append_of_mem hm
      have hget := get?_functions_of_split hend hnames hsplit
      rw [Assoc.get?_of_mem (nodup_functions hend) h] at hget
      exact ⟨before, params, body, decorators, after, hsplit, Option.some.inj hget⟩
    | contract _ | constructor | leave | assign _ _ => cases hx
  · rintro ⟨before, params, body, decorators, after, hsplit, rfl⟩
    exact Assoc.mem_of_get? (get?_functions_of_split hend hnames hsplit)

end Definitions

end Analyzer

/-! ## Entries of the interface -/

namespace Layout

/-- The type that a function returns shows in its entry if it declares an output. -/
theorem entryOf_returnType_iff (x : String) (f : Function) (t t' : String) :
    Interface.entryOf x { f with returnType := t } =
        Interface.entryOf x { f with returnType := t' } ↔
      ((f.hasReturn || f.isView) = true → t = t') := by
  simp only [Interface.entryOf, Interface.outputsOf, Interface.inputsOf]
  cases f.hasReturn || f.isView with
  | false => simp
  | true => simp

/-- The entries that come from a landmark are the same if the types are. -/
theorem Landmark.interface?_eq_iff (before before' : List Landmark) (m : Landmark) :
    m.interface? before = m.interface? before' ↔ m.outputType? before = m.outputType? before' := by
  cases m with
  | contract _ | constructor | leave | assign _ _ => exact iff_of_true rfl rfl
  | function x params body decorators =>
    simp only [interface?, outputType?, declaresOutput, functionAfter]
    generalize ({} : Layout).functionOf params body decorators = f
    by_cases hdispatch : f.isDispatchable = true
    · simp only [hdispatch, if_true, Option.some.injEq, Bool.true_and]
      rw [entryOf_returnType_iff, VarType.name_injective.eq_iff]
      by_cases houtput : (f.hasReturn || f.isView) = true
      · simp [houtput]
      · simp [houtput]
    · simp [hdispatch]

/-- Whether a landmark has an entry does not depend on what stands before it. -/
theorem Landmark.interface?_eq_none {before : List Landmark} {m : Landmark}
    (h : m.interface? before = none) (before' : List Landmark) : m.interface? before' = none := by
  cases m with
  | contract _ | constructor | leave | assign _ _ => rfl
  | function x params body decorators =>
    simp only [interface?] at h ⊢
    split_ifs at h ⊢ with hdispatch
    rfl

/-- A landmark is the definition of the function that its entry names. -/
theorem Landmark.function?_of_entry? {before : List Landmark} {m : Landmark}
    {entry : InterfaceEntry} (h : m.interface? before = some entry) :
    ∃ x inputs outputs isView, m.function? = some x ∧
      entry = .function x inputs outputs isView := by
  cases m with
  | contract _ | constructor | leave | assign _ _ => cases h
  | function x params body decorators =>
    simp only [interface?] at h
    split_ifs at h
    exact ⟨x, _, _, _, rfl, (Option.some.inj h).symm⟩

/-- Where names are distinct, what stands before a definition is known from its name. -/
theorem takeWhile_function? {before after : List Landmark} {m : Landmark} {x : String}
    (hnames : ((before ++ m :: after).filterMap Landmark.function?).Nodup)
    (hm : m.function? = some x) :
    (before ++ m :: after).takeWhile (fun n => n.function? != some x) = before := by
  rw [List.filterMap_append, List.filterMap_cons_some hm, List.nodup_middle, List.nodup_cons,
    List.mem_append, not_or] at hnames
  have hbefore : ∀ n ∈ before, (n.function? != some x) = true := by
    intro n hn
    rw [bne_iff_ne]
    exact fun hx => hnames.1.1 (List.mem_filterMap.mpr ⟨n, hn, hx⟩)
  rw [List.takeWhile_append_of_pos hbefore, List.takeWhile_cons_of_neg (by simp [hm]),
    List.append_nil]

/-- So a definition stands at one place. -/
theorem eq_of_function? {landmarks before before' after after' : List Landmark} {m m' : Landmark}
    {x : String} (hnames : (landmarks.filterMap Landmark.function?).Nodup)
    (h : landmarks = before ++ m :: after) (h' : landmarks = before' ++ m' :: after')
    (hm : m.function? = some x) (hm' : m'.function? = some x) : before = before' ∧ m = m' := by
  have hbefore := takeWhile_function? (h ▸ hnames) hm
  have hbefore' := takeWhile_function? (h' ▸ hnames) hm'
  obtain rfl : before = before' := by rw [← hbefore, ← hbefore', ← h, ← h']
  exact ⟨rfl, (List.cons.inj (List.append_cancel_left (h.symm.trans h'))).1⟩

end Layout

open Layout

def InterfaceEntry.name : InterfaceEntry → String
  | .function name _ _ _ | .event name _ => name
  | .constructor => ""

section Entries

variable {text : String} {statements : List Stmt} {r : Compiled}
  (hsteps : CompileSteps text statements r)

include hsteps

theorem CompileSteps.interface_eq :
    r.interface = .constructor :: (compile text).1.contract.dispatchable.map
      fun entry => Interface.entryOf entry.1 entry.2 := by
  rw [hsteps.interface, Interface.ofState]
  exact List.append_nil _

/-- No entry of an interface comes twice. -/
theorem CompileSteps.nodup_interface : r.interface.Nodup := by
  have hend : (({} : Analyzer).walk (outline statements)).2 = none :=
    congrArg Prod.snd hsteps.analyzed
  have hkeys := Analyzer.nodup_functions hend
  rw [hsteps.interface_eq, hsteps.contract_eq, List.nodup_cons]
  constructor
  · simp [Interface.entryOf]
  · refine List.Nodup.of_map InterfaceEntry.name ?_
    rw [List.map_map]
    exact hkeys.sublist (List.filter_sublist.map Prod.fst)

/-- The interface declares the functions that the landmarks define. -/
theorem CompileSteps.mem_interface_iff
    (hnames : ((outline statements).filterMap Landmark.function?).Nodup) {entry : InterfaceEntry} :
    entry ∈ r.interface ↔ entry = .constructor ∨ ∃ before m after,
      outline statements = before ++ m :: after ∧ m.interface? before = some entry := by
  have hend : (({} : Analyzer).walk (outline statements)).2 = none :=
    congrArg Prod.snd hsteps.analyzed
  rw [hsteps.interface_eq, hsteps.contract_eq, List.mem_cons]
  refine or_congr_right ⟨?_, ?_⟩
  · intro h
    obtain ⟨⟨x, f⟩, hf, rfl⟩ := List.mem_map.mp h
    obtain ⟨hmem, hdispatch⟩ := List.mem_filter.mp hf
    obtain ⟨before, params, body, decorators, after, hsplit, rfl⟩ :=
      (Analyzer.mem_functions_iff hend hnames).mp hmem
    exact ⟨before, _, after, hsplit, if_pos hdispatch⟩
  · rintro ⟨before, m, after, hsplit, hentry⟩
    cases m with
    | contract _ | constructor | leave | assign _ _ => cases hentry
    | function x params body decorators =>
      simp only [Landmark.interface?] at hentry
      split_ifs at hentry with hdispatch
      obtain rfl := Option.some.inj hentry
      have hmem := (Analyzer.mem_functions_iff hend hnames).mpr
        ⟨before, params, body, decorators, after, hsplit, rfl⟩
      exact List.mem_map.mpr ⟨_, List.mem_filter.mpr ⟨hmem, hdispatch⟩, rfl⟩

end Entries

/-! ## Orders of methods -/

section Orders

variable {text text' : String} {statements statements' : List Stmt} {r r' : Compiled}
  (hsteps : CompileSteps text statements r) (hsteps' : CompileSteps text' statements' r')
  (hnames : ((outline statements).filterMap Landmark.function?).Nodup)

include hsteps hsteps' hnames

/-- An entry is in both interfaces if the landmark that it comes from stands in both sources, with
the same type. -/
theorem mem_interface_of_types (hperm : (outline statements).Perm (outline statements'))
    (htypes : ∀ m before after before' after', outline statements = before ++ m :: after →
      outline statements' = before' ++ m :: after' → m.outputType? before = m.outputType? before')
    {entry : InterfaceEntry} (h : entry ∈ r.interface) : entry ∈ r'.interface := by
  have hnames' := (hperm.filterMap Landmark.function?).nodup_iff.mp hnames
  rw [hsteps'.mem_interface_iff hnames']
  refine ((hsteps.mem_interface_iff hnames).mp h).imp_right ?_
  rintro ⟨before, m, after, hsplit, hentry⟩
  have hm : m ∈ outline statements' := hperm.subset (by simp [hsplit])
  obtain ⟨before', after', hsplit'⟩ := List.append_of_mem hm
  have htype := htypes m before after before' after' hsplit hsplit'
  exact ⟨before', m, after', hsplit', ((m.interface?_eq_iff _ _).mpr htype).symm.trans hentry⟩

/-- Sources with the same landmarks in another order have the same interface, up to the order of
its entries, exactly if what stands before each function suggests the same type in both. -/
theorem interface_perm_iff (hperm : (outline statements).Perm (outline statements')) :
    r.interface.Perm r'.interface ↔
      ∀ m before after before' after', outline statements = before ++ m :: after →
        outline statements' = before' ++ m :: after' →
        m.outputType? before = m.outputType? before' := by
  have hnames' := (hperm.filterMap Landmark.function?).nodup_iff.mp hnames
  rw [List.perm_ext_iff_of_nodup hsteps.nodup_interface hsteps'.nodup_interface]
  constructor
  · intro hsame m before after before' after' hsplit hsplit'
    rw [← m.interface?_eq_iff]
    cases hentry : m.interface? before with
    | none => exact (Landmark.interface?_eq_none hentry before').symm
    | some entry =>
      have hmem := (hsteps.mem_interface_iff hnames).mpr
        (.inr ⟨before, m, after, hsplit, hentry⟩)
      obtain ⟨x, inputs, outputs, isView, hx, rfl⟩ := Landmark.function?_of_entry? hentry
      rcases (hsteps'.mem_interface_iff hnames').mp ((hsame _).mp hmem) with
        h | ⟨front, m', back, hfound, hentry'⟩
      · cases h
      · obtain ⟨x', _, _, _, hx', heq⟩ := Landmark.function?_of_entry? hentry'
        obtain rfl : x = x' := (InterfaceEntry.function.inj heq).1
        obtain ⟨rfl, rfl⟩ := eq_of_function? hnames' hsplit' hfound hx hx'
        exact hentry'.symm
  · intro htypes entry
    refine ⟨mem_interface_of_types hsteps hsteps' hnames hperm htypes,
      mem_interface_of_types hsteps' hsteps hnames' hperm.symm ?_⟩
    exact fun m before after before' after' h h' => (htypes m _ _ _ _ h' h).symm

end Orders

namespace Layout

theorem outline_eq_flatMap (statements : List Stmt) :
    outline statements = statements.flatMap outlineOf := by
  induction statements with
  | nil => simp [outline]
  | cons s rest ih => rw [outline, ih, List.flatMap_cons]

theorem ClassPlace.outline_fill (p : ClassPlace) (hlevels : p.levels = []) (members : List Stmt) :
    outline (p.fill members) =
      outline p.front ++ .contract p.name :: (outline members ++ outline p.back) := by
  simp only [fill, hlevels, List.foldr_nil, outline_append, outline, outlineOf, p.isContract,
    if_true, List.cons_append]

/-- Members of a class in another order have the same landmarks in another order. -/
theorem ClassPlace.outline_perm (p : ClassPlace) (hlevels : p.levels = [])
    {members members' : List Stmt} (h : members.Perm members') :
    (outline (p.fill members)).Perm (outline (p.fill members')) := by
  have hmembers : (outline members).Perm (outline members') := by
    rw [outline_eq_flatMap, outline_eq_flatMap]
    exact h.flatMap_right outlineOf
  rw [p.outline_fill hlevels, p.outline_fill hlevels]
  exact .append_left _ (.cons _ (hmembers.append_right _))

theorem returnTypeAfter_getter {body : List Stmt} {v : String} (before : List Landmark)
    (h : body.filterMap returned? = [.attribute (.name "self") v]) :
    returnTypeAfter before body = variableType v before := by
  rw [returnTypeAfter, h]
  rfl

theorem variableType_mem_iff (v : String) (before : List Landmark) :
    (variableType v before).name ∈ ["uint256", "address", "bytes32"] ↔
      ∀ entries, lastAssigned? v before ≠ some (.dict entries) := by
  have htype : (variableType v before).name ∈ ["uint256", "address", "bytes32"] ↔
      variableType v before ≠ .mapping := by
    cases variableType v before <;> decide
  rw [htype, not_iff_comm, variableType]
  cases lastAssigned? v before with
  | none => simp
  | some e => simp [assignedType_eq_mapping_iff]

end Layout

theorem CompileSteps.getter_mem_interface {text : String} {statements : List Stmt} {r : Compiled}
    (hsteps : CompileSteps text statements r)
    (hnames : ((outline statements).filterMap Landmark.function?).Nodup) {x v : String}
    {params : List (Parameter Expr)} {body : List Stmt} {decorators : List Expr}
    {before after : List Landmark}
    (hsplit : outline statements = before ++ .function x params body decorators :: after)
    (hdecorated : decorators.any
      (fun d => isName "public_function" d || isName "view_function" d) = true)
    (hreturn : body.filterMap returned? = [.attribute (.name "self") v]) :
    ∃ inputs isView, .function x inputs [⟨"", (variableType v before).name⟩] isView ∈
      r.interface := by
  have hdispatch : (({} : Layout).functionOf params body decorators).isDispatchable = true := by
    simpa [functionOf, Function.isDispatchable, exists_or, and_or_left] using hdecorated
  have hvalued : (functionAfter before params body decorators).hasReturn = true := by
    have hmem : Expr.attribute (.name "self") v ∈ body.filterMap returned? := by simp [hreturn]
    obtain ⟨s, hs, hvalue⟩ := List.mem_filterMap.mp hmem
    exact List.any_eq_true.mpr ⟨s, hs, by simp [hvalue]⟩
  have houtputs : Interface.outputsOf (functionAfter before params body decorators) =
      [⟨"", (variableType v before).name⟩] := by
    rw [Interface.outputsOf, hvalued, Bool.true_or, if_pos rfl, functionAfter,
      returnTypeAfter_getter before hreturn]
  refine ⟨Interface.inputsOf (functionAfter before params body decorators),
    (functionAfter before params body decorators).isView, (hsteps.mem_interface_iff hnames).mpr
    (.inr ⟨before, _, after, hsplit, (if_pos hdispatch).trans ?_⟩)⟩
  rw [Interface.entryOf, houtputs]

/-- **When the order of methods matters.**  Take a contract class whose functions have distinct
names, and another order of its members.  The interfaces are the same, up to the order of their
entries, exactly if for each function that declares an output what stands before it suggests the
same type in both orders.  For a function that returns a variable this is the type of the last
assignment to the variable before the function, or that of a word if there is none; it is one of
the three types of words exactly if this assignment is not that of a dictionary. -/
theorem method_order_matters_iff {place : ClassPlace} (hlevels : place.levels = [])
    {members members' : List Stmt} (hmembers : members.Perm members') {text text' : String}
    (hread : readStatements text = some (place.fill members))
    (hread' : readStatements text' = some (place.fill members')) {r r' : Compiled}
    (hok : (compile text).2.result = .ok r) (hok' : (compile text').2.result = .ok r')
    (hnames : ((outline (place.fill members)).filterMap Landmark.function?).Nodup) :
    (r.interface.Perm r'.interface ↔
      ∀ m before after before' after', outline (place.fill members) = before ++ m :: after →
        outline (place.fill members') = before' ++ m :: after' →
        m.outputType? before = m.outputType? before') ∧
    ∀ x params body decorators before after v,
      outline (place.fill members) = before ++ .function x params body decorators :: after →
      decorators.any (fun d => isName "public_function" d || isName "view_function" d) = true →
      body.filterMap returned? = [.attribute (.name "self") v] →
      (∃ inputs isView, .function x inputs [⟨"", (variableType v before).name⟩] isView ∈
        r.interface) ∧
      ((variableType v before).name ∈ ["uint256", "address", "bytes32"] ↔
        ∀ entries, lastAssigned? v before ≠ some (.dict entries)) := by
  have hsteps := CompileSteps.of_read hread hok
  have hsteps' := CompileSteps.of_read hread' hok'
  refine ⟨interface_perm_iff hsteps hsteps' hnames (place.outline_perm hlevels hmembers), ?_⟩
  intro x params body decorators before after v hsplit hdecorated hreturn
  exact ⟨hsteps.getter_mem_interface hnames hsplit hdecorated hreturn,
    variableType_mem_iff v before⟩

/-! ## A note before and after its constructor -/

/-- A source with a function that returns a text, in front of the constructor. -/
def noteText : String :=
  "class Note(PySmartContract):\n" ++
  "    @view_function\n" ++
  "    def get(self):\n" ++
  "        return self.label\n" ++
  "    def __init__(self):\n" ++
  "        self.label = \"hello\"\n"

/-- The source with the constructor in front. -/
def noteText' : String :=
  "class Note(PySmartContract):\n" ++
  "    def __init__(self):\n" ++
  "        self.label = \"hello\"\n" ++
  "    @view_function\n" ++
  "    def get(self):\n" ++
  "        return self.label\n"

def noteGetter : Stmt :=
  .functionDef false "get" [⟨.regular, "self", none, none⟩]
    [.ret (some (.attribute (.name "self") "label"))] [.name "view_function"] none

def noteConstructor : Stmt :=
  .functionDef false constructorName [⟨.regular, "self", none, none⟩]
    [.assign [.attribute (.name "self") "label"] (.literal (.text (Text.pointsOf "hello")))] [] none

/-- The sources without the members of the class. -/
def notePlace : ClassPlace where
  name := "Note"
  bases := [.name "PySmartContract"]
  isContract := rfl

theorem read_note : readStatements noteText = some (notePlace.fill [noteGetter, noteConstructor]) :=
  readStatements_eq (by repeat' constructor) (by decide +kernel)

theorem read_note' :
    readStatements noteText' = some (notePlace.fill [noteConstructor, noteGetter]) :=
  readStatements_eq (by repeat' constructor) (by decide +kernel)

def noteLandmark : Landmark :=
  .function "get" [⟨.regular, "self", none, none⟩]
    [.ret (some (.attribute (.name "self") "label"))] [.name "view_function"]

def noteAssignment : List Landmark :=
  [.constructor, .assign "label" (.literal (.text (Text.pointsOf "hello"))), .leave]

theorem outlineOf_noteGetter : outlineOf noteGetter = [noteLandmark, .leave] := by cbv

theorem outlineOf_noteConstructor : outlineOf noteConstructor = noteAssignment := by cbv

theorem outline_note : outline (notePlace.fill [noteGetter, noteConstructor]) =
    [.contract "Note"] ++ noteLandmark :: .leave :: noteAssignment := by
  rw [notePlace.outline_fill rfl]
  simp [outline, outlineOf_noteGetter, outlineOf_noteConstructor, notePlace]

theorem outline_note' : outline (notePlace.fill [noteConstructor, noteGetter]) =
    (.contract "Note" :: noteAssignment) ++ noteLandmark :: [.leave] := by
  rw [notePlace.outline_fill rfl]
  simp [outline, outlineOf_noteGetter, outlineOf_noteConstructor, notePlace]

theorem nodup_note : ((outline (notePlace.fill [noteGetter, noteConstructor])).filterMap
    Landmark.function?).Nodup := by
  rw [outline_note]
  exact List.nodup_singleton "get"

theorem compile_note : ∃ r, (compile noteText).2.result = .ok r := by
  obtain ⟨r, hok, -, -⟩ := exists_compiled read_note rfl (by decide +kernel)
  exact ⟨r, hok⟩

theorem compile_note' : ∃ r, (compile noteText').2.result = .ok r := by
  obtain ⟨r, hok, -, -⟩ := exists_compiled read_note' rfl (by decide +kernel)
  exact ⟨r, hok⟩

/-- Before the constructor the text is taken for a word, and after it for bytes. -/
theorem outputType?_note :
    noteLandmark.outputType? [.contract "Note"] = some .uint256 ∧
      noteLandmark.outputType? (.contract "Note" :: noteAssignment) = some .bytes32 :=
  ⟨by decide +kernel, by decide +kernel⟩

/-- The function is declared to return a word, and with the constructor in front it would not be. -/
theorem method_order_matters_iff_note :
    ∃ r r', (compile noteText).2.result = .ok r ∧ (compile noteText').2.result = .ok r' ∧
      (∃ inputs isView, .function "get" inputs [⟨"", "uint256"⟩] isView ∈ r.interface) ∧
      ¬ r.interface.Perm r'.interface := by
  obtain ⟨r, hok⟩ := compile_note
  obtain ⟨r', hok'⟩ := compile_note'
  obtain ⟨hiff, hgetter⟩ := method_order_matters_iff rfl (List.Perm.swap _ _ _) read_note read_note'
    hok hok' nodup_note
  refine ⟨r, r', hok, hok', (hgetter _ _ _ _ _ _ "label" outline_note rfl rfl).1, fun h => ?_⟩
  have htypes := hiff.mp h noteLandmark _ _ _ _ outline_note outline_note'
  rw [outputType?_note.1, outputType?_note.2] at htypes
  cases htypes

/-- One function is declared with different types in the two orders. -/
theorem note_type_depends_on_order :
    ∃ r r', (compile noteText).2.result = .ok r ∧ (compile noteText').2.result = .ok r' ∧
      (∃ inputs isView, .function "get" inputs [⟨"", "uint256"⟩] isView ∈ r.interface) ∧
      (∃ inputs isView, .function "get" inputs [⟨"", "bytes32"⟩] isView ∈ r'.interface) ∧
      ¬ r.interface.Perm r'.interface := by
  obtain ⟨r, hok⟩ := compile_note
  obtain ⟨r', hok'⟩ := compile_note'
  have hsteps := CompileSteps.of_read read_note hok
  have hsteps' := CompileSteps.of_read read_note' hok'
  have hperm := notePlace.outline_perm rfl (List.Perm.swap noteConstructor noteGetter [])
  have hnames' := (hperm.filterMap Landmark.function?).nodup_iff.mp nodup_note
  refine ⟨r, r', hok, hok', ?_, ?_, fun h => ?_⟩
  · exact hsteps.getter_mem_interface (v := "label") nodup_note outline_note rfl rfl
  · exact hsteps'.getter_mem_interface (v := "label") hnames' outline_note' rfl rfl
  · have htypes := (interface_perm_iff hsteps hsteps' nodup_note hperm).mp h noteLandmark _ _ _ _
      outline_note outline_note'
    rw [outputType?_note.1, outputType?_note.2] at htypes
    cases htypes

end ContractKit
