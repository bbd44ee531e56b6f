import ContractKit.Proofs.Evm.Creation
import ContractKit.Proofs.Layout.FirstValues
import ContractKit.Proofs.Source.SameTree

/-!
# Initial storage and other methods

A constructor gives the variables of a contract their first values, and the creation code
stores them.  Whether they depend on the constructor alone is a question about two sources:
may the bodies of other methods be changed without changing what a created contract starts
with?  They may for a variable that no changed method behind the constructor assigns.  One
that is assigned there starts with what that method assigns, though no one has called it.
-/

namespace ContractKit.Evm

open Source Layout

variable {source source' x : String} {r r' : Compiled}

/-! ## What a created contract starts with -/

/-- Creating a contract with the code of a source leaves a value in the slot of a variable. -/
def CreatedWith (source : String) (r : Compiled) (x : String) (value : Value) : Prop :=
  ∀ (data : List UInt8) (hdata : data.length < 2 ^ 256), ∃ returned last slot,
    Halts ⟨r.code, data, hdata⟩ 0 r.code.length ⟨0, ⟨[], fun _ => 0, fun _ => 0⟩⟩
      (.returned returned) last ∧
    Assoc.get? x (compile source).1.slots = some slot ∧
    last.state.storage (BitVec.ofNat 256 slot) = valueWord value

/-- A compiled source whose first values fit in words, and whose code can be addressed. -/
structure Creatable (source : String) (r : Compiled) : Prop where
  values : ∀ entry ∈ (compile source).1.contract.slots,
    StorableValue ((compile source).1.contract.initialValue entry.1)
  size : r.code.length < 2 ^ 256

variable {statements : List Stmt}

theorem recorded_of_steps (hsteps : CompileSteps source statements r) :
    Assoc.get? x (compile source).1.contract.initialValues =
      (lastAssigned? x (outline statements)).bind firstValue? :=
  Analyzer.recorded_analyze hsteps.analyzed

theorem slot_of_assigned {e : Expr} (hsteps : CompileSteps source statements r)
    (hassigned : .assign x e ∈ outline statements) :
    ∃ slot, Assoc.get? x (compile source).1.slots = some slot := by
  have hslot := Analyzer.has_of_mem_walk hassigned (congrArg Prod.snd hsteps.analyzed)
  rw [← Analyzer.analyze, hsteps.analyzed] at hslot
  exact Option.isSome_iff_exists.mp hslot

theorem slot_of_recorded {value : Value} (hsteps : CompileSteps source statements r)
    (hvalue : Assoc.get? x (compile source).1.contract.initialValues = some value) :
    ∃ slot, Assoc.get? x (compile source).1.slots = some slot := by
  rw [recorded_of_steps hsteps] at hvalue
  obtain ⟨e, hlast, -⟩ := Option.bind_eq_some_iff.mp hvalue
  exact slot_of_assigned hsteps (mem_of_lastAssigned? hlast)

/-- What is recorded for a variable to which one expression only is assigned. -/
theorem recorded_of_only {e : Expr} (hsteps : CompileSteps source statements r)
    (hassigned : .assign x e ∈ outline statements)
    (honly : ∀ e', .assign x e' ∈ outline statements → e' = e) :
    ∃ value type, assignedValue e = .ok (value, type) ∧
      Assoc.get? x (compile source).1.contract.initialValues = some value := by
  obtain ⟨slot, hslot⟩ := slot_of_assigned hsteps hassigned
  obtain ⟨value, hvalue⟩ := Option.isSome_iff_exists.mp
    (Analyzer.slotsRecorded_analyze hsteps.analyzed x (Option.isSome_iff_exists.mpr ⟨slot, hslot⟩))
  have hvalue : Assoc.get? x (compile source).1.contract.initialValues = some value := hvalue
  obtain ⟨e', hlast, hfirst⟩ := Option.bind_eq_some_iff.mp (recorded_of_steps hsteps ▸ hvalue)
  obtain rfl := honly e' (mem_of_lastAssigned? hlast)
  cases hassign : assignedValue e' with
  | error fault => simp [firstValue?, hassign, Except.toOption] at hfirst
  | ok assigned =>
    obtain rfl : assigned.1 = value := by
      simpa [firstValue?, hassign, Except.toOption] using hfirst
    exact ⟨_, _, rfl, hvalue⟩

theorem createdWith_of_recorded {value : Value} (hsteps : CompileSteps source statements r)
    (hcreatable : Creatable source r)
    (hvalue : Assoc.get? x (compile source).1.contract.initialValues = some value) :
    CreatedWith source r x value := by
  intro data hdata
  obtain ⟨slot, hslot⟩ := slot_of_recorded hsteps hvalue
  obtain ⟨returned, last, hhalts, hstorage⟩ :=
    creation_of_steps hsteps hcreatable.values hcreatable.size hdata (fun _ => 0)
  refine ⟨returned, last, slot, hhalts, hslot, ?_⟩
  have hmem : (x, (slot : Int)) ∈ (compile source).1.contract.slots :=
    List.mem_map.mpr ⟨(x, slot), Assoc.mem_of_get? hslot, rfl⟩
  obtain ⟨_, -, hinit⟩ := emitContract_steps hsteps.generated
  have hdistinct := nodup_slotWords hsteps.contract_analyzed (slots_lt_of_emitInit rfl hinit).1
  have hstored : last.state.storage (slotWord slot) = _ :=
    hstorage ▸ storedAll_slot hdistinct hmem (fun _ => 0)
  rwa [slotWord, BitVec.ofInt_natCast, ContractState.initialValue, hvalue] at hstored

/-! ## Two sources -/

/-- **First values and other methods.**  Let two sources be compiled that differ in the
bodies of methods of one contract class, its constructor excepted, and let the constructor
assign a variable.  What is recorded for it is in each of them the value of the last
assignment in the whole source.  If no method that differs and stands behind the constructor
assigns the variable, then the value is the same, and both contracts are created with it. -/
theorem first_value_unless_reassigned {p : ClassPlace} {before after members' : List Stmt}
    {ctor : Stmt} (hread : readStatements source = some (p.fill (before ++ ctor :: after)))
    (hread' : readStatements source' = some (p.fill members'))
    (hok : (compile source).2.result = .ok r) (hok' : (compile source').2.result = .ok r')
    (halike : List.Forall₂ SameSignature (before ++ ctor :: after) members')
    (hctor : IsConstructor ctor) (hassigns : Assigns x ctor) :
    Assoc.get? x (compile source).1.contract.initialValues =
      (lastAssigned? x (outline (p.fill (before ++ ctor :: after)))).bind firstValue? ∧
    Assoc.get? x (compile source').1.contract.initialValues =
      (lastAssigned? x (outline (p.fill members'))).bind firstValue? ∧
    ∃ before' after', members' = before' ++ ctor :: after' ∧
      List.Forall₂ SameSignature before before' ∧ List.Forall₂ SameSignature after after' ∧
      (List.Forall₂ (SameOrSilent x) after after' →
        Assoc.get? x (compile source).1.contract.initialValues =
          Assoc.get? x (compile source').1.contract.initialValues ∧
        (Assoc.has x (compile source).1.slots = true → ∃ value,
          Assoc.get? x (compile source).1.contract.initialValues = some value ∧
          (Creatable source r → CreatedWith source r x value) ∧
          (Creatable source' r' → CreatedWith source' r' x value))) := by
  have hsteps := CompileSteps.of_read hread hok
  have hsteps' := CompileSteps.of_read hread' hok'
  have hrecorded := recorded_of_steps (x := x) hsteps
  have hrecorded' := recorded_of_steps (x := x) hsteps'
  obtain ⟨before', after', rfl, hbefore, hafter⟩ := exists_split_of_sameSignature hctor halike
  refine ⟨hrecorded, hrecorded', before', after', rfl, hbefore, hafter, fun hsilent => ?_⟩
  have hsame : Assoc.get? x (compile source).1.contract.initialValues =
      Assoc.get? x (compile source').1.contract.initialValues := by
    rw [hrecorded, hrecorded',
      p.lastAssigned?_fill (lastAssigned?_members hassigns hsilent before before')]
  refine ⟨hsame, fun hslot => ?_⟩
  obtain ⟨value, hvalue⟩ := Option.isSome_iff_exists.mp
    (Analyzer.slotsRecorded_analyze hsteps.analyzed x hslot)
  exact ⟨value, hvalue, fun hcreatable => createdWith_of_recorded hsteps hcreatable hvalue,
    fun hcreatable => createdWith_of_recorded hsteps' hcreatable (hsame ▸ hvalue)⟩

/-! ## A contract that is created paused -/

theorem exists_creatable {n : Nat} (hread : readStatements source = some statements)
    (hlength : ((({} : Compiler).compileStatements statements).2.result.toOption.map
      fun r => r.code.length) = some n) (hn : n < 2 ^ 256)
    (hvalues : ∀ entry ∈ (({} : Analyzer).analyze statements).1.layout.toState.slots,
      StorableValue ((({} : Analyzer).analyze statements).1.layout.toState.initialValue entry.1)) :
    ∃ r, (compile source).2.result = .ok r ∧ Creatable source r := by
  rw [← compile_of_read hread] at hlength
  cases hresult : (compile source).2.result with
  | error cause => simp [hresult, Except.toOption] at hlength
  | ok r =>
    have hsize : r.code.length = n := by simpa [hresult, Except.toOption] using hlength
    rw [← (CompileSteps.of_read hread hresult).contract_eq] at hvalues
    exact ⟨r, rfl, hvalues, hsize ▸ hn⟩

/-- A source whose constructor opens a gate, with methods before and behind it. -/
def gateText (opening pausing : String) : String :=
  "class Gate(PySmartContract):\n" ++
  "    def open(self):\n" ++
  "        " ++ opening ++ "\n" ++
  "    def __init__(self):\n" ++
  "        self.level = 1\n" ++
  "        self.paused = 0\n" ++
  "    def pause(self):\n" ++
  "        " ++ pausing ++ "\n"

def gatePlace : ClassPlace where
  name := "Gate"
  bases := [.name "PySmartContract"]
  isContract := Eq.refl true

def plainMethod (name : String) (body : List Stmt) : Stmt :=
  .functionDef false name [⟨.regular, "self", none, none⟩] body [] none

/-- The statement that sets a variable to a number. -/
def setTo (x : String) (n : Nat) : Stmt :=
  .assign [.attribute (.name "self") x] (.literal (.int n))

def gateConstructor : Stmt := plainMethod "__init__" [setTo "level" 1, setTo "paused" 0]

/-- The members of the class, given the bodies of the two methods. -/
def gateMembers (opening pausing : List Stmt) : List Stmt :=
  [plainMethod "open" opening] ++ gateConstructor :: [plainMethod "pause" pausing]

theorem sameSignature_gate (opening opening' pausing pausing' : List Stmt) :
    List.Forall₂ SameSignature (gateMembers opening pausing) (gateMembers opening' pausing') :=
  .cons (.method _ _ _ _ _ _ (by decide)) (.cons (.same _)
    (.cons (.method _ _ _ _ _ _ (by decide)) .nil))

theorem lastAssigned?_plainMethod {name : String} (hname : name ≠ constructorName)
    (hpublic : name.startsWith "_" = false) (body : List Stmt) :
    lastAssigned? x (outlineOf (plainMethod name body)) = lastAssigned? x (outline body) := by
  simp [plainMethod, outlineOf, hname, hpublic, lastAssigned?, Landmark.assigned?]

theorem outline_setTo (y : String) (n : Nat) :
    outline [setTo y n] = [.assign y (.literal (.int n))] := by
  simp [outline, outlineOf, setTo, selfAttribute?]

theorem outlineOf_gateConstructor : outlineOf gateConstructor =
    [.constructor, .assign "level" (.literal (.int 1)), .assign "paused" (.literal (.int 0)),
      .leave] := by
  have hname : ("__init__" == constructorName) = true := by decide
  simp [gateConstructor, plainMethod, outlineOf, hname, setTo, outline, selfAttribute?]

/-- What counts for a variable is the last method, then the constructor, then the first. -/
theorem lastAssigned?_gate (opening pausing : List Stmt) :
    lastAssigned? x (outline (gatePlace.fill (gateMembers opening pausing))) =
      (lastAssigned? x (outline pausing)).or ((lastAssigned? x (outlineOf gateConstructor)).or
        (lastAssigned? x (outline opening))) := by
  have hopen : lastAssigned? x (outlineOf (plainMethod "open" opening)) = _ :=
    lastAssigned?_plainMethod (by decide) (by decide +kernel) opening
  have hpause : lastAssigned? x (outlineOf (plainMethod "pause" pausing)) = _ :=
    lastAssigned?_plainMethod (by decide) (by decide +kernel) pausing
  have hbase : ([.name "PySmartContract"] : List Expr).any (isName contractBase) = true := by decide
  simp [ClassPlace.fill, gatePlace, gateMembers, outline, outlineOf.eq_1, hbase, lastAssigned?,
    hopen, hpause, Landmark.assigned?, Option.or_assoc]

/-- The source in which the methods set the variables. -/
def settingText : String := gateText "self.level = 7" "self.paused = 1"

/-- The source in which they do nothing. -/
def idleText : String := gateText "pass" "pass"

theorem read_setting : readStatements settingText =
    some (gatePlace.fill (gateMembers [setTo "level" 7] [setTo "paused" 1])) :=
  readStatements_eq (by repeat' constructor) (by decide +kernel)

theorem read_idle :
    readStatements idleText = some (gatePlace.fill (gateMembers [.pass] [.pass])) :=
  readStatements_eq (by repeat' constructor) (by decide +kernel)

theorem compile_setting :
    ∃ r, (compile settingText).2.result = .ok r ∧ Creatable settingText r :=
  exists_creatable (n := 43) read_setting (by decide +kernel) (by decide) (by decide +kernel)

theorem compile_idle : ∃ r, (compile idleText).2.result = .ok r ∧ Creatable idleText r :=
  exists_creatable (n := 43) read_idle (by decide +kernel) (by decide) (by decide +kernel)

/-- The two sources differ in the bodies of methods only, and the constructor sets the
variable to zero, but one contract is created with a one. -/
theorem pause_changes_first_value :
    ∃ r r', (compile settingText).2.result = .ok r ∧ (compile idleText).2.result = .ok r' ∧
      readStatements settingText =
        some (gatePlace.fill (gateMembers [setTo "level" 7] [setTo "paused" 1])) ∧
      readStatements idleText = some (gatePlace.fill (gateMembers [.pass] [.pass])) ∧
      List.Forall₂ SameSignature (gateMembers [setTo "level" 7] [setTo "paused" 1])
        (gateMembers [.pass] [.pass]) ∧
      IsConstructor gateConstructor ∧ Assigns "paused" gateConstructor ∧
      Assoc.get? "paused" (compile settingText).1.contract.initialValues = some (.int 1) ∧
      Assoc.get? "paused" (compile idleText).1.contract.initialValues = some (.int 0) ∧
      CreatedWith settingText r "paused" (.int 1) ∧ CreatedWith idleText r' "paused" (.int 0) := by
  obtain ⟨r, hok, hcreatable⟩ := compile_setting
  obtain ⟨r', hok', hcreatable'⟩ := compile_idle
  have hsteps := CompileSteps.of_read read_setting hok
  have hsteps' := CompileSteps.of_read read_idle hok'
  have hrecorded : Assoc.get? "paused" (compile settingText).1.contract.initialValues =
      some (.int 1) := by
    rw [recorded_of_steps hsteps, lastAssigned?_gate, outline_setTo]
    simp [lastAssigned?, Landmark.assigned?, firstValue?_int]
  have hrecorded' : Assoc.get? "paused" (compile idleText).1.contract.initialValues =
      some (.int 0) := by
    rw [recorded_of_steps hsteps', lastAssigned?_gate, outlineOf_gateConstructor]
    simp [outline, outlineOf, lastAssigned?, Landmark.assigned?, firstValue?_int]
  have hassigns : Assigns "paused" gateConstructor := by
    rw [Assigns, outlineOf_gateConstructor]
    exact ⟨.literal (.int 0), by simp⟩
  exact ⟨r, r', hok, hok', read_setting, read_idle, sameSignature_gate _ _ _ _, rfl, hassigns,
    hrecorded, hrecorded', createdWith_of_recorded hsteps hcreatable hrecorded,
    createdWith_of_recorded hsteps' hcreatable' hrecorded'⟩

/-- The level is the constructor's in both: the method that sets it stands before the
constructor, and the changed method behind the constructor leaves it alone. -/
theorem first_value_unless_reassigned_gate :
    ∃ r r', (compile settingText).2.result = .ok r ∧ (compile idleText).2.result = .ok r' ∧
      Assoc.get? "level" (compile settingText).1.contract.initialValues = some (.int 1) ∧
      Assoc.get? "level" (compile idleText).1.contract.initialValues = some (.int 1) ∧
      CreatedWith settingText r "level" (.int 1) ∧ CreatedWith idleText r' "level" (.int 1) := by
  obtain ⟨r, hok, hcreatable⟩ := compile_setting
  obtain ⟨r', hok', hcreatable'⟩ := compile_idle
  have hassigns : Assigns "level" gateConstructor := by
    rw [Assigns, outlineOf_gateConstructor]
    exact ⟨.literal (.int 1), by simp⟩
  obtain ⟨hlast, -, before', after', hsplit, hbefore, -, hsame⟩ :=
    first_value_unless_reassigned read_setting read_idle hok hok' (sameSignature_gate _ _ _ _)
      rfl hassigns
  obtain ⟨-, hmembers⟩ := List.append_inj hsplit hbefore.length_eq
  obtain rfl := (List.cons.inj hmembers).2
  have hsilent : List.Forall₂ (SameOrSilent "level") [plainMethod "pause" [setTo "paused" 1]]
      [plainMethod "pause" [.pass]] := by
    refine .cons (.inr ⟨?_, ?_⟩) .nil
    · simp [Assigns, plainMethod, outlineOf, outline_setTo, constructorName]
    · simp [Assigns, plainMethod, outlineOf, outline, constructorName]
  have hrecorded : Assoc.get? "level" (compile settingText).1.contract.initialValues =
      some (.int 1) := by
    rw [hlast, ← gateMembers, lastAssigned?_gate, outlineOf_gateConstructor, outline_setTo]
    simp [lastAssigned?, Landmark.assigned?, firstValue?_int]
  obtain ⟨heq, hcreated⟩ := hsame hsilent
  obtain ⟨slot, hslot⟩ := slot_of_recorded (CompileSteps.of_read read_setting hok) hrecorded
  obtain ⟨value, hvalue, hwith, hwith'⟩ := hcreated (Option.isSome_iff_exists.mpr ⟨slot, hslot⟩)
  obtain rfl : Value.int 1 = value := Option.some.inj (hrecorded.symm.trans hvalue)
  exact ⟨r, r', hok, hok', hrecorded, heq ▸ hrecorded, hwith hcreatable, hwith' hcreatable'⟩

end ContractKit.Evm
