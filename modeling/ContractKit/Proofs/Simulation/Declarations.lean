import ContractKit.Proofs.Layout.Declarations
import ContractKit.Simulation.Instance

/-!
# Simulating a constructor that declares variables

In a simulated contract a declared variable has its declared value.  Declaring reads and
changes attributes of the contract itself, so this needs that no variable takes the name of
one of those.
-/

namespace ContractKit.Simulation

open Source Layout

variable {d : Datum} {m : Machine}

/-! ## Running operations -/

/-- A computation goes on with what its first part returns, on the machine it leaves. -/
theorem bind_of_ok {α β : Type} {x : Sim α} {f : α → Sim β} {a : α} {m' : Machine}
    (h : x m = .ok a m') : (x >>= f) m = f a m' := by
  simp only [bind, EStateM.bind, h]

theorem get_ok (m : Machine) : (get : Sim Machine) m = .ok m m := rfl

theorem getLocal_of_get? {x : String} (h : Assoc.get? x m.locals = some d) :
    getLocal x m = .ok d m := by
  rw [getLocal, bind_of_ok (get_ok m), h]
  rfl

theorem ownAttribute_of_get? {field : String} (h : Assoc.get? field m.attributes = some d) :
    ownAttribute field m = .ok d m := by
  rw [ownAttribute, bind_of_ok (get_ok m), h]
  rfl

/-- An attribute that was not set is that of the class. -/
theorem contractAttribute_of_class {s : Setting} {field : String}
    (hset : Assoc.get? field m.attributes = none) (hclass : s.classAttribute? field = some d) :
    contractAttribute s field m = .ok d m := by
  rw [contractAttribute, bind_of_ok (get_ok m), hset]
  simp only [hclass]
  rfl

theorem setItem_text (m : Machine) (cell : Nat) (name : String) (v : Datum) :
    setItem (.dict cell) (.text name) v m =
      .ok () (m.setCell cell (.dict (setKey (.text name) v (m.entries cell)))) := rfl

theorem assignAll_self {s : Setting} (hself : Assoc.get? "self" m.locals = some .contract)
    (field : String) (v : Datum) :
    assignAll s v [.attribute (.name "self") field] m =
      .ok () { m with attributes := Assoc.set field v m.attributes } := by
  have htarget : evaluate s (.name "self") m = .ok .contract m := getLocal_of_get? hself
  have hassign : assign s v (.attribute (.name "self") field) m =
      .ok () { m with attributes := Assoc.set field v m.attributes } := by
    rw [assign, bind_of_ok htarget]
    rfl
  rw [assignAll, bind_of_ok hassign]
  rfl

theorem isSurrogate_toNat (c : Char) : Text.isSurrogate c.toNat = false := by
  have hvalid := c.valid
  simp only [Text.isSurrogate, UInt32.isValidChar, Nat.isValidChar, Char.toNat] at hvalid ⊢
  simp only [decide_eq_false_iff_not]
  omega

theorem toString_pointsOf (text : String) : Text.Points.toString (Text.pointsOf text) = text := by
  simp [Text.Points.toString, Text.pointsOf, Function.comp_def, isSurrogate_toNat]

/-! ## Declarations -/

/-- The attributes with which every contract keeps its state, and the one that declares. -/
def reservedNames : List String := ["_state", "_storage_slots", "_slot_counter", "state_var"]

/-- What a machine keeps while a constructor declares variables: it knows the contract, the
tables of the state and the counter, and declaring still has its own meaning. -/
structure Constructing (m : Machine) : Prop where
  self : Assoc.get? "self" m.locals = some .contract
  state : ∃ cell, Assoc.get? "_state" m.attributes = some (.dict cell)
  slots : ∃ cell, Assoc.get? "_storage_slots" m.attributes = some (.dict cell)
  counter : ∃ k, Assoc.get? "_slot_counter" m.attributes = some (.int k)
  declares : Assoc.get? "state_var" m.attributes = none

/-- A setting in which declaring is the operation that every contract has. -/
structure Declares (s : Setting) : Prop where
  found : s.classAttribute? "state_var" = some (.operation .declare)
  performed : ∀ name value,
    s.apply (.operation .declare) [name, value] = declare .full name value

/-- Declaring gives the variable its value and counts on; of the other attributes it changes
none. -/
theorem declare_of_constructing (h : Constructing m) (name : String) (v : Datum) :
    ∃ k cells, declare .full (.text name) v m = .ok v { m with
      cells := cells
      attributes := Assoc.set name v (Assoc.set "_slot_counter" (.int k) m.attributes) } := by
  obtain ⟨stateCell, hstate⟩ := h.state
  obtain ⟨slotsCell, hslots⟩ := h.slots
  obtain ⟨k, hcounter⟩ := h.counter
  refine ⟨k + 1, ?cells, ?run⟩
  case run =>
    rw [declare, bind_of_ok (ownAttribute_of_get? hcounter),
      bind_of_ok (ownAttribute_of_get? hslots), bind_of_ok (setItem_text ..),
      bind_of_ok (ownAttribute_of_get? (m := m.setCell _ _) hstate),
      bind_of_ok (setItem_text ..),
      bind_of_ok (ownAttribute_of_get? (m := (m.setCell _ _).setCell _ _) hcounter)]
    rfl

theorem evaluate_declaringCall {s : Setting} (hs : Declares s) (h : Constructing m)
    (d : String × Nat) :
    evaluate s (declaringCall d) m = declare .full (.text d.1) (.int d.2) m := by
  have hself : evaluate s (.name "self") m = .ok .contract m := getLocal_of_get? h.self
  have hfunction : evaluate s (.attribute (.name "self") "state_var") m =
      .ok (.operation .declare) m := by
    rw [evaluate, bind_of_ok hself]
    exact contractAttribute_of_class h.declares hs.found
  have hargs : evaluateAll s
      [.literal (.text (Text.pointsOf d.1)), .literal (.int d.2)] m =
      .ok [.text d.1, .int d.2] m := by
    simp only [evaluateAll, evaluate, ofLiteral, toString_pointsOf]
    rfl
  rw [declaringCall, evaluate, bind_of_ok hfunction, bind_of_ok hargs, hs.performed]
  simp

/-- A constructor can go on declaring if only the counter has changed among what it needs. -/
theorem Constructing.of_lookups {m m' : Machine} (h : Constructing m)
    (hlocals : m'.locals = m.locals)
    (hkeep : ∀ x ∈ reservedNames, x ≠ "_slot_counter" →
      Assoc.get? x m'.attributes = Assoc.get? x m.attributes)
    (hcounter : ∃ k, Assoc.get? "_slot_counter" m'.attributes = some (.int k)) :
    Constructing m' where
  self := hlocals ▸ h.self
  state := hkeep "_state" (by decide) (by decide) ▸ h.state
  slots := hkeep "_storage_slots" (by decide) (by decide) ▸ h.slots
  counter := hcounter
  declares := hkeep "state_var" (by decide) (by decide) ▸ h.declares

/-- A declaration gives the variable its value and leaves every other one alone. -/
theorem runStmt_declaration {s : Setting} (hs : Declares s) (h : Constructing m) {d : String × Nat}
    (hfree : d.1 ∉ reservedNames) :
    ∃ m', runStmt s (declaration d) m = .ok .next m' ∧ Constructing m' ∧
      Assoc.get? d.1 m'.attributes = some (.int d.2) ∧
      ∀ x ∉ reservedNames, x ≠ d.1 → Assoc.get? x m'.attributes = Assoc.get? x m.attributes := by
  obtain ⟨k, cells, hdeclare⟩ := declare_of_constructing h d.1 (.int d.2)
  have hvalue := (evaluate_declaringCall hs h d).trans hdeclare
  -- The value is set twice: by declaring, and by the assignment of what declaring returns.
  let counted := Assoc.set "_slot_counter" (.int k) m.attributes
  let declared : Machine :=
    { m with cells := cells, attributes := Assoc.set d.1 (.int d.2) counted }
  let m' : Machine :=
    { declared with attributes := Assoc.set d.1 (.int d.2) declared.attributes }
  have hassign : assignAll s (.int d.2) [.attribute (.name "self") d.1] declared = .ok () m' :=
    assignAll_self (m := declared) h.self _ _
  have hlookup : ∀ x ≠ d.1, Assoc.get? x m'.attributes = Assoc.get? x counted := by
    intro x hx
    rw [Assoc.get?_set_of_ne hx, Assoc.get?_set_of_ne hx]
  have hreserved : ∀ x ∈ reservedNames, x ≠ d.1 := by
    rintro x hx rfl
    exact hfree hx
  refine ⟨m', ?_, h.of_lookups rfl ?_ ⟨k, ?_⟩, Assoc.get?_set_self .., ?_⟩
  · rw [declaration, runStmt, bind_of_ok hvalue]
    exact bind_of_ok hassign
  · intro x hx hne
    rw [hlookup x (hreserved x hx), Assoc.get?_set_of_ne hne]
  · rw [hlookup _ (hreserved _ (by decide)), Assoc.get?_set_self]
  · intro x hx hne
    have hcounter : x ≠ "_slot_counter" := by
      rintro rfl
      exact hx (by decide)
    rw [hlookup x hne, Assoc.get?_set_of_ne hcounter]

/-- Declarations give every variable its value: each one what it declares, and no later one
changes it. -/
theorem runBlock_declarations {s : Setting} (hs : Declares s) {ds : List (String × Nat)}
    (hfree : ∀ d ∈ ds, d.1 ∉ reservedNames) (hdistinct : (ds.map Prod.fst).Nodup)
    (h : Constructing m) :
    ∃ m', runBlock s (ds.map declaration) m = .ok .next m' ∧
      (∀ d ∈ ds, Assoc.get? d.1 m'.attributes = some (.int d.2)) ∧
      ∀ x ∉ reservedNames, x ∉ ds.map Prod.fst →
        Assoc.get? x m'.attributes = Assoc.get? x m.attributes := by
  induction ds generalizing m with
  | nil => exact ⟨m, rfl, by simp, fun _ _ _ => rfl⟩
  | cons d rest ih =>
    obtain ⟨hnew, hrest⟩ := List.nodup_cons.mp hdistinct
    obtain ⟨m₁, hfirst, hready, hvalue, hothers⟩ :=
      runStmt_declaration hs h (hfree d List.mem_cons_self)
    obtain ⟨m₂, hrun, hvalues, hkeep⟩ :=
      ih (fun d' hd' => hfree d' (List.mem_cons_of_mem d hd')) hrest hready
    refine ⟨m₂, ?_, ?_, ?_⟩
    · rw [List.map_cons, runBlock, bind_of_ok hfirst]
      exact hrun
    · intro d' hd'
      rcases List.mem_cons.mp hd' with rfl | hmem
      · rw [hkeep d'.1 (hfree d' List.mem_cons_self) hnew]
        exact hvalue
      · exact hvalues d' hmem
    · intro x hx hnot
      simp only [List.map_cons, List.mem_cons, not_or] at hnot
      rw [hkeep x hx hnot.2, hothers x hx hnot.1]

/-! ## Whole constructors -/

/-- The statement with which a constructor sets up the empty state. -/
def baseSetup : Stmt :=
  .expression (.call (.attribute (.call (.name "super") [] []) constructorName) [] [])

def started : Machine := { locals := [("self", .contract)] }

/-- The machine after the empty state has been set up. -/
def readied : Machine where
  cells := [.dict [], .dict []]
  attributes := [("_state", .dict 0), ("_storage_slots", .dict 1), ("_slot_counter", .int 0)]
  locals := started.locals

theorem constructing_readied : Constructing readied :=
  ⟨rfl, ⟨0, rfl⟩, ⟨1, rfl⟩, ⟨0, rfl⟩, rfl⟩

theorem runStmt_baseSetup {s : Setting}
    (hs : s.apply (.operation .construct) [] = perform .full .construct []) :
    runStmt s baseSetup started = .ok .next readied := by
  have hfunction : evaluate s (.attribute (.call (.name "super") [] []) constructorName) started =
      .ok (.operation .construct) started := rfl
  have hargs : evaluateAll s [] started = .ok [] started := rfl
  have hcall : evaluate s
      (.call (.attribute (.call (.name "super") [] []) constructorName) [] []) started =
      .ok .none readied := by
    rw [evaluate, bind_of_ok hfunction, bind_of_ok hargs, hs]
    · rfl
    · simp
  rw [baseSetup, runStmt, bind_of_ok hcall]
  rfl

/-- A constructor that sets up the empty state and then declares variables gives each of
them its value. -/
theorem runMethod_constructor {s : Setting} (hs : Declares s)
    (hbase : s.apply (.operation .construct) [] = perform .full .construct [])
    {params : List (Parameter Expr)} (hparams : params.map Parameter.name = ["self"])
    {ds : List (String × Nat)} (hfree : ∀ d ∈ ds, d.1 ∉ reservedNames)
    (hdistinct : (ds.map Prod.fst).Nodup) :
    ∃ m, runMethod s ⟨params, baseSetup :: ds.map declaration⟩ [] {} = .ok .none m ∧
      ∀ d ∈ ds, Assoc.get? d.1 m.attributes = some (.int d.2) := by
  obtain ⟨p, rfl, hself⟩ : ∃ p, params = [p] ∧ p.name = "self" := by
    simpa [List.map_eq_singleton_iff] using hparams
  obtain ⟨m, hrun, hvalues, -⟩ := runBlock_declarations hs hfree hdistinct constructing_readied
  have hbody : runBlock s (baseSetup :: ds.map declaration) started = .ok .next m := by
    rw [runBlock, bind_of_ok (runStmt_baseSetup hbase)]
    exact hrun
  refine ⟨{ m with locals := [] }, ?_, hvalues⟩
  have hlocals : bindArguments [p] [.contract] = some started.locals := by
    simp [bindArguments, hself, started]
  have henter : (modify fun m => { m with locals := started.locals } : Sim Unit) {} =
      .ok () started := rfl
  simp only [runMethod, hlocals]
  rw [bind_of_ok (get_ok _), bind_of_ok henter, bind_of_ok hbody]
  rfl

/-! ## Instances -/

/-- A call of a method runs its code, in which calls may nest one less deep. -/
theorem apply_method {c : Class} {name : String} {f : Method}
    (h : Assoc.get? name c.methods = some f) (depth : Nat) (args : List Datum) :
    c.apply (depth + 1) (.method name) args = runMethod ⟨c.attribute?, c.apply depth⟩ f args := by
  simp only [Class.apply, h]

theorem run_of_ok {α : Type} {i : Instance} {x : Sim α} {a : α}
    (h : x { i.machine with locals := [] } = .ok a m) :
    i.run x = (.ok a, { i with machine := m }) := by
  simp only [Instance.run, EStateM.run, h]

/-- The methods that some members of a class define. -/
def methodsOf (members : List Stmt) : Assoc String Method := members.filterMap Method.ofStmt?

/-- What the source of a simulated contract must keep to beside declaring variables: the
constructor starts with the empty state, nothing takes the place of the constructor, of the
operation that declares or of the class, and no variable has a reserved name. -/
structure Simulable (s : DeclaringSource) : Prop where
  opens : s.opening = [baseSetup]
  takesSelf : s.params.map Parameter.name = ["self"]
  lastConstructor : constructorName ∉ Assoc.keys (methodsOf s.after)
  declares : "state_var" ∉ Assoc.keys (methodsOf (s.before ++ s.after))
  lastClass : Class.ofStatements? s.name s.back = none
  free : ∀ d ∈ s.declared, d.1 ∉ reservedNames

namespace Simulable

variable {s : DeclaringSource}

theorem methodsOf_body (s : DeclaringSource) :
    methodsOf s.body = methodsOf s.before ++
      (constructorName, ⟨s.params, s.constructorBody⟩) :: methodsOf s.after := by
  simp [methodsOf, DeclaringSource.body, List.filterMap_append, Method.ofStmt?]

theorem ofStatements?_statements (h : Simulable s) :
    Class.ofStatements? s.name s.statements = some (Class.ofBody s.body) := by
  have hclass : Class.ofStatements? s.name
      (.classDef s.name s.bases s.keywords s.body s.decorators :: s.back) =
      some (Class.ofBody s.body) := by
    simp [Class.ofStatements?, h.lastClass]
  rw [DeclaringSource.statements]
  induction s.front with
  | nil => exact hclass
  | cons stmt rest ih =>
    rw [List.cons_append]
    cases stmt <;> simp [Class.ofStatements?, ih]

theorem ofSource? (h : Simulable s) {source : String}
    (hread : readStatements source = some s.statements) :
    Class.ofSource? s.name source = some (Class.ofBody s.body) := by
  rw [Class.ofSource?, hread]
  exact h.ofStatements?_statements

theorem get?_constructor (h : Simulable s) :
    Assoc.get? constructorName (Class.ofBody s.body).methods =
      some ⟨s.params, baseSetup :: s.declared.map declaration⟩ := by
  have hbody : s.constructorBody = baseSetup :: s.declared.map declaration := by
    rw [DeclaringSource.constructorBody, h.opens]
    rfl
  have hmethods : (Class.ofBody s.body).methods = Assoc.ofList (methodsOf s.body) := rfl
  rw [hmethods, methodsOf_body, Assoc.get?_ofList_of_last _ h.lastConstructor, hbody]

theorem get?_declare (h : Simulable s) :
    Assoc.get? "state_var" (Class.ofBody s.body).methods = none := by
  refine Assoc.get?_eq_none_of_not_mem_keys fun hmem => h.declares ?_
  obtain ⟨entry, hentry, hname⟩ := List.mem_map.mp hmem
  have hin : entry ∈ methodsOf s.body := Assoc.mem_ofList hentry
  have hnotInit : entry.1 ≠ constructorName := hname ▸ by decide
  have hother : entry ∈ methodsOf (s.before ++ s.after) := by
    rw [methodsOf_body, List.mem_append, List.mem_cons] at hin
    rw [methodsOf, List.filterMap_append, List.mem_append]
    rcases hin with hbefore | rfl | hafter
    · exact .inl hbefore
    · exact (hnotInit rfl).elim
    · exact .inr hafter
  exact List.mem_map.mpr ⟨entry, hother, hname⟩

/-- **Simulated first values.**  An instance of the class comes about, and every declared
variable has its declared value in it. -/
theorem instantiate_ofBody (h : Simulable s) :
    (Class.ofBody s.body).instantiate.1 = .ok () ∧
      ∀ d ∈ s.declared, (Class.ofBody s.body).instantiate.2.attribute? d.1 = some (.int d.2) := by
  let cls := Class.ofBody s.body
  -- The code of a constructor runs one call deep, and so do the operations it calls.
  obtain ⟨depth, hdepth⟩ : ∃ depth, maxDepth = depth + 2 := ⟨998, rfl⟩
  let inner : Setting := ⟨cls.attribute?, cls.apply (depth + 1)⟩
  have hdeclares : Declares inner := by
    refine ⟨?_, fun _ _ => rfl⟩
    have hnone : Assoc.has "state_var" cls.methods = false := by
      rw [Assoc.has, h.get?_declare]
      rfl
    show cls.attribute? "state_var" = _
    simp only [Class.attribute?, hnone]
    rfl
  obtain ⟨m, hrun, hvalues⟩ := runMethod_constructor hdeclares rfl h.takesSelf h.free s.distinct
  have hfound : contractAttribute cls.setting constructorName {} =
      .ok (.method constructorName) {} := by
    refine contractAttribute_of_class rfl ?_
    have hhas : Assoc.has constructorName cls.methods = true := by
      rw [Assoc.has, h.get?_constructor]
      rfl
    simp [Class.setting, Class.attribute?, hhas]
  have happly : cls.setting.apply (.method constructorName) [] {} = .ok .none m := by
    have hcall := apply_method h.get?_constructor (depth + 1) []
    rw [Class.setting, hdepth]
    exact (congrFun hcall {}).trans hrun
  have hnew : cls.callNamed constructorName [] {} = .ok .none m := by
    rw [Class.callNamed, bind_of_ok hfound]
    exact happly
  have hinstance : cls.instantiate = (.ok (), ⟨cls, m⟩) := run_of_ok (bind_of_ok hnew)
  have hvalue : ∀ d ∈ s.declared, (⟨cls, m⟩ : Instance).attribute? d.1 = some (.int d.2) := by
    intro d hd
    rw [Instance.attribute?, hvalues d hd]
    rfl
  exact hinstance ▸ ⟨rfl, hvalue⟩

end Simulable

end ContractKit.Simulation
