import ContractKit.Proofs.Simulation.Declarations
import Mathlib

/-!
# Rules for running methods

The forms that the methods of contracts are written in, with a rule for each: what an expression
of the form yields, or what a statement of the form does to the machine.  A method is then run by
applying the rules in the order of its statements, and a call of an instance by running its method.
-/

namespace ContractKit.Simulation

open Source

variable {op : BinaryOp} {condition e key table : Expr} {cell : Nat} {stmt : Stmt}

/-! ## Forms -/

def field (x : String) : Expr := .attribute (.name "self") x

def words (text : String) : Expr := .literal (.text (Text.pointsOf text))

def number (n : Nat) : Expr := .literal (.int n)

/-- A call of what the contract has under a name. -/
def ask (x : String) (args : List Expr) : Expr := .call (field x) args []

/-- The entry of a table under a key, or zero. -/
def lookUp (table key : Expr) : Expr := .call (.attribute table "get") [key, number 0] []

/-- The entry of a table under a key, or a value in its place. -/
def lookUpOr (table key fallback : Expr) : Expr :=
  .call (.attribute table "get") [key, fallback] []

/-- Sets a local name. -/
def lets (x : String) (e : Expr) : Stmt := .assign [.name x] e

/-- Sets an attribute of the contract. -/
def puts (x : String) (e : Expr) : Stmt := .assign [field x] e

def putsIn (table key e : Expr) : Stmt := .assign [.subscript table key] e

/-- Combines an attribute of the contract with a value. -/
def updates (x : String) (op : BinaryOp) (e : Expr) : Stmt := .augAssign (field x) op e

/-- Combines an entry of a table with a value. -/
def updatesIn (table key : Expr) (op : BinaryOp) (e : Expr) : Stmt :=
  .augAssign (.subscript table key) op e

/-- Declares a state variable with a first value. -/
def declares (x : String) (e : Expr) : Stmt := puts x (ask "state_var" [words x, e])

def emits (event : String) (args : List Expr) : Stmt :=
  .expression (ask "event" (words event :: args))

/-- Goes on only if a condition holds. -/
def insists (condition : Expr) (message : String) : Stmt :=
  .expression (ask "require" [condition, words message])

/-- Runs a block if a condition holds. -/
def whenever (condition : Expr) (body : List Stmt) : Stmt := .ifThen condition body []

def refuses (condition : Expr) (message : String) : Stmt :=
  whenever condition [.raise (some (.call (.name "Exception") [words message] [])) none]

/-- The parameters of a method: the contract, and others with the names of their types. -/
def parameters (params : List (String × String)) : List (Parameter Expr) :=
  ⟨.regular, "self", none, none⟩ ::
    params.map fun p => ⟨.regular, p.1, some (.name p.2), none⟩

def constructor (body : List Stmt) : Stmt :=
  .functionDef false Layout.constructorName (parameters []) body [] none

/-- A method that changes the contract. -/
def action (name : String) (params : List (String × String)) (body : List Stmt) : Stmt :=
  .functionDef false name (parameters params) body [.name "public_function"] none

/-- A method that returns a value of a type. -/
def view (name : String) (params : List (String × String)) (type : String) (body : List Stmt) :
    Stmt :=
  .functionDef false name (parameters params) body [.name "view_function"] (some (.name type))

/-- A view that returns an attribute. -/
def getter (name type x : String) : Stmt := view name [] type [.ret (some (field x))]

def contract (name : String) (body : List Stmt) : Stmt :=
  .classDef name [.name "PySmartContract"] [] body []

/-! ## Expressions -/

/-- A setting in which the operations of the base have their own meaning. -/
structure Ordinary (s : Setting) : Prop where
  declare : s.classAttribute? "state_var" = some (.operation .declare)
  event : s.classAttribute? "event" = some (.operation .event)
  sender : s.classAttribute? "msg_sender" = some (.operation .sender)
  require : s.classAttribute? "require" = some (.operation .require)
  performs : ∀ op args, s.apply (.operation op) args = perform .full op args
  finds : ∀ cell key fallback,
    s.apply (.lookupIn cell) [key, fallback] = Class.apply.find cell key fallback

/-- An expression has a value on a machine, and leaves the machine as it is. -/
def Yields (s : Setting) (m : Machine) (e : Expr) (d : Datum) : Prop := evaluate s e m = .ok d m

variable {s : Setting} {m m' : Machine}

namespace Yields

theorem name {x : String} {d : Datum} (h : Assoc.get? x m.locals = some d) :
    Yields s m (.name x) d :=
  getLocal_of_get? h

theorem number (n : Nat) : Yields s m (number n) (.int n) := rfl

theorem words (text : String) : Yields s m (words text) (.text text) := by
  rw [Yields, Simulation.words, evaluate, ofLiteral, toString_pointsOf]
  rfl

theorem field {x : String} {d : Datum} (hself : Assoc.get? "self" m.locals = some .contract)
    (h : Assoc.get? x m.attributes = some d) : Yields s m (field x) d := by
  have hget : contractAttribute s x m = .ok d m := by
    rw [contractAttribute, bind_of_ok (get_ok m), h]
    rfl
  exact (bind_of_ok (name hself)).trans hget

theorem binary {left right : Expr} {a b d : Datum} (hleft : Yields s m left a)
    (hright : Yields s m right b) (h : combine op a b m = .ok d m) :
    Yields s m (.binary left op right) d := by
  rw [Yields, evaluate, bind_of_ok hleft, bind_of_ok hright, h]

theorem compare {left right : Expr} {op : CompareOp} {a b : Datum} {holds : Bool}
    (hleft : Yields s m left a) (hright : Yields s m right b)
    (h : relate op a b m = .ok holds m) :
    Yields s m (.compare left op right []) (.bool holds) := by
  rw [Yields, evaluate, bind_of_ok hleft, bind_of_ok hright, bind_of_ok h]
  cases holds <;> rfl

theorem all {args : List Expr} {data : List Datum} (h : List.Forall₂ (Yields s m) args data) :
    evaluateAll s args m = .ok data m := by
  induction h with
  | nil => rfl
  | cons hfirst _ ih =>
    rw [evaluateAll, bind_of_ok hfirst, bind_of_ok ih]
    rfl

/-- What the class has under a name that was not set on the contract. -/
theorem inherited {x : String} {f : Datum} (hself : Assoc.get? "self" m.locals = some .contract)
    (hfree : Assoc.get? x m.attributes = none) (hclass : s.classAttribute? x = some f) :
    Yields s m (Simulation.field x) f :=
  (bind_of_ok (name hself)).trans (contractAttribute_of_class hfree hclass)

/-- A call that changes nothing. -/
theorem ask {x : String} {f d : Datum} {args : List Expr} {data : List Datum}
    (hfunction : Yields s m (Simulation.field x) f) (hargs : List.Forall₂ (Yields s m) args data)
    (happly : s.apply f data m = .ok d m) : Yields s m (ask x args) d :=
  (bind_of_ok hfunction).trans ((bind_of_ok (all hargs)).trans happly)

theorem sender (hs : Ordinary s) (hself : Assoc.get? "self" m.locals = some .contract)
    (hfree : Assoc.get? "msg_sender" m.attributes = none) :
    Yields s m (Simulation.ask "msg_sender" []) (.text senderAddress) :=
  ask (inherited hself hfree hs.sender) .nil (by rw [hs.performs]; rfl)

theorem blockNumber (hs : Ordinary s)
    (hblock : s.classAttribute? "block_number" = some (.operation .blockNumber))
    (hself : Assoc.get? "self" m.locals = some .contract)
    (hfree : Assoc.get? "block_number" m.attributes = none) :
    Yields s m (Simulation.ask "block_number" []) (.int 1) :=
  ask (inherited hself hfree hblock) .nil (by rw [hs.performs]; rfl)

theorem lookUpOr (hs : Ordinary s) {fallback : Expr} {k d : Datum}
    (htable : Yields s m table (.dict cell)) (hkey : Yields s m key k) (hkind : k.isKey = true)
    (hfallback : Yields s m fallback d) :
    Yields s m (lookUpOr table key fallback) ((findKey k (m.entries cell)).getD d) := by
  have hfunction : evaluate s (.attribute table "get") m = .ok (.lookupIn cell) m :=
    bind_of_ok htable
  have hargs := all (.cons hkey (.cons hfallback .nil))
  refine (bind_of_ok hfunction).trans ((bind_of_ok hargs).trans ?_)
  rw [hs.finds, Class.apply.find, bind_of_ok (get_ok m), if_pos hkind]
  rfl

theorem lookUp (hs : Ordinary s) {k : Datum} (htable : Yields s m table (.dict cell))
    (hkey : Yields s m key k) (hkind : k.isKey = true) :
    Yields s m (lookUp table key) ((findKey k (m.entries cell)).getD (.int 0)) :=
  lookUpOr hs htable hkey hkind (number 0)

end Yields

/-! ## Comparisons of integers -/

theorem relate_lt (x y : Int) : relate .lt (.int x) (.int y) m = .ok (decide (x < y)) m := by
  have h : (compare x y == .lt) = decide (x < y) := by
    rw [Bool.eq_iff_iff, beq_iff_eq, decide_eq_true_iff, compare_lt_iff_lt]
  exact congrArg (EStateM.Result.ok · m) h

theorem relate_ltE (x y : Int) : relate .ltE (.int x) (.int y) m = .ok (decide (x ≤ y)) m := by
  have h : (compare x y != .gt) = decide (x ≤ y) := by
    rw [Bool.eq_iff_iff, bne_iff_ne, decide_eq_true_iff, ne_eq, compare_gt_iff_gt, not_lt]
  exact congrArg (EStateM.Result.ok · m) h

theorem relate_gt (x y : Int) : relate .gt (.int x) (.int y) m = .ok (decide (y < x)) m := by
  have h : (compare x y == .gt) = decide (y < x) := by
    rw [Bool.eq_iff_iff, beq_iff_eq, decide_eq_true_iff, compare_gt_iff_gt]
  exact congrArg (EStateM.Result.ok · m) h

theorem relate_gtE (x y : Int) : relate .gtE (.int x) (.int y) m = .ok (decide (y ≤ x)) m := by
  have h : (compare x y != .lt) = decide (y ≤ x) := by
    rw [Bool.eq_iff_iff, bne_iff_ne, decide_eq_true_iff, ne_eq, compare_lt_iff_lt, not_lt]
  exact congrArg (EStateM.Result.ok · m) h

theorem relate_eq (x y : Int) : relate .eq (.int x) (.int y) m = .ok (decide (x = y)) m := by
  have h : (some (compare x y) == some .eq) = decide (x = y) := by
    rw [Bool.eq_iff_iff, beq_iff_eq, decide_eq_true_iff, Option.some_inj, compare_eq_iff_eq]
  exact congrArg (EStateM.Result.ok · m) h

/-! ## Statements -/

theorem bind_of_error {α β : Type} {x : Sim α} {f : α → Sim β} {e : Failure}
    (h : x m = .error e m') : (x >>= f) m = .error e m' := by
  simp only [bind, EStateM.bind, h]

theorem runStmt_expression {d : Datum} (h : Yields s m e d) :
    runStmt s (.expression e) m = .ok .next m :=
  bind_of_ok h

theorem runStmt_ret {d : Datum} (h : Yields s m e d) :
    runStmt s (.ret (some e)) m = .ok (.done d) m :=
  bind_of_ok h

theorem runStmt_lets {x : String} {d : Datum} (h : Yields s m e d) :
    runStmt s (lets x e) m = .ok .next { m with locals := Assoc.set x d m.locals } :=
  bind_of_ok h

theorem runStmt_puts {x : String} {d : Datum} (hself : Assoc.get? "self" m.locals = some .contract)
    (h : Yields s m e d) :
    runStmt s (puts x e) m = .ok .next { m with attributes := Assoc.set x d m.attributes } :=
  (bind_of_ok h).trans (bind_of_ok (assignAll_self hself x d))

theorem runStmt_putsIn {k : String} {d : Datum} (htable : Yields s m table (.dict cell))
    (hkey : Yields s m key (.text k)) (h : Yields s m e d) :
    runStmt s (putsIn table key e) m =
      .ok .next (m.setCell cell (.dict (setKey (.text k) d (m.entries cell)))) := by
  have hassign : assign s d (.subscript table key) m =
      .ok () (m.setCell cell (.dict (setKey (.text k) d (m.entries cell)))) :=
    (bind_of_ok htable).trans ((bind_of_ok hkey).trans (setItem_text ..))
  exact (bind_of_ok h).trans (bind_of_ok (bind_of_ok hassign))

theorem runStmt_updates {x : String} {old d new : Datum}
    (hself : Assoc.get? "self" m.locals = some .contract)
    (hold : Assoc.get? x m.attributes = some old) (h : Yields s m e d)
    (hnew : update op old d m = .ok new m) :
    runStmt s (updates x op e) m =
      .ok .next { m with attributes := Assoc.set x new m.attributes } := by
  have hget : getAttribute s .contract x m = .ok old m := by
    rw [getAttribute, contractAttribute, bind_of_ok (get_ok m), hold]
    rfl
  have hupdate : assignUpdated s op e (field x) m =
      .ok () { m with attributes := Assoc.set x new m.attributes } :=
    (bind_of_ok (Yields.name hself)).trans
      ((bind_of_ok hget).trans ((bind_of_ok h).trans (bind_of_ok hnew)))
  exact bind_of_ok hupdate

theorem runStmt_updatesIn {k : String} {old d new : Datum} (htable : Yields s m table (.dict cell))
    (hkey : Yields s m key (.text k)) (hold : findKey (.text k) (m.entries cell) = some old)
    (h : Yields s m e d) (hnew : update op old d m = .ok new m) :
    runStmt s (updatesIn table key op e) m =
      .ok .next (m.setCell cell (.dict (setKey (.text k) new (m.entries cell)))) := by
  have hget : getItem (.dict cell) (.text k) m = .ok old m := by
    rw [getItem, bind_of_ok (get_ok m)]
    simp only [Datum.isKey, hold]
    rfl
  have hupdate : assignUpdated s op e (.subscript table key) m =
      .ok () (m.setCell cell (.dict (setKey (.text k) new (m.entries cell)))) :=
    (bind_of_ok htable).trans ((bind_of_ok hkey).trans
      ((bind_of_ok hget).trans ((bind_of_ok h).trans
        ((bind_of_ok hnew).trans (setItem_text ..)))))
  exact bind_of_ok hupdate

theorem runStmt_emits (hs : Ordinary s) {event : String} {args : List Expr} {data : List Datum}
    (hself : Assoc.get? "self" m.locals = some .contract)
    (hfree : Assoc.get? "event" m.attributes = none)
    (hargs : List.Forall₂ (Yields s m) args data) :
    runStmt s (emits event args) m = .ok .next m :=
  runStmt_expression (.ask (.inherited hself hfree hs.event) (.cons (.words event) hargs)
    (by rw [hs.performs]; rfl))

theorem runStmt_whenever {P : Prop} [Decidable P] (body : List Stmt)
    (h : Yields s m condition (.bool (decide P))) :
    runStmt s (whenever condition body) m = if P then runBlock s body m else .ok .next m := by
  refine (bind_of_ok (get_ok m)).trans ((bind_of_ok h).trans ?_)
  by_cases hP : P
  · rw [decide_eq_true hP, if_pos hP]
    rfl
  · rw [decide_eq_false hP, if_neg hP]
    rfl

theorem runStmt_insists (hs : Ordinary s) {P : Prop} [Decidable P] (message : String)
    (hself : Assoc.get? "self" m.locals = some .contract)
    (hfree : Assoc.get? "require" m.attributes = none)
    (h : Yields s m condition (.bool (decide P))) :
    runStmt s (insists condition message) m =
      if P then .ok .next m else .error (.raised message) m := by
  have hfunction := Yields.inherited hself hfree hs.require
  have hargs := Yields.all (.cons h (.cons (.words message) .nil))
  have hcall : evaluate s (ask "require" [condition, words message]) m =
      require (.bool (decide P)) (.text message) m := by
    refine (bind_of_ok hfunction).trans ((bind_of_ok hargs).trans ?_)
    rw [hs.performs]
    rfl
  by_cases hP : P
  · rw [decide_eq_true hP] at hcall
    rw [if_pos hP]
    exact bind_of_ok (hcall.trans rfl)
  · rw [decide_eq_false hP] at hcall
    rw [if_neg hP]
    exact bind_of_error (hcall.trans rfl)

theorem runStmt_refuses {P : Prop} [Decidable P] (message : String)
    (h : Yields s m condition (.bool (decide P))) :
    runStmt s (refuses condition message) m =
      if P then .error (.raised message) m else .ok .next m := by
  have hargs : evaluateAll s [words message] m = .ok [.text message] m :=
    Yields.all (.cons (.words message) .nil)
  exact (runStmt_whenever _ h).trans
    (if_congr Iff.rfl (bind_of_error (bind_of_ok hargs)) rfl)

/-! ## Blocks -/

theorem runBlock_next {rest : List Stmt} (h : runStmt s stmt m = .ok .next m') :
    runBlock s (stmt :: rest) m = runBlock s rest m' :=
  bind_of_ok h

theorem runBlock_done {rest : List Stmt} {d : Datum} (h : runStmt s stmt m = .ok (.done d) m') :
    runBlock s (stmt :: rest) m = .ok (.done d) m' :=
  bind_of_ok h

theorem runBlock_error {rest : List Stmt} {e : Failure} (h : runStmt s stmt m = .error e m') :
    runBlock s (stmt :: rest) m = .error e m' :=
  bind_of_error h

/-- A block that leaves the method is all of it that runs, if its condition holds. -/
theorem runBlock_whenever_done {P : Prop} [Decidable P] {body rest : List Stmt} {d : Datum}
    (h : Yields s m condition (.bool (decide P))) (hbody : runBlock s body m = .ok (.done d) m') :
    runBlock s (whenever condition body :: rest) m =
      if P then .ok (.done d) m' else runBlock s rest m := by
  have hguard := runStmt_whenever body h
  split_ifs at hguard ⊢
  · exact runBlock_done (hguard.trans hbody)
  · exact runBlock_next hguard

/-- A block that comes last is run if its condition holds. -/
theorem runBlock_whenever {P : Prop} [Decidable P] {body : List Stmt}
    (h : Yields s m condition (.bool (decide P))) (hbody : runBlock s body m = .ok .next m') :
    runBlock s [whenever condition body] m = .ok .next (if P then m' else m) := by
  have hguard := runStmt_whenever body h
  split_ifs at hguard ⊢
  · exact runBlock_next (hguard.trans hbody)
  · exact runBlock_next hguard

theorem runBlock_append (s : Setting) (first rest : List Stmt) (m : Machine) :
    runBlock s (first ++ rest) m =
      (runBlock s first >>= fun | .next => runBlock s rest | flow => pure flow) m := by
  induction first generalizing m with
  | nil => rfl
  | cons stmt first ih =>
    simp only [List.cons_append, runBlock, bind, EStateM.bind]
    cases runStmt s stmt m with
    | error e m' => rfl
    | ok flow m' =>
      cases flow with
      | next => exact ih m'
      | _ => rfl

/-! ## Constructors -/

theorem sameKey_text (k l : String) : (Datum.text k).sameKey (.text l) = (k == l) := by
  by_cases h : k = l <;> simp [Datum.sameKey, Datum.numeric?, h]

/-- A dictionary with texts as keys. -/
def rowsOf (t : Assoc String Datum) : List (Datum × Datum) := t.map fun e => (.text e.1, e.2)

theorem setKey_rowsOf (k : String) (d : Datum) (t : Assoc String Datum) :
    setKey (.text k) d (rowsOf t) = rowsOf (Assoc.set k d t) := by
  rw [rowsOf]
  induction t with
  | nil => rfl
  | cons e rest ih =>
    simp only [List.map_cons, setKey, sameKey_text, Assoc.set]
    split
    · rfl
    · rw [rowsOf, List.map_cons, ih, rowsOf]

/-- The slots of variables, numbered in the order of their declarations. -/
def slotsOf (vars : Assoc String Datum) : Assoc String Datum :=
  vars.mapIdx fun n v => (v.1, .int n)

/-- The machine of a constructor that has declared variables and made some cells by the way. -/
def declaring (vars : Assoc String Datum) (made : List Cell) : Machine where
  cells := .dict (rowsOf vars) :: .dict (rowsOf (slotsOf vars)) :: made
  attributes := [("_state", .dict 0), ("_storage_slots", .dict 1),
    ("_slot_counter", .int vars.length)] ++ vars
  locals := started.locals

/-- A first value that is written down. -/
inductive Initial where
  | text (value : String)
  | number (value : Nat)

def Initial.expr : Initial → Expr
  | text value => words value
  | number value => Simulation.number value

def Initial.datum : Initial → Datum
  | text value => .text value
  | number value => .int value

/-- Declares variables with first values that are written down. -/
def declaresAll (ds : Assoc String Initial) : List Stmt := ds.map fun d => declares d.1 d.2.expr

/-! ## Calls -/

/-- The setting in which a method runs that is called from outside. -/
def Class.methodSetting (c : Class) : Setting := ⟨c.attribute?, c.apply 999⟩

/-- What the end of a block returns. -/
def Flow.result : Flow → Datum
  | .done d => d
  | _ => .none

/-- The outcome of a call whose method's body has run.  A body that fails leaves its locals
behind. -/
def Instance.ended (i : Instance) : EStateM.Result Failure Machine Flow →
    Except Failure Value × Instance
  | .ok flow m =>
    (.ok ({ m with locals := [] }.value flow.result), { i with machine := { m with locals := [] } })
  | .error e m => (.error e, { i with machine := m })

theorem run_of_error {α : Type} {i : Instance} {x : Sim α} {e : Failure}
    (h : x { i.machine with locals := [] } = .error e m) :
    i.run x = (.error e, { i with machine := m }) := by
  simp only [Instance.run, EStateM.run, h]

section Method

variable {f : Method} {data : List Datum} {locals : Assoc String Datum}

theorem runMethod_of_ok {flow : Flow}
    (hbind : bindArguments f.params (.contract :: data) = some locals)
    (h : runBlock s f.body { m with locals := locals } = .ok flow m') :
    runMethod s f data m = .ok flow.result { m' with locals := m.locals } := by
  have henter : (modify fun m => { m with locals := locals } : Sim Unit) m =
      .ok () { m with locals := locals } := rfl
  simp only [runMethod, hbind]
  rw [bind_of_ok (get_ok m), bind_of_ok henter, bind_of_ok h]
  cases flow <;> rfl

theorem runMethod_of_error {e : Failure}
    (hbind : bindArguments f.params (.contract :: data) = some locals)
    (h : runBlock s f.body { m with locals := locals } = .error e m') :
    runMethod s f data m = .error e m' := by
  have henter : (modify fun m => { m with locals := locals } : Sim Unit) m =
      .ok () { m with locals := locals } := rfl
  simp only [runMethod, hbind]
  rw [bind_of_ok (get_ok m), bind_of_ok henter, bind_of_error h]

/-- A method that another one calls for its effect runs in locals of its own. -/
theorem runStmt_calls {c : Class} {depth : Nat} {x : String} {args : List Expr} {flow : Flow}
    (hself : Assoc.get? "self" m.locals = some .contract)
    (hfree : Assoc.get? x m.attributes = none) (hmethod : Assoc.get? x c.methods = some f)
    (hargs : List.Forall₂ (Yields ⟨c.attribute?, c.apply (depth + 1)⟩ m) args data)
    (hbind : bindArguments f.params (.contract :: data) = some locals)
    (h : runBlock ⟨c.attribute?, c.apply depth⟩ f.body { m with locals := locals } =
      .ok flow m') :
    runStmt ⟨c.attribute?, c.apply (depth + 1)⟩ (.expression (ask x args)) m =
      .ok .next { m' with locals := m.locals } := by
  have hfound : c.attribute? x = some (.method x) := by
    simp [Class.attribute?, Assoc.has, hmethod]
  have hfunction := Yields.inherited (s := ⟨c.attribute?, c.apply (depth + 1)⟩) hself hfree hfound
  have hbody := (congrFun (apply_method hmethod depth data) m).trans (runMethod_of_ok hbind h)
  exact bind_of_ok ((bind_of_ok hfunction).trans ((bind_of_ok (Yields.all hargs)).trans hbody))

/-- A call runs the body of the method, on the machine of the instance with the arguments as
locals. -/
theorem Instance.call_eq (i : Instance) (name : String) (args : List Value)
    (hfree : Assoc.get? name i.machine.attributes = none)
    (hmethod : Assoc.get? name i.cls.methods = some f)
    (hload : loadAll args { i.machine with locals := [] } =
      .ok data { i.machine with locals := [] })
    (hbind : bindArguments f.params (.contract :: data) = some locals) :
    i.call name args =
      i.ended (runBlock i.cls.methodSetting f.body { i.machine with locals := locals }) := by
  let start : Machine := { i.machine with locals := [] }
  have hfound : contractAttribute i.cls.setting name start = .ok (.method name) start := by
    refine contractAttribute_of_class hfree ?_
    simp [Class.setting, Class.attribute?, Assoc.has, hmethod]
  have happly : i.cls.setting.apply (.method name) data start =
      runMethod i.cls.methodSetting f data start := congrFun (apply_method hmethod 999 data) start
  cases hbody : runBlock i.cls.methodSetting f.body { start with locals := locals } with
  | ok flow m =>
    have hend := happly.trans (runMethod_of_ok hbind hbody)
    exact run_of_ok ((bind_of_ok hfound).trans ((bind_of_ok hload).trans (bind_of_ok hend)))
  | error e m =>
    have hend := happly.trans (runMethod_of_error hbind hbody)
    exact run_of_error
      ((bind_of_ok hfound).trans ((bind_of_ok hload).trans (bind_of_error hend)))

theorem Class.ofSource?_contract {name source : String} {body : List Stmt}
    (h : readStatements source = some [contract name body]) :
    Class.ofSource? name source = some (.ofBody body) := by
  rw [Class.ofSource?, h, Option.bind_some, contract, Class.ofStatements?, Class.ofStatements?,
    Option.none_or, if_pos rfl]

/-- Whether a block has come to its end and left a machine. -/
def leaves (m : Machine) : EStateM.Result Failure Machine Flow → Bool
  | .ok .next m' => m' = m
  | _ => false

/-- A class is instantiated by running the body of its constructor on the empty machine.  Nothing
is open in such a run, so it is checked by carrying it out. -/
theorem Class.instantiate_eq {c : Class}
    (hmethod : Assoc.get? Layout.constructorName c.methods = some f)
    (hbind : bindArguments f.params [.contract] = some started.locals)
    (h : leaves m (runBlock c.methodSetting f.body started) = true) :
    c.instantiate = (.ok (), ⟨c, { m with locals := [] }⟩) := by
  have hrun : runBlock c.methodSetting f.body started = .ok .next m := by
    unfold leaves at h
    split at h
    · next heq => rw [heq, of_decide_eq_true h]
    · cases h
  have hfound : contractAttribute c.setting Layout.constructorName {} =
      .ok (.method Layout.constructorName) {} := by
    refine contractAttribute_of_class rfl ?_
    simp [Class.setting, Class.attribute?, Assoc.has, hmethod]
  have hbody : runMethod c.methodSetting f [] {} = .ok Flow.next.result { m with locals := [] } :=
    runMethod_of_ok hbind hrun
  have happly := (congrFun (apply_method hmethod 999 []) {}).trans hbody
  have hnew : c.callNamed Layout.constructorName [] {} = .ok .none { m with locals := [] } :=
    (bind_of_ok hfound).trans happly
  exact run_of_ok (bind_of_ok hnew)

end Method

theorem valueAt_locals (m : Machine) (locals : Assoc String Datum) (depth : Nat) :
    { m with locals := locals }.valueAt depth = m.valueAt depth := by
  induction depth with
  | zero => rfl
  | succ depth ih =>
    funext d
    simp only [Machine.valueAt, ih]
    rfl

theorem value_locals (m : Machine) (locals : Assoc String Datum) :
    { m with locals := locals }.value = m.value :=
  valueAt_locals m locals (m.cells.length + 1)

/-! ## Outcomes -/

section Outcomes

variable {σ : Type} {c : Class} {machine : σ → Machine} {x : σ}
  {R : Except Failure Value → σ → Prop}
  {rest : List Stmt}

/-- A call ends with an answer and a state that are in a relation: the instance has the machine of
the state, apart from the locals. -/
def Ends (c : Class) (machine : σ → Machine) (R : Except Failure Value → σ → Prop)
    (outcome : Except Failure Value × Instance) : Prop :=
  ∃ answer x locals, outcome = (answer, ⟨c, { machine x with locals := locals }⟩) ∧ R answer x

/-- The rest of a method's body runs to such an end. -/
def Completes (c : Class) (machine : σ → Machine) (R : Except Failure Value → σ → Prop)
    (rest : List Stmt) (m : Machine) : Prop :=
  Ends c machine R (Instance.ended ⟨c, m⟩ (runBlock c.methodSetting rest m))

theorem Ends.call {f : Method} {name : String} {args : List Value} {data : List Datum}
    {left locals : Assoc String Datum} (hfree : Assoc.get? name (machine x).attributes = none)
    (hmethod : Assoc.get? name c.methods = some f)
    (hload : loadAll args { machine x with locals := [] } =
      .ok data { machine x with locals := [] })
    (hbind : bindArguments f.params (.contract :: data) = some locals)
    (h : Completes c machine R f.body { machine x with locals := locals }) :
    Ends c machine R (Instance.call ⟨c, { machine x with locals := left }⟩ name args) := by
  rw [Instance.call_eq ⟨c, { machine x with locals := left }⟩ name args hfree hmethod hload hbind]
  exact h

namespace Completes

theorem next (h : runStmt c.methodSetting stmt m = .ok .next m')
    (hrest : Completes c machine R rest m') : Completes c machine R (stmt :: rest) m := by
  rw [Completes, runBlock_next h]
  exact hrest

/-- The end of the body, in a state. -/
theorem last (x : σ) (h : R (.ok .none) x)
    (hm : { m with locals := [] } = { machine x with locals := [] }) :
    Completes c machine R [] m :=
  ⟨.ok .none, x, [], congrArg (fun m' => (Except.ok Value.none, Instance.mk c m')) hm, h⟩

theorem done {d : Datum} (x : σ) (hstmt : runStmt c.methodSetting stmt m = .ok (.done d) m')
    (h : R (.ok ({ m' with locals := [] }.value d)) x)
    (hm : { m' with locals := [] } = { machine x with locals := [] }) :
    Completes c machine R (stmt :: rest) m := by
  rw [Completes, runBlock_done hstmt]
  exact ⟨_, x, [], congrArg (fun m' => (_, Instance.mk c m')) hm, h⟩

/-- A statement that gives up leaves the state in which it is run. -/
theorem raises {e : Failure} (x : σ) (hstmt : runStmt c.methodSetting stmt m = .error e m)
    (h : R (.error e) x) (hm : m = { machine x with locals := m.locals }) :
    Completes c machine R (stmt :: rest) m := by
  rw [Completes, runBlock_error hstmt]
  exact ⟨_, x, m.locals, congrArg (fun m' => (_, Instance.mk c m')) hm, h⟩

theorem insists (hs : Ordinary c.methodSetting) {P : Prop} [Decidable P] {message : String} (x : σ)
    (hself : Assoc.get? "self" m.locals = some .contract)
    (hfree : Assoc.get? "require" m.attributes = none)
    (h : Yields c.methodSetting m condition (.bool (decide P)))
    (hfail : ¬P → R (.error (.raised message)) x) (hm : m = { machine x with locals := m.locals })
    (hrest : P → Completes c machine R rest m) :
    Completes c machine R (Simulation.insists condition message :: rest) m := by
  have hguard := runStmt_insists hs message hself hfree h
  split_ifs at hguard with hP
  · exact next hguard (hrest hP)
  · exact raises x hguard (hfail hP) hm

theorem refuses {P : Prop} [Decidable P] {message : String} (x : σ)
    (h : Yields c.methodSetting m condition (.bool (decide P)))
    (hfail : P → R (.error (.raised message)) x) (hm : m = { machine x with locals := m.locals })
    (hrest : ¬P → Completes c machine R rest m) :
    Completes c machine R (Simulation.refuses condition message :: rest) m := by
  have hguard := runStmt_refuses message h
  split_ifs at hguard with hP
  · exact raises x hguard (hfail hP) hm
  · exact next hguard (hrest hP)

/-- A block that is run if a condition holds stands in front of what follows it. -/
theorem whenever {P : Prop} [Decidable P] {body : List Stmt}
    (h : Yields c.methodSetting m condition (.bool (decide P)))
    (hbody : P → Completes c machine R (body ++ rest) m)
    (hrest : ¬P → Completes c machine R rest m) :
    Completes c machine R (Simulation.whenever condition body :: rest) m := by
  have hguard := runStmt_whenever body h
  by_cases hP : P
  · have hrun : runBlock c.methodSetting (Simulation.whenever condition body :: rest) m =
        runBlock c.methodSetting (body ++ rest) m := by
      rw [if_pos hP] at hguard
      rw [runBlock_append]
      cases hblock : runBlock c.methodSetting body m with
      | error e m' => exact (runBlock_error (hguard.trans hblock)).trans (bind_of_error hblock).symm
      | ok flow m' =>
        refine (bind_of_ok (hguard.trans hblock)).trans (.trans ?_ (bind_of_ok hblock).symm)
        cases flow <;> rfl
    rw [Completes, hrun]
    exact hbody hP
  · rw [if_neg hP] at hguard
    exact next hguard (hrest hP)

end Completes

end Outcomes

/-! ## Conduct -/

/-- The instance after calls, each with its arguments.  A call that fails does not end them. -/
def Instance.after (i : Instance) (calls : List (String × List Value)) : Instance :=
  calls.foldl (fun i c => (i.call c.1 c.2).2) i

/-- All attributes of two instances have the same values. -/
def SameAttributes (i j : Instance) : Prop := ∀ x, j.attribute? x = i.attribute? x

/-- How the instances of a class behave: the machine that they have in a state, the calls that they
get, and the answers to a call in a state with the states that it may leave. -/
structure Conduct (σ κ : Type) where
  cls : Class
  machine : σ → Machine
  request : κ → String × List Value
  Allows : σ → κ → Except Failure Value → σ → Prop
  answers : ∀ x locals q, Ends cls machine (Allows x q)
    (Instance.call ⟨cls, { machine x with locals := locals }⟩ (request q).1 (request q).2)

namespace Conduct

variable {σ κ : Type} (c : Conduct σ κ)

/-- An instance in a state, with the locals that the last call has left. -/
def holder (x : σ) (locals : Assoc String Datum) : Instance :=
  ⟨c.cls, { c.machine x with locals := locals }⟩

theorem sameAttributes_holder (x : σ) (locals locals' : Assoc String Datum) :
    SameAttributes (c.holder x locals) (c.holder x locals') := by
  intro field
  simp only [Instance.attribute?, holder, value_locals]

/-- What every call keeps holds of the state of an instance after calls. -/
theorem after_holder {P : σ → Prop} (hstep : ∀ x q answer y, c.Allows x q answer y → P x → P y)
    {x : σ} (h : P x) (locals : Assoc String Datum) (calls : List κ) :
    ∃ y left, P y ∧ (c.holder x locals).after (calls.map c.request) = c.holder y left := by
  induction calls generalizing x locals with
  | nil => exact ⟨x, locals, h, rfl⟩
  | cons q rest ih =>
    obtain ⟨answer, y, left, hcall, hallows⟩ := c.answers x locals q
    obtain ⟨y', left', hy', hrest⟩ := ih (hstep x q answer y hallows h) left
    refine ⟨y', left', hy', Eq.trans ?_ hrest⟩
    exact congrArg (fun r => Instance.after r.2 (rest.map c.request)) hcall

/-- A call that fails leaves all attributes of the instance as they are, if it leaves the state. -/
theorem sameAttributes_of_error {x : σ} {q : κ} {e : Failure}
    (hkeeps : ∀ y, c.Allows x q (.error e) y → y = x) {locals : Assoc String Datum}
    (h : ((c.holder x locals).call (c.request q).1 (c.request q).2).1 = .error e) :
    SameAttributes (c.holder x locals)
      ((c.holder x locals).call (c.request q).1 (c.request q).2).2 := by
  obtain ⟨answer, y, left, hcall, hallows⟩ := c.answers x locals q
  obtain rfl : answer = .error e := (congrArg Prod.fst hcall).symm.trans h
  have hleft := congrArg Prod.snd hcall
  rw [hkeeps y hallows] at hleft
  exact hleft ▸ c.sameAttributes_holder x locals left

end Conduct

end ContractKit.Simulation
