import ContractKit.Proofs.Simulation.Rules

/-!
# Statements that rebind attributes

An attribute of a contract is given a new value by an assignment, alone or in a chain, by an
assignment with an annotation, or by one that combines the old value with another.  All of them
come to one thing: a value is computed, and then some attributes have it.
-/

namespace ContractKit.Simulation

open Source

/-- A statement that gives attributes of the contract a value. -/
inductive Rebinding where
  /-- `self.x = … = e`: an attribute, and those that follow it in the chain. -/
  | assign (x : String) (more : List String) (e : Expr)
  /-- `self.x: type = e` -/
  | annotated (x : String) (type e : Expr)
  /-- `self.x op= e` -/
  | augmented (x : String) (op : BinaryOp) (e : Expr)

namespace Rebinding

/-- The statement itself. -/
def stmt : Rebinding → Stmt
  | .assign x more e => .assign ((x :: more).map field) e
  | .annotated x type e => .annAssign (field x) type (some e)
  | .augmented x op e => updates x op e

/-- The attributes that get the value. -/
def targets : Rebinding → List String
  | .assign x more _ => x :: more
  | .annotated x _ _ | .augmented x _ _ => [x]

def value : Rebinding → Expr
  | .assign _ _ e | .annotated _ _ e => e
  | .augmented x op e => .binary (field x) op e

/-- Whether this is an assignment to a single attribute, without an annotation. -/
def isPlain : Rebinding → Bool
  | .assign _ [] _ => true
  | _ => false

end Rebinding

/-- The machine on which some attributes have been given a value. -/
def Machine.put (m : Machine) (xs : List String) (d : Datum) : Machine :=
  { m with attributes := xs.foldl (fun t x => Assoc.set x d t) m.attributes }

variable {s : Setting} {m : Machine}

theorem get?_put (m : Machine) (xs : List String) (d : Datum) (y : String) :
    Assoc.get? y (m.put xs d).attributes =
      if y ∈ xs then some d else Assoc.get? y m.attributes := by
  induction xs generalizing m with
  | nil => simp [Machine.put]
  | cons x rest ih =>
    have hrest : (m.put (x :: rest) d).attributes =
        (Machine.put { m with attributes := Assoc.set x d m.attributes } rest d).attributes := rfl
    rw [hrest, ih]
    by_cases hy : y ∈ rest
    · simp [hy]
    · by_cases hyx : y = x
      · simp [hyx, Assoc.get?_set_self]
      · simp [hy, hyx, Assoc.get?_set_of_ne hyx]

/-! ## What the statements do -/

theorem assign_field (hself : Assoc.get? "self" m.locals = some .contract) (x : String)
    (d : Datum) : assign s d (field x) m = .ok () (m.put [x] d) := by
  have htarget : evaluate s (.name "self") m = .ok .contract m := Yields.name hself
  rw [field, assign, bind_of_ok htarget]
  rfl

/-- Targets are given the value one after the other; none of them is a local name. -/
theorem assignAll_fields (hself : Assoc.get? "self" m.locals = some .contract) (xs : List String)
    (d : Datum) : assignAll s d (xs.map field) m = .ok () (m.put xs d) := by
  induction xs generalizing m with
  | nil => rfl
  | cons x rest ih =>
    rw [List.map_cons, assignAll, bind_of_ok (assign_field hself x d)]
    exact ih hself

variable {x : String} {e : Expr} {d : Datum}

theorem runStmt_assign (hself : Assoc.get? "self" m.locals = some .contract) (more : List String)
    (h : Yields s m e d) :
    runStmt s (Rebinding.assign x more e).stmt m = .ok .next (m.put (x :: more) d) :=
  (bind_of_ok h).trans (bind_of_ok (assignAll_fields hself (x :: more) d))

theorem runStmt_annotated (hself : Assoc.get? "self" m.locals = some .contract) (type : Expr)
    (h : Yields s m e d) :
    runStmt s (Rebinding.annotated x type e).stmt m = .ok .next (m.put [x] d) :=
  (bind_of_ok h).trans (bind_of_ok (assign_field hself x d))

/-- Numbers are combined like operands; only a list would be added to in its place. -/
theorem update_of_numeric {op : BinaryOp} {old : Datum} {k : Numeric}
    (h : old.numeric? = some k) (d : Datum) : update op old d = combine op old d := by
  cases old with
  | list cell => simp [Datum.numeric?] at h
  | _ => cases op <;> rfl

theorem runStmt_augmented {op : BinaryOp} {old new : Datum} {k : Numeric}
    (hself : Assoc.get? "self" m.locals = some .contract)
    (hold : Assoc.get? x m.attributes = some old) (hnumeric : old.numeric? = some k)
    (h : Yields s m e d) (hnew : combine op old d m = .ok new m) :
    runStmt s (Rebinding.augmented x op e).stmt m = .ok .next (m.put [x] new) :=
  runStmt_updates hself hold h (by rw [update_of_numeric hnumeric, hnew])

end ContractKit.Simulation
