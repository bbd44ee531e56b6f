import ContractKit.Proofs.Simulation.Books
import Mathlib

/-!
# Lists, marks and loops

Some contracts also keep a list of names, to which names are appended and in which they are looked
for, and a table of marks, in which those are marked that have done something.  A loop over a list
goes through its items in order.
-/

namespace ContractKit.Simulation

open Source

/-! ## Forms -/

def truth (b : Bool) : Expr := .literal (.bool b)

def negative (n : Nat) : Expr := .unary .minus (number n)

def negated (e : Expr) : Expr := .unary .not e

def appends (list e : Expr) : Stmt := .expression (.call (.attribute list "append") [e] [])

/-- Runs a block for each item of a list. -/
def loops (x : String) (list : Expr) (body : List Stmt) : Stmt :=
  .forLoop false (.name x) list body []

variable {s : Setting} {m : Machine}

namespace Yields

theorem truth (b : Bool) : Yields s m (truth b) (.bool b) := rfl

theorem negative (n : Nat) : Yields s m (negative n) (.int (-n)) := rfl

theorem negated {e : Expr} {d : Datum} {P : Prop} [Decidable P] (h : Yields s m e d)
    (htrue : m.isTrue d = decide P) : Yields s m (negated e) (.bool (decide ¬P)) := by
  have hnot : negateOrNot .not d m = .ok (.bool !(m.isTrue d)) m := rfl
  rw [htrue, ← decide_not] at hnot
  exact (bind_of_ok h).trans hnot

end Yields

theorem runStmt_appends {list e : Expr} {cell : Nat} {d : Datum}
    (hlist : Yields s m list (.list cell)) (h : Yields s m e d)
    (happly : s.apply (.appendTo cell) [d] m =
      .ok .none (m.setCell cell (.list (m.items cell ++ [d])))) :
    runStmt s (appends list e) m =
      .ok .next (m.setCell cell (.list (m.items cell ++ [d]))) := by
  have hfunction : evaluate s (.attribute list "append") m = .ok (.appendTo cell) m :=
    bind_of_ok hlist
  have hargs := Yields.all (.cons h .nil)
  exact bind_of_ok ((bind_of_ok hfunction).trans ((bind_of_ok hargs).trans happly))

/-! ## Lists of names -/

section Names

variable {cell : Nat} {names : List String}

theorem any_equal_text (m : Machine) (names : List String) (x : String) :
    ((names.map Datum.text).any fun d => m.equal d (.text x)) = decide (x ∈ names) := by
  have hequal : ∀ y, m.equal (.text y) (.text x) = (y == x) := fun y => sameKey_text y x
  rw [Bool.eq_iff_iff, decide_eq_true_iff]
  simp [hequal]

theorem relate_isIn (hitems : m.items cell = names.map Datum.text) (x : String) :
    relate .isIn (.text x) (.list cell) m = .ok (decide (x ∈ names)) m := by
  have hany := any_equal_text m names x
  rw [← hitems] at hany
  exact congrArg (EStateM.Result.ok · m) hany

theorem relate_notIn (hitems : m.items cell = names.map Datum.text) (x : String) :
    relate .notIn (.text x) (.list cell) m = .ok (decide (x ∉ names)) m := by
  rw [decide_not]
  exact bind_of_ok (relate_isIn hitems x)

theorem isTrue_names (hitems : m.items cell = names.map Datum.text) :
    m.isTrue (.list cell) = decide (names ≠ []) := by
  rw [Machine.isTrue, hitems]
  cases names <;> rfl

end Names

/-! ## Marks -/

def marksOf (names : List String) : List (Datum × Datum) :=
  rowsOf (names.map fun x => (x, .bool true))

theorem findKey_marksOf (k : String) (names : List String) :
    (findKey (.text k) (marksOf names)).getD (.bool false) = .bool (decide (k ∈ names)) := by
  rw [marksOf, rowsOf]
  induction names with
  | nil => rfl
  | cons x rest ih =>
    simp only [List.map_cons, findKey, sameKey_text]
    by_cases h : x = k
    · simp [h]
    · simpa [h, Ne.symm h] using ih

theorem setKey_marksOf {k : String} {names : List String} (h : k ∉ names) :
    setKey (.text k) (.bool true) (marksOf names) = marksOf (names ++ [k]) := by
  have hnew : k ∉ Assoc.keys (names.map fun x => (x, Datum.bool true)) := by
    simpa [Assoc.keys, Function.comp_def] using h
  rw [marksOf, setKey_rowsOf, Assoc.set_of_not_mem_keys hnew, marksOf, List.map_append]
  rfl

/-! ## Loops -/

section Loops

variable {α : Type} {xs : List α} {f : α → Datum} {P : List α → Machine → Prop}

/-- Where each step takes what holds of the items before it to what holds of them and its own
item, the run of all steps ends with what holds of all items. -/
theorem iterate_invariant {step : Datum → Sim Flow}
    (hstep : ∀ seen a rest m, xs = seen ++ a :: rest → P seen m →
      ∃ m', step (f a) m = .ok .next m' ∧ P (seen ++ [a]) m')
    {seen rest : List α} (hsplit : xs = seen ++ rest) (h : P seen m) :
    ∃ m', iterate step (rest.map f) m = .ok .next m' ∧ P xs m' := by
  induction rest generalizing seen m with
  | nil =>
    rw [List.append_nil] at hsplit
    exact ⟨m, rfl, hsplit ▸ h⟩
  | cons a rest ih =>
    obtain ⟨m₁, hrun, hseen⟩ := hstep seen a rest m hsplit h
    obtain ⟨m₂, hrest, hall⟩ := ih (by rw [hsplit, List.append_assoc]; rfl) hseen
    exact ⟨m₂, (bind_of_ok hrun).trans hrest, hall⟩

theorem runStmt_loops {x : String} {list : Expr} {body : List Stmt} {cell : Nat}
    (hlist : Yields s m list (.list cell)) (hitems : m.items cell = xs.map f)
    (hstep : ∀ seen a rest m, xs = seen ++ a :: rest → P seen m →
      ∃ m', runBlock s body { m with locals := Assoc.set x (f a) m.locals } = .ok .next m' ∧
        P (seen ++ [a]) m')
    (h : P [] m) : ∃ m', runStmt s (loops x list body) m = .ok .next m' ∧ P xs m' := by
  have helements : elements (.list cell) m = .ok (xs.map f) m :=
    congrArg (EStateM.Result.ok · m) hitems
  have hloop : ∃ m', iterate (fun d => do assign s d (.name x); runBlock s body) (xs.map f) m =
      .ok .next m' ∧ P xs m' := iterate_invariant hstep rfl h
  obtain ⟨m', hrun, hall⟩ := hloop
  exact ⟨m', (bind_of_ok hlist).trans ((bind_of_ok helements).trans (bind_of_ok hrun)), hall⟩

end Loops

/-! ## What is shown -/

/-- Names as an instance shows them in a list. -/
def namesShown (names : List String) : List Value := names.map fun x => .text (Text.pointsOf x)

/-- Marked names as an instance shows them. -/
def marksShown (names : List String) : List (Value × Value) :=
  names.map fun x => (.text (Text.pointsOf x), .bool true)

section Shown

variable {cell : Nat} {names : List String}

theorem value_names (hcells : m.cells ≠ []) (hitems : m.items cell = names.map Datum.text) :
    m.value (.list cell) = .list (namesShown names) := by
  obtain ⟨depth, hdepth⟩ := exists_depth hcells
  rw [Machine.value, hdepth, Machine.valueAt, hitems, List.map_map]
  rfl

theorem value_marks (hcells : m.cells ≠ []) (hrows : m.entries cell = marksOf names) :
    m.value (.dict cell) = .dict (marksShown names) := by
  obtain ⟨depth, hdepth⟩ := exists_depth hcells
  rw [Machine.value, hdepth, Machine.valueAt, hrows, marksOf, rowsOf, List.map_map, List.map_map]
  rfl

theorem pointsOf_injective : Function.Injective Text.pointsOf :=
  Function.LeftInverse.injective toString_pointsOf

theorem eq_text_of_valueAt {depth : Nat} {d : Datum} {x : String}
    (h : m.valueAt depth d = .text (Text.pointsOf x)) : d = .text x := by
  cases depth with
  | zero => cases h
  | succ depth =>
    cases d with
    | text y => rw [pointsOf_injective (Value.text.inj h)]
    | _ => simp [Machine.valueAt] at h

theorem eq_int_of_valueAt {depth : Nat} {d : Datum} {n : Int}
    (h : m.valueAt depth d = .int n) : d = .int n := by
  cases depth with
  | zero => cases h
  | succ depth =>
    cases d with
    | int k => rw [Value.int.inj h]
    | _ => simp [Machine.valueAt] at h

theorem eq_map_of_map_eq {α β γ : Type} {f : α → γ} {g : β → γ} {back : β → α}
    (h : ∀ a b, f a = g b → a = back b) {as : List α} {bs : List β}
    (heq : as.map f = bs.map g) : as = bs.map back := by
  induction as generalizing bs with
  | nil =>
    cases bs with
    | nil => rfl
    | cons b bs => cases heq
  | cons a as ih =>
    cases bs with
    | nil => cases heq
    | cons b bs =>
      rw [List.map_cons, List.map_cons, List.cons.injEq] at heq
      rw [List.map_cons, ← h a b heq.1, ← ih heq.2]

theorem items_of_value {d : Datum} (h : m.value d = .list (namesShown names)) :
    ∃ cell, d = .list cell ∧ m.items cell = names.map Datum.text := by
  cases d with
  | list cell =>
    have hitems := Value.list.inj h
    exact ⟨cell, rfl, eq_map_of_map_eq (fun _ _ => eq_text_of_valueAt) hitems⟩
  | _ => simp [Machine.value, Machine.valueAt] at h

/-- What is shown as a table of balances is the table of these balances. -/
theorem rows_of_value {d : Datum} {b : Book} (h : m.value d = .dict b.shown) :
    ∃ cell, d = .dict cell ∧ m.entries cell = b.rows := by
  cases d with
  | dict cell =>
    have hentries := Value.dict.inj h
    refine ⟨cell, rfl, eq_map_of_map_eq (fun e row heq => ?_) hentries⟩
    obtain ⟨hkey, hvalue⟩ := Prod.mk.inj heq
    exact Prod.ext (eq_text_of_valueAt hkey) (eq_int_of_valueAt hvalue)
  | _ => simp [Machine.value, Machine.valueAt] at h

end Shown

end ContractKit.Simulation
