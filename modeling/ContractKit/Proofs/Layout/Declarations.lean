import ContractKit.Proofs.Layout.Slots
import Mathlib.Algebra.Group.Nat.Defs

/-!
# Variables that a constructor declares

A contract declares a state variable by assigning what `self.state_var` makes of its name
and first value to the attribute of that name.  The analysis looks into no call.  It gives
the variable a slot, and the value it records is zero whatever the declared one is.
-/

namespace ContractKit.Layout

open Source

/-! ## Sources that declare variables -/

/-- The call that declares a variable of a name with a first value. -/
def declaringCall (d : String × Nat) : Expr :=
  .call (.attribute (.name "self") "state_var")
    [.literal (.text (Text.pointsOf d.1)), .literal (.int d.2)] []

/-- The statement that declares a variable. -/
def declaration (d : String × Nat) : Stmt :=
  .assign [.attribute (.name "self") d.1] (declaringCall d)

def Landmark.isAssignment : Landmark → Bool
  | .assign .. => true
  | _ => false

/-- A source in which a contract class has a constructor that declares variables.  Nothing
else in it assigns to an attribute of `self`. -/
structure DeclaringSource where
  /-- What stands before and after the class. -/
  front : List Stmt := []
  back : List Stmt := []
  name : String
  bases : List Expr
  keywords : List (Keyword Expr) := []
  decorators : List Expr := []
  /-- The members of the class before and after the constructor. -/
  before : List Stmt := []
  after : List Stmt := []
  params : List (Parameter Expr)
  /-- What the constructor does first. -/
  opening : List Stmt := []
  /-- The variables that it then declares, with their first values. -/
  declared : List (String × Nat)
  marks : List Expr := []
  returns : Option Expr := none
  isContract : bases.any (isName contractBase) = true
  distinct : (declared.map Prod.fst).Nodup
  inRange : ∀ d ∈ declared, d.2 < 2 ^ 256
  quiet : ∀ m ∈ outline (front ++ before ++ opening ++ after ++ back), m.isAssignment = false

namespace DeclaringSource

variable (s : DeclaringSource)

def constructorBody : List Stmt := s.opening ++ s.declared.map declaration

def body : List Stmt :=
  s.before ++ .functionDef false constructorName s.params s.constructorBody s.marks s.returns ::
    s.after

def statements : List Stmt :=
  s.front ++ .classDef s.name s.bases s.keywords s.body s.decorators :: s.back

end DeclaringSource

/-! ## Their outline -/

theorem outline_append (xs ys : List Stmt) : outline (xs ++ ys) = outline xs ++ outline ys := by
  induction xs with
  | nil => simp [outline]
  | cons s rest ih => simp [outline, ih]

theorem outline_declarations (ds : List (String × Nat)) :
    outline (ds.map declaration) = ds.map fun d => .assign d.1 (declaringCall d) := by
  induction ds with
  | nil => simp [outline]
  | cons d rest ih => simp [outline, outlineOf, declaration, selfAttribute?, ih]

theorem DeclaringSource.outline_statements (s : DeclaringSource) :
    outline s.statements =
      outline s.front ++ .contract s.name :: (outline s.before ++
        (.constructor :: (outline s.opening ++
          s.declared.map (fun d => .assign d.1 (declaringCall d))) ++ [.leave]) ++
        outline s.after) ++ outline s.back := by
  have hconstructor : (constructorName == constructorName) = true := by decide
  simp only [DeclaringSource.statements, body, constructorBody, outline_append, outline, outlineOf,
    s.isContract, hconstructor, if_true, outline_declarations]
  simp

theorem DeclaringSource.assigned_of_mem {s : DeclaringSource} {m : Landmark}
    (hm : m ∈ outline s.statements) :
    m.isAssignment = false ∨ ∃ d ∈ s.declared, m = .assign d.1 (declaringCall d) := by
  have hquiet := s.quiet m
  simp only [outline_append, List.mem_append] at hquiet
  simp only [outline_statements, List.mem_append, List.mem_cons, List.mem_map,
    List.not_mem_nil, or_false] at hm
  grind [Landmark.isAssignment]

theorem DeclaringSource.mem_outline {s : DeclaringSource} {d : String × Nat}
    (hd : d ∈ s.declared) : .assign d.1 (declaringCall d) ∈ outline s.statements := by
  have hmap := List.mem_map_of_mem (f := fun d => Landmark.assign d.1 (declaringCall d)) hd
  simp only [outline_statements, List.mem_append, List.mem_cons]
  grind

/-! ## What is recorded of them -/

/-- Only zeros are recorded as first values. -/
def AllZero (l : Layout) : Prop := ∀ entry ∈ l.initialValues, entry.2 = .int 0

theorem AllZero.congr {l l' : Layout} (h : l.AllZero)
    (hvalues : l'.initialValues = l.initialValues) : l'.AllZero := by
  rw [AllZero, hvalues]
  exact h

theorem AllZero.declare {l : Layout} (h : l.AllZero) (x : String) : (l.declare x).AllZero := by
  unfold Layout.declare
  split
  · exact h
  · exact h.congr rfl

theorem AllZero.assign {l : Layout} (h : l.AllZero) (x : String) (t : VarType) :
    (l.assign x (.int 0) t).AllZero := by
  have hvalues : (l.assign x (.int 0) t).initialValues = Assoc.set x (.int 0) l.initialValues := by
    cases t <;> rfl
  intro entry hentry
  rw [hvalues] at hentry
  rcases Assoc.mem_set hentry with hold | rfl
  · exact h entry hold
  · rfl

/-- What is not recorded counts as zero, too. -/
theorem AllZero.initialValue {l : Layout} (h : l.AllZero) (x : String) :
    l.toState.initialValue x = .int 0 := by
  cases hget : Assoc.get? x l.initialValues with
  | none => simp [ContractState.initialValue, toState, hget]
  | some v =>
    have hzero : v = .int 0 := h _ (Assoc.mem_of_get? hget)
    simp [ContractState.initialValue, toState, hget, hzero]

theorem has_declare_self (l : Layout) (x : String) : Assoc.has x (l.declare x).slots = true := by
  unfold Layout.declare
  split
  case isTrue hold => exact hold
  case isFalse => simp [Assoc.has]

/-- No variable loses its slot to another. -/
theorem has_declare {l : Layout} {x : String} (h : Assoc.has x l.slots = true) (y : String) :
    Assoc.has x (l.declare y).slots = true := by
  unfold Layout.declare
  split
  case isTrue => exact h
  case isFalse hnew =>
    have hne : x ≠ y := by
      rintro rfl
      exact hnew h
    simpa [Assoc.has, Assoc.get?_set_of_ne hne] using h

end ContractKit.Layout

namespace ContractKit.Analyzer

open Layout

/-- A landmark that assigns nothing, or what a declaration assigns, records no other value
than zero. -/
theorem allZero_step {a : Analyzer} (h : a.layout.AllZero) {m : Landmark}
    (hm : m.isAssignment = false ∨ ∃ d, m = .assign d.1 (declaringCall d)) :
    (a.step m).1.layout.AllZero := by
  cases m with
  | contract name => exact h
  | constructor => exact h.congr rfl
  | function name params body decorators => exact h.congr rfl
  | leave => exact h.congr rfl
  | assign x e =>
    obtain ⟨d, hd⟩ := hm.resolve_left (by simp [Landmark.isAssignment])
    obtain ⟨rfl, rfl⟩ := Landmark.assign.inj hd
    exact (layout_assign a d.1 _) ▸ (h.declare d.1).assign d.1 _

theorem layout_step_assign (a : Analyzer) (x : String) (e : Source.Expr) :
    (a.step (.assign x e)).1.layout.slots = (a.layout.declare x).slots := by
  show (a.assign x e).1.layout.slots = _
  rw [layout_assign]
  split
  · rfl
  · exact (slots_assign _ _ _ _).1

theorem has_step {x : String} {a : Analyzer} (h : Assoc.has x a.layout.slots = true)
    (m : Landmark) : Assoc.has x (a.step m).1.layout.slots = true := by
  cases m with
  | contract name => exact h
  | constructor => exact h
  | function name params body decorators => exact h
  | leave => exact h
  | assign y e =>
    rw [layout_step_assign]
    exact has_declare h y

/-- A walk to the end gives a slot to everything that is assigned on the way. -/
theorem has_of_mem_walk {x : String} {e : Source.Expr} {a : Analyzer} {landmarks : List Landmark}
    (hm : .assign x e ∈ landmarks) (hend : (a.walk landmarks).2 = none) :
    Assoc.has x (a.walk landmarks).1.layout.slots = true := by
  refine walk_attains (P := fun l => Assoc.has x l.slots = true) hm ?_
    (fun m _ h => has_step h m) hend
  intro a
  rw [layout_step_assign]
  exact has_declare_self a.layout x

end ContractKit.Analyzer

namespace ContractKit.Layout.DeclaringSource

variable {s : DeclaringSource} {a : Analyzer}

/-- The analysis of a declaring source records zeros only. -/
theorem allZero (h : ({} : Analyzer).analyze s.statements = (a, none)) : a.layout.AllZero := by
  have hwalk : (({} : Analyzer).analyze s.statements).1.layout.AllZero := by
    refine Analyzer.walk_keeps (fun m hm a ha => Analyzer.allZero_step ha ?_) (by simp [AllZero])
    exact (assigned_of_mem hm).imp_right fun ⟨d, _, hd⟩ => ⟨d, hd⟩
  rwa [h] at hwalk

theorem has_slot (h : ({} : Analyzer).analyze s.statements = (a, none)) {d : String × Nat}
    (hd : d ∈ s.declared) : Assoc.has d.1 a.layout.slots = true := by
  have hwalk := Analyzer.has_of_mem_walk (mem_outline hd) (congrArg Prod.snd h)
  rwa [← Analyzer.analyze, h] at hwalk

end ContractKit.Layout.DeclaringSource
