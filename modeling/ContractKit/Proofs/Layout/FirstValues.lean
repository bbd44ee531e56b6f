import ContractKit.Proofs.Layout.Declarations
import Mathlib.Data.List.Forall2

/-!
# First values

An analysis records a first value for a variable whenever it meets an assignment to it, in
whatever method that stands.  So the value that stays is that of the last assignment in the
source.  It is the constructor's if nothing behind the constructor assigns the variable.

Two contract classes that differ in the bodies of methods have the same members up to these
bodies, and the same source around them.  A variable that their constructor assigns gets the
same first value in both, unless a method that differs stands behind the constructor and
assigns it.
-/

namespace ContractKit.Layout

open Source

/-! ## The last assignment -/

def Landmark.assigned? (x : String) : Landmark → Option Expr
  | .assign y e => if y = x then some e else none
  | _ => none

def lastAssigned? (x : String) : List Landmark → Option Expr
  | [] => none
  | m :: rest => (lastAssigned? x rest).or (m.assigned? x)

/-- The first value that an assigned expression suggests. -/
def firstValue? (e : Expr) : Option Value := (assignedValue e).toOption.map Prod.fst

theorem firstValue?_int (n : Nat) : firstValue? (.literal (.int n)) = some (.int n) := rfl

variable {x : String}

@[simp] theorem lastAssigned?_append (ms ms' : List Landmark) :
    lastAssigned? x (ms ++ ms') = (lastAssigned? x ms').or (lastAssigned? x ms) := by
  induction ms with
  | nil => simp [lastAssigned?]
  | cons m rest ih => simp [lastAssigned?, ih, Option.or_assoc]

theorem mem_of_lastAssigned? {e : Expr} {landmarks : List Landmark}
    (h : lastAssigned? x landmarks = some e) : .assign x e ∈ landmarks := by
  induction landmarks with
  | nil => simp [lastAssigned?] at h
  | cons m rest ih =>
    rcases Option.or_eq_some_iff.mp h with hrest | ⟨-, hfirst⟩
    · exact List.mem_cons_of_mem m (ih hrest)
    · cases m with
      | assign y e' =>
        obtain ⟨rfl, rfl⟩ : y = x ∧ e' = e := by simpa [Landmark.assigned?] using hfirst
        exact List.mem_cons_self
      | contract _ | constructor | function _ _ _ _ | leave =>
        simp [Landmark.assigned?] at hfirst

theorem lastAssigned?_isSome {e : Expr} {landmarks : List Landmark}
    (h : .assign x e ∈ landmarks) : ∃ e', lastAssigned? x landmarks = some e' := by
  obtain ⟨front, back, rfl⟩ := List.append_of_mem h
  have hone : lastAssigned? x (.assign x e :: back) = (lastAssigned? x back).or (some e) := by
    simp [lastAssigned?, Landmark.assigned?]
  rw [lastAssigned?_append, hone]
  cases lastAssigned? x back with
  | none => exact ⟨e, rfl⟩
  | some e' => exact ⟨e', rfl⟩

theorem initialValues_declare (l : Layout) (y : String) :
    (l.declare y).initialValues = l.initialValues := by
  unfold declare
  split <;> rfl

theorem initialValues_assign (l : Layout) (y : String) (v : Value) (t : VarType) :
    (l.assign y v t).initialValues = Assoc.set y v l.initialValues := by
  cases t <;> rfl

/-- Every variable that has a slot has a first value. -/
def SlotsRecorded (l : Layout) : Prop :=
  ∀ x, Assoc.has x l.slots = true → Assoc.has x l.initialValues = true

theorem has_declare_of_ne {y : String} (h : x ≠ y) (l : Layout) :
    Assoc.has x (l.declare y).slots = Assoc.has x l.slots := by
  unfold declare
  split
  · rfl
  · simp [Assoc.has, Assoc.get?_set_of_ne h]

end ContractKit.Layout

namespace ContractKit.Analyzer

open Source Layout

variable {x : String} {a : Analyzer}

/-- An assignment that does not end the analysis has a value. -/
theorem assignedValue_of_step {y : String} {e : Expr} (hend : (a.step (.assign y e)).2 = none) :
    ∃ value type, assignedValue e = .ok (value, type) := by
  change (a.assign y e).2 = none at hend
  cases hvalue : assignedValue e with
  | error fault => simp [Analyzer.assign, hvalue] at hend
  | ok assigned => exact ⟨assigned.1, assigned.2, rfl⟩

/-- A landmark that does not end the analysis records what it assigns, and nothing else. -/
theorem recorded_step {m : Landmark} (hend : (a.step m).2 = none) :
    Assoc.get? x (a.step m).1.layout.initialValues =
      match m.assigned? x with
      | some e => firstValue? e
      | none => Assoc.get? x a.layout.initialValues := by
  cases m with
  | contract _ | constructor | function _ _ _ _ | leave => rfl
  | assign y e =>
    obtain ⟨value, type, hvalue⟩ := assignedValue_of_step hend
    change Assoc.get? x (a.assign y e).1.layout.initialValues = _
    rw [layout_assign]
    simp only [hvalue, initialValues_assign, initialValues_declare, Landmark.assigned?]
    by_cases hy : y = x
    · subst hy
      simp [firstValue?, hvalue, Except.toOption]
    · simp [hy, Assoc.get?_set_of_ne (Ne.symm hy)]

/-- A walk to the end leaves the value of the last assignment. -/
theorem recorded_walk {landmarks : List Landmark} (hend : (a.walk landmarks).2 = none) :
    Assoc.get? x (a.walk landmarks).1.layout.initialValues =
      match lastAssigned? x landmarks with
      | some e => firstValue? e
      | none => Assoc.get? x a.layout.initialValues := by
  induction landmarks generalizing a with
  | nil => rfl
  | cons m rest ih =>
    simp only [walk] at hend ⊢
    split at hend
    case h_1 a' ha' =>
      have hfirst := recorded_step (x := x) (congrArg Prod.snd ha')
      rw [ha'] at hfirst
      rw [ih hend, lastAssigned?, hfirst]
      cases lastAssigned? x rest <;> rfl
    case h_2 => simp at hend

/-- A landmark that does not end the analysis gives no slot without a first value. -/
theorem slotsRecorded_step {m : Landmark} (hend : (a.step m).2 = none)
    (h : a.layout.SlotsRecorded) : (a.step m).1.layout.SlotsRecorded := by
  intro x hslot
  have hrecorded := recorded_step (x := x) hend
  cases m with
  | contract _ | constructor | function _ _ _ _ | leave => exact h x hslot
  | assign y e =>
    by_cases hy : y = x
    · obtain ⟨value, type, hvalue⟩ := assignedValue_of_step hend
      simp only [Landmark.assigned?, if_pos hy] at hrecorded
      simp [Assoc.has, hrecorded, firstValue?, hvalue, Except.toOption]
    · rw [layout_step_assign, has_declare_of_ne (Ne.symm hy)] at hslot
      simp only [Landmark.assigned?, if_neg hy] at hrecorded
      rw [Assoc.has, hrecorded]
      exact h x hslot

/-- Every variable of a source has a first value. -/
theorem slotsRecorded_analyze {a' : Analyzer} {statements : List Stmt}
    (h : ({} : Analyzer).analyze statements = (a', none)) : a'.layout.SlotsRecorded := by
  have hwalk := walk_to_end_keeps (fun m a => slotsRecorded_step) (congrArg Prod.snd h)
    (fun x hslot => by simp [Assoc.has, Assoc.get?] at hslot)
  rwa [← analyze, h] at hwalk

/-- What is recorded for a variable of a source is the value of the last assignment to it. -/
theorem recorded_analyze {a' : Analyzer} {statements : List Stmt}
    (h : ({} : Analyzer).analyze statements = (a', none)) :
    Assoc.get? x a'.layout.initialValues =
      (lastAssigned? x (outline statements)).bind firstValue? := by
  have hwalk := recorded_walk (x := x) (congrArg Prod.snd h)
  rw [← analyze, h] at hwalk
  rw [hwalk]
  cases lastAssigned? x (outline statements) <;> rfl

end ContractKit.Analyzer

namespace ContractKit.Layout

open Source

/-! ## Places of classes -/

/-- A statement without one of its blocks. -/
inductive Enclosure where
  | classBody (name : String) (bases : List Expr) (keywords : List (Keyword Expr))
      (decorators : List Expr)
  | functionBody (isAsync : Bool) (name : String) (params : List (Parameter Expr))
      (decorators : List Expr) (returns : Option Expr)
  | forBody (isAsync : Bool) (target iterable : Expr) (orelse : List Stmt)
  | forElse (isAsync : Bool) (target iterable : Expr) (body : List Stmt)
  | whileBody (test : Expr) (orelse : List Stmt)
  | whileElse (test : Expr) (body : List Stmt)
  | ifBody (test : Expr) (orelse : List Stmt)
  | ifElse (test : Expr) (body : List Stmt)
  | withBody (isAsync : Bool) (items : List (Expr × Option Expr))
  | caseBody (subject : Expr) (before : List (MatchCase Stmt)) (pattern : Pattern)
      (guard : Option Expr) (after : List (MatchCase Stmt))
  | tryBody (isGroup : Bool) (handlers : List (Handler Stmt)) (orelse final : List Stmt)
  | handlerBody (isGroup : Bool) (body : List Stmt) (before : List (Handler Stmt))
      (type : Option Expr) (name : Option String) (after : List (Handler Stmt))
      (orelse final : List Stmt)
  | tryElse (isGroup : Bool) (body : List Stmt) (handlers : List (Handler Stmt))
      (final : List Stmt)
  | tryFinal (isGroup : Bool) (body : List Stmt) (handlers : List (Handler Stmt))
      (orelse : List Stmt)

/-- The statement with its block put in. -/
def Enclosure.around (block : List Stmt) : Enclosure → Stmt
  | classBody name bases keywords decorators => .classDef name bases keywords block decorators
  | functionBody isAsync name params decorators returns =>
    .functionDef isAsync name params block decorators returns
  | forBody isAsync target iterable orelse => .forLoop isAsync target iterable block orelse
  | forElse isAsync target iterable body => .forLoop isAsync target iterable body block
  | whileBody test orelse => .whileLoop test block orelse
  | whileElse test body => .whileLoop test body block
  | ifBody test orelse => .ifThen test block orelse
  | ifElse test body => .ifThen test body block
  | withBody isAsync items => .withItems isAsync items block
  | caseBody subject before pattern guard after =>
    .matchOn subject (before ++ ⟨pattern, guard, block⟩ :: after)
  | tryBody isGroup handlers orelse final => .tryBlock isGroup block handlers orelse final
  | handlerBody isGroup body before type name after orelse final =>
    .tryBlock isGroup body (before ++ ⟨type, name, block⟩ :: after) orelse final
  | tryElse isGroup body handlers final => .tryBlock isGroup body handlers block final
  | tryFinal isGroup body handlers orelse => .tryBlock isGroup body handlers orelse block

/-- A source without the members of one of its contract classes. -/
structure ClassPlace where
  /-- The statements that the class stands in, outermost first, each with what stands before
  and after it. -/
  levels : List (List Stmt × Enclosure × List Stmt) := []
  /-- What stands before and after the class. -/
  front : List Stmt := []
  back : List Stmt := []
  name : String
  bases : List Expr
  keywords : List (Keyword Expr) := []
  decorators : List Expr := []
  isContract : bases.any (isName contractBase) = true

def ClassPlace.fill (p : ClassPlace) (members : List Stmt) : List Stmt :=
  p.levels.foldr (fun (front, enclosure, back) block => front ++ enclosure.around block :: back)
    (p.front ++ .classDef p.name p.bases p.keywords members p.decorators :: p.back)

theorem outlineCases_append (cs cs' : List (MatchCase Stmt)) :
    outlineCases (cs ++ cs') = outlineCases cs ++ outlineCases cs' := by
  induction cs with
  | nil => simp [outlineCases]
  | cons c rest ih => simp [outlineCases, ih]

theorem outlineHandlers_append (hs hs' : List (Handler Stmt)) :
    outlineHandlers (hs ++ hs') = outlineHandlers hs ++ outlineHandlers hs' := by
  induction hs with
  | nil => simp [outlineHandlers]
  | cons h rest ih => simp [outlineHandlers, ih]

variable {x : String}

/-- Of a block only the last assignment counts for the statement that it stands in. -/
theorem Enclosure.lastAssigned?_around {block block' : List Stmt} (enclosure : Enclosure)
    (h : lastAssigned? x (outline block) = lastAssigned? x (outline block')) :
    lastAssigned? x (outlineOf (enclosure.around block)) =
      lastAssigned? x (outlineOf (enclosure.around block')) := by
  cases enclosure with
  | classBody name bases keywords decorators =>
    simp only [around, outlineOf]
    split <;> simp [lastAssigned?, h]
  | functionBody isAsync name params decorators returns =>
    cases isAsync with
    | true => simpa [around, outlineOf] using h
    | false =>
      simp only [around, outlineOf]
      split
      · simp [lastAssigned?, h, Landmark.assigned?]
      · split <;> simp [lastAssigned?, h, Landmark.assigned?]
  | caseBody | handlerBody =>
    simp [around, outlineOf, outlineCases_append, outlineHandlers_append, outlineCases,
      outlineHandlers, h]
  | _ => simp [around, outlineOf, h]

theorem lastAssigned?_outline_between {s s' : Stmt} (front back : List Stmt)
    (h : lastAssigned? x (outlineOf s) = lastAssigned? x (outlineOf s')) :
    lastAssigned? x (outline (front ++ s :: back)) =
      lastAssigned? x (outline (front ++ s' :: back)) := by
  simp [outline_append, outline, h]

/-- Of the members of a class only the last assignment counts for the source around it. -/
theorem ClassPlace.lastAssigned?_fill (p : ClassPlace) {members members' : List Stmt}
    (h : lastAssigned? x (outline members) = lastAssigned? x (outline members')) :
    lastAssigned? x (outline (p.fill members)) = lastAssigned? x (outline (p.fill members')) := by
  unfold fill
  induction p.levels with
  | nil =>
    refine lastAssigned?_outline_between _ _ ?_
    exact (Enclosure.classBody p.name p.bases p.keywords p.decorators).lastAssigned?_around h
  | cons level rest ih =>
    exact lastAssigned?_outline_between _ _ (level.2.1.lastAssigned?_around ih)

/-! ## Members of classes -/

/-- A statement that assigns a variable where the analysis sees it. -/
def Assigns (x : String) (s : Stmt) : Prop := ∃ e, .assign x e ∈ outlineOf s

def IsConstructor : Stmt → Prop
  | .functionDef _ name .. => name = constructorName
  | _ => False

/-- Members of a class that are the same, or the same method with different bodies. -/
inductive SameSignature : Stmt → Stmt → Prop where
  | same (s : Stmt) : SameSignature s s
  | method {name : String} (isAsync : Bool) (params : List (Parameter Expr))
      (body body' : List Stmt) (decorators : List Expr) (returns : Option Expr)
      (h : name ≠ constructorName) :
      SameSignature (.functionDef isAsync name params body decorators returns)
        (.functionDef isAsync name params body' decorators returns)

/-- A constructor stands in both classes. -/
theorem SameSignature.eq_of_constructor {s s' : Stmt} (h : SameSignature s s')
    (hs : IsConstructor s) : s' = s := by
  cases h with
  | same => rfl
  | method _ _ _ _ _ _ hname => exact (hname hs).elim

/-- So classes that differ in bodies of methods have the same constructor, with as many
members before it. -/
theorem exists_split_of_sameSignature {ctor : Stmt} (hctor : IsConstructor ctor)
    {before after members' : List Stmt}
    (h : List.Forall₂ SameSignature (before ++ ctor :: after) members') :
    ∃ before' after', members' = before' ++ ctor :: after' ∧
      List.Forall₂ SameSignature before before' ∧ List.Forall₂ SameSignature after after' := by
  induction before generalizing members' with
  | nil =>
    obtain ⟨s', after', hs, hafter, rfl⟩ := List.forall₂_cons_left_iff.mp h
    exact ⟨[], after', by rw [hs.eq_of_constructor hctor]; rfl, .nil, hafter⟩
  | cons s rest ih =>
    obtain ⟨s', members'', hs, hrest, rfl⟩ := List.forall₂_cons_left_iff.mp h
    obtain ⟨before', after', rfl, hbefore, hafter⟩ := ih hrest
    exact ⟨s' :: before', after', rfl, .cons hs hbefore, hafter⟩

/-- Members that are the same, or do not assign a variable. -/
def SameOrSilent (x : String) (s s' : Stmt) : Prop := s = s' ∨ ¬Assigns x s ∧ ¬Assigns x s'

theorem lastAssigned?_of_not_assigns {s : Stmt} (h : ¬Assigns x s) :
    lastAssigned? x (outlineOf s) = none := by
  cases hlast : lastAssigned? x (outlineOf s) with
  | none => rfl
  | some e => exact (h ⟨e, mem_of_lastAssigned? hlast⟩).elim

theorem lastAssigned?_of_sameOrSilent {members members' : List Stmt}
    (h : List.Forall₂ (SameOrSilent x) members members') :
    lastAssigned? x (outline members) = lastAssigned? x (outline members') := by
  induction h with
  | nil => rfl
  | cons hfirst _ ih =>
    rcases hfirst with rfl | ⟨hs, hs'⟩
    · simp [outline, ih]
    · simp [outline, ih, lastAssigned?_of_not_assigns hs, lastAssigned?_of_not_assigns hs']

/-- What stands before a constructor that assigns the variable does not matter. -/
theorem lastAssigned?_members {ctor : Stmt} (hassigns : Assigns x ctor)
    {after after' : List Stmt} (h : List.Forall₂ (SameOrSilent x) after after')
    (before before' : List Stmt) :
    lastAssigned? x (outline (before ++ ctor :: after)) =
      lastAssigned? x (outline (before' ++ ctor :: after')) := by
  obtain ⟨e, he⟩ := hassigns
  obtain ⟨e', hlast⟩ := lastAssigned?_isSome he
  simp [outline_append, outline, hlast, lastAssigned?_of_sameOrSilent h]

end ContractKit.Layout
