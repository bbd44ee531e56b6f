import ContractKit.Proofs.Layout.FirstValues
import ContractKit.Source.Read

/-!
# The tables of an analyzer over several sources

An analyzer reads source after source.  A source may have no tree, and an assignment may end
the analysis after its variable has got a slot and before anything else is known of it.  What
holds of the tables whatever was read is therefore stated against the landmarks that the
analyzer came to, and kept by each of them.
-/

namespace ContractKit

open Source Layout

/-! ## What an analyzer came to -/

/-- A landmark that an analyzer came to, and why the analysis ended there if it did. -/
abbrev Layout.Visit := Landmark × Option Fault

namespace Analyzer

/-- The landmarks that a walk comes to. -/
def visits (a : Analyzer) : List Landmark → List Visit
  | [] => []
  | m :: rest =>
    match a.step m with
    | (a', none) => (m, none) :: a'.visits rest
    | (_, some fault) => [(m, some fault)]

/-- An analyzer that reads sources, and the landmarks that it came to. -/
structure Reading where
  analyzer : Analyzer := {}
  visits : List Visit := []

def Reading.layout (r : Reading) : Layout := r.analyzer.layout

/-- Reads a source.  One without a tree is passed over. -/
def Reading.next (r : Reading) (source : String) : Reading :=
  match readStatements source with
  | none => r
  | some statements =>
    { analyzer := (r.analyzer.analyze statements).1
      visits := r.visits ++ r.analyzer.visits (outline statements) }

/-- Reads sources in order with a fresh analyzer. -/
def reading (sources : List String) : Reading := sources.foldl Reading.next {}

end Analyzer

/-! ## Tables that fit together -/

namespace Layout

/-- The tables of a layout fit together. -/
structure Consistent (l : Layout) : Prop where
  inOrder : l.SlotsInOrder
  typed : ∀ x, Assoc.has x l.initialValues = true ↔ Assoc.has x l.types = true
  slotted : ∀ x, Assoc.has x l.initialValues = true → Assoc.has x l.slots = true
  based : ∀ entry ∈ l.mappings, Assoc.get? entry.1 l.slots = some entry.2.baseSlot
  mapping : ∀ x, Assoc.get? x l.types = some .mapping →
    Assoc.has x l.mappings = true ∧ Assoc.get? x l.initialValues = some (.dict [])

variable {l : Layout} {x : String}

/-- A variable that gets a slot comes behind those that have one. -/
theorem slots_isPrefix_declare (l : Layout) (x : String) : l.slots <+: (l.declare x).slots := by
  unfold declare
  split
  case isTrue => exact List.prefix_rfl
  case isFalse hnew =>
    dsimp only
    rw [Assoc.set_of_not_has (by simpa using hnew)]
    exact List.prefix_append _ _

theorem has_declare_iff {y : String} :
    Assoc.has x (l.declare y).slots = true ↔ x = y ∨ Assoc.has x l.slots = true := by
  by_cases hxy : x = y
  · subst hxy
    simp [has_declare_self]
  · simp [has_declare_of_ne hxy, hxy]

theorem types_declare (l : Layout) (x : String) : (l.declare x).types = l.types := by
  unfold declare
  split <;> rfl

theorem mappings_declare (l : Layout) (x : String) : (l.declare x).mappings = l.mappings := by
  unfold declare
  split <;> rfl

theorem types_assign (l : Layout) (x : String) (v : Value) (t : VarType) :
    (l.assign x v t).types = Assoc.set x t l.types := by
  cases t <;> rfl

theorem mappings_assign (l : Layout) (x : String) (v : Value) (t : VarType) :
    (l.assign x v t).mappings =
      if t = .mapping then Assoc.set x ⟨.address, .uint256, l.slotOf x⟩ l.mappings
      else l.mappings := by
  cases t <;> rfl

theorem get?_slotOf (h : Assoc.has x l.slots = true) :
    Assoc.get? x l.slots = some (l.slotOf x) := by
  obtain ⟨slot, hslot⟩ := Option.isSome_iff_exists.mp h
  simp [slotOf, hslot]

/-- Only a dictionary makes a mapping, and it counts as an empty one. -/
theorem eq_dict_of_mapping {e : Expr} {v : Value}
    (h : assignedValue e = .ok (v, .mapping)) : v = .dict [] := by
  unfold assignedValue at h
  split at h
  case h_1 => simpa using h.symm
  case h_2 =>
    simp only [Except.ok.injEq, Prod.mk.injEq] at h
    split at h <;> simp at h
  case h_3 =>
    unfold textValue at h
    split at h <;> split at h <;> simp at h
  all_goals simp at h

namespace Consistent

theorem declare (h : l.Consistent) (y : String) : (l.declare y).Consistent where
  inOrder := h.inOrder.declare y
  typed x := by
    rw [initialValues_declare, types_declare]
    exact h.typed x
  slotted x hx := by
    rw [initialValues_declare] at hx
    exact has_declare (h.slotted x hx) y
  based entry hentry := by
    rw [mappings_declare] at hentry
    exact Assoc.get?_of_isPrefix (slots_isPrefix_declare l y) (h.based entry hentry)
  mapping x hx := by
    rw [types_declare] at hx
    rw [mappings_declare, initialValues_declare]
    exact h.mapping x hx

/-- Recording what a variable with a slot was assigned keeps the tables together. -/
theorem assign (h : l.Consistent) {y : String} (hslot : Assoc.has y l.slots = true) {v : Value}
    {t : VarType} (hdict : t = .mapping → v = .dict []) : (l.assign y v t).Consistent where
  inOrder := h.inOrder.congr (slots_assign l y v t).1 (slots_assign l y v t).2
  typed x := by
    rw [initialValues_assign, types_assign, Assoc.has_set, Assoc.has_set, h.typed x]
  slotted x hx := by
    rw [initialValues_assign, Assoc.has_set] at hx
    rw [(slots_assign l y v t).1]
    rcases hx with rfl | hold
    · exact hslot
    · exact h.slotted x hold
  based entry hentry := by
    rw [mappings_assign] at hentry
    rw [(slots_assign l y v t).1]
    split at hentry
    case isTrue =>
      rcases Assoc.mem_set hentry with hold | rfl
      · exact h.based entry hold
      · exact get?_slotOf hslot
    case isFalse => exact h.based entry hentry
  mapping x hx := by
    rw [types_assign] at hx
    rw [mappings_assign, initialValues_assign]
    by_cases hxy : x = y
    · subst hxy
      obtain rfl : t = .mapping := by simpa using hx
      simp [Assoc.has, hdict rfl]
    · rw [Assoc.get?_set_of_ne hxy] at hx
      obtain ⟨hmappings, hvalue⟩ := h.mapping x hx
      refine ⟨?_, by rwa [Assoc.get?_set_of_ne hxy]⟩
      split
      · exact Assoc.has_set.mpr (.inr hmappings)
      · exact hmappings

/-- One landmark keeps the tables together, also if the analysis ends there. -/
theorem step {a : Analyzer} (h : a.layout.Consistent) (m : Landmark) :
    (a.step m).1.layout.Consistent := by
  cases m with
  | contract name => exact h
  | constructor | leave => exact ⟨h.inOrder, h.typed, h.slotted, h.based, h.mapping⟩
  | function name params body decorators =>
    exact ⟨h.inOrder, h.typed, h.slotted, h.based, h.mapping⟩
  | assign y e =>
    change (a.assign y e).1.layout.Consistent
    rw [Analyzer.layout_assign]
    split
    case h_1 => exact h.declare y
    case h_2 value type hvalue =>
      refine (h.declare y).assign (has_declare_self _ y) ?_
      rintro rfl
      exact eq_dict_of_mapping hvalue

end Consistent

/-! ## Tables that fit what was read -/

/-- The tables of a layout fit the landmarks that an analyzer came to: the variables are those
that were assigned, and one of which nothing but its slot is known has only had assignments
that ended the analysis. -/
structure Allocated (l : Layout) (visits : List Visit) : Prop extends Consistent l where
  assigned : ∀ x, Assoc.has x l.slots = true ↔ ∃ e fault, (.assign x e, fault) ∈ visits
  unrecorded : ∀ x, Assoc.has x l.slots = true → Assoc.has x l.initialValues = false →
    ∀ e fault, (.assign x e, fault) ∈ visits → fault.isSome = true

end Layout

namespace Analyzer

variable {a : Analyzer} {x : String}

/-- What is recorded of a variable may change, but not that something is. -/
theorem has_initialValues_step (h : Assoc.has x a.layout.initialValues = true) (m : Landmark) :
    Assoc.has x (a.step m).1.layout.initialValues = true := by
  cases m with
  | contract _ | constructor | function _ _ _ _ | leave => exact h
  | assign y e =>
    change Assoc.has x (a.assign y e).1.layout.initialValues = true
    rw [layout_assign]
    split
    · rwa [initialValues_declare]
    · rw [initialValues_assign, initialValues_declare]
      exact Assoc.has_set.mpr (.inr h)

/-- An assignment that does not end the analysis is recorded. -/
theorem has_initialValues_of_step {e : Expr} (h : (a.step (.assign x e)).2 = none) :
    Assoc.has x (a.step (.assign x e)).1.layout.initialValues = true := by
  obtain ⟨value, type, hvalue⟩ := assignedValue_of_step h
  have hrecorded := recorded_step (x := x) h
  simp only [Landmark.assigned?, if_true] at hrecorded
  simp [Assoc.has, hrecorded, firstValue?, hvalue, Except.toOption]

/-- One landmark leaves the variables their slots. -/
theorem slots_isPrefix_step (a : Analyzer) (m : Landmark) :
    a.layout.slots <+: (a.step m).1.layout.slots := by
  cases m with
  | contract _ | constructor | function _ _ _ _ | leave => exact List.prefix_rfl
  | assign y e =>
    rw [layout_step_assign]
    exact slots_isPrefix_declare _ _

theorem slots_isPrefix_walk (a : Analyzer) (landmarks : List Landmark) :
    a.layout.slots <+: (a.walk landmarks).1.layout.slots :=
  walk_keeps (P := fun l => a.layout.slots <+: l.slots)
    (fun m _ a' h => h.trans (slots_isPrefix_step a' m)) List.prefix_rfl

end Analyzer

namespace Layout.Allocated

variable {l : Layout} {seen : List Visit}

theorem fresh : Allocated {} [] where
  inOrder := rfl
  typed x := by simp [Assoc.has, Assoc.get?]
  slotted x h := by simp [Assoc.has, Assoc.get?] at h
  based entry h := by simp at h
  mapping x h := by simp [Assoc.get?] at h
  assigned x := by simp [Assoc.has, Assoc.get?]
  unrecorded x h := by simp [Assoc.has, Assoc.get?] at h

/-- One landmark keeps the tables fitting, also if the analysis ends there. -/
theorem step {a : Analyzer} (h : Allocated a.layout seen) (m : Landmark) :
    Allocated (a.step m).1.layout (seen ++ [(m, (a.step m).2)]) where
  toConsistent := h.toConsistent.step m
  assigned x := by
    cases m with
    | contract _ | constructor | function _ _ _ _ | leave =>
      simpa [Analyzer.step, Analyzer.report, Analyzer.change, enter, leave, addFunction]
        using h.assigned x
    | assign y e =>
      rw [Analyzer.layout_step_assign, has_declare_iff, h.assigned x]
      simp only [List.mem_append, List.mem_singleton, Prod.mk.injEq, Landmark.assign.injEq]
      constructor
      · rintro (rfl | ⟨e', fault, hold⟩)
        · exact ⟨e, _, .inr ⟨⟨rfl, rfl⟩, rfl⟩⟩
        · exact ⟨e', fault, .inl hold⟩
      · rintro ⟨e', fault, hold | ⟨⟨rfl, -⟩, -⟩⟩
        · exact .inr ⟨e', fault, hold⟩
        · exact .inl rfl
  unrecorded x _ hmissing e fault hmem := by
    rcases List.mem_append.mp hmem with hold | hnew
    · have hslot : Assoc.has x a.layout.slots = true := (h.assigned x).mpr ⟨e, fault, hold⟩
      refine h.unrecorded x hslot ?_ e fault hold
      cases hvalue : Assoc.has x a.layout.initialValues with
      | false => rfl
      | true => simp [Analyzer.has_initialValues_step hvalue m] at hmissing
    · obtain ⟨rfl, rfl⟩ := Prod.mk.inj (List.mem_singleton.mp hnew)
      cases hend : (a.step (.assign x e)).2 with
      | some fault => rfl
      | none => simp [Analyzer.has_initialValues_of_step hend] at hmissing

theorem walk {a : Analyzer} (h : Allocated a.layout seen) (landmarks : List Landmark) :
    Allocated (a.walk landmarks).1.layout (seen ++ a.visits landmarks) := by
  induction landmarks generalizing a seen with
  | nil => simpa [Analyzer.visits, Analyzer.walk] using h
  | cons m rest ih =>
    have hfirst := h.step m
    rcases hstep : a.step m with ⟨a', fault⟩
    rw [hstep] at hfirst
    simp only [Analyzer.walk, Analyzer.visits, hstep]
    cases fault with
    | none => simpa using ih hfirst
    | some fault => exact hfirst

end Layout.Allocated

namespace Analyzer

theorem Reading.allocated_next {r : Reading} (h : Allocated r.layout r.visits) (source : String) :
    Allocated (r.next source).layout (r.next source).visits := by
  unfold next
  split
  · exact h
  · exact h.walk _

theorem allocated_reading (sources : List String) :
    Allocated (reading sources).layout (reading sources).visits := by
  have hfresh : Allocated ({} : Reading).layout ({} : Reading).visits := Layout.Allocated.fresh
  refine List.foldlRecOn (motive := fun r => Allocated r.layout r.visits) sources Reading.next
    hfresh ?_
  intro r h source _
  exact r.allocated_next h source

theorem Reading.slots_isPrefix_next (r : Reading) (source : String) :
    r.layout.slots <+: (r.next source).layout.slots := by
  unfold next
  split
  · exact List.prefix_rfl
  · exact slots_isPrefix_walk _ _

/-- Whatever sources an analyzer has read, its tables fit together and fit the landmarks that
it came to.  The next source leaves every variable its slot, and puts new ones behind. -/
theorem slots_allocated_in_order (earlier : List String) (source : String) :
    Allocated (reading (earlier ++ [source])).layout (reading (earlier ++ [source])).visits ∧
    (reading earlier).layout.slots <+: (reading (earlier ++ [source])).layout.slots ∧
    ∀ x slot, Assoc.get? x (reading earlier).layout.slots = some slot →
      Assoc.get? x (reading (earlier ++ [source])).layout.slots = some slot := by
  have hnext : reading (earlier ++ [source]) = (reading earlier).next source := by
    simp [reading]
  have hgrows := (reading earlier).slots_isPrefix_next source
  rw [← hnext] at hgrows
  exact ⟨allocated_reading _, hgrows, fun x slot => Assoc.get?_of_isPrefix hgrows⟩

end Analyzer

end ContractKit
