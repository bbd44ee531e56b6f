import ContractKit.Layout.Analysis

/-!
# What an analysis does to a layout

An analyzer reports while it walks, but what it knows does not depend on what it reports.
So the effect of an assignment is one on the layout, and what every landmark keeps is kept by
a whole walk, wherever the walk ends.
-/

namespace ContractKit.Analyzer

open Source

/-- Reporting a first value changes nothing that is known. -/
theorem layout_reportInitial {a a' : Analyzer} {x : String} {v : Value}
    (h : a.reportInitial x v = .ok a') : a'.layout = a.layout := by
  unfold reportInitial at h
  split at h
  · split at h
    · obtain rfl := Except.ok.inj h
      rfl
    · simp at h
  · obtain rfl := Except.ok.inj h
    rfl

theorem layout_declare (a : Analyzer) (x : String) :
    (a.declare x).layout = a.layout.declare x := by
  unfold declare
  split
  case isTrue hold => simp [Layout.declare, hold]
  case isFalse => rfl

/-- The variable gets a slot, also if its value turns out to be faulty. -/
theorem layout_assign (a : Analyzer) (x : String) (e : Expr) :
    (a.assign x e).1.layout =
      match Layout.assignedValue e with
      | .error _ => a.layout.declare x
      | .ok (value, type) => (a.layout.declare x).assign x value type := by
  simp only [assign]
  cases Layout.assignedValue e with
  | error fault => exact layout_declare a x
  | ok assigned =>
    obtain ⟨value, type⟩ := assigned
    have hchange : ((a.declare x).change (·.assign x value type)).layout =
        (a.layout.declare x).assign x value type := by
      rw [← layout_declare]
      rfl
    dsimp only
    split
    case h_1 a' ha' => exact (layout_reportInitial ha').trans hchange
    case h_2 => exact hchange

section Walk

variable {P : Layout → Prop} {a : Analyzer} {landmarks : List Layout.Landmark}

theorem walk_keeps (hstep : ∀ m ∈ landmarks, ∀ a : Analyzer, P a.layout → P (a.step m).1.layout)
    (h : P a.layout) : P (a.walk landmarks).1.layout := by
  induction landmarks generalizing a with
  | nil => exact h
  | cons m rest ih =>
    have hfirst := hstep m List.mem_cons_self a h
    simp only [walk]
    split
    case h_1 a' ha' =>
      rw [ha'] at hfirst
      exact ih (fun m' hm' => hstep m' (List.mem_cons_of_mem m hm')) hfirst
    case h_2 a' fault ha' =>
      rw [ha'] at hfirst
      exact hfirst

theorem walk_to_end_keeps
    (hstep : ∀ (m : Layout.Landmark) (a : Analyzer), (a.step m).2 = none → P a.layout →
      P (a.step m).1.layout)
    (hend : (a.walk landmarks).2 = none) (h : P a.layout) : P (a.walk landmarks).1.layout := by
  induction landmarks generalizing a with
  | nil => exact h
  | cons m rest ih =>
    have hfirst := hstep m a
    simp only [walk] at hend ⊢
    split at hend
    case h_1 a' ha' =>
      rw [ha'] at hfirst
      exact ih hend (hfirst rfl h)
    case h_2 => simp at hend

/-- A walk to the end attains what one of its landmarks attains and the others keep. -/
theorem walk_attains {m : Layout.Landmark} (hm : m ∈ landmarks)
    (hattain : ∀ a : Analyzer, P (a.step m).1.layout)
    (hkeep : ∀ (m' : Layout.Landmark) (a : Analyzer), P a.layout → P (a.step m').1.layout)
    (hend : (a.walk landmarks).2 = none) : P (a.walk landmarks).1.layout := by
  induction landmarks generalizing a with
  | nil => simp at hm
  | cons first rest ih =>
    have hfirst := hattain a
    simp only [walk] at hend ⊢
    split at hend
    case h_1 a' ha' =>
      rcases List.mem_cons.mp hm with rfl | hrest
      · rw [ha'] at hfirst
        exact walk_keeps (fun m' _ => hkeep m') hfirst
      · exact ih hrest hend
    case h_2 => simp at hend

end Walk

end ContractKit.Analyzer
