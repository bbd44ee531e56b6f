import ContractKit.Proofs.Data.Assoc
import ContractKit.Proofs.Layout.Walk

/-!
# Slots are given out in order

Whatever sources an analyzer has seen, the variables it knows have the slots `0`, `1`, `2`
and so on in the order of its table.  So no two variables share a slot, and every slot is
below the number of variables.
-/

namespace ContractKit

open Source

/-- The variables have the first slots, in the order of the table. -/
def Layout.SlotsInOrder (l : Layout) : Prop := Assoc.values l.slots = List.range l.nextSlot

/-- A change that leaves slots alone keeps them in order. -/
theorem Layout.SlotsInOrder.congr {l l' : Layout} (h : l.SlotsInOrder) (hslots : l'.slots = l.slots)
    (hnext : l'.nextSlot = l.nextSlot) : l'.SlotsInOrder := by
  rw [Layout.SlotsInOrder, hslots, hnext]
  exact h

theorem Layout.SlotsInOrder.length_eq {l : Layout} (h : l.SlotsInOrder) :
    l.slots.length = l.nextSlot := by
  have hcount := congrArg List.length h
  simpa [Assoc.values] using hcount

theorem Layout.SlotsInOrder.declare {l : Layout} (h : l.SlotsInOrder) (x : String) :
    (l.declare x).SlotsInOrder := by
  unfold Layout.declare
  split
  case isTrue => exact h
  case isFalse hnew =>
    have hset := Assoc.set_of_not_has (by simpa using hnew) l.nextSlot
    simp only [Layout.SlotsInOrder, Assoc.values] at h ⊢
    rw [hset, List.map_append, h, List.range_succ]
    rfl

theorem Layout.slots_assign (l : Layout) (x : String) (v : Value) (t : Layout.VarType) :
    (l.assign x v t).slots = l.slots ∧ (l.assign x v t).nextSlot = l.nextSlot := by
  cases t <;> exact ⟨rfl, rfl⟩

namespace Analyzer

theorem slotsInOrder_assign {a : Analyzer} (h : a.layout.SlotsInOrder) (x : String) (e : Expr) :
    (a.assign x e).1.layout.SlotsInOrder := by
  have hdecl := h.declare x
  rw [layout_assign]
  split
  case h_1 => exact hdecl
  case h_2 value type _ =>
    have hkeep := Layout.slots_assign (a.layout.declare x) x value type
    exact hdecl.congr hkeep.1 hkeep.2

theorem slotsInOrder_step {a : Analyzer} (h : a.layout.SlotsInOrder) (m : Layout.Landmark) :
    (a.step m).1.layout.SlotsInOrder := by
  cases m with
  | contract name => exact h
  | constructor => exact h.congr rfl rfl
  | function name params body decorators => exact h.congr rfl rfl
  | leave => exact h.congr rfl rfl
  | assign x e => exact slotsInOrder_assign h x e

/-- The analyzers that come about from a fresh one by analyzing sources, whether they are
analyzed to their end or not, and by handing over what was reported. -/
inductive Reached : Analyzer → Prop where
  | fresh : Reached {}
  | analyze {a : Analyzer} (source : List Stmt) : Reached a → Reached (a.analyze source).1
  | clearLog {a : Analyzer} : Reached a → Reached { a with log := [] }

theorem Reached.slotsInOrder {a : Analyzer} (h : Reached a) : a.layout.SlotsInOrder := by
  induction h with
  | fresh => rfl
  | analyze source _ ih => exact walk_keeps (fun m _ _ h => slotsInOrder_step h m) ih
  | clearLog _ ih => exact ih

end Analyzer

/-! ## Contracts -/

/-- The contracts that analyzing a source to its end produces, after any other sources. -/
def Analyzed (c : ContractState) : Prop :=
  ∃ (a a' : Analyzer) (source : List Stmt), a.Reached ∧ a.analyze source = (a', none) ∧
    c = a'.layout.toState

namespace Analyzed

variable {c : ContractState}

/-- A source that a fresh analyzer reads to its end gives a contract. -/
theorem of_fresh {source : List Stmt} (h : (({} : Analyzer).analyze source).2 = none) :
    Analyzed (({} : Analyzer).analyze source).1.layout.toState :=
  ⟨{}, _, source, .fresh, Prod.ext rfl h, rfl⟩

/-- The slots of a contract are the numbers below that of its variables, in order. -/
theorem slots_eq_range (h : Analyzed c) :
    Assoc.values c.slots = (List.range c.slots.length).map fun k : Nat => (k : Int) := by
  obtain ⟨a, a', source, hreached, hanalyze, rfl⟩ := h
  have horder : a'.layout.SlotsInOrder := by
    have hnext := (hreached.analyze source).slotsInOrder
    rwa [hanalyze] at hnext
  have hlen := horder.length_eq
  simp only [Layout.SlotsInOrder, Assoc.values] at horder
  simp only [Layout.toState, Assoc.values, List.length_map, hlen, ← horder, List.map_map]
  rfl

/-- The slot of a variable is below the number of variables. -/
theorem slot_lt (h : Analyzed c) {x : String} {k : Int} (hk : (x, k) ∈ c.slots) :
    0 ≤ k ∧ k < c.slots.length := by
  have hmem : k ∈ Assoc.values c.slots := List.mem_map_of_mem (f := Prod.snd) hk
  rw [h.slots_eq_range] at hmem
  obtain ⟨i, hi, rfl⟩ := List.mem_map.mp hmem
  have hlt := List.mem_range.mp hi
  omega

end Analyzed

end ContractKit
