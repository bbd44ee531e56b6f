import ContractKit.Contract.Interface
import ContractKit.Proofs.Layout.Slots

/-!
# What is known of functions

Whatever sources an analyzer has seen, what it knows of a function was read from one
definition: it has a type for each of its arguments, in their order, and it counts as
returning a value iff a statement on the outermost level of its body does.

So the signature under which a function is called lists the types of the inputs that the
interface declares.
-/

namespace ContractKit

open Source

/-- What is known of a function was read from a definition. -/
def Function.Read (f : Function) : Prop :=
  ∃ (l : Layout) (params : List (Parameter Expr)) (body : List Stmt) (decorators : List Expr),
    f = l.functionOf params body decorators

namespace Function.Read

variable {f : Function}

theorem length_paramTypes (h : f.Read) : f.paramTypes.length = f.args.length := by
  obtain ⟨l, params, body, decorators, rfl⟩ := h
  simp [Layout.functionOf]

theorem hasReturn_eq (h : f.Read) :
    f.hasReturn = f.body.any fun s => (Layout.returned? s).isSome := by
  obtain ⟨l, params, body, decorators, rfl⟩ := h
  rfl

/-- The types in the signature of a function are those of its declared inputs. -/
theorem types_inputsOf (h : f.Read) :
    (Interface.inputsOf f).map TypedName.type = f.signatureTypes := by
  have hlen := h.length_paramTypes
  unfold Function.signatureTypes
  split
  case isTrue hnone =>
    have hargs : f.args = [] := by
      rw [List.isEmpty_iff.mp hnone] at hlen
      exact List.eq_nil_of_length_eq_zero hlen.symm
    simp [Interface.inputsOf, hargs]
  case isFalse =>
    apply List.ext_getElem
    · simp [Interface.inputsOf, hlen]
    · intro i _ hi
      simp [Interface.inputsOf, hi]

end Function.Read

/-- The declared inputs of a function have the names of its arguments. -/
theorem Interface.names_inputsOf (f : Function) :
    (Interface.inputsOf f).map TypedName.name = f.args := by
  simp [Interface.inputsOf, Function.comp_def]

/-- What is known of each function was read from a definition. -/
def Layout.FunctionsRead (l : Layout) : Prop := ∀ entry ∈ l.functions, entry.2.Read

theorem Layout.functions_declare (l : Layout) (x : String) :
    (l.declare x).functions = l.functions := by
  unfold Layout.declare
  split <;> rfl

theorem Layout.functions_assign (l : Layout) (x : String) (v : Value) (t : Layout.VarType) :
    (l.assign x v t).functions = l.functions := by
  cases t <;> rfl

namespace Analyzer

theorem functions_assign (a : Analyzer) (x : String) (e : Expr) :
    (a.assign x e).1.layout.functions = a.layout.functions := by
  rw [layout_assign]
  split
  · exact Layout.functions_declare a.layout x
  · rw [Layout.functions_assign, Layout.functions_declare]

/-- One landmark keeps what is known of functions read from definitions. -/
theorem functionsRead_step {a : Analyzer} (h : a.layout.FunctionsRead) (m : Layout.Landmark) :
    (a.step m).1.layout.FunctionsRead := by
  cases m with
  | contract name => exact h
  | constructor => exact h
  | leave => exact h
  | function name params body decorators =>
    intro entry hentry
    rcases Assoc.mem_set hentry with hold | rfl
    · exact h entry hold
    · exact ⟨_, params, body, decorators, rfl⟩
  | assign x e =>
    intro entry hentry
    have hsame : (a.step (.assign x e)).1.layout.functions = a.layout.functions :=
      functions_assign a x e
    exact h entry (hsame ▸ hentry)

theorem Reached.functionsRead {a : Analyzer} (h : Reached a) : a.layout.FunctionsRead := by
  induction h with
  | fresh => simp [Layout.FunctionsRead]
  | analyze source _ ih => exact walk_keeps (fun m _ _ h => functionsRead_step h m) ih
  | clearLog _ ih => exact ih

end Analyzer

/-- What is known of the functions that messages can call was read from definitions. -/
theorem Analyzed.functionsRead {c : ContractState} (h : Analyzed c) {entry : String × Function}
    (hentry : entry ∈ c.dispatchable) : entry.2.Read := by
  obtain ⟨a, a', source, hreached, hanalyze, rfl⟩ := h
  have hread : a'.layout.FunctionsRead := by
    have hnext := (hreached.analyze source).functionsRead
    rwa [hanalyze] at hnext
  exact hread entry (List.mem_filter.mp hentry).1

end ContractKit
