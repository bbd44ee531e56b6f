import ContractKit.Layout.Outline
import ContractKit.Proofs.Source.Parts

/-!
# What the outline of a source can hold

The outline of a source is made from parts of its tree.  So it has no more landmarks than the tree
has parts, and all that a landmark brings stands in the tree.
-/

namespace ContractKit.Layout

open Source

/-- The parts that a landmark brings: those of an assigned value, or those of the parameters and the
body of a function. -/
def Landmark.parts : Landmark → List Part
  | .assign _ e => e.parts
  | .function _ params body _ => paramParts params ++ Source.parts body
  | _ => []

/-- Parts from which landmarks can be made. -/
structure Covers (ps : List Part) (ms : List Landmark) : Prop where
  length : ms.length ≤ ps.length
  parts : ∀ m ∈ ms, m.parts.Sublist ps

namespace Covers

variable {ps ps' : List Part} {ms ms' : List Landmark} {m : Landmark}

theorem nil (ps : List Part) : Covers ps [] :=
  ⟨Nat.zero_le _, by simp⟩

theorem mono (h : Covers ps ms) (hps : ps.Sublist ps') : Covers ps' ms :=
  ⟨Nat.le_trans h.length hps.length_le, fun m hm => (h.parts m hm).trans hps⟩

theorem append (h : Covers ps ms) (h' : Covers ps' ms') : Covers (ps ++ ps') (ms ++ ms') where
  length := by
    rw [List.length_append, List.length_append]
    exact Nat.add_le_add h.length h'.length
  parts m hm := by
    rcases List.mem_append.mp hm with hm | hm
    · exact (h.parts m hm).trans (List.sublist_append_left _ _)
    · exact (h'.parts m hm).trans (List.sublist_append_right _ _)

theorem cons (h : Covers ps ms) (hm : m.parts.Sublist ps) : Covers (.node :: ps) (m :: ms) where
  length := Nat.succ_le_succ h.length
  parts := List.forall_mem_cons.mpr ⟨hm.cons _, fun m hm => (h.parts m hm).cons _⟩

/-- The end of a function brings nothing. -/
theorem leave (h : Covers ps ms) : Covers (.node :: ps) (ms ++ [.leave]) where
  length := by simpa using h.length
  parts m hm := by
    rcases List.mem_append.mp hm with hm | hm
    · exact (h.parts m hm).cons _
    · rw [List.mem_singleton.mp hm]
      exact List.nil_sublist _

end Covers

/-- The outlines of a statement, of handlers, of statements and of cases. -/
theorem covers_all :
    (∀ s : Stmt, Covers s.parts (outlineOf s)) ∧
    (∀ hs : List (Handler Stmt), Covers (handlerParts hs) (outlineHandlers hs)) ∧
    (∀ ss : List Stmt, Covers (parts ss) (outline ss)) ∧
    ∀ cs : List (MatchCase Stmt), Covers (caseParts cs) (outlineCases cs) := by
  refine outlineOf.mutual_induct (fun s => Covers s.parts (outlineOf s))
    (fun hs => Covers (handlerParts hs) (outlineHandlers hs))
    (fun ss => Covers (parts ss) (outline ss)) (fun cs => Covers (caseParts cs) (outlineCases cs))
    ?contract ?ctor ?hidden ?method ?async ?field ?assign ?forLoop ?whileLoop ?branch ?withItems
    ?matchOn ?tryBlock ?other ?nil ?cons ?noCase ?oneCase ?noHandler ?handler
  case contract =>
    intro name bases keywords body decorators ih
    simp only [outlineOf, Stmt.parts]
    have hbody : Covers (parts body)
        (if bases.any (isName contractBase) then outline body else []) := by
      split
      · exact ih
      · exact .nil _
    exact (hbody.mono (List.sublist_append_right _ _)).cons (List.nil_sublist _)
  case ctor =>
    intro name params body decorators returns hname ih
    simp only [outlineOf, hname, if_true, Stmt.parts]
    have hbody := ih.mono ((List.sublist_append_right (paramParts params) _).trans
      (List.sublist_append_right (exprsParts decorators) _))
    exact (hbody.cons (m := .constructor) (List.nil_sublist _)).leave
  case hidden =>
    intro name params body decorators returns hname hhidden
    simp only [outlineOf, hname, hhidden, if_true, Bool.false_eq_true, if_false]
    exact .nil _
  case method =>
    intro name params body decorators returns hname hshown ih
    simp only [outlineOf, hname, hshown, Bool.false_eq_true, if_false, Stmt.parts]
    have hbody := ih.mono (List.sublist_append_right (paramParts params) _)
    have hmethod := (hbody.mono (List.sublist_append_right (exprsParts decorators) _)).cons
      (m := .function name params body decorators) (List.sublist_append_right _ _)
    exact hmethod.leave
  case async =>
    intro name params body decorators returns ih
    simp only [outlineOf, Stmt.parts]
    exact ih.mono ((((List.sublist_append_right _ _).trans
      (List.sublist_append_right _ _)).cons _).cons _)
  case field =>
    intro target value x hfield
    simp only [outlineOf, hfield, Stmt.parts]
    exact (Covers.nil _).cons (m := .assign x value) (List.sublist_append_right _ _)
  case assign =>
    intro target value hfield
    simp only [outlineOf, hfield]
    exact .nil _
  case forLoop =>
    intro isAsync target iterable body orelse ihBody ihElse
    simp only [outlineOf, Stmt.parts]
    exact ((ihBody.mono (List.sublist_append_right _ _)).append ihElse).mono
      (List.sublist_cons_self _ _)
  case whileLoop | branch =>
    intro test body orelse ihBody ihElse
    simp only [outlineOf, Stmt.parts]
    exact ((ihBody.mono (List.sublist_append_right _ _)).append ihElse).mono
      (List.sublist_cons_self _ _)
  case withItems | matchOn =>
    intros
    simp only [outlineOf, Stmt.parts]
    exact Covers.mono ‹_› ((List.sublist_append_right _ _).cons _)
  case tryBlock =>
    intro isGroup body handlers orelse final ihBody ihHandlers ihElse ihFinal
    simp only [outlineOf, Stmt.parts]
    exact (((ihBody.append ihHandlers).append ihElse).append ihFinal).mono
      (List.sublist_cons_self _ _)
  case other =>
    intro s _ _ _ _ _ _ _ _ _ _
    rw [outlineOf]
    · exact .nil _
    all_goals assumption
  case nil => exact .nil _
  case cons =>
    intro s rest ihFirst ihRest
    exact ihFirst.append ihRest
  case noCase => exact .nil _
  case oneCase =>
    intro pattern guard body rest ihBody ihRest
    simp only [outlineCases, caseParts]
    exact (ihBody.mono (List.sublist_append_right _ _)).append ihRest
  case noHandler => exact .nil _
  case handler =>
    intro type name body rest ihBody ihRest
    simp only [outlineHandlers, handlerParts]
    exact (ihBody.mono (List.sublist_append_right _ _)).append ihRest

/-- The outline of a source is made from its parts. -/
theorem covers_outline (statements : List Stmt) : Covers (parts statements) (outline statements) :=
  covers_all.2.2.1 statements

end ContractKit.Layout
