import ContractKit.Proofs.Evm.Appending
import ContractKit.Proofs.Evm.ExprStack
import ContractKit.Proofs.Data.Assoc

/-!
# Compiling an expression

An expression is compiled on an emitter in any region, behind any code.  This succeeds if the
literals that are compiled can be pushed, and appends code that leaves the words of `exprStack`.  A
supported expression leaves one word, its value.  In general a word more is left for each operator
that is compiled without code of its own, such as `//` and `!=`.
-/

namespace ContractKit

namespace Evm

open Source

theorem SupportedExpr.pushable {expr : Expr} (h : SupportedExpr expr) : ExprPushable expr := by
  fun_induction SupportedExpr expr <;>
    simp_all [ExprPushable, Value.ofLiteral, Value.Pushable]

/-! ## Running what was compiled -/

/-- Where an emitter finds the variables of its contract, and the arguments of a function. -/
def Emitter.scope (e : Emitter) (args : ArgMap) : Scope := ⟨e.slot?, args⟩

theorem Emitter.scope_fits {e : Emitter} {c : ContractState} {args : ArgMap}
    (hcontract : e.contract = some c)
    (hslots : ∀ entry ∈ c.slots, 0 ≤ entry.2 ∧ entry.2 < 2 ^ 256)
    (hargs : ∀ entry ∈ args, 0 ≤ entry.2 ∧ 4 + 32 * entry.2 < 2 ^ 256) : (e.scope args).Fits where
  slot x k hk := by
    have hget : Assoc.get? x c.slots = some k := by
      simpa [scope, slot?, hcontract] using hk
    exact hslots (x, k) (Assoc.mem_of_get? hget)
  offset x i hi := by
    have hentry := hargs (x, i) (Assoc.mem_of_get? hi)
    simp only [argumentOffset]
    omega

/-- Where there are no variables and no arguments, there is nothing to fit. -/
theorem Scope.empty_fits : (⟨fun _ => none, []⟩ : Scope).Fits :=
  ⟨by simp, by simp [Assoc.get?]⟩

/-- What is appended for an expression leaves its words on the stack, wherever it stands in a
code. -/
theorem compiled_passes {e e' : Emitter} {args : ArgMap} {expr : Expr}
    (hS : (e.scope args).Fits) (hfit : ExprFits expr) (h : compileExpr args expr e = .ok () e') :
    ∃ bytes, Wrote e bytes e' ∧ ∀ env pc m σ, StandsAt env pc bytes →
      Passes env m σ pc [] (pc + bytes.length) (exprStack (e.scope args) env.data σ expr) :=
  ⟨_, wrote_compileExpr hS hfit rfl h, fun _ pc _ _ hat => computes_exprCode hS hfit pc hat⟩

/-- **A supported expression is compiled to code that pushes its value.**  Let the slots of the
contract and the places of the arguments be words.  Whatever region is written and whatever was
written before, compiling the expression succeeds and only appends to the code that is being
written.  Wherever these bytes stand in a code, they are run through from one instruction to the
next, leave memory and storage alone and push the value of the expression on any stack. -/
theorem compileExpr_pushes_value {e : Emitter} {c : ContractState} {args : ArgMap} {expr : Expr}
    (hcontract : e.contract = some c)
    (hslots : ∀ entry ∈ c.slots, 0 ≤ entry.2 ∧ entry.2 < 2 ^ 256)
    (hargs : ∀ entry ∈ args, 0 ≤ entry.2 ∧ 4 + 32 * entry.2 < 2 ^ 256)
    (hexpr : SupportedExpr expr) :
    ∃ bytes e', compileExpr args expr e = .ok () e' ∧ Wrote e bytes e' ∧
      ∀ env pc m σ, StandsAt env pc bytes →
        Passes env m σ pc [] (pc + bytes.length) [evalExpr (e.scope args) env.data σ expr] ∧
        ∀ stack, Runs env pc (pc + bytes.length) ⟨pc, ⟨stack, m, σ⟩⟩
          ⟨pc + bytes.length, ⟨evalExpr (e.scope args) env.data σ expr :: stack, m, σ⟩⟩ := by
  have hS := Emitter.scope_fits hcontract hslots hargs
  obtain ⟨e', hok⟩ := succeeds_compileExpr hS hexpr.pushable e rfl
  obtain ⟨bytes, hwrote, hpasses⟩ := compiled_passes hS hexpr.fits hok
  refine ⟨bytes, e', hok, hwrote, fun env pc m σ hat => ?_⟩
  have hvalue := hpasses env pc m σ hat
  rw [exprStack_of_supported hexpr] at hvalue
  exact ⟨hvalue, fun stack => hvalue.runs stack le_rfl le_rfl⟩

/-- A contract with a mapping behind a variable. -/
def shelf : ContractState where
  slots := [("total", 0), ("stock", 1)]

/-- `self.stock[item + 1] * 3 <= self.total` -/
def enoughStock : Expr :=
  .compare
    (.binary (.subscript (.attribute (.name "self") "stock")
        (.binary (.name "item") .add (.literal (.int 1)))) .mult (.literal (.int 3)))
    .ltE (.attribute (.name "self") "total") []

/-- An emitter for the contract that has written a byte of its runtime code. -/
def shelfEmitter : Emitter where
  runtime := #[0x5b]
  region := .runtime "runtime"
  contract := some shelf

theorem shelf_slots : ∀ entry ∈ shelf.slots, 0 ≤ entry.2 ∧ entry.2 < 2 ^ 256 := by decide

/-- The stock of an item is looked up, multiplied and compared. -/
theorem pushes_enoughStock :
    SupportedExpr enoughStock ∧
    ∃ bytes e', compileExpr [("item", 0)] enoughStock shelfEmitter = .ok () e' ∧
      Wrote shelfEmitter bytes e' ∧
      ∀ env pc m σ, StandsAt env pc bytes →
        Passes env m σ pc [] (pc + bytes.length)
          [flag (σ (1 + (dataWord env.data 4 + 1)) * 3 ≤ σ 0)] := by
  have hargs : ∀ entry ∈ [("item", (0 : Int))], 0 ≤ entry.2 ∧ 4 + 32 * entry.2 < 2 ^ 256 := by
    decide
  have hexpr : SupportedExpr enoughStock := by simp [enoughStock, SupportedExpr]
  obtain ⟨bytes, e', hok, hwrote, hruns⟩ :=
    compileExpr_pushes_value (e := shelfEmitter) rfl shelf_slots hargs hexpr
  exact ⟨hexpr, bytes, e', hok, hwrote, fun env pc m σ hat => (hruns env pc m σ hat).1⟩

/-- **When an expression leaves one word.**  Let the slots of the contract, the places of the
arguments and the literals be words.  The bytes that are appended for an expression are run through
without a look at what the stack holds, and leave a word on it and one more for each compiled
operator that has no code.  So exactly one word is left if there is no such operator, and only
then. -/
theorem one_word_left_iff {e e' : Emitter} {args : ArgMap} {expr : Expr}
    (hS : (e.scope args).Fits) (hfit : ExprFits expr) (h : compileExpr args expr e = .ok () e') :
    ∃ bytes, Wrote e bytes e' ∧ ∀ env pc m σ, StandsAt env pc bytes →
      (∃ words, words.length = residue (e.scope args) expr + 1 ∧
        Passes env m σ pc [] (pc + bytes.length) words) ∧
      ((∃ w, Passes env m σ pc [] (pc + bytes.length) [w]) ↔ residue (e.scope args) expr = 0) := by
  obtain ⟨bytes, hwrote, hpasses⟩ := compiled_passes hS hfit h
  refine ⟨bytes, hwrote, fun env pc m σ hat => ?_⟩
  have hwords := hpasses env pc m σ hat
  have hlen := length_exprStack (e.scope args) env.data σ expr
  refine ⟨⟨_, hlen, hwords⟩, ?_, ?_⟩
  · rintro ⟨w, hw⟩
    rw [hwords.unique hw, List.length_singleton] at hlen
    omega
  · intro hzero
    rw [hzero] at hlen
    obtain ⟨w, hw⟩ := List.length_eq_one_iff.mp hlen
    exact ⟨w, hw ▸ hwords⟩

def totalAndText (op : CompareOp) : Expr :=
  .compare (.attribute (.name "self") "total") op (.literal (.text (Text.pointsOf "all"))) []

/-- A test for equality leaves one word, a test for inequality does not. -/
theorem words_of_equality :
    (∃ bytes e', compileExpr [] (totalAndText .eq) shelfEmitter = .ok () e' ∧
      Wrote shelfEmitter bytes e' ∧ ∀ env pc m σ, StandsAt env pc bytes →
        ∃ w, Passes env m σ pc [] (pc + bytes.length) [w]) ∧
    (∃ bytes e', compileExpr [] (totalAndText .notEq) shelfEmitter = .ok () e' ∧
      Wrote shelfEmitter bytes e' ∧ ∀ env pc m σ, StandsAt env pc bytes →
        ¬∃ w, Passes env m σ pc [] (pc + bytes.length) [w]) := by
  have hS : (shelfEmitter.scope []).Fits := Emitter.scope_fits rfl shelf_slots (by simp)
  have hfit : ∀ op, ExprFits (totalAndText op) := fun op => ⟨trivial, trivial⟩
  have hpush : ∀ op, ExprPushable (totalAndText op) := fun op => ⟨trivial, _, rfl⟩
  constructor
  · obtain ⟨e', hok⟩ := succeeds_compileExpr hS (hpush .eq) shelfEmitter rfl
    obtain ⟨bytes, hwrote, hwords⟩ := one_word_left_iff hS (hfit .eq) hok
    exact ⟨bytes, e', hok, hwrote, fun env pc m σ hat => (hwords env pc m σ hat).2.mpr rfl⟩
  · obtain ⟨e', hok⟩ := succeeds_compileExpr hS (hpush .notEq) shelfEmitter rfl
    obtain ⟨bytes, hwrote, hwords⟩ := one_word_left_iff hS (hfit .notEq) hok
    have hone : residue (shelfEmitter.scope []) (totalAndText .notEq) = 1 := rfl
    refine ⟨bytes, e', hok, hwrote, fun env pc m σ hat hw => ?_⟩
    have hzero := (hwords env pc m σ hat).2.mp hw
    omega

/-- `7 // 2` -/
def wholeQuotient : Expr := .binary (.literal (.int 7)) .floorDiv (.literal (.int 2))

/-- A whole quotient is compiled to its two operands. -/
theorem wholeQuotient_leaves_operands :
    ∃ e', compileExpr [] wholeQuotient {} = .ok () e' ∧ e'.init = #[0x60, 7, 0x60, 2] ∧
      ∀ env pc m σ, StandsAt env pc [0x60, 7, 0x60, 2] →
        Passes env m σ pc [] (pc + 4) [2, 7] ∧ ∀ w, ¬Passes env m σ pc [] (pc + 4) [w] := by
  have hfit : ExprFits wholeQuotient := by
    simp [wholeQuotient, ExprFits, Value.ofLiteral, Value.FitsWord]
  refine ⟨_, rfl, rfl, fun env pc m σ hat => ?_⟩
  have hpasses : Passes env m σ pc [] (pc + 4) [2, 7] :=
    computes_exprCode Scope.empty_fits hfit pc hat
  refine ⟨hpasses, fun w hw => ?_⟩
  simpa using hpasses.unique hw

end Evm

end ContractKit
