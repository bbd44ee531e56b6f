import ContractKit.Proofs.Evm.Aliasing
import ContractKit.Proofs.Evm.Call
import ContractKit.Proofs.Layout.Functions
import ContractKit.Proofs.Simulation.Rebinding

/-!
# Writes that have no code

A function may consist of statements that rebind variables of the contract.  Run as what they are,
all of them write.  Compiled, only a plain assignment does: for a chain of assignments, for one with
an annotation and for one that combines the old value with another there is no code, and no fault
either.  So a compiled function leaves what it would leave if it had its plain assignments only.

Both are compared on the same call: the variables begin with the numbers in their slots, and the
parameters with those at their places in the call data.  Numbers that are run with are unbounded,
and words wrap; what is stored agrees with what is run up to multiples of `2 ^ 256`, since sums and
products do.
-/

namespace ContractKit

open Source

namespace Simulation

variable {e : Expr} {slot : Int} {x : String}

def Datum.word? (d : Datum) : Option Evm.Word :=
  match d.numeric? with
  | some (.int n) => some (BitVec.ofInt 256 n)
  | _ => Option.none

def Machine.word? (m : Machine) (x : String) : Option Evm.Word :=
  (Assoc.get? x m.attributes).bind Datum.word?

theorem Datum.word?_eq_some {d : Datum} {w : Evm.Word} :
    d.word? = some w ↔ ∃ n, d.numeric? = some (.int n) ∧ BitVec.ofInt 256 n = w := by
  unfold Datum.word?
  split
  case h_1 n hn => simp [hn]
  case h_2 hnot =>
    refine iff_of_false (by simp) ?_
    rintro ⟨n, hn, -⟩
    exact hnot n hn

@[simp] theorem Datum.word?_int (n : Int) : (Datum.int n).word? = some (BitVec.ofInt 256 n) := rfl

/-- Sums and products of whole numbers are those of their words. -/
theorem combine_word {op : BinaryOp} {a b : Datum} {u v : Evm.Word}
    (hop : op = .add ∨ op = .mult) (ha : a.word? = some u) (hb : b.word? = some v) (m : Machine) :
    ∃ d, combine op a b m = .ok d m ∧ d.word? = some (Evm.binaryValue op u v) := by
  obtain ⟨x, hx, rfl⟩ := Datum.word?_eq_some.mp ha
  obtain ⟨y, hy, rfl⟩ := Datum.word?_eq_some.mp hb
  rcases hop with rfl | rfl
  · refine ⟨.int (x + y), ?_, ?_⟩
    · simp only [combine, addData, hx, hy]
      rfl
    · rw [Datum.word?_int, BitVec.ofInt_add, Evm.binaryValue]
  · refine ⟨.int (x * y), ?_, ?_⟩
    · simp only [combine, mulData, hx, hy]
      rfl
    · rw [Datum.word?_int, BitVec.ofInt_mul, Evm.binaryValue]

end Simulation

namespace Evm

open Simulation

/-! ## Machines and storages -/

/-- Sums and products of literals that a word can hold, parameters and variables. -/
def Arithmetic (S : Scope) : Expr → Prop
  | .literal (.int n) => n < 2 ^ 256
  | .literal (.bool _) => True
  | .name x => (Assoc.get? x S.args).isSome
  | .attribute (.name "self") x => (S.slot? x).isSome
  | .binary left op right => (op = .add ∨ op = .mult) ∧ Arithmetic S left ∧ Arithmetic S right
  | _ => False

theorem Arithmetic.supported {S : Scope} (h : Arithmetic S e) : SupportedExpr e := by
  fun_induction Arithmetic S e <;> simp_all [SupportedExpr]

/-- The machine has in its attributes and local names what the storage has in the slots of the
variables and the data at the places of the parameters. -/
structure Mirrors (S : Scope) (data : List UInt8) (σ : Storage) (m : Machine) : Prop where
  contract : Assoc.get? "self" m.locals = some .contract
  held : ∀ x slot, S.slot? x = some slot → m.word? x = some (σ (slotWord slot))
  given : ∀ x i, Assoc.get? x S.args = some i →
    (Assoc.get? x m.locals).bind Datum.word? = some (dataWord data (4 + 32 * i.toNat))

/-- Different variables have different slots. -/
def Scope.Distinct (S : Scope) : Prop :=
  ∀ x y k l, S.slot? x = some k → S.slot? y = some l → x ≠ y → slotWord k ≠ slotWord l

variable {S : Scope} {data : List UInt8} {σ : Storage} {m : Machine} {s : Setting}

namespace Mirrors

theorem held_eq (h : Mirrors S data σ m) (hslot : S.slot? x = some slot) :
    ∃ d, Assoc.get? x m.attributes = some d ∧ d.word? = some (σ (slotWord slot)) :=
  Option.bind_eq_some_iff.mp (h.held x slot hslot)

/-- An arithmetic expression has a number for its value, and the word of it is the value that the
expression has for the storage. -/
theorem yields (h : Mirrors S data σ m) (he : Arithmetic S e) :
    ∃ d, Simulation.Yields s m e d ∧ d.word? = some (evalExpr S data σ e) := by
  induction e using Arithmetic.induct with
  | case1 n => exact ⟨.int n, rfl, by simp [evalExpr]⟩
  | case2 b => exact ⟨.bool b, rfl, by cases b <;> rfl⟩
  | case3 x =>
    obtain ⟨i, hi⟩ := Option.isSome_iff_exists.mp he
    obtain ⟨d, hd, hword⟩ := Option.bind_eq_some_iff.mp (h.given x i hi)
    exact ⟨d, .name hd, by simpa only [evalExpr, hi] using hword⟩
  | case4 x =>
    obtain ⟨slot, hslot⟩ := Option.isSome_iff_exists.mp he
    obtain ⟨d, hd, hword⟩ := h.held_eq hslot
    exact ⟨d, .field h.contract hd, by simpa only [evalExpr, hslot] using hword⟩
  | case5 left op right ihl ihr =>
    obtain ⟨hop, hleft, hright⟩ := he
    obtain ⟨a, hya, ha⟩ := ihl hleft
    obtain ⟨b, hyb, hb⟩ := ihr hright
    obtain ⟨d, hd, hword⟩ := combine_word hop ha hb m
    exact ⟨d, hya.binary hyb hd, by rw [evalExpr, hword]⟩
  | case6 =>
    rw [Arithmetic] at he
    · exact he.elim
    all_goals assumption

end Mirrors

/-! ## What rebindings store -/

/-- The storage after some variables have been given a word. -/
def storeAt (S : Scope) (w : Word) (xs : List String) (σ : Storage) : Storage :=
  xs.foldl (fun σ x => match S.slot? x with
    | some slot => σ.set (slotWord slot) w
    | none => σ) σ

def storeRebinding (S : Scope) (data : List UInt8) (σ : Storage) (r : Rebinding) : Storage :=
  storeAt S (evalExpr S data σ r.value) r.targets σ

def storeRebindings (S : Scope) (data : List UInt8) (σ : Storage) (rs : List Rebinding) :
    Storage :=
  rs.foldl (storeRebinding S data) σ

theorem storeAt_slot (hdistinct : S.Distinct) {y : String} (hy : S.slot? y = some slot) (w : Word)
    (xs : List String) (σ : Storage) :
    storeAt S w xs σ (slotWord slot) = if y ∈ xs then w else σ (slotWord slot) := by
  induction xs generalizing σ with
  | nil => simp [storeAt]
  | cons x rest ih =>
    simp only [storeAt, List.foldl_cons] at ih ⊢
    rw [ih]
    by_cases hrest : y ∈ rest
    · simp [hrest]
    · by_cases hyx : y = x
      · subst hyx
        simp [hrest, hy, Storage.set]
      · cases hx : S.slot? x with
        | none => simp [hrest, hyx]
        | some k =>
          have hne := hdistinct y x slot k hy hx hyx
          simp [hrest, hyx, Storage.set, hne]

/-- The rebinding is of variables, and its value is an arithmetic expression. -/
structure Rebinds (S : Scope) (r : Rebinding) : Prop where
  slots : ∀ x ∈ r.targets, (S.slot? x).isSome = true
  value : Arithmetic S r.value

/-- Giving variables a number on the machine and its word in the storage keeps them in
agreement. -/
theorem Mirrors.put (hdistinct : S.Distinct) (h : Mirrors S data σ m) {d : Datum} {w : Word}
    (hd : d.word? = some w) (xs : List String) :
    Mirrors S data (storeAt S w xs σ) (m.put xs d) where
  contract := h.contract
  given := h.given
  held := by
    intro y slot hy
    rw [Machine.word?, get?_put, storeAt_slot hdistinct hy]
    by_cases hmem : y ∈ xs
    · simpa [hmem] using hd
    · rw [if_neg hmem, if_neg hmem]
      exact h.held y slot hy

/-- **One rebinding.**  It is run without a fault, whatever its form is, and keeps machine and
storage in agreement. -/
theorem run_rebinding (hdistinct : S.Distinct) (h : Mirrors S data σ m) {r : Rebinding}
    (hr : Rebinds S r) :
    ∃ m', runStmt s r.stmt m = .ok .next m' ∧ Mirrors S data (storeRebinding S data σ r) m' := by
  cases r with
  | assign x more e =>
    obtain ⟨d, hyields, hword⟩ := h.yields hr.value
    exact ⟨_, runStmt_assign h.contract more hyields, h.put hdistinct hword _⟩
  | annotated x type e =>
    obtain ⟨d, hyields, hword⟩ := h.yields hr.value
    exact ⟨_, runStmt_annotated h.contract type hyields, h.put hdistinct hword _⟩
  | augmented x op e =>
    obtain ⟨hop, hx, he⟩ := hr.value
    obtain ⟨slot, hslot⟩ := Option.isSome_iff_exists.mp hx
    obtain ⟨old, hold, hword⟩ := h.held_eq hslot
    obtain ⟨d, hyields, hd⟩ := h.yields he
    obtain ⟨new, hnew, hsum⟩ := combine_word hop hword hd m
    obtain ⟨n, hn, -⟩ := Datum.word?_eq_some.mp hword
    have hvalue : binaryValue op (σ (slotWord slot)) (evalExpr S data σ e) =
        evalExpr S data σ (Rebinding.augmented x op e).value := by
      simp only [Rebinding.value, Simulation.field, evalExpr, hslot]
    exact ⟨_, runStmt_augmented h.contract hold hn hyields hnew,
      h.put hdistinct (hvalue ▸ hsum) _⟩

theorem run_rebindings (hdistinct : S.Distinct) (h : Mirrors S data σ m) {rs : List Rebinding}
    (hrs : ∀ r ∈ rs, Rebinds S r) :
    ∃ m', runBlock s (rs.map Rebinding.stmt) m = .ok .next m' ∧
      Mirrors S data (storeRebindings S data σ rs) m' := by
  induction rs generalizing σ m with
  | nil => exact ⟨m, rfl, h⟩
  | cons r rest ih =>
    obtain ⟨m₁, hfirst, h₁⟩ := run_rebinding hdistinct h (hrs r List.mem_cons_self)
    obtain ⟨m₂, hrest, h₂⟩ := ih h₁ fun r hr => hrs r (List.mem_cons_of_mem _ hr)
    refine ⟨m₂, ?_, h₂⟩
    rw [List.map_cons, runBlock, Simulation.bind_of_ok hfirst]
    exact hrest

/-! ## What their code does -/

def rebindingCode (S : Scope) : Rebinding → List Instr
  | .assign x [] e => assignCode S (Simulation.field x) e
  | _ => []

theorem stmtCode_rebinding (S : Scope) (start : Nat) (r : Rebinding) :
    stmtCode S start r.stmt = some (rebindingCode S r) := by
  cases r with
  | assign x more e => cases more <;> simp [Rebinding.stmt, stmtCode, rebindingCode]
  | annotated x type e => simp [Rebinding.stmt, stmtCode, rebindingCode]
  | augmented x op e => simp [Rebinding.stmt, updates, stmtCode, rebindingCode]

theorem stmtsCode_rebindings (S : Scope) (start : Nat) (rs : List Rebinding) :
    stmtsCode S start (rs.map Rebinding.stmt) = some (rs.flatMap (rebindingCode S)) := by
  induction rs generalizing start with
  | nil => simp [stmtsCode]
  | cons r rest ih => simp [stmtsCode, stmtCode_rebinding, ih]

theorem fits_rebindings {rs : List Rebinding} (hrs : ∀ r ∈ rs, Rebinds S r) :
    StmtsFit (rs.map Rebinding.stmt) := by
  induction rs with
  | nil => trivial
  | cons r rest ih =>
    refine ⟨?_, ih fun r hr => hrs r (List.mem_cons_of_mem _ hr)⟩
    have hr := hrs r List.mem_cons_self
    cases r with
    | assign x more e =>
      cases more with
      | nil => exact hr.value.supported.fits
      | cons y more => simp [Rebinding.stmt, StmtFits]
    | annotated x type e => simp [Rebinding.stmt, StmtFits]
    | augmented x op e => simp [Rebinding.stmt, updates, StmtFits]

variable {env : Env}

/-- The code of a plain assignment stores the value. -/
theorem moves_plain (hS : S.Fits) (hr : Rebinds S (.assign x [] e)) (st : State) :
    Moves env (rebindingCode S (.assign x [] e)) st
      { st with storage := storeRebinding S env.data st.storage (.assign x [] e) } := by
  obtain ⟨slot, hslot⟩ := Option.isSome_iff_exists.mp (hr.slots x List.mem_cons_self)
  have hsup : SupportedExpr e := hr.value.supported
  have hvalue := @computes_exprCode env S st.memory st.storage hS e hsup.fits
  rw [exprStack_of_supported hsup] at hvalue
  have hpushes := hvalue.append (computes_slotWord (hS.slot x slot hslot) _)
  have hstore := (hpushes.moves st.stack).append (.op rfl : Moves env [.op .sstore] _ _)
  simpa [rebindingCode, assignCode, Simulation.field, hslot, storeRebinding, storeAt,
    Rebinding.targets, Rebinding.value] using hstore

/-- Of rebindings in order, the code of the plain ones stores, and there is no other. -/
theorem moves_rebindings (hS : S.Fits) {rs : List Rebinding} (hrs : ∀ r ∈ rs, Rebinds S r)
    (st : State) :
    Moves env (rs.flatMap (rebindingCode S)) st { st with
      storage := storeRebindings S env.data st.storage (rs.filter Rebinding.isPlain) } := by
  induction rs generalizing st with
  | nil => exact .nil st
  | cons r rest ih =>
    have hr := hrs r List.mem_cons_self
    have hrest := fun st => ih (fun r hr => hrs r (List.mem_cons_of_mem _ hr)) st
    cases r with
    | assign x more e =>
      cases more with
      | nil => exact (moves_plain hS hr st).append (hrest _)
      | cons y more => exact hrest st
    | annotated x type e => exact hrest st
    | augmented x op e => exact hrest st

/-! ## Calls -/

section Calls

variable {c : ContractState} {f : Function}

/-- The machine on which a call of a function is run: every variable has the number in its slot, and
every parameter the one at its place in the data. -/
def callMachine (c : ContractState) (f : Function) (data : List UInt8) (σ : Storage) : Machine where
  attributes := c.slots.map fun entry => (entry.1, .int (σ (slotWord entry.2)).toNat)
  locals := ("self", .contract) :: (argMap f).map fun entry =>
    (entry.1, .int (dataWord data (4 + 32 * entry.2.toNat)).toNat)

theorem word?_toNat (w : Word) : (Datum.int w.toNat).word? = some w := by
  simp [BitVec.ofInt_natCast]

/-- The contract itself is not among the parameters. -/
theorem ne_self_of_argument (hread : f.Read) {i : Int} (h : Assoc.get? x (argMap f) = some i) :
    x ≠ "self" := by
  obtain ⟨l, params, body, decorators, rfl⟩ := hread
  obtain ⟨⟨y, j⟩, hj, heq⟩ := List.mem_map.mp (Assoc.mem_ofList (Assoc.mem_of_get? h))
  obtain ⟨rfl, -⟩ := Prod.mk.inj heq
  obtain ⟨p, hp, rfl⟩ := List.mem_map.mp (List.mem_of_getElem? (List.mem_zipIdx_iff_getElem?.mp hj))
  have hlisted := (List.mem_filter.mp hp).2
  simp only [Bool.and_eq_true, bne_iff_ne] at hlisted
  exact hlisted.2

theorem mirrors_callMachine (hread : f.Read) (data : List UInt8) (σ : Storage) :
    Mirrors (bodyScope c f) data σ (callMachine c f data σ) where
  contract := rfl
  held := by
    intro x slot hslot
    have hget := Assoc.get?_map_values (fun k => Datum.int (σ (slotWord k)).toNat) x c.slots
    have hslot : Assoc.get? x c.slots = some slot := hslot
    rw [hslot, Option.map_some] at hget
    rw [Machine.word?, callMachine, hget]
    exact word?_toNat _
  given := by
    intro x i hi
    have hget := Assoc.get?_map_values
      (fun k : Int => Datum.int (dataWord data (4 + 32 * k.toNat)).toNat) x (argMap f)
    have hi : Assoc.get? x (argMap f) = some i := hi
    have hself : ("self" == x) = false := by simpa using (ne_self_of_argument hread hi).symm
    rw [hi, Option.map_some] at hget
    simp only [callMachine, Assoc.get?, hself, Bool.false_eq_true, if_false, hget]
    exact word?_toNat _

theorem distinct_bodyScope (hc : Analyzed c) (hslots : c.slots.length < 65536) :
    (bodyScope c f).Distinct :=
  fun _ _ _ _ hx hy hne => slotWord_ne hc hslots hy hx hne

/-- **What a compiled function leaves.**  Whatever the other functions of the contract are, a
function that consists of rebindings returns, and leaves what its plain assignments store. -/
theorem halts_rebindings {e : Emitter} {k : Nat} {name : String} {rs : List Rebinding}
    (hgen : (emitContract c).run {} = .ok () e) (hk : c.dispatchable[k]? = some (name, f))
    (hS : (bodyScope c f).Fits) (hbody : f.body = rs.map Rebinding.stmt)
    (hrs : ∀ r ∈ rs, Rebinds (bodyScope c f) r) (hdata : data.length < 2 ^ 256) (st : State) :
    ∃ last, Halts ⟨e.runtime.toList, data, hdata⟩ (functionStart c k) (functionStart c (k + 1))
        ⟨functionStart c k, st⟩ (.returned (if f.isView then bytesOf 0 else [])) last ∧
      last.state.storage = storeRebindings (bodyScope c f) data st.storage
        (rs.filter Rebinding.isPlain) := by
  let env : Env := ⟨e.runtime.toList, data, hdata⟩
  obtain ⟨code, hcode, hnext, hstands⟩ :=
    function_stands hgen hk hS (hbody ▸ fits_rebindings hrs)
  obtain rfl : .op .jumpDest :: (rs.flatMap (rebindingCode (bodyScope c f)) ++ endingCode f) =
      code := by
    simpa [functionCode, hbody, stmtsCode_rebindings] using hcode
  have hret : f.body.any isReturn = false := by
    rw [hbody, List.any_eq_false]
    intro stmt hstmt
    obtain ⟨r, -, rfl⟩ := List.mem_map.mp hstmt
    cases r <;> simp [Rebinding.stmt, updates, isReturn]
  have hmoves : Moves env (.op .jumpDest :: rs.flatMap (rebindingCode (bodyScope c f))) st _ :=
    .cons (.op rfl) (moves_rebindings hS hrs st)
  have hat := hstands env rfl
  rw [← List.cons_append, assemble_append] at hat
  rw [← List.cons_append, codeSize_append, ← Nat.add_assoc] at hnext
  have hruns := hmoves _ (functionStart c (k + 1)) _ hat.left le_rfl (by omega)
  obtain ⟨last, hhalts, hstorage⟩ :=
    halts_endingCode_at hret hat.right (Nat.le_add_right _ _) hnext.ge _
  exact ⟨last, hruns.halts hhalts, hstorage⟩

end Calls

/-! ## Writes that are kept -/

/-- A variable that no rebinding in a list writes keeps its word. -/
theorem storeRebindings_untouched (hdistinct : S.Distinct) (hslot : S.slot? x = some slot)
    {rs : List Rebinding} (h : ∀ r ∈ rs, x ∉ r.targets) (data : List UInt8) (σ : Storage) :
    storeRebindings S data σ rs (slotWord slot) = σ (slotWord slot) := by
  induction rs generalizing σ with
  | nil => rfl
  | cons r rest ih =>
    have hfirst : storeRebinding S data σ r (slotWord slot) = σ (slotWord slot) := by
      rw [storeRebinding, storeAt_slot hdistinct hslot, if_neg (h r List.mem_cons_self)]
    exact (ih (fun r hr => h r (List.mem_cons_of_mem _ hr)) _).trans hfirst

/-- **Which writes are kept.**  Let a source be compiled, and let one of the functions that messages
can call consist of statements that rebind variables to arithmetic expressions: assignments, chains
of them, annotated assignments, and such that add to the old value or multiply it.  From its
`JUMPDEST`, for every storage and every message, the compiled function returns.  Afterwards each
variable has the word that running the plain assignments alone gives it.  These are the words that
running all statements gives to the variables they rebind iff both runs agree on them, and so they
are if all statements are plain assignments.  A variable that no plain assignment rebinds is left as
it was. -/
theorem writes_kept_iff {source name : String} {compiled : Compiled} {c : ContractState} {k : Nat}
    {f : Function} {rs : List Rebinding} (hok : (compile source).2.result = .ok compiled)
    (hcontract : (compile source).1.contract = c) (hk : c.dispatchable[k]? = some (name, f))
    (hbody : f.body = rs.map Rebinding.stmt) (hrs : ∀ r ∈ rs, Rebinds (bodyScope c f) r)
    (hargs : 4 + 32 * f.args.length < 2 ^ 256) (hdata : data.length < 2 ^ 256)
    (s : Setting) (w : Word) (m : Memory) (σ : Storage) :
    ∃ returned last full kept,
      Halts ⟨(compile source).1.runtime, data, hdata⟩ (functionStart c k) (functionStart c (k + 1))
        ⟨functionStart c k, ⟨[w], m, σ⟩⟩ (.returned returned) last ∧
      runBlock s f.body (callMachine c f data σ) = .ok .next full ∧
      runBlock s ((rs.filter Rebinding.isPlain).map Rebinding.stmt) (callMachine c f data σ) =
        .ok .next kept ∧
      (∀ x slot, Assoc.get? x c.slots = some slot →
        kept.word? x = some (last.state.storage (slotWord slot))) ∧
      ((∀ x slot, x ∈ rs.flatMap Rebinding.targets → Assoc.get? x c.slots = some slot →
          full.word? x = some (last.state.storage (slotWord slot))) ↔
        ∀ x ∈ rs.flatMap Rebinding.targets, full.word? x = kept.word? x) ∧
      ((∀ r ∈ rs, r.isPlain = true) → full = kept) ∧
      ∀ x slot, Assoc.get? x c.slots = some slot →
        (∀ r ∈ rs, x ∈ r.targets → r.isPlain = false) →
        last.state.storage (slotWord slot) = σ (slotWord slot) := by
  obtain ⟨statements, hsteps⟩ := compile_steps hok
  have hc := hsteps.contract_analyzed
  have hslots := hsteps.slots_lt
  have hgen := hsteps.generated
  rw [hcontract] at hc hslots hgen
  have hdistinct : (bodyScope c f).Distinct := distinct_bodyScope hc hslots
  have hmirrors := mirrors_callMachine (c := c) (hc.functionsRead (List.mem_of_getElem? hk)) data σ
  have hplain : ∀ r ∈ rs.filter Rebinding.isPlain, Rebinds (bodyScope c f) r :=
    fun r hr => hrs r (List.mem_filter.mp hr).1
  obtain ⟨full, hfull, -⟩ := run_rebindings (s := s) hdistinct hmirrors hrs
  obtain ⟨kept, hkept, hwords⟩ := run_rebindings (s := s) hdistinct hmirrors hplain
  obtain ⟨last, hhalts, hstorage⟩ := halts_rebindings hgen hk (bodyScope_fits hc hslots hargs)
    hbody hrs hdata ⟨[w], m, σ⟩
  have hheld : ∀ x slot, Assoc.get? x c.slots = some slot →
      kept.word? x = some (last.state.storage (slotWord slot)) := by
    intro x slot hslot
    rw [hstorage]
    exact hwords.held x slot hslot
  refine ⟨_, last, full, kept, hhalts, hbody ▸ hfull, hkept, hheld, ⟨?_, ?_⟩, ?_, ?_⟩
  · intro hright x hx
    obtain ⟨r, hr, hxr⟩ := List.mem_flatMap.mp hx
    obtain ⟨slot, hslot⟩ := Option.isSome_iff_exists.mp ((hrs r hr).slots x hxr)
    rw [hright x slot hx hslot, hheld x slot hslot]
  · intro hagree x slot hx hslot
    rw [hagree x hx, hheld x slot hslot]
  · intro hall
    rw [List.filter_eq_self.mpr hall] at hkept
    exact (EStateM.Result.ok.inj (hfull.symm.trans hkept)).2
  · intro x slot hslot hlost
    rw [hstorage]
    refine storeRebindings_untouched hdistinct hslot ?_ data σ
    intro r hr hxr
    obtain ⟨hmem, hisPlain⟩ := List.mem_filter.mp hr
    simp [hlost r hmem hxr] at hisPlain

/-! ## A till that does not count -/

/-- A till that is to keep the last amount and the sum of all. -/
def tillText : String :=
  "class Till(PySmartContract):\n" ++
  "    def open(self):\n" ++
  "        self.total = 0\n" ++
  "    @public_function\n" ++
  "    def take(self, amount: int):\n" ++
  "        self.last = amount\n" ++
  "        self.total += amount\n"

/-- What the second function rebinds. -/
def takeRebindings : List Rebinding :=
  [.assign "last" [] (.name "amount"), .augmented "total" .add (.name "amount")]

def take : Function where
  isPublic := true
  args := ["amount"]
  paramTypes := ["uint256"]
  body := takeRebindings.map Rebinding.stmt

/-- The first function, which messages cannot call. -/
def openTill : Function where
  body := [puts "total" (number 0)]

def tillStatements : List Stmt :=
  [.classDef "Till" [.name "PySmartContract"] []
    [.functionDef false "open" [⟨.regular, "self", none, none⟩] openTill.body [] none,
     .functionDef false "take"
        [⟨.regular, "self", none, none⟩, ⟨.regular, "amount", some (.name "int"), none⟩]
        take.body [.name "public_function"] none] []]

/-- The contract found in the source. -/
def tillContract : ContractState where
  slots := [("total", 0), ("last", 1)]
  initialValues := [("total", .int 0), ("last", .int 0)]
  functions := [("open", openTill), ("take", take)]

theorem read_till : readStatements tillText = some tillStatements :=
  readStatements_eq (by repeat' constructor) (by decide +kernel)

theorem contract_till :
    (({} : Analyzer).analyze tillStatements).1.layout.toState = tillContract := by cbv

theorem compile_till :
    ∃ r, (compile tillText).2.result = .ok r ∧ (compile tillText).1.contract = tillContract := by
  obtain ⟨r, hok, hcontract, -⟩ := exists_compiled read_till contract_till (by decide +kernel)
  exact ⟨r, hok, hcontract⟩

theorem rebinds_take : ∀ r ∈ takeRebindings, Rebinds (bodyScope tillContract take) r := by
  have hargument : Arithmetic (bodyScope tillContract take) (.name "amount") := rfl
  have htotal : Arithmetic (bodyScope tillContract take) (Simulation.field "total") := rfl
  simp only [takeRebindings, List.forall_mem_cons, List.not_mem_nil, false_implies, implies_true,
    and_true]
  exact ⟨⟨by simp [Rebinding.targets, bodyScope, tillContract, Assoc.get?], hargument⟩,
    ⟨by simp [Rebinding.targets, bodyScope, tillContract, Assoc.get?],
      .inl rfl, htotal, hargument⟩⟩

/-- The data of a message with an amount of five. -/
def takeFive : List UInt8 := [0, 0, 0, 0] ++ bytesOf 5

theorem takeFive_lt : takeFive.length < 2 ^ 256 := by
  simp [takeFive]

/-- Whatever was in the till, taking an amount leaves the total alone. -/
theorem total_kept_by_take :
    ∃ returned last,
      Halts ⟨(compile tillText).1.runtime, takeFive, takeFive_lt⟩ (functionStart tillContract 0)
        (functionStart tillContract 1)
        ⟨functionStart tillContract 0, ⟨[7], fun _ => 0, fun _ => 40⟩⟩ (.returned returned) last ∧
      last.state.storage (slotWord 0) = 40 := by
  obtain ⟨compiled, hok, hcontract⟩ := compile_till
  obtain ⟨returned, last, -, -, hhalts, -, -, -, -, -, hlost⟩ :=
    writes_kept_iff hok hcontract (rfl : tillContract.dispatchable[0]? = some ("take", take))
      (rfl : take.body = takeRebindings.map Rebinding.stmt) rebinds_take (by decide) takeFive_lt
      ⟨fun _ => none, fun _ _ => throw .unsupported⟩ 7 (fun _ => 0) (fun _ => 40)
  refine ⟨returned, last, hhalts, hlost "total" 0 rfl ?_⟩
  simp [takeRebindings, Rebinding.targets, Rebinding.isPlain]

/-- Running the function adds the amount to the total.  The compiled function returns as well, but
only the last amount is stored. -/
theorem taken_amount_not_added :
    ∃ compiled last, (compile tillText).2.result = .ok compiled ∧
      (compile tillText).1.contract = tillContract ∧
      tillContract.dispatchable[0]? = some ("take", take) ∧
      take.body = [puts "last" (.name "amount"), updates "total" .add (.name "amount")] ∧
      (∀ s : Setting, ∃ full,
        runBlock s take.body (callMachine tillContract take takeFive fun _ => 0) = .ok .next full ∧
        full.word? "last" = some 5 ∧ full.word? "total" = some 5) ∧
      Halts ⟨(compile tillText).1.runtime, takeFive, takeFive_lt⟩ (functionStart tillContract 0)
        (functionStart tillContract 1)
        ⟨functionStart tillContract 0, ⟨[7], fun _ => 0, fun _ => 0⟩⟩ (.returned []) last ∧
      last.state.storage (slotWord 1) = 5 ∧ last.state.storage (slotWord 0) = 0 := by
  obtain ⟨compiled, hok, hcontract⟩ := compile_till
  have hsteps := CompileSteps.of_read read_till hok
  have hc := hsteps.contract_analyzed
  have hslots := hsteps.slots_lt
  have hgen := hsteps.generated
  rw [hcontract] at hc hslots hgen
  obtain ⟨last, hhalts, hstorage⟩ := halts_rebindings hgen
    (rfl : tillContract.dispatchable[0]? = some ("take", take))
    (bodyScope_fits hc hslots (by decide)) (rfl : take.body = takeRebindings.map Rebinding.stmt)
    rebinds_take takeFive_lt ⟨[7], fun _ => 0, fun _ => 0⟩
  refine ⟨compiled, last, hok, hcontract, rfl, rfl, fun s => ?_, hhalts, ?_, ?_⟩
  · have hread := hc.functionsRead (List.mem_of_getElem?
      (rfl : tillContract.dispatchable[0]? = some ("take", take)))
    obtain ⟨full, hrun, hmirrors⟩ := run_rebindings (s := s) (distinct_bodyScope hc hslots)
      (mirrors_callMachine hread takeFive fun _ => 0) rebinds_take
    refine ⟨full, hrun, ?_, ?_⟩
    · rw [hmirrors.held "last" 1 rfl]
      rfl
    · rw [hmirrors.held "total" 0 rfl]
      rfl
  · rw [hstorage]
    rfl
  · rw [hstorage]
    rfl

end Evm

end ContractKit
