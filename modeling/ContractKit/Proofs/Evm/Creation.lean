import ContractKit.Proofs.Compiler
import ContractKit.Proofs.Evm.Body
import ContractKit.Proofs.Evm.Runtime

/-!
# Creating a contract

Run on an empty storage, the creation code stores the first value of every variable in its
slot and nothing else, and returns the runtime code.  That no two variables share a slot is
needed here: a later store would undo an earlier one.

The bytes that are returned are those of the runtime code unless the instruction that pushes
their number looks like the one that stands for their position.
-/

namespace ContractKit.Evm

variable {slots : List (String × Int)} {v : Value}

variable {c : ContractState} {e : Emitter}

/-! ## First values -/

/-- The word of a first value: of bytes the number they stand for, of a dictionary zero. -/
def valueWord : Value → Word
  | .int n => BitVec.ofInt 256 n
  | .bool b => flag (b = true)
  | .bytes b => wordOf b
  | _ => 0

/-- First values that a word can hold: integers and truth values, bytes, and the dictionary
without entries. -/
def StorableValue : Value → Prop
  | .int n => 0 ≤ n ∧ n < 2 ^ 256
  | .bool _ => True
  | .bytes b => b.length ≤ 32
  | .dict entries => entries = []
  | _ => False

instance : DecidablePred StorableValue
  | .int n => inferInstanceAs (Decidable (0 ≤ n ∧ n < 2 ^ 256))
  | .bool _ => .isTrue trivial
  | .bytes b => inferInstanceAs (Decidable (b.length ≤ 32))
  | .dict entries => inferInstanceAs (Decidable (entries = []))
  | .none | .float _ | .imaginary _ | .text _ | .list _ | .ellipsis => .isFalse id

namespace StorableValue

theorem fitsWord (h : StorableValue v) : v.FitsWord := by
  cases v with
  | int n => exact h.2
  | bool b => trivial
  | bytes b => exact h
  | dict entries =>
    obtain rfl : entries = [] := h
    simp [Value.FitsWord]
  | none | float _ | imaginary _ | text _ | list _ | ellipsis => exact h.elim

theorem length_pushedBytes (h : StorableValue v) : (pushedBytes v).length ≤ 32 := by
  cases v with
  | int n =>
    obtain ⟨hpos, hlt⟩ := h
    obtain ⟨k, rfl⟩ := Int.eq_ofNat_of_zero_le hpos
    have hk : k < 2 ^ 256 := by omega
    rw [pushedBytes_int hk, length_bigEndianBytes]
    exact byteLength_le_word.mpr hk
  | bool b => cases b <;> decide
  | bytes b => exact h
  | dict entries =>
    obtain rfl : entries = [] := h
    decide
  | none | float _ | imaginary _ | text _ | list _ | ellipsis => exact h.elim

theorem wordOf_pushedBytes (h : StorableValue v) : wordOf (pushedBytes v) = valueWord v := by
  cases v with
  | int n =>
    obtain ⟨hpos, hlt⟩ := h
    obtain ⟨k, rfl⟩ := Int.eq_ofNat_of_zero_le hpos
    rw [pushedBytes_int (by omega), wordOf_minimal, valueWord, BitVec.ofInt_natCast]
  | bool b => cases b <;> rfl
  | bytes b => rfl
  | dict entries =>
    obtain rfl : entries = [] := h
    rfl
  | none | float _ | imaginary _ | text _ | list _ | ellipsis => exact h.elim

end StorableValue

/-! ## Stores -/

/-- The storage after the first values of variables have been stored. -/
def storedAll (c : ContractState) (σ : Storage) (slots : List (String × Int)) : Storage :=
  slots.foldl (fun σ (x, slot) => σ.set (slotWord slot) (valueWord (c.initialValue x))) σ

theorem executes_storesCode {env : Env}
    (hvalue : ∀ entry ∈ slots, StorableValue (c.initialValue entry.1))
    (hslot : ∀ entry ∈ slots, 0 ≤ entry.2 ∧ entry.2 < 2 ^ 256) (stack : List Word) (m : Memory)
    (σ : Storage) :
    Executes env (storesCode c slots) ⟨stack, m, σ⟩ ⟨stack, m, storedAll c σ slots⟩ := by
  induction slots generalizing σ with
  | nil => exact .nil _
  | cons entry rest ih =>
    obtain ⟨x, slot⟩ := entry
    have hfirst := hvalue _ List.mem_cons_self
    have hpush : Executes env _ _ _ := .ofBytes hfirst.length_pushedBytes stack m σ
    rw [hfirst.wordOf_pushedBytes] at hpush
    have hslotPush : Executes env _ _ _ := executes_slotWord (hslot _ List.mem_cons_self)
      (valueWord (c.initialValue x) :: stack) m σ
    have hrest := ih (fun entry he => hvalue entry (List.mem_cons_of_mem _ he))
      (fun entry he => hslot entry (List.mem_cons_of_mem _ he))
      (σ.set (slotWord slot) (valueWord (c.initialValue x)))
    exact (hpush.cons (hslotPush.cons (.op rfl))).append hrest

/-- A slot of no variable is left alone. -/
theorem storedAll_other {w : Word} (h : ∀ entry ∈ slots, slotWord entry.2 ≠ w) (σ : Storage) :
    storedAll c σ slots w = σ w := by
  induction slots generalizing σ with
  | nil => rfl
  | cons entry rest ih =>
    obtain ⟨x, slot⟩ := entry
    have hset : σ.set (slotWord slot) (valueWord (c.initialValue x)) w = σ w :=
      if_neg (h _ List.mem_cons_self).symm
    exact (ih (fun entry he => h entry (List.mem_cons_of_mem _ he)) _).trans hset

/-- In the slot of a variable its first value is found, if no other variable has that slot. -/
theorem storedAll_slot {entry : String × Int}
    (hdistinct : (slots.map fun entry => slotWord entry.2).Nodup) (hentry : entry ∈ slots)
    (σ : Storage) :
    storedAll c σ slots (slotWord entry.2) = valueWord (c.initialValue entry.1) := by
  induction slots generalizing σ with
  | nil => simp at hentry
  | cons first rest ih =>
    obtain ⟨hnew, hrest⟩ := List.nodup_cons.mp hdistinct
    rcases List.mem_cons.mp hentry with rfl | hmem
    · obtain ⟨x, slot⟩ := entry
      have hkept : ∀ other ∈ rest, slotWord other.2 ≠ slotWord slot := fun other hother heq =>
        hnew (List.mem_map.mpr ⟨other, hother, heq⟩)
      exact (storedAll_other hkept _).trans (if_pos rfl)
    · exact ih hrest hmem _

/-- Slots of an analyzed contract are told apart by their words. -/
theorem nodup_slotWords (hc : Analyzed c) (hslots : c.slots.length < 65536) :
    (c.slots.map fun entry => slotWord entry.2).Nodup := by
  have hwords : (c.slots.map fun entry => slotWord entry.2) =
      (List.range c.slots.length).map (BitVec.ofNat 256) := by
    have hvalues := congrArg (List.map slotWord) hc.slots_eq_range
    simpa [Assoc.values, slotWord, Function.comp_def] using hvalues
  rw [hwords]
  refine List.nodup_range.map_on ?_
  intro i hi j hj heq
  have hi' := List.mem_range.mp hi
  have hj' := List.mem_range.mp hj
  have hnat := congrArg BitVec.toNat heq
  simp only [BitVec.toNat_ofNat] at hnat
  omega

/-! ## Copying the runtime code -/

/-- Copying and returning code.  The size that is copied may differ from that returned. -/
theorem halts_copyCode {env : Env} {lo hi pc target size : Nat} {bytes : List UInt8}
    (hbytes : bytes.length ≤ 32) (htarget : target < 65536) (hsize : size < 2 ^ 256)
    (hspan : Spans env lo hi pc (copyCode bytes target size)) (m : Memory) (σ : Storage) :
    ∃ last, Halts env lo hi ⟨pc, ⟨[], m, σ⟩⟩
        (.returned ((m.write 0 (slice env.code target (wordOf bytes).toNat)).read 0 size)) last ∧
      last.state.storage = σ := by
  generalize hcopied : slice env.code target (wordOf bytes).toNat = copied
  have hcopy : Executes env [.op .codeCopy]
      ⟨[0, wordOf (bigEndianBytes 2 target), wordOf bytes], m, σ⟩ ⟨[], m.write 0 copied, σ⟩ := by
    have hexec := execute_codeCopy env [] m σ 0 (wordOf (bigEndianBytes 2 target)) (wordOf bytes)
    rw [toNat_target htarget, hcopied] at hexec
    exact .op hexec
  have hpushes : Executes env [.ofBytes bytes, .pushTarget target, .pushNat 0] ⟨[], m, σ⟩
      ⟨[0, wordOf (bigEndianBytes 2 target), wordOf bytes], m, σ⟩ :=
    .cons (.ofBytes hbytes _ _ _) (.cons (.push _ _ _) (executes_zero _ _ _))
  have hagain : Executes env [.pushNat size, .pushNat 0] ⟨[], m.write 0 copied, σ⟩
      ⟨[0, BitVec.ofNat 256 size], m.write 0 copied, σ⟩ :=
    .cons (.pushNat hsize _ _ _) (executes_zero _ _ _)
  have hexec : Executes env ([Instr.ofBytes bytes, .pushTarget target, .pushNat 0] ++
      [Instr.op .codeCopy] ++ [Instr.pushNat size, .pushNat 0]) ⟨[], m, σ⟩
      ⟨[0, BitVec.ofNat 256 size], m.write 0 copied, σ⟩ := (hpushes.append hcopy).append hagain
  have hret := execute_return env [] (m.write 0 copied) σ 0 (BitVec.ofNat 256 size)
  rw [BitVec.toNat_ofNat, Nat.mod_eq_of_lt hsize] at hret
  exact ⟨_, hexec.halts hspan hret, rfl⟩

/-- Some bytes behind others, as a whole. -/
theorem slice_append_right (front back : List UInt8) :
    slice (front ++ back) front.length back.length = back := by
  apply List.ext_getElem
  · simp [slice]
  · intro i _ hi
    simp [slice, List.getD_eq_getElem?_getD, hi]

/-! ## The whole -/

/-- The creation code generated for an analyzed contract stores first values, whatever it
returns. -/
theorem creation_halts (hc : Analyzed c) (hgen : (emitContract c).run {} = .ok () e)
    (hvalue : ∀ entry ∈ c.slots, StorableValue (c.initialValue entry.1))
    (hsize : e.runtime.size < 2 ^ 256) {data : List UInt8} (hdata : data.length < 2 ^ 256)
    (m : Memory) (σ : Storage) :
    ∃ returned last, Halts ⟨e.code, data, hdata⟩ 0 e.init.size ⟨0, ⟨[], m, σ⟩⟩
        (.returned returned) last ∧ last.state.storage = storedAll c σ c.slots ∧
      (¬placeholderBytes <:+: numberBytes e.runtime.size → returned = e.runtime.toList) := by
  obtain ⟨e₁, hruntime, hinit⟩ := emitContract_steps hgen
  obtain ⟨hslots, hkeep⟩ := slots_lt_of_emitInit rfl hinit
  have hkeep : e.runtime = e₁.runtime := hkeep
  have hempty : ({ e₁ with region := .init } : Emitter).init = #[] := by
    obtain ⟨_, _, _, _, hsteps⟩ := emitRuntime_steps rfl hruntime
    simpa [Emitter.other, hsteps.region, openedRuntime] using hsteps.other
  have hslot : ∀ entry ∈ c.slots, 0 ≤ entry.2 ∧ entry.2 < 2 ^ 256 := by
    intro entry he
    have hlt := hc.slot_lt he
    omega
  rw [hkeep] at hsize
  obtain ⟨bytes, target, hbytes, htarget, hcode, hfree⟩ := listing_of_emitInit rfl hempty hsize
    (fun entry he => ⟨(hvalue entry he).fitsWord, (hslot entry he).2⟩) hinit
  let env : Env := ⟨e.code, data, hdata⟩
  have hspan : Spans env 0 e.init.size 0
      (storesCode c c.slots ++ copyCode bytes target e₁.runtime.size) := by
    refine ⟨⟨[], e.runtime.toList, ?_, rfl⟩, le_rfl, ?_⟩
    · show e.code = _
      rw [Emitter.code, hcode]
      rfl
    · rw [codeSize, ← hcode]
      simp
  have hstores := executes_storesCode hvalue hslot [] m σ 0 e.init.size 0 hspan.left
  obtain ⟨last, hhalts, hstorage⟩ :=
    halts_copyCode hbytes htarget hsize hspan.right m (storedAll c σ c.slots)
  refine ⟨_, last, hstores.halts hhalts, hstorage, fun h => ?_⟩
  rw [hkeep] at h
  obtain ⟨rfl, rfl⟩ := hfree h
  have hcopied : (wordOf (bigEndianBytes (byteLength e₁.runtime.size) e₁.runtime.size)).toNat =
      e.runtime.toList.length := by
    rw [wordOf_minimal, BitVec.toNat_ofNat, Nat.mod_eq_of_lt hsize, Array.length_toList, hkeep]
  have hslice := slice_append_right e.init.toList e.runtime.toList
  rw [Array.length_toList, ← Emitter.code] at hslice
  rw [hcopied, hslice, ← hkeep, ← Array.length_toList]
  exact m.read_write 0 e.runtime.toList

/-- The code that a source is compiled to stores the first values of its contract. -/
theorem creation_of_steps {source : String} {statements : List Source.Stmt} {r : Compiled}
    {data : List UInt8} (hsteps : CompileSteps source statements r)
    (hvalue : ∀ entry ∈ (compile source).1.contract.slots,
      StorableValue ((compile source).1.contract.initialValue entry.1))
    (hsize : r.code.length < 2 ^ 256) (hdata : data.length < 2 ^ 256) (σ : Storage) :
    ∃ returned last, Halts ⟨r.code, data, hdata⟩ 0 r.code.length ⟨0, ⟨[], fun _ => 0, σ⟩⟩
        (.returned returned) last ∧
      last.state.storage =
        storedAll (compile source).1.contract σ (compile source).1.contract.slots := by
  have hlength : (compile source).1.emitter.init.size + (compile source).1.emitter.runtime.size =
      (compile source).1.emitter.code.length := by
    simp [Emitter.code]
  rw [hsteps.code] at hsize ⊢
  obtain ⟨returned, last, hhalts, hstorage, -⟩ := creation_halts hsteps.contract_analyzed
    hsteps.generated hvalue (by omega) hdata (fun _ => 0) σ
  exact ⟨returned, last, hhalts.mono (by omega), hstorage⟩

/-- **Creating a contract.**  The code generated for an analyzed contract whose first values
are storable returns the runtime code if it is run on an empty storage, and leaves in the
slot of each variable its first value and in every other slot zero.  The size of the runtime
code must be a number for which there is an instruction to push it, and this instruction
must not look like the placeholder for the position. -/
theorem creation_installs {data : List UInt8} (hc : Analyzed c)
    (hgen : (emitContract c).run {} = .ok () e)
    (hvalues : ∀ entry ∈ c.initialValues, StorableValue entry.2)
    (hsize : e.runtime.size < 2 ^ 256)
    (hfree : ¬[0x61, 0xDE, 0xAD] <:+: (Instr.pushNat e.runtime.size).encode)
    (hdata : data.length < 2 ^ 256) :
    ∃ last, Halts ⟨e.code, data, hdata⟩ 0 e.init.size ⟨0, ⟨[], fun _ => 0, fun _ => 0⟩⟩
        (.returned e.runtime.toList) last ∧
      (∀ entry ∈ c.slots,
        last.state.storage (slotWord entry.2) = valueWord (c.initialValue entry.1)) ∧
      ∀ w, (∀ entry ∈ c.slots, slotWord entry.2 ≠ w) → last.state.storage w = 0 := by
  have hvalue : ∀ entry ∈ c.slots, StorableValue (c.initialValue entry.1) := by
    intro entry _
    cases hget : Assoc.get? entry.1 c.initialValues with
    | none => simp [ContractState.initialValue, hget, StorableValue]
    | some v =>
      simpa [ContractState.initialValue, hget] using hvalues _ (Assoc.mem_of_get? hget)
  obtain ⟨returned, last, hhalts, hstorage, hreturned⟩ :=
    creation_halts hc hgen hvalue hsize hdata (fun _ => 0) (fun _ => 0)
  rw [encode_pushNat hsize] at hfree
  rw [hreturned hfree] at hhalts
  obtain ⟨e₁, -, hinit⟩ := emitContract_steps hgen
  have hdistinct := nodup_slotWords hc (slots_lt_of_emitInit rfl hinit).1
  refine ⟨last, hhalts, fun entry he => ?_, fun w hw => ?_⟩
  · rw [hstorage]
    exact storedAll_slot hdistinct he _
  · rw [hstorage]
    exact storedAll_other hw _

open Source in
/-- A body that gives a variable a first value of each kind. -/
def vaultBody : List Stmt :=
  [.assign [.attribute (.name "self") "limit"] (.literal (.int 258)),
   .assign [.attribute (.name "self") "open"] (.literal (.bool true)),
   .assign [.attribute (.name "self") "mark"] (.literal (.bytes [1, 2])),
   .assign [.attribute (.name "self") "held"] (.dict [])]

open Source in
def vaultSource : List Stmt :=
  [.classDef "Vault" [.name "PySmartContract"] []
    [.functionDef false "setup" [⟨.regular, "self", none, none⟩] vaultBody [] none] []]

def vault : ContractState where
  slots := [("limit", 0), ("open", 1), ("mark", 2), ("held", 3)]
  initialValues :=
    [("limit", .int 258), ("open", .bool true), ("mark", .bytes [1, 2]), ("held", .dict [])]
  functions := [("setup", { body := vaultBody })]

/-- A contract is created with one variable of each kind. -/
theorem creation_installs_vault :
    ∃ e, (emitContract vault).run {} = .ok () e ∧
      ∃ last, Halts ⟨e.code, [], by decide⟩ 0 e.init.size ⟨0, ⟨[], fun _ => 0, fun _ => 0⟩⟩
          (.returned e.runtime.toList) last ∧
        last.state.storage 0 = 258 ∧ last.state.storage 1 = 1 ∧ last.state.storage 2 = 258 ∧
        last.state.storage 3 = 0 ∧ last.state.storage 4 = 0 := by
  have hanalyzed : Analyzed vault := by
    have hstate : (({} : Analyzer).analyze vaultSource).1.layout.toState = vault := by cbv
    exact hstate ▸ .of_fresh (by cbv)
  have hruntime : runtimeSize? vault = some 20 := by decide +kernel
  obtain ⟨e, hgen⟩ := exists_of_runtimeSize? (by rw [hruntime]; rfl)
  have hsize : e.runtime.size = 20 := Option.some.inj ((runtimeSize?_eq hgen).symm.trans hruntime)
  have hvalues : ∀ entry ∈ vault.initialValues, StorableValue entry.2 := by
    simp [vault, StorableValue]
  obtain ⟨last, hhalts, hslots, hother⟩ := creation_installs hanalyzed hgen hvalues
    (by rw [hsize]; decide) (by rw [hsize]; decide +kernel)
    (show ([] : List UInt8).length < 2 ^ 256 by decide)
  refine ⟨e, hgen, last, hhalts, hslots ("limit", 0) (by decide), hslots ("open", 1) (by decide),
    hslots ("mark", 2) (by decide), hslots ("held", 3) (by decide), hother 4 (by decide)⟩

end ContractKit.Evm
