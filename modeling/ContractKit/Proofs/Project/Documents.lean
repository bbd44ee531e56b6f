import ContractKit.Proofs.Evm.Aliasing
import ContractKit.Proofs.Evm.Estimate
import ContractKit.Proofs.Json.RoundTrip
import ContractKit.Proofs.Layout.Reanalysis
import ContractKit.Proofs.Project.PythonBuild

/-!
# What is kept of a contract can be read

The documents that are kept of a compiled contract are read as they were written: names of fields
are different, for no variable has two slots, and the only integers are slots and the estimate,
which have few digits.
-/

namespace ContractKit

/-! ## Interfaces -/

theorem Json.readableItems_map {α : Type} {f : α → Json} {xs : List α}
    (h : ∀ x ∈ xs, Json.Readable (f x)) : Json.ReadableItems (xs.map f) := by
  induction xs with
  | nil => trivial
  | cons x xs ih =>
    exact ⟨h x List.mem_cons_self, ih fun y hy => h y (List.mem_cons_of_mem _ hy)⟩

theorem Json.readableFields_map {α : Type} {f : α → String × Json} {xs : List α}
    (h : ∀ x ∈ xs, Json.Readable (f x).2) : Json.ReadableFields (xs.map f) := by
  induction xs with
  | nil => trivial
  | cons x xs ih =>
    exact ⟨h x List.mem_cons_self, ih fun y hy => h y (List.mem_cons_of_mem _ hy)⟩

theorem readable_typedName (p : TypedName) : Json.Readable p.toJson := by
  simp [TypedName.toJson, Json.Readable, Json.ReadableFields, Assoc.keys]

theorem readable_entry (entry : InterfaceEntry) : Json.Readable entry.toJson := by
  cases entry with
  | constructor =>
    simp [InterfaceEntry.toJson, Json.Readable, Json.ReadableFields, Json.ReadableItems,
      Assoc.keys]
  | function name inputs outputs isView =>
    have hnames : ∀ ps : List TypedName, Json.ReadableItems (ps.map TypedName.toJson) :=
      fun ps => Json.readableItems_map fun p _ => readable_typedName p
    simp [InterfaceEntry.toJson, Json.Readable, Json.ReadableFields, Assoc.keys, hnames]
  | event name params =>
    simp only [InterfaceEntry.toJson, Json.Readable, Json.ReadableFields, Assoc.keys]
    refine ⟨by simp, trivial, trivial, Json.readableItems_map fun i _ => ?_, trivial⟩
    simp [Json.Readable, Json.ReadableFields, Assoc.keys]

theorem readable_interface (i : Interface) : Json.Readable i.toJson :=
  Json.readableItems_map fun entry _ => readable_entry entry

/-! ## What is recorded of a source -/

namespace CompileSteps

variable {source : String} {statements : List Source.Stmt} {r : Compiled}

theorem nodup_slots (h : CompileSteps source statements r) :
    (Assoc.keys (compile source).1.slots).Nodup := by
  have hkeys := Analyzer.growsBy_variable.walk (congrArg Prod.snd h.analyzed)
  rw [← Analyzer.analyze, h.analyzed] at hkeys
  exact hkeys ▸ Assoc.nodup_grow List.nodup_nil

/-- A slot is an integer that can be read again. -/
theorem length_slot_le (h : CompileSteps source statements r) {entry : String × Nat}
    (hentry : entry ∈ (compile source).1.slots) :
    (Nat.toDigits 10 entry.2).length ≤ Json.maxDigits := by
  have hmem : (entry.1, (entry.2 : Int)) ∈ (compile source).1.contract.slots :=
    List.mem_map_of_mem (f := fun entry : String × Nat => (entry.1, (entry.2 : Int))) hentry
  have hslot := h.contract_analyzed.slot_lt hmem
  have hslots := h.slots_lt
  rw [Nat.length_toDigits_le_iff (by omega) (by decide)]
  calc entry.2 < 10 ^ 5 := by omega
    _ ≤ 10 ^ Json.maxDigits := Nat.pow_le_pow_right (by omega) (by decide)

/-- What is recorded of a compiled source is read as it was written. -/
theorem readable_metadata (h : CompileSteps source statements r) :
    Json.Readable (r.metadata (compile source).1.slots) := by
  have hfields : Json.Readable
      (.obj ((compile source).1.slots.map fun entry => (entry.1, Json.int entry.2))) := by
    refine ⟨?_, Json.readableFields_map fun entry hentry => ?_⟩
    · have hkeys := h.nodup_slots
      simpa [Assoc.keys, Function.comp_def] using hkeys
    · exact h.length_slot_le hentry
  have hfunctions : Json.ReadableItems (r.functions.map .str) :=
    Json.readableItems_map fun _ _ => trivial
  exact ⟨by simp [Assoc.keys], trivial, trivial, h.length_gas_le, hfields, hfunctions, trivial⟩

end CompileSteps

/-! ## The documents of contracts -/

namespace Project

variable {text : String} {c : CompiledSource}

theorem compile_of_compiledSource (h : compiledSource text = .ok c) :
    (compile text).2.result = .ok c.compiled ∧ c.slots = (compile text).1.slots := by
  unfold compiledSource at h
  split at h
  case h_1 compiled hresult =>
    obtain rfl := Except.ok.inj h
    exact ⟨hresult, rfl⟩
  · simp at h
  · simp at h

theorem readable_pythonDocument (h : compiledSource text = .ok c) (name file : String) :
    Json.Readable (pythonDocument name file c) := by
  obtain ⟨hresult, hslots⟩ := compile_of_compiledSource h
  obtain ⟨statements, hsteps⟩ := compile_steps hresult
  have hmetadata : Json.Readable (c.compiled.metadata c.slots) := by
    rw [hslots]
    exact hsteps.readable_metadata
  have hcompiler : Json.Readable
      (.obj [("type", .str "python-transpiler"), ("version", .str compilerVersion)]) := by
    simp [Json.Readable, Json.ReadableFields, Assoc.keys]
  exact ⟨by simp [Assoc.keys], trivial, trivial, readable_interface _, trivial, hmetadata,
    hcompiler, trivial⟩

theorem not_mem_codeText (r : Compiled) : '\r' ∉ r.codeText.toList := by
  have hdigit : ∀ d < 16, Nat.digitChar d ≠ '\r' := by decide
  have hbyte : ∀ b : UInt8, '\r' ∉ Text.hexPadded 2 b.toNat := by
    intro b hb
    have hlt := b.toNat_lt
    rw [Text.hexPadded_succ, Text.hexPadded_one (by omega)] at hb
    simp only [List.cons_append, List.nil_append, List.mem_cons, List.not_mem_nil, or_false] at hb
    rcases hb with hb | hb
    · exact hdigit _ (by omega) hb.symm
    · exact hdigit _ (by omega) hb.symm
  simp [Compiled.codeText, Evm.hexText, hbyte]

end Project

end ContractKit
