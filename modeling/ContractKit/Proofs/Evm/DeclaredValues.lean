import ContractKit.Proofs.Compiler
import ContractKit.Proofs.Evm.Creation
import ContractKit.Proofs.Simulation.Declarations
import ContractKit.Proofs.Source.SameTree

/-!
# Declared first values

A constructor declares variables with first values.  In a simulated contract they have
these values.  A created contract starts with zero in every slot: the analysis looks into
no call, so the creation code stores what it recorded, a zero.  The two agree on those
variables only that are declared with zero.
-/

namespace ContractKit.Evm

open Source Layout Simulation

variable {source : String}

/-! ## Creating -/

/-- Storing zeros in an empty storage leaves it empty. -/
theorem storedAll_zero {c : ContractState} {slots : List (String × Int)}
    (h : ∀ entry ∈ slots, c.initialValue entry.1 = .int 0) :
    storedAll c (fun _ => 0) slots = fun _ => 0 := by
  induction slots with
  | nil => rfl
  | cons entry rest ih =>
    obtain ⟨x, slot⟩ := entry
    have hset : Storage.set (fun _ => 0) (slotWord slot) (valueWord (c.initialValue x)) =
        fun _ => 0 := by
      funext w
      simp [Storage.set, h _ List.mem_cons_self, valueWord]
    have hrest := ih fun entry he => h entry (List.mem_cons_of_mem _ he)
    simpa only [storedAll, List.foldl_cons, hset] using hrest

theorem creation_of_declaring {s : DeclaringSource} {r : Compiled} {data : List UInt8}
    (hread : readStatements source = some s.statements) (hok : (compile source).2.result = .ok r)
    (hsize : r.code.length < 2 ^ 256) (hdata : data.length < 2 ^ 256) :
    ∃ returned last, Halts ⟨r.code, data, hdata⟩ 0 r.code.length ⟨0, ⟨[], fun _ => 0, fun _ => 0⟩⟩
        (.returned returned) last ∧ ∀ w, last.state.storage w = 0 := by
  have hsteps := CompileSteps.of_read hread hok
  have hzero : ∀ entry ∈ (compile source).1.contract.slots,
      (compile source).1.contract.initialValue entry.1 = .int 0 := fun entry _ =>
    (s.allZero hsteps.analyzed).initialValue entry.1
  obtain ⟨returned, last, hhalts, hstorage⟩ := creation_of_steps hsteps
    (fun entry he => by rw [hzero entry he]; exact ⟨by decide, by decide⟩) hsize hdata
    (fun _ => 0)
  rw [storedAll_zero hzero] at hstorage
  exact ⟨returned, last, hhalts, fun w => by rw [hstorage]⟩

theorem slot_of_declared {s : DeclaringSource} {r : Compiled}
    (hread : readStatements source = some s.statements) (hok : (compile source).2.result = .ok r)
    {d : String × Nat} (hd : d ∈ s.declared) :
    ∃ slot, Assoc.get? d.1 (compile source).1.slots = some slot := by
  have hsteps := CompileSteps.of_read hread hok
  exact Option.isSome_iff_exists.mp (s.has_slot hsteps.analyzed hd)

theorem zero_eq_ofNat_iff {n : Nat} (h : n < 2 ^ 256) :
    (0 : Word) = BitVec.ofNat 256 n ↔ n = 0 := by
  rw [← BitVec.toNat_inj, BitVec.toNat_ofNat, Nat.mod_eq_of_lt h]
  exact eq_comm

/-- **Declared first values.**  If a source in which a constructor declares variables is
compiled, its code creates a contract with an empty storage.  Every declared variable has a
slot, but what is found there is the declared value only if that is zero, whereas an instance
of the simulated class has the declared value in every case. -/
theorem declared_value_stored_iff_zero {s : DeclaringSource} {r : Compiled} {data : List UInt8}
    (hread : readStatements source = some s.statements) (hok : (compile source).2.result = .ok r)
    (hsize : r.code.length < 2 ^ 256) (hdata : data.length < 2 ^ 256) :
    ∃ returned last, Halts ⟨r.code, data, hdata⟩ 0 r.code.length ⟨0, ⟨[], fun _ => 0, fun _ => 0⟩⟩
        (.returned returned) last ∧
      (∀ w, last.state.storage w = 0) ∧
      (∀ d ∈ s.declared, ∃ slot, Assoc.get? d.1 (compile source).1.slots = some slot ∧
        (last.state.storage (BitVec.ofNat 256 slot) = BitVec.ofNat 256 d.2 ↔ d.2 = 0)) ∧
      (Simulable s → ∃ cls, Class.ofSource? s.name source = some cls ∧
        cls.instantiate.1 = .ok () ∧
        ∀ d ∈ s.declared, cls.instantiate.2.attribute? d.1 = some (.int d.2)) := by
  obtain ⟨returned, last, hhalts, hstorage⟩ := creation_of_declaring hread hok hsize hdata
  refine ⟨returned, last, hhalts, hstorage, ?_, ?_⟩
  · intro d hd
    obtain ⟨slot, hslot⟩ := slot_of_declared hread hok hd
    refine ⟨slot, hslot, ?_⟩
    rw [hstorage]
    exact zero_eq_ofNat_iff (s.inRange d hd)
  · intro h
    exact ⟨_, h.ofSource? hread, h.instantiate_ofBody⟩

/-! ## A contract that loses a value -/

/-- A source that declares one variable with five and one with zero. -/
def boxText : String :=
  "class Box(PySmartContract):\n" ++
  "    def __init__(self):\n" ++
  "        super().__init__()\n" ++
  "        self.n = self.state_var(\"n\", 5)\n" ++
  "        self.z = self.state_var(\"z\", 0)\n"

def box : DeclaringSource where
  name := "Box"
  bases := [.name "PySmartContract"]
  params := [⟨.regular, "self", none, none⟩]
  opening := [baseSetup]
  declared := [("n", 5), ("z", 0)]
  isContract := Eq.refl true
  distinct := by decide
  inRange := by decide
  quiet := by simp [outline, outlineOf, baseSetup]

theorem simulable_box : Simulable box where
  opens := rfl
  takesSelf := rfl
  lastConstructor := by decide
  declares := by decide
  lastClass := rfl
  free := by decide

-- Trees have no decidable equality.  The match says which tree it must be, so that the kernel
-- can compare.
theorem read_box : readStatements boxText = some box.statements :=
  readStatements_eq (by repeat' constructor) (by decide +kernel)

theorem compile_box :
    ∃ r, (compile boxText).2.result = .ok r ∧ r.code.length < 2 ^ 256 ∧
      (compile boxText).1.slots = [("n", 0), ("z", 1)] := by
  have heval : ((({} : Compiler).compileStatements box.statements).2.result.toOption.map
      fun r => r.code.length) = some 43 ∧
      (({} : Compiler).compileStatements box.statements).1.slots = [("n", 0), ("z", 1)] := by
    decide +kernel
  rw [compile_of_read read_box]
  cases hresult : (({} : Compiler).compileStatements box.statements).2.result with
  | error cause => simp [hresult, Except.toOption] at heval
  | ok r =>
    have hlength : r.code.length = 43 := by simpa [hresult, Except.toOption] using heval.1
    exact ⟨r, rfl, by rw [hlength]; decide, heval.2⟩

/-- The created contract has lost the five that the simulated one has. -/
theorem declared_five_is_lost :
    ∃ r returned last, (compile boxText).2.result = .ok r ∧
      Halts ⟨r.code, [], by decide⟩ 0 r.code.length ⟨0, ⟨[], fun _ => 0, fun _ => 0⟩⟩
        (.returned returned) last ∧
      Assoc.get? "n" (compile boxText).1.slots = some 0 ∧ last.state.storage 0 ≠ 5 ∧
      ∃ cls, Class.ofSource? "Box" boxText = some cls ∧
        cls.instantiate.2.attribute? "n" = some (.int 5) := by
  obtain ⟨r, hok, hsize, hslots⟩ := compile_box
  obtain ⟨returned, last, hhalts, hstorage⟩ :=
    creation_of_declaring read_box hok hsize (show ([] : List UInt8).length < 2 ^ 256 by decide)
  have hclass := simulable_box.ofSource? read_box
  have hvalue := simulable_box.instantiate_ofBody.2 ("n", 5) (by decide)
  refine ⟨r, returned, last, hok, hhalts, by rw [hslots]; rfl, ?_, _, hclass, hvalue⟩
  rw [hstorage]
  decide

/-- Of the two variables only the one declared with zero has its value. -/
theorem declared_value_stored_iff_zero_box :
    ∃ r returned last, (compile boxText).2.result = .ok r ∧
      Halts ⟨r.code, [], by decide⟩ 0 r.code.length ⟨0, ⟨[], fun _ => 0, fun _ => 0⟩⟩
        (.returned returned) last ∧
      (∃ slot, Assoc.get? "n" (compile boxText).1.slots = some slot ∧
        last.state.storage (BitVec.ofNat 256 slot) ≠ 5) ∧
      (∃ slot, Assoc.get? "z" (compile boxText).1.slots = some slot ∧
        last.state.storage (BitVec.ofNat 256 slot) = 0) ∧
      ∃ cls, Class.ofSource? "Box" boxText = some cls ∧ cls.instantiate.1 = .ok () ∧
        cls.instantiate.2.attribute? "n" = some (.int 5) := by
  obtain ⟨r, hok, hsize, -⟩ := compile_box
  obtain ⟨returned, last, hhalts, -, hdeclared, hsimulated⟩ :=
    declared_value_stored_iff_zero read_box hok hsize
      (show ([] : List UInt8).length < 2 ^ 256 by decide)
  obtain ⟨slot, hslot, hfive⟩ := hdeclared ("n", 5) (by decide)
  obtain ⟨slot', hslot', hzero⟩ := hdeclared ("z", 0) (by decide)
  obtain ⟨cls, hclass, hinstance, hvalues⟩ := hsimulated simulable_box
  exact ⟨r, returned, last, hok, hhalts, ⟨slot, hslot, fun h => by simpa using hfive.mp h⟩,
    ⟨slot', hslot', hzero.mpr rfl⟩, cls, hclass, hinstance, hvalues ("n", 5) (by decide)⟩

end ContractKit.Evm
