import ContractKit.Proofs.Evm.Charges

/-!
# What was written stays

An operation that fails leaves what it has written up to then.  A branch whose compilation ends
between its parts leaves jumps that go nowhere, for their targets are filled in at the end.
What stood in the code before is not affected by any of this: whichever way the compilation of
a statement ends, it has appended bytes to the code that is being written, may have charged
gas, and has left everything else as it was.

All of it is said from the moment `e₀` at which the statement begins.  A patch may go anywhere
behind what was written at `e₀`, and the positions that a branch reads, at whatever depth, lie
there because nothing that was written at `e₀` has gone since.
-/

namespace ContractKit.Evm

open Source

/-- The emitter that an operation leaves, whether it succeeds or fails. -/
def Emitter.after {α : Type} (e : Emitter) (x : Emit α) : Emitter :=
  match x e with
  | .ok _ e' => e'
  | .error _ e' => e'

@[simp] theorem Emitter.charge_zero (e : Emitter) : e.charge 0 = e := by
  simp [Emitter.charge]

/-- From the first emitter to the second nothing has happened but that bytes were appended to
the code that is being written and gas was charged. -/
structure Extended (e e' : Emitter) : Prop where
  wrote : ∃ bytes, Wrote e bytes e'
  gas : e.gas ≤ e'.gas

namespace Extended

variable {e₀ e : Emitter}

protected theorem refl (e : Emitter) : Extended e e := ⟨⟨[], .refl e⟩, Int.le_refl _⟩

theorem begins (h : Extended e₀ e) : e₀.current.toList <+: e.current.toList := by
  obtain ⟨bytes, hw⟩ := h.wrote
  exact ⟨bytes, hw.current.symm⟩

theorem size_le (h : Extended e₀ e) : e₀.current.size ≤ e.current.size := by
  simpa using h.begins.length_le

theorem append (h : Extended e₀ e) (bytes : List UInt8) {cost : Int} (hcost : 0 ≤ cost) :
    Extended e₀ ((e.append bytes).charge cost) := by
  obtain ⟨front, hw⟩ := h.wrote
  refine ⟨⟨front ++ bytes, hw.trans (wrote_append e bytes cost)⟩, ?_⟩
  simp only [Emitter.charge, e.gas_append]
  exact h.gas.trans (Int.le_add_of_nonneg_right hcost)

/-- Any code that begins with what was written at `e₀` may replace the code that is being
written. -/
theorem setCurrent (h : Extended e₀ e) {code : Code} (hcode : e₀.current.toList <+: code.toList) :
    Extended e₀ (e.setCurrent code) := by
  obtain ⟨bytes, hw⟩ := h.wrote
  obtain ⟨bytes', hcode⟩ := hcode
  exact ⟨⟨bytes', hw.setCurrent hcode.symm⟩, (e.gas_setCurrent code).symm ▸ h.gas⟩

end Extended

/-- A splice leaves what stands in front of its place. -/
theorem prefix_splice {code : Code} {front : List UInt8} {start : Int}
    (hfront : front <+: code.toList) (hstart : front.length ≤ start) (stop : Int)
    (bytes : List UInt8) : front <+: (splice code start stop bytes).toList := by
  have hsize : front.length ≤ code.size := by simpa using hfront.length_le
  have hle : front.length ≤ clampPosition code.size start := by
    simp only [clampPosition]
    split <;> omega
  have htake : front <+: (code.extract 0 (clampPosition code.size start)).toList := by
    simpa [List.prefix_take_iff] using ⟨hfront, hle⟩
  simp only [splice, Array.toList_append, List.append_assoc]
  exact htake.trans (List.prefix_append _ _)

/-- Operations that patch only behind what was written at `e₀` only extend it, whether they succeed
or fail.  By induction over how they are made. -/
theorem Charges.extended {S : String → Option Int} {front : Option Nat} {α : Type} {x : Emit α}
    {n : Int} (h : Charges S front x n) {e₀ e : Emitter} (hS : e₀.slot? = S)
    (hfront : front = some e₀.current.size) (he : Extended e₀ e) : Extended e₀ (e.after x) := by
  induction h generalizing e with
  | pure a => exact he
  | @bind α β x f n k _ _ ihx ihf =>
    have hfirst := ihx he
    simp only [Emitter.after, Bind.bind, EStateM.bind] at hfirst ⊢
    cases hxe : x e with
    | error fault e₁ => simpa only [hxe] using hfirst
    | ok a e₁ =>
      simp only [hxe] at hfirst
      exact ihf a hfirst
  | read _ _ ih =>
    obtain ⟨bytes, hw⟩ := he.wrote
    exact ih e (hw.slot?.trans hS) (by simpa [hfront] using he.size_le) he
  | op o hcost _ => exact he.append _ hcost
  -- A push that fails may have written its instruction.
  | push v size =>
    simp only [Emitter.after, emitPushSized]
    cases operand v size with
    | error fault => exact he
    | ok x =>
      dsimp only
      cases pushByte x.size with
      | error fault => exact he
      | ok o =>
        cases x.bytes with
        | error fault => simpa using he.append [o] (Int.le_refl 0)
        | ok bytes => exact he.append (o :: bytes) (show 0 ≤ pushCost by decide)
  | report line =>
    obtain ⟨bytes, hw⟩ := he.wrote
    exact ⟨⟨_, hw.trans (wrote_report rfl)⟩, he.gas⟩
  | patch position target size hpos =>
    simp only [Emitter.after, Evm.patch]
    cases toBytes target size with
    | error fault => exact he
    | ok bytes =>
      refine he.setCurrent (prefix_splice he.begins ?_ _ bytes)
      simpa using hpos _ hfront
  | setRegion _ hnone | patchRuntimeOffset _ hnone => simp [hfront] at hnone

/-- Compiling a statement only appends.  Whatever the two codes hold, whichever of them is being
written, and whether the compilation succeeds or fails: the other code is the same, what was
written is the beginning of what is written now, the region and the contract are the same, and
no gas was given back. -/
theorem compileStmt_only_appends (args : ArgMap) (s : Stmt) (e : Emitter) :
    (e.after (compileStmt args s)).other = e.other ∧
      e.current.toList <+: (e.after (compileStmt args s)).current.toList ∧
      (e.after (compileStmt args s)).region = e.region ∧
      (e.after (compileStmt args s)).contract = e.contract ∧
      e.gas ≤ (e.after (compileStmt args s)).gas := by
  obtain ⟨n, hcharges⟩ := (charges_compile _ _ args).1 s
  have hextended := hcharges.extended rfl rfl (.refl e)
  obtain ⟨_, hw⟩ := hextended.wrote
  exact ⟨hw.other, hextended.begins, hw.region, hw.contract, hextended.gas⟩

-- The body of this branch cannot be compiled, for it returns nothing that can be pushed.  The
-- placeholder of the first jump stays behind the byte that was there.
example :
    (({ runtime := #[0x5b], region := .runtime "runtime" } : Emitter).after (compileStmt []
      (.ifThen (.name "x") [.ret (some (.literal .none))] []))).runtime.toList =
      [0x5b, 0x60, 0x00, 0x15, 0x61, 0xff, 0xfe, 0x57] := by
  decide +kernel

end ContractKit.Evm
