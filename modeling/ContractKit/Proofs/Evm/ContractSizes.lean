import ContractKit.Proofs.Evm.Creation

/-!
# Sizes of the code of a contract

The sizes of runtime code and creation code and all jump targets of the runtime code follow from
the contract alone.  Where all that the code pushes fits into words, generating it fails in one
case only: when a number has to be written in two bytes and does not fit.  That is so when there
are so many functions that the number standing for the target of the last of them is too big, when
a jump target is, and when the size of the creation code is.
-/

namespace ContractKit.Evm

open Source

variable {c : ContractState} {e : Emitter}

/-! ## The runtime code -/

/-- The number of bytes of the runtime code. -/
def runtimeSize (c : ContractState) : Nat :=
  functionsStart c + codeSize (functionListings c (functionsStart c) c.dispatchable).flatten

/-- The positions that the jumps of the runtime code lead to: the code that reverts, the functions
and what the branches in them lead to. -/
def jumpTargets (c : ContractState) : List Nat :=
  revertStart c :: (codeStarts (functionsStart c)
      (functionListings c (functionsStart c) c.dispatchable) ++
    branchTargets c (functionsStart c) c.dispatchable)

/-- Numbers of functions and jump targets for which runtime code can be written. -/
def RuntimeFits (c : ContractState) : Prop :=
  c.dispatchable.length < 4096 ∧ TargetsFit (jumpTargets c)

/-- Writing the runtime code fails only for the number of functions and for a jump target. -/
theorem emitRuntime_or (hS : ∀ entry ∈ c.dispatchable, (bodyScope c entry.2).Fits)
    (h : ∀ entry ∈ c.dispatchable, Pushables (parts entry.2.body))
    (hempty : e.current.size = 0) :
    (RuntimeFits c ∧ ∃ e', emitRuntime c e = .ok () e' ∧ e'.current.size = runtimeSize c ∧
      e'.other = e.other ∧ e'.region = e.region) ∨
    (¬RuntimeFits c ∧ ∃ e', emitRuntime c e = .error .wordTooBig e') := by
  simp only [RuntimeFits, TargetsFit, jumpTargets, List.forall_mem_cons, List.forall_mem_append]
  have hempty' : (e.dispatching c).current.size = 0 := hempty
  rcases turns_emitTests.or rfl hempty' with
    ⟨⟨hcount, hrevert⟩, e₁, htests, hw₁⟩ | ⟨hfit, e₁, hfail⟩
  case inr => exact .inr ⟨fun h => hfit ⟨h.1, h.2.1⟩, e₁, bind_of_error hfail⟩
  have hstart : e₁.current.size = functionsStart c := by
    rw [hw₁.codeSize, hempty', codeSize_dispatcherCode (length_placeholders c), Nat.zero_add]
  have hfunctions := (turns_emitFunctions hS (fun _ _ hn => (hn trivial).elim)
    fun entry he _ => h entry he).or (slot?_of_contract hw₁.contract) hstart
  rcases hfunctions with ⟨hbranches, e₂, hfunctions, hw₂⟩ | ⟨hfit, e₂, hfail⟩
  case inr =>
    exact .inr ⟨fun h => hfit h.2.2.2, e₂, (bind_of_ok htests).trans (bind_of_error hfail)⟩
  have hlength : (codeStarts (functionsStart c)
      (functionListings c (functionsStart c) c.dispatchable)).length = c.dispatchable.length :=
    length_emitFunctions hfunctions
  rcases patchTests_or hempty hlength (hw₁.trans hw₂) with
    ⟨hstarts, e₃, hpatches, hw₃⟩ | ⟨hfit, e₃, hfail⟩
  · refine .inl ⟨⟨hcount, hrevert, hstarts, hbranches⟩, e₃,
      (bind_of_ok htests).trans ((bind_of_ok hfunctions).trans hpatches), ?_, hw₃.other, hw₃.region⟩
    rw [hw₃.size, hempty', List.length_append, Nat.zero_add]
    exact congrArg (· + _) (codeSize_dispatcherCode hlength)
  · exact .inr ⟨fun h => hfit h.2.2.1, e₃,
      (bind_of_ok htests).trans ((bind_of_ok hfunctions).trans hfail)⟩

/-! ## The creation code -/

/-- The number of bytes of the creation code. -/
def creationSize (c : ContractState) : Nat :=
  codeSize (storesCode c c.slots ++
    copyCode (bigEndianBytes (byteLength (runtimeSize c)) (runtimeSize c)) runtimePlaceholder
      (runtimeSize c))

/-- What a first value that can be stored is pushed as. -/
theorem StorableValue.operand {v : Value} (h : StorableValue v) :
    ∃ n bytes, Evm.operand v none = .ok ⟨n, .ok bytes⟩ ∧ n ≤ 32 := by
  cases v with
  | int n => exact operand_of_pushable (v := .int n) h
  | bool b => exact operand_of_pushable (v := .bool b) h
  | bytes b => exact operand_of_pushable (v := .bytes b) h
  | dict entries =>
    obtain rfl : entries = [] := h
    exact ⟨0, [], rfl, Nat.zero_le _⟩
  | none | float _ | imaginary _ | text _ | list _ | ellipsis => exact h.elim

theorem turns_emitCopy {sound : Prop} {slot? : String → Option Int} {start size : Nat}
    (h : size < 2 ^ 256) :
    Turns sound slot? start [] (emitCopy size) ()
      (copyCode (bigEndianBytes (byteLength size) size) runtimePlaceholder size) True := by
  have hsize : (size : Int) < 2 ^ 256 := by exact_mod_cast h
  exact (Turns.int hsize fun _ => Int.natCast_nonneg size).seq <|
    (Turns.placeholder (by decide)).seq <| Turns.zero.seq <| (Turns.op _ _).seq <|
    (Turns.int hsize fun _ => Int.natCast_nonneg size).seq <| Turns.zero.seq <| .op _ _

/-- Where a placeholder stands behind some bytes, the position of the runtime code is written over
it or over one in these bytes, if that position fits into two bytes. -/
theorem patchRuntimeOffset_or {front push rest : List UInt8}
    (hcode : e.init.toList = front ++ push ++ placeholderBytes ++ rest) :
    (e.init.size < 65536 ∧ ∃ e', patchRuntimeOffset front.length e = .ok () e' ∧
      e'.init.size = e.init.size ∧ e'.runtime = e.runtime) ∨
    (¬e.init.size < 65536 ∧ patchRuntimeOffset front.length e = .error .wordTooBig e) := by
  have hlen := congrArg List.length hcode
  simp only [Array.length_toList, List.length_append, placeholderBytes, List.length_cons,
    List.length_nil] at hlen
  obtain ⟨i, hfound⟩ :
      ∃ i, findPlaceholder? e.init (e.init.size - front.length) front.length = some i := by
    obtain ⟨-, hfound⟩ | ⟨_, _, -, hfound⟩ := findPlaceholder?_behind hcode
      (show push.length < e.init.size - front.length by omega)
    · exact ⟨_, hfound⟩
    · exact ⟨_, hfound⟩
  by_cases hfits : e.init.size < 65536
  · obtain ⟨e', hok⟩ : ∃ e', patchRuntimeOffset front.length e = .ok () e' := by
      simp only [patchRuntimeOffset, hfound, toBytes_two, if_pos hfits]
      exact ⟨_, rfl⟩
    obtain ⟨-, hruntime, push', target, hinit, hpush', -⟩ := patched_of_ok hcode hok
    have hlen' := congrArg List.length hinit
    simp only [Array.length_toList, List.length_append, List.length_cons,
      length_bigEndianBytes, hpush'] at hlen'
    exact .inl ⟨hfits, e', hok, by omega, hruntime⟩
  · refine .inr ⟨hfits, ?_⟩
    simp only [patchRuntimeOffset, hfound, toBytes_two, if_neg hfits]

/-! ## The whole -/

/-- All that the code of a contract pushes fits into words. -/
structure FitsWords (c : ContractState) : Prop where
  scope : ∀ entry ∈ c.dispatchable, (bodyScope c entry.2).Fits
  literals : ∀ entry ∈ c.dispatchable, Pushables (parts entry.2.body)
  slots : ∀ entry ∈ c.slots, 0 ≤ entry.2 ∧ entry.2 < 2 ^ 256
  values : ∀ entry ∈ c.slots, StorableValue (c.initialValue entry.1)
  runtime : runtimeSize c < 2 ^ 256

/-- Contracts that are too big for code: they have at least as many functions as there are numbers
behind the one that stands for the first, a jump target that does not fit into two bytes, or a
creation code whose size does not. -/
def Oversized (c : ContractState) : Prop :=
  4096 ≤ c.dispatchable.length ∨ (∃ t ∈ jumpTargets c, 65535 < t) ∨ 65535 < creationSize c

instance (c : ContractState) : Decidable (Oversized c) :=
  inferInstanceAs (Decidable (_ ∨ _ ∨ _))

theorem not_oversized_iff : ¬Oversized c ↔ RuntimeFits c ∧ creationSize c < 65536 := by
  simp only [Oversized, RuntimeFits, TargetsFit, not_or, not_le, not_exists, not_and, not_lt,
    and_assoc, Nat.lt_succ_iff]

/-- Writing the creation code fails only for its size. -/
theorem emitInit_or (hc : FitsWords c) (hregion : e.region = .init) (hempty : e.init = #[]) :
    (creationSize c < 65536 ∧ ∃ e', emitInit c (runtimeSize c) e = .ok () e' ∧
      e'.init.size = creationSize c ∧ e'.runtime = e.runtime) ∨
    (¬creationSize c < 65536 ∧
      ∃ e', emitInit c (runtimeSize c) e = .error .wordTooBig e') := by
  -- Up to the position of the runtime code nothing can fail.
  obtain ⟨e₀, hreport⟩ :
      ∃ e₀, report "[blue]Generating initialization code...[/blue]" e = .ok () e₀ := ⟨_, rfl⟩
  obtain ⟨-, e₁, hstores, hw₁⟩ | ⟨hfalse, -⟩ := (turns_emitInitialStores
    (fun entry he => ⟨(hc.values entry he).fitsWord, (hc.slots entry he).2⟩)
    fun _ entry he => ⟨(hc.values entry he).operand, (hc.slots entry he).1⟩).or
      (e := e₀) rfl rfl
  case inr => exact (hfalse trivial).elim
  obtain ⟨-, e₂, hcopy, hw₂⟩ | ⟨hfalse, -⟩ := (turns_emitCopy hc.runtime).or (e := e₁) rfl rfl
  case inr => exact (hfalse trivial).elim
  have hw₁ := (wrote_report hreport).trans hw₁
  have hrun : emitInit c (runtimeSize c) e = patchRuntimeOffset e₁.init.size e₂ := by
    rw [emitInit_eq]
    exact (bind_of_ok hreport).trans <| (bind_of_ok hstores).trans <| (bind_of_ok rfl).trans <|
      bind_of_ok hcopy
  have hregion₁ : e₁.region = .init := hw₁.region.trans hregion
  have hregion₂ : e₂.region = .init := hw₂.region.trans hregion₁
  have hinit₂ : e₂.init.toList = e₁.init.toList ++ numberBytes (runtimeSize c) ++
      placeholderBytes ++ copyBytes (runtimeSize c) := by
    have hcurrent := hw₂.current
    rw [current_of_init hregion₁, current_of_init hregion₂,
      assemble_copyCode (by simpa using byteLength_le_word.mpr hc.runtime) hc.runtime,
      length_bigEndianBytes] at hcurrent
    rw [hcurrent]
    simp only [List.append_assoc]
    rfl
  have hsize : e₂.init.size = creationSize c := by
    rw [← current_of_init hregion₂, hw₂.codeSize, hw₁.size, current_of_init hregion, hempty,
      creationSize, codeSize_append]
    exact congrArg (· + _) (Nat.zero_add _)
  have hruntime : e₂.runtime = e.runtime := by
    rw [← other_of_init hregion₂, hw₂.other, hw₁.other]
    exact other_of_init hregion
  rw [hrun, ← hsize]
  rcases patchRuntimeOffset_or hinit₂ with ⟨hfits, e', hok, hsame, hkept⟩ | ⟨hfits, hfail⟩
  · exact .inl ⟨hfits, e', hok, hsame, hkept.trans hruntime⟩
  · exact .inr ⟨hfits, e₂, hfail⟩

/-- Generating the code of a contract for which all that is pushed fits into words fails only for
size. -/
theorem emitContract_or (hc : FitsWords c) :
    (¬Oversized c ∧ ∃ e, (emitContract c).run {} = .ok () e ∧
      e.code.length = creationSize c + runtimeSize c) ∨
    (Oversized c ∧ ∃ e, (emitContract c).run {} = .error .wordTooBig e) := by
  rw [run_emitContract]
  rcases emitRuntime_or (e := openedRuntime) hc.scope hc.literals rfl with
    ⟨hfits, e₁, hok, hsize, hother, hregion⟩ | ⟨hfits, e₁, hfail⟩
  case inr =>
    exact .inr ⟨by_contra fun h => hfits (not_oversized_iff.mp h).1, e₁, bind_of_error hfail⟩
  rw [bind_of_ok hok]
  simp only [Emitter.current, Emitter.other, hregion] at hsize hother
  have hrest : (do
      setRegion .init
      emitInit c (← get).runtime.size : Emit Unit) e₁ =
        emitInit c (runtimeSize c) { e₁ with region := .init } := by
    rw [← hsize]
    rfl
  rw [hrest]
  rcases emitInit_or hc (e := { e₁ with region := .init }) rfl hother with
    ⟨hcreation, e₂, hok, hlen, hruntime⟩ | ⟨hcreation, e₂, hfail⟩
  · refine .inl ⟨not_oversized_iff.mpr ⟨hfits, hcreation⟩, e₂, hok, ?_⟩
    rw [Emitter.code, List.length_append, Array.length_toList, Array.length_toList, hlen, hruntime,
      ← hsize]
    rfl
  · exact .inr ⟨by_contra fun h => hcreation (not_oversized_iff.mp h).2, e₂, hfail⟩

end ContractKit.Evm
