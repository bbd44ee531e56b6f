import ContractKit.Proofs.Evm.Body
import ContractKit.Proofs.Evm.Runtime

/-!
# The dispatcher finds the function that is meant

A message means the first function whose selector its data begin with.  The runtime code
leads a message to the code of the function it means, with the selector on the stack and
everything else as it was; a message that means none, because it is too short or because no
selector fits, it reverts.
-/

namespace ContractKit.Evm

variable {c : ContractState} {env : Env} {lo hi pc : Nat} (m : Memory) (σ : Storage)

/-- The place of the function that a message means among those that messages can call. -/
def routed? (c : ContractState) (data : List UInt8) : Option Nat :=
  if data.length < 4 then none
  else c.dispatchable.findIdx? fun (name, f) => Hash.selector (f.signature name) == data.take 4

/-! ## Selectors as words -/

theorem slice_zero_of_le {data : List UInt8} {size : Nat} (h : size ≤ data.length) (more : Nat) :
    slice data 0 (size + more) = data.take size ++ slice data size more := by
  apply List.ext_getElem
  · simp [slice, h]
  · intro i hi _
    simp only [slice, List.length_map, List.length_range] at hi
    by_cases hlt : i < size
    · rw [List.getElem_append_left (by simp; omega)]
      simp [slice, List.getD_eq_getElem?_getD,
        List.getElem?_eq_getElem (show i < data.length by omega)]
    · rw [List.getElem_append_right (by simp; omega)]
      have hidx : size + (i - min size data.length) = i := by omega
      simp [slice, hidx]

/-- Shifted by 28 bytes, the first word of the data holds its first four bytes. -/
theorem shiftRight_dataWord {data : List UInt8} (h : 4 ≤ data.length) :
    dataWord data 0 >>> (224 : Nat) = wordOf (data.take 4) := by
  have hlen : (data.take 4).length = 4 := by simp [h]
  have hslice : (slice data 4 28).length = 28 := by simp [slice]
  have hword : slice data 0 32 = data.take 4 ++ slice data 4 28 := slice_zero_of_le h 28
  have hlow := bigEndian_lt (slice data 4 28)
  rw [hslice] at hlow
  apply BitVec.eq_of_toNat_eq
  rw [BitVec.toNat_ushiftRight, dataWord, hword, toNat_wordOf (by simp [hlen, hslice]),
    toNat_wordOf (by omega), bigEndian_append, hslice, Nat.shiftRight_eq_div_pow]
  omega

/-- Selectors of four bytes are told apart by their words. -/
theorem wordOf_eq_iff {xs ys : List UInt8} (hxs : xs.length = 4) (hys : ys.length = 4) :
    wordOf xs = wordOf ys ↔ xs = ys := by
  refine ⟨fun h => bigEndian_injective (hxs.trans hys.symm) ?_, fun h => h ▸ rfl⟩
  rw [← toNat_wordOf (by omega : xs.length ≤ 32), h, toNat_wordOf (by omega)]

/-! ## Tests -/

/-- Up to its jump, a test compares the selector on the stack with its own. -/
theorem executes_test {selector : List UInt8} (h : selector.length = 4) (w : Word) :
    Executes env [.op .dup1, .ofBytes selector, .op .eq] ⟨[w], m, σ⟩
      ⟨[flag (wordOf selector = w), w], m, σ⟩ :=
  .cons (.op rfl) (.cons (.ofBytes (by omega) _ _ _) (.op rfl))

theorem executes_dispatch_passed {selector : List UInt8} (h : selector.length = 4) (target : Nat)
    {w : Word} (hne : wordOf selector ≠ w) :
    Executes env (dispatchCode selector target) ⟨[w], m, σ⟩ ⟨[w], m, σ⟩ := by
  have hflag : flag (wordOf selector = w) = 0 := (flag_eq_zero _).mpr hne
  have htest : Executes env _ _ _ := executes_test m σ h w
  rw [hflag] at htest
  exact htest.append (executes_jumpI_passed target [w] m σ)

/-- A test for the selector on the stack leads to its target. -/
theorem runs_dispatch_taken {selector : List UInt8} {target : Nat} {is : List Instr}
    (h : selector.length = 4)
    (hspan : Spans env lo hi pc (dispatchCode selector target ++ is))
    (hdest : isJumpDest env.code target = true) (hlt : target < 65536) :
    Runs env lo hi ⟨pc, ⟨[wordOf selector], m, σ⟩⟩ ⟨target, ⟨[wordOf selector], m, σ⟩⟩ := by
  have hcut : dispatchCode selector target =
      [Instr.op .dup1, .ofBytes selector, .op .eq] ++ [Instr.pushTarget target, .op .jumpI] := rfl
  have hspan' := hspan.left
  rw [hcut] at hspan'
  have htest := executes_test m σ h (wordOf selector) lo hi pc hspan'.left
  have hcond : flag (wordOf selector = wordOf selector) ≠ 0 := by simp [flag]
  exact htest.trans (runs_jumpI_taken hspan'.right hdest hlt hcond [wordOf selector] m σ)

/-- Tests none of which fits are passed. -/
theorem executes_dispatches {entries : List (List UInt8 × Nat)} {selector : List UInt8}
    (hlen : ∀ entry ∈ entries, entry.1.length = 4) (hsel : selector.length = 4)
    (hne : ∀ entry ∈ entries, entry.1 ≠ selector) :
    Executes env (dispatchesCode entries) ⟨[wordOf selector], m, σ⟩ ⟨[wordOf selector], m, σ⟩ := by
  induction entries with
  | nil => exact .nil _
  | cons entry rest ih =>
    obtain ⟨first, target⟩ := entry
    have hfirst := hlen _ List.mem_cons_self
    have hword : wordOf first ≠ wordOf selector :=
      mt (wordOf_eq_iff hfirst hsel).mp (hne _ List.mem_cons_self)
    have hpass : Executes env _ _ _ := executes_dispatch_passed m σ hfirst target hword
    exact hpass.append (ih (fun entry he => hlen entry (List.mem_cons_of_mem _ he))
      (fun entry he => hne entry (List.mem_cons_of_mem _ he)))

/-- Tests lead to the first target whose selector fits. -/
theorem runs_dispatches {before after : List (List UInt8 × Nat)} {selector : List UInt8}
    {target : Nat} (hlen : ∀ entry ∈ before, entry.1.length = 4) (hsel : selector.length = 4)
    (hne : ∀ entry ∈ before, entry.1 ≠ selector)
    (hspan : Spans env lo hi pc (dispatchesCode (before ++ (selector, target) :: after)))
    (hdest : isJumpDest env.code target = true) (hlt : target < 65536) :
    Runs env lo hi ⟨pc, ⟨[wordOf selector], m, σ⟩⟩ ⟨target, ⟨[wordOf selector], m, σ⟩⟩ := by
  have hcut : dispatchesCode (before ++ (selector, target) :: after) =
      dispatchesCode before ++ (dispatchCode selector target ++ dispatchesCode after) := by
    simp [dispatchesCode]
  rw [hcut] at hspan
  have hpass := executes_dispatches m σ hlen hsel hne lo hi pc hspan.left
  exact hpass.trans (runs_dispatch_taken m σ hsel hspan.right hdest hlt)

/-! ## Before and behind the tests -/

/-- Up to its jump, the prologue asks whether the data are too short for a selector. -/
theorem executes_lengthTest :
    Executes env [.pushNat 4, .op .callDataSize, .op .lt] ⟨[], m, σ⟩
      ⟨[flag (env.data.length < 4)], m, σ⟩ := by
  have hsize : (BitVec.ofNat 256 env.data.length < 4#256) ↔ env.data.length < 4 := by
    rw [BitVec.lt_def, BitVec.toNat_ofNat, Nat.mod_eq_of_lt env.fits]
    rfl
  have hflag : flag (BitVec.ofNat 256 env.data.length < 4#256) = flag (env.data.length < 4) := by
    simp only [flag, hsize]
  rw [← hflag]
  exact .cons (.pushNat (by norm_num) _ _ _) (.cons (.op rfl) (.op rfl))

/-- Behind its jump, the prologue puts the selector on the stack. -/
theorem executes_selector (h : 4 ≤ env.data.length) :
    Executes env [.pushNat 0, .op .callDataLoad, .pushNat 224, .op .shr] ⟨[], m, σ⟩
      ⟨[wordOf (env.data.take 4)], m, σ⟩ := by
  rw [← shiftRight_dataWord h]
  exact .cons (executes_zero _ _ _) (.cons (.op (execute_callDataLoad _ _ _ _ _))
    (.cons (.pushNat (by norm_num) _ _ _) (.op rfl)))

theorem halts_revertCode (hspan : Spans env lo hi pc revertCode) (stack : List Word) :
    ∃ last, Halts env lo hi ⟨pc, ⟨stack, m, σ⟩⟩ (.reverted []) last ∧ last.state.storage = σ := by
  have hexec : Executes env [.op .jumpDest, .pushNat 0, .pushNat 0] ⟨stack, m, σ⟩
      ⟨0 :: 0 :: stack, m, σ⟩ :=
    .cons (.op rfl) (.cons (executes_zero _ _ _) (executes_zero _ _ _))
  exact ⟨_, hexec.halts hspan rfl, rfl⟩

theorem executes_prologue (h : 4 ≤ env.data.length) (target : Nat) :
    Executes env (prologueCode target) ⟨[], m, σ⟩ ⟨[wordOf (env.data.take 4)], m, σ⟩ := by
  have hflag : flag (env.data.length < 4) = 0 := (flag_eq_zero _).mpr (by omega)
  have htest : Executes env _ _ _ := executes_lengthTest m σ
  rw [hflag] at htest
  exact (htest.append (executes_jumpI_passed target [] m σ)).append (executes_selector m σ h)

/-- Data without a selector lead from the prologue to its target. -/
theorem runs_prologue_short {target : Nat} (h : env.data.length < 4)
    (hspan : Spans env lo hi pc (prologueCode target)) (hdest : isJumpDest env.code target = true)
    (hlt : target < 65536) : Runs env lo hi ⟨pc, ⟨[], m, σ⟩⟩ ⟨target, ⟨[], m, σ⟩⟩ := by
  have hcut : prologueCode target = [Instr.pushNat 4, .op .callDataSize, .op .lt] ++
      (Instr.pushTarget target :: Instr.op .jumpI ::
        [Instr.pushNat 0, .op .callDataLoad, .pushNat 224, .op .shr]) := rfl
  rw [hcut] at hspan
  have htest := executes_lengthTest m σ lo hi pc hspan.left
  have hcond : flag (env.data.length < 4) ≠ 0 := by simp [flag, h]
  exact htest.trans (runs_jumpI_taken hspan.right hdest hlt hcond [] m σ)

/-! ## Routing -/

theorem getElem?_codeStarts (start : Nat) {codes : List (List Instr)} {k : Nat}
    (h : k < codes.length) :
    (codeStarts start codes)[k]? = some (start + codeSize (codes.take k).flatten) := by
  induction codes generalizing start k with
  | nil => simp at h
  | cons code rest ih =>
    obtain _ | k := k
    · rfl
    · simp only [codeStarts, List.getElem?_cons_succ]
      rw [ih _ (by simpa using h)]
      simp [Nat.add_assoc]

theorem findIdx?_dispatchable (c : ContractState) (selector : List UInt8) :
    (c.dispatchable.findIdx? fun (name, f) => Hash.selector (f.signature name) == selector) =
      (selectors c.dispatchable).findIdx? (· == selector) := by
  rw [selectors, List.findIdx?_map]
  rfl

/-- The tests with their targets, cut at the function that a message means. -/
theorem entries_of_routed {codes : List (List Instr)} {data : List UInt8} {k : Nat}
    (hlist : RuntimeListing c env.code codes) (hroute : routed? c data = some k) :
    4 ≤ data.length ∧ k < c.dispatchable.length ∧ functionStart c k < 65536 ∧
    ∃ before after, (selectors c.dispatchable).zip (codeStarts (functionsStart c) codes) =
        before ++ (data.take 4, functionStart c k) :: after ∧
      ∀ entry ∈ before, entry.1 ≠ data.take 4 := by
  unfold routed? at hroute
  split at hroute
  case isTrue => simp at hroute
  case isFalse hlen =>
  rw [findIdx?_dispatchable] at hroute
  obtain ⟨hk, hfits, hfirst⟩ := List.findIdx?_eq_some_iff_getElem.mp hroute
  simp only [beq_iff_eq] at hfits hfirst
  have hcodes : k < codes.length := by
    rw [hlist.length_codes env]
    simpa [selectors] using hk
  have hstart := getElem?_codeStarts (functionsStart c) hcodes
  rw [← hlist.functionStart_eq] at hstart
  obtain ⟨hk', hstart'⟩ := List.getElem?_eq_some_iff.mp hstart
  refine ⟨by omega, by simpa [selectors] using hk,
    hlist.starts_lt _ (List.mem_of_getElem? hstart), ?_⟩
  generalize hentries :
    (selectors c.dispatchable).zip (codeStarts (functionsStart c) codes) = entries
  have hlen' : k < entries.length := by
    rw [← hentries, List.length_zip]
    omega
  have hget : entries[k] = (data.take 4, functionStart c k) := by
    simp only [← hentries, List.getElem_zip, hfits, hstart']
  refine ⟨entries.take k, entries.drop (k + 1), ?_, ?_⟩
  · rw [← hget, List.getElem_cons_drop, List.take_append_drop]
  · intro entry hentry
    obtain ⟨j, hj, rfl⟩ := List.mem_take_iff_getElem.mp hentry
    simp only [← hentries, List.getElem_zip]
    exact hfirst j (by omega)

section Listing

variable {codes : List (List Instr)} (hlist : RuntimeListing c env.code codes)

include hlist

theorem length_targets :
    (codeStarts (functionsStart c) codes).length = c.dispatchable.length :=
  (length_codeStarts _ _).trans (hlist.length_codes env)

theorem spans_dispatcher_parts :
    Spans env 0 (functionStart c 0) 0 (prologueCode (revertStart c)) ∧
    Spans env 0 (functionStart c 0) 14 (dispatchesCode
      ((selectors c.dispatchable).zip (codeStarts (functionsStart c) codes))) ∧
    Spans env 0 (functionStart c 0) (revertStart c) revertCode := by
  have hspan := hlist.spans_dispatcher env
  refine ⟨hspan.left.left, hspan.left.right, ?_⟩
  have hrevert := hspan.right
  rwa [codeSize_append, codeSize_prologueCode, codeSize_selectors_zip (length_targets hlist),
    Nat.zero_add] at hrevert

theorem halts_unrouted (hroute : routed? c env.data = none) :
    ∃ last, Halts env 0 (functionStart c 0) ⟨0, ⟨[], m, σ⟩⟩ (.reverted []) last ∧
      last.state.storage = σ := by
  obtain ⟨hprologue, htests, hrevert⟩ := spans_dispatcher_parts hlist
  by_cases hshort : env.data.length < 4
  · obtain ⟨last, hhalts, hstorage⟩ := halts_revertCode m σ hrevert []
    have hrun := runs_prologue_short m σ hshort hprologue hrevert.isJumpDest hlist.revert_lt
    exact ⟨last, hrun.halts hhalts, hstorage⟩
  · rw [routed?, if_neg hshort, findIdx?_dispatchable, List.findIdx?_eq_none_iff] at hroute
    have hlen : ∀ entry ∈ (selectors c.dispatchable).zip (codeStarts (functionsStart c) codes),
        entry.1.length = 4 := fun entry he => length_of_mem_selectors (List.of_mem_zip he).1
    have hne : ∀ entry ∈ (selectors c.dispatchable).zip (codeStarts (functionsStart c) codes),
        entry.1 ≠ env.data.take 4 := by
      intro entry he
      simpa using hroute _ (List.of_mem_zip he).1
    have hselector : (env.data.take 4).length = 4 := by
      simp only [List.length_take]
      omega
    have henter := executes_prologue m σ (by omega) _ _ _ _ hprologue
    have hpass := executes_dispatches m σ hlen hselector hne _ _ _ htests
    rw [codeSize_selectors_zip (length_targets hlist)] at hpass
    obtain ⟨last, hhalts, hstorage⟩ := halts_revertCode m σ hrevert [wordOf (env.data.take 4)]
    exact ⟨last, henter.halts (hpass.halts hhalts), hstorage⟩

/-- A message that means a function is led to it. -/
theorem runs_routed {k : Nat} (hroute : routed? c env.data = some k) :
    Runs env 0 (functionStart c 0) ⟨0, ⟨[], m, σ⟩⟩
        ⟨functionStart c k, ⟨[wordOf (env.data.take 4)], m, σ⟩⟩ ∧
      isJumpDest env.code (functionStart c k) = true := by
  obtain ⟨hprologue, htests, -⟩ := spans_dispatcher_parts hlist
  obtain ⟨hlong, hk, hlt, before, after, hentries, hne⟩ := entries_of_routed hlist hroute
  have hdest : isJumpDest env.code (functionStart c k) = true := by
    obtain ⟨code, hcode, hspan⟩ := hlist.spans_function env (List.getElem?_eq_getElem hk)
    obtain ⟨body, -, rfl⟩ := Option.map_eq_some_iff.mp hcode
    exact hspan.isJumpDest
  have hlen : ∀ entry ∈ before, entry.1.length = 4 := by
    intro entry he
    have hmem : entry ∈ (selectors c.dispatchable).zip (codeStarts (functionsStart c) codes) := by
      rw [hentries]
      exact List.mem_append_left _ he
    exact length_of_mem_selectors (List.of_mem_zip hmem).1
  have hselector : (env.data.take 4).length = 4 := by simp [hlong]
  rw [hentries] at htests
  have henter := executes_prologue m σ hlong _ _ _ _ hprologue
  exact ⟨henter.trans (runs_dispatches m σ hlen hselector hne htests hdest hlt), hdest⟩

theorem dispatcher_le_length : functionStart c 0 ≤ env.code.length := by
  have hwhole := (hlist.spans_dispatcher env).whole.le_hi
  rw [codeSize_dispatcherCode (length_targets hlist)] at hwhole
  simpa [hlist.functionStart_eq] using hwhole

/-- A message that means a function arrives at its code. -/
theorem enters_function {k : Nat} {name : String} {f : Function}
    (hk : c.dispatchable[k]? = some (name, f)) (hroute : routed? c env.data = some k) :
    ∃ code, functionCode c (functionStart c k) f = some code ∧
      Spans env 0 env.code.length (functionStart c k) code ∧
      Runs env 0 env.code.length ⟨0, ⟨[], m, σ⟩⟩
        ⟨functionStart c k, ⟨[wordOf (env.data.take 4)], m, σ⟩⟩ := by
  obtain ⟨code, hcode, hspan⟩ := hlist.spans_function env hk
  exact ⟨code, hcode, hspan.whole,
    (runs_routed m σ hlist hroute).1.mono (dispatcher_le_length hlist)⟩

end Listing

/-- **The dispatcher.**  In the runtime code generated for an analyzed contract, a message
that means no function is reverted with the storage unchanged, and one that means a function
arrives at the `JUMPDEST` of that function with nothing changed but the selector on the
stack.  Behind the code of the functions that messages can call there is no other. -/
theorem dispatcher_routes {e : Emitter} {data : List UInt8} (hc : Analyzed c) (hcall : Callable c)
    (hbody : ∀ entry ∈ c.dispatchable, StmtsFit entry.2.body)
    (hgen : (emitContract c).run {} = .ok () e) (hdata : data.length < 2 ^ 256) :
    (routed? c data = none →
      ∃ last, Halts ⟨e.runtime.toList, data, hdata⟩ 0 (functionStart c 0) ⟨0, ⟨[], m, σ⟩⟩
          (.reverted []) last ∧ last.state.storage = σ) ∧
    (∀ k, routed? c data = some k →
      Runs ⟨e.runtime.toList, data, hdata⟩ 0 (functionStart c 0) ⟨0, ⟨[], m, σ⟩⟩
          ⟨functionStart c k, ⟨[wordOf (data.take 4)], m, σ⟩⟩ ∧
        isJumpDest e.runtime.toList (functionStart c k) = true) ∧
    e.runtime.size = functionStart c c.dispatchable.length := by
  obtain ⟨codes, hlist⟩ := runtime_listing hc hcall hbody hgen
  let env : Env := ⟨e.runtime.toList, data, hdata⟩
  refine ⟨fun hnone => ?_, fun k hsome => ?_, ?_⟩
  · exact @halts_unrouted c env m σ codes hlist hnone
  · exact @runs_routed c env m σ codes hlist k hsome
  · exact Array.length_toList.symm.trans (hlist.length_runtime env)

/-- The selector of the function leads to it, and three bytes lead nowhere. -/
theorem dispatcher_routes_tally :
    ∃ e, (emitContract tally).run {} = .ok () e ∧
      Runs ⟨e.runtime.toList, Hash.selector "add(uint256)", by rw [length_selector]; decide⟩
        0 (functionStart tally 0) ⟨0, ⟨[], fun _ => 0, fun _ => 40⟩⟩
        ⟨functionStart tally 0,
          ⟨[wordOf (Hash.selector "add(uint256)")], fun _ => 0, fun _ => 40⟩⟩ ∧
      ∃ last, Halts ⟨e.runtime.toList, [1, 2, 3], by decide⟩ 0 (functionStart tally 0)
        ⟨0, ⟨[], fun _ => 0, fun _ => 40⟩⟩ (.reverted []) last ∧ last.state.storage 0 = 40 := by
  obtain ⟨e, hgen⟩ := exists_of_runtimeSize? generated_tally
  have hcall : Callable tally := fun entry he => (supported_tally entry he).callable
  have hbody := fun entry he => (supported_tally entry he).body.fits
  have hdata : (Hash.selector "add(uint256)").length < 2 ^ 256 := by rw [length_selector]; decide
  have hroute : routed? tally (Hash.selector "add(uint256)") = some 0 := by decide +kernel
  have htake : (Hash.selector "add(uint256)").take 4 = Hash.selector "add(uint256)" :=
    List.take_of_length_le (length_selector _).le
  obtain ⟨-, hroutes, -⟩ := dispatcher_routes (fun _ => 0) (fun _ => 40) analyzed_tally hcall hbody
    hgen hdata
  obtain ⟨hreverts, -, -⟩ := dispatcher_routes (fun _ => 0) (fun _ => 40) analyzed_tally hcall hbody
    hgen (show ([1, 2, 3] : List UInt8).length < 2 ^ 256 by decide)
  obtain ⟨last, hhalts, hstorage⟩ := hreverts (by decide)
  have hruns := (hroutes 0 hroute).1
  rw [htake] at hruns
  exact ⟨e, hgen, hruns, last, hhalts, by rw [hstorage]⟩

end ContractKit.Evm
