import ContractKit.Proofs.Data.Assoc
import ContractKit.Proofs.Evm.Appending
import ContractKit.Proofs.Evm.Meaning

/-!
# The listing of a runtime code

The runtime code of a contract is a prologue, one test for each function that messages can
call, the code that reverts, and the code of those functions one behind the other.  Its jump
targets are written last, each over two bytes of which the position was kept; afterwards the
whole is the listing that has the targets in it from the start.
-/

namespace ContractKit.Evm

/-! ## Selectors -/

theorem length_iota (constant : UInt64) (s : Hash.Lanes) :
    (Hash.iota constant s).length = s.length := by
  cases s <;> rfl

theorem length_permute {s : Hash.Lanes} (h : s.length = 25) : (Hash.permute s).length = 25 := by
  suffices hrounds : ∀ constants : List UInt64,
      (constants.foldl (fun s k => Hash.iota k (Hash.chi (Hash.rhoPi (Hash.theta s)))) s).length =
        25
    from hrounds _
  intro constants
  induction constants generalizing s with
  | nil => exact h
  | cons k rest ih => exact ih (by simp [length_iota, Hash.chi])

theorem length_absorbAll {s : Hash.Lanes} (h : s.length = 25) (blocks : Nat) (bytes : List UInt8) :
    (Hash.absorbAll s blocks bytes).length = 25 := by
  induction blocks generalizing s bytes with
  | zero => exact h
  | succ blocks ih => exact ih (length_permute (by simp [Hash.absorb])) _

theorem length_selector (signature : String) : (Hash.selector signature).length = 4 := by
  have hbytes : ∀ w : UInt64, (Hash.bytesOfLane w).length = 8 := by simp [Hash.bytesOfLane]
  have hsponge : ∀ blocks bytes,
      ((Hash.absorbAll (List.replicate 25 0) blocks bytes).flatMap Hash.bytesOfLane).length =
        200 := by
    intro blocks bytes
    simp [List.length_flatMap, hbytes, length_absorbAll]
  simp only [Hash.selector, Hash.keccak256, List.length_take, hsponge]
  decide

/-! ## The parts before the functions -/

/-- The beginning: a message without a selector reverts, and the selector is put on the
stack. -/
def prologueCode (revertTarget : Nat) : List Instr :=
  [.pushNat 4, .op .callDataSize, .op .lt, .pushTarget revertTarget, .op .jumpI,
    .pushNat 0, .op .callDataLoad, .pushNat 224, .op .shr]

def dispatchCode (selector : List UInt8) (target : Nat) : List Instr :=
  [.op .dup1, .ofBytes selector, .op .eq, .pushTarget target, .op .jumpI]

/-- The tests for functions in order, given their selectors and where they begin. -/
def dispatchesCode (entries : List (List UInt8 × Nat)) : List Instr :=
  entries.flatMap fun (selector, target) => dispatchCode selector target

/-- What happens when no function is meant. -/
def revertCode : List Instr := [.op .jumpDest, .pushNat 0, .pushNat 0, .op .revert]

@[simp] theorem codeSize_prologueCode (target : Nat) : codeSize (prologueCode target) = 14 := rfl

@[simp] theorem codeSize_revertCode : codeSize revertCode = 6 := rfl

theorem codeSize_dispatchCode {selector : List UInt8} (h : selector.length = 4) (target : Nat) :
    codeSize (dispatchCode selector target) = 11 := by
  simp [dispatchCode, Instr.ofBytes, h]

@[simp] theorem dispatchesCode_nil : dispatchesCode [] = [] := rfl

@[simp] theorem dispatchesCode_cons (selector : List UInt8) (target : Nat)
    (rest : List (List UInt8 × Nat)) :
    dispatchesCode ((selector, target) :: rest) =
      dispatchCode selector target ++ dispatchesCode rest := rfl

theorem codeSize_dispatchesCode {entries : List (List UInt8 × Nat)}
    (h : ∀ entry ∈ entries, entry.1.length = 4) :
    codeSize (dispatchesCode entries) = 11 * entries.length := by
  induction entries with
  | nil => rfl
  | cons entry rest ih =>
    obtain ⟨selector, target⟩ := entry
    have hfirst := codeSize_dispatchCode (h _ List.mem_cons_self) target
    have hrest := ih fun entry hentry => h entry (List.mem_cons_of_mem _ hentry)
    rw [dispatchesCode_cons, codeSize_append, hfirst, hrest, List.length_cons]
    omega

def selectors (fs : List (String × Function)) : List (List UInt8) :=
  fs.map fun (name, f) => Hash.selector (f.signature name)

theorem length_of_mem_selectors {fs : List (String × Function)} {selector : List UInt8}
    (h : selector ∈ selectors fs) : selector.length = 4 := by
  obtain ⟨_, _, rfl⟩ := List.mem_map.mp h
  exact length_selector _

/-- Where the jump targets of a number of tests stand, given where the tests begin. -/
def dispatchPositions (start : Nat) : Nat → List Nat
  | 0 => []
  | n + 1 => (start + 8) :: dispatchPositions (start + 11) n

variable {sound : Prop} {slot? : String → Option Int} {start : Nat} {is : List Instr}
  {e e' : Emitter} {u : Unit}

theorem turns_emitPrologue :
    Turns sound slot? start [] emitPrologue (start + 5) (prologueCode revertPlaceholder) True :=
  (Turns.int (by norm_num) (by simp)).seq <| (Turns.op _ _).seq <| (Turns.op _ _).seq <|
    (Turns.offset (n := start + 4) rfl).seq <| (Turns.placeholder (by decide)).seq <|
    (Turns.op _ _).seq <| Turns.zero.seq <| (Turns.op _ _).seq <|
    (Turns.int (by norm_num) (by simp)).seq <| (Turns.op _ _).seq <| .pure _

theorem turns_selector (signature : String) :
    Turns sound slot? start is
      (emitPushSized (.int (Layout.bigEndian (Hash.selector signature))) (some 4)) ()
      (is ++ [.ofBytes (Hash.selector signature)]) True := by
  have hlen := length_selector signature
  have hbytes := bigEndianBytes_bigEndian (Hash.selector signature)
  have hlt := bigEndian_lt (Hash.selector signature)
  rw [hlen] at hbytes hlt
  refine (Turns.sized _ (by norm_num) (by norm_num)).congr ?_ (iff_of_true hlt trivial)
  simp only [hbytes, Instr.ofBytes_eq (hlen.trans_le (by norm_num))]

theorem turns_emitDispatch (index : Nat) (name : String) (f : Function) :
    Turns sound slot? start [] (emitDispatch index name f) (start + 8)
      (dispatchCode (Hash.selector (f.signature name)) (functionPlaceholder + index))
      (index < 4096) := by
  have hsize : start + 7 = start + codeSize [Instr.op .dup1,
      .ofBytes (Hash.selector (f.signature name)), .op .eq] := by
    simp [Instr.ofBytes, length_selector]
  refine ((Turns.report _).seq <| (Turns.op _ _).seq <| (turns_selector _).seq <|
    (Turns.op _ _).seq <| (Turns.offset hsize).seq <| (Turns.target _).bind <|
    (Turns.op .jumpI 0).seq <| .pure (start + 8)).congr rfl ?_
  simp only [functionPlaceholder, and_true]
  omega

/-- The tests for functions fail if the last of them has too high a number. -/
theorem turns_emitDispatches (index : Nat) (fs : List (String × Function)) :
    Turns sound slot? start [] (emitDispatches index fs) (dispatchPositions start fs.length)
      (dispatchesCode ((selectors fs).zip
        (List.range' (functionPlaceholder + index + 1) fs.length)))
      (fs = [] ∨ index + fs.length < 4096) := by
  induction fs generalizing index start with
  | nil => exact (Turns.pure _).congr rfl (by simp)
  | cons entry rest ih =>
    obtain ⟨name, f⟩ := entry
    refine ((turns_emitDispatch (index + 1) name f).bind <| ((ih (index + 1)).behind ?_).bind <|
      Turns.pure ((start + 8) :: dispatchPositions (start + 11) rest.length)).congr rfl ?_
    · rw [codeSize_dispatchCode (length_selector _)]
    · have hnil : rest = [] ↔ rest.length = 0 := List.length_eq_zero_iff.symm
      simp only [List.length_cons, hnil, reduceCtorEq, false_or, and_true]
      omega

theorem turns_emitRevert {position : Nat} (hposition : position = start + codeSize is) :
    Turns sound slot? start is emitRevert position (is ++ revertCode) True :=
  ((Turns.offset hposition).seq <| (Turns.op _ _).seq <| Turns.zero.seq <| Turns.zero.seq <|
    (Turns.op .revert 0).seq <| .pure position).congr (by simp [revertCode]) .rfl

/-- Filling in the jump targets of tests that were written since `e₀` gives the tests with those
targets, whatever was written behind them, if the targets fit. -/
theorem patchAll_or {e₀ : Emitter} {front : List Instr} {back : List UInt8}
    {sels : List (List UInt8)} {old new : List Nat} (hsels : ∀ s ∈ sels, s.length = 4)
    (hold : old.length = sels.length) (hnew : new.length = sels.length)
    (hw : Wrote e₀ (assemble (front ++ dispatchesCode (sels.zip old)) ++ back) e) :
    (TargetsFit new ∧ ∃ e',
      patchAll ((dispatchPositions (e₀.current.size + codeSize front) sels.length).zip new) e =
        .ok () e' ∧ Wrote e₀ (assemble (front ++ dispatchesCode (sels.zip new)) ++ back) e') ∨
    (¬TargetsFit new ∧ ∃ e',
      patchAll ((dispatchPositions (e₀.current.size + codeSize front) sels.length).zip new) e =
        .error .wordTooBig e') := by
  induction sels generalizing front old new e with
  | nil =>
    obtain rfl := List.eq_nil_of_length_eq_zero hnew
    exact .inl ⟨by simp [TargetsFit], e, rfl, hw⟩
  | cons selector sels ih =>
    obtain _ | ⟨o, old⟩ := old
    · simp at hold
    obtain _ | ⟨n, new⟩ := new
    · simp at hnew
    have hlen : selector.length = 4 := hsels selector List.mem_cons_self
    have hsize : codeSize (front ++ dispatchCode selector n) = codeSize front + 11 := by
      rw [codeSize_append, codeSize_dispatchCode hlen]
    -- The first test, cut at its jump target.
    have hcut : ∀ target : Nat,
        assemble (front ++ dispatchesCode ((selector :: sels).zip (target :: old))) ++ back =
          (assemble (front ++ [Instr.op .dup1, .ofBytes selector, .op .eq]) ++ [0x61]) ++
            bigEndianBytes 2 target ++
              (assemble ([Instr.op .jumpI] ++ dispatchesCode (sels.zip old)) ++ back) := by
      intro target
      simp [dispatchCode, Instr.pushTarget, Instr.encode]
    have hat : codeSize (front ++ [Instr.op .dup1, .ofBytes selector, .op .eq]) =
        codeSize front + 7 := by
      simp [Instr.ofBytes, hlen]
    simp only [TargetsFit, List.forall_mem_cons]
    by_cases hn : n < 65536
    case neg =>
      refine .inr ⟨fun h => hn h.1, e, bind_of_error ?_⟩
      simp only [patch, toBytes_two, if_neg hn]
    obtain ⟨e₁, hpatch⟩ : ∃ e₁,
        patch ((e₀.current.size + codeSize front + 8 : Nat) : Int) n 2 e = .ok () e₁ := by
      simp only [patch, toBytes_two, if_pos hn]
      exact ⟨_, rfl⟩
    rw [hcut] at hw
    obtain ⟨-, hw₁⟩ := hw.patch (by simp)
      (by rw [List.length_append, ← codeSize, hat]; simp; omega) hpatch
    rw [← hcut] at hw₁
    have hfront : front ++ dispatchesCode ((selector :: sels).zip (n :: old)) =
        (front ++ dispatchCode selector n) ++ dispatchesCode (sels.zip old) := by
      simp
    rw [hfront] at hw₁
    have hrest := ih (fun s hs => hsels s (List.mem_cons_of_mem _ hs)) (by simpa using hold)
      (by simpa using hnew) hw₁
    rw [hsize, ← Nat.add_assoc] at hrest
    rcases hrest with ⟨hfit, e₂, hok, hw₂⟩ | ⟨hfit, e₂, hfail⟩
    · exact .inl ⟨⟨hn, hfit⟩, e₂, (bind_of_ok hpatch).trans hok, by simpa using hw₂⟩
    · exact .inr ⟨fun h => hfit h.2, e₂, (bind_of_ok hpatch).trans hfail⟩

/-! ## Functions -/

def bodyScope (c : ContractState) (f : Function) : Scope where
  slot? x := Assoc.get? x c.slots
  args := argMap f

/-- Parameters with different names keep their places. -/
theorem argMap_of_nodup {f : Function} (hdistinct : f.args.Nodup) :
    argMap f = f.args.zipIdx.map fun (x, i) => (x, (i : Int)) := by
  have hkeys : Assoc.keys (f.args.zipIdx.map fun (x, i) => (x, (i : Int))) = f.args := by
    simp [Assoc.keys, Function.comp_def]
  exact Assoc.ofList_of_nodup (by rwa [hkeys])

/-- The place of a parameter whose name no other has. -/
theorem get?_argMap {f : Function} {x : String} {j : Nat} (hdistinct : f.args.Nodup)
    (hj : f.args[j]? = some x) : Assoc.get? x (argMap f) = some (j : Int) := by
  rw [argMap_of_nodup hdistinct]
  refine Assoc.get?_of_mem ?_ ?_
  · simpa [Assoc.keys, Function.comp_def] using hdistinct
  · simpa [List.mem_zipIdx_iff_getElem?] using hj

/-- The code behind the body of a function. -/
def endingCode (f : Function) : List Instr :=
  if f.body.any isReturn then []
  else if f.isView then .pushNat 0 :: returnWordCode
  else returnEmptyCode

/-- The code of a function that begins at a position. -/
def functionCode (c : ContractState) (start : Nat) (f : Function) : Option (List Instr) :=
  (stmtsCode (bodyScope c f) (start + 1) f.body).map fun body =>
    .op .jumpDest :: (body ++ endingCode f)

/-- The codes of functions that stand one behind the other from a position on. -/
def functionsCode (c : ContractState) (start : Nat) :
    List (String × Function) → Option (List (List Instr))
  | [] => some []
  | (_, f) :: rest =>
    (functionCode c start f).bind fun code =>
      (functionsCode c (start + codeSize code) rest).map (code :: ·)

theorem functionsCode_cons_eq_some {c : ContractState} {start : Nat} {entry : String × Function}
    {rest : List (String × Function)} {codes : List (List Instr)} :
    functionsCode c start (entry :: rest) = some codes ↔
      ∃ code others, functionCode c start entry.2 = some code ∧
        functionsCode c (start + codeSize code) rest = some others ∧ code :: others = codes := by
  simp only [functionsCode, Option.bind_eq_some_iff, Option.map_eq_some_iff, exists_and_left]

/-- Where codes begin that stand one behind the other from a position on. -/
def codeStarts (start : Nat) : List (List Instr) → List Nat
  | [] => []
  | code :: rest => start :: codeStarts (start + codeSize code) rest

variable {c : ContractState}

/-- All that the bodies of functions push fits into a word. -/
structure FunctionsFit (c : ContractState) (fs : List (String × Function)) : Prop where
  scope : ∀ entry ∈ fs, (bodyScope c entry.2).Fits
  body : ∀ entry ∈ fs, StmtsFit entry.2.body

theorem turns_ending (f : Function) (position : Nat) :
    Turns sound slot? start is (if f.body.any isReturn then return position
      else if f.isView then do
        emitInt 0
        emitReturnWord
        return position
      else do
        emitReturnEmpty
        return position : Emit Nat) position (is ++ endingCode f) True := by
  unfold endingCode
  split
  · exact (Turns.pure position).congr (List.append_nil is).symm .rfl
  · split
    · exact (Turns.zero.seq <| turns_returnWord.seq <| .pure position).congr (by simp) .rfl
    · exact turns_returnEmpty.seq <| .pure position

/-- The instructions of a function that begins at a position. -/
def functionListing (c : ContractState) (start : Nat) (f : Function) : List Instr :=
  .op .jumpDest :: (stmtsListing (bodyScope c f) (start + 1) f.body ++ endingCode f)

/-- The instructions of functions that stand one behind the other from a position on. -/
def functionListings (c : ContractState) (start : Nat) :
    List (String × Function) → List (List Instr)
  | [] => []
  | (_, f) :: rest =>
    functionListing c start f ::
      functionListings c (start + codeSize (functionListing c start f)) rest

/-- The positions that the branches in the bodies of functions lead to. -/
def branchTargets (c : ContractState) (start : Nat) : List (String × Function) → List Nat
  | [] => []
  | (_, f) :: rest =>
    stmtsTargets (bodyScope c f) (start + 1) f.body ++
      branchTargets c (start + codeSize (functionListing c start f)) rest

theorem turns_emitFunction {f : Function} (hS : (bodyScope c f).Fits)
    (hfit : ¬sound → StmtsFit f.body) (hs : sound → Pushables (Source.parts f.body)) :
    Turns sound (Assoc.get? · c.slots) start [] (emitFunction f) start (functionListing c start f)
      (TargetsFit (stmtsTargets (bodyScope c f) (start + 1) f.body)) := by
  have hbody := stmtsTurn sound hS f.body hfit hs (start + 1)
  exact ((Turns.offset rfl).seq <| (Turns.op _ _).seq <| (hbody.behind rfl).bind <|
    turns_ending f start).congr rfl (by simp)

theorem turns_emitFunctions {fs : List (String × Function)}
    (hS : ∀ entry ∈ fs, (bodyScope c entry.2).Fits)
    (hfit : ∀ entry ∈ fs, ¬sound → StmtsFit entry.2.body)
    (hs : ∀ entry ∈ fs, sound → Pushables (Source.parts entry.2.body)) :
    Turns sound (Assoc.get? · c.slots) start [] (emitFunctions fs)
      (codeStarts start (functionListings c start fs)) (functionListings c start fs).flatten
      (TargetsFit (branchTargets c start fs)) := by
  induction fs generalizing start with
  | nil => exact (Turns.pure _).congr rfl (by simp [branchTargets, TargetsFit])
  | cons entry rest ih =>
    obtain ⟨name, f⟩ := entry
    obtain ⟨hSf, hSrest⟩ := List.forall_mem_cons.mp hS
    obtain ⟨hfitf, hfitrest⟩ := List.forall_mem_cons.mp hfit
    obtain ⟨hsf, hsrest⟩ := List.forall_mem_cons.mp hs
    refine ((turns_emitFunction hSf hfitf hsf).bind <|
      ((ih hSrest hfitrest hsrest).behind rfl).bind <| Turns.pure
        (codeStarts start (functionListings c start ((name, f) :: rest)))).congr rfl ?_
    rw [and_true]
    exact List.forall_mem_append.symm

theorem functionsCode_of_targetsFit {fs : List (String × Function)}
    (h : TargetsFit (branchTargets c start fs)) :
    functionsCode c start fs = some (functionListings c start fs) := by
  induction fs generalizing start with
  | nil => rfl
  | cons entry rest ih =>
    obtain ⟨hfirst, hrest⟩ := List.forall_mem_append.mp h
    refine functionsCode_cons_eq_some.mpr ⟨_, _, ?_, ih hrest, rfl⟩
    rw [functionCode, stmtsCode_of_targetsFit hfirst]
    rfl

theorem slot?_of_contract (h : e.contract = some c) : e.slot? = (Assoc.get? · c.slots) := by
  funext x
  simp [Emitter.slot?, h]

theorem wrote_emitFunction {f : Function} {position : Nat} (hS : (bodyScope c f).Fits)
    (hfit : StmtsFit f.body) (hcontract : e.contract = some c)
    (h : emitFunction f e = .ok position e') :
    position = e.current.size ∧
      ∃ code, functionCode c e.current.size f = some code ∧ Wrote e (assemble code) e' := by
  obtain ⟨rfl, htargets, hw⟩ :=
    (turns_emitFunction hS (fun _ => hfit) False.elim).ok (slot?_of_contract hcontract) h
  exact ⟨rfl, _, by rw [functionCode, stmtsCode_of_targetsFit htargets]; rfl, hw⟩

theorem wrote_emitFunctions {fs : List (String × Function)} {positions : List Nat}
    (hfit : FunctionsFit c fs) (hcontract : e.contract = some c)
    (h : emitFunctions fs e = .ok positions e') :
    ∃ codes, functionsCode c e.current.size fs = some codes ∧
      positions = codeStarts e.current.size codes ∧ Wrote e (assemble codes.flatten) e' := by
  obtain ⟨rfl, htargets, hw⟩ := (turns_emitFunctions hfit.scope
    (fun entry he _ => hfit.body entry he) fun _ _ => False.elim).ok (slot?_of_contract hcontract) h
  exact ⟨_, functionsCode_of_targetsFit htargets, rfl, hw⟩

/-! ## The whole -/

/-- Where the code that reverts begins. -/
def revertStart (c : ContractState) : Nat := 14 + 11 * c.dispatchable.length

/-- Where the first function begins. -/
def functionsStart (c : ContractState) : Nat := revertStart c + 6

/-- The part of the runtime code in front of the functions, given where they begin. -/
def dispatcherCode (c : ContractState) (targets : List Nat) : List Instr :=
  prologueCode (revertStart c) ++ dispatchesCode ((selectors c.dispatchable).zip targets) ++
    revertCode

theorem codeSize_selectors_zip {fs : List (String × Function)} {targets : List Nat}
    (h : targets.length = fs.length) :
    codeSize (dispatchesCode ((selectors fs).zip targets)) = 11 * fs.length := by
  rw [codeSize_dispatchesCode fun entry he => length_of_mem_selectors (List.of_mem_zip he).1]
  simp [selectors, h]

theorem codeSize_dispatcherCode {targets : List Nat} (h : targets.length = c.dispatchable.length) :
    codeSize (dispatcherCode c targets) = functionsStart c := by
  simp [dispatcherCode, codeSize_selectors_zip h, functionsStart, revertStart, Nat.add_assoc]

/-- Writes the dispatcher of the contract that an emitter has. -/
def emitTests (c : ContractState) : Emit (List Nat) := do
  let revertJump ← emitPrologue
  let jumps ← emitDispatches 0 c.dispatchable
  let revertTarget ← emitRevert
  patch revertJump revertTarget 2
  return jumps

def Emitter.dispatching (e : Emitter) (c : ContractState) : Emitter :=
  { e with
    contract := some c
    log := e.log ++ ["[blue]Generating runtime bytecode with function dispatcher...[/blue]"] }

theorem emitDispatcher_eq (c : ContractState) (e : Emitter) :
    emitDispatcher c e = emitTests c (e.dispatching c) := rfl

/-- What stands for the targets of the tests until they are known. -/
def placeholders (c : ContractState) : List Nat :=
  List.range' (functionPlaceholder + 1) c.dispatchable.length

@[simp] theorem length_placeholders (c : ContractState) :
    (placeholders c).length = c.dispatchable.length :=
  List.length_range'

/-- The dispatcher is written with placeholders; where they stand is given back. -/
theorem turns_emitTests :
    Turns sound slot? 0 [] (emitTests c) (dispatchPositions 14 c.dispatchable.length)
      (dispatcherCode c (placeholders c))
      (c.dispatchable.length < 4096 ∧ revertStart c < 65536) := by
  have hdispatches : Turns sound slot? 14 [] (emitDispatches 0 c.dispatchable) _ _ _ :=
    turns_emitDispatches 0 c.dispatchable
  have hrevert : revertStart c = 0 + codeSize (prologueCode revertPlaceholder ++
      dispatchesCode ((selectors c.dispatchable).zip (placeholders c))) := by
    rw [codeSize_append, codeSize_selectors_zip (length_placeholders c)]
    simp [revertStart]
  refine (turns_emitPrologue.seq <| (hdispatches.behind rfl).bind <|
    (turns_emitRevert hrevert).seq <|
    (Turns.patch [Instr.pushNat 4, .op .callDataSize, .op .lt]
      ([Instr.op .jumpI, .pushNat 0, .op .callDataLoad, .pushNat 224, .op .shr] ++
        dispatchesCode ((selectors c.dispatchable).zip (placeholders c)) ++ revertCode)
      revertPlaceholder (revertStart c) rfl rfl).bind <|
    Turns.pure (dispatchPositions 14 c.dispatchable.length)).congr rfl ?_
  rw [← List.length_eq_zero_iff, and_true]
  omega

theorem wrote_emitDispatcher {jumps : List Nat} (hempty : e.current.size = 0)
    (h : emitDispatcher c e = .ok jumps e') :
    jumps = dispatchPositions 14 c.dispatchable.length ∧ revertStart c < 65536 ∧
      Wrote (e.dispatching c) (assemble (dispatcherCode c (placeholders c))) e' := by
  have hempty' : (e.dispatching c).current.size = 0 := hempty
  have htests : Turns False (e.dispatching c).slot? 0 [] (emitTests c) _ _ _ := turns_emitTests
  rw [← hempty'] at htests
  rw [emitDispatcher_eq] at h
  obtain ⟨rfl, ⟨-, hlt⟩, hw⟩ := htests.ok rfl h
  exact ⟨rfl, hlt, hw⟩

/-- The runtime code, given those of the functions. -/
def runtimeCode (c : ContractState) (codes : List (List Instr)) : List Instr :=
  dispatcherCode c (codeStarts (functionsStart c) codes) ++ codes.flatten

theorem length_codeStarts (start : Nat) (codes : List (List Instr)) :
    (codeStarts start codes).length = codes.length := by
  induction codes generalizing start with
  | nil => rfl
  | cons code rest ih => simp [codeStarts, ih]

theorem length_functionsCode {start : Nat} {fs : List (String × Function)}
    {codes : List (List Instr)} (h : functionsCode c start fs = some codes) :
    codes.length = fs.length := by
  induction fs generalizing start codes with
  | nil =>
    obtain rfl := Option.some.inj h
    rfl
  | cons entry rest ih =>
    obtain ⟨code, others, -, hothers, rfl⟩ := functionsCode_cons_eq_some.mp h
    simp [ih hothers]

theorem length_emitFunctions {fs : List (String × Function)} {positions : List Nat}
    (h : emitFunctions fs e = .ok positions e') : positions.length = fs.length := by
  induction fs generalizing e positions with
  | nil =>
    obtain ⟨rfl, rfl⟩ := pure_eq_ok.mp h
    rfl
  | cons entry rest ih =>
    obtain ⟨position, e₁, -, h⟩ := bind_eq_ok.mp h
    obtain ⟨others, e₂, hrest, h⟩ := bind_eq_ok.mp h
    obtain ⟨rfl, rfl⟩ := pure_eq_ok.mp h
    simp [ih hrest]

/-- Filling in the targets of the tests gives the dispatcher with these targets. -/
theorem patchTests_or {targets : List Nat} {bytes : List UInt8} (hempty : e.current.size = 0)
    (htargets : targets.length = c.dispatchable.length)
    (hw : Wrote (e.dispatching c) (assemble (dispatcherCode c (placeholders c)) ++ bytes) e') :
    (TargetsFit targets ∧ ∃ e'',
      patchAll ((dispatchPositions 14 c.dispatchable.length).zip targets) e' = .ok () e'' ∧
        Wrote (e.dispatching c) (assemble (dispatcherCode c targets) ++ bytes) e'') ∨
    (¬TargetsFit targets ∧ ∃ e'',
      patchAll ((dispatchPositions 14 c.dispatchable.length).zip targets) e' =
        .error .wordTooBig e'') := by
  have hcode : ∀ targets, assemble (dispatcherCode c targets) ++ bytes =
      assemble (prologueCode (revertStart c) ++
        dispatchesCode ((selectors c.dispatchable).zip targets)) ++
          (assemble revertCode ++ bytes) := by
    simp [dispatcherCode]
  have hlen : (selectors c.dispatchable).length = c.dispatchable.length := by simp [selectors]
  have hstart : (e.dispatching c).current.size + codeSize (prologueCode (revertStart c)) = 14 := by
    rw [codeSize_prologueCode]
    exact congrArg (· + 14) hempty
  rw [hcode] at hw ⊢
  have hpatched := patchAll_or (fun s hs => length_of_mem_selectors hs)
    ((length_placeholders c).trans hlen.symm) (htargets.trans hlen.symm) hw
  rwa [hstart, hlen] at hpatched

/-- How a runtime code comes about from `e` to `e'`: the dispatcher is written up to `e₁`, then
the functions up to `e₂`, and at last their positions are filled in, which leaves their code
and the creation code alone. -/
structure RuntimeSteps (c : ContractState) (e e' e₁ e₂ : Emitter) (targets : List Nat)
    (bytes : List UInt8) : Prop where
  dispatcher : ∃ jumps, emitDispatcher c e = .ok jumps e₁
  functions : emitFunctions c.dispatchable e₁ = .ok targets e₂
  start_region : e₁.region = e.region
  start_contract : e₁.contract = some c
  start_size : e₁.current.size = functionsStart c
  wrote : Wrote e₁ bytes e₂
  revert_lt : revertStart c < 65536
  targets_lt : ∀ t ∈ targets, t < 65536
  code : e'.current.toList = assemble (dispatcherCode c targets) ++ bytes
  other : e'.other = e.other
  region : e'.region = e.region

/-- Whatever the functions are, a runtime code is written in these steps. -/
theorem emitRuntime_steps (hempty : e.current.size = 0) (h : emitRuntime c e = .ok u e') :
    ∃ e₁ e₂ targets bytes, RuntimeSteps c e e' e₁ e₂ targets bytes := by
  obtain ⟨jumps, e₁, hdispatcher, h⟩ := bind_eq_ok.mp h
  obtain ⟨targets, e₂, hfunctions, hpatches⟩ := bind_eq_ok.mp h
  obtain ⟨rfl, hlt, hw₁⟩ := wrote_emitDispatcher hempty hdispatcher
  have hempty' : (e.dispatching c).current.size = 0 := hempty
  have hstart : e₁.current.size = functionsStart c := by
    rw [hw₁.codeSize, hempty', codeSize_dispatcherCode (length_placeholders c), Nat.zero_add]
  obtain ⟨bytes, hw₂⟩ := appends_emitFunctions _ hfunctions
  obtain ⟨hlts, e₃, hok, hw'⟩ | ⟨-, e₃, hfail⟩ :=
    patchTests_or hempty (length_emitFunctions hfunctions) (hw₁.trans hw₂)
  case inr => simp [hpatches] at hfail
  obtain rfl : e₃ = e' := (EStateM.Result.ok.inj (hok.symm.trans hpatches)).2
  have hnil : (e.dispatching c).current.toList = [] := List.eq_nil_of_length_eq_zero hempty
  refine ⟨e₁, e₂, targets, bytes, ⟨_, hdispatcher⟩, hfunctions, hw₁.region, hw₁.contract, hstart,
    hw₂, hlt, hlts, ?_, hw'.other, hw'.region⟩
  rw [hw'.current, hnil, List.nil_append]

/-- The runtime code is the listing of its parts, and all jump targets fit into two bytes. -/
theorem wrote_emitRuntime (hfit : FunctionsFit c c.dispatchable) (hempty : e.current.size = 0)
    (h : emitRuntime c e = .ok u e') :
    ∃ codes, functionsCode c (functionsStart c) c.dispatchable = some codes ∧
      revertStart c < 65536 ∧ (∀ t ∈ codeStarts (functionsStart c) codes, t < 65536) ∧
      e'.current.toList = assemble (runtimeCode c codes) ∧ e'.other = e.other ∧
      e'.region = e.region := by
  obtain ⟨e₁, e₂, targets, bytes, hsteps⟩ := emitRuntime_steps hempty h
  obtain ⟨codes, hcodes, rfl, hw⟩ :=
    wrote_emitFunctions hfit hsteps.start_contract hsteps.functions
  obtain rfl : bytes = assemble codes.flatten :=
    List.append_cancel_left (hsteps.wrote.current.symm.trans hw.current)
  rw [hsteps.start_size] at hcodes
  have hlts := hsteps.targets_lt
  have hcode := hsteps.code
  rw [hsteps.start_size] at hlts hcode
  refine ⟨codes, hcodes, hsteps.revert_lt, hlts, ?_, hsteps.other, hsteps.region⟩
  rw [hcode, runtimeCode, assemble_append]

end ContractKit.Evm
