import ContractKit.Proofs.Evm.Body
import ContractKit.Proofs.Evm.Runtime

/-!
# Every jump of a runtime code has a destination

A sweep reads a code from its beginning to its end without running it, one instruction after
the other.  Over a generated runtime code it meets the instructions of the listing, and each
jump among them, whether a message can reach it or not, stands behind the push of a position
at which the sweep meets a `JUMPDEST`.

The jumps of a branch lead into the branch itself, so statements are closed: wherever they
stand, their jumps stay among them.  Only the tests of the dispatcher lead further, to the
functions behind them.
-/

namespace ContractKit.Evm

open Source
open Layout (bigEndian)

/-! ## Sweeping over a code -/

/-- An instruction that a sweep meets: where it begins, its byte, and the bytes behind it that
belong to it. -/
structure Swept where
  position : Nat
  byte : UInt8
  immediate : List UInt8
  deriving DecidableEq, Repr

/-- The instructions of a code that begins at a position.  There are none to speak of if the
code ends within one of them. -/
def sweep (position : Nat) : List UInt8 → Option (List Swept)
  | [] => some []
  | b :: rest =>
    if rest.length < immediateSize b then none
    else
      (sweep (position + 1 + immediateSize b) (rest.drop (immediateSize b))).map
        (⟨position, b, rest.take (immediateSize b)⟩ :: ·)
termination_by bytes => bytes.length
decreasing_by simp only [List.length_drop, List.length_cons]; omega

/-- Whether an instruction that is met jumps. -/
def Swept.isJump (i : Swept) : Bool :=
  i.byte == Opcode.jump.byte || i.byte == Opcode.jumpI.byte

/-- Every jump that is met comes directly behind a `PUSH2`, and where that one points to a
`JUMPDEST` is met. -/
def JumpsResolved (met : List Swept) : Prop :=
  ∀ before i after, met = before ++ i :: after → i.isJump = true →
    ∃ front push, before = front ++ [push] ∧ push.byte = Opcode.push2.byte ∧
      ∃ dest ∈ met, dest.byte = Opcode.jumpDest.byte ∧ dest.position = bigEndian push.immediate

/-- An instruction of a listing as it is met at a position. -/
def Instr.sweptAt (position : Nat) : Instr → Swept
  | .push bytes _ => ⟨position, (0x5f + bytes.length).toUInt8, bytes⟩
  | .op o _ => ⟨position, o.byte, []⟩

/-- The instructions of a listing as they are met from a position on. -/
def sweptFrom (position : Nat) : List Instr → List Swept
  | [] => []
  | i :: is => i.sweptAt position :: sweptFrom (position + i.encode.length) is

theorem sweptFrom_append (position : Nat) (is js : List Instr) :
    sweptFrom position (is ++ js) =
      sweptFrom position is ++ sweptFrom (position + codeSize is) js := by
  induction is generalizing position with
  | nil => simp [sweptFrom]
  | cons i is ih => simp [sweptFrom, ih, Nat.add_assoc]

/-- A sweep that comes to an instruction takes it as a whole. -/
theorem sweep_encode (position : Nat) (i : Instr) (rest : List UInt8) :
    sweep position (i.encode ++ rest) =
      (sweep (position + i.encode.length) rest).map (i.sweptAt position :: ·) := by
  cases i with
  | push bytes fits =>
    have hsize := immediateSize_pushByte fits
    have hroom : ¬(bytes ++ rest).length < bytes.length := by simp
    have hnext : position + 1 + bytes.length = position + (bytes.length + 1) := by omega
    rw [Instr.encode, List.cons_append, sweep, hsize, if_neg hroom, List.drop_left,
      List.take_left, hnext]
    rfl
  | op o plain =>
    have hsize := immediateSize_byte plain
    simp [Instr.encode, Instr.sweptAt, sweep, hsize]

/-- A sweep over a listing comes to its end and meets the instructions of the listing. -/
theorem sweep_assemble (position : Nat) (is : List Instr) :
    sweep position (assemble is) = some (sweptFrom position is) := by
  induction is generalizing position with
  | nil => simp [sweep, sweptFrom]
  | cons i is ih => simp [sweep_encode, sweptFrom, ih]

/-! ## Jumps of a listing -/

/-- Whether an instruction without immediate bytes jumps. -/
def Opcode.isJump : Opcode → Bool
  | .jump | .jumpI => true
  | _ => false

def Instr.isJump : Instr → Bool
  | .push _ _ => false
  | .op o _ => o.isJump

@[simp] theorem Instr.isJump_op (o : Opcode) (plain : o.isPush = false) :
    (Instr.op o plain).isJump = o.isJump := rfl

@[simp] theorem Instr.isJump_push (bytes : List UInt8) (fits : bytes.length ≤ 32) :
    (Instr.push bytes fits).isJump = false := rfl

@[simp] theorem Instr.isJump_ofBytes (bytes : List UInt8) :
    (Instr.ofBytes bytes).isJump = false := rfl

@[simp] theorem Instr.isJump_pushNat (n : Nat) : (Instr.pushNat n).isJump = false := rfl

@[simp] theorem Instr.isJump_pushTarget (n : Nat) : (Instr.pushTarget n).isJump = false := rfl

def Straight (is : List Instr) : Prop := ∀ i ∈ is, i.isJump = false

/-- Every jump of a listing stands behind the push of a position of which something is known. -/
def JumpsTo (P : Nat → Prop) (is : List Instr) : Prop :=
  ∀ before i after, is = before ++ i :: after → i.isJump = true →
    ∃ front target, before = front ++ [.pushTarget target] ∧ target < 65536 ∧ P target

/-- A listing that begins at a position has a `JUMPDEST` at another. -/
def DestAt (start : Nat) (is : List Instr) (target : Nat) : Prop :=
  ∃ front back, is = front ++ .op .jumpDest :: back ∧ target = start + codeSize front

/-- A listing that begins at a position and whose jumps lead to places of its own. -/
def Closed (start : Nat) (is : List Instr) : Prop := JumpsTo (DestAt start is) is

section JumpsTo

variable {P Q : Nat → Prop} {is js : List Instr}

theorem Straight.append (h : Straight is) (h' : Straight js) : Straight (is ++ js) := by
  intro i hi
  rcases List.mem_append.mp hi with hi | hi
  · exact h i hi
  · exact h' i hi

theorem Straight.jumpsTo (h : Straight is) (P : Nat → Prop) : JumpsTo P is := by
  intro before i after his hjump
  have hnot : i.isJump = false := h i (by simp [his])
  simp [hnot] at hjump

theorem JumpsTo.mono (h : JumpsTo P is) (hPQ : ∀ t, P t → Q t) : JumpsTo Q is := by
  intro before i after his hjump
  obtain ⟨front, target, hbefore, hlt, hP⟩ := h before i after his hjump
  exact ⟨front, target, hbefore, hlt, hPQ target hP⟩

/-- A jump of the second listing does not look back into the first. -/
theorem JumpsTo.append (h : JumpsTo P is) (h' : JumpsTo P js) : JumpsTo P (is ++ js) := by
  intro before i after hcut hjump
  rcases List.append_eq_append_iff.mp hcut with ⟨mid, rfl, hjs⟩ | ⟨mid, his, hmid⟩
  · obtain ⟨front, target, rfl, hlt, hP⟩ := h' mid i after hjs hjump
    exact ⟨is ++ front, target, by simp, hlt, hP⟩
  · cases mid with
    | nil =>
      obtain ⟨front, target, hnil, -⟩ := h' [] i after (by simpa using hmid.symm) hjump
      simp at hnil
    | cons j mid =>
      obtain ⟨rfl, -⟩ : i = j ∧ after = mid ++ js := by simpa using hmid
      exact h before i mid his hjump

theorem jumpsTo_pair {target : Nat} {o : Opcode} {plain : o.isPush = false} (hlt : target < 65536)
    (hP : P target) : JumpsTo P [.pushTarget target, .op o plain] := by
  intro before i after hcut hjump
  match before with
  | [] =>
    obtain ⟨rfl, -⟩ : Instr.pushTarget target = i ∧ _ := by simpa using hcut
    simp at hjump
  | [first] =>
    obtain ⟨rfl, -⟩ : Instr.pushTarget target = first ∧ _ := by simpa using hcut
    exact ⟨[], target, rfl, hlt, hP⟩
  | _ :: _ :: more => simp at hcut

/-- What is a destination within a part of a listing is one within the whole. -/
theorem DestAt.within {start target : Nat} {pre mid post : List Instr}
    (h : DestAt (start + codeSize pre) mid target) :
    DestAt start (pre ++ (mid ++ post)) target := by
  obtain ⟨front, back, rfl, rfl⟩ := h
  exact ⟨pre ++ front, back ++ post, by simp, by simp [Nat.add_assoc]⟩

theorem destAt_head (start : Nat) (is : List Instr) : DestAt start (.op .jumpDest :: is) start :=
  ⟨[], is, rfl, rfl⟩

/-- A closed part of a listing may jump within the whole. -/
theorem Closed.within {start : Nat} {pre mid : List Instr} (h : Closed (start + codeSize pre) mid)
    (post : List Instr) : JumpsTo (DestAt start (pre ++ (mid ++ post))) mid :=
  h.mono fun _ => .within

theorem Closed.append {start : Nat} (h : Closed start is) (h' : Closed (start + codeSize is) js) :
    Closed start (is ++ js) := by
  have hleft : JumpsTo (DestAt start (is ++ js)) is := by
    simpa using @Closed.within start [] is (by simpa using h) js
  have hright : JumpsTo (DestAt start (is ++ js)) js := by
    simpa using h'.within []
  exact hleft.append hright

theorem Straight.closed (h : Straight is) (start : Nat) : Closed start is := h.jumpsTo _

end JumpsTo

/-! ## Jumps of expressions and statements -/

variable {S : Scope}

theorem straight_exprCode (S : Scope) (expr : Expr) : Straight (exprCode S expr) := by
  have hbinary : ∀ op, Straight (binaryCode op) := by
    intro op
    cases op <;> simp [Straight, binaryCode, Opcode.isJump]
  have hcompare : ∀ op, Straight (compareCode op) := by
    intro op
    cases op <;> simp [Straight, compareCode, Opcode.isJump]
  fun_induction exprCode S expr with
  | case1 v => simp [Straight]
  | case2 x index hget => simp [Straight, Opcode.isJump]
  | case3 x hget => simp [Straight]
  | case4 field slot hk => simp [Straight, Opcode.isJump]
  | case5 field hk => simp [Straight]
  | case6 field index slot hk ih =>
    exact ih.append (by simp [Straight, Opcode.isJump])
  | case7 field index hk => simp [Straight]
  | case8 left op right ihl ihr => exact (ihl.append ihr).append (hbinary op)
  | case9 left op right ihl ihr => exact (ihl.append ihr).append (hcompare op)
  | case10 left op right more hmore ih => exact ih
  | case11 => simp [Straight]

theorem straight_assignCode (S : Scope) (target value : Expr) :
    Straight (assignCode S target value) := by
  have hvalue := straight_exprCode S value
  unfold assignCode
  split
  · split
    · exact hvalue.append (by simp [Straight, Opcode.isJump])
    · simp [Straight]
  · split
    · exact (hvalue.append (straight_exprCode S _)).append
        (by simp [Straight, Opcode.isJump])
    · simp [Straight]
  · simp [Straight]

theorem straight_returnWordCode : Straight returnWordCode := by
  simp [Straight, returnWordCode, Opcode.isJump]

theorem straight_returnEmptyCode : Straight returnEmptyCode := by
  simp [Straight, returnEmptyCode, Opcode.isJump]

/-- Of the two jumps of a branch one leads to its second part and the other to its end. -/
theorem Closed.branch {start : Nat} {test body orelse : List Instr} (htest : Straight test)
    (hbody : Closed (start + codeSize test + 5) body)
    (horelse : Closed (elseTarget start test body + 1) orelse)
    (hlt : endTarget start test body orelse < 65536) :
    Closed start (branchCode start test body orelse) := by
  have helse : elseTarget start test body < 65536 := by
    simp only [endTarget] at hlt
    omega
  -- The branch, cut at its two destinations and around its two parts.
  have hcut : branchCode start test body orelse =
      (test ++ [Instr.op .isZero]) ++
        ([Instr.pushTarget (elseTarget start test body), .op .jumpI] ++ (body ++
          ([Instr.pushTarget (endTarget start test body orelse), .op .jump] ++
            ([Instr.op .jumpDest] ++ (orelse ++ [Instr.op .jumpDest]))))) := by
    simp [branchCode]
  have hthen : DestAt start (branchCode start test body orelse) (elseTarget start test body) := by
    refine ⟨test ++ [Instr.op .isZero, .pushTarget (elseTarget start test body), .op .jumpI] ++
      body ++ [Instr.pushTarget (endTarget start test body orelse), .op .jump],
      orelse ++ [Instr.op .jumpDest], by simp [branchCode], ?_⟩
    simp [elseTarget]
    omega
  have hend : DestAt start (branchCode start test body orelse)
      (endTarget start test body orelse) := by
    refine ⟨test ++ [Instr.op .isZero, .pushTarget (elseTarget start test body), .op .jumpI] ++
      body ++ [Instr.pushTarget (endTarget start test body orelse), .op .jump, .op .jumpDest] ++
      orelse, [], by simp [branchCode], ?_⟩
    simp [endTarget, elseTarget]
    omega
  have hbodyIn : JumpsTo (DestAt start (branchCode start test body orelse)) body := by
    refine hbody.mono fun t ht => ?_
    rw [show branchCode start test body orelse =
      (test ++ [Instr.op .isZero, .pushTarget (elseTarget start test body), .op .jumpI]) ++
        (body ++ ([Instr.pushTarget (endTarget start test body orelse), .op .jump, .op .jumpDest] ++
          orelse ++ [Instr.op .jumpDest])) by simp [branchCode]]
    exact DestAt.within (by simpa [Nat.add_assoc] using ht)
  have horelseIn : JumpsTo (DestAt start (branchCode start test body orelse)) orelse := by
    refine horelse.mono fun t ht => ?_
    rw [show branchCode start test body orelse =
      (test ++ [Instr.op .isZero, .pushTarget (elseTarget start test body), .op .jumpI] ++ body ++
        [Instr.pushTarget (endTarget start test body orelse), .op .jump, .op .jumpDest]) ++
          (orelse ++ [Instr.op .jumpDest]) by simp [branchCode]]
    refine DestAt.within ?_
    have hplace : start + codeSize (test ++
        [Instr.op .isZero, .pushTarget (elseTarget start test body), .op .jumpI] ++ body ++
          [Instr.pushTarget (endTarget start test body orelse), .op .jump, .op .jumpDest]) =
        elseTarget start test body + 1 := by
      simp [elseTarget]
      omega
    rwa [hplace]
  have hplain : Straight [Instr.op .jumpDest] := by simp [Straight, Opcode.isJump]
  have hfront : Straight (test ++ [Instr.op .isZero]) :=
    htest.append (by simp [Straight, Opcode.isJump])
  unfold Closed
  generalize DestAt start (branchCode start test body orelse) = P at *
  rw [hcut]
  exact (hfront.jumpsTo P).append ((jumpsTo_pair helse hthen).append (hbodyIn.append
    ((jumpsTo_pair hlt hend).append ((hplain.jumpsTo P).append
      (horelseIn.append (hplain.jumpsTo P))))))

/-- The jumps of statements stay among them. -/
theorem closed_stmtsCode (stmts : List Stmt) {start : Nat} {code : List Instr}
    (h : stmtsCode S start stmts = some code) : Closed start code := by
  refine (compileStmt.mutual_induct
    (fun stmt => ∀ start code, stmtCode S start stmt = some code → Closed start code)
    (fun stmts => ∀ start code, stmtsCode S start stmts = some code → Closed start code)
    ?assign ?ret ?retNone ?branch ?other ?nil ?cons).2 stmts start code h
  case assign =>
    intro target value start code h
    simp only [stmtCode, Option.some.injEq] at h
    exact h ▸ (straight_assignCode S target value).closed start
  case ret =>
    intro value start code h
    simp only [stmtCode, Option.some.injEq] at h
    exact h ▸ ((straight_exprCode S value).append straight_returnWordCode).closed start
  case retNone =>
    intro start code h
    simp only [stmtCode, Option.some.injEq] at h
    exact h ▸ straight_returnEmptyCode.closed start
  case branch =>
    intro test body orelse hbody horelse start code h
    obtain ⟨bodyCode, elseCode, hbodyCode, helseCode, hlt, rfl⟩ := stmtCode_ifThen_eq_some.mp h
    exact .branch (straight_exprCode S test) (hbody _ _ hbodyCode) (horelse _ _ helseCode) hlt
  case other =>
    intro stmt h₁ h₂ h₃ h₄ start code h
    rw [stmtCode, Option.some.injEq] at h <;> try assumption
    exact h ▸ Straight.closed (by simp [Straight]) start
  case nil =>
    intro start code h
    simp only [stmtsCode, Option.some.injEq] at h
    exact h ▸ Straight.closed (by simp [Straight]) start
  case cons =>
    intro stmt rest hstmt hrest start code h
    obtain ⟨first, others, hfirst, hothers, rfl⟩ := stmtsCode_cons_eq_some.mp h
    exact (hstmt _ _ hfirst).append (hrest _ _ hothers)

/-! ## Jumps of a runtime code -/

variable {c : ContractState} {e : Emitter}

theorem closed_functionCode {f : Function} {start : Nat} {code : List Instr}
    (h : functionCode c start f = some code) : Closed start code := by
  obtain ⟨body, hbody, rfl⟩ := Option.map_eq_some_iff.mp h
  have hdest : Closed start [Instr.op .jumpDest] :=
    Straight.closed (by simp [Straight, Opcode.isJump]) start
  have hending : Straight (endingCode f) := by
    unfold endingCode
    split
    · simp [Straight]
    · split
      · have hzero : Straight [Instr.pushNat 0] := by simp [Straight]
        exact hzero.append straight_returnWordCode
      · exact straight_returnEmptyCode
  exact hdest.append ((closed_stmtsCode f.body hbody).append (hending.closed _))

theorem closed_functionsCode {fs : List (String × Function)} {start : Nat}
    {codes : List (List Instr)} (h : functionsCode c start fs = some codes) :
    Closed start codes.flatten := by
  induction fs generalizing start codes with
  | nil =>
    obtain rfl := Option.some.inj h
    exact Straight.closed (by simp [Straight]) start
  | cons entry rest ih =>
    obtain ⟨code, others, hcode, hothers, rfl⟩ := functionsCode_cons_eq_some.mp h
    exact (closed_functionCode hcode).append (ih hothers)

/-- Where a function begins there is a `JUMPDEST`. -/
theorem destAt_of_mem_codeStarts {fs : List (String × Function)} {start target : Nat}
    {codes : List (List Instr)} (h : functionsCode c start fs = some codes)
    (ht : target ∈ codeStarts start codes) : DestAt start codes.flatten target := by
  induction fs generalizing start codes with
  | nil =>
    obtain rfl := Option.some.inj h
    simp [codeStarts] at ht
  | cons entry rest ih =>
    obtain ⟨code, others, hcode, hothers, rfl⟩ := functionsCode_cons_eq_some.mp h
    obtain ⟨body, -, rfl⟩ := Option.map_eq_some_iff.mp hcode
    rcases List.mem_cons.mp ht with rfl | hrest
    · exact destAt_head _ _
    · obtain ⟨front, back, hflat, rfl⟩ := ih hothers hrest
      refine ⟨.op .jumpDest :: (body ++ endingCode entry.2) ++ front, back, ?_, ?_⟩
      · simp [hflat]
      · simp [Nat.add_assoc]

/-- The tests of a dispatcher jump to their targets. -/
theorem jumpsTo_dispatchesCode {P : Nat → Prop} {entries : List (List UInt8 × Nat)}
    (h : ∀ entry ∈ entries, entry.2 < 65536 ∧ P entry.2) :
    JumpsTo P (dispatchesCode entries) := by
  induction entries with
  | nil => exact Straight.jumpsTo (by simp [Straight]) P
  | cons entry rest ih =>
    obtain ⟨selector, target⟩ := entry
    obtain ⟨hlt, hP⟩ := h _ List.mem_cons_self
    have htest : Straight [Instr.op .dup1, .ofBytes selector, .op .eq] := by
      simp [Straight, Opcode.isJump]
    have hjump : JumpsTo P [Instr.pushTarget target, .op .jumpI] := jumpsTo_pair hlt hP
    have hrest := ih fun entry he => h entry (List.mem_cons_of_mem _ he)
    exact ((htest.jumpsTo P).append hjump).append hrest

theorem closed_runtimeCode {codes : List (List Instr)}
    (hcodes : functionsCode c (functionsStart c) c.dispatchable = some codes)
    (hrevert : revertStart c < 65536)
    (hstarts : ∀ t ∈ codeStarts (functionsStart c) codes, t < 65536) :
    Closed 0 (runtimeCode c codes) := by
  have hlen : (codeStarts (functionsStart c) codes).length = c.dispatchable.length :=
    (length_codeStarts _ _).trans (length_functionsCode hcodes)
  have hsize : codeSize (dispatcherCode c (codeStarts (functionsStart c) codes)) =
      functionsStart c := codeSize_dispatcherCode hlen
  have hfunctions : ∀ t, DestAt (functionsStart c) codes.flatten t →
      DestAt 0 (runtimeCode c codes) t := by
    intro t ht
    have hwithin : DestAt 0 (dispatcherCode c (codeStarts (functionsStart c) codes) ++
        (codes.flatten ++ [])) t := DestAt.within (by rwa [hsize, Nat.zero_add])
    simpa [runtimeCode] using hwithin
  have hrevertDest : DestAt 0 (runtimeCode c codes) (revertStart c) := by
    refine ⟨prologueCode (revertStart c) ++ dispatchesCode
      ((selectors c.dispatchable).zip (codeStarts (functionsStart c) codes)),
      [Instr.pushNat 0, .pushNat 0, .op .revert] ++ codes.flatten, ?_, ?_⟩
    · simp [runtimeCode, dispatcherCode, revertCode]
    · simp [codeSize_selectors_zip hlen, revertStart]
  have htests : JumpsTo (DestAt 0 (runtimeCode c codes)) (dispatchesCode
      ((selectors c.dispatchable).zip (codeStarts (functionsStart c) codes))) := by
    refine jumpsTo_dispatchesCode fun entry he => ?_
    have hmem := (List.of_mem_zip he).2
    exact ⟨hstarts _ hmem, hfunctions _ (destAt_of_mem_codeStarts hcodes hmem)⟩
  have hcheck : Straight [Instr.pushNat 4, .op .callDataSize, .op .lt] := by
    simp [Straight, Opcode.isJump]
  have hload : Straight [Instr.pushNat 0, .op .callDataLoad, .pushNat 224, .op .shr] := by
    simp [Straight, Opcode.isJump]
  have hreverting : Straight revertCode := by
    simp [Straight, revertCode, Opcode.isJump]
  have hbodies : JumpsTo (DestAt 0 (runtimeCode c codes)) codes.flatten :=
    (closed_functionsCode hcodes).mono hfunctions
  have hcut : runtimeCode c codes =
      [Instr.pushNat 4, .op .callDataSize, .op .lt] ++
        ([Instr.pushTarget (revertStart c), .op .jumpI] ++
          ([Instr.pushNat 0, .op .callDataLoad, .pushNat 224, .op .shr] ++
            (dispatchesCode
              ((selectors c.dispatchable).zip (codeStarts (functionsStart c) codes)) ++
                (revertCode ++ codes.flatten)))) := by
    simp [runtimeCode, dispatcherCode, prologueCode]
  unfold Closed
  generalize DestAt 0 (runtimeCode c codes) = P at *
  rw [hcut]
  exact (hcheck.jumpsTo P).append ((jumpsTo_pair hrevert hrevertDest).append
    ((hload.jumpsTo P).append (htests.append ((hreverting.jumpsTo P).append hbodies))))

/-! ## Jumps that a sweep meets -/

/-- What is met between others is an instruction between others. -/
theorem sweptFrom_cut {position : Nat} {is : List Instr} {before after : List Swept} {i : Swept}
    (h : sweptFrom position is = before ++ i :: after) :
    ∃ front x back, is = front ++ x :: back ∧ before = sweptFrom position front ∧
      i = x.sweptAt (position + codeSize front) := by
  induction is generalizing position before with
  | nil => simp [sweptFrom] at h
  | cons x is ih =>
    cases before with
    | nil =>
      obtain ⟨rfl, -⟩ : x.sweptAt position = i ∧ _ := by simpa [sweptFrom] using h
      exact ⟨[], x, is, rfl, rfl, rfl⟩
    | cons first before =>
      obtain ⟨rfl, hrest⟩ : x.sweptAt position = first ∧
          sweptFrom (position + x.encode.length) is = before ++ i :: after := by
        simpa [sweptFrom] using h
      obtain ⟨front, y, back, rfl, rfl, rfl⟩ := ih hrest
      exact ⟨x :: front, y, back, rfl, rfl, by simp [Nat.add_assoc]⟩

/-- A byte that jumps belongs to an instruction that does. -/
theorem isJump_of_sweptAt {position : Nat} {x : Instr} (h : (x.sweptAt position).isJump = true) :
    x.isJump = true := by
  cases x with
  | push bytes fits =>
    -- The bytes of pushes begin behind those of jumps.
    have hbyte := toNat_pushByte fits
    simp only [Swept.isJump, Instr.sweptAt, Bool.or_eq_true, beq_iff_eq] at h
    rcases h with h | h
    · rw [h] at hbyte
      simp [Opcode.byte] at hbyte
      omega
    · rw [h] at hbyte
      simp [Opcode.byte] at hbyte
      omega
  | op o plain => cases o <;> simp_all [Swept.isJump, Instr.sweptAt, Opcode.isJump, Opcode.byte]

/-- The jumps of a closed listing are resolved where a sweep meets them. -/
theorem Closed.jumpsResolved {is : List Instr} (h : Closed 0 is) :
    JumpsResolved (sweptFrom 0 is) := by
  intro before i after hmet hjump
  obtain ⟨front, x, back, rfl, rfl, rfl⟩ := sweptFrom_cut hmet
  obtain ⟨start, target, rfl, hlt, hdest⟩ := h front x back rfl (isJump_of_sweptAt hjump)
  obtain ⟨pre, post, hcut, htarget⟩ := hdest
  refine ⟨sweptFrom 0 start, (Instr.pushTarget target).sweptAt (0 + codeSize start), ?_, rfl,
    (Instr.op .jumpDest).sweptAt (0 + codeSize pre), ?_, rfl, ?_⟩
  · simp [sweptFrom_append, sweptFrom]
  · simp [hcut, sweptFrom_append, sweptFrom]
  · have hread : bigEndian (bigEndianBytes 2 target) = target :=
      bigEndian_bigEndianBytes_of_lt (by simpa using hlt)
    show 0 + codeSize pre = bigEndian (bigEndianBytes 2 target)
    rw [hread, htarget]

/-- **Every jump has a destination.**  A sweep over the runtime code generated for an analyzed
contract comes exactly to its end.  It meets the instructions of the listing, in which the
targets of jumps are the positions of what they are to lead to, and no placeholder is left.
Every jump it meets, whether it can be reached or not, comes directly behind a `PUSH2` of a
position at which it meets a `JUMPDEST`. -/
theorem runtime_jumps_resolved (hc : Analyzed c) (hcall : Callable c)
    (hbody : ∀ entry ∈ c.dispatchable, StmtsFit entry.2.body)
    (hgen : (emitContract c).run {} = .ok () e) :
    ∃ codes, functionsCode c (functionsStart c) c.dispatchable = some codes ∧
      sweep 0 e.runtime.toList = some (sweptFrom 0 (runtimeCode c codes)) ∧
      JumpsResolved (sweptFrom 0 (runtimeCode c codes)) := by
  obtain ⟨codes, hlist⟩ := runtime_listing hc hcall hbody hgen
  refine ⟨codes, hlist.codes_eq, ?_, ?_⟩
  · rw [hlist.runtime_eq]
    exact sweep_assemble 0 _
  · exact (closed_runtimeCode hlist.codes_eq hlist.revert_lt hlist.starts_lt).jumpsResolved

/-- Four jumps are met: for data that are too short, for the function, and two for the branch
in its body. -/
theorem runtime_jumps_resolved_tally :
    ∃ e met, (emitContract tally).run {} = .ok () e ∧ sweep 0 e.runtime.toList = some met ∧
      JumpsResolved met ∧ (met.filter Swept.isJump).length = 4 := by
  obtain ⟨e, hgen⟩ := exists_of_runtimeSize? generated_tally
  have hcall : Callable tally := fun entry he => (supported_tally entry he).callable
  have hbody := fun entry he => (supported_tally entry he).body.fits
  obtain ⟨codes, hcodes, hsweep, hresolved⟩ :=
    runtime_jumps_resolved analyzed_tally hcall hbody hgen
  have hcount : ((functionsCode tally (functionsStart tally) tally.dispatchable).map fun codes =>
      ((sweptFrom 0 (runtimeCode tally codes)).filter Swept.isJump).length) = some 4 := by
    decide +kernel
  rw [hcodes] at hcount
  exact ⟨e, _, hgen, hsweep, hresolved, Option.some.inj hcount⟩

end ContractKit.Evm
