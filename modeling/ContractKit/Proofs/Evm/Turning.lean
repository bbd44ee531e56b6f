import ContractKit.Proofs.Evm.Emission

/-!
# How operations turn listings

An operation on an emitter turns the listing that was written since some moment into another one:
it appends instructions, or fills in a jump target.  Operations follow one another, and so do the
listings.  The same rules say when an operation fails: where all that it pushes can be pushed, only
a number that does not fit into its bytes can be in its way.
-/

namespace ContractKit

/-- Whether a value is pushed by a single instruction. -/
def Value.Pushable : Value → Prop
  | .int n => 0 ≤ n ∧ n < 2 ^ 256
  | .bool _ => True
  | .text s => ∃ bytes, s.encode = .ok bytes
  | .bytes b => b.length ≤ 32
  | _ => False

/-- A value that can be pushed takes no more bytes than a word has. -/
theorem Value.Pushable.fitsWord {v : Value} (h : v.Pushable) : v.FitsWord := by
  cases v with
  | int n => exact h.2
  | bytes b => exact h
  | bool _ | text _ => trivial
  | none | float _ | imaginary _ | list _ | dict _ | ellipsis => exact h.elim

namespace Evm

/-- An operation where the variables have the given slots, behind a listing that was written from a
position on.  If it succeeds, it gives the value, has turned the listing into the other one, and
something fits.  If it fails although it is sound, that does not fit: a number is too big. -/
def Turns {α : Type} (sound : Prop) (slot? : String → Option Int) (start : Nat) (is : List Instr)
    (x : Emit α) (a : α) (js : List Instr) (fits : Prop) : Prop :=
  ∀ ⦃e₀ e : Emitter⦄, e₀.slot? = slot? → e₀.current.size = start → Wrote e₀ (assemble is) e →
    match x e with
    | .ok b e' => b = a ∧ fits ∧ Wrote e₀ (assemble js) e'
    | .error fault _ => sound → ¬fits ∧ fault = .wordTooBig

/-! ## Numbers that fit -/

theorem integerOperand_natCast {n : Nat} (h : n < 2 ^ 256) :
    integerOperand n none =
      .ok ⟨byteLength n, .ok (bigEndianBytes (byteLength n) n)⟩ := by
  have hle : byteLength n ≤ 32 := byteLength_le_word.mpr h
  have hcheck : checkWord n (byteLength n) = .ok () := by
    have hn : ¬(n : Int) < 0 := by omega
    have hs : ¬(byteLength n : Int) < 0 := by omega
    simp [checkWord, hn, hs]
  have hbyte : pushByte (byteLength n) = .ok (byteLength n + 0x5f).toUInt8 := by
    rw [pushByte, if_pos (by omega)]
  simp [integerOperand, hcheck, hbyte]

theorem operand_of_pushable {v : Value} (h : v.Pushable) :
    ∃ n bytes, operand v none = .ok ⟨n, .ok bytes⟩ ∧ n ≤ 32 := by
  have hint : ∀ n : Nat, n < 2 ^ 256 →
      ∃ k bytes, integerOperand n none = .ok ⟨k, .ok bytes⟩ ∧ k ≤ 32 :=
    fun n hn => ⟨_, _, integerOperand_natCast hn, byteLength_le_word.mpr hn⟩
  cases v with
  | int i =>
    obtain ⟨n, rfl⟩ := Int.eq_ofNat_of_zero_le h.1
    exact hint n (by exact_mod_cast h.2)
  | bool b =>
    cases b
    · exact hint 0 (by norm_num)
    · exact hint 1 (by norm_num)
  | text s =>
    obtain ⟨bytes, hbytes⟩ := h
    exact ⟨32, Layout.wordBytes bytes, by simp only [operand, hbytes], le_rfl⟩
  | bytes b => exact ⟨b.length, b, rfl, h⟩
  | none | float _ | imaginary _ | list _ | dict _ | ellipsis => exact h.elim

theorem emitPush_eq_ok {v : Value} {n : Nat} {bytes : List UInt8}
    (h : operand v none = .ok ⟨n, .ok bytes⟩) (hn : n ≤ 32) (e : Emitter) :
    ∃ e', emitPush v e = .ok () e' := by
  have hbyte : pushByte n = .ok (n + 0x5f).toUInt8 := by
    rw [pushByte, if_pos (by omega)]
  simp only [emitPush, emitPushSized, h, hbyte]
  exact ⟨_, rfl⟩

/-- The only reason why a natural number is not written in some bytes is that it is too big. -/
theorem checkWord_natCast_eq (n : Nat) {size : Nat} (hsize : 0 < size) :
    checkWord n size = if n < 256 ^ size then .ok () else .error .wordTooBig := by
  have hfits : byteLength n ≤ size ↔ n < 256 ^ size := byteLength_le_iff hsize
  simp only [checkWord, Int.toNat_natCast, hfits]
  rw [if_neg (by omega), if_neg (by omega)]
  split
  · rfl
  case isFalse hlarge =>
    have hpos : 0 < 256 ^ size := Nat.pow_pos (by norm_num)
    rw [if_neg (by omega)]

theorem toBytes_two (n : Nat) :
    toBytes n 2 = if n < 65536 then .ok (bigEndianBytes 2 n) else .error .wordTooBig := by
  have hcheck : checkWord n 2 = if n < 65536 then .ok () else .error .wordTooBig :=
    checkWord_natCast_eq n (by norm_num)
  unfold toBytes
  rw [hcheck]
  by_cases hn : n < 65536 <;> simp [hn]

/-! ## Rules -/

namespace Turns

variable {α β : Type} {sound : Prop} {slot? : String → Option Int} {start : Nat}
  {is js ks : List Instr} {x : Emit α} {f : α → Emit β} {a b' : α} {b : β} {P Q : Prop}

theorem congr (h : Turns sound slot? start is x a js P) (hjs : js = ks) (hP : P ↔ Q) :
    Turns sound slot? start is x a ks Q := by
  obtain rfl := hjs
  rwa [← propext hP]

theorem bind (hx : Turns sound slot? start is x a js P)
    (hf : Turns sound slot? start js (f a) b ks Q) :
    Turns sound slot? start is (x >>= f) b ks (P ∧ Q) := by
  intro e₀ e hslot hstart hw
  have hfirst := hx hslot hstart hw
  cases hrun : x e with
  | error fault e₁ =>
    rw [hrun] at hfirst
    simp only [Bind.bind, EStateM.bind, hrun]
    exact fun hs => ⟨fun h => (hfirst hs).1 h.1, (hfirst hs).2⟩
  | ok c e₁ =>
    rw [hrun] at hfirst
    obtain ⟨rfl, hP, hw₁⟩ := hfirst
    have hrest := hf hslot hstart hw₁
    simp only [Bind.bind, EStateM.bind, hrun]
    cases hrun' : f c e₁ with
    | error fault e₂ =>
      rw [hrun'] at hrest
      exact fun hs => ⟨fun h => (hrest hs).1 h.2, (hrest hs).2⟩
    | ok d e₂ =>
      rw [hrun'] at hrest
      exact ⟨hrest.1, ⟨hP, hrest.2.1⟩, hrest.2.2⟩

/-- What comes first may have nothing that has to fit. -/
theorem seq (hx : Turns sound slot? start is x a js True)
    (hf : Turns sound slot? start js (f a) b ks Q) :
    Turns sound slot? start is (x >>= f) b ks Q :=
  (hx.bind hf).congr rfl (iff_of_eq (true_and Q))

/-- What is appended does not depend on what was written before, but for its size. -/
theorem behind {position : Nat} (h : Turns sound slot? position [] x a js P)
    (hsize : position = start + codeSize is) : Turns sound slot? start is x a (is ++ js) P := by
  intro e₀ e hslot hstart hw
  have hx := h (hw.slot?.trans hslot) (by rw [hw.codeSize, hstart, hsize]) (.refl e)
  cases hrun : x e with
  | error fault e₁ => simpa only [hrun] using hx
  | ok c e₁ =>
    rw [hrun] at hx
    exact ⟨hx.1, hx.2.1, hw.append hx.2.2⟩

theorem append (hx : Turns sound slot? start [] x a is P)
    (hf : Turns sound slot? (start + codeSize is) [] (f a) b js Q) :
    Turns sound slot? start [] (x >>= f) b (is ++ js) (P ∧ Q) :=
  hx.bind (hf.behind rfl)

theorem pure (a : α) : Turns sound slot? start is (pure a) a is True :=
  fun _ _ _ _ hw => ⟨rfl, trivial, hw⟩

theorem get {f : Emitter → Emit α}
    (h : ∀ e : Emitter, e.slot? = slot? → Turns sound slot? start is (f e) a js P) :
    Turns sound slot? start is (MonadState.get >>= f) a js P :=
  fun _ e hslot hstart hw => h e (hw.slot?.trans hslot) hslot hstart hw

theorem offset {n : Nat} (hn : n = start + codeSize is) :
    Turns sound slot? start is offset n is True := by
  intro e₀ e _ hstart hw
  exact ⟨by rw [hn, ← hstart, hw.codeSize], trivial, hw⟩

theorem report (line : String) : Turns sound slot? start is (report line) () is True :=
  fun _ _ _ _ hw => ⟨rfl, trivial, by simpa using hw.trans (wrote_report rfl)⟩

theorem op (o : Opcode) (cost : Int) (plain : o.isPush = false := by decide) :
    Turns sound slot? start is (emitOp o cost) () (is ++ [.op o plain]) True :=
  fun _ _ _ _ hw => ⟨rfl, trivial, hw.append (wrote_emitOp rfl plain)⟩

theorem push {v : Value} (hv : v.FitsWord)
    (hs : sound → ∃ n bytes, operand v none = .ok ⟨n, .ok bytes⟩ ∧ n ≤ 32) :
    Turns sound slot? start is (emitPush v) () (is ++ [.ofBytes (pushedBytes v)]) True := by
  intro e₀ e _ _ hw
  cases hrun : emitPush v e with
  | ok u e' => exact ⟨rfl, trivial, hw.append (wrote_emitPush hv hrun).2⟩
  | error fault e' =>
    intro h
    obtain ⟨n, bytes, hop, hle⟩ := hs h
    obtain ⟨e₁, hok⟩ := emitPush_eq_ok hop hle e
    simp [hok] at hrun

/-- An integer below the word size. -/
theorem int {n : Int} (hn : n < 2 ^ 256) (hs : sound → 0 ≤ n) :
    Turns sound slot? start is (emitInt n) () (is ++ [.pushNat n.toNat]) True := by
  intro e₀ e _ _ hw
  cases hrun : emitInt n e with
  | ok u e' => exact ⟨rfl, trivial, hw.append (wrote_emitInt hrun hn).2⟩
  | error fault e' =>
    intro h
    obtain ⟨m, bytes, hop, hle⟩ := operand_of_pushable (v := .int n) ⟨hs h, hn⟩
    obtain ⟨e₁, hok⟩ := emitPush_eq_ok hop hle e
    simp [show emitInt n e = _ from hok] at hrun

theorem zero : Turns sound slot? start is (emitInt 0) () (is ++ [.pushNat 0]) True :=
  int (by norm_num) fun _ => le_rfl

theorem sized (n : Nat) {size : Nat} (hpos : 0 < size) (hle : size ≤ 32) :
    Turns sound slot? start is (emitPushSized (.int n) (some size)) ()
      (is ++ [.push (bigEndianBytes size n) (by simpa using hle)]) (n < 256 ^ size) := by
  intro e₀ e _ _ hw
  cases hrun : emitPushSized (.int n) (some size) e with
  | ok u e' =>
    obtain ⟨hlt, hw'⟩ := wrote_emitSized hle hrun
    exact ⟨rfl, hlt, hw.append hw'⟩
  | error fault e' =>
    intro _
    have hbyte : pushByte size = .ok (size + 0x5f).toUInt8 := by
      rw [pushByte, if_pos (by omega)]
    by_cases hn : n < 256 ^ size
    · simp [emitPushSized, operand, integerOperand, checkWord_natCast_eq n hpos, hn, hbyte] at hrun
    · simp only [emitPushSized, operand, integerOperand, Option.getD_some,
        checkWord_natCast_eq n hpos, if_neg hn, EStateM.Result.error.injEq] at hrun
      exact ⟨hn, hrun.1.symm⟩

/-- A jump target that is filled in later. -/
theorem target (n : Nat) :
    Turns sound slot? start is (emitTarget n) () (is ++ [.pushTarget n]) (n < 65536) :=
  sized n (by norm_num) (by norm_num)

/-- What stands for a jump target until it is known. -/
theorem placeholder {n : Nat} (hn : n < 65536) :
    Turns sound slot? start is (emitTarget n) () (is ++ [.pushTarget n]) True :=
  (target n).congr rfl (iff_of_true hn trivial)

theorem patch (front back : List Instr) (old target : Nat) {position : Int}
    (his : is = front ++ .pushTarget old :: back) (hpos : position = start + codeSize front + 1) :
    Turns sound slot? start is (patch position target 2) () (front ++ .pushTarget target :: back)
      (target < 65536) := by
  intro e₀ e _ hstart hw
  cases hrun : Evm.patch position target 2 e with
  | ok u e' =>
    obtain ⟨hlt, hw'⟩ := (his ▸ hw).patchTarget (by rw [hpos, hstart]) hrun
    exact ⟨rfl, hlt, hw'⟩
  | error fault e' =>
    intro _
    by_cases hn : target < 65536
    · simp [Evm.patch, toBytes_two, hn] at hrun
    · simp only [Evm.patch, toBytes_two, if_neg hn, EStateM.Result.error.injEq] at hrun
      exact ⟨hn, hrun.1.symm⟩

variable {e e' : Emitter}

theorem ok (h : Turns sound slot? e.current.size [] x a is P) (hslot : e.slot? = slot?)
    (hrun : x e = .ok b' e') : b' = a ∧ P ∧ Wrote e (assemble is) e' := by
  have hx := h hslot rfl (.refl e)
  rwa [hrun] at hx

/-- A sound operation succeeds iff what has to fit does. -/
theorem or (h : Turns True slot? start [] x a is P) (hslot : e.slot? = slot?)
    (hstart : e.current.size = start) :
    (P ∧ ∃ e', x e = .ok a e' ∧ Wrote e (assemble is) e') ∨
      (¬P ∧ ∃ e', x e = .error .wordTooBig e') := by
  have hx := h hslot hstart (.refl e)
  cases hrun : x e with
  | ok c e' =>
    rw [hrun] at hx
    obtain ⟨rfl, hP, hw⟩ := hx
    exact .inl ⟨hP, e', rfl, hw⟩
  | error fault e' =>
    rw [hrun] at hx
    obtain ⟨hP, rfl⟩ := hx trivial
    exact .inr ⟨hP, e', rfl⟩

end Turns

end Evm

end ContractKit
