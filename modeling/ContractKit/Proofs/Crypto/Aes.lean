import ContractKit.Crypto.Aes
import Mathlib

/-!
# Decryption undoes encryption

Each part of a round is undone by its partner: the substitution of a byte, the rotation of the
rows, the mixing of the columns, the adding of a key.  Mixing is linear, so it is enough that the
two factor squares are inverse to each other.  A round is undone because its parts are, the rounds
of a block are undone from the last to the first, and the blocks of a chain one after another.
-/

namespace ContractKit.Crypto

/-! ## Bytes -/

/-- What holds of the numbers below 256 holds of every byte. -/
theorem forall_byte {P : UInt8 → Prop} (h : ∀ n < 256, P (UInt8.ofNat n)) (b : UInt8) : P b := by
  have hb := h b.toNat b.toNat_lt
  rwa [UInt8.ofNat_toNat] at hb

theorem length_xorBytes {a b : List UInt8} (h : a.length = b.length) :
    (xorBytes a b).length = b.length := by
  simp [xorBytes, h]

/-- Adding the same bytes twice changes nothing. -/
theorem xorBytes_xorBytes {a b : List UInt8} (h : a.length = b.length) :
    xorBytes (xorBytes a b) b = a := by
  induction a generalizing b with
  | nil => simp [xorBytes]
  | cons x a ih =>
    cases b with
    | nil => simp at h
    | cons y b =>
      have htail := ih (b := b) (by simpa using h)
      simp only [xorBytes, List.zipWith_cons_cons, UInt8.xor_assoc, UInt8.xor_self,
        UInt8.xor_zero] at htail ⊢
      rw [htail]

namespace Aes

variable {block key start bytes : List UInt8} {keys : List (List UInt8)} {r c : Nat}

/-! ## Substitution -/

/-- The inverse table sends the entries of the table to their places. -/
theorem map_substitution :
    substitution.toList.map (substitute inverseSubstitution) =
      (List.range 256).map UInt8.ofNat := by
  decide +kernel

theorem leftInverse_substitute :
    Function.LeftInverse (substitute inverseSubstitution) (substitute substitution) := by
  intro b
  have hplace := congrArg (·[b.toNat]?) map_substitution
  have hb : b.toNat < 256 := b.toNat_lt
  simp only [List.getElem?_map, List.getElem?_range hb, Option.map_some, UInt8.ofNat_toNat,
    Array.getElem?_toList] at hplace
  obtain ⟨entry, hentry, heq⟩ := Option.map_eq_some_iff.1 hplace
  have hsub : substitute substitution b = entry := by
    rw [substitute, Array.getD_eq_getD_getElem?, hentry, Option.getD_some]
  rw [hsub, heq]

theorem map_substitute_inverse (block : List UInt8) :
    (block.map (substitute substitution)).map (substitute inverseSubstitution) = block := by
  rw [List.map_map, leftInverse_substitute.comp_eq_id, List.map_id]

/-! ## Rows and columns -/

@[simp] theorem length_ofRowColumn (f : Nat → Nat → UInt8) : (ofRowColumn f).length = 16 := by
  simp [ofRowColumn]

theorem byteAt_ofRowColumn (f : Nat → Nat → UInt8) (hr : r < 4) (hc : c < 4) :
    byteAt (ofRowColumn f) r c = f r c := by
  have hplace : 4 * c + r < 16 := by omega
  have hrow : (4 * c + r) % 4 = r := by omega
  have hcolumn : (4 * c + r) / 4 = c := by omega
  simp [byteAt, ofRowColumn, List.getD_eq_getElem?_getD, hplace, hrow, hcolumn]

theorem ofRowColumn_congr {f g : Nat → Nat → UInt8} (h : ∀ r < 4, ∀ c < 4, f r c = g r c) :
    ofRowColumn f = ofRowColumn g := by
  refine List.map_congr_left fun i hi => h _ (by omega) _ ?_
  have := List.mem_range.1 hi
  omega

theorem ofRowColumn_byteAt (h : block.length = 16) : ofRowColumn (byteAt block) = block := by
  apply List.ext_getElem
  · simp [h]
  · intro i hi hblock
    have hplace : 4 * (i / 4) + i % 4 = i := by omega
    simp [ofRowColumn, byteAt, hplace, hblock]

theorem unshiftRows_shiftRows (h : block.length = 16) : unshiftRows (shiftRows block) = block := by
  rw [unshiftRows, ← ofRowColumn_byteAt h]
  refine ofRowColumn_congr fun r hr c hc => ?_
  have hplace : ((c + 4 - r) % 4 + r) % 4 = c := by omega
  rw [ofRowColumn_byteAt h, shiftRows, byteAt_ofRowColumn _ hr (by omega), hplace]

/-! ## Mixing -/

/-- The sum of the four terms of a column. -/
def mixSum (f : Nat → UInt8) : UInt8 := f 0 ^^^ f 1 ^^^ f 2 ^^^ f 3

theorem mixWith_eq (factor : Nat → UInt8 → UInt8) (block : List UInt8) :
    mixWith factor block =
      ofRowColumn fun r c => mixSum fun k => factor ((k + 4 - r) % 4) (byteAt block k c) := by
  simp [mixWith, mixSum, List.range_succ]

theorem mixSum_swap (f : Nat → Nat → UInt8) :
    (mixSum fun k => mixSum fun j => f k j) = mixSum fun j => mixSum fun k => f k j := by
  simp only [mixSum]
  ac_rfl

theorem mixSum_single (x : Nat → UInt8) (hr : r < 4) :
    (mixSum fun j => if j = r then x j else 0) = x r := by
  interval_cases r <;> simp [mixSum]

/-- Doubling adds the high bit back, times the reduction constant. -/
theorem double_eq (b : UInt8) : double b = (b <<< 1) ^^^ ((b >>> 7) * 0x1b) := by
  revert b
  exact forall_byte (by decide +kernel)

theorem high_bit (b : UInt8) : b >>> 7 = 0 ∨ b >>> 7 = 1 := by
  revert b
  exact forall_byte (by decide +kernel)

theorem double_xor (a b : UInt8) : double (a ^^^ b) = double a ^^^ double b := by
  have high : ((a ^^^ b) >>> 7) * (0x1b : UInt8) =
      ((a >>> 7) * (0x1b : UInt8)) ^^^ ((b >>> 7) * (0x1b : UInt8)) := by
    rw [UInt8.shiftRight_xor]
    rcases high_bit a with ha | ha <;> rcases high_bit b with hb | hb <;> rw [ha, hb] <;> decide
  rw [double_eq, double_eq, double_eq, high, UInt8.shiftLeft_xor]
  ac_rfl

theorem times_xor (eight four two one : Bool) (a b : UInt8) :
    times eight four two one (a ^^^ b) =
      times eight four two one a ^^^ times eight four two one b := by
  cases eight <;> cases four <;> cases two <;> cases one <;>
    simp only [times, double_xor, if_true, if_false, Bool.false_eq_true, UInt8.xor_zero,
      UInt8.zero_xor] <;> ac_rfl

theorem unmixFactor_xor (i : Nat) (a b : UInt8) :
    unmixFactor i (a ^^^ b) = unmixFactor i a ^^^ unmixFactor i b := by
  unfold unmixFactor
  split <;> exact times_xor ..

theorem unmixFactor_mixSum (i : Nat) (f : Nat → UInt8) :
    unmixFactor i (mixSum f) = mixSum fun k => unmixFactor i (f k) := by
  simp only [mixSum, unmixFactor_xor]

theorem xor_left_comm (x y z : UInt8) : x ^^^ (y ^^^ z) = y ^^^ (x ^^^ z) := by
  ac_rfl

/-- The two squares of factors are inverse to each other. -/
theorem mixSum_factors (b : UInt8) : ∀ r < 4, ∀ j < 4,
    (mixSum fun k => unmixFactor ((k + 4 - r) % 4) (mixFactor ((j + 4 - k) % 4) b)) =
      if j = r then b else 0 := by
  intro r hr j hj
  -- The products are sums of `b` doubled up to four times, and equal terms cancel in pairs.
  interval_cases r <;> interval_cases j <;>
    simp [mixSum, unmixFactor, mixFactor, times, double_xor, UInt8.xor_assoc, UInt8.xor_comm,
      xor_left_comm]

theorem mixSum_congr {f g : Nat → UInt8} (h : ∀ k < 4, f k = g k) : mixSum f = mixSum g := by
  simp only [mixSum, h 0 (by decide), h 1 (by decide), h 2 (by decide), h 3 (by decide)]

theorem unmixColumns_mixColumns (h : block.length = 16) :
    unmixColumns (mixColumns block) = block := by
  rw [unmixColumns, mixWith_eq, mixColumns, mixWith_eq]
  refine (ofRowColumn_congr fun r hr c hc => ?_).trans (ofRowColumn_byteAt h)
  calc mixSum (fun k => unmixFactor ((k + 4 - r) % 4) (byteAt (ofRowColumn fun k c =>
          mixSum fun j => mixFactor ((j + 4 - k) % 4) (byteAt block j c)) k c))
      = mixSum fun k => mixSum fun j =>
          unmixFactor ((k + 4 - r) % 4) (mixFactor ((j + 4 - k) % 4) (byteAt block j c)) :=
        mixSum_congr fun k hk => by rw [byteAt_ofRowColumn _ hk hc, unmixFactor_mixSum]
    _ = mixSum fun j => mixSum fun k =>
          unmixFactor ((k + 4 - r) % 4) (mixFactor ((j + 4 - k) % 4) (byteAt block j c)) :=
        mixSum_swap _
    _ = mixSum fun j => if j = r then byteAt block j c else 0 :=
        mixSum_congr fun j hj => mixSum_factors _ r hr j hj
    _ = byteAt block r c := mixSum_single _ hr

/-! ## Rounds -/

def round (block key : List UInt8) : List UInt8 :=
  xorBytes (mixColumns (shiftRows (block.map (substitute substitution)))) key

/-- What undoes a round that mixes. -/
def unround (block key : List UInt8) : List UInt8 :=
  (unshiftRows (unmixColumns (xorBytes block key))).map (substitute inverseSubstitution)

/-- The last round, which does not mix. -/
def lastRound (block key : List UInt8) : List UInt8 :=
  xorBytes (shiftRows (block.map (substitute substitution))) key

def unlastRound (block key : List UInt8) : List UInt8 :=
  (unshiftRows (xorBytes block key)).map (substitute inverseSubstitution)

theorem length_round (hk : key.length = 16) : (round block key).length = 16 := by
  rw [round, length_xorBytes (by simp [mixColumns, mixWith, hk]), hk]

theorem length_lastRound (hk : key.length = 16) : (lastRound block key).length = 16 := by
  rw [lastRound, length_xorBytes (by simp [shiftRows, hk]), hk]

theorem unround_round (hb : block.length = 16) (hk : key.length = 16) :
    unround (round block key) key = block := by
  rw [unround, round, xorBytes_xorBytes (by simp [mixColumns, mixWith, hk]),
    unmixColumns_mixColumns (by simp [shiftRows]), unshiftRows_shiftRows (by simp [hb]),
    map_substitute_inverse]

theorem unlastRound_lastRound (hb : block.length = 16) (hk : key.length = 16) :
    unlastRound (lastRound block key) key = block := by
  rw [unlastRound, lastRound, xorBytes_xorBytes (by simp [shiftRows, hk]),
    unshiftRows_shiftRows (by simp [hb]), map_substitute_inverse]

theorem encryptRounds_concat (block key : List UInt8) (keys : List (List UInt8)) :
    encryptRounds block (keys ++ [key]) = lastRound (keys.foldl round block) key := by
  induction keys generalizing block with
  | nil => rfl
  | cons k keys ih =>
    have hstep : encryptRounds block (k :: (keys ++ [key])) =
        encryptRounds (round block k) (keys ++ [key]) := by
      cases keys <;> rfl
    rw [List.cons_append, hstep, ih, List.foldl_cons]

theorem decryptRounds_concat (block key : List UInt8) (keys : List (List UInt8)) :
    decryptRounds block (keys ++ [key]) = xorBytes (keys.foldl unround block) key := by
  induction keys generalizing block with
  | nil => rfl
  | cons k keys ih =>
    have hstep : decryptRounds block (k :: (keys ++ [key])) =
        decryptRounds (unround block k) (keys ++ [key]) := by
      cases keys <;> rfl
    rw [List.cons_append, hstep, ih, List.foldl_cons]

theorem length_foldl_round (hb : block.length = 16) (hk : ∀ k ∈ keys, k.length = 16) :
    (keys.foldl round block).length = 16 := by
  induction keys generalizing block with
  | nil => exact hb
  | cons k keys ih =>
    rw [List.forall_mem_cons] at hk
    exact ih (length_round hk.1) hk.2

/-- Rounds are undone from the last one to the first one. -/
theorem foldl_unround_foldl_round (hb : block.length = 16) (hk : ∀ k ∈ keys, k.length = 16) :
    keys.reverse.foldl unround (keys.foldl round block) = block := by
  induction keys generalizing block with
  | nil => rfl
  | cons k keys ih =>
    rw [List.forall_mem_cons] at hk
    have hrest : keys.reverse.foldl unround (keys.foldl round (round block k)) = round block k :=
      ih (length_round hk.1) hk.2
    rw [List.reverse_cons, List.foldl_append]
    simp only [List.foldl_cons, List.foldl_nil, hrest, unround_round hb hk.1]

/-! ## Blocks -/

/-- Round keys that a block is encrypted with: a first key, the keys of the rounds that mix, and
the key of the last round, all as long as a block. -/
structure IsSchedule (keys : List (List UInt8)) : Prop where
  shape : ∃ first middle last, keys = first :: (middle ++ [last])
  length : ∀ k ∈ keys, k.length = 16

theorem length_encryptBlock (hs : IsSchedule keys) (block : List UInt8) :
    (encryptBlock keys block).length = 16 := by
  obtain ⟨⟨first, middle, last, rfl⟩, hk⟩ := hs
  rw [encryptBlock, encryptRounds_concat]
  exact length_lastRound (hk last (by simp))

theorem decryptBlock_encryptBlock (hs : IsSchedule keys) (hb : block.length = 16) :
    decryptBlock keys (encryptBlock keys block) = block := by
  obtain ⟨⟨first, middle, last, rfl⟩, hk⟩ := hs
  have hfirst : block.length = first.length := by rw [hb, hk first (by simp)]
  have hmiddle : ∀ k ∈ middle, k.length = 16 := fun k h => hk k (by simp [h])
  have hstart : (xorBytes block first).length = 16 := by
    rw [length_xorBytes hfirst, hk first (by simp)]
  have hreverse : (first :: (middle ++ [last])).reverse = last :: (middle.reverse ++ [first]) := by
    simp
  calc decryptBlock (first :: (middle ++ [last])) (encryptBlock (first :: (middle ++ [last])) block)
      = decryptRounds
          (unlastRound (lastRound (middle.foldl round (xorBytes block first)) last) last)
          (middle.reverse ++ [first]) := by
        rw [decryptBlock, hreverse, encryptBlock, encryptRounds_concat]
        rfl
    _ = decryptRounds (middle.foldl round (xorBytes block first)) (middle.reverse ++ [first]) := by
        rw [unlastRound_lastRound (length_foldl_round hstart hmiddle) (hk last (by simp))]
    _ = xorBytes (xorBytes block first) first := by
        rw [decryptRounds_concat, foldl_unround_foldl_round hstart hmiddle]
    _ = block := xorBytes_xorBytes hfirst

/-! ## Round keys -/

theorem length_nextRoundKey (constant : UInt8) (h : key.length = 16) :
    (nextRoundKey constant key).length = 16 := by
  simp [nextRoundKey, xorBytes, h]

theorem length_of_mem_expandWith {constants k : List UInt8} (h : key.length = 16)
    (hk : k ∈ expandWith key constants) : k.length = 16 := by
  induction constants generalizing key with
  | nil =>
    rw [expandWith, List.mem_singleton] at hk
    rw [hk, h]
  | cons constant constants ih =>
    rw [expandWith, List.mem_cons] at hk
    rcases hk with rfl | hk
    · exact h
    · exact ih (length_nextRoundKey constant h) hk

/-- The last round key stands at the end. -/
theorem exists_expandWith (key constants : List UInt8) :
    ∃ keys last, expandWith key constants = keys ++ [last] := by
  induction constants generalizing key with
  | nil => exact ⟨[], key, rfl⟩
  | cons constant constants ih =>
    obtain ⟨keys, last, heq⟩ := ih (nextRoundKey constant key)
    exact ⟨key :: keys, last, by rw [expandWith, heq, List.cons_append]⟩

theorem isSchedule_expandKey (h : key.length = 16) : IsSchedule (expandKey key) where
  shape := by
    obtain ⟨middle, last, heq⟩ := exists_expandWith (nextRoundKey 0x01 key)
      [0x02, 0x04, 0x08, 0x10, 0x20, 0x40, 0x80, 0x1b, 0x36]
    exact ⟨key, middle, last, congrArg (key :: ·) heq⟩
  length _ := length_of_mem_expandWith h

/-! ## Chains of blocks -/

theorem length_encryptBlocks (hs : IsSchedule keys) {before : List UInt8}
    (hbefore : before.length = 16) (blocks : Nat) (h : bytes.length = 16 * blocks) :
    (encryptBlocks keys before blocks bytes).length = 16 * blocks := by
  induction blocks generalizing before bytes with
  | zero => rfl
  | succ blocks ih =>
    have hblock := length_encryptBlock hs (xorBytes (bytes.take 16) before)
    rw [encryptBlocks, List.length_append, hblock, ih hblock (by simp; omega)]
    omega

theorem decryptBlocks_encryptBlocks (hs : IsSchedule keys) {before : List UInt8}
    (hbefore : before.length = 16) (blocks : Nat) (h : bytes.length = 16 * blocks) :
    decryptBlocks keys before blocks (encryptBlocks keys before blocks bytes) = bytes := by
  induction blocks generalizing before bytes with
  | zero => exact (List.eq_nil_of_length_eq_zero h).symm
  | succ blocks ih =>
    have hlengths : (bytes.take 16).length = before.length := by simp [hbefore]; omega
    have hinput : (xorBytes (bytes.take 16) before).length = 16 := by
      rw [length_xorBytes hlengths, hbefore]
    have hblock := length_encryptBlock hs (xorBytes (bytes.take 16) before)
    -- The first sixteen bytes of the result are the first encrypted block, which the rest is
    -- chained to.
    simp only [encryptBlocks, decryptBlocks]
    rw [List.take_left' hblock, List.drop_left' hblock, decryptBlock_encryptBlock hs hinput,
      xorBytes_xorBytes hlengths, ih hblock (by simp; omega), List.take_append_drop]

theorem length_encryptChain (hk : key.length = 16) (hstart : start.length = 16)
    (h : bytes.length % 16 = 0) : (encryptChain key start bytes).length = bytes.length := by
  rw [encryptChain, length_encryptBlocks (isSchedule_expandKey hk) hstart _ (by omega)]
  omega

/-- Decryption undoes the encryption of a chain of blocks. -/
theorem decryptChain_encryptChain (hk : key.length = 16) (hstart : start.length = 16)
    (h : bytes.length % 16 = 0) :
    decryptChain key start (encryptChain key start bytes) = bytes := by
  rw [decryptChain, length_encryptChain hk hstart h, encryptChain]
  exact decryptBlocks_encryptBlocks (isSchedule_expandKey hk) hstart _ (by omega)

end Aes

/-! ## Filling the last block -/

theorem length_addPadding (message : List UInt8) : (addPadding message).length % 16 = 0 := by
  simp [addPadding]
  omega

/-- The filling of the last block is removed again. -/
theorem removePadding?_addPadding (message : List UInt8) :
    removePadding? (addPadding message) = some message := by
  have hmissing : 0 < 16 - message.length % 16 := by omega
  have hlast : (addPadding message).getLast? = some (16 - message.length % 16).toUInt8 := by
    simp [addPadding, List.getLast?_append, List.getLast?_replicate, hmissing.ne']
  have hcount : (16 - message.length % 16).toUInt8.toNat = 16 - message.length % 16 := by
    simp; omega
  have hkept : (addPadding message).length - (16 - message.length % 16) = message.length := by
    simp [addPadding]
  simp only [removePadding?, hlast, hcount, hkept]
  rw [if_pos ⟨by omega, by omega, length_addPadding message, by simp [addPadding]⟩]
  simp [addPadding]

end ContractKit.Crypto
