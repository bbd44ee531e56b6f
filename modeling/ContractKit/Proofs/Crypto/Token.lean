import ContractKit.Crypto.Token
import ContractKit.Proofs.Crypto.Aes
import ContractKit.Proofs.Crypto.Base64
import Mathlib

/-!
# A sealed message is opened again

The parts of a token have fixed lengths except for the encrypted message, so opening cuts it
where sealing put it together.
-/

namespace ContractKit.Hash

@[simp] theorem Digest.length_bytes (d : Digest) : d.bytes.length = 32 := rfl

@[simp] theorem length_hmac (key message : List UInt8) : (hmac key message).length = 32 :=
  Digest.length_bytes _

@[simp] theorem length_stretchKey (password salt : List UInt8) (rounds : Nat) :
    (stretchKey password salt rounds).length = 32 :=
  Digest.length_bytes _

end ContractKit.Hash

namespace ContractKit.Crypto.Token

variable {key start : List UInt8}

/-- What stands before the encrypted message: the version, the time and the starting block. -/
theorem length_header (hstart : start.length = 16) (time : Nat) :
    (version :: timeBytes time ++ start).length = 25 := by
  simp [timeBytes, hstart]

/-- The bytes of a token with its parts put together are taken apart again. -/
theorem unwrapBytes?_append (hstart : start.length = 16) {cipher : List UInt8}
    (hcipher : cipher.length % 16 = 0) (key : List UInt8) (time : Nat) :
    unwrapBytes? key ((version :: timeBytes time ++ start ++ cipher) ++
        Hash.hmac (signingKey key) (version :: timeBytes time ++ start ++ cipher)) =
      removePadding? (Aes.decryptChain (cipherKey key) start cipher) := by
  have hnine : (version :: timeBytes time).length = 9 := by simp [timeBytes]
  have hheader := length_header hstart time
  generalize hsigned : version :: timeBytes time ++ start ++ cipher = signed
  have hlength : (signed ++ Hash.hmac (signingKey key) signed).length - 32 = signed.length := by
    simp
  have hsize : signed.length = 25 + cipher.length := by
    rw [← hsigned, List.length_append, hheader]
  have hfirst : (signed ++ Hash.hmac (signingKey key) signed).head? = some version := by
    rw [← hsigned]
    rfl
  have hstartPart : (signed.drop 9).take 16 = start := by
    rw [← hsigned, List.append_assoc, List.drop_left' hnine, List.take_left' hstart]
  have hcipherPart : signed.drop 25 = cipher := by
    rw [← hsigned, List.drop_left' hheader]
  simp only [unwrapBytes?, hlength, List.take_left, List.drop_left, hfirst, hstartPart, hcipherPart]
  rw [if_pos ⟨trivial, by simp [hsize], trivial⟩, if_pos ⟨hstart, hcipher⟩]

theorem forall_mem_wrap (key start : List UInt8) (time : Nat) (message : List UInt8) :
    ∀ c ∈ wrap key start time message, c.toNat < 128 :=
  Base64.forall_mem_encode .urlSafe _

/-- Opening a token with its key gives the message. -/
theorem unwrap?_wrap (hkey : key.length = 32) (hstart : start.length = 16) (time : Nat)
    (message : List UInt8) : unwrap? key (wrap key start time message) = some message := by
  have hcipherKey : (cipherKey key).length = 16 := by simp [cipherKey, hkey]
  have hpadded := length_addPadding message
  have hcipher : (Aes.encryptChain (cipherKey key) start (addPadding message)).length % 16 = 0 := by
    rw [Aes.length_encryptChain hcipherKey hstart hpadded, hpadded]
  rw [unwrap?, wrap, Base64.decode_encode]
  simp only [body]
  rw [unwrapBytes?_append hstart hcipher, Aes.decryptChain_encryptChain hcipherKey hstart hpadded,
    removePadding?_addPadding]

end ContractKit.Crypto.Token
