import ContractKit.Proofs.Crypto.Token
import ContractKit.Proofs.Json.RoundTrip
import ContractKit.Proofs.Session.Files
import ContractKit.Wallet.Keys
import Mathlib

/-!
# A saved key is loaded again

A keystore is a document of two texts in Base64, the sealed key and the salt.  The document is
read as it was written, the texts give back their bytes, and the token is opened with the key that
the same password and the same salt give.  So a key is loaded as it was saved, with its mark.
-/

namespace ContractKit.Wallet

open Crypto

variable {s s' : Session} {key password file address : String}

/-! ## The mark -/

/-- The second text is the first one with the mark of a private key. -/
structure IsMarked (key loaded : String) : Prop where
  same : keyMark.toList <+: key.toList → loaded = key
  added : ¬ keyMark.toList <+: key.toList → loaded = keyMark ++ key

theorem isMarked_marked (key : String) : IsMarked key (marked key) := by
  unfold marked
  split_ifs with h
  · exact ⟨fun _ => rfl, fun hnot => absurd (List.isPrefixOf_iff_prefix.mp h) hnot⟩
  · exact ⟨fun hprefix => absurd (List.isPrefixOf_iff_prefix.mpr hprefix) h, fun _ => rfl⟩

theorem isPrefix_marked (key : String) : keyMark.toList <+: (marked key).toList := by
  unfold marked
  split_ifs with h
  · exact List.isPrefixOf_iff_prefix.mp h
  · rw [String.toList_append]
    exact List.prefix_append _ _

@[simp] theorem marked_marked (key : String) : marked (marked key) = marked key :=
  (isMarked_marked (marked key)).same (isPrefix_marked key)

/-! ## The document -/

theorem readable_keystoreDocument (key password : String) (salt start : List UInt8) (time : Nat) :
    (keystoreDocument key password salt start time).Readable := by
  have hversion : (Nat.toDigits 10 (1 : Int).natAbs).length ≤ Json.maxDigits := by decide
  exact ⟨by simp [Assoc.keys], trivial, trivial, hversion, trivial⟩

/-- Characters below 256 are given back by their bytes. -/
theorem byteChars_charBytes {cs : List Char} (h : ∀ c ∈ cs, c.toNat < 128) :
    byteChars (charBytes cs) = cs := by
  rw [byteChars, charBytes, List.map_map]
  refine (List.map_congr_left fun c hc => ?_).trans (List.map_id cs)
  have hbyte : c.toNat.toUInt8.toNat = c.toNat := by
    have := h c hc
    simp
    omega
  simp only [Function.comp_apply, hbyte, Char.ofNat_toNat, id_eq]

theorem base64Bytes_encode (bytes : List UInt8) (s : Session) :
    base64Bytes (.str (String.ofList (Base64.encode .standard bytes))) s = .ok bytes s := by
  have hascii : (Base64.encode .standard bytes).all (fun c => c.toNat < 128) = true := by
    simpa using Base64.forall_mem_encode .standard bytes
  simp only [base64Bytes, String.toList_ofList, hascii, if_true, Base64.decode_encode]
  rfl

/-- Opening a document takes its two texts, and the token that the first one is. -/
theorem openKeystore_run {document : Json} {token salt : List UInt8}
    (htoken : document.field "encrypted_key" =
      .ok (.str (String.ofList (Base64.encode .standard token))))
    (hsalt : document.field "salt" = .ok (.str (String.ofList (Base64.encode .standard salt))))
    (hopen : Token.unwrap? (deriveKey password salt) (byteChars token) = some (Text.utf8 key))
    (s : Session) : openKeystore document password s = .ok (marked key) s := by
  have hfirst : (demand (document.field "encrypted_key") >>= base64Bytes) s = .ok token s := by
    rw [htoken]
    exact base64Bytes_encode token s
  have hsecond : (demand (document.field "salt") >>= base64Bytes) s = .ok salt s := by
    rw [hsalt]
    exact base64Bytes_encode salt s
  rw [openKeystore, ← bind_assoc, bind_ok hfirst, ← bind_assoc, bind_ok hsecond, hopen]
  simp only [Text.decode_utf8]
  rfl

theorem openKeystore_keystoreDocument {start : List UInt8} (hstart : start.length = 16)
    (key password : String) (salt : List UInt8) (time : Nat) (s : Session) :
    openKeystore (keystoreDocument key password salt start time) password s =
      .ok (marked key) s := by
  have hkey : (deriveKey password salt).length = 32 := Hash.length_stretchKey ..
  refine openKeystore_run rfl rfl ?_ s
  rw [byteChars_charBytes (Token.forall_mem_wrap _ _ _ _), Token.unwrap?_wrap hkey hstart]

/-! ## The file -/

/-- A keystore can be written in the file of a name. -/
def CanSave (file : String) (s : Session) : Prop := file ≠ "" ∧ s.files.CanWrite (.ofText file)

/-- In every session with these files, the keystore gives the key to the password. -/
def Holds (t : Tree) (file password key : String) : Prop :=
  ∀ s : Session, s.files = t → loadKey file password s = .ok key s

theorem holds_of_read {t : Tree} {salt start : List UInt8} {time : Nat} (hfile : file ≠ "")
    (hstart : start.length = 16)
    (h : t.read (.ofText file) =
      .ok (Text.utf8 (keystoreDocument key password salt start time).pretty)) :
    Holds t file password (marked key) := by
  rintro s rfl
  have hreadable := readable_keystoreDocument key password salt start time
  have hexists : exists? (.ofText file) s = .ok true s := by
    rw [exists?_run, Tree.exists?_of_read h]
    rfl
  have hdocument : readDocument file s =
      .ok (keystoreDocument key password salt start time) s := by
    rw [readDocument, bind_ok (readText_of_read hfile h (Json.not_mem_pretty hreadable)),
      parseDocument, Json.parse_pretty hreadable]
    rfl
  have hopen : (do openKeystore (← readDocument file) password : SessionM String) s =
      .ok (marked key) s :=
    (bind_ok hdocument).trans (openKeystore_keystoreDocument hstart key password salt time s)
  exact (bind_ok hexists).trans (bind_ok (attempt_ok hopen))

/-- Saving a key writes its document and leaves everything but the files. -/
theorem saveKey_eq_ok (h : saveKey key password file s = .ok () s') :
    file ≠ "" ∧ s'.outside = s.outside ∧
      s'.files.read (.ofText file) = .ok (Text.utf8 (keystoreDocument key password s.outside.salt
        s.outside.startBlock s.outside.time).pretty) ∧ s.files.CanWrite (.ofText file) := by
  obtain ⟨_, s₁, hwrite, hmode⟩ := of_bind_ok ((bind_ok (outside_run s)).symm.trans h)
  obtain ⟨hfile, t, ht, rfl⟩ := writeText_eq_ok.mp hwrite
  obtain ⟨t', ht', rfl⟩ := setMode_eq_ok.mp hmode
  obtain ⟨t'', ht'', hread⟩ := Tree.exists_setMode (Tree.read_of_write ht) keystoreMode
  obtain rfl : t'' = t' := Except.ok.inj (ht''.symm.trans ht')
  exact ⟨hfile, rfl, hread, Tree.exists_write_iff.mp ⟨t, ht⟩⟩

theorem exists_saveKey_iff :
    (∃ s', saveKey key password file s = .ok () s') ↔ CanSave file s := by
  constructor
  · rintro ⟨s', h⟩
    obtain ⟨hfile, -, -, hwrite⟩ := saveKey_eq_ok h
    exact ⟨hfile, hwrite⟩
  · rintro ⟨hfile, hwrite⟩
    obtain ⟨t, ht⟩ := Tree.exists_write_iff.mpr hwrite
    obtain ⟨t', ht', -⟩ := Tree.exists_setMode (Tree.read_of_write ht) keystoreMode
    refine ⟨{ s with files := t' }, (bind_ok (outside_run s)).trans ?_⟩
    exact (bind_ok (writeText_eq_ok.mpr ⟨hfile, t, ht, rfl⟩)).trans
      (setMode_eq_ok.mpr ⟨t', ht', rfl⟩)

theorem holds_of_saveKey (hstart : s.outside.startBlock.length = 16)
    (h : saveKey key password file s = .ok () s') :
    Holds s'.files file password (marked key) := by
  obtain ⟨hfile, -, hread, -⟩ := saveKey_eq_ok h
  exact holds_of_read hfile hstart hread

/-- The file of a saved key can be written again. -/
theorem canSave_of_saveKey (h : saveKey key password file s = .ok () s') : CanSave file s' := by
  obtain ⟨hfile, -, hread, -⟩ := saveKey_eq_ok h
  exact ⟨hfile, Tree.canWrite_of_read hread⟩

/-! ## Wallets -/

/-- The session after the address of a key was asked for. -/
def asked (key : String) (s : Session) : Session :=
  { s with calls := s.calls ++ [.accountOf key] }

theorem addressOf_eq_ok :
    addressOf key s = .ok address s' ↔
      Assoc.get? key s.outside.accounts = some address ∧ s' = asked key s := by
  have hnote : note (.accountOf key) s = .ok () (asked key s) := rfl
  have haccounts : (asked key s).outside.accounts = s.outside.accounts := rfl
  rw [addressOf, bind_ok hnote, bind_ok (outside_run _), haccounts]
  cases Assoc.get? key s.outside.accounts with
  | none => exact iff_of_false (by rintro ⟨⟩) (by simp)
  | some known =>
    constructor
    · rintro ⟨⟩
      exact ⟨rfl, rfl⟩
    · rintro ⟨⟨⟩, rfl⟩
      rfl

theorem createWallet_eq_ok :
    createWallet password file s = .ok address s' ↔
      Assoc.get? s.outside.randomKey s.outside.accounts = some address ∧
        saveKey s.outside.randomKey password file (asked s.outside.randomKey s) = .ok () s' := by
  rw [createWallet, bind_ok (outside_run s)]
  constructor
  · intro h
    obtain ⟨known, s₁, haddress, hsave⟩ := of_bind_ok h
    obtain ⟨_, s₂, hsave, hend⟩ := of_bind_ok hsave
    obtain ⟨haccount, rfl⟩ := addressOf_eq_ok.mp haddress
    cases hend
    exact ⟨haccount, hsave⟩
  · rintro ⟨haccount, hsave⟩
    exact (bind_ok (addressOf_eq_ok.mpr ⟨haccount, rfl⟩)).trans (bind_ok hsave)

theorem loadWallet_of_holds (hholds : Holds s.files file password key)
    (haccount : Assoc.get? key s.outside.accounts = some address) :
    loadWallet file password s = .ok address (asked key s) :=
  (bind_ok (hholds s rfl)).trans (addressOf_eq_ok.mpr ⟨haccount, rfl⟩)

/-! ## Round trips -/

/-- The new key has the same account with and without its mark. -/
def SameAccount (o : Outside) : Prop :=
  Assoc.get? (marked o.randomKey) o.accounts = Assoc.get? o.randomKey o.accounts

/-- A key is saved wherever its file can be written, and then loaded with its mark; the loaded key
can be saved again, under any password and in any file, and is loaded as it is.  The address of a
new wallet is the one that is loaded from its keystore. -/
theorem keystore_roundTrips (password file : String) (s : Session)
    (hstart : s.outside.startBlock.length = 16) :
    (∀ key, (∃ s', saveKey key password file s = .ok () s') ↔ CanSave file s) ∧
    (∀ key s', saveKey key password file s = .ok () s' →
      CanSave file s' ∧ ∃ loaded, IsMarked key loaded ∧ Holds s'.files file password loaded ∧
        ∀ password' file' s₁, CanSave file' s₁ → s₁.outside.startBlock.length = 16 →
          ∃ s₂, saveKey loaded password' file' s₁ = .ok () s₂ ∧
            Holds s₂.files file' password' loaded) ∧
    (∀ address, (∃ s', createWallet password file s = .ok address s') ↔
      Assoc.get? s.outside.randomKey s.outside.accounts = some address ∧ CanSave file s) ∧
    (SameAccount s.outside → ∀ address s', createWallet password file s = .ok address s' →
      ∀ s₁, s₁.files = s'.files → s₁.outside.accounts = s.outside.accounts →
        ∃ s₂, loadWallet file password s₁ = .ok address s₂) := by
  refine ⟨fun key => exists_saveKey_iff, ?_, ?_, ?_⟩
  · intro key s' hsave
    refine ⟨canSave_of_saveKey hsave, marked key, isMarked_marked key,
      holds_of_saveKey hstart hsave, ?_⟩
    intro password' file' s₁ hcan hstart₁
    obtain ⟨s₂, hagain⟩ := exists_saveKey_iff.mpr hcan
    have hholds := holds_of_saveKey hstart₁ hagain
    rw [marked_marked] at hholds
    exact ⟨s₂, hagain, hholds⟩
  · intro address
    simp only [createWallet_eq_ok, exists_and_left]
    exact and_congr_right fun _ => exists_saveKey_iff
  · intro hsame address s' hcreate s₁ hfiles haccounts
    obtain ⟨haccount, hsave⟩ := createWallet_eq_ok.mp hcreate
    have hholds := holds_of_saveKey (s := asked s.outside.randomKey s) hstart hsave
    rw [← hfiles] at hholds
    refine ⟨_, loadWallet_of_holds hholds ?_⟩
    rw [haccounts, hsame, haccount]

/-- A session in an empty directory, with a new key that has an account. -/
def newKeySession : Session where
  outside := {
    randomKey := "a1"
    startBlock := List.replicate 16 7
    accounts := [("a1", "0xA1"), ("0xa1", "0xA1")] }

theorem canSave_newKeySession : CanSave "wallet.json" newKeySession :=
  ⟨by decide, ["wallet.json"], by decide +kernel, by decide +kernel⟩

theorem keystore_roundTrips_new :
    newKeySession.outside.startBlock.length = 16 ∧ SameAccount newKeySession.outside ∧
    (∃ s', saveKey "b2" "secret" "wallet.json" newKeySession = .ok () s' ∧
      Holds s'.files "wallet.json" "secret" "0xb2") ∧
    ∃ s', createWallet "secret" "wallet.json" newKeySession = .ok "0xA1" s' ∧
      ∃ s₂, loadWallet "wallet.json" "secret" { newKeySession with files := s'.files } =
        .ok "0xA1" s₂ := by
  have hstart : newKeySession.outside.startBlock.length = 16 := rfl
  have hsame : SameAccount newKeySession.outside := by
    unfold SameAccount
    decide +kernel
  obtain ⟨hsave, hload, hcreate, hwallet⟩ :=
    keystore_roundTrips "secret" "wallet.json" newKeySession hstart
  refine ⟨hstart, hsame, ?_, ?_⟩
  · obtain ⟨s', hs'⟩ := (hsave "b2").mpr canSave_newKeySession
    obtain ⟨-, loaded, hmarked, hholds, -⟩ := hload "b2" s' hs'
    obtain rfl : loaded = "0xb2" := hmarked.added (by decide +kernel)
    exact ⟨s', hs', hholds⟩
  · obtain ⟨s', hs'⟩ := (hcreate "0xA1").mpr ⟨by decide +kernel, canSave_newKeySession⟩
    exact ⟨s', hs', hwallet hsame "0xA1" s' hs' _ rfl rfl⟩

end ContractKit.Wallet
