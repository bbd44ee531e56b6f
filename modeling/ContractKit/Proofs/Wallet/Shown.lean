import ContractKit.Command.Run
import ContractKit.Proofs.Deployment.Questions
import Mathlib

/-!
# The wallet that is shown and the account that is used

A wallet is shown from the variable of the environment or else from the default keystore, whose
password is asked for.  Deployments and calls ask for no password and name no keystore: they take
the variable or else the environment files, and never open a keystore.  So they use the account
that is shown if it comes from the variable, or if the environment files have a key of the same
account; otherwise they use another one, or none.
-/

namespace ContractKit.Wallet

open Command Deployment

variable {s s₁ s₂ : Session} {address source key : String}

/-! ## The used account -/

/-- The account of a session for which no keystore is named. -/
def usedAccount (s : Session) : Except Problem String := foundAccount none none s

/-- The search in which no keystore is named. -/
def bareSearch (s : Session) : Search := ⟨s, none, none⟩

/-- The key that a bare search finds. -/
def bareKey (s : Session) : Except Problem String := foundKey (bareSearch s)

theorem usedAccount_eq (s : Session) :
    usedAccount s = bareKey s >>= accountIn s.outside.accounts :=
  foundAccount_eq (bareSearch s)

theorem usedAccount_eq_ok_iff :
    usedAccount s = .ok address ↔
      ∃ key, bareKey s = .ok key ∧ Assoc.get? key s.outside.accounts = some address := by
  rw [usedAccount_eq]
  cases bareKey s with
  | error p => simp [bind, Except.bind]
  | ok key => simp [bind, Except.bind, accountIn_eq_ok]

/-- The bare search finds what the first source offers. -/
theorem bareKey_of_firstOffer {source : KeySource} {r : Except Problem String}
    (h : FirstOffer (bareSearch s) source r) : bareKey s = r :=
  (outcomeOf_of_run (privateKey_run (bareSearch s))).symm.trans
    (outcomeOf_of_run (privateKey_of_firstOffer h))

theorem bareKey_of_no_offer (h : ∀ source ∈ sources, ∀ r, ¬ Offers (bareSearch s) source r) :
    bareKey s = .error .noPrivateKey :=
  (outcomeOf_of_run (privateKey_run (bareSearch s))).symm.trans
    (outcomeOf_of_run (r := .error .noPrivateKey) (privateKey_of_no_offer h))

theorem exists_firstOffer_of_bareKey (h : bareKey s = .ok key) :
    ∃ source, FirstOffer (bareSearch s) source (.ok key) := by
  rw [bareKey, foundKey] at h
  cases hfirst : sources.findSome? (offer? (bareSearch s)) with
  | none =>
    rw [hfirst] at h
    cases h
  | some r =>
    rw [hfirst] at h
    obtain rfl : r = .ok key := h
    obtain ⟨before, source, after, hsources, hoffer, hbefore⟩ :=
      List.findSome?_eq_some_iff.mp hfirst
    refine ⟨source, before, after, hsources, offer?_eq_some_iff.mp hoffer, ?_⟩
    intro earlier hearlier r' hr'
    rw [← offer?_eq_some_iff, hbefore earlier hearlier] at hr'
    cases hr'

theorem firstOffer_environment (h : Given s.outside.privateKey key) :
    FirstOffer (bareSearch s) .environment (.ok (marked key)) :=
  ⟨[], _, rfl, .environment h, by simp⟩

/-- Without a variable a bare search finds the first key of the environment files only. -/
theorem bareKey_eq_ok_iff (hvariable : ∀ value, ¬ Given s.outside.privateKey value) :
    bareKey s = .ok key ↔ ∃ name, FirstOffer (bareSearch s) (.file name) (.ok key) := by
  constructor
  · intro h
    obtain ⟨source, hoffer⟩ := exists_firstOffer_of_bareKey h
    obtain ⟨before, after, -, hoffers, -⟩ := id hoffer
    cases hoffers with
    | environment hgiven => exact absurd hgiven (hvariable _)
    | file htext hkey => exact ⟨_, hoffer⟩
    | keystore hfile => cases hfile.1
    | defaultKeystore hthere hpassword => cases hpassword.1
  · rintro ⟨name, h⟩
    exact bareKey_of_firstOffer h

/-! ## Shown wallets -/

/-- A wallet that is shown while the variable is given is that of the variable. -/
theorem findWallet_of_given {keystore : String} (hkey : Given s.outside.privateKey key)
    (h : findWallet keystore s = .ok (address, source) s₁) :
    Assoc.get? (marked key) s.outside.accounts = some address := by
  have hvariable : variableKey s = .ok (some key) s := by
    rw [← given?_eq_some_iff.mpr hkey]
    rfl
  have hhas : Project.hasKeyVariable s = .ok true s := by
    have hany : s.outside.privateKey.any (· != "") = true := by
      rw [hkey.1]
      simpa using hkey.2
    rw [← hany]
    rfl
  obtain ⟨found, s', hfound, hend⟩ := of_bind_ok ((bind_ok hhas).symm.trans h)
  have haddress := (bind_ok hvariable).symm.trans hfound
  obtain ⟨haccount, rfl⟩ := addressOf_eq_ok.mp haddress
  cases hend
  exact haccount

theorem findWallet_of_holds {keystore password : String} {rest : List String}
    (hvariable : s.outside.privateKey = none)
    (hthere : s.files.exists? (.ofText keystore) = .ok true)
    (hanswers : s.outside.answers.dropWhile (· == "") = password :: rest)
    (hholds : Holds s.files keystore password key)
    (haccount : Assoc.get? key s.outside.accounts = some address) :
    findWallet keystore s = .ok (address, s!"Keystore file ({keystore})")
      (asked key { s with outside := { s.outside with answers := rest } }) := by
  let typed : Session := { s with outside := { s.outside with answers := rest } }
  have hhas : Project.hasKeyVariable s = .ok false s := by
    have hany : s.outside.privateKey.any (· != "") = false := by rw [hvariable]; rfl
    rw [← hany]
    rfl
  have hexists : exists? (.ofText keystore) s = .ok true s := by
    rw [exists?_run, hthere]
    rfl
  have hprompt : prompt s = .ok password typed := by
    have hget : (get : SessionM Session) s = .ok s s := rfl
    rw [prompt, bind_ok hget, hanswers]
    rfl
  have hload : loadWallet keystore password typed = .ok address (asked key typed) :=
    loadWallet_of_holds (s := typed) hholds haccount
  refine (bind_ok hhas).trans ((bind_ok hexists).trans ?_)
  exact (bind_ok hprompt).trans (bind_ok hload)

/-- **When the wallet that is shown is the one that is used.**  Deployments, their estimates and
calls that are run in the same place ask about one account only, to which all that they send and
sign belongs; without it they end with a problem.  It is the one that is shown exactly if the
variable is given, or else if the first key of the environment files has this account.  With neither
of them no account is found, whatever the keystore has. -/
theorem shown_wallet_used_iff (hshow : findWallet defaultKeystore s = .ok (address, source) s₁)
    (hplace : SamePlace s s₂) :
    (∀ name args config, Uses (usedAccount s) (deploySteps none none name args config) s₂) ∧
    (∀ name args config, Uses (usedAccount s) (estimateGas name args config) s₂) ∧
    (∀ name function args config isView,
      Uses (usedAccount s) (interact name function args config isView) s₂) ∧
    (usedAccount s = .ok address ↔ (∃ key, Given s.outside.privateKey key) ∨
      ∃ name key, FirstOffer (bareSearch s) (.file name) (.ok key) ∧
        Assoc.get? key s.outside.accounts = some address) ∧
    ((∀ source ∈ sources, ∀ r, ¬ Offers (bareSearch s) source r) →
      usedAccount s = .error .noPrivateKey) := by
  have hsame : foundAccount none none s₂ = usedAccount s := hplace.foundAccount_eq none none
  refine ⟨?_, ?_, ?_, ?_, ?_⟩
  · intro name args config
    rw [← hsame]
    exact uses_deploySteps none none name args config s₂
  · intro name args config
    rw [← hsame]
    exact uses_estimateGas name args config s₂
  · intro name function args config isView
    rw [← hsame]
    exact uses_interact name function args config isView s₂
  · rw [usedAccount_eq_ok_iff]
    by_cases hvariable : ∃ key, Given s.outside.privateKey key
    · obtain ⟨key, hkey⟩ := hvariable
      have hbare := bareKey_of_firstOffer (firstOffer_environment hkey)
      exact iff_of_true ⟨marked key, hbare, findWallet_of_given hkey hshow⟩ (.inl ⟨key, hkey⟩)
    · have hnone : ∀ value, ¬ Given s.outside.privateKey value := fun value h =>
        hvariable ⟨value, h⟩
      simp only [bareKey_eq_ok_iff hnone, hvariable, false_or]
      constructor
      · rintro ⟨key, ⟨name, hoffer⟩, haccount⟩
        exact ⟨name, key, hoffer, haccount⟩
      · rintro ⟨name, key, hoffer, haccount⟩
        exact ⟨key, ⟨name, hoffer⟩, haccount⟩
  · intro h
    rw [usedAccount_eq, bareKey_of_no_offer h]
    rfl

/-- A session in which a password opens the default keystore, with other files. -/
def walletSession (others : List (Place × Node)) : Session where
  files := { nodes := ([defaultKeystore], .file (Text.utf8 (keystoreDocument "a1" "secret"
    (List.replicate 16 3) (List.replicate 16 7) 0).pretty) keystoreMode) :: others }
  outside := { accounts := [("0xa1", "0xA1"), ("0xb2", "0xB2")], answers := ["secret"] }

/-- An environment file that sets a private key. -/
def environmentFile (text : String) : List (Place × Node) :=
  [([".env"], .file (Text.utf8 text) newFileMode)]

theorem read_defaultKeystore (content : List UInt8) (mode : Nat) (others : List (Place × Node)) :
    Tree.read { nodes := ([defaultKeystore], .file content mode) :: others }
      (.ofText defaultKeystore) = .ok content := rfl

theorem findWallet_walletSession (others : List (Place × Node)) :
    ∃ source s₁, findWallet defaultKeystore (walletSession others) =
      .ok ("0xA1", source) s₁ := by
  have hread := read_defaultKeystore (Text.utf8 (keystoreDocument "a1" "secret"
    (List.replicate 16 3) (List.replicate 16 7) 0).pretty) keystoreMode others
  have hholds : Holds (walletSession others).files defaultKeystore "secret" (marked "a1") :=
    holds_of_read (by decide) rfl hread
  have haccount : Assoc.get? (marked "a1") [("0xa1", "0xA1"), ("0xb2", "0xB2")] = some "0xA1" := by
    decide +kernel
  exact ⟨_, _, findWallet_of_holds rfl (Tree.exists?_of_read hread) rfl hholds haccount⟩

/-- A wallet from a keystore is used if the environment file has its key, too. -/
theorem shown_wallet_used_environment :
    (∃ source s₁, findWallet defaultKeystore
      (walletSession (environmentFile "PRIVATE_KEY=a1\n")) = .ok ("0xA1", source) s₁) ∧
    usedAccount (walletSession (environmentFile "PRIVATE_KEY=a1\n")) = .ok "0xA1" := by
  let s := walletSession (environmentFile "PRIVATE_KEY=a1\n")
  obtain ⟨source, s₁, hshow⟩ := findWallet_walletSession (environmentFile "PRIVATE_KEY=a1\n")
  have htext : seenAt s.files ".env" = some "PRIVATE_KEY=a1\n" := by decide +kernel
  have hkey : FirstKey "PRIVATE_KEY=a1\n" "a1" :=
    keyOfLines?_eq_some_iff.mp (by decide +kernel)
  have hfiles : environmentFiles = [] ++ ".env" :: ["../.env", "../../.env"] := rfl
  have hoffer : FirstOffer (bareSearch s) (.file ".env") (.ok (marked "a1")) :=
    firstOffer_file hfiles (by rintro value ⟨⟨⟩, -⟩) (by simp) htext hkey
  have haccount : Assoc.get? (marked "a1") s.outside.accounts = some "0xA1" := by decide +kernel
  have hused := (shown_wallet_used_iff hshow ⟨rfl, rfl, rfl⟩).2.2.2.1
  exact ⟨⟨source, s₁, hshow⟩, hused.mpr (.inr ⟨".env", marked "a1", hoffer, haccount⟩)⟩

/-- A wallet from a keystore alone is shown and not used: without an environment file there is no
account, and with one the account is that of the file. -/
theorem shown_wallet_not_used :
    (∃ source s₁, findWallet defaultKeystore (walletSession []) = .ok ("0xA1", source) s₁) ∧
    usedAccount (walletSession []) = .error .noPrivateKey ∧
    (∃ source s₁, findWallet defaultKeystore
      (walletSession (environmentFile "PRIVATE_KEY=b2\n")) = .ok ("0xA1", source) s₁) ∧
    usedAccount (walletSession (environmentFile "PRIVATE_KEY=b2\n")) = .ok "0xB2" := by
  refine ⟨findWallet_walletSession _, ?_, findWallet_walletSession _, ?_⟩
  · decide +kernel
  · decide +kernel

end ContractKit.Wallet
