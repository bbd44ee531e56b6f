import ContractKit.Proofs.Session.Asking
import ContractKit.Proofs.Wallet.Sources

/-!
# The account that is found

The account of a task is that of the private key that is found.  It depends on the files, the
variable of the environment and the accounts only, so whatever has been reported or asked before,
a task gets the same one, and the questions it asks about an account are about this one.
-/

namespace ContractKit.Wallet

variable {P : Call → Prop} {s₀ s s' : Session} {keystore password : Option String}
  {address key : String}

def accountIn (accounts : Assoc String String) (key : String) : Except Problem String :=
  match Assoc.get? key accounts with
  | some address => .ok address
  | none => .error .unknownKey

theorem accountIn_eq_ok {accounts : Assoc String String} :
    accountIn accounts key = .ok address ↔ Assoc.get? key accounts = some address := by
  unfold accountIn
  cases Assoc.get? key accounts <;> simp

def foundAccount (keystore password : Option String) (s : Session) : Except Problem String :=
  outcomeOf (accountAddress keystore password) s

def foundKey (q : Search) : Except Problem String :=
  (sources.findSome? (offer? q)).getD (.error .noPrivateKey)

theorem outcomeOf_of_run {α : Type} {x : SessionM α} {r : Except Problem α}
    (h : x s = endWith r s') : outcomeOf x s = r := by
  cases r <;> simp [outcomeOf, h, endWith]

theorem outcomeOf_addressOf (key : String) (s : Session) :
    outcomeOf (addressOf key) s = accountIn s.outside.accounts key := by
  have hnote : note (.accountOf key) s = .ok () (asked key s) := rfl
  have haccounts : (asked key s).outside.accounts = s.outside.accounts := rfl
  rw [outcomeOf, addressOf, bind_ok hnote, bind_ok (outside_run _), haccounts, accountIn]
  cases Assoc.get? key s.outside.accounts <;> rfl

theorem foundAccount_eq (q : Search) :
    foundAccount q.keystore q.password q.session =
      foundKey q >>= accountIn q.session.outside.accounts := by
  have hkey : privateKey q.keystore q.password q.session = endWith (foundKey q) q.session :=
    privateKey_run q
  unfold foundAccount accountAddress
  cases h : foundKey q with
  | error p =>
    rw [h] at hkey
    rw [outcomeOf, bind_error hkey]
    rfl
  | ok key =>
    rw [h] at hkey
    have haddress := outcomeOf_addressOf key q.session
    rw [outcomeOf] at haddress ⊢
    rw [bind_ok hkey, haddress]
    rfl

/-! ## The same place -/

/-- Two sessions have the same files, the same variable and the same accounts. -/
structure SamePlace (s s' : Session) : Prop where
  files : s'.files = s.files
  privateKey : s'.outside.privateKey = s.outside.privateKey
  accounts : s'.outside.accounts = s.outside.accounts

theorem SamePlace.of_reported (h : Reported s s') : SamePlace s s' :=
  ⟨h.files, by rw [h.outside], by rw [h.outside]⟩

theorem SamePlace.outcomeOf_loadKey (h : SamePlace s s') (file password : String) :
    outcomeOf (loadKey file password) s' = outcomeOf (loadKey file password) s := by
  have hlooks := looks_loadKey file password
  have hview : fileView file s' = fileView file s := by rw [fileView, fileView, h.files]
  exact (outcomeOf_eq_iff hlooks).mpr (hlooks.congr hview ((outcomeOf_eq_iff hlooks).mp rfl))

theorem SamePlace.foundKey_eq (h : SamePlace s s') (keystore password : Option String) :
    foundKey ⟨s', keystore, password⟩ = foundKey ⟨s, keystore, password⟩ := by
  have hoffer : offer? ⟨s', keystore, password⟩ = offer? ⟨s, keystore, password⟩ := by
    funext source
    cases source with
    | environment => simp only [offer?, h.privateKey]
    | file name => simp only [offer?, h.files]
    | keystore => simp only [offer?, h.outcomeOf_loadKey]
    | defaultKeystore => simp only [offer?, h.files, h.outcomeOf_loadKey]
  rw [foundKey, foundKey, hoffer]

theorem SamePlace.foundAccount_eq (h : SamePlace s s') (keystore password : Option String) :
    foundAccount keystore password s' = foundAccount keystore password s := by
  rw [Wallet.foundAccount_eq ⟨s', keystore, password⟩,
    Wallet.foundAccount_eq ⟨s, keystore, password⟩, h.foundKey_eq, h.accounts]

/-! ## Questions about an account -/

/-- A question that has to do with an account has to do with this one: it is for the account of a
key that has it, it names the account, or it is about a transaction that the account sends. -/
def Fits (accounts : Assoc String String) (account : Except Problem String) : Call → Prop
  | .accountOf key => accountIn accounts key = account
  | .balance address => account = .ok address
  | .transactionCount address => account = .ok address
  | .build _ _ transaction => ∃ a, account = .ok a ∧ transaction.field "from" = .ok (.str a)
  | .estimateGas transaction => ∃ a, account = .ok a ∧ transaction.field "from" = .ok (.str a)
  | .estimateFunction _ _ transaction =>
    ∃ a, account = .ok a ∧ transaction.field "from" = .ok (.str a)
  | .sign transaction => ∃ a, account = .ok a ∧ transaction.field "from" = .ok (.str a)
  | _ => True

theorem asks_privateKey (keystore password : Option String) :
    Asks P s₀ (privateKey keystore password) (foundKey ⟨s₀, keystore, password⟩ = .ok ·) := by
  intro s hs
  refine ⟨_, s, privateKey_run ⟨s, keystore, password⟩, hs, fun key hkey => ?_⟩
  exact ((SamePlace.of_reported hs.toReported).foundKey_eq keystore password).symm.trans hkey

/-- Whatever was asked before, the account is that of the session at the start. -/
theorem asks_accountAddress (hP : ∀ key,
    accountIn s₀.outside.accounts key = foundAccount keystore password s₀ → P (.accountOf key)) :
    Asks P s₀ (accountAddress keystore password) (foundAccount keystore password s₀ = .ok ·) := by
  refine (asks_privateKey keystore password).bind fun key hkey => ?_
  have haccount : foundAccount keystore password s₀ = accountIn s₀.outside.accounts key := by
    rw [foundAccount_eq ⟨s₀, keystore, password⟩, hkey]
    rfl
  refine (asks_note (hP key haccount.symm)).bind fun _ _ => asks_outside.bind fun o ho => ?_
  rw [haccount, ← ho]
  split
  case h_1 address haddress => exact asks_pure (accountIn_eq_ok.mpr haddress)
  case h_2 => exact asks_throw _

end ContractKit.Wallet
