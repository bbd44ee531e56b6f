import ContractKit.Proofs.Evm.Call
import ContractKit.Proofs.Evm.Dispatch

/-!
# Messages to a contract

A contract on the chain is sent messages one after the other.  Each runs the runtime code from
its beginning, with an empty stack and an empty memory, on the storage that the message before it
has left.  What a message changes counts only if it is successful.
-/

namespace ContractKit.Evm

/-- Whether the changes of an execution that ends so are kept. -/
def Halt.isSuccess : Halt → Bool
  | .returned _ | .stopped => true
  | .reverted _ | .failed => false

/-- How a contract with a storage answers the data of a message, and the storage afterwards. -/
def Answers (code : List UInt8) (σ : Storage) (data : List UInt8) (h : Halt) (σ' : Storage) :
    Prop :=
  ∃ (hdata : data.length < 2 ^ 256) (last : Frame),
    Halts ⟨code, data, hdata⟩ 0 code.length ⟨0, ⟨[], fun _ => 0, σ⟩⟩ h last ∧
      σ' = if h.isSuccess then last.state.storage else σ

/-- How a contract answers messages in turn, and the storage after the last of them. -/
inductive Served (code : List UInt8) :
    Storage → List (List UInt8) → List Halt → Storage → Prop where
  | nil (σ : Storage) : Served code σ [] [] σ
  | cons {σ σ₁ σ₂ : Storage} {data : List UInt8} {rest : List (List UInt8)} {h : Halt}
      {hs : List Halt} : Answers code σ data h σ₁ → Served code σ₁ rest hs σ₂ →
      Served code σ (data :: rest) (h :: hs) σ₂

variable {c : ContractState} {e : Emitter} {data : List UInt8}

/-- A message that means a supported function is answered as the function means. -/
theorem answers_routed (hc : Analyzed c) (hgen : (emitContract c).run {} = .ok () e)
    (hsup : ∀ entry ∈ c.dispatchable, SupportedFunction entry.2) {k : Nat} {name : String}
    {f : Function} (hk : c.dispatchable[k]? = some (name, f)) (hdata : data.length < 2 ^ 256)
    (hroute : routed? c data = some k) (σ : Storage) :
    Answers e.runtime.toList σ data (.returned (callFunction c f data σ).2)
      (callFunction c f data σ).1 := by
  have hmem : (name, f) ∈ c.dispatchable := List.mem_of_getElem? hk
  obtain ⟨codes, hlist⟩ := runtime_listing hc (fun entry he => (hsup entry he).callable)
    (fun entry he => (hsup entry he).body.fits) hgen
  obtain ⟨code, hcode, hspan, henter⟩ := @enters_function c ⟨e.runtime.toList, data, hdata⟩
    (fun _ => 0) σ codes hlist k name f hk hroute
  obtain ⟨last, hhalts, hstorage⟩ := halts_functionCode (hlist.fit.scope _ hmem) (hsup _ hmem)
    hcode hspan ⟨[wordOf (data.take 4)], fun _ => 0, σ⟩
  exact ⟨hdata, last, henter.halts hhalts, hstorage.symm⟩

theorem answers_unrouted (hc : Analyzed c) (hgen : (emitContract c).run {} = .ok () e)
    (hsup : ∀ entry ∈ c.dispatchable, SupportedFunction entry.2) (hdata : data.length < 2 ^ 256)
    (hroute : routed? c data = none) (σ : Storage) :
    Answers e.runtime.toList σ data (.reverted []) σ := by
  obtain ⟨codes, hlist⟩ := runtime_listing hc (fun entry he => (hsup entry he).callable)
    (fun entry he => (hsup entry he).body.fits) hgen
  obtain ⟨last, hhalts, -⟩ := @halts_unrouted c ⟨e.runtime.toList, data, hdata⟩ (fun _ => 0) σ
    codes hlist hroute
  have hle := @dispatcher_le_length c ⟨e.runtime.toList, data, hdata⟩ codes hlist
  exact ⟨hdata, last, hhalts.mono hle, rfl⟩

end ContractKit.Evm
