import ContractKit.Proofs.Evm.Body
import ContractKit.Proofs.Evm.Runtime

/-!
# Calls do what functions mean

From the `JUMPDEST` of a function the runtime code runs through the code of its body, stays
within it, and returns with the storage and the data of `callFunction`.

A body without a return on its outermost level is followed by one.  One that has such a
return never comes to its end: a branch before it may return earlier, but if none does the
return on the outermost level is reached.
-/

namespace ContractKit

open Source

/-- What a call has done when the body of the function has come to its end: without a return a
view returns zero, any other function nothing. -/
def Function.ended (f : Function) :
    Evm.Storage × Option (List UInt8) → Evm.Storage × List UInt8
  | (σ, some returned) => (σ, returned)
  | (σ, none) => (σ, if f.isView then Evm.bytesOf 0 else [])

namespace Evm

variable {c : ContractState} {f : Function}

/-- Statements with a return on their outermost level return. -/
theorem execStmts_returns (S : Scope) (data : List UInt8) (σ : Storage) {body : List Stmt}
    (h : body.any isReturn = true) : (execStmts S data σ body).2.isSome = true := by
  induction body generalizing σ with
  | nil => simp at h
  | cons stmt rest ih =>
    simp only [execStmts]
    split
    case h_2 => rfl
    case h_1 σ' hstmt =>
      -- The first statement has not returned, so it is no return.
      have hfirst : isReturn stmt = false := by
        cases stmt with
        | ret value => cases value <;> simp [execStmt] at hstmt
        | _ => rfl
      exact ih σ' (by simpa [hfirst] using h)

/-- A call does what the body of the function does, and returns in any case. -/
theorem callFunction_eq (c : ContractState) (f : Function) (data : List UInt8) (σ : Storage) :
    callFunction c f data σ = f.ended (execStmts (scopeOf c f) data σ f.body) := by
  unfold callFunction
  rcases execStmts (scopeOf c f) data σ f.body with ⟨σ', _ | returned⟩ <;> rfl

/-- Parameters with different names keep their places. -/
theorem bodyScope_eq (hdistinct : f.args.Nodup) : bodyScope c f = scopeOf c f := by
  rw [bodyScope, scopeOf, argMap_of_nodup hdistinct]

/-- What stands behind a body that came to its end returns as the function means it. -/
theorem halts_endingCode_at {env : Env} {lo hi pc : Nat} (hret : f.body.any isReturn = false)
    (hat : StandsAt env pc (assemble (endingCode f))) (hlo : lo ≤ pc)
    (hhi : pc + codeSize (endingCode f) ≤ hi) (s : State) :
    ∃ last, Halts env lo hi ⟨pc, s⟩ (.returned (if f.isView then bytesOf 0 else [])) last ∧
      last.state.storage = s.storage := by
  unfold endingCode at hat hhi
  rw [if_neg (by simp [hret])] at hat hhi
  by_cases hview : f.isView = true
  · rw [if_pos hview] at hat hhi ⊢
    have hzero : Moves env [.pushNat 0] s (s.withStack (0 :: s.stack)) :=
      (computes_zero []).moves s.stack
    rw [assemble_cons] at hat
    have hsize : pc + codeSize [.pushNat 0] + codeSize returnWordCode ≤ hi := by
      simpa [Nat.add_assoc] using hhi
    have hfirst : StandsAt env pc (assemble [.pushNat 0]) := by simpa using hat.left
    have hrest : StandsAt env (pc + codeSize [.pushNat 0]) (assemble returnWordCode) := by
      simpa using hat.right
    have hbehind : lo ≤ pc + codeSize [.pushNat 0] := by omega
    obtain ⟨last, hhalts, hstorage⟩ :=
      halts_returnWord_at 0 s.stack s.memory s.storage hrest hbehind hsize
    exact ⟨last, (hzero lo hi pc hfirst hlo (by omega)).halts hhalts, hstorage⟩
  · rw [if_neg hview] at hat hhi ⊢
    exact halts_returnEmpty_at s hat hlo hhi

theorem halts_endingCode {env : Env} {lo hi pc : Nat} (hret : f.body.any isReturn = false)
    (hspan : Spans env lo hi pc (endingCode f)) (s : State) :
    ∃ last, Halts env lo hi ⟨pc, s⟩ (.returned (if f.isView then bytesOf 0 else [])) last ∧
      last.state.storage = s.storage :=
  halts_endingCode_at hret hspan.standsAt hspan.lo_le hspan.le_hi s

theorem halts_of_follows {env : Env} {lo hi start : Nat} {body : List Instr}
    {r : Storage × Option (List UInt8)}
    (hspan : Spans env lo hi start (.op .jumpDest :: (body ++ endingCode f)))
    (hreturns : f.body.any isReturn = true → r.2.isSome = true) {s : State}
    (hfollow : Follows env lo hi ⟨start + 1, s⟩ (start + 1 + codeSize body) r) :
    ∃ last, Halts env lo hi ⟨start, s⟩ (.returned (f.ended r).2) last ∧
      last.state.storage = (f.ended r).1 := by
  have henter := runs_jumpDest hspan.head s
  obtain ⟨σ, returned⟩ := r
  cases returned with
  | some returned =>
    obtain ⟨last, hhalts, hstorage⟩ := hfollow
    exact ⟨last, henter.halts hhalts, hstorage⟩
  | none =>
    have hret : f.body.any isReturn = false := by simpa using hreturns
    obtain ⟨last, hhalts, hstorage⟩ :=
      halts_endingCode hret hspan.tail.right { s with storage := σ }
    exact ⟨last, henter.halts (Runs.halts hfollow hhalts), hstorage⟩

theorem halts_functionCode {env : Env} {lo hi start : Nat} {code : List Instr}
    (hS : (bodyScope c f).Fits) (hsup : SupportedFunction f)
    (hcode : functionCode c start f = some code) (hspan : Spans env lo hi start code) (s : State) :
    ∃ last, Halts env lo hi ⟨start, s⟩ (.returned (callFunction c f env.data s.storage).2) last ∧
      last.state.storage = (callFunction c f env.data s.storage).1 := by
  obtain ⟨body, hbody, rfl⟩ := Option.map_eq_some_iff.mp hcode
  have hfollow := stmtsFollowed hS f.body (s := s) hbody hsup.body hspan.tail.left
  rw [bodyScope_eq hsup.distinct] at hfollow
  rw [callFunction_eq]
  exact halts_of_follows hspan (execStmts_returns _ _ _) hfollow

/-- **Calls do what functions mean.**  In the runtime code generated for an analyzed contract
whose functions are supported, each of them begins with a `JUMPDEST`.  From there, whatever
word is on the stack, the machine returns without leaving the code of the function, and
storage and data are those that the function means. -/
theorem call_returns_meaning {e : Emitter} {k : Nat} {name : String} {data : List UInt8}
    (hc : Analyzed c) (hgen : (emitContract c).run {} = .ok () e)
    (hsup : ∀ entry ∈ c.dispatchable, SupportedFunction entry.2)
    (hk : c.dispatchable[k]? = some (name, f)) (hdata : data.length < 2 ^ 256)
    (w : Word) (m : Memory) (σ : Storage) :
    e.runtime[functionStart c k]? = some Opcode.jumpDest.byte ∧
    ∃ last, Halts ⟨e.runtime.toList, data, hdata⟩ (functionStart c k) (functionStart c (k + 1))
        ⟨functionStart c k, ⟨[w], m, σ⟩⟩ (.returned (callFunction c f data σ).2) last ∧
      last.state.storage = (callFunction c f data σ).1 := by
  have hcall : Callable c := fun entry he => (hsup entry he).callable
  have hmem : (name, f) ∈ c.dispatchable := List.mem_of_getElem? hk
  obtain ⟨codes, hlist⟩ := runtime_listing hc hcall (fun entry he => (hsup entry he).body.fits) hgen
  obtain ⟨code, hcode, hspan⟩ := hlist.spans_function ⟨e.runtime.toList, data, hdata⟩ hk
  refine ⟨?_, halts_functionCode (hlist.fit.scope _ hmem) (hsup _ hmem) hcode hspan ⟨[w], m, σ⟩⟩
  obtain ⟨body, -, rfl⟩ := Option.map_eq_some_iff.mp hcode
  simpa using hspan.getElem?_op

/-- Six is added to forty. -/
theorem call_returns_meaning_tally :
    ∃ e, (emitContract tally).run {} = .ok () e ∧
      ∃ last, Halts ⟨e.runtime.toList, [0, 0, 0, 0] ++ bytesOf 6, by decide⟩
          (functionStart tally 0) (functionStart tally 1)
          ⟨functionStart tally 0, ⟨[9], fun _ => 0, fun _ => 40⟩⟩ (.returned (bytesOf 46)) last ∧
        last.state.storage 0 = 46 ∧ last.state.storage 1 = 7 ∧ last.state.storage 2 = 40 := by
  obtain ⟨e, hgen⟩ := exists_of_runtimeSize? generated_tally
  have hdata : ([0, 0, 0, 0] ++ bytesOf 6).length < 2 ^ 256 := by decide
  obtain ⟨-, last, hhalts, hstorage⟩ := call_returns_meaning analyzed_tally hgen supported_tally
    (show tally.dispatchable[0]? = some ("add", tallyAdd) from rfl)
    hdata 9 (fun _ => 0) (fun _ => 40)
  have hreturned : (callFunction tally tallyAdd ([0, 0, 0, 0] ++ bytesOf 6) fun _ => 40).2 =
      bytesOf 46 := by decide +kernel
  rw [hreturned] at hhalts
  refine ⟨e, hgen, last, hhalts, ?_⟩
  rw [hstorage]
  decide +kernel

end Evm

end ContractKit
