import ContractKit.Proofs.Evm.Call
import ContractKit.Proofs.Evm.Dispatch
import ContractKit.Proofs.Evm.Interface

/-!
# Declared outputs and returned data

The interface declares an output for a function that is a view or that returns a value on the
outermost level of its body.  The code returns a word wherever a statement returns a value, and
nothing where it returns none.  So a call returns what is declared unless the return that it
comes to is at odds with the declaration: a value is returned in a branch only, or a function
with an output returns without a value.

Which return a call comes to is decided by its data and by the storage.  Nothing is asked of the
expressions here but that their literals fit: a test is decided by the word that its code leaves
on top of the stack, whatever the expression is.
-/

namespace ContractKit.Evm

open Source

variable {env : Env} {S : Scope} {data : List UInt8}

/-! ## Ways to the end -/

/-- How statements come to their end: what follows is reached, or the execution returns, with a
value or without one. -/
inductive Way where
  | through
  | returned (valued : Bool)
  deriving DecidableEq, Repr

/-- The state with the words of an expression on the stack. -/
def State.withWords (S : Scope) (data : List UInt8) (s : State) (expr : Expr) : State :=
  s.withStack (exprStack S data s.storage expr ++ s.stack)

/-- The state after the top of the stack was stored in a slot. -/
def State.stored (s : State) (slot : Int) : State :=
  match s.stack with
  | v :: rest => ⟨rest, s.memory, s.storage.set (slotWord slot) v⟩
  | [] => s

/-- The state after a word was stored as far behind a slot as the word above it says. -/
def State.storedBehind (s : State) (slot : Int) : State :=
  match s.stack with
  | k :: v :: rest => ⟨rest, s.memory, s.storage.set (slotWord slot + k) v⟩
  | _ => s

def State.assigned (S : Scope) (data : List UInt8) (s : State) (target value : Expr) : State :=
  match target with
  | .attribute (.name "self") field =>
    match S.slot? field with
    | some slot => (s.withWords S data value).stored slot
    | none => s
  | .subscript (.attribute (.name "self") field) index =>
    match S.slot? field with
    | some slot => ((s.withWords S data value).withWords S data index).storedBehind slot
    | none => s
  | _ => s

mutual

/-- The way in which a statement comes to its end, and the state behind it. -/
def stmtEnd (S : Scope) (data : List UInt8) (s : State) : Stmt → Way × State
  | .assign [target] value => (.through, s.assigned S data target value)
  | .ret value => (.returned value.isSome, s)
  | .ifThen test body orelse =>
    let tested := s.withWords S data test
    let entered := tested.withStack tested.stack.tail
    if tested.stack.head? = some 0 then stmtsEnd S data entered orelse
    else stmtsEnd S data entered body
  | _ => (.through, s)

/-- The way in which statements in order come to their end: that of the first one that returns,
if one does. -/
def stmtsEnd (S : Scope) (data : List UInt8) (s : State) : List Stmt → Way × State
  | [] => (.through, s)
  | stmt :: rest =>
    match stmtEnd S data s stmt with
    | (.through, s') => stmtsEnd S data s' rest
    | (way, s') => (way, s')

end

/-- Statements with a return on their outermost level are not gone through. -/
theorem any_isReturn_of_through {body : List Stmt} {s : State}
    (h : (stmtsEnd S data s body).1 = .through) : body.any isReturn = false := by
  induction body generalizing s with
  | nil => rfl
  | cons stmt rest ih =>
    rw [stmtsEnd] at h
    split at h
    case h_1 s' hstmt =>
      have hfirst : isReturn stmt = false := by
        cases stmt with
        | ret value => simp [stmtEnd] at hstmt
        | _ => rfl
      simp [hfirst, ih h]
    case h_2 way s' hway hstmt =>
      obtain rfl : way = .through := h
      exact absurd rfl hway

/-- The machine comes to the end of statements in some way: it arrives at a position in a state,
or it returns a word, or nothing. -/
def Arrives (env : Env) (lo hi : Nat) (f : Frame) (stop : Nat) : Way × State → Prop
  | (.through, t) => Runs env lo hi f ⟨stop, t⟩
  | (.returned valued, _) =>
    ∃ returned last, Halts env lo hi f (.returned returned) last ∧
      returned.length = if valued then 32 else 0

section Arrives

variable {lo hi stop stop' : Nat} {f g : Frame} {r : Way × State}

theorem Arrives.of_runs (hrun : Runs env lo hi f g) (h : Arrives env lo hi g stop r) :
    Arrives env lo hi f stop r := by
  obtain ⟨_ | valued, t⟩ := r
  · exact hrun.trans h
  · obtain ⟨returned, last, hhalts, hlen⟩ := h
    exact ⟨returned, last, hrun.halts hhalts, hlen⟩

theorem Arrives.of_stop (h : Arrives env lo hi f stop r)
    (hrun : ∀ s, Runs env lo hi ⟨stop, s⟩ ⟨stop', s⟩) : Arrives env lo hi f stop' r := by
  obtain ⟨_ | valued, t⟩ := r
  · exact Runs.trans h (hrun t)
  · exact h

end Arrives

/-- The code of a statement comes to its end in the way of the statement. -/
def StmtArrives (env : Env) (S : Scope) (stmt : Stmt) : Prop :=
  ∀ {lo hi pc : Nat} {code : List Instr}, stmtCode S pc stmt = some code → StmtFits stmt →
    Spans env lo hi pc code → ∀ s : State,
    Arrives env lo hi ⟨pc, s⟩ (pc + codeSize code) (stmtEnd S env.data s stmt)

/-- The code of statements comes to its end in their way. -/
def StmtsArrive (env : Env) (S : Scope) (stmts : List Stmt) : Prop :=
  ∀ {lo hi pc : Nat} {code : List Instr}, stmtsCode S pc stmts = some code → StmtsFit stmts →
    Spans env lo hi pc code → ∀ s : State,
    Arrives env lo hi ⟨pc, s⟩ (pc + codeSize code) (stmtsEnd S env.data s stmts)

/-- The words of an expression: at least one, and its code leaves them. -/
theorem executes_withWords (env : Env) (hS : S.Fits) {expr : Expr} (hfit : ExprFits expr)
    (s : State) :
    Executes env (exprCode S expr) s (s.withWords S env.data expr) :=
  (computes_exprCode hS hfit).executes s.stack

theorem exists_withWords (S : Scope) (data : List UInt8) (s : State) (expr : Expr) :
    ∃ w rest, s.withWords S data expr = ⟨w :: (rest ++ s.stack), s.memory, s.storage⟩ := by
  obtain ⟨w, rest, hwords⟩ :=
    List.exists_cons_of_length_eq_add_one (length_exprStack S data s.storage expr)
  exact ⟨w, rest, by rw [State.withWords, hwords]; rfl⟩

theorem executes_assignCode (hS : S.Fits) {target value : Expr} (hfit : AssignFits target value)
    (s : State) :
    Executes env (assignCode S target value) s (s.assigned S env.data target value) := by
  unfold AssignFits at hfit
  split at hfit
  case h_1 field =>
    simp only [assignCode, State.assigned]
    cases hk : S.slot? field with
    | none => exact .nil s
    | some slot =>
      have hvalue := executes_withWords env hS hfit s
      obtain ⟨v, rest, hwords⟩ := exists_withWords S env.data s value
      rw [hwords] at hvalue
      simp only [hwords, State.stored]
      exact hvalue.append (.cons (executes_slot hS hk _) (.op rfl))
  case h_2 field index =>
    simp only [assignCode, State.assigned]
    cases hk : S.slot? field with
    | none => exact .nil s
    | some slot =>
      have hvalue := executes_withWords env hS hfit.1 s
      have hindex := executes_withWords env hS hfit.2 (s.withWords S env.data value)
      obtain ⟨v, rest, hwords⟩ := exists_withWords S env.data s value
      obtain ⟨k, below, hkey⟩ := exists_withWords S env.data (s.withWords S env.data value) index
      refine (hvalue.append hindex).append ?_
      rw [hkey, hwords]
      -- Whatever lies below the key is what is stored.
      obtain _ | ⟨u, below⟩ := below
      · exact .cons (executes_slot hS hk _) (.cons (.op rfl) (.op rfl))
      · exact .cons (executes_slot hS hk _) (.cons (.op rfl) (.op rfl))
  case h_3 =>
    rw [assignCode, State.assigned]
    · exact .nil s
    all_goals assumption

theorem stmtArrives_ret (hS : S.Fits) (value : Expr) : StmtArrives env S (.ret (some value)) := by
  intro lo hi pc code hcode hfit hspan s
  obtain rfl : exprCode S value ++ returnWordCode = code := by simpa [stmtCode] using hcode
  have hvalue := executes_withWords env hS hfit s
  obtain ⟨w, rest, hwords⟩ := exists_withWords S env.data s value
  rw [hwords] at hvalue
  obtain ⟨last, hhalts, -⟩ :=
    halts_returnWord w (rest ++ s.stack) s.memory s.storage hspan.right
  exact ⟨bytesOf w, last, (hvalue lo hi pc hspan.left).halts hhalts, by simp⟩

theorem stmtArrives_ifThen (hS : S.Fits) {test : Expr} {body orelse : List Stmt}
    (hbody : StmtsArrive env S body) (horelse : StmtsArrive env S orelse) :
    StmtArrives env S (.ifThen test body orelse) := by
  intro lo hi pc code hcode hfit hspan s
  obtain ⟨hfitTest, hfitBody, hfitElse⟩ := hfit
  obtain ⟨bodyCode, elseCode, hbodyCode, helseCode, hlt, rfl⟩ := stmtCode_ifThen_eq_some.mp hcode
  have hbranch := branchRuns_of_spans hspan hlt
  obtain ⟨w, rest, hwords⟩ := exists_withWords S env.data s test
  -- Up to the conditional jump: the word that says whether the top of the words is zero.
  have htest : Executes env (exprCode S test ++ [Instr.op .isZero]) s
      ⟨flag (w = 0) :: (rest ++ s.stack), s.memory, s.storage⟩ := by
    have hexec := executes_withWords env hS hfitTest s
    rw [hwords] at hexec
    exact hexec.append (.op rfl)
  simp only [stmtEnd, hwords, State.withStack, List.head?_cons, List.tail_cons, Option.some.injEq]
  by_cases hw : w = 0
  · have hcond : flag (w = 0) ≠ 0 := by simp [flag, hw]
    rw [if_pos hw]
    exact .of_runs (hbranch.enterElse hcond htest)
      ((horelse helseCode hfitElse hbranch.elseSpan _).of_stop hbranch.leaveElse)
  · rw [(flag_eq_zero _).mpr hw] at htest
    rw [if_neg hw]
    exact .of_runs (hbranch.enterBody htest)
      ((hbody hbodyCode hfitBody hbranch.bodySpan _).of_stop hbranch.leaveBody)

/-- The code of statements comes to its end in their way. -/
theorem stmtsArrive (hS : S.Fits) (stmts : List Stmt) : StmtsArrive env S stmts := by
  refine (compileStmt.mutual_induct (StmtArrives env S) (StmtsArrive env S)
    ?assign ?ret ?retNone ?branch ?other ?nil ?cons).2 stmts
  case assign =>
    intro target value lo hi pc code hcode hfit hspan s
    obtain rfl : assignCode S target value = code := by simpa [stmtCode] using hcode
    exact executes_assignCode hS hfit s lo hi pc hspan
  case ret => exact stmtArrives_ret hS
  case retNone =>
    intro lo hi pc code hcode _ hspan s
    obtain rfl : returnEmptyCode = code := by simpa [stmtCode] using hcode
    obtain ⟨last, hhalts, -⟩ := halts_returnEmpty s hspan
    exact ⟨[], last, hhalts, rfl⟩
  case branch => exact fun _ _ _ => stmtArrives_ifThen hS
  case other =>
    intro stmt h₁ h₂ h₃ h₄ lo hi pc code hcode _ hspan s
    rw [stmtCode, Option.some.injEq] at hcode <;> try assumption
    subst hcode
    rw [stmtEnd]
    · exact .refl _
    · exact h₁
    · intro value heq
      cases value with
      | none => exact h₃ heq
      | some value => exact h₂ value heq
    · exact h₄
  case nil =>
    intro lo hi pc code hcode _ hspan s
    obtain rfl : [] = code := by simpa [stmtsCode] using hcode
    exact .refl _
  case cons =>
    intro stmt rest hstmt hrest lo hi pc code hcode hfit hspan s
    obtain ⟨first, others, hfirst, hothers, rfl⟩ := stmtsCode_cons_eq_some.mp hcode
    have harrives := hstmt hfirst hfit.1 hspan.left s
    rw [stmtsEnd]
    split
    case h_1 t hend =>
      rw [hend] at harrives
      rw [codeSize_append, ← Nat.add_assoc]
      exact .of_runs harrives (hrest hothers hfit.2 hspan.right t)
    case h_2 way t hway hend =>
      rw [hend] at harrives
      cases way with
      | through => exact absurd rfl hway
      | returned valued => exact harrives

/-! ## Calls -/

variable {c : ContractState} {f : Function}

/-- The way in which a call of a function comes to its end, from the state in which the function
is entered. -/
def wayTaken (c : ContractState) (f : Function) (data : List UInt8) (s : State) : Way :=
  (stmtsEnd (bodyScope c f) data s f.body).1

/-- The number of bytes that a call of a function returns, by the way in which its body comes to
its end. -/
def Way.returnedBytes (f : Function) : Way → Nat
  | .through => if f.isView then 32 else 0
  | .returned valued => if valued then 32 else 0

/-- A return is at odds with what is declared: it has a value and no output is declared, or it
has none and an output is declared. -/
def Way.AtOdds (d : DeclaredFunction) : Way → Prop
  | .through => False
  | .returned valued => valued = d.outputs.isEmpty

/-- The code of a function returns as many bytes as the way of its body says. -/
theorem halts_functionCode_way {lo hi start : Nat} {code : List Instr} (hS : (bodyScope c f).Fits)
    (hfit : StmtsFit f.body) (hcode : functionCode c start f = some code)
    (hspan : Spans env lo hi start code) (s : State) :
    ∃ returned last, Halts env lo hi ⟨start, s⟩ (.returned returned) last ∧
      returned.length = (wayTaken c f env.data s).returnedBytes f := by
  obtain ⟨body, hbody, rfl⟩ := Option.map_eq_some_iff.mp hcode
  have henter := runs_jumpDest hspan.head s
  have harrives := stmtsArrive hS f.body hbody hfit hspan.tail.left s
  unfold wayTaken
  obtain ⟨⟨way, t⟩, hend⟩ : ∃ r, stmtsEnd (bodyScope c f) env.data s f.body = r := ⟨_, rfl⟩
  rw [hend] at harrives ⊢
  cases way with
  | returned valued =>
    obtain ⟨returned, last, hhalts, hlen⟩ := harrives
    exact ⟨returned, last, henter.halts hhalts, hlen⟩
  | through =>
    have hnone : f.body.any isReturn = false := any_isReturn_of_through (by rw [hend])
    obtain ⟨last, hhalts, -⟩ := halts_endingCode hnone hspan.tail.right t
    refine ⟨_, last, henter.halts (Runs.halts harrives hhalts), ?_⟩
    simp only [Way.returnedBytes]
    split <;> simp

/-- This is what is declared unless the way is at odds with it. -/
theorem returnedBytes_eq_iff (hread : f.Read) (data : List UInt8) (s : State) (name : String) :
    (wayTaken c f data s).returnedBytes f = 32 * (f.declared name).outputs.length ↔
      ¬(wayTaken c f data s).AtOdds (f.declared name) := by
  have houtputs : (f.declared name).outputs =
      if f.hasReturn || f.isView then [⟨"", f.returnType⟩] else [] := rfl
  cases hway : wayTaken c f data s with
  | through =>
    -- Without a return on the outermost level only a view has an output.
    have hnone : f.hasReturn = false := by
      have hany := any_isReturn_of_through hway
      rw [hread.hasReturn_eq]
      simp only [List.any_eq_false] at hany ⊢
      intro s hs hvalue
      refine hany s hs ?_
      cases s with
      | ret value => rfl
      | _ => simp [Layout.returned?] at hvalue
    rw [houtputs, hnone]
    cases hview : f.isView <;> simp [Way.returnedBytes, Way.AtOdds, hview]
  | returned valued =>
    rw [Way.AtOdds, houtputs]
    cases hdeclared : f.hasReturn || f.isView <;> cases valued <;>
      simp [Way.returnedBytes]

/-- A message that begins with the selector of a function means that function, unless an earlier
one has the same selector. -/
theorem routed?_of_selector {data : List UInt8} {k : Nat} {name : String}
    (hk : c.dispatchable[k]? = some (name, f)) (hdata : Hash.selector (f.signature name) <+: data)
    (hfirst : ∀ entry ∈ c.dispatchable.take k,
      Hash.selector (entry.2.signature entry.1) ≠ Hash.selector (f.signature name)) :
    routed? c data = some k := by
  have hlen := length_selector (f.signature name)
  have htake : data.take 4 = Hash.selector (f.signature name) := by
    rw [← hlen]
    exact (List.prefix_iff_eq_take.mp hdata).symm
  have hlong := hdata.length_le
  obtain ⟨hlt, hget⟩ := List.getElem?_eq_some_iff.mp hk
  rw [routed?, if_neg (by omega), List.findIdx?_eq_some_iff_getElem]
  refine ⟨hlt, by simp [hget, htake], ?_⟩
  intro j hj
  have hmem : c.dispatchable[j] ∈ c.dispatchable.take k :=
    List.mem_take_iff_getElem.mpr ⟨j, by omega, rfl⟩
  simpa [htake] using hfirst _ hmem

/-- The state in which a function is entered: the selector is left on the stack. -/
def entered (data : List UInt8) (m : Memory) (σ : Storage) : State :=
  ⟨[wordOf (data.take 4)], m, σ⟩

/-- In a generated runtime code, a message that means a function returns as many bytes as the way
of its body says. -/
theorem halts_routed {e : Emitter} {k : Nat} {name : String} {data : List UInt8} (hc : Analyzed c)
    (hcall : Callable c) (hfit : ∀ entry ∈ c.dispatchable, StmtsFit entry.2.body)
    (hgen : (emitContract c).run {} = .ok () e) (hk : c.dispatchable[k]? = some (name, f))
    (hdata : data.length < 2 ^ 256) (hroute : routed? c data = some k) (m : Memory) (σ : Storage) :
    ∃ returned last, Halts ⟨e.runtime.toList, data, hdata⟩ 0 e.runtime.toList.length
        ⟨0, ⟨[], m, σ⟩⟩ (.returned returned) last ∧
      returned.length = (wayTaken c f data (entered data m σ)).returnedBytes f := by
  have hmem : (name, f) ∈ c.dispatchable := List.mem_of_getElem? hk
  obtain ⟨codes, hlist⟩ := runtime_listing hc hcall hfit hgen
  let env : Env := ⟨e.runtime.toList, data, hdata⟩
  obtain ⟨code, hcode, hspan, hruns⟩ := @enters_function c env m σ codes hlist k name f hk hroute
  obtain ⟨returned, last, hhalts, hlen⟩ := halts_functionCode_way (hlist.fit.scope _ hmem)
    (hfit _ hmem) hcode hspan (entered data m σ)
  exact ⟨returned, last, hruns.halts hhalts, hlen⟩

/-- **Declared outputs and returned data.**  Take a compiled source whose literals fit into
words, and a message that begins with the selector of a declared function.  Whatever the storage
is, the call returns, and the number of bytes is that of the way in which the body of the function
comes to its end with these data and this storage.  It is a word for a declared output and nothing
for none iff this way is not a return at odds with the declaration. -/
theorem returned_as_declared_iff {source : String} {r : Compiled} {k : Nat}
    {d : DeclaredFunction} {name : String} {data : List UInt8}
    (hok : (compile source).2.result = .ok r) (hcall : Callable (compile source).1.contract)
    (hfit : ∀ entry ∈ (compile source).1.contract.dispatchable, StmtsFit entry.2.body)
    (hd : r.interface.functions[k]? = some d)
    (hf : (compile source).1.contract.dispatchable[k]? = some (name, f))
    (hdata : data.length < 2 ^ 256) (hselector : d.selector <+: data)
    (hfirst : ∀ d' ∈ r.interface.functions.take k, d'.selector ≠ d.selector)
    (m : Memory) (σ : Storage) :
    ∃ returned last,
      Halts ⟨(compile source).1.runtime, data, hdata⟩ 0 (compile source).1.runtime.length
        ⟨0, ⟨[], m, σ⟩⟩ (.returned returned) last ∧
      returned.length =
        (wayTaken (compile source).1.contract f data (entered data m σ)).returnedBytes f ∧
      (returned.length = 32 * d.outputs.length ↔
        ¬(wayTaken (compile source).1.contract f data (entered data m σ)).AtOdds d) := by
  obtain ⟨statements, hsteps⟩ := compile_steps hok
  have hread : ∀ entry ∈ (compile source).1.contract.dispatchable, entry.2.Read :=
    fun entry he => hsteps.contract_analyzed.functionsRead he
  have hfunctions := hsteps.functions_eq
  obtain rfl : f.declared name = d := by simpa [hfunctions, hf] using hd
  have hreadf := hread _ (List.mem_of_getElem? hf)
  have hroute : routed? (compile source).1.contract data = some k := by
    refine routed?_of_selector hf ?_ ?_
    · rwa [← hreadf.selector_declared]
    · intro entry hentry
      have hmem : entry.2.declared entry.1 ∈ r.interface.functions.take k := by
        rw [hfunctions, ← List.map_take]
        exact List.mem_map_of_mem hentry
      have hne := hfirst _ hmem
      rwa [hreadf.selector_declared,
        (hread entry (List.mem_of_mem_take hentry)).selector_declared] at hne
  obtain ⟨returned, last, hhalts, hlen⟩ := halts_routed hsteps.contract_analyzed hcall
    hfit hsteps.generated hf hdata hroute m σ
  refine ⟨returned, last, hhalts, hlen, ?_⟩
  rw [hlen]
  exact returnedBytes_eq_iff hreadf data (entered data m σ) name

theorem callable_clamp : Callable clampContract := by
  intro entry he
  obtain rfl : entry = ("clamp", clamp) := List.mem_singleton.mp he
  decide

theorem fit_clamp : ∀ entry ∈ clampContract.dispatchable, StmtsFit entry.2.body := by
  intro entry he
  obtain rfl : entry = ("clamp", clamp) := List.mem_singleton.mp he
  simp [clamp, clampBody, clampTest, StmtsFit, StmtFits, ExprFits, Value.ofLiteral, Value.FitsWord]

theorem clampCall_lt :
    ((clamp.declared "clamp").selector ++ bytesOf 0 ++ bytesOf 9).length < 2 ^ 256 := by
  simp [DeclaredFunction.selector]
  omega

theorem wayTaken_clamp (data : List UInt8) (s : State) :
    wayTaken clampContract clamp data s = .returned true := by
  simp only [wayTaken, clamp, clampBody, stmtsEnd, stmtEnd]
  split_ifs <;> rfl

/-- A function whose returns all have a value returns the word that is declared. -/
theorem returned_as_declared_iff_clamp :
    ∃ r returned last, (compile clampText).2.result = .ok r ∧
      r.interface.functions = [clamp.declared "clamp"] ∧
      Halts ⟨(compile clampText).1.runtime,
          (clamp.declared "clamp").selector ++ bytesOf 0 ++ bytesOf 9, clampCall_lt⟩
        0 (compile clampText).1.runtime.length ⟨0, ⟨[], fun _ => 0, fun _ => 0⟩⟩
        (.returned returned) last ∧ returned.length = 32 := by
  obtain ⟨r, hok, hcontract, hfunctions⟩ := compile_clamp
  obtain ⟨returned, last, hhalts, -, hiff⟩ := returned_as_declared_iff hok
    (by rw [hcontract]; exact callable_clamp) (by rw [hcontract]; exact fit_clamp)
    (show r.interface.functions[0]? = some (clamp.declared "clamp") by rw [hfunctions]; rfl)
    (show (compile clampText).1.contract.dispatchable[0]? = some ("clamp", clamp) by
      rw [hcontract]; rfl)
    clampCall_lt ⟨bytesOf 0 ++ bytesOf 9, by simp⟩ (by simp) (fun _ => 0) (fun _ => 0)
  rw [hcontract, wayTaken_clamp] at hiff
  exact ⟨r, returned, last, hok, hfunctions, hhalts, hiff.mpr (by rintro ⟨⟩)⟩

/-! ## A contract that declares too little -/

/-- A source with a function that returns a value in both parts of a branch. -/
def pickText : String :=
  "class Pick(PySmartContract):\n" ++
  "    @public_function\n" ++
  "    def pick(self, n: int):\n" ++
  "        if n > 5:\n" ++
  "            return 1\n" ++
  "        else:\n" ++
  "            return 2\n"

def pick : Function where
  isPublic := true
  args := ["n"]
  paramTypes := ["uint256"]
  body :=
    [.ifThen (.compare (.name "n") .gt (.literal (.int 5)) []) [.ret (some (.literal (.int 1)))]
      [.ret (some (.literal (.int 2)))]]

def pickStatements : List Stmt :=
  [.classDef "Pick" [.name "PySmartContract"] []
    [.functionDef false "pick" [⟨.regular, "self", none, none⟩,
        ⟨.regular, "n", some (.name "int"), none⟩] pick.body [.name "public_function"] none] []]

theorem read_pick : readStatements pickText = some pickStatements :=
  readStatements_eq (by repeat' constructor) (by decide +kernel)

/-- The contract found in the source. -/
def pickContract : ContractState where
  functions := [("pick", pick)]

theorem contract_pick :
    (({} : Analyzer).analyze pickStatements).1.layout.toState = pickContract := by cbv

theorem compile_pick :
    ∃ r, (compile pickText).2.result = .ok r ∧ (compile pickText).1.contract = pickContract ∧
      r.interface.functions = [pick.declared "pick"] :=
  exists_compiled read_pick contract_pick (by decide +kernel)

theorem pickCall_lt : ((pick.declared "pick").selector ++ bytesOf 7).length < 2 ^ 256 := by
  simp [DeclaredFunction.selector]
  omega

theorem wayTaken_pick (data : List UInt8) (s : State) :
    wayTaken pickContract pick data s = .returned true := by
  simp only [wayTaken, pick, stmtsEnd, stmtEnd]
  split_ifs <;> rfl

/-- No output is declared, but a word is returned. -/
theorem branch_value_undeclared :
    ∃ r returned last, (compile pickText).2.result = .ok r ∧
      r.interface.functions = [pick.declared "pick"] ∧ (pick.declared "pick").outputs = [] ∧
      Halts ⟨(compile pickText).1.runtime, (pick.declared "pick").selector ++ bytesOf 7,
          pickCall_lt⟩
        0 (compile pickText).1.runtime.length ⟨0, ⟨[], fun _ => 0, fun _ => 0⟩⟩
        (.returned returned) last ∧ returned.length = 32 := by
  obtain ⟨r, hok, hcontract, hfunctions⟩ := compile_pick
  obtain ⟨statements, hsteps⟩ := compile_steps hok
  have hentry : ∀ entry ∈ (compile pickText).1.contract.dispatchable, entry = ("pick", pick) := by
    intro entry he
    rw [hcontract] at he
    exact List.mem_singleton.mp he
  have hcall : Callable (compile pickText).1.contract := by
    intro entry he
    obtain rfl := hentry entry he
    decide
  have hfit : ∀ entry ∈ (compile pickText).1.contract.dispatchable, StmtsFit entry.2.body := by
    intro entry he
    obtain rfl := hentry entry he
    simp [pick, StmtsFit, StmtFits, ExprFits, Value.ofLiteral, Value.FitsWord]
  have hk : (compile pickText).1.contract.dispatchable[0]? = some ("pick", pick) := by
    rw [hcontract]
    rfl
  have hread := hsteps.contract_analyzed.functionsRead (List.mem_of_getElem? hk)
  have hselector : Hash.selector (pick.signature "pick") <+:
      (pick.declared "pick").selector ++ bytesOf 7 := by
    rw [hread.selector_declared]
    exact List.prefix_append _ _
  have hroute := routed?_of_selector hk hselector (by simp)
  obtain ⟨returned, last, hhalts, hlen⟩ := halts_routed hsteps.contract_analyzed hcall
    hfit hsteps.generated hk pickCall_lt hroute (fun _ => 0) (fun _ => 0)
  rw [hcontract, wayTaken_pick] at hlen
  exact ⟨r, returned, last, hok, hfunctions, rfl, hhalts, hlen⟩

end ContractKit.Evm
