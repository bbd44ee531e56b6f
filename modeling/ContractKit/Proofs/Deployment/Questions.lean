import ContractKit.Deployment.Interact
import ContractKit.Proofs.Deployment.Steps

/-!
# What deployments and calls ask

Deployments, their estimates and calls of functions ask about one account only, the one that is
found for them: its balance, the number of its transactions, and what it sends and signs.
-/

namespace ContractKit.Deployment

open Project Wallet

variable {P : Call → Prop} {s₀ s : Session} {function sender : String} {args : List Json}

/-- A task has no other account than this one: all of its questions about an account are about it,
and without an account it ends with a problem. -/
def Uses {α : Type} (account : Except Problem String) (x : SessionM α) (s : Session) : Prop :=
  ∃ r s' new, x s = endWith r s' ∧ s'.calls = s.calls ++ new ∧
    (∀ call ∈ new, Fits s.outside.accounts account call) ∧
    ∀ result, r = .ok result → ∃ a, account = .ok a

theorem uses_of_asks {α : Type} {account : Except Problem String} {x : SessionM α}
    (h : Asks (Fits s.outside.accounts account) s x fun _ => ∃ a, account = .ok a) :
    Uses account x s := by
  obtain ⟨r, s', hrun, hs', hr⟩ := h s (.refl s)
  obtain ⟨new, hcalls, hnew⟩ := hs'.calls
  exact ⟨r, s', new, hrun, hcalls, hnew, hr⟩

/-! ## Deployments -/

theorem asks_awaitReceipt {hash : List UInt8} (hP : P (.awaitReceipt hash receiptTimeout)) :
    Asks P s₀ (awaitReceipt hash) fun _ => True :=
  asks_question hP _

theorem speaks_keepRecord (network : Json) (name : String) (entry : Json) :
    Speaks P (keepRecord network name entry) := by
  have hadd : ∀ records, Speaks P (do
      streamDocument recordsFile (← demand (withRecord records network name entry))) :=
    fun records => (speaks_demand _).bind fun updated => speaks_streamDocument _ updated
  refine (Speaks.of_asks fun _ => (asks_exists? _).mono fun _ _ => trivial).bind fun there => ?_
  cases there with
  | false => exact (speaks_pure (.obj [])).bind hadd
  | true =>
    exact (Speaks.of_asks fun _ => (asks_readDocument _).mono fun _ _ => trivial).bind hadd

theorem speaks_confirm (name : String) (args : List Json) (config : Json) (sent : Sent)
    (receipt : Receipt) :
    Speaks P (confirm name args config sent.sender sent.hash sent.price receipt) := by
  refine (speaks_report _).bind fun _ => (speaks_demand _).bind fun total => ?_
  refine (Speaks.of_asks fun _ => asks_inUnit _ _).bind fun cost => ?_
  refine (speaks_demand _).bind fun network => (speaks_demand _).bind fun chainId => ?_
  exact (speaks_keepRecord _ _ _).bind fun _ => (speaks_report _).bind fun _ => speaks_pure _

theorem speaks_settle (name : String) (args : List Json) (config : Json) (sent : Sent)
    (hP : ∀ hash timeout, P (.awaitReceipt hash timeout)) :
    Speaks P (settle name args config sent) := by
  refine (Speaks.of_asks fun _ => asks_awaitReceipt (hP _ _)).bind fun receipt => ?_
  split
  case isTrue => exact (speaks_confirm _ _ _ _ _).bind fun entry => speaks_pure (some entry)
  case isFalse => exact (speaks_report _).bind fun _ => speaks_pure none

theorem uses_deploySteps (keystore password : Option String) (name : String) (args : List Json)
    (config : Json) (s : Session) :
    Uses (foundAccount keystore password s)
      (deploySteps keystore password name args config) s := by
  rcases deploySteps_settles keystore password name args config s with
    ⟨p, s', hrun, hs'⟩ | ⟨sent, s₁, hrun, hs₁, hsent⟩
  · obtain ⟨new, hcalls, hnew⟩ := hs'.calls
    exact ⟨.error p, s', new, hrun, hcalls, fun call hcall => (hnew call hcall).2, by simp⟩
  · obtain ⟨new, hcalls, hnew⟩ := hs₁.calls
    obtain ⟨r, s', new', hsettle, hcalls', hnew'⟩ := speaks_settle name args config sent
      (P := Fits s.outside.accounts (foundAccount keystore password s)) (fun _ _ => trivial) s₁
    exact ⟨r, s', new ++ new', hrun.trans hsettle, by simp [hcalls, hcalls'],
      List.forall_mem_append.mpr ⟨fun call hcall => (hnew call hcall).2, hnew'⟩,
      fun _ _ => ⟨sent.sender, hsent.account⟩⟩

theorem uses_estimateGas (name : String) (args : List Json) (config : Json) (s : Session) :
    Uses (foundAccount none none s) (estimateGas name args config) s := by
  refine uses_of_asks ?_
  refine (asks_loadArtifacts name).bind fun artifacts _ => ?_
  refine (asks_connect config fun _ => trivial).bind fun _ _ => ?_
  refine (asks_accountAddress fun _ h => h).bind fun sender hsender => ?_
  refine (asks_contractObject trivial).bind fun _ _ => ?_
  refine (asks_transactionCount hsender).bind fun nonce _ => asks_gasPrice.bind fun price _ => ?_
  refine (asks_demand _).bind fun chainId _ => asks_outside.bind fun o _ => ?_
  refine (asks_buildTransaction _ ⟨sender, hsender, rfl⟩).bind fun transaction htransaction => ?_
  rw [htransaction]
  exact (asks_estimateTransaction ⟨sender, hsender, rfl⟩).mono fun _ _ => ⟨sender, hsender⟩

/-! ## Calls of functions -/

theorem asks_reportLine (line : Line) : Asks P s₀ (reportLine line) fun _ => True :=
  fun _ hs => ⟨.ok (), _, rfl, hs.trans ⟨⟨rfl, rfl⟩, [], by simp, by simp⟩, fun _ _ => trivial⟩

theorem asks_recordOf (config : Json) (name : String) :
    Asks P s₀ (recordOf config name) fun _ => True := by
  have hreturn : ∀ (text : String) (j : Json),
      Asks P s₀ (do report text; return j) fun _ => True :=
    fun text j => (asks_report text).bind fun _ _ => asks_pure trivial
  have hend : ∀ (records network : Json) (known : Bool), Asks P s₀ (do
      if known then
        let here ← demand (records.item network)
        demand (here.field name)
      else
        report s!"[red]Contract {name} not found on {network.asText} network.[/red]"
        return .null) fun _ => True := fun records network known =>
    .ite (fun _ => (asks_demand _).bind fun here _ => (asks_demand _).mono fun _ _ => trivial)
      fun _ => hreturn _ _
  refine (asks_exists? _).bind fun there _ => .ite (fun _ => ?_) fun _ => hreturn _ _
  refine (asks_readDocument _).bind fun records _ => (asks_demand _).bind fun network _ => ?_
  refine (asks_demand _).bind fun has _ => ?_
  cases has with
  | false => exact hend records network false
  | true =>
    exact (asks_demand _).bind fun here _ => (asks_demand _).bind fun known _ =>
      hend records network known

theorem asks_deployedContract (config : Json) (name : String)
    (hP : ∀ address code, P (.contract address code)) :
    Asks P s₀ (deployedContract config name) fun _ => True := by
  refine (asks_recordOf config name).bind fun found _ =>
    .ite (fun _ => asks_pure trivial) fun _ => ?_
  refine (asks_loadArtifacts name).attempt.bind fun outcome _ => ?_
  cases outcome with
  | error p =>
    refine .ite (fun _ => (asks_report _).bind fun _ _ => asks_pure trivial) fun _ => asks_throw _
  | ok artifacts =>
    exact (asks_demand _).bind fun address _ => (asks_contractObject (hP _ _)).bind fun _ _ =>
      asks_pure trivial

theorem asks_endpoint (function : String) : Asks P s₀ (endpoint function) fun _ => True := by
  refine asks_outside.bind fun o _ => ?_
  split
  · exact asks_pure trivial
  · exact asks_throw _

theorem asks_callView (config : Json) (name function : String) (args : List Json)
    (hcontract : ∀ address code, P (.contract address code)) (hread : P (.read function args)) :
    Asks P s₀ (callView config name function args) fun _ => True := by
  refine (asks_deployedContract config name hcontract).bind fun found _ => ?_
  cases found with
  | none => exact asks_pure trivial
  | some contract =>
    have hcall : Asks P s₀ (readFunction function args) fun _ => True :=
      (asks_endpoint function).bind fun e _ => (asks_note hread).bind fun _ _ =>
        (asks_answer _).mono fun _ _ => trivial
    refine (Asks.attempt (hcall.bind fun result _ => (asks_demand _).bind fun address _ =>
      (asks_reportLine _).bind fun _ _ => asks_pure trivial)).bind fun outcome _ => ?_
    cases outcome with
    | ok result => exact asks_pure trivial
    | error p => exact (asks_report _).bind fun _ _ => asks_pure trivial

theorem asks_functionLimit (e : Endpoint)
    (hP : P (.estimateFunction function args (.obj [("from", .str sender)]))) :
    Asks P s₀ (functionLimit function e args sender) fun _ => True := by
  refine (Asks.attempt ((asks_note hP).bind fun _ _ => (asks_answer _).bind fun estimate _ =>
    (asks_demand _).mono fun _ _ => trivial)).bind fun outcome _ => ?_
  cases outcome with
  | ok limit => exact asks_pure trivial
  | error p => exact (asks_report _).bind fun _ _ => asks_pure trivial

theorem asks_sendSteps (config : Json) (contract : Deployed) (name function : String)
    (args : List Json) {accounts : Assoc String String} {account : Except Problem String}
    (hsender : account = .ok sender) :
    Asks (Fits accounts account) s₀ (sendSteps config contract sender name function args)
      fun _ => True := by
  refine (asks_endpoint function).bind fun e _ => asks_gasPrice.bind fun price _ => ?_
  refine (asks_transactionCount hsender).bind fun nonce _ => ?_
  refine (asks_functionLimit e ⟨sender, hsender, rfl⟩).bind fun limit _ => ?_
  refine (asks_demand _).bind fun chainId _ => ?_
  refine (asks_buildTransaction e ⟨sender, hsender, rfl⟩).bind fun transaction htransaction => ?_
  rw [htransaction]
  refine (asks_report _).bind fun _ _ => ?_
  refine (asks_signAndSend ⟨sender, hsender, rfl⟩ fun _ => trivial).bind fun hash _ => ?_
  refine (asks_report _).bind fun _ _ => (asks_report _).bind fun _ _ => ?_
  refine (asks_awaitReceipt trivial).bind fun receipt _ => .ite (fun _ => ?_) fun _ =>
    (asks_report _).bind fun _ _ => asks_pure trivial
  exact (asks_demand _).bind fun gas _ => (asks_demand _).bind fun address _ =>
    (asks_reportLine _).bind fun _ _ => asks_pure trivial

theorem asks_sendTransaction (config : Json) (name function : String) (args : List Json)
    {accounts : Assoc String String} {account : Except Problem String}
    (hsender : account = .ok sender) :
    Asks (Fits accounts account) s₀ (sendTransaction config sender name function args)
      fun _ => True := by
  refine (asks_deployedContract config name fun _ _ => trivial).bind fun found _ => ?_
  cases found with
  | none => exact asks_pure trivial
  | some contract =>
    refine (asks_sendSteps config contract name function args hsender).attempt.bind
      fun outcome _ => ?_
    cases outcome with
    | ok result => exact asks_pure trivial
    | error p => exact (asks_report _).bind fun _ _ => asks_pure trivial

theorem uses_interact (name function : String) (args : List Json) (config : Json) (isView : Bool)
    (s : Session) :
    Uses (foundAccount none none s) (interact name function args config isView) s := by
  refine uses_of_asks ?_
  rw [interact, enter, bind_assoc]
  refine (asks_connect config fun _ => trivial).bind fun _ _ => ?_
  refine (asks_accountAddress fun _ h => h).bind fun sender hsender =>
    .ite (fun _ => ?_) fun _ => ?_
  · exact (asks_callView config name function args (fun _ _ => trivial) trivial).mono
      fun _ _ => ⟨sender, hsender⟩
  · exact (asks_sendTransaction config name function args hsender).mono
      fun _ _ => ⟨sender, hsender⟩

end ContractKit.Deployment
