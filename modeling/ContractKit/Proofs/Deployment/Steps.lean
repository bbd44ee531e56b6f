import ContractKit.Proofs.Deployment.Records
import ContractKit.Proofs.Wallet.Account

/-!
# The steps of a deployment

Until its transaction is sent, a deployment only looks and asks: whatever goes wrong, nothing has
been done.  What follows waits for the receipt and, if the transaction succeeded, adds a record to
the file of records.
-/

namespace ContractKit.Deployment

open Project

variable {P : Call → Prop} {s₀ s s' : Session} {name network : String} {args : List Json}
  {config : Json} {keystore password : Option String}

/-! ## Before sending -/

theorem parts_join_ne_nil {path : Path} (h : path.absolute = false → path.parts ≠ [])
    (text : String) : (path.join text).absolute = false → (path.join text).parts ≠ [] := by
  unfold Path.join
  dsimp only
  split_ifs with habsolute
  · intro hjoin
    simp [hjoin] at habsolute
  · intro hjoin
    simp [h hjoin]

/-- Something that is found below the working directory shows that this is a directory. -/
theorem directory_of_exists? {t : Tree} {path : Path}
    (hparts : path.absolute = false → path.parts ≠ []) (h : t.exists? path = .ok true) :
    t.node? t.workingDirectory = some .directory := by
  cases hplace : t.place path with
  | error fault =>
    unfold Tree.exists? at h
    rw [hplace] at h
    cases fault <;> simp at h
  | ok p =>
    have hrelative := Tree.relative_of_place hplace
    rw [Tree.place_of_relative hrelative] at hplace
    cases hpath : path.parts with
    | nil => exact absurd hpath (hparts hrelative)
    | cons part rest =>
      rw [hpath, Tree.walk] at hplace
      split at hplace
      case h_1 hnode => exact hnode
      case h_2 => cases hplace
      case h_3 => cases hplace

theorem asks_loadArtifacts (name : String) :
    Asks P s₀ (loadArtifacts name buildDirectory)
      fun _ => s₀.files.node? s₀.files.workingDirectory = some .directory := by
  refine (asks_exists? _).bind fun there hthere => ?_
  cases there with
  | false => exact asks_throw _
  | true =>
    have hdirectory := directory_of_exists?
      (parts_join_ne_nil (parts_join_ne_nil (fun _ => by decide +kernel) name) (name ++ ".json"))
      hthere
    exact (asks_readDocument _).bind fun document _ =>
      (asks_demand _).mono fun _ _ => hdirectory

theorem asks_connect (config : Json) (hP : ∀ url, P (.connect url)) :
    Asks P s₀ (connect config) fun _ => True := by
  have hcheck : ∀ o : Outside, Asks P s₀ (do
      let id ← answer o.chain.chainId
      let expected ← demand (config.field "chain_id")
      if !id.equal expected then
        report (s!"[yellow]Warning:[/yellow] Connected chain ID ({id.asText}) " ++
          s!"does not match config ({expected.asText})")) fun _ => True := by
    intro o
    refine (asks_answer _).bind fun id _ => (asks_demand _).bind fun expected _ => ?_
    exact .ite (fun _ => asks_report _) fun _ => asks_pure trivial
  refine (asks_demand _).bind fun url _ => (asks_note (hP url)).bind fun _ _ =>
    asks_outside.bind fun o _ => .ite (fun _ => (asks_throw _).bind fun _ h => h) fun _ => ?_
  refine (hcheck o).attempt.bind fun checked _ => ?_
  cases checked with
  | ok _ => exact asks_pure trivial
  | error p => exact asks_report _

theorem asks_balanceOf {address : String} (hP : P (.balance address)) :
    Asks P s₀ (balanceOf address) fun _ => True :=
  asks_question hP _

theorem asks_inUnit (unit : Json → Except Json.Misuse Amount) (amount : Json) :
    Asks P s₀ (inUnit unit amount) fun _ => True :=
  asks_outside.bind fun _ _ => (asks_refuse _).bind fun _ _ =>
    (asks_demand _).mono fun _ _ => trivial

theorem asks_contractObject {address code : Json} (hP : P (.contract address code)) :
    Asks P s₀ (contractObject address code) fun _ => True :=
  (asks_note hP).bind fun _ _ => asks_outside.bind fun _ _ =>
    (asks_refuse _).mono fun _ _ => trivial

theorem asks_gasPrice : Asks P s₀ gasPrice (s₀.outside.chain.gasPrice = .ok ·) :=
  asks_outside.bind fun o ho => by
    rw [ho]
    exact asks_answer _

theorem asks_transactionCount {address : String} (hP : P (.transactionCount address)) :
    Asks P s₀ (transactionCount address) fun _ => True :=
  asks_question hP _

theorem asks_buildTransaction {function : String} {args : List Json} {transaction : Json}
    (endpoint : Endpoint) (hP : P (.build function args transaction)) :
    Asks P s₀ (buildTransaction function endpoint args transaction) (· = transaction) :=
  (asks_note hP).bind fun _ _ => (asks_refuse _).bind fun _ _ => asks_pure rfl

theorem asks_estimateTransaction {transaction : Json} (hP : P (.estimateGas transaction)) :
    Asks P s₀ (estimateTransaction transaction) fun _ => True :=
  asks_question hP _

theorem asks_signAndSend {transaction : Json} (hsign : P (.sign transaction))
    (hsend : ∀ raw, P (.send raw)) : Asks P s₀ (signAndSend transaction) fun _ => True :=
  (asks_note hsign).bind fun _ _ => asks_outside.bind fun _ _ => (asks_refuse _).bind fun _ _ =>
    (asks_note (hsend _)).bind fun _ _ => (asks_answer _).mono fun _ _ => trivial

/-! ## Sending -/

/-- A transaction that was sent: by whom, its hash, and the price of gas that it offers. -/
structure Sent where
  sender : String
  hash : List UInt8
  price : Int

/-- What is known of the start when a transaction was sent. -/
structure Sendable (s : Session) (keystore password : Option String) (config : Json)
    (sent : Sent) : Prop where
  directory : s.files.node? s.files.workingDirectory = some .directory
  network : ∃ network, config.field "network" = .ok network
  account : Wallet.foundAccount keystore password s = .ok sent.sender
  chainId : ∃ chainId, config.field "chain_id" = .ok chainId
  price : ∃ quoted, s.outside.chain.gasPrice = .ok quoted ∧
    quoted.scaled priceFactor = .ok sent.price

/-- Whether a question is for the receipt of a transaction. -/
def isForReceipt : Call → Bool
  | .awaitReceipt _ _ => true
  | _ => false

/-- The questions until a transaction is sent: none is for a receipt, and those about an account
are about the one that was found. -/
def Early (keystore password : Option String) (s : Session) (call : Call) : Prop :=
  isForReceipt call = false ∧
    Wallet.Fits s.outside.accounts (Wallet.foundAccount keystore password s) call

/-- What is done about a transaction that was sent. -/
def settle (name : String) (args : List Json) (config : Json) (sent : Sent) :
    SessionM (Option Json) := do
  let receipt ← awaitReceipt sent.hash
  if receipt.status.equal (.int 1) then
    return some (← confirm name args config sent.sender sent.hash sent.price receipt)
  else
    report "[red]Transaction failed![/red]"
    return none

/-- A way to end: before a transaction is sent, with nothing done, or by settling one. -/
def Settles (keystore password : Option String) (name : String) (args : List Json) (config : Json)
    (s₀ : Session) (r : EStateM.Result Problem Session (Option Json)) : Prop :=
  (∃ p s, r = .error p s ∧ Asked (Early keystore password s₀) s₀ s) ∨
    ∃ sent s, r = settle name args config sent s ∧ Asked (Early keystore password s₀) s₀ s ∧
      Sendable s₀ keystore password config sent

theorem deploySteps_settles (keystore password : Option String) (name : String) (args : List Json)
    (config : Json) (s₀ : Session) :
    Settles keystore password name args config s₀
      (deploySteps keystore password name args config s₀) := by
  suffices h : ∀ s, Asked (Early keystore password s₀) s₀ s →
      Settles keystore password name args config s₀
        (deploySteps keystore password name args config s) from h s₀ (.refl s₀)
  have hstop : ∀ p s, Asked (Early keystore password s₀) s₀ s →
      Settles keystore password name args config s₀ (.error p s) :=
    fun p s hs => .inl ⟨p, s, rfl, hs⟩
  refine (asks_loadArtifacts name).andThen hstop fun artifacts hdirectory => ?_
  refine (asks_report _).andThen hstop fun _ _ => ?_
  refine (asks_connect config fun _ => ⟨rfl, trivial⟩).andThen hstop fun _ _ => ?_
  refine (asks_demand _).andThen hstop fun network hnetwork => ?_
  refine (asks_report _).andThen hstop fun _ _ => ?_
  refine (Wallet.asks_accountAddress fun _ h => ⟨rfl, h⟩).andThen hstop fun sender hsender => ?_
  refine (asks_report _).andThen hstop fun _ _ => ?_
  refine (asks_balanceOf ⟨rfl, hsender⟩).andThen hstop fun balance _ => ?_
  refine (asks_inUnit _ _).andThen hstop fun available _ => ?_
  refine (asks_report _).andThen hstop fun _ _ => ?_
  refine (asks_report _).whenThen hstop ?_
  refine (asks_contractObject ⟨rfl, trivial⟩).andThen hstop fun _ _ => ?_
  refine asks_gasPrice.andThen hstop fun quoted hquoted => ?_
  refine (asks_demand _).andThen hstop fun price hprice => ?_
  refine (asks_transactionCount ⟨rfl, hsender⟩).andThen hstop fun nonce _ => ?_
  refine (asks_demand _).andThen hstop fun chainId hchainId => ?_
  refine asks_outside.andThen hstop fun o _ => ?_
  refine (asks_buildTransaction _ ⟨rfl, sender, hsender, rfl⟩).andThen hstop
    fun transaction htransaction => ?_
  rw [htransaction]
  refine (asks_estimateTransaction ⟨rfl, sender, hsender, rfl⟩).andThen hstop fun estimate _ => ?_
  refine (asks_demand _).andThen hstop fun limit _ => ?_
  refine (asks_demand _).andThen hstop fun estimated _ => ?_
  refine (asks_report _).andThen hstop fun _ _ => ?_
  refine (asks_report _).andThen hstop fun _ _ => ?_
  refine (asks_inUnit _ _).andThen hstop fun priceText _ => ?_
  refine (asks_report _).andThen hstop fun _ _ => ?_
  refine (asks_inUnit _ _).andThen hstop fun needed _ => ?_
  refine (asks_report _).andThen hstop fun _ _ => ?_
  refine (asks_demand _).andThen hstop fun isBelow _ => ?_
  refine (asks_throw _).whenThen hstop ?_
  refine (asks_report _).andThen hstop fun _ _ => ?_
  refine (asks_signAndSend ⟨rfl, sender, hsender, rfl⟩ fun _ => ⟨rfl, trivial⟩).andThen hstop
    fun hash _ => ?_
  refine (asks_report _).andThen hstop fun _ _ => ?_
  refine (asks_report _).andThen hstop fun _ _ => ?_
  intro s hs
  exact .inr ⟨⟨sender, hash, price⟩, s, rfl, hs, hdirectory, ⟨network, hnetwork⟩, hsender,
    ⟨chainId, hchainId⟩, quoted, hquoted, hprice⟩

/-! ## The record -/

/-- What the gas of a transaction cost, if the chain's library can tell it. -/
def Costs (chain : Chain) (receipt : Receipt) (price : Int) (cost : Amount) : Prop :=
  ∃ total, receipt.gasUsed.product price = .ok total ∧ chain.unitFailure total = none ∧
    Amount.inEther total = .ok cost

def recordEntry (name : String) (args : List Json) (network chainId : Json) (sent : Sent)
    (receipt : Receipt) (cost : Amount) : Json :=
  .obj [("contract_name", .str name), ("address", receipt.contractAddress),
    ("tx_hash", .str (Evm.hexText sent.hash)), ("gas_used", receipt.gasUsed),
    ("gas_price", .int sent.price), ("deployment_cost", .float cost.toDouble),
    ("network", network), ("chain_id", chainId), ("deployer", .str sent.sender),
    ("constructor_args", .arr args), ("block_number", receipt.blockNumber)]

/-- What a receipt tells can be written and read again. -/
structure ReadableReceipt (receipt : Receipt) : Prop where
  contractAddress : Json.Readable receipt.contractAddress
  gasUsed : Json.Readable receipt.gasUsed
  blockNumber : Json.Readable receipt.blockNumber

/-- An integer of so many bits is short enough to be read. -/
theorem readable_int_of_lt {n : Int} (bits : Nat) (hbits : bits ≤ Json.maxDigits)
    (h : n.natAbs < 2 ^ bits) : Json.Readable (.int n) := by
  rw [Json.Readable, Nat.length_toDigits_le_iff (by omega) (by decide)]
  calc n.natAbs < 2 ^ bits := h
    _ ≤ 10 ^ bits := Nat.pow_le_pow_left (by omega) bits
    _ ≤ 10 ^ Json.maxDigits := Nat.pow_le_pow_right (by omega) hbits

theorem readable_word {n : Int} (h : n.natAbs < 2 ^ 256) : Json.Readable (.int n) :=
  readable_int_of_lt 256 (by decide) h

theorem readable_integerPart {x : Double} (hx : x.IsProper) {n : Int}
    (h : Json.integerPart x = .ok n) : Json.Readable (.int n) := by
  cases x with
  | infinite negative => cases h
  | nan => cases h
  | finite negative m e =>
    have hn : n.natAbs = (Double.ratio m e).1 / (Double.ratio m e).2 := by
      rw [← Except.ok.inj h]
      cases negative with
      | false => exact Int.natAbs_natCast _
      | true => exact (Int.natAbs_neg _).trans (Int.natAbs_natCast _)
    exact readable_int_of_lt 1024 (by decide) (hn ▸ Double.integerPart_lt hx)

/-- A price that comes from a double can be written and read again. -/
theorem readable_scaled {quoted : Json} {factor : Double} {price : Int}
    (h : quoted.scaled factor = .ok price) : Json.Readable (.int price) := by
  obtain ⟨x, hx, hprice⟩ := exists_of_bind_eq_ok h
  refine readable_integerPart ?_ hprice
  unfold Json.timesDouble at hx
  split at hx
  case h_1 y _ =>
    cases y with
    | error cause => cases hx
    | ok y =>
      rw [← Except.ok.inj hx]
      exact Double.isProper_mul y factor
  case h_2 => split at hx <;> cases hx

theorem fraction?_pos {j : Json} {n : Int} {d : Nat} (h : j.fraction? = some (n, d)) : 0 < d := by
  cases j with
  | int m =>
    obtain ⟨-, rfl⟩ := Prod.mk.inj (Option.some.inj h)
    exact Nat.one_pos
  | bool b =>
    obtain ⟨-, rfl⟩ := Prod.mk.inj (Option.some.inj h)
    exact Nat.one_pos
  | float x =>
    cases x with
    | finite negative m e =>
      obtain ⟨-, rfl⟩ := Prod.mk.inj (Option.some.inj h)
      exact (Double.ratio_spec m e).1
    | _ => cases h
  | _ => cases h

theorem Costs.den_pos {chain : Chain} {receipt : Receipt} {price : Int} {cost : Amount}
    (h : Costs chain receipt price cost) : 0 < cost.den := by
  obtain ⟨total, -, -, hcost⟩ := h
  unfold Amount.inEther Amount.ofUnits at hcost
  split at hcost
  case h_1 n d hfraction =>
    rw [← Except.ok.inj hcost]
    exact Nat.mul_pos (fraction?_pos hfraction) (Nat.pow_pos (by omega))
  case h_2 => cases hcost

theorem readable_recordEntry {network chainId : Json} {sent : Sent} {receipt : Receipt}
    {cost : Amount} (hargs : Json.Readable (.arr args)) (hnetwork : Json.Readable network)
    (hchainId : Json.Readable chainId) (hprice : Json.Readable (.int sent.price))
    (hreceipt : ReadableReceipt receipt) (hcost : 0 < cost.den) :
    Json.Readable (recordEntry name args network chainId sent receipt cost) := by
  have hdouble : Json.Readable (.float cost.toDouble) :=
    Double.isProper_ofRatio _ _ hcost
  refine ⟨by simp [Assoc.keys], ?_⟩
  exact ⟨trivial, hreceipt.contractAddress, trivial, hreceipt.gasUsed, hprice, hdouble, hnetwork,
    hchainId, trivial, hargs, hreceipt.blockNumber, trivial⟩

/-! ## Settling -/

theorem demand_ok {α : Type} {x : Except Json.Misuse α} {a : α} (h : x = .ok a) (s : Session) :
    demand x s = .ok a s := by
  rw [h]
  rfl

theorem demand_error {α : Type} {x : Except Json.Misuse α} {cause : Json.Misuse}
    (h : x = .error cause) (s : Session) : demand x s = .error (.misuse cause) s := by
  rw [h]
  rfl

section Settling

variable {sent : Sent} {receipt : Receipt} {chainId : Json}

theorem inUnit_ok {unit : Json → Except Json.Misuse Amount} {amount : Json} {a : Amount}
    (hrefused : s.outside.chain.unitFailure amount = none) (h : unit amount = .ok a) :
    inUnit unit amount s = .ok a s := by
  have hrefuse : refuse (s.outside.chain.unitFailure amount) s = .ok () s := by
    rw [hrefused]
    rfl
  exact (bind_ok (outside_run s)).trans ((bind_ok hrefuse).trans (demand_ok h s))

theorem inUnit_error {unit : Json → Except Json.Misuse Amount} {amount : Json}
    (h : ∀ a, s.outside.chain.unitFailure amount = none → unit amount ≠ .ok a) :
    ∃ p, inUnit unit amount s = .error p s := by
  cases hrefused : s.outside.chain.unitFailure amount with
  | some message =>
    have hrefuse : refuse (s.outside.chain.unitFailure amount) s =
        .error (.outside message) s := by
      rw [hrefused]
      rfl
    exact ⟨_, (bind_ok (outside_run s)).trans (bind_error hrefuse)⟩
  | none =>
    have hrefuse : refuse (s.outside.chain.unitFailure amount) s = .ok () s := by
      rw [hrefused]
      rfl
    cases hunit : unit amount with
    | ok a => exact absurd hunit (h a hrefused)
    | error cause =>
      exact ⟨_, (bind_ok (outside_run s)).trans ((bind_ok hrefuse).trans (demand_error hunit s))⟩

/-- A deployment whose cost cannot be told is not recorded. -/
theorem confirm_of_not_costs (name : String) (args : List Json) (config : Json)
    (h : ∀ cost, ¬ Costs s.outside.chain receipt sent.price cost) :
    ∃ p s', confirm name args config sent.sender sent.hash sent.price receipt s = .error p s' ∧
      Reported s s' := by
  obtain ⟨s₁, hreport, hs₁⟩ := report_run "[green]Transaction confirmed![/green]" s
  cases htotal : receipt.gasUsed.product sent.price with
  | error cause =>
    exact ⟨_, s₁, (bind_ok hreport).trans (bind_error (demand_error htotal s₁)), hs₁⟩
  | ok total =>
    obtain ⟨p, hunit⟩ : ∃ p, inUnit Amount.inEther total s₁ = .error p s₁ := by
      refine inUnit_error fun cost hrefused hcost => h cost ⟨total, htotal, ?_, hcost⟩
      rw [← hs₁.outside]
      exact hrefused
    exact ⟨p, s₁, (bind_ok hreport).trans ((bind_ok (demand_ok htotal s₁)).trans
      (bind_error hunit)), hs₁⟩

theorem confirm_of_costs {entry : Json} {cost : Amount}
    (hentry : recordEntry name args (.str network) chainId sent receipt cost = entry)
    (hreadable : entry.Readable) (hcost : Costs s.outside.chain receipt sent.price cost)
    (hnetwork : config.field "network" = .ok (.str network))
    (hchainId : config.field "chain_id" = .ok chainId) :
    (∃ s', confirm name args config sent.sender sent.hash sent.price receipt s = .ok entry s' ∧
      Adds s.files (recordsIn s.files) network name entry s'.files) ∨
    ∃ p s', confirm name args config sent.sender sent.hash sent.price receipt s = .error p s' ∧
      Reported s s' ∧ ∀ t', ¬ Adds s.files (recordsIn s.files) network name entry t' := by
  subst hentry
  obtain ⟨s₁, hreport, hs₁⟩ := report_run "[green]Transaction confirmed![/green]" s
  obtain ⟨total, htotal, hrefused, hcost⟩ := hcost
  rw [← hs₁.outside] at hrefused
  obtain ⟨r, hkeep, hr⟩ := keepRecord_run hreadable network name s₁
  rw [hs₁.files] at hr
  have hrun : confirm name args config sent.sender sent.hash sent.price receipt s =
      (keepRecord (.str network) name
        (recordEntry name args (.str network) chainId sent receipt cost) >>= fun _ => do
          report s!"[green]Deployment info saved to {recordsFile}[/green]"
          return recordEntry name args (.str network) chainId sent receipt cost) s₁ :=
    (bind_ok hreport).trans <| (bind_ok (demand_ok htotal s₁)).trans <|
      (bind_ok (inUnit_ok hrefused hcost)).trans <| (bind_ok (demand_ok hnetwork s₁)).trans <|
        (bind_ok (demand_ok hchainId s₁)).trans rfl
  rw [hrun]
  cases r with
  | error p =>
    refine .inr ⟨p, s₁, bind_error hkeep, hs₁, fun t' ht' => ?_⟩
    exact absurd ((hr t').mpr ht') (by simp)
  | ok t' =>
    refine .inl ⟨_, bind_ok hkeep, ?_⟩
    exact (hr t').mp rfl

end Settling

end ContractKit.Deployment
