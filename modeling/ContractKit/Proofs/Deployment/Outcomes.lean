import ContractKit.Proofs.Deployment.Steps

/-!
# What a deployment leaves

A deployment always returns, with a record or without one.  Without one the files are as before.
With one, the file of records has this record under its network and its name, and all others are
where they were.  So after any number of deployments the file has the last record of each.

A deployment that was confirmed is lost, though, if its record cannot be added to the file.  All
this is about deployments that can be written: an integer that is too long spoils the file.
-/

namespace ContractKit.Deployment

open Project

/-- A deployment that is asked for, on a network that has a name, with the keystore and the password
that may be given. -/
structure Request where
  keystore : Option String := none
  password : Option String := none
  name : String
  args : List Json
  config : Json
  network : String
  onNetwork : config.field "network" = .ok (.str network)

def Request.run (q : Request) : SessionM (Option Json) :=
  deployFrom q.keystore q.password q.name q.args q.config

/-- What a request has for its record can be written and read again. -/
def Request.Writable (q : Request) : Prop :=
  Json.Readable (.arr q.args) ∧
    ∀ chainId, q.config.field "chain_id" = .ok chainId → Json.Readable chainId

/-- A transaction of the request was sent. -/
def Request.Sendable (q : Request) (s : Session) (sent : Sent) : Prop :=
  Deployment.Sendable s q.keystore q.password q.config sent

/-- What the chain answers can be written and read again. -/
def ReadableAnswers (s : Session) : Prop :=
  ∀ receipt, s.outside.chain.receipt = .ok receipt → ReadableReceipt receipt

/-- The transaction was confirmed by the receipt. -/
def Succeeds (s : Session) (receipt : Receipt) : Prop :=
  s.outside.chain.receipt = .ok receipt ∧ receipt.status.equal (.int 1) = true

/-- The record of a request whose transaction was sent. -/
def Request.entry (q : Request) (chainId : Json) (sent : Sent) (receipt : Receipt) (cost : Amount) :
    Json :=
  recordEntry q.name q.args (.str q.network) chainId sent receipt cost

/-- The file of records can take a record of the network: there is none, or it is an object in
which the network is open. -/
def Accepts (t : Tree) (network : String) : Prop :=
  ∃ fields, recordsIn t = some fields ∧ IsOpen fields network

/-- The ways in which a deployment ends. -/
inductive Outcome (q : Request) (s s' : Session) : Option Json → Prop
  /-- No transaction was sent. -/
  | unsent (h : Asked (Early q.keystore q.password s) s s') : Outcome q s s' none
  /-- The transaction did not succeed. -/
  | failed (h : Reported s s') (hreceipt : ∀ receipt, ¬ Succeeds s receipt) : Outcome q s s' none
  /-- The transaction succeeded, but no record could be added. -/
  | lost {sent : Sent} {receipt : Receipt} (h : Reported s s') (hsent : q.Sendable s sent)
    (hreceipt : Succeeds s receipt)
    (hreason : ∀ cost, Costs s.outside.chain receipt sent.price cost →
      ¬ Accepts s.files q.network) :
    Outcome q s s' none
  /-- The transaction succeeded, and its record was added. -/
  | kept {sent : Sent} {receipt : Receipt} {chainId : Json} {cost : Amount}
    (hsent : q.Sendable s sent) (hreceipt : Succeeds s receipt)
    (hchainId : q.config.field "chain_id" = .ok chainId)
    (hcost : Costs s.outside.chain receipt sent.price cost)
    (hadds : Adds s.files (recordsIn s.files) q.network q.name (q.entry chainId sent receipt cost)
      s'.files) :
    Outcome q s s' (some (q.entry chainId sent receipt cost))

section Outcomes

variable {q : Request} {s s' s'' s₁ : Session} {sent : Sent} {receipt : Receipt}

theorem Accepts.exists_adds (h : Accepts s.files q.network) (hsent : q.Sendable s sent)
    (entry : Json) :
    ∃ t', Adds s.files (recordsIn s.files) q.network q.name entry t' := by
  obtain ⟨fields, hfields, hopen⟩ := h
  obtain ⟨t', hwrite⟩ := exists_write_records hfields hsent.directory
    (Text.utf8 (Json.obj (putRecord fields q.network q.name entry)).pretty)
  exact ⟨t', fields, hfields, hopen, hwrite⟩

/-- Reports and questions may follow a deployment without a record. -/
theorem Outcome.report (h : Outcome q s s' none)
    (hreport : Asked (Early q.keystore q.password s) s' s'') :
    Outcome q s s'' none := by
  cases h with
  | unsent h => exact .unsent (h.trans hreport)
  | failed h hreceipt => exact .failed (h.trans hreport.toReported) hreceipt
  | lost h hsent hreceipt hreason =>
    exact .lost (h.trans hreport.toReported) hsent hreceipt hreason

/-- The result of steps: those that meet a problem have none. -/
def resultOf : Except Problem (Option Json) → Option Json
  | .ok result => result
  | .error _ => none

/-- The record of a request that can be written can be written. -/
theorem readable_entry {chainId : Json} {cost : Amount} (hq : q.Writable) (hs : ReadableAnswers s)
    (hsent : q.Sendable s sent) (hreceipt : Succeeds s receipt)
    (hchainId : q.config.field "chain_id" = .ok chainId)
    (hcost : Costs s.outside.chain receipt sent.price cost) :
    (q.entry chainId sent receipt cost).Readable := by
  obtain ⟨quoted, -, hprice⟩ := hsent.price
  have hnetwork : Json.Readable (.str q.network) := trivial
  exact readable_recordEntry hq.1 hnetwork (hq.2 chainId hchainId) (readable_scaled hprice)
    (hs receipt hreceipt.1) hcost.den_pos

/-- A transaction that succeeded is recorded or lost. -/
theorem confirm_outcome (hq : q.Writable) (ha : ReadableAnswers s) (hs : Reported s s₁)
    (hsent : q.Sendable s sent)
    (hreceipt : Succeeds s receipt) :
    ∃ r s', (do return some (← confirm q.name q.args q.config sent.sender sent.hash sent.price
        receipt) : SessionM (Option Json)) s₁ = endWith r s' ∧ Outcome q s s' (resultOf r) := by
  obtain ⟨chainId, hchainId⟩ := hsent.chainId
  by_cases hcosts : ∃ cost, Costs s.outside.chain receipt sent.price cost
  · obtain ⟨cost, hcost⟩ := hcosts
    have hends := confirm_of_costs rfl (readable_entry hq ha hsent hreceipt hchainId hcost)
      (hs.outside ▸ hcost) q.onNetwork hchainId
    rw [hs.files] at hends
    rcases hends with ⟨s', hconfirm, hadds⟩ | ⟨p, s', hconfirm, hs', hnot⟩
    · exact ⟨.ok (some _), s', bind_ok hconfirm, .kept hsent hreceipt hchainId hcost hadds⟩
    · refine ⟨.error p, s', bind_error hconfirm, .lost (hs.trans hs') hsent hreceipt ?_⟩
      intro _ _ haccepts
      obtain ⟨t', ht'⟩ := haccepts.exists_adds hsent (q.entry chainId sent receipt cost)
      exact hnot t' ht'
  · obtain ⟨p, s', hconfirm, hs'⟩ := confirm_of_not_costs q.name q.args q.config
      (hs.outside ▸ not_exists.mp hcosts)
    refine ⟨.error p, s', bind_error hconfirm, .lost (hs.trans hs') hsent hreceipt ?_⟩
    exact fun cost hcost => absurd ⟨cost, hcost⟩ hcosts

theorem settle_outcome (hq : q.Writable) (ha : ReadableAnswers s) (hs : Reported s s₁)
    (hsent : q.Sendable s sent) :
    ∃ r s', settle q.name q.args q.config sent s₁ = endWith r s' ∧ Outcome q s s' (resultOf r) := by
  obtain ⟨s₂, hnote, hs₂⟩ := note_run (.awaitReceipt sent.hash receiptTimeout) s₁
  have hs₂ := hs.trans hs₂
  have hawait : awaitReceipt sent.hash s₁ = answer s.outside.chain.receipt s₂ := by
    refine (bind_ok hnote).trans ((bind_ok (outside_run s₂)).trans ?_)
    rw [hs₂.outside]
  unfold settle
  cases hreceipt : s.outside.chain.receipt with
  | error message =>
    rw [hreceipt] at hawait
    refine ⟨.error (.outside message), s₂, bind_error hawait, .failed hs₂ ?_⟩
    exact fun receipt h => absurd (hreceipt.symm.trans h.1) (by simp)
  | ok receipt =>
    rw [hreceipt] at hawait
    by_cases hstatus : receipt.status.equal (.int 1) = true
    · obtain ⟨r, s', hrun, houtcome⟩ := confirm_outcome hq ha hs₂ hsent ⟨hreceipt, hstatus⟩
      refine ⟨r, s', (bind_ok hawait).trans ?_, houtcome⟩
      rw [if_pos hstatus]
      exact hrun
    · obtain ⟨s₃, hreport, hs₃⟩ := report_run "[red]Transaction failed![/red]" s₂
      refine ⟨.ok none, s₃, (bind_ok hawait).trans ?_, .failed (hs₂.trans hs₃) ?_⟩
      · rw [if_neg hstatus]
        exact bind_ok hreport
      · intro receipt' h
        obtain rfl : receipt = receipt' := Except.ok.inj (hreceipt.symm.trans h.1)
        exact hstatus h.2

theorem deploySteps_outcome (hq : q.Writable) (ha : ReadableAnswers s) :
    ∃ r s', deploySteps q.keystore q.password q.name q.args q.config s = endWith r s' ∧
      Outcome q s s' (resultOf r) := by
  rcases deploySteps_settles q.keystore q.password q.name q.args q.config s with
    ⟨p, s', hrun, hs'⟩ | ⟨sent, s₁, hrun, hs₁, hsent⟩
  · exact ⟨.error p, s', hrun, .unsent hs'⟩
  · rw [hrun]
    exact settle_outcome hq ha hs₁.toReported hsent

/-- A deployment returns, in one of the ways in which it can end. -/
theorem deploy_outcome (hq : q.Writable) (ha : ReadableAnswers s) :
    ∃ result s', q.run s = .ok result s' ∧ Outcome q s s' result := by
  obtain ⟨r, s', hrun, houtcome⟩ := deploySteps_outcome hq ha
  have hattempt := attempt_endWith hrun
  cases r with
  | ok result => exact ⟨result, s', bind_ok hattempt, houtcome⟩
  | error p =>
    obtain ⟨s'', hreport, hs''⟩ :=
      asked_report s!"[red]Deployment failed:[/red] {p.message}" s'
    exact ⟨none, s'', (bind_ok hattempt).trans (bind_ok hreport), houtcome.report hs''⟩

theorem Outcome.files (h : Outcome q s s' none) : s'.files = s.files := by
  cases h with
  | unsent h => exact h.files
  | failed h _ => exact h.files
  | lost h _ _ _ => exact h.files

end Outcomes

/-! ## Exact updates -/

/-- The second table is the first one with a key set: its value is found, all other keys keep
theirs, and the keys keep their order, a new one at the end. -/
structure Sets {ν : Type} (old new : Assoc String ν) (key : String) (value : ν) : Prop where
  found : Assoc.get? key new = some value
  others : ∀ other, other ≠ key → Assoc.get? other new = Assoc.get? other old
  order : Assoc.keys new =
    if key ∈ Assoc.keys old then Assoc.keys old else Assoc.keys old ++ [key]

theorem sets_set {ν : Type} (t : Assoc String ν) (key : String) (value : ν) :
    Sets t (Assoc.set key value t) key value := by
  refine ⟨Assoc.get?_set_self key value t, fun other hne => Assoc.get?_set_of_ne hne value t, ?_⟩
  rw [Assoc.keys_set, Assoc.addKey]
  simp only [List.contains_iff_mem]

/-- What a deployment with a record leaves: the record is set under its network and its name, no
other file is changed, and the record can be looked up. -/
structure Updated (q : Request) (s s' : Session) (r : Json) : Prop where
  records : ∃ old new known, recordsIn s.files = some old ∧ recordsIn s'.files = some new ∧
    Sets old new q.network (.obj known) ∧ Sets (entriesOf old q.network) known q.name r
  others : ∀ p, s.files.place recordsPath ≠ .ok p → s'.files.node? p = s.files.node? p
  lookUp : ∀ config, config.field "network" = .ok (.str q.network) →
    recordOf config q.name s' = .ok r s'

section Updates

variable {q : Request} {s s' : Session} {r : Json}

theorem Outcome.recordsIn (h : Outcome q s s' (some r)) (hq : q.Writable)
    (hs : ReadableAnswers s) :
    ∃ fields, Deployment.recordsIn s.files = some fields ∧
      Deployment.recordsIn s'.files = some (putRecord fields q.network q.name r) ∧
      s.files.write recordsPath
        (Text.utf8 (Json.obj (putRecord fields q.network q.name r)).pretty) = .ok s'.files := by
  cases h with
  | kept hsent hreceipt hchainId hcost hadds =>
    obtain ⟨fields, hfields, -, hwrite⟩ := hadds
    have hentry := readable_entry hq hs hsent hreceipt hchainId hcost
    exact ⟨fields, hfields,
      recordsIn_of_write hwrite (readable_putRecord (readable_recordsIn hfields) hentry), hwrite⟩

theorem Outcome.updated (h : Outcome q s s' (some r)) (hq : q.Writable) (hs : ReadableAnswers s) :
    Updated q s s' r := by
  obtain ⟨fields, hold, hnew, hwrite⟩ := h.recordsIn hq hs
  refine ⟨⟨fields, _, _, hold, hnew, sets_set _ _ _, sets_set _ _ _⟩, ?_, ?_⟩
  · intro p hp
    exact (Tree.changes_write hwrite).same fun node hput => hp hput.1
  · intro config hconfig
    refine recordOf_of_recordIn hconfig ?_
    rw [recordIn, hnew, Option.bind_some, entriesOf_putRecord]
    exact Assoc.get?_set_self _ _ _

theorem Outcome.recordIn {result : Option Json} (h : Outcome q s s' result) (hq : q.Writable)
    (hs : ReadableAnswers s) (network name : String) :
    Deployment.recordIn s'.files network name =
      (if q.network = network ∧ q.name = name then result else none).or
        (Deployment.recordIn s.files network name) := by
  cases result with
  | none => simp [h.files]
  | some r =>
    obtain ⟨fields, hold, hnew, -⟩ := h.recordsIn hq hs
    simp only [Deployment.recordIn, hold, hnew, Option.bind_some]
    by_cases hnetwork : network = q.network
    · subst hnetwork
      rw [entriesOf_putRecord]
      by_cases hname : name = q.name
      · subst hname
        simp
      · simp [Assoc.get?_set_of_ne hname, Ne.symm hname]
    · rw [entriesOf_putRecord_of_ne hnetwork]
      simp [Ne.symm hnetwork]

end Updates

/-! ## Deployments in turn -/

def boxConfig : Json :=
  .obj [("network", .str "fuji"), ("chain_id", .int 43113), ("rpc_url", .str "http://node")]

def boxRequest (n : Int) : Request where
  name := "Box"
  args := [.int n]
  config := boxConfig
  network := "fuji"
  onNetwork := rfl

theorem writable_box : (boxRequest 7).Writable := by
  refine ⟨⟨readable_word (by decide), trivial⟩, ?_⟩
  rintro chainId ⟨⟩
  exact readable_word (by decide)

/-- A session with the artifacts of the contract and with other files, in which everything that is
asked is answered. -/
def boxSession (others : List (Place × Node)) : Session where
  files :=
    { nodes := [(["build"], .directory), (["build", "Box"], .directory),
        (["build", "Box", "Box.json"], .file
          (Text.utf8 "\x7b\"abi\": [], \"bytecode\": \"0x00\"\x7d") newFileMode)] ++ others }
  outside := { accounts := [("0xa1", "0xB0x")], privateKey := some "a1" }

/-- A file of records that breaks off. -/
def brokenRecords : List (Place × Node) :=
  [([recordsFile], .file (Text.utf8 "\x7b") newFileMode)]

theorem readableAnswers_box (others : List (Place × Node)) :
    ReadableAnswers (boxSession others) := by
  rintro receipt ⟨⟩
  exact ⟨trivial, readable_word (by decide), readable_word (by decide)⟩

/-- How the deployment of the contract ends: whether it has a record, whether a receipt was asked
for, and whether there is a file of records. -/
def boxEnding (n : Int) (others : List (Place × Node)) : Option (Bool × Bool × Bool) :=
  match (boxRequest n).run (boxSession others) with
  | .ok result s => some (result.isSome, s.calls.any isForReceipt,
      (s.files.exists? recordsPath).toOption == some true)
  | .error _ _ => none

theorem boxEnding_empty : boxEnding 7 [] = some (true, true, true) := by decide +kernel

theorem boxEnding_eq {n : Int} {others : List (Place × Node)} {hasRecord asked there : Bool}
    (h : boxEnding n others = some (hasRecord, asked, there)) :
    ∃ result s', (boxRequest n).run (boxSession others) = .ok result s' ∧
      result.isSome = hasRecord ∧ s'.calls.any isForReceipt = asked ∧
      ((s'.files.exists? recordsPath).toOption == some true) = there := by
  unfold boxEnding at h
  split at h
  case h_1 result s' hrun =>
    simp only [Option.some.injEq, Prod.mk.injEq] at h
    exact ⟨result, s', hrun, h⟩
  case h_2 => cases h

/-- The receipt of a transaction was asked for between two sessions, and it tells that the
transaction succeeded. -/
structure Confirmed (s s' : Session) (receipt : Receipt) : Prop where
  asked : ∃ new, s'.calls = s.calls ++ new ∧ ∃ call ∈ new, isForReceipt call = true
  succeeds : Succeeds s receipt

/-- The cost of a deployment can be told from the price of gas and the receipt. -/
def Countable (s : Session) (receipt : Receipt) : Prop :=
  ∃ quoted price cost, s.outside.chain.gasPrice = .ok quoted ∧
    quoted.scaled priceFactor = .ok price ∧ Costs s.outside.chain receipt price cost

/-- **A confirmed deployment is kept** if it can be written, its cost can be told and the file of
records can take it: its record has the address of the receipt and is found under its network and
its name.  Otherwise it is lost: there is no record, and the files are as before. -/
theorem confirmed_kept_or_lost {q : Request} (hq : q.Writable) {s s' : Session}
    {result : Option Json} {receipt : Receipt} (hs : ReadableAnswers s)
    (hrun : q.run s = .ok result s')
    (h : Confirmed s s' receipt) :
    (Countable s receipt ∧ Accepts s.files q.network →
      ∃ r, result = some r ∧ r.field "address" = .ok receipt.contractAddress ∧
        recordIn s'.files q.network q.name = some r) ∧
    (¬ (Countable s receipt ∧ Accepts s.files q.network) →
      result = none ∧ s'.files = s.files) := by
  obtain ⟨result', s'', hrun', houtcome⟩ := deploy_outcome hq hs
  obtain ⟨rfl, rfl⟩ := EStateM.Result.ok.inj (hrun'.symm.trans hrun)
  have hkept := houtcome.recordIn hq hs q.network q.name
  cases houtcome with
  | unsent hasked =>
    obtain ⟨new, hnew, call, hcall, hreceipt⟩ := h.asked
    obtain ⟨new', hnew', hnone⟩ := hasked.calls
    obtain rfl := List.append_cancel_left (hnew.symm.trans hnew')
    exact absurd (hnone call hcall).1 (by simp [hreceipt])
  | failed _ hnot => exact absurd h.succeeds (hnot receipt)
  | lost hreported hsent hreceipt hreason =>
    obtain rfl := Except.ok.inj (hreceipt.1.symm.trans h.succeeds.1)
    refine ⟨?_, fun _ => ⟨rfl, hreported.files⟩⟩
    rintro ⟨⟨quoted, price, cost, hquoted, hprice, hcost⟩, haccepts⟩
    obtain ⟨quoted', hquoted', hprice'⟩ := hsent.price
    obtain rfl := Except.ok.inj (hquoted.symm.trans hquoted')
    obtain rfl := Except.ok.inj (hprice.symm.trans hprice')
    exact absurd haccepts (hreason cost hcost)
  | kept hsent hreceipt hchainId hcost hadds =>
    obtain rfl := Except.ok.inj (hreceipt.1.symm.trans h.succeeds.1)
    refine ⟨fun _ => ⟨_, rfl, rfl, by simpa using hkept⟩, fun hnot => absurd ?_ hnot⟩
    obtain ⟨quoted, hquoted, hprice⟩ := hsent.price
    obtain ⟨fields, hfields, hopen, -⟩ := hadds
    exact ⟨⟨quoted, _, _, hquoted, hprice, hcost⟩, fields, hfields, hopen⟩

theorem confirmed_box {others : List (Place × Node)} {s' : Session} {receipt : Receipt}
    (hasked : s'.calls.any isForReceipt = true)
    (hreceipt : Succeeds (boxSession others) receipt) :
    Confirmed (boxSession others) s' receipt := by
  refine ⟨⟨s'.calls, rfl, ?_⟩, hreceipt⟩
  simpa using hasked

/-- The contract is deployed where there were no records, and its record is kept. -/
theorem confirmed_box_kept :
    ∃ r s', (boxRequest 7).run (boxSession []) = .ok (some r) s' ∧
      Confirmed (boxSession []) s' {} ∧
      r.field "address" = .ok (.str "0xc0c0c0c0c0c0c0c0c0c0c0c0c0c0c0c0c0c0c0c0") ∧
      recordIn s'.files "fuji" "Box" = some r := by
  obtain ⟨result, s', hrun, -, hasked, -⟩ := boxEnding_eq boxEnding_empty
  have hconfirmed : Confirmed (boxSession []) s' {} := confirmed_box hasked ⟨rfl, by decide +kernel⟩
  have hcountable : Countable (boxSession []) {} :=
    ⟨.int 25000000000, 27500000000, _, rfl, by decide +kernel, _, rfl, rfl, rfl⟩
  have haccepts : Accepts (boxSession []).files "fuji" := by
    refine ⟨[], if_pos (by decide +kernel), ?_⟩
    rintro j ⟨⟩
  obtain ⟨r, rfl, haddress, hrecord⟩ := (confirmed_kept_or_lost writable_box
    (readableAnswers_box []) hrun hconfirmed).1 ⟨hcountable, haccepts⟩
  exact ⟨r, s', hrun, hconfirmed, haddress, hrecord⟩

/-- A confirmed deployment is lost if the file of records breaks off. -/
theorem confirmed_box_lost :
    ∃ s', (boxRequest 7).run (boxSession brokenRecords) = .ok none s' ∧
      Confirmed (boxSession brokenRecords) s' {} ∧
      s'.files = (boxSession brokenRecords).files := by
  have hending : boxEnding 7 brokenRecords = some (false, true, true) := by decide +kernel
  obtain ⟨result, s', hrun, hnone, hasked, -⟩ := boxEnding_eq hending
  obtain rfl : result = none := by simpa using hnone
  obtain ⟨result', s'', hrun', houtcome⟩ :=
    deploy_outcome writable_box (readableAnswers_box brokenRecords)
  obtain ⟨rfl, rfl⟩ := EStateM.Result.ok.inj (hrun'.symm.trans hrun)
  exact ⟨s'', hrun, confirmed_box hasked ⟨rfl, by decide +kernel⟩, houtcome.files⟩

end ContractKit.Deployment
