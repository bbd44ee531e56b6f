import ContractKit.Proofs.Simulation.Rules
import ContractKit.Proofs.Source.SameTree
import ContractKit.Samples
import Mathlib

/-!
# The stake token pays rewards from nowhere

The stake token has one owner and one user, whose tokens can be staked for a reward.  Transfers and
stakes move tokens, and a mint adds to the supply what it gives to the owner.  A reward, however,
is paid when a stake is given back without adding it to the supply.  So after any calls the owner
and the user have the supply and all the rewards that were paid, and the supply is conserved
exactly as long as no reward was.
-/

namespace ContractKit.Samples

open Source Simulation

namespace StakeToken

/-! ## The source -/

/-- Whether the account is the owner's. -/
def isOwner : Expr := .compare (.name "account") .eq (number 1) []

def leavesIfPaused (event : String) : Stmt :=
  whenever (.compare (field "is_paused") .eq (number 1) [])
    [emits event [words "Contract is paused"], .ret none]

def adds (x : String) (e : Expr) : Stmt := puts x (.binary (field x) .add e)

def takes (x : String) (e : Expr) : Stmt := puts x (.binary (field x) .sub e)

/-- Runs a block if an attribute covers the amount. -/
def ifCovered (x : String) (body : List Stmt) : Stmt :=
  whenever (.compare (field x) .gtE (.name "amount") []) body

def transferBody : List Stmt :=
  [leavesIfPaused "TransferFailed",
   ifCovered "owner_balance"
     [takes "owner_balance" (.name "amount"), adds "user_balance" (.name "amount"),
      emits "Transfer" [.name "amount", .name "to"]]]

def mintBody : List Stmt :=
  [adds "total_supply" (.name "amount"), adds "owner_balance" (.name "amount"),
   emits "Mint" [.name "amount", field "total_supply"]]

def stakeBody : List Stmt :=
  [leavesIfPaused "StakeFailed",
   ifCovered "user_balance"
     [takes "user_balance" (.name "amount"), adds "user_stake" (.name "amount"),
      lets "reward"
        (.binary (.binary (.name "amount") .mult (field "reward_rate")) .floorDiv (number 100)),
      adds "user_reward" (.name "reward"), emits "Staked" [.name "amount", .name "reward"]]]

def unstakeBody : List Stmt :=
  [ifCovered "user_stake"
     [takes "user_stake" (.name "amount"), adds "user_balance" (.name "amount"),
      lets "reward" (field "user_reward"), adds "user_balance" (.name "reward"),
      puts "user_reward" (number 0), emits "Unstaked" [.name "amount", .name "reward"]]]

def setRewardRateBody : List Stmt :=
  [puts "reward_rate" (.name "new_rate"), emits "RewardRateUpdated" [.name "new_rate"]]

/-- The state variables with their first values. -/
def declared : Assoc String Initial :=
  [("name", .text "StakeableToken"), ("symbol", .text "STK"), ("decimals", .number 18),
   ("total_supply", .number 1000000), ("owner", .number 1), ("is_paused", .number 0),
   ("owner_balance", .number 1000000), ("user_balance", .number 0), ("user_stake", .number 0),
   ("user_reward", .number 0), ("reward_rate", .number 10)]

def classBody : List Stmt :=
  [constructor (baseSetup :: declaresAll declared),
   getter "get_name" "str" "name", getter "get_symbol" "str" "symbol",
   getter "get_decimals" "int" "decimals", getter "get_total_supply" "int" "total_supply",
   view "balance_of" [("account", "int")] "int"
     [.ifThen isOwner [.ret (some (field "owner_balance"))] [.ret (some (field "user_balance"))]],
   view "stake_of" [("account", "int")] "int"
     [whenever isOwner [.ret (some (number 0))], .ret (some (field "user_stake"))],
   view "reward_of" [("account", "int")] "int"
     [whenever isOwner [.ret (some (number 0))], .ret (some (field "user_reward"))],
   getter "get_reward_rate" "int" "reward_rate",
   action "transfer" [("to", "int"), ("amount", "int")] transferBody,
   action "mint" [("amount", "int")] mintBody,
   action "stake" [("amount", "int")] stakeBody,
   action "unstake" [("amount", "int")] unstakeBody,
   action "set_reward_rate" [("new_rate", "int")] setRewardRateBody,
   action "pause" [] [puts "is_paused" (number 1), emits "ContractPaused" []],
   action "unpause" [] [puts "is_paused" (number 0), emits "ContractUnpaused" []]]

theorem read_source : readStatements stakeToken = some [contract "StakeToken" classBody] :=
  readStatements_lines (by repeat constructor) (by decide +kernel)

def tokenClass : Simulation.Class := .ofBody classBody

theorem ordinary : Ordinary tokenClass.methodSetting :=
  ⟨rfl, rfl, rfl, rfl, fun _ _ => rfl, fun _ _ _ => rfl⟩

/-! ## States -/

/-- The state of a token: the supply, what the owner and the user have, what the user has staked
and is to get for it, the rate of rewards in percent, and a number that is one while the token is
paused. -/
structure Holdings where
  supply : Int
  owner : Int
  user : Int
  stake : Int
  reward : Int
  rate : Int
  paused : Int

/-- The machine of a token, with the locals of the running call. -/
def Holdings.machine (t : Holdings) (locals : Assoc String Datum) : Machine where
  cells := (declaring (declared.map fun d => (d.1, d.2.datum)) []).cells
  attributes := [("_state", .dict 0), ("_storage_slots", .dict 1), ("_slot_counter", .int 11),
    ("name", .text "StakeableToken"), ("symbol", .text "STK"), ("decimals", .int 18),
    ("total_supply", .int t.supply), ("owner", .int 1), ("is_paused", .int t.paused),
    ("owner_balance", .int t.owner), ("user_balance", .int t.user), ("user_stake", .int t.stake),
    ("user_reward", .int t.reward), ("reward_rate", .int t.rate)]
  locals := locals

/-- The first state: the owner has the whole supply. -/
def first : Holdings := ⟨1000000, 1000000, 0, 0, 0, 10, 0⟩

theorem instantiate_token :
    tokenClass.instantiate = (.ok (), ⟨tokenClass, first.machine []⟩) :=
  Class.instantiate_eq (m := first.machine started.locals) rfl rfl
    (by decide +kernel)

/-! ## Calls -/

/-- A call of a method that changes the token. -/
inductive Call where
  | transfer (receiver amount : Nat)
  | mint (amount : Nat)
  | stake (amount : Nat)
  | unstake (amount : Nat)
  | setRewardRate (rate : Nat)
  | pause
  | unpause

/-- The method of a call, with its arguments. -/
def Call.request : Call → String × List Value
  | transfer receiver amount => ("transfer", [.int receiver, .int amount])
  | mint amount => ("mint", [.int amount])
  | stake amount => ("stake", [.int amount])
  | unstake amount => ("unstake", [.int amount])
  | setRewardRate rate => ("set_reward_rate", [.int rate])
  | pause => ("pause", [])
  | unpause => ("unpause", [])

/-! ## Rewards -/

/-- The number that an instance shows under a name. -/
def numberOf (i : Instance) (x : String) : Int :=
  match i.attribute? x with
  | some (.int n) => n
  | _ => 0

def paid (i : Instance) : Call → Int
  | .unstake a => if a ≤ numberOf i "user_stake" then numberOf i "user_reward" else 0
  | _ => 0

/-- The rewards that calls pay one after the other. -/
def paidBy (i : Instance) : List Call → Int
  | [] => 0
  | q :: rest => paid i q + paidBy (i.call q.request.1 q.request.2).2 rest

/-- The owner and the user have an amount more than the supply, staked tokens included. -/
def Exceeds (i : Instance) (amount : Int) : Prop :=
  ∃ owner user stake supply : Int, i.attribute? "owner_balance" = some (.int owner) ∧
    i.attribute? "user_balance" = some (.int user) ∧
    i.attribute? "user_stake" = some (.int stake) ∧
    i.attribute? "total_supply" = some (.int supply) ∧ owner + user + stake = supply + amount

/-- What is held beyond the supply. -/
def Holdings.excess (t : Holdings) : Int := t.owner + t.user + t.stake - t.supply

/-- Rewards and their rate are never negative. -/
structure Holdings.Fair (t : Holdings) : Prop where
  reward : 0 ≤ t.reward
  rate : 0 ≤ t.rate

/-- What a call does: it raises what is held beyond the supply by the reward that it pays. -/
structure Holdings.Step (t : Holdings) (q : Call) (y : Holdings) : Prop where
  excess : y.excess = t.excess + paid ⟨tokenClass, t.machine []⟩ q
  fair : t.Fair → y.Fair

theorem Holdings.Step.same {t : Holdings} {q : Call}
    (h : paid ⟨tokenClass, t.machine []⟩ q = 0) : t.Step q t :=
  ⟨by rw [h, add_zero], id⟩

theorem completes_leavesIfPaused {t : Holdings} {q : Call} {locals : Assoc String Datum}
    {event : String} {rest : List Stmt} (hself : Assoc.get? "self" locals = some .contract)
    (h : paid ⟨tokenClass, t.machine []⟩ q = 0)
    (hrest : Completes tokenClass (Holdings.machine · []) (fun _ => t.Step q) rest
      (t.machine locals)) :
    Completes tokenClass (Holdings.machine · []) (fun _ => t.Step q) (leavesIfPaused event :: rest)
      (t.machine locals) := by
  refine .whenever (.compare (.field hself rfl) (.number 1) (relate_eq t.paused 1)) (fun _ => ?_)
    fun _ => hrest
  refine .next (runStmt_emits ordinary hself rfl (.cons (.words _) .nil)) ?_
  exact .done t rfl (.same h) rfl

/-- No call fails: those that cannot be met change nothing. -/
theorem answers (t : Holdings) (locals : Assoc String Datum) (q : Call) :
    Ends tokenClass (Holdings.machine · []) (fun _ => t.Step q)
      (Instance.call ⟨tokenClass, t.machine locals⟩ q.request.1 q.request.2) := by
  cases q with
  | transfer receiver a =>
    refine Ends.call (x := t) rfl rfl rfl rfl (completes_leavesIfPaused rfl rfl ?_)
    refine .whenever (.compare (.field rfl rfl) (.name rfl) (relate_gtE t.owner a)) (fun _ => ?_)
      fun _ => .last t (.same rfl) rfl
    refine .next (runStmt_puts rfl (.binary (.field rfl rfl) (.name rfl) rfl)) ?_
    refine .next (runStmt_puts rfl (.binary (.field rfl rfl) (.name rfl) rfl)) ?_
    refine .next (runStmt_emits ordinary rfl rfl (.cons (.name rfl) (.cons (.name rfl) .nil))) ?_
    refine .last { t with owner := t.owner - a, user := t.user + a } ⟨?_, fun h => ⟨h.1, h.2⟩⟩ rfl
    simp only [Holdings.excess, paid]
    omega
  | mint a =>
    refine Ends.call (x := t) rfl rfl rfl rfl ?_
    refine .next (runStmt_puts rfl (.binary (.field rfl rfl) (.name rfl) rfl)) ?_
    refine .next (runStmt_puts rfl (.binary (.field rfl rfl) (.name rfl) rfl)) ?_
    refine .next (runStmt_emits ordinary rfl rfl
      (.cons (.name rfl) (.cons (.field rfl rfl) .nil))) ?_
    refine .last { t with supply := t.supply + a, owner := t.owner + a } ⟨?_, fun h => ⟨h.1, h.2⟩⟩
      rfl
    simp only [Holdings.excess, paid]
    omega
  | stake a =>
    refine Ends.call (x := t) rfl rfl rfl rfl (completes_leavesIfPaused rfl rfl ?_)
    refine .whenever (.compare (.field rfl rfl) (.name rfl) (relate_gtE t.user a)) (fun _ => ?_)
      fun _ => .last t (.same rfl) rfl
    refine .next (runStmt_puts rfl (.binary (.field rfl rfl) (.name rfl) rfl)) ?_
    refine .next (runStmt_puts rfl (.binary (.field rfl rfl) (.name rfl) rfl)) ?_
    refine .next (runStmt_lets
      (.binary (.binary (.name rfl) (.field rfl rfl) rfl) (.number 100) rfl)) ?_
    refine .next (runStmt_puts rfl (.binary (.field rfl rfl) (.name rfl) rfl)) ?_
    refine .next (runStmt_emits ordinary rfl rfl (.cons (.name rfl) (.cons (.name rfl) .nil))) ?_
    have hreward (h : t.Fair) : 0 ≤ Int.fdiv (a * t.rate) 100 :=
      Int.fdiv_nonneg (mul_nonneg (Int.natCast_nonneg a) h.rate) (by decide)
    refine .last { t with
      user := t.user - a
      stake := t.stake + a
      reward := t.reward + Int.fdiv (a * t.rate) 100 }
      ⟨?_, fun h => ⟨add_nonneg h.reward (hreward h), h.rate⟩⟩ rfl
    simp only [Holdings.excess, paid]
    omega
  | unstake a =>
    have hpaid : paid ⟨tokenClass, t.machine []⟩ (.unstake a) =
        if (a : Int) ≤ t.stake then t.reward else 0 := rfl
    refine Ends.call (x := t) rfl rfl rfl rfl ?_
    refine .whenever (.compare (.field rfl rfl) (.name rfl) (relate_gtE t.stake a))
      (fun hcovered => ?_) fun hcovered => .last t (.same (hpaid.trans (if_neg hcovered))) rfl
    refine .next (runStmt_puts rfl (.binary (.field rfl rfl) (.name rfl) rfl)) ?_
    refine .next (runStmt_puts rfl (.binary (.field rfl rfl) (.name rfl) rfl)) ?_
    refine .next (runStmt_lets (.field rfl rfl)) ?_
    refine .next (runStmt_puts rfl (.binary (.field rfl rfl) (.name rfl) rfl)) ?_
    refine .next (runStmt_puts rfl (.number 0)) ?_
    refine .next (runStmt_emits ordinary rfl rfl (.cons (.name rfl) (.cons (.name rfl) .nil))) ?_
    refine .last { t with stake := t.stake - a, user := t.user + a + t.reward, reward := 0 }
      ⟨?_, fun h => ⟨le_rfl, h.rate⟩⟩ rfl
    rw [hpaid, if_pos hcovered]
    simp only [Holdings.excess]
    omega
  | setRewardRate rate =>
    refine Ends.call (x := t) rfl rfl rfl rfl ?_
    refine .next (runStmt_puts rfl (.name rfl)) ?_
    refine .next (runStmt_emits ordinary rfl rfl (.cons (.name rfl) .nil)) ?_
    exact .last { t with rate := rate }
      ⟨(add_zero _).symm, fun h => ⟨h.reward, Int.natCast_nonneg rate⟩⟩ rfl
  | pause =>
    exact ⟨_, { t with paused := 1 }, _, rfl, (add_zero _).symm, fun h => ⟨h.reward, h.rate⟩⟩
  | unpause =>
    exact ⟨_, { t with paused := 0 }, _, rfl, (add_zero _).symm, fun h => ⟨h.reward, h.rate⟩⟩

def conduct : Conduct Holdings Call where
  cls := tokenClass
  machine t := t.machine []
  request := Call.request
  Allows t q _ := t.Step q
  answers := answers

theorem class_stakeToken : Sample.class? ⟨"StakeToken", stakeToken⟩ = some tokenClass :=
  Class.ofSource?_contract read_source

theorem exceeds_holder (t : Holdings) (locals : Assoc String Datum) (amount : Int) :
    Exceeds (conduct.holder t locals) amount ↔ t.excess = amount := by
  constructor
  · rintro ⟨owner, user, stake, supply, howner, huser, hstake, hsupply, hsum⟩
    obtain rfl : t.owner = owner := by injection howner with h; injection h
    obtain rfl : t.user = user := by injection huser with h; injection h
    obtain rfl : t.stake = stake := by injection hstake with h; injection h
    obtain rfl : t.supply = supply := by injection hsupply with h; injection h
    rw [Holdings.excess]
    omega
  · intro h
    refine ⟨t.owner, t.user, t.stake, t.supply, rfl, rfl, rfl, rfl, ?_⟩
    rw [Holdings.excess] at h
    omega

theorem paid_nonneg {t : Holdings} (h : t.Fair) (locals : Assoc String Datum) (q : Call) :
    0 ≤ paid (conduct.holder t locals) q := by
  cases q with
  | unstake a =>
    show 0 ≤ if (a : Int) ≤ t.stake then t.reward else 0
    split_ifs
    · exact h.reward
    · exact le_rfl
  | _ => exact le_rfl

/-- After calls, more is held beyond the supply by what they have paid. -/
theorem excess_after {t : Holdings} (h : t.Fair) (locals : Assoc String Datum)
    (calls : List Call) : 0 ≤ paidBy (conduct.holder t locals) calls ∧
      ∃ y left, (conduct.holder t locals).after (calls.map Call.request) = conduct.holder y left ∧
        y.excess = t.excess + paidBy (conduct.holder t locals) calls := by
  induction calls generalizing t locals with
  | nil => exact ⟨le_rfl, t, locals, rfl, (add_zero _).symm⟩
  | cons q rest ih =>
    obtain ⟨_, y, left, hcall, hstep⟩ := answers t locals q
    have hleft : ((conduct.holder t locals).call q.request.1 q.request.2).2 =
        conduct.holder y left := congrArg Prod.snd hcall
    obtain ⟨hnonneg, y', left', hafter, hexcess⟩ := ih (hstep.fair h) left
    rw [paidBy, hleft]
    refine ⟨add_nonneg (paid_nonneg h locals q) hnonneg, y', left', ?_, ?_⟩
    · rw [← hafter, ← hleft]
      rfl
    · rw [hexcess, hstep.excess, add_assoc]
      rfl

/-- Calls pay nothing exactly if none of them does. -/
theorem paidBy_eq_zero_iff {t : Holdings} (h : t.Fair) (locals : Assoc String Datum)
    (calls : List Call) :
    paidBy (conduct.holder t locals) calls = 0 ↔ ∀ earlier q later,
      calls = earlier ++ q :: later →
      paid ((conduct.holder t locals).after (earlier.map Call.request)) q = 0 := by
  induction calls generalizing t locals with
  | nil => simp [paidBy]
  | cons q rest ih =>
    obtain ⟨_, y, left, hcall, hstep⟩ := answers t locals q
    have hleft : ((conduct.holder t locals).call q.request.1 q.request.2).2 =
        conduct.holder y left := congrArg Prod.snd hcall
    have hnow := paid_nonneg h locals q
    have hthen := (excess_after (hstep.fair h) left rest).1
    rw [paidBy, hleft, add_eq_zero_iff_of_nonneg hnow hthen, ih (hstep.fair h) left]
    constructor
    · rintro ⟨hfirst, hrest⟩ earlier q' later hsplit
      cases earlier with
      | nil =>
        obtain ⟨rfl, rfl⟩ := List.cons.inj hsplit
        exact hfirst
      | cons q₀ earlier =>
        obtain ⟨rfl, rfl⟩ := List.cons.inj hsplit
        have hpaid := hrest earlier q' later rfl
        rw [← hleft] at hpaid
        exact hpaid
    · intro hall
      refine ⟨hall [] q rest rfl, fun earlier q' later hsplit => ?_⟩
      have hpaid := hall (q :: earlier) q' later (congrArg (q :: ·) hsplit)
      rw [← hleft]
      exact hpaid

end StakeToken

open StakeToken in
/-- **What the stake token holds.**  After any calls, the owner and the user of a fresh token have
its supply and the rewards that the calls have paid.  So the supply is conserved exactly if no call
has paid one. -/
theorem stakeToken_exceeds_supply_by_rewards (calls : List StakeToken.Call) :
    ∃ sample cls i, find? "StakeToken" starters = some sample ∧ sample.class? = some cls ∧
      cls.instantiate = (.ok (), i) ∧
      Exceeds (i.after (calls.map StakeToken.Call.request)) (paidBy i calls) ∧
      (Exceeds (i.after (calls.map StakeToken.Call.request)) 0 ↔ ∀ earlier q later,
        calls = earlier ++ q :: later →
        paid (i.after (earlier.map StakeToken.Call.request)) q = 0) := by
  refine ⟨⟨"StakeToken", stakeToken⟩, tokenClass, conduct.holder first [], rfl, class_stakeToken,
    instantiate_token, ?_⟩
  have hfair : first.Fair := ⟨by decide, by decide⟩
  obtain ⟨-, y, left, hafter, hexcess⟩ := excess_after hfair [] calls
  rw [show first.excess = 0 from rfl, zero_add] at hexcess
  have hiff : Exceeds (conduct.holder y left) 0 ↔ paidBy (conduct.holder first []) calls = 0 := by
    rw [exceeds_holder, hexcess]
  rw [hafter]
  exact ⟨(exceeds_holder _ _ _).mpr hexcess, hiff.trans (paidBy_eq_zero_iff hfair [] calls)⟩

open StakeToken in
/-- A hundred tokens that are staked and given back bring a reward that the supply lacks. -/
theorem stakeToken_supply_misses_reward :
    ∃ sample cls i, find? "StakeToken" starters = some sample ∧ sample.class? = some cls ∧
      cls.instantiate = (.ok (), i) ∧
      ¬ Exceeds (i.after
        ([.transfer 2 100, .stake 100, .unstake 100].map StakeToken.Call.request)) 0 := by
  refine ⟨⟨"StakeToken", stakeToken⟩, tokenClass, conduct.holder first [], rfl, class_stakeToken,
    instantiate_token, ?_⟩
  have hafter : (conduct.holder first []).after
      ([.transfer 2 100, .stake 100, .unstake 100].map StakeToken.Call.request) =
        conduct.holder ⟨1000000, 999900, 110, 0, 0, 10, 0⟩ [] := rfl
  rw [hafter, exceeds_holder]
  decide

end ContractKit.Samples
