import ContractKit.Proofs.Samples.SavingsPool
import Mathlib

/-!
# What a failing call leaves behind in the interest pool

The interest pool adds interest to an account before it moves anything, and notes for the account
that this was done.  A deposit and a change of the rate are checked first, so if they fail nothing
has happened.  A withdrawal is checked last.  Nothing is ever added, since a simulated chain stays
at its first block, but an account without a balance is noted all the same.  So a withdrawal that
fails leaves a note behind, unless an earlier call has made it.
-/

namespace ContractKit.Samples

open Source Simulation

namespace InterestPool

open SavingsPool (Party findKey_int)

/-! ## The source -/

def balances : Expr := field "balances"

/-- The blocks up to which accounts have got their interest. -/
def updates : Expr := field "last_update"

def block : Expr := ask "block_number" []

/-- The interest on what is stored for the blocks that have passed. -/
def interest : Expr :=
  .binary (.binary (.binary (.name "stored") .mult (field "interest_rate")) .mult
    (.name "blocks_passed")) .floorDiv (number 100000)

def findsStored : Stmt := lets "stored" (lookUp balances (.name "user"))

/-- Counts the blocks since the last update of the user. -/
def countsBlocks : List Stmt :=
  [lets "last" (lookUpOr updates (.name "user") block),
   lets "blocks_passed" (.binary block .sub (.name "last"))]

def nothingStored : Expr := .compare (.name "stored") .eq (number 0) []

def blocksPassed : Expr := .compare (.name "blocks_passed") .gt (number 0) []

def addsInterest : List Stmt :=
  [lets "interest" interest,
   whenever (.compare (.name "interest") .gt (number 0) [])
     [putsIn balances (.name "user") (.binary (.name "stored") .add (.name "interest")),
      puts "total_deposits" (.binary (field "total_deposits") .add (.name "interest")),
      emits "InterestApplied" [.name "user", .name "interest"]],
   putsIn updates (.name "user") block]

def applyInterestBody : List Stmt :=
  findsStored :: whenever nothingStored [putsIn updates (.name "user") block, .ret none] ::
    (countsBlocks ++ [whenever blocksPassed addsInterest])

/-- Adds interest to the sender's account. -/
def updatesSender : Stmt := .expression (ask "_apply_interest" [.name "sender"])

/-- Changes the sender's balance and the total by an operator and the amount. -/
def moves (op : BinaryOp) (event : String) : List Stmt :=
  [putsIn balances (.name "sender") (.binary (.name "current_balance") op (.name "amount")),
   puts "total_deposits" (.binary (field "total_deposits") op (.name "amount")),
   putsIn updates (.name "sender") block,
   emits event [.name "sender", .name "amount"]]

def depositBody : List Stmt :=
  [lets "sender" (ask "msg_sender" []),
   insists (.compare (.name "amount") .gt (number 0) []) "Deposit amount must be greater than 0",
   updatesSender,
   lets "current_balance" (lookUp balances (.name "sender"))] ++ moves .add "Deposit"

def withdrawBody : List Stmt :=
  [lets "sender" (ask "msg_sender" []),
   updatesSender,
   lets "current_balance" (lookUp balances (.name "sender")),
   insists (.compare (.name "current_balance") .gtE (.name "amount") []) "Insufficient balance"] ++
    moves .sub "Withdraw"

def balanceOfBody : List Stmt :=
  findsStored :: whenever nothingStored [.ret (some (number 0))] ::
    (countsBlocks ++ [whenever blocksPassed [lets "interest" interest,
        .ret (some (.binary (.name "stored") .add (.name "interest")))],
      .ret (some (.name "stored"))])

def setInterestRateBody : List Stmt :=
  [lets "sender" (ask "msg_sender" []),
   insists (.compare (.name "sender") .eq (field "admin") []) "Only admin can change rate",
   insists (.compare (.name "new_rate") .ltE (number 10000) []) "Rate cannot exceed 100%",
   puts "interest_rate" (.name "new_rate"),
   emits "RateChanged" [.name "new_rate"]]

def constructorBody : List Stmt :=
  [baseSetup, declares "admin" (ask "msg_sender" []), declares "balances" (.dict []),
   declares "total_deposits" (number 0), declares "interest_rate" (number 500),
   declares "last_update" (.dict [])]

def classBody : List Stmt :=
  [constructor constructorBody,
   action "deposit" [("amount", "int")] depositBody,
   action "withdraw" [("amount", "int")] withdrawBody,
   view "balance_of" [("user", "str")] "int" balanceOfBody,
   view "get_total_deposits" [] "int" [.ret (some (field "total_deposits"))],
   action "set_interest_rate" [("new_rate", "int")] setInterestRateBody,
   .functionDef false "_apply_interest" (parameters [("user", "str")]) applyInterestBody [] none]

theorem read_source :
    readStatements interestPool = some [contract "Defi" classBody] :=
  readStatements_lines (by repeat constructor) (by decide +kernel)

def poolClass : Simulation.Class := .ofBody classBody

/-- The setting in which the methods run that other methods call. -/
def innerSetting : Setting := ⟨poolClass.attribute?, poolClass.apply 998⟩

theorem ordinary : Ordinary poolClass.methodSetting :=
  ⟨rfl, rfl, rfl, rfl, fun _ _ => rfl, fun _ _ _ => rfl⟩

theorem ordinary_inner : Ordinary innerSetting :=
  ⟨rfl, rfl, rfl, rfl, fun _ _ => rfl, fun _ _ _ => rfl⟩

/-! ## States -/

/-- The table of updates, which has at most the sender's entry, with the only block there is. -/
def updated (noted : Bool) : Book := ⟨if noted then [(senderAddress, 1)] else [], 0⟩

/-- The state of a pool: its book, in which the total is that of the deposits, the rate of
interest, and whether the sender is noted in the table of updates. -/
structure Pool where
  book : Book
  rate : Int
  noted : Bool

namespace Pool

/-- The machine of a pool, with the locals of the running call. -/
def machine (p : Pool) (locals : Assoc String Datum) : Machine where
  cells := (declaring [("admin", .text senderAddress), ("balances", .dict 2),
    ("total_deposits", .int 0), ("interest_rate", .int 500), ("last_update", .dict 3)]
    [.dict p.book.rows, .dict (updated p.noted).rows]).cells
  attributes := [("_state", .dict 0), ("_storage_slots", .dict 1), ("_slot_counter", .int 5),
    ("admin", .text senderAddress), ("balances", .dict 2), ("total_deposits", .int p.book.total),
    ("interest_rate", .int p.rate), ("last_update", .dict 3)]
  locals := locals

def holder (p : Pool) (locals : Assoc String Datum) : Instance := ⟨poolClass, p.machine locals⟩

def fresh : Pool := ⟨⟨[], 0⟩, 500, false⟩

/-- The pool after interest was added to the sender's account. -/
def visited (p : Pool) : Pool :=
  { p with noted := p.noted || decide (p.book.balance senderAddress = 0) }

end Pool

theorem instantiate_pool : poolClass.instantiate = (.ok (), Pool.fresh.holder []) :=
  Class.instantiate_eq (m := Pool.fresh.machine started.locals) rfl rfl
    (by decide +kernel)

/-! ## Adding interest -/

/-- Whoever is looked up in the table of updates, the block found is the current one. -/
theorem getD_findKey_updated (d : Datum) (noted : Bool) :
    (findKey d (updated noted).rows).getD (.int 1) = .int 1 := by
  cases noted with
  | false => rfl
  | true =>
    simp only [updated, Book.rows, if_true, List.map_cons, List.map_nil, findKey]
    split <;> rfl

theorem put_updated (noted : Bool) : (updated noted).put senderAddress 1 = updated true := by
  cases noted with
  | false => rfl
  | true => simp [updated, Book.put, Assoc.set]

/-- The locals of a method that has looked up a balance. -/
def asked (d : Datum) (n : Int) : Assoc String Datum :=
  [("self", .contract), ("user", d), ("stored", .int n)]

/-- The locals of a method that has counted the blocks. -/
def counted (d : Datum) (n : Int) : Assoc String Datum :=
  asked d n ++ [("last", Datum.int 1), ("blocks_passed", Datum.int 0)]

section Counting

variable {s : Setting} {d : Datum} {n : Int} {rest : List Stmt} {locals : Assoc String Datum}

theorem yields_balances (p : Pool) (hself : Assoc.get? "self" locals = some .contract) :
    Yields s (p.machine locals) balances (.dict 2) :=
  .field hself rfl

theorem yields_updates (p : Pool) (hself : Assoc.get? "self" locals = some .contract) :
    Yields s (p.machine locals) updates (.dict 3) :=
  .field hself rfl

theorem run_findsStored (hs : Ordinary s) (p : Pool) (hkey : d.isKey = true)
    (hfound : (findKey d p.book.rows).getD (.int 0) = .int n) :
    runBlock s (findsStored :: rest) (p.machine [("self", .contract), ("user", d)]) =
      runBlock s rest (p.machine (asked d n)) := by
  have hstored : Yields s (p.machine [("self", .contract), ("user", d)])
      (lookUp balances (.name "user")) ((findKey d p.book.rows).getD (.int 0)) :=
    .lookUp hs (yields_balances p rfl) (.name rfl) hkey
  rw [hfound] at hstored
  exact runBlock_next (runStmt_lets hstored)

theorem yields_nothingStored (p : Pool) :
    Yields s (p.machine (asked d n)) nothingStored (.bool (decide (n = 0))) :=
  .compare (.name rfl) (.number 0) (relate_eq n 0)

theorem run_countsBlocks (hs : Ordinary s)
    (hblock : s.classAttribute? "block_number" = some (.operation .blockNumber)) (p : Pool)
    (hkey : d.isKey = true) :
    runBlock s (countsBlocks ++ rest) (p.machine (asked d n)) =
      runBlock s rest (p.machine (counted d n)) := by
  have hlast : Yields s (p.machine (asked d n)) (lookUpOr updates (.name "user") block)
      ((findKey d (updated p.noted).rows).getD (.int 1)) :=
    .lookUpOr hs (yields_updates p rfl) (.name rfl) hkey (.blockNumber hs hblock rfl rfl)
  rw [getD_findKey_updated] at hlast
  refine (runBlock_next (runStmt_lets hlast)).trans ?_
  exact runBlock_next (runStmt_lets (.binary (.blockNumber hs hblock rfl rfl) (.name rfl) rfl))

/-- What is to be done when blocks have passed is not done. -/
theorem run_blocksPassed (p : Pool) (body : List Stmt) :
    runBlock s (whenever blocksPassed body :: rest) (p.machine (counted d n)) =
      runBlock s rest (p.machine (counted d n)) := by
  have hnone : Yields s (p.machine (counted d n)) blocksPassed (.bool (decide ((0 : Int) < 0))) :=
    .compare (.name rfl) (.number 0) (relate_gt 0 0)
  have hguard := runStmt_whenever body hnone
  rw [if_neg (lt_irrefl _)] at hguard
  exact runBlock_next hguard

end Counting

theorem runStmt_notes {s : Setting} (hs : Ordinary s)
    (hblock : s.classAttribute? "block_number" = some (.operation .blockNumber)) (p : Pool)
    {x : String} {locals : Assoc String Datum}
    (hself : Assoc.get? "self" locals = some .contract)
    (hsender : Assoc.get? x locals = some (.text senderAddress)) :
    runStmt s (putsIn updates (.name x) block) (p.machine locals) =
      .ok .next ({ p with noted := true }.machine locals) := by
  have hput := runStmt_putsBalance (s := s) (m := p.machine locals) (b := updated p.noted)
    (yields_updates p hself) rfl (.name hsender) (.blockNumber hs hblock hself rfl)
  rwa [put_updated] at hput

/-- Adding interest changes no balance; an account without one is noted. -/
theorem run_applyInterest (p : Pool) : ∃ flow locals,
    runBlock innerSetting applyInterestBody
        (p.machine [("self", .contract), ("user", .text senderAddress)]) =
      .ok flow (p.visited.machine locals) := by
  have hbalance := p.book.getD_findKey_rows senderAddress
  have hnote := @runStmt_notes _ ordinary_inner rfl p "user"
    (asked (.text senderAddress) (p.book.balance senderAddress)) rfl rfl
  rw [applyInterestBody, run_findsStored ordinary_inner p rfl hbalance,
    runBlock_whenever_done (yields_nothingStored p)
      ((runBlock_next hnote).trans (runBlock_done rfl))]
  split_ifs with hzero
  · rw [Pool.visited, decide_eq_true hzero, Bool.or_true]
    exact ⟨_, _, rfl⟩
  · rw [run_countsBlocks ordinary_inner rfl p rfl, run_blocksPassed, Pool.visited,
      decide_eq_false hzero, Bool.or_false]
    exact ⟨_, _, rfl⟩

/-! ## Calls -/

/-- A call of a method of the pool. -/
inductive Call where
  | deposit (amount : Int)
  | withdraw (amount : Int)
  | balanceOf (user : Party)
  | totalDeposits
  | setInterestRate (rate : Int)

/-- The method of a call, with its arguments. -/
def Call.request : Call → String × List Value
  | deposit amount => ("deposit", [.int amount])
  | withdraw amount => ("withdraw", [.int amount])
  | balanceOf user => ("balance_of", [user.value])
  | totalDeposits => ("get_total_deposits", [])
  | setInterestRate rate => ("set_interest_rate", [.int rate])

/-- A call that notes the sender, whether it fails or not. -/
def Call.Notes : Call → Prop
  | deposit amount => 0 < amount
  | withdraw _ => True
  | _ => False

def Pool.Tracked (p : Pool) : Prop := p.book.balance senderAddress ≠ 0 → p.noted = true

theorem tracked_fresh : Pool.fresh.Tracked := fun h => absurd rfl h

/-- A failing withdrawal leaves the account noted. -/
theorem Pool.Tracked.visited {p : Pool} (hp : p.Tracked) :
    p.visited = { p with noted := true } := by
  by_cases hzero : p.book.balance senderAddress = 0
  · rw [Pool.visited, decide_eq_true hzero, Bool.or_true]
  · rw [Pool.visited, hp hzero, Bool.true_or]

/-- What a call does in a state in which whoever has a balance is noted.  It notes the account or
takes no note back; and a call that fails at most notes the account, and only a withdrawal does. -/
structure Pool.Step (p : Pool) (q : Call) (answer : Except Failure Value) (y : Pool) : Prop where
  tracked : y.Tracked
  noted : y.noted = true ↔ p.noted = true ∨ q.Notes
  failed : ∀ e, answer = .error e → y = p ∧ (∀ a, q ≠ .withdraw a) ∨
    y = { p with noted := true } ∧ ∃ a, q = .withdraw a

/-- A call that notes nothing may leave the pool as it is, or change its rate. -/
theorem Pool.Tracked.unnoted {p : Pool} (hp : p.Tracked) {q : Call} (hq : ¬q.Notes) (rate : Int)
    {answer : Except Failure Value} (h : answer.isOk = true ∨ rate = p.rate) :
    p.Step q answer { p with rate } where
  tracked := hp
  noted := by simp [hq]
  failed := by
    rintro e rfl
    obtain rfl : rate = p.rate := h.resolve_left (by simp [Except.isOk, Except.toBool])
    exact .inl ⟨rfl, fun a hwithdraw => hq (hwithdraw ▸ trivial)⟩

section Methods

variable {p : Pool} {locals : Assoc String Datum}

theorem runStmt_updatesSender (p : Pool) (hself : Assoc.get? "self" locals = some .contract)
    (hsender : Assoc.get? "sender" locals = some (.text senderAddress)) :
    runStmt poolClass.methodSetting updatesSender (p.machine locals) =
      .ok .next (p.visited.machine locals) := by
  obtain ⟨flow, left, hrun⟩ := run_applyInterest p
  have hmethod : Assoc.get? "_apply_interest" poolClass.methods =
      some ⟨parameters [("user", "str")], applyInterestBody⟩ := rfl
  exact runStmt_calls (m := p.machine locals) hself rfl hmethod (.cons (.name hsender) .nil) rfl
    hrun

/-- The locals of a deposit or withdrawal that has looked up the balance. -/
def ready (a n : Int) : Assoc String Datum :=
  [("self", .contract), ("amount", .int a), ("sender", .text senderAddress),
    ("current_balance", .int n)]

/-- A deposit or withdrawal of an amount that was found good notes the account. -/
theorem completes_moves {q : Call} (hq : q.Notes) (a : Int) {op : BinaryOp} (event : String)
    {f : Int → Int → Int}
    (hop : ∀ x y m, combine op (.int x) (.int y) m = .ok (.int (f x y)) m) :
    Completes poolClass (Pool.machine · []) (p.Step q) (moves op event)
      (p.visited.machine (ready a (p.book.balance senderAddress))) := by
  let b : Book := { p.book.put senderAddress (f (p.book.balance senderAddress) a) with
    total := f p.book.total a }
  refine .next (runStmt_putsBalance (yields_balances p.visited rfl) (b := p.book) rfl (.name rfl)
    (.binary (.name rfl) (.name rfl) (hop ..))) ?_
  refine .next (runStmt_puts rfl (.binary (.field rfl rfl) (.name rfl) (hop ..))) ?_
  refine .next (runStmt_notes ordinary rfl { p.visited with book := b } rfl rfl) ?_
  refine .next (runStmt_emits ordinary rfl rfl (.cons (.name rfl) (.cons (.name rfl) .nil))) ?_
  exact .last { p with book := b, noted := true } ⟨fun _ => rfl, by simp [hq], nofun⟩ rfl

/-- Looking up a balance changes nothing, whoever it is of. -/
theorem completes_balanceOf (hp : p.Tracked) (user : Party) {d : Datum} (hkey : d.isKey = true)
    {n : Int} (hfound : (findKey d p.book.rows).getD (.int 0) = .int n) :
    Completes poolClass (Pool.machine · []) (p.Step (.balanceOf user)) balanceOfBody
      (p.machine [("self", .contract), ("user", d)]) := by
  have hsame {v : Value} : p.Step (.balanceOf user) (.ok v) p := hp.unnoted id p.rate (.inl rfl)
  rw [Completes, balanceOfBody, run_findsStored ordinary p hkey hfound]
  refine Completes.whenever (yields_nothingStored p) (fun _ => ?_) fun _ => ?_
  · exact .done p (runStmt_ret (.number 0)) hsame rfl
  · rw [Completes, run_countsBlocks ordinary rfl p hkey, run_blocksPassed]
    show Completes _ (Pool.machine · []) _ [.ret (some (.name "stored"))] (p.machine (counted d n))
    exact .done p (runStmt_ret (.name rfl)) hsame rfl

end Methods

theorem answers {p : Pool} (hp : p.Tracked) (locals : Assoc String Datum) (q : Call) :
    Ends poolClass (Pool.machine · []) (p.Step q)
      ((p.holder locals).call q.request.1 q.request.2) := by
  cases q with
  | deposit a =>
    refine Ends.call (x := p) rfl rfl rfl rfl ?_
    refine .next (runStmt_lets (.sender ordinary rfl rfl)) ?_
    refine .insists ordinary p rfl rfl (.compare (.name rfl) (.number 0) (relate_gt a 0))
      (fun ha => hp.unnoted (q := .deposit a) ha p.rate (.inr rfl)) rfl fun ha => ?_
    refine .next (runStmt_updatesSender p rfl rfl) ?_
    refine .next (runStmt_lets
      (.balance ordinary (yields_balances p.visited rfl) (b := p.book) rfl (.name rfl))) ?_
    exact completes_moves (q := .deposit a) ha a "Deposit" (f := (· + ·)) fun _ _ _ => rfl
  | withdraw a =>
    refine Ends.call (x := p) rfl rfl rfl rfl ?_
    refine .next (runStmt_lets (.sender ordinary rfl rfl)) ?_
    refine .next (runStmt_updatesSender p rfl rfl) ?_
    refine .next (runStmt_lets
      (.balance ordinary (yields_balances p.visited rfl) (b := p.book) rfl (.name rfl))) ?_
    refine .insists ordinary p.visited rfl rfl (.compare (.name rfl) (.name rfl)
      (relate_gtE (p.book.balance senderAddress) a)) (fun _ => ?_) rfl fun _ => ?_
    · rw [hp.visited]
      exact ⟨fun _ => rfl, by simp [Call.Notes], fun _ _ => .inr ⟨rfl, a, rfl⟩⟩
    · exact completes_moves (q := .withdraw a) trivial a "Withdraw" (f := (· - ·)) fun _ _ _ => rfl
  | balanceOf user =>
    cases user with
    | number n =>
      exact Ends.call (x := p) rfl rfl rfl rfl
        (completes_balanceOf hp _ rfl (n := 0) (by rw [findKey_int]; rfl))
    | address text =>
      exact Ends.call (x := p) rfl rfl rfl rfl
        (completes_balanceOf hp _ rfl (Book.getD_findKey_rows ..))
  | totalDeposits => exact ⟨_, p, _, rfl, hp.unnoted id p.rate (.inl rfl)⟩
  | setInterestRate r =>
    refine Ends.call (x := p) rfl rfl rfl rfl ?_
    refine .next (runStmt_lets (.sender ordinary rfl rfl)) ?_
    refine .insists (P := True) ordinary p rfl rfl (.compare (.name rfl) (.field rfl rfl) rfl)
      (absurd trivial) rfl fun _ => ?_
    refine .insists ordinary p rfl rfl (.compare (.name rfl) (.number 10000) (relate_ltE r 10000))
      (fun _ => hp.unnoted id p.rate (.inr rfl)) rfl fun _ => ?_
    refine .next (runStmt_puts rfl (.name rfl)) ?_
    refine .next (runStmt_emits ordinary rfl rfl (.cons (.name rfl) .nil)) ?_
    exact .last { p with rate := r } (hp.unnoted id r (.inl rfl)) rfl

/-- After calls the account is noted if it was before, or if one of them has noted it. -/
theorem noted_after {p : Pool} (hp : p.Tracked) (locals : Assoc String Datum) (calls : List Call) :
    ∃ (y : Pool) (left : _), (p.holder locals).after (calls.map Call.request) = y.holder left ∧
      y.Tracked ∧ (y.noted = true ↔ p.noted = true ∨ ∃ q ∈ calls, q.Notes) := by
  induction calls generalizing p locals with
  | nil => exact ⟨p, locals, rfl, hp, by simp⟩
  | cons q rest ih =>
    obtain ⟨_, y, left, hcall, hstep⟩ := answers hp locals q
    obtain ⟨y', left', hafter, htracked, hnoted⟩ := ih hstep.tracked left
    have hfirst := congrArg (fun r => Instance.after r.2 (rest.map Call.request)) hcall
    refine ⟨y', left', hfirst.trans hafter, htracked, hnoted.trans ?_⟩
    simp [hstep.noted, or_assoc]

/-! ## What instances show -/

/-- The state variables that adding interest leaves alone as long as no block passes. -/
def steadyFields : List String := ["admin", "balances", "total_deposits", "interest_rate"]

def stateFields : List String := steadyFields ++ ["last_update"]

/-- Attributes of two instances have the same values. -/
def SameOn (names : List String) (i j : Instance) : Prop :=
  ∀ x ∈ names, j.attribute? x = i.attribute? x

theorem attribute?_lastUpdate (p : Pool) (locals : Assoc String Datum) :
    (p.holder locals).attribute? "last_update" = some (.dict (updated p.noted).shown) :=
  congrArg some (value_rows (m := p.machine locals) (List.cons_ne_nil _ _) rfl)

theorem sameOn_steadyFields (p : Pool) (noted : Bool) (locals locals' : Assoc String Datum) :
    SameOn steadyFields (p.holder locals) ({ p with noted }.holder locals') := by
  -- None of the values depends on the notes.
  have hadmin (noted : Bool) (locals : Assoc String Datum) :
      ({ p with noted }.holder locals).attribute? "admin" =
        some (.text (Text.pointsOf senderAddress)) := rfl
  have hbalances (noted : Bool) (locals : Assoc String Datum) :
      ({ p with noted }.holder locals).attribute? "balances" = some (.dict p.book.shown) :=
    congrArg some (value_rows (List.cons_ne_nil _ _) rfl)
  have htotal (noted : Bool) (locals : Assoc String Datum) :
      ({ p with noted }.holder locals).attribute? "total_deposits" =
        some (.int p.book.total) := rfl
  have hrate (noted : Bool) (locals : Assoc String Datum) :
      ({ p with noted }.holder locals).attribute? "interest_rate" = some (.int p.rate) := rfl
  simp only [SameOn, steadyFields, List.forall_mem_cons]
  exact ⟨(hadmin noted locals').trans (hadmin p.noted locals).symm,
    (hbalances noted locals').trans (hbalances p.noted locals).symm,
    (htotal noted locals').trans (htotal p.noted locals).symm,
    (hrate noted locals').trans (hrate p.noted locals).symm, List.forall_mem_nil _⟩

/-- All state variables have the same values if the notes are the same. -/
theorem sameOn_stateFields_iff (p : Pool) (noted : Bool) (locals locals' : Assoc String Datum) :
    SameOn stateFields (p.holder locals) ({ p with noted }.holder locals') ↔ noted = p.noted := by
  have hupdates : ({ p with noted }.holder locals').attribute? "last_update" =
      (p.holder locals).attribute? "last_update" ↔ noted = p.noted := by
    rw [attribute?_lastUpdate, attribute?_lastUpdate]
    cases noted <;> cases p.noted <;> simp [updated, Book.shown]
  refine ⟨fun h => hupdates.mp (h _ (by decide)), fun h => ?_⟩
  refine List.forall_mem_append.mpr ⟨sameOn_steadyFields p noted locals locals', ?_⟩
  exact List.forall_mem_singleton.mpr (hupdates.mpr h)

/-- What a call that fails leaves behind, in a state in which whoever has a balance is noted. -/
theorem failure_undone_iff {p : Pool} (hp : p.Tracked) {locals : Assoc String Datum} {q : Call}
    {e : Failure} {after : Instance}
    (h : (p.holder locals).call q.request.1 q.request.2 = (.error e, after)) :
    SameOn steadyFields (p.holder locals) after ∧
      (SameOn stateFields (p.holder locals) after ↔
        ((∃ a, q = .withdraw a) → p.noted = true)) := by
  obtain ⟨_, y, left, hcall, hstep⟩ := answers hp locals q
  obtain ⟨rfl, rfl⟩ := Prod.mk.inj (hcall.symm.trans h)
  obtain ⟨hy, hkind⟩ | ⟨hy, hkind⟩ := hstep.failed e rfl
  · rw [hy]
    refine ⟨sameOn_steadyFields p p.noted locals left,
      iff_of_true ((sameOn_stateFields_iff p p.noted locals left).mpr rfl) ?_⟩
    rintro ⟨a, rfl⟩
    exact absurd rfl (hkind a)
  · rw [hy]
    refine ⟨sameOn_steadyFields p true locals left,
      (sameOn_stateFields_iff p true locals left).trans ?_⟩
    exact ⟨fun hnoted _ => hnoted.symm, fun hnoted => (hnoted hkind).symm⟩

theorem class_interestPool : Sample.class? ⟨"Defi", interestPool⟩ = some poolClass :=
  Class.ofSource?_contract read_source

end InterestPool

open InterestPool in
/-- **What a failing call leaves behind in the interest pool.**  Whatever calls a fresh pool has
got, a further call that fails changes neither the balances nor their total, the rate or the
admin.  It changes nothing at all exactly if it is no withdrawal, or the sender has been noted
before, by a deposit of a positive amount or by a withdrawal that may have failed itself. -/
theorem interestPool_failure_undone_iff (calls : List InterestPool.Call) (q : InterestPool.Call) :
    ∃ sample cls i, find? "Defi" starters = some sample ∧ sample.class? = some cls ∧
      cls.instantiate = (.ok (), i) ∧ ∀ before after e,
        before = i.after (calls.map InterestPool.Call.request) →
        before.call q.request.1 q.request.2 = (.error e, after) →
        SameOn steadyFields before after ∧
          (SameOn stateFields before after ↔
            ((∃ a, q = .withdraw a) → ∃ c ∈ calls, c.Notes)) := by
  refine ⟨⟨"Defi", interestPool⟩, poolClass, Pool.fresh.holder [], rfl, class_interestPool,
    instantiate_pool, ?_⟩
  rintro before after e hbefore hcall
  subst hbefore
  obtain ⟨y, left, hafter, htracked, hnoted⟩ := noted_after tracked_fresh [] calls
  rw [hafter] at hcall ⊢
  obtain ⟨hsteady, hiff⟩ := failure_undone_iff htracked hcall
  refine ⟨hsteady, hiff.trans (imp_congr_right fun _ => hnoted.trans ?_)⟩
  exact or_iff_right Bool.false_ne_true

open InterestPool in
/-- A first withdrawal fails, and notes the sender all the same. -/
theorem interestPool_first_withdrawal_noted :
    ∃ sample cls i after, find? "Defi" starters = some sample ∧ sample.class? = some cls ∧
      cls.instantiate = (.ok (), i) ∧
      i.call "withdraw" [.int 5] = (.error (.raised "Insufficient balance"), after) ∧
      ¬ SameOn stateFields i after := by
  have hcall : (Pool.fresh.holder []).call "withdraw" [.int 5] =
      (.error (.raised "Insufficient balance"),
        { Pool.fresh with noted := true }.holder (ready 5 0)) := rfl
  refine ⟨⟨"Defi", interestPool⟩, poolClass, Pool.fresh.holder [], _, rfl, class_interestPool,
    instantiate_pool, hcall, ?_⟩
  exact fun h => Bool.noConfusion ((sameOn_stateFields_iff Pool.fresh true [] _).mp h)

end ContractKit.Samples
