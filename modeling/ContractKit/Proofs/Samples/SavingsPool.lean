import ContractKit.Proofs.Simulation.Books
import ContractKit.Proofs.Source.SameTree
import ContractKit.Samples
import Mathlib

/-!
# The savings pool stays solvent

The savings pool keeps a balance for each account and the total of the deposits.  Its source is
written here as the tree that reading gives, its methods are run by the rules for their forms, and
its calls are steps between states.  A deposit must be positive, but a withdrawal need not: one of
a negative amount is a deposit, to the balance and to the total alike.
-/

namespace ContractKit.Samples

open Source Simulation

namespace SavingsPool

/-! ## The source -/

def balances : Expr := field "balances"

def depositBody : List Stmt :=
  [.expression (words "Deposit tokens into the pool."),
   lets "sender" (ask "msg_sender" []),
   insists (.compare (.name "amount") .gt (number 0) []) "Amount must be positive",
   lets "current_balance" (lookUp balances (.name "sender")),
   putsIn balances (.name "sender") (.binary (.name "current_balance") .add (.name "amount")),
   puts "total_deposits" (.binary (field "total_deposits") .add (.name "amount")),
   emits "Deposit" [.name "sender", .name "amount"]]

def withdrawBody : List Stmt :=
  [.expression (words "Withdraw tokens from the pool."),
   lets "sender" (ask "msg_sender" []),
   lets "current_balance" (lookUp balances (.name "sender")),
   insists (.compare (.name "current_balance") .gtE (.name "amount") []) "Insufficient balance",
   putsIn balances (.name "sender") (.binary (.name "current_balance") .sub (.name "amount")),
   puts "total_deposits" (.binary (field "total_deposits") .sub (.name "amount")),
   emits "Withdraw" [.name "sender", .name "amount"]]

def balanceOfBody : List Stmt :=
  [.expression (words "Get user balance."), .ret (some (lookUp balances (.name "user")))]

def totalDepositsBody : List Stmt :=
  [.expression (words "Get total deposits."), .ret (some (field "total_deposits"))]

def setInterestRateBody : List Stmt :=
  [.expression (words "Set new interest rate (admin only)."),
   lets "sender" (ask "msg_sender" []),
   insists (.compare (.name "sender") .eq (field "admin") []) "Only admin can set rate",
   puts "interest_rate" (.name "new_rate"),
   emits "RateChanged" [.name "new_rate"]]

def constructorBody : List Stmt :=
  [baseSetup, declares "admin" (ask "msg_sender" []), declares "balances" (.dict []),
   declares "total_deposits" (number 0), declares "interest_rate" (number 5)]

def classBody : List Stmt :=
  [.expression (words "Enhanced DeFi contract with mapping support."),
   constructor constructorBody,
   action "deposit" [("amount", "int")] depositBody,
   action "withdraw" [("amount", "int")] withdrawBody,
   view "balance_of" [("user", "str")] "int" balanceOfBody,
   view "get_total_deposits" [] "int" totalDepositsBody,
   action "set_interest_rate" [("new_rate", "int")] setInterestRateBody]

theorem read_source :
    readStatements savingsPool = some [contract "DeFiContract" classBody] :=
  readStatements_lines (by repeat constructor) (by decide +kernel)

def poolClass : Simulation.Class := .ofBody classBody

theorem ordinary : Ordinary poolClass.methodSetting :=
  ⟨rfl, rfl, rfl, rfl, fun _ _ => rfl, fun _ _ _ => rfl⟩

/-! ## States -/

/-- The state of a pool: its book, in which the total is that of the deposits, and the rate of
interest. -/
structure Pool where
  book : Book
  rate : Int

/-- The machine of a pool, with the locals of the running call. -/
def Pool.machine (p : Pool) (locals : Assoc String Datum) : Machine where
  cells := (declaring [("admin", .text senderAddress), ("balances", .dict 2),
    ("total_deposits", .int 0), ("interest_rate", .int 5)] [.dict p.book.rows]).cells
  attributes := [("_state", .dict 0), ("_storage_slots", .dict 1), ("_slot_counter", .int 4),
    ("admin", .text senderAddress), ("balances", .dict 2), ("total_deposits", .int p.book.total),
    ("interest_rate", .int p.rate)]
  locals := locals

def Pool.holder (p : Pool) (locals : Assoc String Datum) : Instance := ⟨poolClass, p.machine locals⟩

def Pool.fresh : Pool := ⟨⟨[], 0⟩, 5⟩

theorem instantiate_pool : poolClass.instantiate = (.ok (), Pool.fresh.holder []) :=
  Class.instantiate_eq (m := Pool.fresh.machine started.locals) rfl rfl
    (by decide +kernel)

/-! ## Calls -/

/-- Whose balance is asked for: users are named by texts, but a number can be given, too. -/
inductive Party where
  | number (n : Int)
  | address (text : Text.Points)

/-- The argument that names a party. -/
def Party.value : Party → Value
  | number n => .int n
  | address text => .text text

/-- A call of a method of the pool. -/
inductive Call where
  | deposit (amount : Int)
  | withdraw (amount : Int)
  | balanceOf (user : Party)
  | totalDeposits
  | setInterestRate (rate : Int)

/-- The method of a call, with its arguments. -/
def Call.request : Call → String × List Value
  | deposit amount => ("deposit", [.int amount])
  | withdraw amount => ("withdraw", [.int amount])
  | balanceOf user => ("balance_of", [user.value])
  | totalDeposits => ("get_total_deposits", [])
  | setInterestRate rate => ("set_interest_rate", [.int rate])

theorem findKey_int (b : Book) (n : Int) : findKey (.int n) b.rows = none := by
  rw [Book.rows]
  induction b.balances with
  | nil => rfl
  | cons e rest ih => exact ih

/-- Looking up a balance changes nothing, whoever it is of. -/
theorem completes_balanceOf (p : Pool) {d : Datum} (hkey : d.isKey = true) :
    Completes poolClass (Pool.machine · []) (KeepsSound Pool.book p) balanceOfBody
      (p.machine [("self", .contract), ("user", d)]) := by
  refine .next (runStmt_expression (.words _)) ?_
  exact .done p (runStmt_ret (.lookUp ordinary (.field rfl rfl) (.name rfl) hkey)) .same rfl

/-- Every call keeps the book sound, and changes nothing if it fails. -/
theorem answers (p : Pool) (locals : Assoc String Datum) (q : Call) :
    Ends poolClass (Pool.machine · []) (KeepsSound Pool.book p)
      ((p.holder locals).call q.request.1 q.request.2) := by
  cases q with
  | deposit a =>
    refine Ends.call (x := p) rfl rfl rfl rfl ?_
    refine .next (runStmt_expression (.words _)) ?_
    refine .next (runStmt_lets (.sender ordinary rfl rfl)) ?_
    refine .insists ordinary p rfl rfl (.compare (.name rfl) (.number 0) (relate_gt a 0))
      (fun _ => .same) rfl fun hamount => ?_
    refine .next (runStmt_lets (.balance ordinary (.field rfl rfl) (b := p.book) rfl
      (.name rfl))) ?_
    refine .next (runStmt_putsBalance (.field rfl rfl) (b := p.book) rfl (.name rfl)
      (.binary (.name rfl) (.name rfl) rfl)) ?_
    refine .next (runStmt_puts rfl (.binary (.field rfl rfl) (.name rfl) rfl)) ?_
    refine .next (runStmt_emits ordinary rfl rfl (.cons (.name rfl) (.cons (.name rfl) .nil))) ?_
    exact .last { p with book := p.book.credit senderAddress a }
      (.of_ok fun h => h.credit hamount.le) rfl
  | withdraw a =>
    refine Ends.call (x := p) rfl rfl rfl rfl ?_
    refine .next (runStmt_expression (.words _)) ?_
    refine .next (runStmt_lets (.sender ordinary rfl rfl)) ?_
    refine .next (runStmt_lets (.balance ordinary (.field rfl rfl) (b := p.book) rfl
      (.name rfl))) ?_
    refine .insists ordinary p rfl rfl (.compare (.name rfl) (.name rfl)
      (relate_gtE (p.book.balance senderAddress) a)) (fun _ => .same) rfl fun hfunds => ?_
    refine .next (runStmt_putsBalance (.field rfl rfl) (b := p.book) rfl (.name rfl)
      (.binary (.name rfl) (.name rfl) rfl)) ?_
    refine .next (runStmt_puts rfl (.binary (.field rfl rfl) (.name rfl) rfl)) ?_
    refine .next (runStmt_emits ordinary rfl rfl (.cons (.name rfl) (.cons (.name rfl) .nil))) ?_
    exact .last { p with book := p.book.debit senderAddress a } (.of_ok fun h => h.debit hfunds) rfl
  | balanceOf user =>
    cases user with
    | number n => exact Ends.call (x := p) rfl rfl rfl rfl (completes_balanceOf p rfl)
    | address text => exact Ends.call (x := p) rfl rfl rfl rfl (completes_balanceOf p rfl)
  | totalDeposits => exact ⟨_, p, _, rfl, .same⟩
  | setInterestRate r =>
    refine Ends.call (x := p) rfl rfl rfl rfl ?_
    refine .next (runStmt_expression (.words _)) ?_
    refine .next (runStmt_lets (.sender ordinary rfl rfl)) ?_
    -- The sender is the administrator.
    refine .insists (P := True) ordinary p rfl rfl (.compare (.name rfl) (.field rfl rfl) rfl) (fun
      _ => .same) rfl fun _ => ?_
    refine .next (runStmt_puts rfl (.name rfl)) ?_
    refine .next (runStmt_emits ordinary rfl rfl (.cons (.name rfl) .nil)) ?_
    exact .last { p with rate := r } (.of_ok id) rfl

def conduct : Conduct Pool Call where
  cls := poolClass
  machine p := p.machine []
  request := Call.request
  Allows p _ := KeepsSound Pool.book p
  answers := answers

/-! ## Solvency -/

theorem sound_fresh : Pool.fresh.book.Sound := ⟨rfl, by simp [Pool.fresh, Assoc.values]⟩

end SavingsPool

open SavingsPool in
/-- **The savings pool stays solvent.**  Whatever calls a fresh instance has got, with any amounts
and also after calls that failed, its deposits are the sum of its balances, none of which is
negative, and a further call that fails changes nothing. -/
theorem savingsPool_stays_solvent :
    ∃ sample cls i, find? "DeFiContract" builtIn = some sample ∧ sample.class? = some cls ∧
      cls.instantiate = (.ok (), i) ∧ KeepsBook i Call.request "total_deposits" "balances" := by
  refine ⟨⟨"DeFiContract", savingsPool⟩, poolClass, Pool.fresh.holder [], rfl,
    Class.ofSource?_contract read_source, instantiate_pool, ?_⟩
  exact conduct.keepsBook Pool.book id (fun _ => rfl) (fun _ => rfl)
    (fun _ => List.cons_ne_nil _ _) (fun _ => rfl) sound_fresh []

end ContractKit.Samples
