import ContractKit.Proofs.Simulation.Books
import ContractKit.Proofs.Source.SameTree
import ContractKit.Samples
import Mathlib

/-!
# The tokens conserve their supply

Two of the sample tokens keep a balance for each address and the supply, which is the total of
their books.  In both the sender of every call is the administrator, so a mint is refused only for
its amount.  The beginners' token starts with a supply that the owner has, and can be burned; the
mintable one starts empty, and its tokens are minted for any address.
-/

namespace ContractKit.Samples

open Source Simulation

/-! ## Forms of the tokens -/

def tokenBalances : Expr := field "balances"

/-- Adds the amount to the balance under a key. -/
def pays (key : Expr) : Stmt :=
  putsIn tokenBalances key (.binary (lookUp tokenBalances key) .add (.name "amount"))

namespace BeginnerToken

/-! ## The beginners' token -/

/-- How a transfer and a burn start: the sender must have the amount, and it must be positive. -/
def guards (message : String) : List Stmt :=
  [lets "sender" (ask "msg_sender" []),
   refuses (.compare (lookUp tokenBalances (.name "sender")) .lt (.name "amount") []) message,
   refuses (.compare (.name "amount") .ltE (number 0) []) "Amount must be positive!"]

def transferBody : List Stmt :=
  guards "Not enough tokens!" ++
    [putsIn tokenBalances (.name "sender")
       (.binary (lookUp tokenBalances (.name "sender")) .sub (.name "amount")),
     pays (.name "to"),
     emits "Transfer" [.name "sender", .name "to", .name "amount"]]

def mintBody : List Stmt :=
  [lets "sender" (ask "msg_sender" []),
   refuses (.compare (.name "sender") .notEq (field "owner") []) "Only owner can mint tokens!",
   refuses (.compare (.name "amount") .ltE (number 0) []) "Amount must be positive!",
   updates "total_supply" .add (.name "amount"),
   pays (field "owner"),
   emits "Mint" [field "owner", .name "amount"]]

def burnBody : List Stmt :=
  guards "Not enough tokens to burn!" ++
    [updatesIn tokenBalances (.name "sender") .sub (.name "amount"),
     updates "total_supply" .sub (.name "amount"),
     emits "Burn" [.name "sender", .name "amount"]]

def constructorBody : List Stmt :=
  [baseSetup, declares "name" (words "BeginnerCoin"), declares "symbol" (words "BGN"),
   declares "total_supply" (number 1000000), declares "balances" (.dict []),
   declares "owner" (ask "msg_sender" []),
   putsIn tokenBalances (field "owner") (field "total_supply")]

def classBody : List Stmt :=
  [constructor constructorBody,
   getter "get_name" "str" "name", getter "get_symbol" "str" "symbol",
   getter "get_total_supply" "int" "total_supply",
   view "balance_of" [("account", "str")] "int"
     [.ret (some (lookUp tokenBalances (.name "account")))],
   action "transfer" [("to", "str"), ("amount", "int")] transferBody,
   action "mint" [("amount", "int")] mintBody,
   action "burn" [("amount", "int")] burnBody]

theorem read_source :
    readStatements beginnerToken = some [contract "BeginnerToken" classBody] :=
  readStatements_lines (by repeat constructor) (by decide +kernel)

def tokenClass : Simulation.Class := .ofBody classBody

theorem ordinary : Ordinary tokenClass.methodSetting :=
  ⟨rfl, rfl, rfl, rfl, fun _ _ => rfl, fun _ _ _ => rfl⟩

/-- The machine of a token with a book, with the locals of the running call. -/
def machine (b : Book) (locals : Assoc String Datum) : Machine where
  cells := (declaring [("name", .text "BeginnerCoin"), ("symbol", .text "BGN"),
    ("total_supply", .int 1000000), ("balances", .dict 2), ("owner", .text senderAddress)]
    [.dict b.rows]).cells
  attributes := [("_state", .dict 0), ("_storage_slots", .dict 1), ("_slot_counter", .int 5),
    ("name", .text "BeginnerCoin"), ("symbol", .text "BGN"), ("total_supply", .int b.total),
    ("balances", .dict 2), ("owner", .text senderAddress)]
  locals := locals

/-- The first book: the owner has the whole supply. -/
def firstBook : Book := ⟨[(senderAddress, 1000000)], 1000000⟩

theorem instantiate_token :
    tokenClass.instantiate = (.ok (), ⟨tokenClass, machine firstBook []⟩) :=
  Class.instantiate_eq (m := machine firstBook started.locals) rfl rfl
    (by decide +kernel)

/-! ### Calls -/

/-- A call of a method of the token. -/
inductive Call where
  | transfer (receiver : Text.Points) (amount : Int)
  | mint (amount : Int)
  | burn (amount : Int)
  | balanceOf (account : Text.Points)
  | name
  | symbol
  | totalSupply

/-- The method of a call, with its arguments. -/
def Call.request : Call → String × List Value
  | transfer receiver amount => ("transfer", [.text receiver, .int amount])
  | mint amount => ("mint", [.int amount])
  | burn amount => ("burn", [.int amount])
  | balanceOf account => ("balance_of", [.text account])
  | name => ("get_name", [])
  | symbol => ("get_symbol", [])
  | totalSupply => ("get_total_supply", [])

theorem answers (b : Book) (locals : Assoc String Datum) (q : Call) :
    Ends tokenClass (machine · []) (KeepsSound id b)
      (Instance.call ⟨tokenClass, machine b locals⟩ q.request.1 q.request.2) := by
  cases q with
  | transfer receiver a =>
    refine Ends.call (x := b) rfl rfl rfl rfl ?_
    refine .next (runStmt_lets (.sender ordinary rfl rfl)) ?_
    refine .refuses b (.compare (.balance ordinary (.field rfl rfl) (b := b) rfl (.name rfl))
      (.name rfl) (relate_lt (b.balance senderAddress) a)) (fun _ => .same) rfl fun hfunds => ?_
    refine .refuses b (.compare (.name rfl) (.number 0) (relate_ltE a 0)) (fun _ => .same) rfl
      fun hamount => ?_
    refine .next (runStmt_putsBalance (.field rfl rfl) (b := b) rfl (.name rfl)
      (.binary (.balance ordinary (.field rfl rfl) (b := b) rfl (.name rfl)) (.name rfl) rfl)) ?_
    refine .next (runStmt_putsBalance (.field rfl rfl) (b := b.charge senderAddress a) rfl
      (.name rfl) (.binary (.balance ordinary (.field rfl rfl) (b := b.charge senderAddress a) rfl
        (.name rfl)) (.name rfl) rfl)) ?_
    refine .next (runStmt_emits ordinary rfl rfl
      (.cons (.name rfl) (.cons (.name rfl) (.cons (.name rfl) .nil)))) ?_
    exact .last (b.transfer senderAddress receiver.toString a)
      (.of_ok fun h => h.transfer (not_le.mp hamount).le (not_lt.mp hfunds)) rfl
  | mint a =>
    refine Ends.call (x := b) rfl rfl rfl rfl ?_
    refine .next (runStmt_lets (.sender ordinary rfl rfl)) ?_
    -- The sender is the owner.
    refine .refuses (P := False) b (.compare (.name rfl) (.field rfl rfl) rfl) (fun _ => .same) rfl
      fun _ => ?_
    refine .refuses b (.compare (.name rfl) (.number 0) (relate_ltE a 0)) (fun _ => .same) rfl
      fun hamount => ?_
    refine .next (runStmt_updates rfl rfl (.name rfl) rfl) ?_
    refine .next (runStmt_putsBalance (.field rfl rfl) (b := b) rfl (.field rfl rfl)
      (.binary (.balance ordinary (.field rfl rfl) (b := b) rfl (.field rfl rfl)) (.name rfl)
        rfl)) ?_
    refine .next (runStmt_emits ordinary rfl rfl
      (.cons (.field rfl rfl) (.cons (.name rfl) .nil))) ?_
    exact .last (b.credit senderAddress a) (.of_ok fun h => h.credit (not_le.mp hamount).le) rfl
  | burn a =>
    refine Ends.call (x := b) rfl rfl rfl rfl ?_
    refine .next (runStmt_lets (.sender ordinary rfl rfl)) ?_
    refine .refuses b (.compare (.balance ordinary (.field rfl rfl) (b := b) rfl (.name rfl))
      (.name rfl) (relate_lt (b.balance senderAddress) a)) (fun _ => .same) rfl fun hfunds => ?_
    refine .refuses b (.compare (.name rfl) (.number 0) (relate_ltE a 0)) (fun _ => .same) rfl
      fun hamount => ?_
    -- The sender has a positive balance, hence an entry to update.
    have hentry : b.balance senderAddress ≠ 0 := by omega
    refine .next (runStmt_updatesBalance (.field rfl rfl) (b := b) rfl (.name rfl) hentry
      (.name rfl) rfl) ?_
    refine .next (runStmt_updates rfl rfl (.name rfl) rfl) ?_
    refine .next (runStmt_emits ordinary rfl rfl (.cons (.name rfl) (.cons (.name rfl) .nil))) ?_
    exact .last (b.debit senderAddress a) (.of_ok fun h => h.debit (not_lt.mp hfunds)) rfl
  | balanceOf account =>
    refine Ends.call (x := b) rfl rfl rfl rfl ?_
    exact .done b (runStmt_ret (.balance ordinary (.field rfl rfl) (b := b) rfl (.name rfl)))
      .same rfl
  | name | symbol | totalSupply => exact ⟨_, b, _, rfl, .same⟩

def conduct : Conduct Book Call where
  cls := tokenClass
  machine b := machine b []
  request := Call.request
  Allows b _ := KeepsSound id b
  answers := answers

theorem sound_firstBook : firstBook.Sound := ⟨rfl, by simp [firstBook, Assoc.values]⟩

end BeginnerToken

namespace MintableToken

/-! ## The mintable token -/

def transferBody : List Stmt :=
  [lets "sender" (ask "msg_sender" []),
   insists (.compare (.name "amount") .gt (number 0) []) "Amount must be positive",
   lets "sender_balance" (lookUp tokenBalances (.name "sender")),
   insists (.compare (.name "sender_balance") .gtE (.name "amount") []) "Insufficient balance",
   putsIn tokenBalances (.name "sender") (.binary (.name "sender_balance") .sub (.name "amount")),
   pays (.name "to"),
   emits "Transfer" [.name "sender", .name "to", .name "amount"]]

def mintBody : List Stmt :=
  [lets "sender" (ask "msg_sender" []),
   insists (.compare (.name "sender") .eq (field "admin") []) "Only admin can mint",
   insists (.compare (.name "amount") .gt (number 0) []) "Mint amount must be positive",
   puts "total_supply" (.binary (field "total_supply") .add (.name "amount")),
   pays (.name "to"),
   emits "Mint" [.name "to", .name "amount"]]

def constructorBody : List Stmt :=
  [baseSetup, declares "name" (words "MintableToken"), declares "symbol" (words "MINT"),
   declares "decimals" (number 18), declares "admin" (ask "msg_sender" []),
   declares "total_supply" (number 0), declares "balances" (.dict [])]

def classBody : List Stmt :=
  [constructor constructorBody,
   action "transfer" [("to", "str"), ("amount", "int")] transferBody,
   action "mint" [("to", "str"), ("amount", "int")] mintBody,
   view "balance_of" [("user", "str")] "int" [.ret (some (lookUp tokenBalances (.name "user")))],
   getter "get_total_supply" "int" "total_supply", getter "get_name" "str" "name",
   getter "get_symbol" "str" "symbol", getter "get_decimals" "int" "decimals"]

theorem read_source :
    readStatements mintableToken = some [contract "MintableToken" classBody] :=
  readStatements_lines (by repeat constructor) (by decide +kernel)

def tokenClass : Simulation.Class := .ofBody classBody

theorem ordinary : Ordinary tokenClass.methodSetting :=
  ⟨rfl, rfl, rfl, rfl, fun _ _ => rfl, fun _ _ _ => rfl⟩

/-- The machine of a token with a book, with the locals of the running call. -/
def machine (b : Book) (locals : Assoc String Datum) : Machine where
  cells := (declaring [("name", .text "MintableToken"), ("symbol", .text "MINT"),
    ("decimals", .int 18), ("admin", .text senderAddress), ("total_supply", .int 0),
    ("balances", .dict 2)] [.dict b.rows]).cells
  attributes := [("_state", .dict 0), ("_storage_slots", .dict 1), ("_slot_counter", .int 6),
    ("name", .text "MintableToken"), ("symbol", .text "MINT"), ("decimals", .int 18),
    ("admin", .text senderAddress), ("total_supply", .int b.total), ("balances", .dict 2)]
  locals := locals

def firstBook : Book := ⟨[], 0⟩

theorem instantiate_token :
    tokenClass.instantiate = (.ok (), ⟨tokenClass, machine firstBook []⟩) :=
  Class.instantiate_eq (m := machine firstBook started.locals) rfl rfl
    (by decide +kernel)

/-! ### Calls -/

/-- A call of a method of the token. -/
inductive Call where
  | transfer (receiver : Text.Points) (amount : Int)
  | mint (receiver : Text.Points) (amount : Int)
  | balanceOf (user : Text.Points)
  | totalSupply
  | name
  | symbol
  | decimals

/-- The method of a call, with its arguments. -/
def Call.request : Call → String × List Value
  | transfer receiver amount => ("transfer", [.text receiver, .int amount])
  | mint receiver amount => ("mint", [.text receiver, .int amount])
  | balanceOf user => ("balance_of", [.text user])
  | totalSupply => ("get_total_supply", [])
  | name => ("get_name", [])
  | symbol => ("get_symbol", [])
  | decimals => ("get_decimals", [])

theorem answers (b : Book) (locals : Assoc String Datum) (q : Call) :
    Ends tokenClass (machine · []) (KeepsSound id b)
      (Instance.call ⟨tokenClass, machine b locals⟩ q.request.1 q.request.2) := by
  cases q with
  | transfer receiver a =>
    -- A transfer of nothing or less is refused before the balance of the sender is looked up.
    refine Ends.call (x := b) rfl rfl rfl rfl ?_
    refine .next (runStmt_lets (.sender ordinary rfl rfl)) ?_
    refine .insists ordinary b rfl rfl (.compare (.name rfl) (.number 0) (relate_gt a 0))
      (fun _ => .same) rfl fun hamount => ?_
    refine .next (runStmt_lets (.balance ordinary (.field rfl rfl) (b := b) rfl (.name rfl))) ?_
    refine .insists ordinary b rfl rfl (.compare (.name rfl) (.name rfl)
      (relate_gtE (b.balance senderAddress) a)) (fun _ => .same) rfl fun hfunds => ?_
    refine .next (runStmt_putsBalance (.field rfl rfl) (b := b) rfl (.name rfl)
      (.binary (.name rfl) (.name rfl) rfl)) ?_
    refine .next (runStmt_putsBalance (.field rfl rfl) (b := b.charge senderAddress a) rfl
      (.name rfl) (.binary (.balance ordinary (.field rfl rfl) (b := b.charge senderAddress a) rfl
        (.name rfl)) (.name rfl) rfl)) ?_
    refine .next (runStmt_emits ordinary rfl rfl
      (.cons (.name rfl) (.cons (.name rfl) (.cons (.name rfl) .nil)))) ?_
    exact .last (b.transfer senderAddress receiver.toString a)
      (.of_ok fun h => h.transfer hamount.le hfunds) rfl
  | mint receiver a =>
    refine Ends.call (x := b) rfl rfl rfl rfl ?_
    refine .next (runStmt_lets (.sender ordinary rfl rfl)) ?_
    refine .insists (P := True) ordinary b rfl rfl (.compare (.name rfl) (.field rfl rfl) rfl) (fun
      _ => .same) rfl fun _ => ?_
    refine .insists ordinary b rfl rfl (.compare (.name rfl) (.number 0) (relate_gt a 0))
      (fun _ => .same) rfl fun hamount => ?_
    refine .next (runStmt_puts rfl (.binary (.field rfl rfl) (.name rfl) rfl)) ?_
    refine .next (runStmt_putsBalance (.field rfl rfl) (b := b) rfl (.name rfl)
      (.binary (.balance ordinary (.field rfl rfl) (b := b) rfl (.name rfl)) (.name rfl) rfl)) ?_
    refine .next (runStmt_emits ordinary rfl rfl (.cons (.name rfl) (.cons (.name rfl) .nil))) ?_
    exact .last (b.credit receiver.toString a) (.of_ok fun h => h.credit hamount.le) rfl
  | balanceOf user =>
    refine Ends.call (x := b) rfl rfl rfl rfl ?_
    exact .done b (runStmt_ret (.balance ordinary (.field rfl rfl) (b := b) rfl (.name rfl)))
      .same rfl
  | totalSupply | name | symbol | decimals => exact ⟨_, b, _, rfl, .same⟩

def conduct : Conduct Book Call where
  cls := tokenClass
  machine b := machine b []
  request := Call.request
  Allows b _ := KeepsSound id b
  answers := answers

theorem sound_firstBook : firstBook.Sound := ⟨rfl, by simp [firstBook, Assoc.values]⟩

end MintableToken

/-- **The tokens conserve their supply.**  Whatever transfers, mints, burns and views a fresh token
has got, with any amounts, for any addresses, that of the sender included, and also after calls
that failed, its supply is the sum of its balances, none of which is negative, and a further call
that fails changes nothing. -/
theorem tokens_conserve_supply :
    (∃ sample cls i, find? "BeginnerToken" starters = some sample ∧ sample.class? = some cls ∧
      cls.instantiate = (.ok (), i) ∧
      KeepsBook i BeginnerToken.Call.request "total_supply" "balances") ∧
    ∃ sample cls i, find? "MintableToken" starters = some sample ∧ sample.class? = some cls ∧
      cls.instantiate = (.ok (), i) ∧
      KeepsBook i MintableToken.Call.request "total_supply" "balances" := by
  constructor
  · refine ⟨⟨"BeginnerToken", beginnerToken⟩, BeginnerToken.tokenClass, _, rfl,
      Class.ofSource?_contract BeginnerToken.read_source, BeginnerToken.instantiate_token, ?_⟩
    exact BeginnerToken.conduct.keepsBook id id (fun _ => rfl) (fun _ => rfl)
      (fun _ => List.cons_ne_nil _ _) (fun _ => rfl) BeginnerToken.sound_firstBook []
  · refine ⟨⟨"MintableToken", mintableToken⟩, MintableToken.tokenClass, _, rfl,
      Class.ofSource?_contract MintableToken.read_source, MintableToken.instantiate_token, ?_⟩
    exact MintableToken.conduct.keepsBook id id (fun _ => rfl) (fun _ => rfl)
      (fun _ => List.cons_ne_nil _ _) (fun _ => rfl) MintableToken.sound_firstBook []

end ContractKit.Samples
