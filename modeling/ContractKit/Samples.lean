import ContractKit.Simulation.Instance

/-!
# Sample contracts

Contracts that come with the library, as sources: each can be compiled and simulated.
-/

namespace ContractKit.Samples

def ofLines (lines : List String) : String :=
  String.ofList (lines.flatMap fun l => l.toList ++ ['\n'])

/-- One number that anyone can set and read. -/
def simpleStorage : String := ofLines [
  "",
  "class SimpleStorage(PySmartContract):",
  "    \"\"\"Simple storage contract in Python.\"\"\"",
  "    ",
  "    def __init__(self):",
  "        super().__init__()",
  "        self.stored_data = self.state_var(\"stored_data\", 0)",
  "    ",
  "    @public_function",
  "    def set(self, value: int):",
  "        \"\"\"Set stored data.\"\"\"",
  "        self.stored_data = value",
  "        self.event(\"DataStored\", value)",
  "    ",
  "    @view_function",
  "    def get(self) -> int:",
  "        \"\"\"Get stored data.\"\"\"",
  "        return self.stored_data"]

/-- A pool of deposits with a balance for each account. -/
def savingsPool : String := ofLines [
  "",
  "class DeFiContract(PySmartContract):",
  "    \"\"\"Enhanced DeFi contract with mapping support.\"\"\"",
  "    ",
  "    def __init__(self):",
  "        super().__init__()",
  "        self.admin = self.state_var(\"admin\", self.msg_sender())",
  "        self.balances = self.state_var(\"balances\", \x7b\x7d)",
  "        self.total_deposits = self.state_var(\"total_deposits\", 0)",
  "        self.interest_rate = self.state_var(\"interest_rate\", 5)",
  "    ",
  "    @public_function",
  "    def deposit(self, amount: int):",
  "        \"\"\"Deposit tokens into the pool.\"\"\"",
  "        sender = self.msg_sender()",
  "        self.require(amount > 0, \"Amount must be positive\")",
  "        ",
  "        current_balance = self.balances.get(sender, 0)",
  "        self.balances[sender] = current_balance + amount",
  "        self.total_deposits = self.total_deposits + amount",
  "        ",
  "        self.event(\"Deposit\", sender, amount)",
  "    ",
  "    @public_function",
  "    def withdraw(self, amount: int):",
  "        \"\"\"Withdraw tokens from the pool.\"\"\"",
  "        sender = self.msg_sender()",
  "        current_balance = self.balances.get(sender, 0)",
  "        ",
  "        self.require(current_balance >= amount, \"Insufficient balance\")",
  "        ",
  "        self.balances[sender] = current_balance - amount",
  "        self.total_deposits = self.total_deposits - amount",
  "        ",
  "        self.event(\"Withdraw\", sender, amount)",
  "    ",
  "    @view_function",
  "    def balance_of(self, user: str) -> int:",
  "        \"\"\"Get user balance.\"\"\"",
  "        return self.balances.get(user, 0)",
  "    ",
  "    @view_function",
  "    def get_total_deposits(self) -> int:",
  "        \"\"\"Get total deposits.\"\"\"",
  "        return self.total_deposits",
  "    ",
  "    @public_function",
  "    def set_interest_rate(self, new_rate: int):",
  "        \"\"\"Set new interest rate (admin only).\"\"\"",
  "        sender = self.msg_sender()",
  "        self.require(sender == self.admin, \"Only admin can set rate\")",
  "        self.interest_rate = new_rate",
  "        self.event(\"RateChanged\", new_rate)"]

def ownedCounter : String := ofLines [
  "class Counter(PySmartContract):",
  "",
  "    def __init__(self):",
  "        super().__init__()",
  "        self.count = self.state_var(\"count\", 0)",
  "        self.owner = self.state_var(\"owner\", 0)",
  "",
  "    @public_function",
  "    def increment(self):",
  "        self.count = self.count + 1",
  "        self.event(\"Incremented\", self.count)",
  "",
  "    @public_function",
  "    def decrement(self):",
  "        if self.count > 0:",
  "            self.count = self.count - 1",
  "            self.event(\"Decremented\", self.count)",
  "",
  "    @view_function",
  "    def get_count(self) -> int:",
  "        return self.count",
  "",
  "    @public_function",
  "    def reset(self):",
  "        self.count = 0",
  "        self.event(\"Reset\")"]

def basicToken : String := ofLines [
  "class BasicToken(PySmartContract):",
  "",
  "    def __init__(self):",
  "        super().__init__()",
  "        self.total_supply = self.state_var(\"total_supply\", 1000000)",
  "        self.name = \"PyToken\"",
  "        self.symbol = \"PYT\"",
  "        self.balance = self.state_var(\"balance\", 1000000)",
  "",
  "    @view_function",
  "    def get_total_supply(self) -> int:",
  "        return self.total_supply",
  "",
  "    @view_function",
  "    def get_balance(self) -> int:",
  "        return self.balance",
  "",
  "    @public_function",
  "    def transfer(self, amount: int):",
  "        if self.balance >= amount:",
  "            self.balance = self.balance - amount",
  "            self.event(\"Transfer\", amount)"]

/-- A counter that does not go below zero. -/
def counter : String := ofLines [
  "class Counter(PySmartContract):",
  "",
  "    def __init__(self):",
  "        super().__init__()",
  "        self.count = self.state_var(\"count\", 0)",
  "",
  "    @public_function",
  "    def increment(self):",
  "        self.count = self.count + 1",
  "        self.event(\"Incremented\", self.count)",
  "",
  "    @public_function",
  "    def decrement(self):",
  "        if self.count > 0:",
  "            self.count = self.count - 1",
  "            self.event(\"Decremented\", self.count)",
  "",
  "    @view_function",
  "    def get_count(self) -> int:",
  "        return self.count",
  "",
  "    @public_function",
  "    def reset(self):",
  "        self.count = 0",
  "        self.event(\"Reset\")"]

/-- A token with a balance for each account, minted by its owner. -/
def beginnerToken : String := ofLines [
  "class BeginnerToken(PySmartContract):",
  "",
  "    def __init__(self):",
  "        super().__init__()",
  "        self.name = self.state_var(\"name\", \"BeginnerCoin\")",
  "        self.symbol = self.state_var(\"symbol\", \"BGN\")",
  "        self.total_supply = self.state_var(\"total_supply\", 1000000)",
  "        self.balances = self.state_var(\"balances\", \x7b\x7d)",
  "        self.owner = self.state_var(\"owner\", self.msg_sender())",
  "        self.balances[self.owner] = self.total_supply",
  "",
  "    @view_function",
  "    def get_name(self) -> str:",
  "        return self.name",
  "",
  "    @view_function",
  "    def get_symbol(self) -> str:",
  "        return self.symbol",
  "",
  "    @view_function",
  "    def get_total_supply(self) -> int:",
  "        return self.total_supply",
  "",
  "    @view_function",
  "    def balance_of(self, account: str) -> int:",
  "        return self.balances.get(account, 0)",
  "",
  "    @public_function",
  "    def transfer(self, to: str, amount: int):",
  "        sender = self.msg_sender()",
  "        if self.balances.get(sender, 0) < amount:",
  "            raise Exception(\"Not enough tokens!\")",
  "        if amount <= 0:",
  "            raise Exception(\"Amount must be positive!\")",
  "        self.balances[sender] = self.balances.get(sender, 0) - amount",
  "        self.balances[to] = self.balances.get(to, 0) + amount",
  "        self.event(\"Transfer\", sender, to, amount)",
  "",
  "    @public_function",
  "    def mint(self, amount: int):",
  "        sender = self.msg_sender()",
  "        if sender != self.owner:",
  "            raise Exception(\"Only owner can mint tokens!\")",
  "        if amount <= 0:",
  "            raise Exception(\"Amount must be positive!\")",
  "        self.total_supply += amount",
  "        self.balances[self.owner] = self.balances.get(self.owner, 0) + amount",
  "        self.event(\"Mint\", self.owner, amount)",
  "",
  "    @public_function",
  "    def burn(self, amount: int):",
  "        sender = self.msg_sender()",
  "        if self.balances.get(sender, 0) < amount:",
  "            raise Exception(\"Not enough tokens to burn!\")",
  "        if amount <= 0:",
  "            raise Exception(\"Amount must be positive!\")",
  "        self.balances[sender] -= amount",
  "        self.total_supply -= amount",
  "        self.event(\"Burn\", sender, amount)"]

/-- A pool of deposits that earn interest by the block. -/
def interestPool : String := ofLines [
  "class Defi(PySmartContract):",
  "",
  "    def __init__(self):",
  "        super().__init__()",
  "        self.admin = self.state_var(\"admin\", self.msg_sender())",
  "        self.balances = self.state_var(\"balances\", \x7b\x7d)",
  "        self.total_deposits = self.state_var(\"total_deposits\", 0)",
  "        self.interest_rate = self.state_var(\"interest_rate\", 500)",
  "        self.last_update = self.state_var(\"last_update\", \x7b\x7d)",
  "",
  "    @public_function",
  "    def deposit(self, amount: int):",
  "        sender = self.msg_sender()",
  "        self.require(amount > 0, \"Deposit amount must be greater than 0\")",
  "        self._apply_interest(sender)",
  "        current_balance = self.balances.get(sender, 0)",
  "        self.balances[sender] = current_balance + amount",
  "        self.total_deposits = self.total_deposits + amount",
  "        self.last_update[sender] = self.block_number()",
  "        self.event(\"Deposit\", sender, amount)",
  "",
  "    @public_function",
  "    def withdraw(self, amount: int):",
  "        sender = self.msg_sender()",
  "        self._apply_interest(sender)",
  "        current_balance = self.balances.get(sender, 0)",
  "        self.require(current_balance >= amount, \"Insufficient balance\")",
  "        self.balances[sender] = current_balance - amount",
  "        self.total_deposits = self.total_deposits - amount",
  "        self.last_update[sender] = self.block_number()",
  "        self.event(\"Withdraw\", sender, amount)",
  "",
  "    @view_function",
  "    def balance_of(self, user: str) -> int:",
  "        stored = self.balances.get(user, 0)",
  "        if stored == 0:",
  "            return 0",
  "        last = self.last_update.get(user, self.block_number())",
  "        blocks_passed = self.block_number() - last",
  "        if blocks_passed > 0:",
  "            interest = stored * self.interest_rate * blocks_passed // 100000",
  "            return stored + interest",
  "        return stored",
  "",
  "    @view_function",
  "    def get_total_deposits(self) -> int:",
  "        return self.total_deposits",
  "",
  "    @public_function",
  "    def set_interest_rate(self, new_rate: int):",
  "        sender = self.msg_sender()",
  "        self.require(sender == self.admin, \"Only admin can change rate\")",
  "        self.require(new_rate <= 10000, \"Rate cannot exceed 100%\")",
  "        self.interest_rate = new_rate",
  "        self.event(\"RateChanged\", new_rate)",
  "",
  "    def _apply_interest(self, user: str):",
  "        stored = self.balances.get(user, 0)",
  "        if stored == 0:",
  "            self.last_update[user] = self.block_number()",
  "            return",
  "        last = self.last_update.get(user, self.block_number())",
  "        blocks_passed = self.block_number() - last",
  "        if blocks_passed > 0:",
  "            interest = stored * self.interest_rate * blocks_passed // 100000",
  "            if interest > 0:",
  "                self.balances[user] = stored + interest",
  "                self.total_deposits = self.total_deposits + interest",
  "                self.event(\"InterestApplied\", user, interest)",
  "            self.last_update[user] = self.block_number()"]

/-- A token that can be staked for a reward. -/
def stakeToken : String := ofLines [
  "class StakeToken(PySmartContract):",
  "",
  "    def __init__(self):",
  "        super().__init__()",
  "        self.name = self.state_var(\"name\", \"StakeableToken\")",
  "        self.symbol = self.state_var(\"symbol\", \"STK\")",
  "        self.decimals = self.state_var(\"decimals\", 18)",
  "        self.total_supply = self.state_var(\"total_supply\", 1000000)",
  "        self.owner = self.state_var(\"owner\", 1)",
  "        self.is_paused = self.state_var(\"is_paused\", 0)",
  "        self.owner_balance = self.state_var(\"owner_balance\", 1000000)",
  "        self.user_balance = self.state_var(\"user_balance\", 0)",
  "        self.user_stake = self.state_var(\"user_stake\", 0)",
  "        self.user_reward = self.state_var(\"user_reward\", 0)",
  "        self.reward_rate = self.state_var(\"reward_rate\", 10)",
  "",
  "    @view_function",
  "    def get_name(self) -> str:",
  "        return self.name",
  "",
  "    @view_function",
  "    def get_symbol(self) -> str:",
  "        return self.symbol",
  "",
  "    @view_function",
  "    def get_decimals(self) -> int:",
  "        return self.decimals",
  "",
  "    @view_function",
  "    def get_total_supply(self) -> int:",
  "        return self.total_supply",
  "",
  "    @view_function",
  "    def balance_of(self, account: int) -> int:",
  "        if account == 1:",
  "            return self.owner_balance",
  "        else:",
  "            return self.user_balance",
  "",
  "    @view_function",
  "    def stake_of(self, account: int) -> int:",
  "        if account == 1:",
  "            return 0",
  "        return self.user_stake",
  "",
  "    @view_function",
  "    def reward_of(self, account: int) -> int:",
  "        if account == 1:",
  "            return 0",
  "        return self.user_reward",
  "",
  "    @view_function",
  "    def get_reward_rate(self) -> int:",
  "        return self.reward_rate",
  "",
  "    @public_function",
  "    def transfer(self, to: int, amount: int):",
  "        if self.is_paused == 1:",
  "            self.event(\"TransferFailed\", \"Contract is paused\")",
  "            return",
  "        if self.owner_balance >= amount:",
  "            self.owner_balance = self.owner_balance - amount",
  "            self.user_balance = self.user_balance + amount",
  "            self.event(\"Transfer\", amount, to)",
  "",
  "    @public_function",
  "    def mint(self, amount: int):",
  "        self.total_supply = self.total_supply + amount",
  "        self.owner_balance = self.owner_balance + amount",
  "        self.event(\"Mint\", amount, self.total_supply)",
  "",
  "    @public_function",
  "    def stake(self, amount: int):",
  "        if self.is_paused == 1:",
  "            self.event(\"StakeFailed\", \"Contract is paused\")",
  "            return",
  "        if self.user_balance >= amount:",
  "            self.user_balance = self.user_balance - amount",
  "            self.user_stake = self.user_stake + amount",
  "            reward = amount * self.reward_rate // 100",
  "            self.user_reward = self.user_reward + reward",
  "            self.event(\"Staked\", amount, reward)",
  "",
  "    @public_function",
  "    def unstake(self, amount: int):",
  "        if self.user_stake >= amount:",
  "            self.user_stake = self.user_stake - amount",
  "            self.user_balance = self.user_balance + amount",
  "            reward = self.user_reward",
  "            self.user_balance = self.user_balance + reward",
  "            self.user_reward = 0",
  "            self.event(\"Unstaked\", amount, reward)",
  "",
  "    @public_function",
  "    def set_reward_rate(self, new_rate: int):",
  "        self.reward_rate = new_rate",
  "        self.event(\"RewardRateUpdated\", new_rate)",
  "",
  "    @public_function",
  "    def pause(self):",
  "        self.is_paused = 1",
  "        self.event(\"ContractPaused\")",
  "",
  "    @public_function",
  "    def unpause(self):",
  "        self.is_paused = 0",
  "        self.event(\"ContractUnpaused\")"]

/-- An election with one vote for each account. -/
def voting : String := ofLines [
  "class VotingContract(PySmartContract):",
  "",
  "    def __init__(self):",
  "        super().__init__()",
  "        self.admin = self.state_var(\"admin\", self.msg_sender())",
  "        self.voting_open = self.state_var(\"voting_open\", True)",
  "        self.candidates = self.state_var(\"candidates\", [])",
  "        self.vote_counts = self.state_var(\"vote_counts\", \x7b\x7d)",
  "        self.has_voted = self.state_var(\"has_voted\", \x7b\x7d)",
  "",
  "    @public_function",
  "    def add_candidate(self, name: str):",
  "        sender = self.msg_sender()",
  "        if sender != self.admin:",
  "            raise Exception(\"Only admin can add candidates!\")",
  "        if name in self.candidates:",
  "            raise Exception(\"Candidate already exists!\")",
  "        self.candidates.append(name)",
  "        self.vote_counts[name] = 0",
  "        self.event(\"CandidateAdded\", name)",
  "",
  "    @public_function",
  "    def vote(self, candidate_name: str):",
  "        sender = self.msg_sender()",
  "        if not self.voting_open:",
  "            raise Exception(\"Voting is closed!\")",
  "        if self.has_voted.get(sender, False):",
  "            raise Exception(\"You already voted!\")",
  "        if candidate_name not in self.candidates:",
  "            raise Exception(\"Candidate does not exist!\")",
  "        self.vote_counts[candidate_name] += 1",
  "        self.has_voted[sender] = True",
  "        self.event(\"VoteCast\", sender, candidate_name)",
  "",
  "    @view_function",
  "    def get_candidates(self) -> list:",
  "        return self.candidates",
  "",
  "    @view_function",
  "    def get_vote_count(self, candidate_name: str) -> int:",
  "        return self.vote_counts.get(candidate_name, 0)",
  "",
  "    @view_function",
  "    def get_winner(self) -> str:",
  "        if not self.candidates:",
  "            return \"No candidates\"",
  "        winner = \"\"",
  "        max_votes = -1",
  "        for candidate in self.candidates:",
  "            votes = self.vote_counts.get(candidate, 0)",
  "            if votes > max_votes:",
  "                max_votes = votes",
  "                winner = candidate",
  "        return winner",
  "",
  "    @view_function",
  "    def is_voting_open(self) -> bool:",
  "        return self.voting_open",
  "",
  "    @view_function",
  "    def did_vote(self, voter: str) -> bool:",
  "        return self.has_voted.get(voter, False)",
  "",
  "    @public_function",
  "    def close_voting(self):",
  "        sender = self.msg_sender()",
  "        if sender != self.admin:",
  "            raise Exception(\"Only admin can close voting!\")",
  "        self.voting_open = False",
  "        self.event(\"VotingClosed\")"]

/-- A token with a balance for each account, minted by its administrator. -/
def mintableToken : String := ofLines [
  "class MintableToken(PySmartContract):",
  "",
  "    def __init__(self):",
  "        super().__init__()",
  "        self.name = self.state_var(\"name\", \"MintableToken\")",
  "        self.symbol = self.state_var(\"symbol\", \"MINT\")",
  "        self.decimals = self.state_var(\"decimals\", 18)",
  "        self.admin = self.state_var(\"admin\", self.msg_sender())",
  "        self.total_supply = self.state_var(\"total_supply\", 0)",
  "        self.balances = self.state_var(\"balances\", \x7b\x7d)",
  "",
  "    @public_function",
  "    def transfer(self, to: str, amount: int):",
  "        sender = self.msg_sender()",
  "        self.require(amount > 0, \"Amount must be positive\")",
  "        sender_balance = self.balances.get(sender, 0)",
  "        self.require(sender_balance >= amount, \"Insufficient balance\")",
  "        self.balances[sender] = sender_balance - amount",
  "        self.balances[to] = self.balances.get(to, 0) + amount",
  "        self.event(\"Transfer\", sender, to, amount)",
  "",
  "    @public_function",
  "    def mint(self, to: str, amount: int):",
  "        sender = self.msg_sender()",
  "        self.require(sender == self.admin, \"Only admin can mint\")",
  "        self.require(amount > 0, \"Mint amount must be positive\")",
  "        self.total_supply = self.total_supply + amount",
  "        self.balances[to] = self.balances.get(to, 0) + amount",
  "        self.event(\"Mint\", to, amount)",
  "",
  "    @view_function",
  "    def balance_of(self, user: str) -> int:",
  "        return self.balances.get(user, 0)",
  "",
  "    @view_function",
  "    def get_total_supply(self) -> int:",
  "        return self.total_supply",
  "",
  "    @view_function",
  "    def get_name(self) -> str:",
  "        return self.name",
  "",
  "    @view_function",
  "    def get_symbol(self) -> str:",
  "        return self.symbol",
  "",
  "    @view_function",
  "    def get_decimals(self) -> int:",
  "        return self.decimals"]

/-- A contract class by its name, with its source. -/
structure Sample where
  name : String
  source : String
  deriving DecidableEq, Repr

def Sample.class? (s : Sample) : Option Simulation.Class :=
  Simulation.Class.ofSource? s.name s.source

def find? (name : String) (samples : List Sample) : Option Sample :=
  samples.find? fun s => s.name == name

/-- The samples that are offered as sources. -/
def shipped : List Sample :=
  [⟨"SimpleStorage", simpleStorage⟩, ⟨"DeFiContract", savingsPool⟩]

/-- The classes that can be simulated without a project. -/
def builtIn : List Sample :=
  shipped ++ [⟨"Counter", ownedCounter⟩, ⟨"BasicToken", basicToken⟩]

/-- The classes of the projects that beginners start from. -/
def starters : List Sample :=
  [⟨"SimpleStorage", simpleStorage⟩, ⟨"Counter", counter⟩, ⟨"BeginnerToken", beginnerToken⟩,
    ⟨"Defi", interestPool⟩, ⟨"StakeToken", stakeToken⟩, ⟨"VotingContract", voting⟩,
    ⟨"MintableToken", mintableToken⟩]

end ContractKit.Samples
