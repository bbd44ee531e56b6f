import ContractKit.Project.Environment

/-!
# New projects

A new project has directories for contracts, artifacts and scripts, a configuration for the
test network, one contract in each language and a script that deploys.
-/

namespace ContractKit.Project

/-- The text of some lines, parted by line breaks. -/
def joinLines (lines : List String) : String := "\n".intercalate lines

def newConfig : Json :=
  .obj [("network", .str "fuji"), ("rpc_url", .str Network.fuji.rpcUrl),
    ("chain_id", .int Network.fuji.chainId), ("explorer_api_key", .str "")]

def sampleContract : String :=
  joinLines [
    "from avax_cli.py_contracts import PySmartContract",
    "",
    "class SimpleStorage(PySmartContract):",
    "    \"\"\"Simple storage contract written in Python.\"\"\"",
    "    ",
    "    def __init__(self):",
    "        super().__init__()",
    "        self.stored_data = self.state_var(\"stored_data\", 0)",
    "    ",
    "    @public_function",
    "    def set(self, value: int):",
    "        \"\"\"Set stored data.\"\"\"",
    "        self.stored_data = value",
    "        self.event(\"DataStored\", value)",
    "    ",
    "    @view_function  ",
    "    def get(self) -> int:",
    "        \"\"\"Get stored data.\"\"\"",
    "        return self.stored_data",
    ""]

def sampleSolidity : String :=
  joinLines [
    "// SPDX-License-Identifier: MIT",
    "pragma solidity ^0.8.19;",
    "",
    "contract SimpleStorageSol \x7b",
    "    uint256 private storedData;",
    "    ",
    "    event DataStored(uint256 indexed value, address indexed sender);",
    "    ",
    "    constructor(uint256 _initialValue) \x7b",
    "        storedData = _initialValue;",
    "    \x7d",
    "    ",
    "    function set(uint256 _value) public \x7b",
    "        storedData = _value;",
    "        emit DataStored(_value, msg.sender);",
    "    \x7d",
    "    ",
    "    function get() public view returns (uint256) \x7b",
    "        return storedData;",
    "    \x7d",
    "\x7d"]

def deployScript (project : String) : String :=
  joinLines [
    "#!/usr/bin/env python3",
    "\"\"\"Deploy script for " ++ project ++ " contracts.\"\"\"",
    "",
    "import json",
    "import os",
    "from pathlib import Path",
    "",
    "from avax_cli.deployer import deploy_contract",
    "from avax_cli.wallet import WalletManager",
    "",
    "",
    "def main():",
    "    \"\"\"Deploy SimpleStorage contract to Avalanche.\"\"\"",
    "    # Load configuration",
    "    with open(\"avax_config.json\") as f:",
    "        config = json.load(f)",
    "    ",
    "    # Initialize wallet",
    "    wallet = WalletManager()",
    "    ",
    "    # Deploy contract with constructor parameter",
    "    constructor_args = [42]  # Initial value for SimpleStorage",
    "    ",
    "    result = deploy_contract(",
    "        contract_name=\"SimpleStorage\",",
    "        constructor_args=constructor_args,",
    "        config=config,",
    "        wallet=wallet",
    "    )",
    "    ",
    "    if result:",
    "        print(f\"Contract deployed successfully!\")",
    "        print(f\"Address: \x7bresult['address']\x7d\")",
    "        print(f\"Transaction: \x7bresult['tx_hash']\x7d\")",
    "        print(f\"Gas used: \x7bresult['gas_used']\x7d\")",
    "",
    "",
    "if __name__ == \"__main__\":",
    "    main()",
    ""]

/-- What a user is told after a project is made. -/
def welcome (project : String) : String :=
  joinLines [
    s!"[green]✓[/green] Project '{project}' initialized successfully!",
    "",
    "[yellow]Next steps:[/yellow]",
    s!"1. cd {project}",
    "2. avax-cli wallet new  # Create a new wallet",
    "3. avax-cli compile     # Compile contracts (Python + Solidity)",
    "4. avax-cli deploy SimpleStorage  # Deploy Python contract to Fuji testnet",
    "5. avax-cli deploy SimpleStorageSol  # Deploy Solidity contract"]

/-- Makes a project.  One that is there is only changed if that is asked for. -/
def create (name : String) (force : Bool) : SessionM Unit := do
  let project := Path.ofText name
  if (← exists? project) && !force then
    report s!"[red]Error:[/red] Project '{name}' already exists. Use --force to overwrite."
    throw (.exit 1)
  makeDirectory project
  makeDirectory (project.join contractsDirectory)
  makeDirectory (project.join "build")
  makeDirectory (project.join "scripts")
  writeDocument (project.join configFile).text newConfig
  writeText ((project.join contractsDirectory).join "SimpleStorage.py").text sampleContract
  writeText ((project.join contractsDirectory).join "SimpleStorage.sol").text sampleSolidity
  let script := ((project.join "scripts").join "deploy.py").text
  writeText script (deployScript name)
  setMode script 0o755
  reportLine (.panel "Project Initialized" (welcome name))

end ContractKit.Project
