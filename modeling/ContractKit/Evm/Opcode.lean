/-!
# Instructions of the virtual machine

The instructions that the code generator can write, with their bytes.
-/

namespace ContractKit.Evm

/-- An instruction by its name. -/
inductive Opcode where
  | push1 | push2 | push4 | push32 | pop | dup1 | dup2 | swap1
  | add | sub | mul | div | mod | eq | lt | gt | and | shr | isZero
  | sload | sstore | mstore | mload
  | codeCopy | codeSize
  | callDataSize | callDataLoad | callDataCopy
  | jump | jumpI | jumpDest | stop | return_ | revert
  | call | callValue | caller | gas
  deriving DecidableEq, Repr, Inhabited

namespace Opcode

def byte : Opcode → UInt8
  | .push1 => 0x60
  | .push2 => 0x61
  | .push4 => 0x63
  | .push32 => 0x7f
  | .pop => 0x50
  | .dup1 => 0x80
  | .dup2 => 0x81
  | .swap1 => 0x90
  | .add => 0x01
  | .sub => 0x03
  | .mul => 0x02
  | .div => 0x04
  | .mod => 0x06
  | .eq => 0x14
  | .lt => 0x10
  | .gt => 0x11
  | .and => 0x16
  | .shr => 0x1c
  | .isZero => 0x15
  | .sload => 0x54
  | .sstore => 0x55
  | .mstore => 0x52
  | .mload => 0x51
  | .codeCopy => 0x39
  | .codeSize => 0x38
  | .callDataSize => 0x36
  | .callDataLoad => 0x35
  | .callDataCopy => 0x37
  | .jump => 0x56
  | .jumpI => 0x57
  | .jumpDest => 0x5b
  | .stop => 0x00
  | .return_ => 0xf3
  | .revert => 0xfd
  | .call => 0xf1
  | .callValue => 0x34
  | .caller => 0x33
  | .gas => 0x5a

def mnemonics : List (String × Opcode) :=
  [("PUSH1", .push1), ("PUSH2", .push2), ("PUSH4", .push4), ("PUSH32", .push32),
   ("POP", .pop), ("DUP1", .dup1), ("DUP2", .dup2), ("SWAP1", .swap1), ("ADD", .add),
   ("SUB", .sub), ("MUL", .mul), ("DIV", .div), ("MOD", .mod), ("EQ", .eq), ("LT", .lt),
   ("GT", .gt), ("AND", .and), ("SHR", .shr), ("ISZERO", .isZero), ("SLOAD", .sload),
   ("SSTORE", .sstore), ("MSTORE", .mstore), ("MLOAD", .mload), ("CODECOPY", .codeCopy),
   ("CODESIZE", .codeSize), ("CALLDATASIZE", .callDataSize),
   ("CALLDATALOAD", .callDataLoad), ("CALLDATACOPY", .callDataCopy), ("JUMP", .jump),
   ("JUMPI", .jumpI), ("JUMPDEST", .jumpDest), ("STOP", .stop), ("RETURN", .return_),
   ("REVERT", .revert), ("CALL", .call), ("CALLVALUE", .callValue), ("CALLER", .caller),
   ("GAS", .gas)]

def ofMnemonic? (s : String) : Option Opcode :=
  (mnemonics.find? fun (m, _) => m == s).map Prod.snd

end Opcode

end ContractKit.Evm
