import ContractKit.Deployment.Script
import ContractKit.Main
import ContractKit.Proofs.Command.Arguments
import ContractKit.Proofs.Deployment.Outcomes
import ContractKit.Proofs.Evm.Guards
import ContractKit.Proofs.Evm.Jumps
import ContractKit.Proofs.Evm.LostWrites
import ContractKit.Proofs.Evm.OperandOrder
import ContractKit.Proofs.Evm.RuntimeOffset
import ContractKit.Proofs.Evm.SizeLimits
import ContractKit.Proofs.Layout.MethodOrder
import ContractKit.Proofs.Project.EachForItself
import ContractKit.Proofs.Project.Undisturbed
import ContractKit.Proofs.Reuse
import ContractKit.Proofs.Samples.InterestPool
import ContractKit.Proofs.Samples.StakeToken
import ContractKit.Proofs.Samples.Storage
import ContractKit.Proofs.Samples.Tokens
import ContractKit.Proofs.Samples.Voting
import ContractKit.Proofs.Wallet.Shown
import ContractKit.Staking.Walkthrough
