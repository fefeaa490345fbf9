import ShieldedPool.Evm.Word
import ShieldedPool.Evm.Memory
import ShieldedPool.Evm.Exec
import ShieldedPool.Evm.Yul
import ShieldedPool.Evm.Total
import ShieldedPool.Field.Lucas
import ShieldedPool.Field.Curve
import ShieldedPool.Coins
import ShieldedPool.Merkle.Tree
import ShieldedPool.Merkle.Frontier
import ShieldedPool.Interface
import ShieldedPool.Envelope
import ShieldedPool.Poseidon
import ShieldedPool.Circuit
import ShieldedPool.Settlement
import ShieldedPool.Logic
import ShieldedPool.Reference
import ShieldedPool.FrameApproval
import ShieldedPool.Dispatcher
import ShieldedPool.Monolith
import ShieldedPool.SharedSender
import ShieldedPool.Paymaster
import ShieldedPool.Ledger
import ShieldedPool.Pool
import ShieldedPool.Accounts
import ShieldedPool.Wallet
import ShieldedPool.Verifier
import ShieldedPool.Proofs.Poseidon
import ShieldedPool.Proofs.Circuit
import ShieldedPool.Proofs.Operations
import ShieldedPool.Proofs.Effects
import ShieldedPool.Proofs.PoolTree
import ShieldedPool.Proofs.Planting
import ShieldedPool.Proofs.Approval
import ShieldedPool.Proofs.Proxy
import ShieldedPool.Proofs.FrameProof
import ShieldedPool.Proofs.Envelope
import ShieldedPool.Proofs.Settle
import ShieldedPool.Proofs.Runs
import ShieldedPool.Proofs.Stages
import ShieldedPool.Proofs.Seam
import ShieldedPool.Proofs.Refinement
import ShieldedPool.Proofs.Settling
import ShieldedPool.Proofs.Layout
import ShieldedPool.Proofs.Twin
import ShieldedPool.Proofs.Paymaster
import ShieldedPool.Proofs.Execution
import ShieldedPool.Proofs.Payout
import ShieldedPool.Proofs.Verdict
import ShieldedPool.Proofs.Attribution
import ShieldedPool.Proofs.Lifting
import ShieldedPool.Proofs.Broadcast
import ShieldedPool.Proofs.Builder
import ShieldedPool.Proofs.Jobs
import ShieldedPool.Proofs.Sponsor
import ShieldedPool.Proofs.Credits
import ShieldedPool.Proofs.Indexer
import ShieldedPool.Proofs.Witness
import ShieldedPool.Proofs.Notes
import ShieldedPool.Proofs.Backing
import ShieldedPool.Proofs.Solvency
import ShieldedPool.Proofs.Overflow
import ShieldedPool.Proofs.Standalone
import ShieldedPool.Proofs.Panic
import ShieldedPool.Proofs.Commuting
import ShieldedPool.Proofs.Spendable
import ShieldedPool.Proofs.Verifier
import ShieldedPool.Proofs.Groth16
