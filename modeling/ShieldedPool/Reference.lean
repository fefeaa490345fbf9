import ShieldedPool.Settlement

/-! ShieldedPool.sol, the standalone pool: its sender and its identity are immutables
fixed by the constructor, and settlement verifies the Groth16 proof itself. -/

namespace ShieldedPool.Reference
open Evm Exec

structure Immutables where
  poolSender : Address
  probe : Address
  verifier : Address
  sourceId : Word
  domain : Word

/-- The constructor, in a world where `codeLength` says how long an account's code is. -/
def construct (d : Deployment) (c : Call) (codeLength : Address → Nat) (poolSender probe verifier : Address) :
    Exec State Immutables := do
  Error.invalidPoolSender.throwIf (poolSender = 0)
  Error.invalidProbe.throwIf (probe = 0 ∨ codeLength probe = 0)
  Error.invalidVerifier.throwIf (verifier = 0 ∨ codeLength verifier = 0)
  update fun s => { s with currentRoot := zeros depth }
  publishRoot c
  return { poolSender, probe, verifier, sourceId := d.sourceId, domain := d.domainFor d.chainId d.sourceId }

def variant (d : Deployment) (r : Immutables) : Variant where
  poolSender := r.poolSender
  sourceId := r.sourceId
  domain := r.domain
  authenticate := verifyProof d r.domain

/-- `POOL_SENDER()`, the one getter ShieldedPoolLogic.sol does not have. -/
def poolSenderSelector : Word := 0xa8a5337b#256

def call (d : Deployment) (r : Immutables) (c : Call) : Exec State Reply :=
  let own := { d with probe := r.probe, verifier := r.verifier }
  if 4 ≤ c.data.length ∧ wordAt c.data 0 >>> 224 = poolSenderSelector then do
    revertIf (c.value ≠ 0) []
    returnWord r.poolSender.word
  else dispatch own (variant own r) c

end ShieldedPool.Reference
