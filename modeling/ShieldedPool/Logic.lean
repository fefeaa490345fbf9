import ShieldedPool.Settlement

/-! ShieldedPoolLogic.sol: settlement reached by DELEGATECALL from the dispatcher, so
`address(this)`, the sender pin and the pool's identity are the dispatcher's. -/

namespace ShieldedPool.Logic
open Evm Exec

/-- Settlement repeats the cheap checks only; frame 0 has verified the proof. -/
def variant (d : Deployment) : Variant where
  poolSender := d.self
  sourceId := d.sourceId
  domain := d.domain
  authenticate := validateSpend d.domain

def call (d : Deployment) (c : Call) : Exec State Reply := dispatch d (variant d) c

end ShieldedPool.Logic
