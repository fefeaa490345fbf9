import ShieldedPool.FrameApproval

/-! SharedPoolSender.yul: a proof-authorized sender apart from the pool, for the
three-frame shape. Every failed check reverts without data. -/

namespace ShieldedPool
open Evm Yul

variable {ω : Type}

/-- `if iszero(eq(value, expected)) { revert(0, 0) }` -/
def demandEq (value : Option Word) (expected : Word) : Program ω Unit := do
  let w ← opcode value
  Exec.revertIf (Op.iszero (Op.eq w expected) ≠ 0) []

/-- `if value { revert(0, 0) }` -/
def demandZero (value : Option Word) : Program ω Unit := do
  let w ← opcode value
  Exec.revertIf (w ≠ 0) []

namespace SharedSender
open PoolYul

/-- `runtime` is the code image and `pool` its tail word. -/
def code (runtime : Bytes) (pool : Word) : Bytes := runtime ++ encodeWord pool

def environment (d : Deployment) (address : Address) (runtime : Bytes) (pool : Word) (c : Call)
    (callee : Address → Bytes → Except Bytes Bytes) : Env where
  address := address
  caller := c.caller
  value := c.value
  data := c.data
  code := code runtime pool
  number := c.number
  chainId := d.chainId
  keccak := d.keccak
  callee := callee

def checkSettleCall (o : Opcodes) : Program ω Unit := do
  let dataLen ← opcode (o.frameParam 2 0x04)
  let head ← opcode (o.frameDataLoad 2 0)
  let selector := head >>> 224
  if dataLen = 548 then do
    Exec.revertIf (Op.iszero (Op.eq selector 0xb9947fa0#256) ≠ 0) []
    demandZero (o.frameDataLoad 2 196)
    demandZero (o.frameDataLoad 2 260)
  else if dataLen = 580 then do
    Exec.revertIf (Op.iszero (Op.eq selector 0xd677b46e#256) ≠ 0) []
    let pub ← opcode (o.frameDataLoad 2 196)
    Exec.revertIf (Op.iszero pub ≠ 0) []
    let recipient ← opcode (o.frameDataLoad 2 548)
    Exec.revertIf (Op.or (Op.iszero recipient) (recipient >>> 160) ≠ 0) []
    demandEq (o.frameDataLoad 2 260) recipient
  else Exec.revert []

/-- The runtime; it returns the scope of the APPROVE it ends in. -/
def runtime (env : Env) (o : Opcodes) : Program ω Word := do
  let pool ← immutableAt env 32
  demandEq (o.txParam 0x02) env.address.word
  demandEq (o.txParam 0x09) 3
  demandZero (o.txParam 0x0A)
  demandEq (o.txParam 0x0B) 1
  demandZero (o.txParam 0x07)
  demandEq (o.txParam 0x0D) 2
  demandZero (o.txParam 0x01)
  demandEq (o.txParam 0x0F) 1
  demandEq (o.frameParam 0 0x00) env.address.word
  demandEq (o.frameParam 0 0x02) 1
  demandEq (o.frameParam 0 0x03) 2
  demandZero (o.frameParam 0 0x04)
  demandEq (o.frameParam 0 0x01) 300000
  demandZero (o.frameParam 0 0x08)
  demandEq (o.frameParam 1 0x02) 1
  demandEq (o.frameParam 1 0x03) 1
  demandEq (o.frameParam 1 0x01) 100000
  demandZero (o.frameParam 1 0x08)
  demandEq (o.frameParam 2 0x00) pool
  demandEq (o.frameParam 2 0x02) 2
  demandZero (o.frameParam 2 0x03)
  demandEq (o.frameParam 2 0x01) 10000000
  demandZero (o.frameParam 2 0x08)
  checkSettleCall o
  let nf1 ← opcode (o.frameDataLoad 2 68)
  let nf2 ← opcode (o.frameDataLoad 2 100)
  let lo := if Op.gt nf1 nf2 ≠ 0 then nf2 else nf1
  let hi := if Op.gt nf1 nf2 ≠ 0 then nf1 else nf2
  demandEq (o.nonceKey 0) lo
  demandEq (o.nonceKey 1) hi
  mstore 0 pool
  mstore 32 0
  let source ← opcode (o.recentRootRef 0 0)
  let own ← keccak256 env 0 64
  Exec.revertIf (Op.iszero (Op.eq source own) ≠ 0) []
  let refRoot ← opcode (o.recentRootRef 2 0)
  let root ← opcode (o.frameDataLoad 2 4)
  Exec.revertIf (Op.iszero (Op.eq refRoot root) ≠ 0) []
  mstore 0 (0x8cc8fe8d#256 <<< 224)
  copyFrameWords o 2 17 4 4
  let ok ← callPure env pool 0 548 0 0
  Exec.revertIf (Op.iszero ok ≠ 0) []
  return 2

/-- One run of the sender's code: the scope it approves, or its revert data. -/
def authorize (env : Env) (o : Opcodes) : Except Bytes Word :=
  match runtime env o (Machine.start ()) with
  | .ok (scope, _) => .ok scope
  | .error data => .error data

end SharedSender

end ShieldedPool
