import ShieldedPool.SharedSender

/-! ProofPaymaster.yul: the optional external payer of the three-frame shape. It approves
payment for one pool and one sender, when the proof-bound fee covers the maximum cost. -/

namespace ShieldedPool.Paymaster
open Evm Yul PoolYul

variable {ω : Type}

structure Image where
  runtime : Bytes
  pool : Word
  poolSender : Word

def Image.code (image : Image) : Bytes := image.runtime ++ encodeWord image.pool ++ encodeWord image.poolSender

/-- The constructor: both addresses must be nonzero after masking. -/
def construct (runtime : Bytes) (pool poolSender : Word) : Except Bytes Image :=
  let pool := Op.and pool Op.addressMask
  let poolSender := Op.and poolSender Op.addressMask
  if Op.iszero pool ≠ 0 then .error []
  else if Op.iszero poolSender ≠ 0 then .error []
  else .ok { runtime, pool, poolSender }

def environment (d : Deployment) (address : Address) (image : Image) (c : Call) : Env where
  address := address
  caller := c.caller
  value := c.value
  data := c.data
  code := image.code
  number := c.number
  chainId := d.chainId
  keccak := d.keccak
  callee := fun _ _ => .error []

def calldataload (env : Env) (offset : Nat) : Program ω Word := return wordAt env.data offset

/-- The loop over the Spend tuple: frame 2 carries the words of this call. -/
def compareWords (env : Env) (o : Opcodes) : Nat → Nat → Program ω Unit
  | 0, _ => return ()
  | count + 1, offset => do
    let w ← opcode (o.frameDataLoad 2 offset)
    let mine ← calldataload env offset
    Exec.revertIf (Op.iszero (Op.eq w mine) ≠ 0) []
    compareWords env o count (offset + 32)

def checkSettleCall (o : Opcodes) : Program ω Unit := do
  let senderDataLen ← opcode (o.frameParam 2 0x04)
  let head ← opcode (o.frameDataLoad 2 0)
  let senderSelector := head >>> 224
  if senderDataLen = 548 then Exec.revertIf (Op.iszero (Op.eq senderSelector 0xb9947fa0#256) ≠ 0) []
  else if senderDataLen = 580 then Exec.revertIf (Op.iszero (Op.eq senderSelector 0xd677b46e#256) ≠ 0) []
  else Exec.revert []

/-- The pool and its sender, from the end of the code. -/
def configured (env : Env) : Program ω (Word × Word) := do
  copy 0 (slice env.code (env.code.length - 64) 64)
  let poolWord ← mload 0
  let senderWord ← mload 32
  return (Op.and poolWord Op.addressMask, Op.and senderWord Op.addressMask)

/-- The runtime on a call with data, up to the scope of the APPROVE it ends in. -/
def approvePayment (env : Env) (o : Opcodes) : Program ω Word := do
  Exec.revertIf (Op.iszero (Op.eq (BitVec.ofNat 256 env.data.length) 548) ≠ 0) []
  let head ← calldataload env 0
  Exec.revertIf (Op.iszero (Op.eq (head >>> 224) 0x8cc8fe8d#256) ≠ 0) []
  let (pool, poolSender) ← configured env
  demandEq (o.txParam 0x02) poolSender
  let nf1 ← calldataload env 68
  let nf2 ← calldataload env 100
  let fee ← calldataload env 228
  let maxCost ← opcode (o.txParam 0x06)
  Exec.revertIf (Op.lt fee maxCost ≠ 0) []
  let lo := if Op.gt nf1 nf2 ≠ 0 then nf2 else nf1
  let hi := if Op.gt nf1 nf2 ≠ 0 then nf1 else nf2
  demandEq (o.txParam 0x0D) 2
  demandZero (o.txParam 0x01)
  demandEq (o.nonceKey 0) lo
  demandEq (o.nonceKey 1) hi
  demandEq (o.txParam 0x0F) 1
  mstore 0 pool
  mstore 32 0
  let source ← opcode (o.recentRootRef 0 0)
  let own ← keccak256 env 0 64
  Exec.revertIf (Op.iszero (Op.eq source own) ≠ 0) []
  let root ← calldataload env 4
  demandEq (o.recentRootRef 2 0) root
  demandEq (o.txParam 0x09) 3
  demandEq (o.txParam 0x0A) 1
  demandEq (o.txParam 0x0B) 1
  demandZero (o.txParam 0x07)
  demandEq (o.frameParam 0 0x00) poolSender
  demandEq (o.frameParam 0 0x02) 1
  demandEq (o.frameParam 0 0x03) 2
  demandZero (o.frameParam 0 0x04)
  demandEq (o.frameParam 0 0x01) 300000
  demandZero (o.frameParam 0 0x08)
  demandEq (o.frameParam 1 0x00) env.address.word
  demandEq (o.frameParam 1 0x02) 1
  demandEq (o.frameParam 1 0x03) 1
  demandEq (o.frameParam 1 0x04) 548
  demandEq (o.frameParam 1 0x01) 100000
  demandZero (o.frameParam 1 0x08)
  demandEq (o.frameParam 2 0x00) pool
  demandEq (o.frameParam 2 0x02) 2
  demandZero (o.frameParam 2 0x03)
  demandEq (o.frameParam 2 0x01) 10000000
  demandZero (o.frameParam 2 0x08)
  checkSettleCall o
  compareWords env o 17 4
  return 1

/-- One run of the paymaster's code. Empty calldata is funding and stops without APPROVE. -/
def run (env : Env) (o : Opcodes) : Except Bytes (Option Word) :=
  if env.data = [] then .ok none
  else match approvePayment env o (Machine.start ()) with
    | .ok (scope, _) => .ok (some scope)
    | .error data => .error data

end ShieldedPool.Paymaster
