import ShieldedPool.Envelope

/-! The frame-0 code that ShieldedPoolDispatcher.yul and ShieldedPool.yul share word for
word: the pool's identity, its tail immutables, and every check of `verifyFrameApprove`
but the proof. -/

namespace ShieldedPool
open Evm Yul

variable {ω : Type}

/-- `if iszero(eq(value, expected)) { fail(e) }` -/
def requireEq (e : Error) (value : Option Word) (expected : Word) : Program ω Unit := do
  let w ← opcode value
  failIf e.selector (Op.iszero (Op.eq w expected))

/-- `if value { fail(e) }` -/
def requireZero (e : Error) (value : Option Word) : Program ω Unit := do
  let w ← opcode value
  failIf e.selector w

/-- `if iszero(lt(value, bound)) { fail(e) }` -/
def requireBelow (e : Error) (value bound : Word) : Program ω Unit :=
  failIf e.selector (Op.iszero (Op.lt value bound))

namespace PoolYul

/-- An address in the 32 code bytes that start `fromEnd` before the end. -/
def immutableAt (env : Env) (fromEnd : Nat) : Program ω Word := do
  copy 0x00 (slice env.code (env.code.length - fromEnd) 32)
  let w ← mload 0x00
  return Op.and w Op.addressMask

def sourceId (env : Env) : Program ω Word := do
  mstore 0x00 env.address.word
  mstore 0x20 0
  keccak256 env 0x00 0x40

def domainFor (env : Env) (chainId source : Word) : Program ω Word := do
  mstore 0x00 domainTag
  mstore 0x20 chainId
  mstore 0x40 source
  let digest ← keccak256 env 0x00 0x60
  return digest % fieldP

def domainVal (env : Env) : Program ω Word := do
  let src ← sourceId env
  domainFor env env.chainId src

/-- Words of the frame's data, from `source` on, laid out in memory from `target` on. -/
def copyFrameWords (o : Opcodes) (frame : Nat) : Nat → Nat → Nat → Program ω Unit
  | 0, _, _ => return ()
  | count + 1, source, target => do
    let w ← opcode (o.frameDataLoad frame source)
    mstore target w
    copyFrameWords o frame count (source + 32) (target + 32)

/-- The static STATICCALL input `verifyProof(pA, pB, pC, input)` after its proof words. -/
def storeSignals (offset : Nat) (nf1 nf2 oc1 oc2 root dom pub fee ctx : Word) : Program ω Unit := do
  mstore (offset + 0x104) nf1
  mstore (offset + 0x124) nf2
  mstore (offset + 0x144) oc1
  mstore (offset + 0x164) oc2
  mstore (offset + 0x184) root
  mstore (offset + 0x1a4) dom
  mstore (offset + 0x1c4) pub
  mstore (offset + 0x1e4) fee
  mstore (offset + 0x204) ctx

/-- Canonicity and range, in the order in which the Yul code tests them. -/
def checkRanges (root nf1 nf2 oc1 oc2 dom ctx pub fee : Word) : Program ω Unit := do
  requireBelow .notCanonical root fieldP
  requireBelow .notCanonical nf1 fieldP
  requireBelow .notCanonical nf2 fieldP
  requireBelow .notCanonical oc1 fieldP
  requireBelow .notCanonical oc2 fieldP
  requireBelow .notCanonical dom fieldP
  requireBelow .notCanonical ctx fieldP
  requireBelow .valueTooLarge pub maxValue
  requireBelow .valueTooLarge fee maxValue

/-- The verifier call from memory at `m`, and the test of its one-word answer. -/
def callVerifier (env : Env) (verifier : Word) (m : Nat) : Program ω Unit := do
  let ok ← callPure env verifier m 0x224 0x00 0x20
  failIf Error.proofInvalid.selector (Op.iszero ok)
  let answer ← mload 0x00
  failIf Error.proofInvalid.selector (Op.iszero (Op.eq answer 1))

/-- `switch frames`: which frame settles, and whether the pool pays. -/
def shapeOf (frames : Word) : Program ω (Nat × Bool) :=
  if frames = 2 then return (1, true)
  else if frames = 3 then return (2, false)
  else fail Error.notFaithfulShape.selector

/-- Frame 0's scope and gas, and the payment frame when there is one. -/
def checkPaymentShape (o : Opcodes) (selfPay : Bool) : Program ω Unit :=
  if selfPay then do
    requireEq .notFaithfulShape (o.frameParam 0 0x03) 3
    requireEq .notFaithfulShape (o.frameParam 0 0x01) 350000
  else do
    requireEq .notFaithfulShape (o.frameParam 0 0x03) 2
    requireEq .notFaithfulShape (o.frameParam 0 0x01) 300000
    requireEq .notFaithfulShape (o.frameParam 1 0x02) 1
    requireEq .notFaithfulShape (o.frameParam 1 0x03) 1
    requireEq .notFaithfulShape (o.frameParam 1 0x01) 100000
    requireZero .notFaithfulShape (o.frameParam 1 0x08)

/-- `switch dataLen`: the final frame is exactly a transfer or a withdraw. -/
def checkSettleCall (o : Opcodes) (settleIndex : Nat) : Program ω Unit := do
  let dataLen ← opcode (o.frameParam settleIndex 0x04)
  let head ← opcode (o.frameDataLoad settleIndex 0)
  let selector := head >>> 224
  if dataLen = 548 then do
    failIf Error.notFaithfulShape.selector (Op.iszero (Op.eq selector 0xb9947fa0#256))
    requireZero .transferShape (o.frameDataLoad settleIndex 196)
    requireZero .transferShape (o.frameDataLoad settleIndex 260)
  else if dataLen = 580 then do
    failIf Error.notFaithfulShape.selector (Op.iszero (Op.eq selector 0xd677b46e#256))
    let pub ← opcode (o.frameDataLoad settleIndex 196)
    failIf Error.withdrawShape.selector (Op.iszero pub)
    let recipient ← opcode (o.frameDataLoad settleIndex 548)
    failIf Error.withdrawShape.selector (Op.or (Op.iszero recipient) (recipient >>> 160))
    requireEq .ctxDoesNotNameRecipient (o.frameDataLoad settleIndex 260) recipient
  else fail Error.notFaithfulShape.selector

/-- The nonce keys are the sorted nullifiers, and the reference names this pool's source
and the proven root. -/
def checkBindings (env : Env) (o : Opcodes) (settleIndex : Nat) : Program ω Unit := do
  let nf1 ← opcode (o.frameDataLoad settleIndex 68)
  let nf2 ← opcode (o.frameDataLoad settleIndex 100)
  let lo := if Op.gt nf1 nf2 ≠ 0 then nf2 else nf1
  let hi := if Op.gt nf1 nf2 ≠ 0 then nf1 else nf2
  requireEq .keySetMismatch (o.nonceKey 0) lo
  requireEq .keySetMismatch (o.nonceKey 1) hi
  let source ← opcode (o.recentRootRef 0 0)
  let own ← sourceId env
  failIf Error.rootNotBoundToReference.selector (Op.iszero (Op.eq source own))
  let refRoot ← opcode (o.recentRootRef 2 0)
  let root ← opcode (o.frameDataLoad settleIndex 4)
  failIf Error.rootNotBoundToReference.selector (Op.iszero (Op.eq refRoot root))

/-- The envelope's fields, frame 0, the payment frame if any, and the frame that settles. -/
def checkFrames (env : Env) (o : Opcodes) (settleIndex : Nat) (selfPay : Bool) : Program ω Unit := do
  requireZero .keySetMismatch (o.txParam 0x0A)
  requireEq .rootNotBoundToReference (o.txParam 0x0B) 1
  requireZero .notFaithfulShape (o.txParam 0x07)
  requireEq .keySetMismatch (o.txParam 0x0D) 2
  requireZero .notFaithfulShape (o.txParam 0x01)
  requireEq .notFaithfulShape (o.txParam 0x0F) 1
  requireEq .notFaithfulShape (o.frameParam 0 0x00) env.address.word
  requireEq .notFaithfulShape (o.frameParam 0 0x02) 1
  requireZero .notFaithfulShape (o.frameParam 0 0x04)
  requireZero .notFaithfulShape (o.frameParam 0 0x08)
  checkPaymentShape o selfPay
  requireEq .notFaithfulShape (o.frameParam settleIndex 0x00) env.address.word
  requireEq .notFaithfulShape (o.frameParam settleIndex 0x02) 2
  requireZero .notFaithfulShape (o.frameParam settleIndex 0x03)
  requireEq .notFaithfulShape (o.frameParam settleIndex 0x01) 10000000
  requireZero .notFaithfulShape (o.frameParam settleIndex 0x08)

/-- `verifyFrameApprove` around the given proof check; it returns the scope of the APPROVE
it ends in. -/
def verifyFrameApprove (env : Env) (o : Opcodes) (checkProof : Nat → Program ω Unit) : Program ω Word := do
  requireEq .notFaithfulShape (o.txParam 0x02) env.address.word
  let frames ← opcode (o.txParam 0x09)
  let (settleIndex, selfPay) ← shapeOf frames
  checkFrames env o settleIndex selfPay
  checkSettleCall o settleIndex
  checkBindings env o settleIndex
  checkProof settleIndex
  if selfPay then do
    let fee ← opcode (o.frameDataLoad settleIndex 228)
    let maxCost ← opcode (o.txParam 0x06)
    failIf Error.feeBelowMaxCost.selector (Op.lt fee maxCost)
    return 3
  else return 2

end PoolYul

end ShieldedPool
