import ShieldedPool.FrameApproval
import ShieldedPool.Logic

/-! ShieldedPoolDispatcher.yul, the production pool: frame 0 verifies and approves, and
any other call goes to ShieldedPoolLogic.sol by DELEGATECALL in the pool's own storage. -/

namespace ShieldedPool.Dispatcher
open Evm Yul PoolYul

variable {ω : Type}

/-- The runtime image, and the implementation its constructor argument named. -/
structure Image where
  runtime : Bytes
  impl : Address

/-- The deployed code: the runtime and its two tail words. -/
def Image.code (image : Image) (d : Deployment) : Bytes :=
  image.runtime ++ encodeWord image.impl.word ++ encodeWord d.verifier.word

def environment (d : Deployment) (image : Image) (c : Call) : Env where
  address := d.self
  caller := c.caller
  value := c.value
  data := c.data
  code := image.code d
  number := c.number
  chainId := d.chainId
  keccak := d.keccak
  callee := fun target data => if target = d.verifier then .ok (encodeWord (flag (d.verify data))) else .error []

/-- The constructor: seed the root, publish it, and leave the rest of storage zero. -/
def construct (c : Call) : Exec State Unit := do
  Exec.update fun s => { s with currentRoot := zeroRoot }
  let root ← Exec.read State.currentRoot
  Error.rootPublishFailed.throwIf (c.publishes (publication root) = false)
  Exec.update fun s => s.publish root

def impl (env : Env) : Program ω Word := immutableAt env 64

def verifierAddr (env : Env) : Program ω Word := immutableAt env 32

/-- The proof check over the settle frame's Spend tuple, inline in frame 0. -/
def verifyFrameProof (env : Env) (o : Opcodes) (settleIndex : Nat) : Program ω Unit := do
  let root ← opcode (o.frameDataLoad settleIndex 4)
  let dom ← opcode (o.frameDataLoad settleIndex 36)
  let nf1 ← opcode (o.frameDataLoad settleIndex 68)
  let nf2 ← opcode (o.frameDataLoad settleIndex 100)
  let oc1 ← opcode (o.frameDataLoad settleIndex 132)
  let oc2 ← opcode (o.frameDataLoad settleIndex 164)
  let pub ← opcode (o.frameDataLoad settleIndex 196)
  let fee ← opcode (o.frameDataLoad settleIndex 228)
  let ctx ← opcode (o.frameDataLoad settleIndex 260)
  failIf Error.zeroNullifier.selector (Op.iszero nf1)
  failIf Error.zeroNullifier.selector (Op.iszero nf2)
  let own ← domainVal env
  failIf Error.invalidDomain.selector (Op.iszero (Op.eq dom own))
  checkRanges root nf1 nf2 oc1 oc2 dom ctx pub fee
  mstore 0x80 (0xc542c93b#256 <<< 224)
  copyFrameWords o settleIndex 8 292 (0x80 + 0x04)
  storeSignals 0x80 nf1 nf2 oc1 oc2 root dom pub fee ctx
  let ver ← verifierAddr env
  callVerifier env ver 0x80

def verifyFrameApprove (env : Env) (o : Opcodes) : Program ω Word :=
  PoolYul.verifyFrameApprove env o (verifyFrameProof env o)

/-- An empty call: the scope of the APPROVE it reaches, or its revert data. -/
def authorize (d : Deployment) (image : Image) (c : Call) (o : Opcodes) : Except Bytes Word :=
  match verifyFrameApprove (environment d image c) o (Machine.start ()) with
  | .ok (scope, _) => .ok scope
  | .error data => .error data

/-- The end of the proxy, once the DELEGATECALL has succeeded or failed with `out`. -/
def relay (ok : Bool) (out : Bytes) : Program ω Bytes := do
  Exec.update fun m => { m with returndata := out }
  let data ← returndata
  copy 0x00 data
  if ok then memoryRange 0x00 data.length else revertRange 0x00 data.length

/-- DELEGATECALL: the target's code runs on the pool's storage with the caller's context. -/
def delegatecall (codeAt : Address → Call → Exec State Reply) (c : Call) (target : Word) (size : Nat) :
    Program State Reply := do
  let data ← memoryRange 0x00 size
  fun m => match codeAt (Address.ofWord target) { c with data } m.world with
    | .ok (.returned out, world) => (do let bytes ← relay true out; return Reply.returned bytes) { m with world }
    | .ok (.payout who amount, world) => .ok (.payout who amount, { m with world })
    | .error out => (do let bytes ← relay false out; return Reply.returned bytes) m

/-- The one account with code the proxy can reach. -/
def codeAt (d : Deployment) (image : Image) (target : Address) (c : Call) : Exec State Reply :=
  if target = image.impl then Logic.call d c else returnNothing

def proxy (d : Deployment) (image : Image) (c : Call) : Program State Reply := do
  let target ← impl (environment d image c)
  copy 0x00 c.data
  delegatecall (codeAt d image) c target c.data.length

/-- A call with data, run on the pool's storage. -/
def call (d : Deployment) (image : Image) (c : Call) : Exec State Reply :=
  fun s => match proxy d image c (Machine.start s) with
    | .ok (reply, m) => .ok (reply, m.world)
    | .error data => .error data

/-- The implementation finishes its claim and the proxy passes the outcome on. -/
def resume (accepted : Bool) : Except Bytes Bytes :=
  let ended : Program Unit Bytes := match finishClaim accepted with
    | .ok out => relay true out
    | .error out => relay false out
  match ended (Machine.start ()) with
  | .ok (out, _) => .ok out
  | .error data => .error data

end ShieldedPool.Dispatcher
