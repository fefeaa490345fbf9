import ShieldedPool.FrameApproval
import ShieldedPool.Settlement

/-! ShieldedPool.yul, the whole pool as one hand-written Yul object: scratch memory, raw
storage words and raw logs, as its code uses them. -/

namespace ShieldedPool.Monolith
open Evm Yul PoolYul

/-- A storage location: a numbered slot, or a mapping entry, whose keccak-derived slot
number stands for its key and its base slot. -/
inductive Loc where
  | slot (n : Word)
  | map (base key : Word)
  deriving DecidableEq, Repr

structure Log where
  topics : List Word
  data : Bytes
  deriving DecidableEq, Repr

structure World where
  storage : Loc → Word
  logs : List Log
  published : List Bytes

/-- The runtime image and the Poseidon libraries of the constructor's tail. -/
structure Image where
  runtime : Bytes
  poseidonT3 : Address
  poseidonT4 : Address

def Image.code (image : Image) (d : Deployment) : Bytes :=
  image.runtime ++ encodeWord image.poseidonT3.word ++ encodeWord image.poseidonT4.word ++
    encodeWord d.verifier.word ++ encodeWord d.probe.word

def hash2Selector : Word := 0x511c53ff#256

def hash3Selector : Word := 0x2dbf86c6#256

/-- The contracts the pool calls, each answering the one function the pool uses. -/
def externals (d : Deployment) (image : Image) (c : Call) (target : Address) (data : Bytes) : Except Bytes Bytes :=
  if target = image.poseidonT3 ∧ data.take 4 = selectorBytes hash2Selector then
    .ok (encodeWord (d.hash2 (wordAt data 4) (wordAt data 36)))
  else if target = image.poseidonT4 ∧ data.take 4 = selectorBytes hash3Selector then
    .ok (encodeWord (d.hash3 (wordAt data 4) (wordAt data 36) (wordAt data 68)))
  else if target = d.verifier ∧ data.take 4 = selectorBytes 0xc542c93b#256 then
    .ok (encodeWord (flag (d.verify data)))
  else if target = d.probe ∧ data = [] then
    match c.probe with
    | some ret => .ok ret
    | none => .error []
  else .error []

def environment (d : Deployment) (image : Image) (c : Call) : Env where
  address := d.self
  caller := c.caller
  value := c.value
  data := c.data
  code := image.code d
  number := c.number
  chainId := d.chainId
  keccak := d.keccak
  callee := externals d image c

variable (env : Env)

def calldataload {ω : Type} (offset : Nat) : Program ω Word := return wordAt env.data offset

def log2 (offset size : Nat) (topic arg : Word) : Program World Unit := do
  let data ← memoryRange offset size
  Exec.update fun m => { m with world := { m.world with logs := m.world.logs ++ [⟨[topic, arg], data⟩] } }

def leafAppendedTopic : Word := 0xfabf38c5739db32d58c40511e4e5842cad3db03f7058bffea44ce500c8664106#256

def noteSpentTopic : Word := 0xd13faa8100906cf559aebacf9c16532cfc9708645c198c8f15798ee049dbcfc1#256

def withdrawnTopic : Word := 0x7084f5476618d8e60b11ef0d7d3f06914655adb8793e28ff7f018d4c76d505d5#256

def feePaidTopic : Word := 0x075a2720282fdf622141dae0b048ef90a21a7e57c134c76912d19d006b3b3f6f#256

def withdrawalCreditedTopic : Word := 0x459f560336b72d57e46610439b7c1a8426cf7b7a2a0428d5fb5c7b0b7528b60d#256

def feeCreditedTopic : Word := 0x45a4008fdcdf7099dada51fcbfc5c09dc509d6c44e84ba8f052a166eb1d11adf#256

def emitLeafAppended (cm index newRoot : Word) : Program World Unit := do
  mstore 0x00 index
  mstore 0x20 newRoot
  mstore 0x40 env.number
  log2 0x00 0x60 leafAppendedTopic cm

def emitNoteSpent (nf : Word) : Program World Unit := log2 0x00 0x00 noteSpentTopic nf

/-- The four events that carry one amount. -/
def emitAmount (topic who amount : Word) : Program World Unit := do
  mstore 0x00 amount
  log2 0x00 0x20 topic who

def emitWithdrawn (who amount : Word) : Program World Unit := emitAmount withdrawnTopic who amount

def emitFeePaid (who amount : Word) : Program World Unit := emitAmount feePaidTopic who amount

def emitWithdrawalCredited (who amount : Word) : Program World Unit := emitAmount withdrawalCreditedTopic who amount

def emitFeeCredited (who amount : Word) : Program World Unit := emitAmount feeCreditedTopic who amount

def poseidonT3 : Program World Word := immutableAt env 128

def poseidonT4 : Program World Word := immutableAt env 96

def verifierAddr : Program World Word := immutableAt env 64

def probeAddr : Program World Word := immutableAt env 32

def hash2 (x0 x1 : Word) : Program World Word := do
  let lib ← poseidonT3 env
  mstore 0x00 (hash2Selector <<< 224)
  mstore 0x04 x0
  mstore 0x24 x1
  let ok ← callPure env lib 0x00 0x44 0x00 0x20
  Exec.revertIf (Op.iszero ok ≠ 0) []
  mload 0x00

def hash3 (x0 x1 x2 : Word) : Program World Word := do
  let lib ← poseidonT4 env
  mstore 0x00 (hash3Selector <<< 224)
  mstore 0x04 x0
  mstore 0x24 x1
  mstore 0x44 x2
  let ok ← callPure env lib 0x00 0x64 0x00 0x20
  Exec.revertIf (Op.iszero ok ≠ 0) []
  mload 0x00

/-- The switch over the same constants as `_zeros`; any other level reverts. -/
def zerosAt (l : Word) : Program World Word :=
  if l.toNat ≤ depth then return zeros l.toNat else Exec.revert []

def sload (loc : Loc) : Program World Word := Exec.read fun m => m.world.storage loc

def sstore (loc : Loc) (w : Word) : Program World Unit :=
  Exec.update fun m => { m with world := { m.world with storage := Function.update m.world.storage loc w } }

def mapSlot (key base : Word) : Program World Loc := do
  mstore 0x00 key
  mstore 0x20 base
  let k ← mload 0x00
  let b ← mload 0x20
  return .map b k

def isLeaf (cm : Word) : Program World Word := do
  let loc ← mapSlot cm 23
  sload loc

def setLeaf (cm : Word) : Program World Unit := do
  let loc ← mapSlot cm 23
  sstore loc 1

def withdrawalCredit (a : Word) : Program World Word := do
  let loc ← mapSlot a 24
  sload loc

def feeCredit (a : Word) : Program World Word := do
  let loc ← mapSlot a 25
  sload loc

def ctxFor (a : Word) : Word := Op.and a Op.addressMask

/-- The loop of `insert`; a word has no more ones than the fuel has rounds. -/
def absorb : Nat → Word → Word → Word → Program World (Word × Word)
  | 0, _, l, node => return (l, node)
  | fuel + 1, idx, l, node =>
    if Op.eq (Op.and idx 1) 1 ≠ 0 then do
      let left ← sload (.slot l)
      let parent ← hash2 env left node
      absorb fuel (idx >>> 1) (l + 1) parent
    else return (l, node)

def insert (cm : Word) : Program World Word := do
  let index ← sload (.slot 21)
  failIf Error.treeFull.selector (Op.iszero (Op.lt index (1#256 <<< depth)))
  sstore (.slot 21) (index + 1)
  setLeaf cm
  let (l, node) ← absorb env 256 index 0 cm
  sstore (.slot l) node
  return index

/-- The loop of `computeRoot`, with `rounds` rounds to go. -/
def foldFrontier : Nat → Word → Word → Word → Program World Word
  | 0, _, _, node => return node
  | rounds + 1, l, idx, node =>
    if Op.and idx 1 = 0 then do
      let right ← zerosAt l
      let parent ← hash2 env node right
      foldFrontier rounds (l + 1) (idx >>> 1) parent
    else do
      let left ← sload (.slot l)
      let parent ← hash2 env left node
      foldFrontier rounds (l + 1) (idx >>> 1) parent

def computeRoot : Program World Word := do
  let idx ← sload (.slot 21)
  if Op.eq idx (1#256 <<< depth) = 1 then sload (.slot (BitVec.ofNat 256 depth))
  else foldFrontier env depth 0 idx 0

/-- The CALL to the EIP-8272 predeploy, which takes the write or refuses it. -/
def publish (publishes : Bytes → Bool) (offset size : Nat) : Program World Word := do
  let data ← memoryRange offset size
  Exec.update fun m => { m with
    returndata := []
    world := if publishes data then { m.world with published := m.world.published ++ [data] } else m.world }
  return flag (publishes data)

def publishRoot (publishes : Bytes → Bool) : Program World Unit := do
  mstore 0x00 0
  let root ← sload (.slot 22)
  mstore 0x20 root
  let ok ← publish publishes 0x00 0x40
  failIf Error.rootPublishFailed.selector (Op.iszero ok)

def validateSpend (base : Nat) : Program World Unit := do
  let root ← calldataload env (base + 0)
  let dom ← calldataload env (base + 32)
  let nf1 ← calldataload env (base + 64)
  let nf2 ← calldataload env (base + 96)
  let oc1 ← calldataload env (base + 128)
  let oc2 ← calldataload env (base + 160)
  let pub ← calldataload env (base + 192)
  let fee ← calldataload env (base + 224)
  let ctx ← calldataload env (base + 256)
  let own ← domainVal env
  failIf Error.invalidDomain.selector (Op.iszero (Op.eq dom own))
  checkRanges root nf1 nf2 oc1 oc2 dom ctx pub fee

def verifySpend (base : Nat) : Program World Unit := do
  validateSpend env base
  let root ← calldataload env (base + 0)
  let dom ← calldataload env (base + 32)
  let nf1 ← calldataload env (base + 64)
  let nf2 ← calldataload env (base + 96)
  let oc1 ← calldataload env (base + 128)
  let oc2 ← calldataload env (base + 160)
  let pub ← calldataload env (base + 192)
  let fee ← calldataload env (base + 224)
  let ctx ← calldataload env (base + 256)
  mstore 0x80 (0xc542c93b#256 <<< 224)
  copy (0x80 + 0x04) (slice env.data (base + 288) 256)
  storeSignals 0x80 nf1 nf2 oc1 oc2 root dom pub fee ctx
  let ver ← verifierAddr env
  callVerifier env ver 0x80

/-- The eleven words of the probe's answer, read back from memory. -/
def spendCheck (base : Nat) : Program World Word := do
  failIf Error.notPoolSender.selector (Op.iszero (Op.eq env.caller.word env.address.word))
  let nf1 ← calldataload env (base + 64)
  let nf2 ← calldataload env (base + 96)
  failIf Error.zeroNullifier.selector (Op.iszero nf1)
  failIf Error.zeroNullifier.selector (Op.iszero nf2)
  let probe ← probeAddr env
  let ok ← callPure env probe 0x00 0x00 0x00 0x00
  failIf Error.notFrameNative.selector (Op.iszero ok)
  let ret ← returndata
  failIf Error.notFrameNative.selector (Op.iszero (Op.eq (BitVec.ofNat 256 ret.length) 352))
  copy 0x80 (slice ret 0 352)
  let frames ← mload 0x80
  let frameIndex ← mload 0xa0
  let keyCount ← mload 0xc0
  let nonceSeq ← mload 0xe0
  let k0 ← mload 0x100
  let k1 ← mload 0x120
  let refCount ← mload 0x140
  let refSource ← mload 0x160
  let refRoot ← mload 0x180
  let targetWord ← mload 0x1a0
  let settleTarget := Op.and targetWord Op.addressMask
  let payerWord ← mload 0x1c0
  let selfPayShape := Op.and (Op.eq frames 2) (Op.eq frameIndex 1)
  let paymasterShape := Op.and (Op.eq frames 3) (Op.eq frameIndex 2)
  failIf Error.notFaithfulShape.selector
    (Op.or (Op.iszero (Op.or selfPayShape paymasterShape)) (Op.iszero (Op.eq settleTarget env.address.word)))
  let lo := if Op.gt nf1 nf2 ≠ 0 then nf2 else nf1
  let hi := if Op.gt nf1 nf2 ≠ 0 then nf1 else nf2
  failIf Error.keySetMismatch.selector
    (Op.or (Op.or (Op.iszero (Op.eq keyCount 2)) (Op.iszero (Op.eq nonceSeq 0)))
      (Op.or (Op.iszero (Op.eq k0 lo)) (Op.iszero (Op.eq k1 hi))))
  let root ← calldataload env (base + 0)
  let own ← sourceId env
  failIf Error.rootNotBoundToReference.selector
    (Op.or (Op.or (Op.iszero (Op.eq refCount 1)) (Op.iszero (Op.eq refSource own)))
      (Op.iszero (Op.eq refRoot root)))
  failIf Error.invalidPayer.selector (Op.or (Op.iszero payerWord) (payerWord >>> 160))
  validateSpend env base
  emitNoteSpent nf1
  emitNoteSpent nf2
  return payerWord

/-- `if new { i := insert(cm) }` -/
def insertNew (cm new : Word) : Program World Word := if new ≠ 0 then insert env cm else return 0

def settle (publishes : Bytes → Bool) (base : Nat) (payer : Word) : Program World Unit := do
  let oc1 ← calldataload env (base + 128)
  let oc2 ← calldataload env (base + 160)
  let fee ← calldataload env (base + 224)
  let known1 ← isLeaf oc1
  let new1 := Op.iszero known1
  let i1 ← insertNew env oc1 new1
  let known2 ← isLeaf oc2
  let new2 := Op.iszero known2
  let i2 ← insertNew env oc2 new2
  Exec.when (Op.or new1 new2 ≠ 0) do
    let newRoot ← computeRoot env
    sstore (.slot 22) newRoot
    Exec.when (new1 ≠ 0) (emitLeafAppended env oc1 i1 newRoot)
    Exec.when (new2 ≠ 0) (emitLeafAppended env oc2 i2 newRoot)
  publishRoot publishes
  Exec.when (Op.and (Op.iszero (Op.eq payer env.address.word)) (Op.iszero (Op.iszero fee)) ≠ 0) do
    let loc ← mapSlot payer 25
    let credit ← sload loc
    sstore loc (credit + fee)
    emitFeeCredited payer fee

def ret (v : Word) : Program World Reply := do
  mstore 0x00 v
  let data ← memoryRange 0x00 0x20
  return .returned data

def stop : Program World Reply := return .returned []

def needArgs (n : Word) : Program World Unit :=
  Exec.revertIf (Op.lt (BitVec.ofNat 256 env.data.length - 4) n ≠ 0) []

def addrArg (offset : Nat) : Program World Word := do
  let a ← calldataload env offset
  Exec.revertIf (a >>> 160 ≠ 0) []
  return a

def shield (publishes : Bytes → Bool) : Program World Reply := do
  needArgs env 32
  failIf Error.zeroValueShield.selector (Op.iszero env.value)
  failIf Error.valueTooLarge.selector (Op.iszero (Op.lt env.value maxValue))
  let inner ← calldataload env 4
  failIf Error.notCanonical.selector (Op.iszero (Op.lt inner fieldP))
  let cm ← hash3 env 2 inner env.value
  let known ← isLeaf cm
  failIf Error.duplicateCommitment.selector known
  let index ← insert env cm
  let newRoot ← computeRoot env
  sstore (.slot 22) newRoot
  emitLeafAppended env cm index newRoot
  publishRoot publishes
  ret index

def transfer (publishes : Bytes → Bool) : Program World Reply := do
  needArgs env 544
  let pub ← calldataload env 196
  let ctx ← calldataload env 260
  failIf Error.transferShape.selector (Op.or (Op.iszero (Op.iszero pub)) (Op.iszero (Op.iszero ctx)))
  let payer ← spendCheck env 4
  settle env publishes 4 payer
  stop

def withdraw (publishes : Bytes → Bool) : Program World Reply := do
  needArgs env 576
  let recipient ← addrArg env 548
  let pub ← calldataload env 196
  let ctx ← calldataload env 260
  failIf Error.withdrawShape.selector (Op.or (Op.iszero pub) (Op.iszero ctx))
  failIf Error.ctxDoesNotNameRecipient.selector (Op.iszero (Op.eq ctx (ctxFor recipient)))
  let payer ← spendCheck env 4
  settle env publishes 4 payer
  let loc ← mapSlot recipient 24
  let credit ← sload loc
  sstore loc (credit + pub)
  emitWithdrawalCredited recipient pub
  stop

def verifyProofOnly : Program World Reply := do
  needArgs env 544
  let nf1 ← calldataload env 68
  failIf Error.zeroNullifier.selector (Op.iszero nf1)
  let nf2 ← calldataload env 100
  failIf Error.zeroNullifier.selector (Op.iszero nf2)
  verifySpend env 4
  stop

/-- The two claims, up to the call that pays `who`. -/
def claim (base : Word) (emit : Word → Word → Program World Unit) : Program World Reply := do
  needArgs env 32
  let who ← addrArg env 4
  let loc ← mapSlot who base
  let amount ← sload loc
  failIf Error.noCredit.selector (Op.iszero amount)
  sstore loc 0
  emit who amount
  return .payout (Address.ofWord who) amount

def claimWithdrawal : Program World Reply := claim env 24 emitWithdrawn

def claimFee : Program World Reply := claim env 25 emitFeePaid

/-- `if iszero(call(...)) { fail(errPayoutFailed()) } stop()`, on whatever memory is left. -/
def resume (accepted : Bool) : Except Bytes Bytes :=
  let ended : Program Unit Bytes := do
    failIf Error.payoutFailed.selector (Op.iszero (flag accepted))
    return []
  match ended (Machine.start ()) with
  | .ok (out, _) => .ok out
  | .error data => .error data

/-- The dispatch of nonempty calldata by selector. -/
def dispatch (publishes : Bytes → Bool) : Program World Reply := do
  let head ← calldataload env 0
  let sel := head >>> 224
  Exec.revertIf (env.value ≠ 0 ∧ Op.iszero (Op.eq sel 0x26123548#256) ≠ 0) []
  if sel = 0x26123548#256 then shield env publishes
  else if sel = 0xb9947fa0#256 then transfer env publishes
  else if sel = 0xd677b46e#256 then withdraw env publishes
  else if sel = 0x8cc8fe8d#256 then verifyProofOnly env
  else if sel = 0xa3066aab#256 then claimWithdrawal env
  else if sel = 0x6ebc51e1#256 then claimFee env
  else if sel = 0xfdab463d#256 then do
    let root ← sload (.slot 22)
    ret root
  else if sel = 0xd069aab9#256 then do
    let id ← sourceId env
    ret id
  else if sel = 0xc2fb26a6#256 then do
    let own ← domainVal env
    ret own
  else if sel = 0xfc7e9c6f#256 then do
    let index ← sload (.slot 21)
    ret index
  else if sel = 0xb83b3026#256 then do
    needArgs env 32
    let cm ← calldataload env 4
    let known ← isLeaf cm
    ret known
  else if sel = 0x0a5570fa#256 then do
    needArgs env 32
    let who ← addrArg env 4
    let credit ← withdrawalCredit who
    ret credit
  else if sel = 0x5c584c88#256 then do
    needArgs env 32
    let who ← addrArg env 4
    let credit ← feeCredit who
    ret credit
  else if sel = 0xf178e47c#256 then do
    needArgs env 32
    let i ← calldataload env 4
    Exec.revertIf (Op.gt i (BitVec.ofNat 256 depth) ≠ 0) []
    let node ← sload (.slot i)
    ret node
  else if sel = 0x02f36d86#256 then do
    needArgs env 32
    let who ← addrArg env 4
    ret (ctxFor who)
  else if sel = 0x7bb5421b#256 then do
    needArgs env 64
    let chainId ← calldataload env 4
    let source ← calldataload env 36
    let scalar ← domainFor env chainId source
    ret scalar
  else if sel = 0xb74af5a9#256 then do
    let probe ← probeAddr env
    ret probe
  else if sel = 0x2b7ac3f3#256 then do
    let verifier ← verifierAddr env
    ret verifier
  else if sel = 0x98366e35#256 then ret (BitVec.ofNat 256 depth)
  else if sel = 0xba9a91a5#256 then ret 0
  else if sel = 0xe32e13eb#256 then ret domainTag
  else if sel = 0x94e5fa12#256 then ret 0x8272
  else if sel = 0xa8a5337b#256 then ret env.address.word
  else Exec.revert []

/-- A call with data, from fresh memory. -/
def call (d : Deployment) (image : Image) (c : Call) : Exec World Reply := fun world =>
  match dispatch (environment d image c) c.publishes (Machine.start world) with
  | .ok (reply, m) => .ok (reply, m.world)
  | .error data => .error data

/-- The STATICCALL to the pool's own address. The calldata it is used with selects
`verifyProofOnly`, which writes nothing. -/
def staticcallSelf (d : Deployment) (image : Image) (c : Call) (inOffset inSize : Nat) : Program World Word := do
  let data ← memoryRange inOffset inSize
  fun m => match call d image { c with caller := d.self, value := 0, data } m.world with
    | .ok (.returned out, _) => .ok (1, { m with returndata := out })
    | .ok (.payout _ _, _) => .ok (0, { m with returndata := [] })
    | .error out => .ok (0, { m with returndata := out })

/-- Frame 0's proof check: `verifyProofOnly` on the settle frame's Spend words. -/
def selfVerify (d : Deployment) (image : Image) (c : Call) (o : Opcodes) (settleIndex : Nat) : Program World Unit := do
  mstore 0x80 (0x8cc8fe8d#256 <<< 224)
  copyFrameWords o settleIndex 17 4 (0x80 + 4)
  let ok ← staticcallSelf d image c 0x80 548
  failIf Error.proofInvalid.selector (Op.iszero ok)

def verifyFrameApprove (d : Deployment) (image : Image) (c : Call) (o : Opcodes) : Program World Word :=
  PoolYul.verifyFrameApprove (environment d image c) o (selfVerify d image c o)

def authorize (d : Deployment) (image : Image) (c : Call) (o : Opcodes) (world : World) : Except Bytes Word :=
  match verifyFrameApprove d image c o (Machine.start world) with
  | .ok (scope, _) => .ok scope
  | .error data => .error data

/-- The constructor: the empty root in slot 22, published once. -/
def construct (c : Call) : Program World Unit := do
  sstore (.slot 22) zeroRoot
  mstore 0x00 0
  mstore 0x20 zeroRoot
  let ok ← publish c.publishes 0x00 0x40
  failIf Error.rootPublishFailed.selector (Op.iszero ok)

end ShieldedPool.Monolith
