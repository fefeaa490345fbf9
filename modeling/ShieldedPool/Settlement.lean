import ShieldedPool.Interface

/-! The Solidity code the two contracts have in common, as ShieldedPoolLogic.sol has it.
A `Variant` holds the places where ShieldedPool.sol computes something else. -/

namespace ShieldedPool
open Evm Exec

namespace Error

def throw {σ α : Type} (e : Error) : Exec σ α := revert e.data

/-- `if (condition) revert e();` -/
def throwIf {σ : Type} (e : Error) (condition : Prop) [Decidable condition] : Exec σ Unit := revertIf condition e.data

end Error

/-- Solidity 0.8 addition. -/
def checkedAdd {σ : Type} (a b : Word) : Exec σ Word := do
  revertIf (2 ^ 256 ≤ a.toNat + b.toNat) arithmeticPanic
  return a + b

/-- The pinned sender, the pool's identity, and how `_spend` authenticates a tuple. -/
structure Variant where
  poolSender : Address
  sourceId : Word
  domain : Word
  authenticate : Spend → Exec State Unit

/-- Root of an all-zero depth-`l` subtree, for `l` up to `depth`. -/
def zerosTable : List Word := [
  0,
  0x2098f5fb9e239eab3ceac3f27b81e481dc3124d55ffed523a839ee8446b64864#256,
  0x1069673dcdb12263df301a6ff584a7ec261a44cb9dc68df067a4774460b1f1e1#256,
  0x18f43331537ee2af2e3d758d50f72106467c6eea50371dd528d57eb2b856d238#256,
  0x07f9d837cb17b0d36320ffe93ba52345f1b728571a568265caac97559dbc952a#256,
  0x2b94cf5e8746b3f5c9631f4c5df32907a699c58c94b2ad4d7b5cec1639183f55#256,
  0x2dee93c5a666459646ea7d22cca9e1bcfed71e6951b953611d11dda32ea09d78#256,
  0x078295e5a22b84e982cf601eb639597b8b0515a88cb5ac7fa8a4aabe3c87349d#256,
  0x2fa5e5f18f6027a6501bec864564472a616b2e274a41211a444cbe3a99f3cc61#256,
  0x0e884376d0d8fd21ecb780389e941f66e45e7acce3e228ab3e2156a614fcd747#256,
  0x1b7201da72494f1e28717ad1a52eb469f95892f957713533de6175e5da190af2#256,
  0x1f8d8822725e36385200c0b201249819a6e6e1e4650808b5bebc6bface7d7636#256,
  0x2c5d82f66c914bafb9701589ba8cfcfb6162b0a12acf88a8d0879a0471b5f85a#256,
  0x14c54148a0940bb820957f5adf3fa1134ef5c4aaa113f4646458f270e0bfbfd0#256,
  0x190d33b12f986f961e10c0ee44d8b9af11be25588cad89d416118e4bf4ebe80c#256,
  0x22f98aa9ce704152ac17354914ad73ed1167ae6596af510aa5b3649325e06c92#256,
  0x2a7c7c9b6ce5880b9f6f228d72bf6a575a526f29c66ecceef8b753d38bba7323#256,
  0x2e8186e558698ec1c67af9c14d463ffc470043c9c2988b954d75dd643f36b992#256,
  0x0f57c5571e9a4eab49e2c8cf050dae948aef6ead647392273546249d1c1ff10f#256,
  0x1830ee67b5fb554ad5f63d4388800e1cfe78e310697d46e43c9ce36134f72cca#256]

/-- Root of the empty tree. -/
def zeroRoot : Word := 0x2134e76ac5d21aab186c2be1dd8f84ee880a1e46eaf712f9d371b6df22191f3e#256

def zeros (l : Nat) : Word := zerosTable.getD l zeroRoot

def hashPair (d : Deployment) (l r : Word) : Word := d.hash2 l r

/-- `filledSubtrees[l]`, with the bounds check the compiler puts in front of it. -/
def filledSubtree (l : Nat) : Exec State Word := do
  revertIf (depth < l) indexPanic
  read fun s => s.filledSubtrees l

def setFilledSubtree (l : Nat) (node : Word) : Exec State Unit := do
  revertIf (depth < l) indexPanic
  update fun s => s.setFilled l node

/-- The loop of `_insert`: absorb filled left siblings while the index bit is 1. A
32-bit index has no more ones than the fuel has rounds. -/
def absorb (d : Deployment) : Nat → Nat → Nat → Word → Exec State (Nat × Word)
  | 0, _, l, node => return (l, node)
  | fuel + 1, idx, l, node =>
    if idx % 2 = 1 then do
      let left ← filledSubtree l
      absorb d fuel (idx / 2) (l + 1) (hashPair d left node)
    else return (l, node)

def insert (d : Deployment) (cm : Word) : Exec State Nat := do
  let index ← read State.nextIndex
  Error.treeFull.throwIf (2 ^ depth ≤ index)
  update fun s => { s with nextIndex := index + 1 }
  update fun s => s.setLeaf cm
  let (l, node) ← absorb d 32 index 0 cm
  setFilledSubtree l node
  return index

/-- The loop of `_computeRoot` from level `l` on, with `rounds` levels to go. -/
def foldFrontier (d : Deployment) : Nat → Nat → Nat → Word → Exec State Word
  | 0, _, _, node => return node
  | rounds + 1, l, idx, node =>
    if idx % 2 = 0 then foldFrontier d rounds (l + 1) (idx / 2) (hashPair d node (zeros l)) else do
      let left ← filledSubtree l
      foldFrontier d rounds (l + 1) (idx / 2) (hashPair d left node)

def computeRoot (d : Deployment) : Exec State Word := do
  let idx ← read State.nextIndex
  if idx = 2 ^ depth then filledSubtree depth else foldFrontier d depth 0 idx 0

/-- The 64 bytes written to the EIP-8272 predeploy. -/
def publication (root : Word) : Bytes := encodeWord salt ++ encodeWord root

def publishRoot (c : Call) : Exec State Unit := do
  let root ← read State.currentRoot
  Error.rootPublishFailed.throwIf (c.publishes (publication root) = false)
  update fun s => s.publish root

def refreshRoot (d : Deployment) : Exec State Word := do
  let root ← computeRoot d
  update fun s => { s with currentRoot := root }
  return root

def slotOf (c : Call) : BitVec 64 := c.number.setWidth 64

def shield (d : Deployment) (c : Call) (inner : Word) : Exec State Nat := do
  Error.zeroValueShield.throwIf (c.value = 0)
  Error.valueTooLarge.throwIf (maxValue ≤ c.value)
  Error.notCanonical.throwIf (fieldP ≤ inner)
  let cm := d.hash3 2 inner c.value
  let known ← read fun s => s.isLeaf cm
  Error.duplicateCommitment.throwIf (known = true)
  let index ← insert d cm
  let root ← refreshRoot d
  update fun s => s.emit (.leafAppended cm index root (slotOf c))
  publishRoot c
  return index

def Spend.Canonical (s : Spend) : Prop :=
  s.root < fieldP ∧ s.nf1 < fieldP ∧ s.nf2 < fieldP ∧ s.outCm1 < fieldP ∧ s.outCm2 < fieldP ∧
    s.domain < fieldP ∧ s.ctx < fieldP

instance (s : Spend) : Decidable s.Canonical := inferInstanceAs (Decidable (_ ∧ _))

/-- The canonicity and range checks that need no pairing. -/
def validateSpend (domain : Word) (s : Spend) : Exec State Unit := do
  Error.invalidDomain.throwIf (s.domain ≠ domain)
  Error.notCanonical.throwIf (¬ s.Canonical)
  Error.valueTooLarge.throwIf (maxValue ≤ s.publicAmount ∨ maxValue ≤ s.fee)

def verifyProof (d : Deployment) (domain : Word) (s : Spend) : Exec State Unit := do
  validateSpend domain s
  Error.proofInvalid.throwIf (d.verify s.verifierCall = false)

def verifyProofOnly (d : Deployment) (v : Variant) (s : Spend) : Exec State Unit := do
  Error.zeroNullifier.throwIf (s.nf1 = 0 ∨ s.nf2 = 0)
  verifyProof d v.domain s

/-- The eleven words of EnvelopeProbe's answer, with the target still undecoded. -/
structure Facts where
  frames : Word
  frameIndex : Word
  keyCount : Word
  nonceSeq : Word
  k0 : Word
  k1 : Word
  refCount : Word
  refSource : Word
  refRoot : Word
  settleTarget : Word
  payerWord : Word
  deriving DecidableEq, Repr

def Facts.decode (ret : Bytes) : Facts where
  frames := wordAt ret 0
  frameIndex := wordAt ret 32
  keyCount := wordAt ret 64
  nonceSeq := wordAt ret 96
  k0 := wordAt ret 128
  k1 := wordAt ret 160
  refCount := wordAt ret 192
  refSource := wordAt ret 224
  refRoot := wordAt ret 256
  settleTarget := wordAt ret 288
  payerWord := wordAt ret 320

/-- The STATICCALL to the probe and the ABI decoding of what it returned. -/
def envelopeFacts (c : Call) : Exec State Facts :=
  match c.probe with
  | none => Error.notFrameNative.throw
  | some ret => do
    Error.notFrameNative.throwIf (ret.length ≠ 352)
    let facts := Facts.decode ret
    revertIf (¬ Address.Clean facts.settleTarget) []
    return facts

def Facts.FinalFrame (f : Facts) : Prop := f.frames = 2 ∧ f.frameIndex = 1 ∨ f.frames = 3 ∧ f.frameIndex = 2

instance (f : Facts) : Decidable f.FinalFrame := inferInstanceAs (Decidable (_ ∨ _))

def spend (d : Deployment) (v : Variant) (c : Call) (s : Spend) : Exec State Address := do
  Error.notPoolSender.throwIf (c.caller ≠ v.poolSender)
  Error.zeroNullifier.throwIf (s.nf1 = 0 ∨ s.nf2 = 0)
  let f ← envelopeFacts c
  Error.notFaithfulShape.throwIf (¬ f.FinalFrame ∨ f.settleTarget ≠ d.self.word)
  Error.keySetMismatch.throwIf (f.keyCount ≠ 2 ∨ f.nonceSeq ≠ 0 ∨ f.k0 ≠ s.lo ∨ f.k1 ≠ s.hi)
  Error.rootNotBoundToReference.throwIf (f.refCount ≠ 1 ∨ f.refSource ≠ v.sourceId ∨ f.refRoot ≠ s.root)
  Error.invalidPayer.throwIf (f.payerWord = 0 ∨ ¬ Address.Clean f.payerWord)
  v.authenticate s
  update fun st => st.emit (.noteSpent s.nf1)
  update fun st => st.emit (.noteSpent s.nf2)
  return Address.ofWord f.payerWord

/-- Insert an output note unless it is already a leaf. -/
def insertNew (d : Deployment) (cm : Word) : Exec State (Option Nat) := do
  let known ← read fun s => s.isLeaf cm
  if known then return none else do
    let index ← insert d cm
    return some index

def emitLeaf (c : Call) (cm : Word) (index : Option Nat) (root : Word) : Exec State Unit :=
  match index with
  | none => return ()
  | some i => update fun s => s.emit (.leafAppended cm i root (slotOf c))

def creditFee (d : Deployment) (payer : Address) (fee : Word) : Exec State Unit :=
  when (fee ≠ 0 ∧ payer ≠ d.self) do
    let credit ← read fun s => s.feeCredit payer
    let total ← checkedAdd credit fee
    update fun s => s.setFeeCredit payer total
    update fun s => s.emit (.feeCredited payer fee)

def settle (d : Deployment) (c : Call) (s : Spend) (payer : Address) : Exec State Unit := do
  let i1 ← insertNew d s.outCm1
  let i2 ← insertNew d s.outCm2
  when (i1.isSome ∨ i2.isSome) do
    let root ← refreshRoot d
    emitLeaf c s.outCm1 i1 root
    emitLeaf c s.outCm2 i2 root
  publishRoot c
  creditFee d payer s.fee

def ctxFor (recipient : Address) : Word := recipient.word

def transfer (d : Deployment) (v : Variant) (c : Call) (s : Spend) : Exec State Unit := do
  Error.transferShape.throwIf (s.publicAmount ≠ 0 ∨ s.ctx ≠ 0)
  let payer ← spend d v c s
  settle d c s payer

def creditWithdrawal (recipient : Address) (amount : Word) : Exec State Unit := do
  let credit ← read fun s => s.withdrawalCredit recipient
  let total ← checkedAdd credit amount
  update fun s => s.setWithdrawalCredit recipient total
  update fun s => s.emit (.withdrawalCredited recipient amount)

def withdraw (d : Deployment) (v : Variant) (c : Call) (s : Spend) (recipient : Address) : Exec State Unit := do
  Error.withdrawShape.throwIf (s.publicAmount = 0 ∨ s.ctx = 0)
  Error.ctxDoesNotNameRecipient.throwIf (s.ctx ≠ ctxFor recipient)
  let payer ← spend d v c s
  settle d c s payer
  creditWithdrawal recipient s.publicAmount

def claimWithdrawal (who : Address) : Exec State Reply := do
  let amount ← read fun s => s.withdrawalCredit who
  Error.noCredit.throwIf (amount = 0)
  update fun s => s.setWithdrawalCredit who 0
  update fun s => s.emit (.withdrawn who amount)
  return .payout who amount

def claimFee (who : Address) : Exec State Reply := do
  let amount ← read fun s => s.feeCredit who
  Error.noCredit.throwIf (amount = 0)
  update fun s => s.setFeeCredit who 0
  update fun s => s.emit (.feePaid who amount)
  return .payout who amount

/-- What a claim does once its recipient has accepted or refused the payout. -/
def finishClaim (accepted : Bool) : Except Bytes Bytes :=
  if accepted then .ok [] else .error Error.payoutFailed.data

inductive Method where
  | shield | transfer | withdraw | verifyProofOnly | claimWithdrawal | claimFee
  | currentRoot | sourceId | domain | nextIndex | isLeaf | withdrawalCredit | feeCredit
  | filledSubtrees | ctxFor | domainFor | probe | verifier | depth | salt | domainTag
  | recentRootPredeploy
  deriving DecidableEq, Repr

namespace Method

def selector : Method → Word
  | shield => 0x26123548#256
  | transfer => 0xb9947fa0#256
  | withdraw => 0xd677b46e#256
  | verifyProofOnly => 0x8cc8fe8d#256
  | claimWithdrawal => 0xa3066aab#256
  | claimFee => 0x6ebc51e1#256
  | currentRoot => 0xfdab463d#256
  | sourceId => 0xd069aab9#256
  | domain => 0xc2fb26a6#256
  | nextIndex => 0xfc7e9c6f#256
  | isLeaf => 0xb83b3026#256
  | withdrawalCredit => 0x0a5570fa#256
  | feeCredit => 0x5c584c88#256
  | filledSubtrees => 0xf178e47c#256
  | ctxFor => 0x02f36d86#256
  | domainFor => 0x7bb5421b#256
  | probe => 0xb74af5a9#256
  | verifier => 0x2b7ac3f3#256
  | depth => 0x98366e35#256
  | salt => 0xba9a91a5#256
  | domainTag => 0xe32e13eb#256
  | recentRootPredeploy => 0x94e5fa12#256

def all : List Method :=
  [shield, transfer, withdraw, verifyProofOnly, claimWithdrawal, claimFee, currentRoot, sourceId, domain,
    nextIndex, isLeaf, withdrawalCredit, feeCredit, filledSubtrees, ctxFor, domainFor, probe, verifier,
    depth, salt, domainTag, recentRootPredeploy]

def ofSelector (w : Word) : Option Method := all.find? fun m => m.selector = w

def payable (m : Method) : Bool := m = shield

/-- The length of the encoded arguments the decoder insists on. -/
def argBytes : Method → Nat
  | shield | isLeaf | withdrawalCredit | feeCredit | filledSubtrees | ctxFor => 32
  | claimWithdrawal | claimFee => 32
  | transfer | verifyProofOnly => 544
  | withdraw => 576
  | domainFor => 64
  | _ => 0

end Method

/-- An `address` argument reverts without data unless its high bits are clear. -/
def addressArg (c : Call) (offset : Nat) : Exec State Address := do
  let w := wordAt c.data offset
  revertIf (¬ Address.Clean w) []
  return Address.ofWord w

def returnWord (w : Word) : Exec State Reply := return .returned (encodeWord w)

def returnNothing : Exec State Reply := return .returned []

/-- The external functions after the decoder's length check. -/
def body (d : Deployment) (v : Variant) (c : Call) : Method → Exec State Reply
  | .shield => do
    let index ← shield d c (wordAt c.data 4)
    returnWord (BitVec.ofNat 256 index)
  | .transfer => do
    transfer d v c (Spend.decode c.data 4)
    returnNothing
  | .withdraw => do
    let recipient ← addressArg c 548
    withdraw d v c (Spend.decode c.data 4) recipient
    returnNothing
  | .verifyProofOnly => do
    verifyProofOnly d v (Spend.decode c.data 4)
    returnNothing
  | .claimWithdrawal => do
    let who ← addressArg c 4
    claimWithdrawal who
  | .claimFee => do
    let who ← addressArg c 4
    claimFee who
  | .currentRoot => do
    let root ← read State.currentRoot
    returnWord root
  | .sourceId => returnWord v.sourceId
  | .domain => returnWord v.domain
  | .nextIndex => do
    let index ← read State.nextIndex
    returnWord (BitVec.ofNat 256 index)
  | .isLeaf => do
    let known ← read fun s => s.isLeaf (wordAt c.data 4)
    returnWord (flag known)
  | .withdrawalCredit => do
    let who ← addressArg c 4
    let credit ← read fun s => s.withdrawalCredit who
    returnWord credit
  | .feeCredit => do
    let who ← addressArg c 4
    let credit ← read fun s => s.feeCredit who
    returnWord credit
  | .filledSubtrees => do
    let i := wordAt c.data 4
    revertIf (BitVec.ofNat 256 depth < i) []
    let node ← read fun s => s.filledSubtrees i.toNat
    returnWord node
  | .ctxFor => do
    let who ← addressArg c 4
    returnWord (ctxFor who)
  | .domainFor => returnWord (d.domainFor (wordAt c.data 4) (wordAt c.data 36))
  | .probe => returnWord d.probe.word
  | .verifier => returnWord d.verifier.word
  | .depth => returnWord (BitVec.ofNat 256 depth)
  | .salt => returnWord salt
  | .domainTag => returnWord domainTag
  | .recentRootPredeploy => returnWord recentRootPredeploy.word

/-- The selector switch the compiler generates, with its value and length guards. -/
def dispatch (d : Deployment) (v : Variant) (c : Call) : Exec State Reply := do
  revertIf (c.data.length < 4) []
  match Method.ofSelector (wordAt c.data 0 >>> 224) with
  | none => revert []
  | some m => do
    revertIf (m.payable = false ∧ c.value ≠ 0) []
    revertIf (c.data.length < 4 + m.argBytes) []
    body d v c m

end ShieldedPool
