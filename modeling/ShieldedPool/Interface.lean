import Mathlib.Logic.Function.Basic
import ShieldedPool.Evm.Exec

/-! The vocabulary every implementation of the pool shares: its constants, errors,
events and Spend tuple, the storage of one pool, and what a call brings with it. -/

namespace ShieldedPool
open Evm

/-- The order of the BN254 scalar field. -/
def fieldP : Word := 21888242871839275222246405745257275088548364400416034343698204186575808495617#256

/-- The circuit's range-check bound, `1 << 128`. -/
def maxValue : Word := 0x100000000000000000000000000000000#256

def depth : Nat := 20

def salt : Word := 0

def domainTag : Word := 0x40752e102d2a749c61d42a71e297edd3b493de639003b9480a700d589d98065b#256

def recentRootPredeploy : Address := 0x8272#160

inductive Error where
  | zeroValueShield | valueTooLarge | duplicateCommitment | notCanonical | treeFull | notPoolSender
  | zeroNullifier | notFrameNative | notFaithfulShape | feeBelowMaxCost | rootNotBoundToReference
  | proofInvalid | invalidDomain | keySetMismatch | transferShape | withdrawShape
  | ctxDoesNotNameRecipient | payoutFailed | invalidPayer | noCredit | rootPublishFailed
  | invalidPoolSender | invalidProbe | invalidVerifier
  deriving DecidableEq, Repr

namespace Error

def selector : Error → Word
  | zeroValueShield => 0x63c81d05#256
  | valueTooLarge => 0x2ad907fb#256
  | duplicateCommitment => 0xe43a58fa#256
  | notCanonical => 0xd7c7beeb#256
  | treeFull => 0xb48f2cf8#256
  | notPoolSender => 0xedce9792#256
  | zeroNullifier => 0xcbbbbfe1#256
  | notFrameNative => 0xf8171c6f#256
  | notFaithfulShape => 0xe6d22e28#256
  | feeBelowMaxCost => 0x315cb54e#256
  | rootNotBoundToReference => 0xaf501e1c#256
  | proofInvalid => 0x7fcdd1f4#256
  | invalidDomain => 0xeb127982#256
  | keySetMismatch => 0x586e51ed#256
  | transferShape => 0xef7a30fa#256
  | withdrawShape => 0x7f54f5ab#256
  | ctxDoesNotNameRecipient => 0x49cb8b3a#256
  | payoutFailed => 0x3b1ab104#256
  | invalidPayer => 0x8eb5b891#256
  | noCredit => 0x315b0e14#256
  | rootPublishFailed => 0x5c3c03e8#256
  | invalidPoolSender => 0x6f8c32a5#256
  | invalidProbe => 0xbf0c84c8#256
  | invalidVerifier => 0xbaa3de5f#256

/-- The revert data of a named error without arguments. -/
def data (e : Error) : Bytes := selectorBytes e.selector

end Error

/-- Solidity's `Panic(uint256)`. -/
def panic (code : Word) : Bytes := selectorBytes 0x4e487b71#256 ++ encodeWord code

def arithmeticPanic : Bytes := panic 0x11#256

def indexPanic : Bytes := panic 0x32#256

inductive Event where
  | leafAppended (cm : Word) (index : Nat) (newRoot : Word) (slot : BitVec 64)
  | noteSpent (nf : Word)
  | withdrawn (recipient : Address) (amount : Word)
  | feePaid (recipient : Address) (amount : Word)
  | withdrawalCredited (recipient : Address) (amount : Word)
  | feeCredited (recipient : Address) (amount : Word)
  deriving DecidableEq, Repr

/-- The join-split statement and its proof, in the order of the ABI tuple. -/
structure Spend where
  root : Word
  domain : Word
  nf1 : Word
  nf2 : Word
  outCm1 : Word
  outCm2 : Word
  publicAmount : Word
  fee : Word
  ctx : Word
  pA : Word × Word
  pB : (Word × Word) × (Word × Word)
  pC : Word × Word
  deriving DecidableEq, Repr

namespace Spend

/-- The tuple whose seventeen words are `word 0`, ..., `word 16`. -/
def ofWords (word : Nat → Word) : Spend where
  root := word 0
  domain := word 1
  nf1 := word 2
  nf2 := word 3
  outCm1 := word 4
  outCm2 := word 5
  publicAmount := word 6
  fee := word 7
  ctx := word 8
  pA := (word 9, word 10)
  pB := ((word 11, word 12), (word 13, word 14))
  pC := (word 15, word 16)

/-- A Spend read from calldata, where it starts at byte `base`. -/
def decode (data : Bytes) (base : Nat) : Spend := ofWords fun i => wordAt data (base + 32 * i)

def proof (s : Spend) : List Word :=
  [s.pA.1, s.pA.2, s.pB.1.1, s.pB.1.2, s.pB.2.1, s.pB.2.2, s.pC.1, s.pC.2]

/-- The ABI encoding of the tuple, word by word. -/
def words (s : Spend) : List Word :=
  [s.root, s.domain, s.nf1, s.nf2, s.outCm1, s.outCm2, s.publicAmount, s.fee, s.ctx] ++ s.proof

theorem ofWords_words (s : Spend) : ofWords (fun i => s.words.getD i 0) = s := rfl

theorem ofWords_congr {v w : Nat → Word} (same : ∀ i, i < 17 → v i = w i) : ofWords v = ofWords w := by
  simp only [ofWords, same 0 (by decide), same 1 (by decide), same 2 (by decide), same 3 (by decide), same 4 (by decide),
    same 5 (by decide), same 6 (by decide), same 7 (by decide), same 8 (by decide), same 9 (by decide), same 10 (by decide),
    same 11 (by decide), same 12 (by decide), same 13 (by decide), same 14 (by decide), same 15 (by decide),
    same 16 (by decide)]

theorem decode_words (s : Spend) (first rest : Bytes) : decode (first ++ (encodeWords s.words ++ rest)) first.length = s := by
  rw [decode, ← ofWords_words s]
  apply ofWords_congr
  intro i inside
  have bound : i < s.words.length := inside
  rw [wordAt_append_right, ofWords_words, wordAt_encodeWords _ _ bound, List.getD_eq_getElem?_getD, List.getElem?_eq_getElem bound,
    Option.getD_some]

/-- The nine public signals in the circuit's order. -/
def signals (s : Spend) : List Word :=
  [s.nf1, s.nf2, s.outCm1, s.outCm2, s.root, s.domain, s.publicAmount, s.fee, s.ctx]

/-- The call `verifyProof(uint256[2],uint256[2][2],uint256[2],uint256[9])`. -/
def verifierCall (s : Spend) : Bytes := selectorBytes 0xc542c93b#256 ++ encodeWords (s.proof ++ s.signals)

/-- The two nullifiers in increasing order. -/
def lo (s : Spend) : Word := if s.nf1.toNat > s.nf2.toNat then s.nf2 else s.nf1

def hi (s : Spend) : Word := if s.nf1.toNat > s.nf2.toNat then s.nf1 else s.nf2

end Spend

/-- What is fixed when a pool is deployed. The hash, the Poseidon libraries and the
Groth16 verifier are code the pool calls and are taken as functions. -/
structure Deployment where
  self : Address
  chainId : Word
  probe : Address
  verifier : Address
  keccak : Bytes → Word
  hash2 : Word → Word → Word
  hash3 : Word → Word → Word → Word
  verify : Bytes → Bool

namespace Deployment

/-- `keccak256(pad32(this) || SALT)`, the pool's EIP-8272 source. -/
def sourceId (d : Deployment) : Word := d.keccak (encodeWord d.self.word ++ encodeWord salt)

def domainFor (d : Deployment) (chainId source : Word) : Word :=
  d.keccak (encodeWord domainTag ++ encodeWord chainId ++ encodeWord source) % fieldP

def domain (d : Deployment) : Word := d.domainFor d.chainId d.sourceId

end Deployment

/-- One call as its callee sees it: EnvelopeProbe's reply, if it has one, and
whether the EIP-8272 predeploy takes a write are decided outside the pool. -/
structure Call where
  caller : Address
  value : Word
  data : Bytes
  number : Word
  probe : Option Bytes
  publishes : Bytes → Bool

/-- A contract answers a call at once or pays out and waits for the recipient. -/
inductive Reply where
  | returned (data : Bytes)
  | payout (who : Address) (amount : Word)
  deriving DecidableEq, Repr

/-- Storage, and the events and root publications the pool has made so far. -/
structure State where
  filledSubtrees : Nat → Word
  nextIndex : Nat
  currentRoot : Word
  isLeaf : Word → Bool
  withdrawalCredit : Address → Word
  feeCredit : Address → Word
  logs : List Event
  published : List Word

namespace State

def empty : State where
  filledSubtrees := fun _ => 0
  nextIndex := 0
  currentRoot := 0
  isLeaf := fun _ => false
  withdrawalCredit := fun _ => 0
  feeCredit := fun _ => 0
  logs := []
  published := []

def setLeaf (s : State) (cm : Word) : State := { s with isLeaf := Function.update s.isLeaf cm true }

def setFilled (s : State) (l : Nat) (node : Word) : State :=
  { s with filledSubtrees := Function.update s.filledSubtrees l node }

def setWithdrawalCredit (s : State) (who : Address) (amount : Word) : State :=
  { s with withdrawalCredit := Function.update s.withdrawalCredit who amount }

def setFeeCredit (s : State) (who : Address) (amount : Word) : State :=
  { s with feeCredit := Function.update s.feeCredit who amount }

def emit (s : State) (e : Event) : State := { s with logs := s.logs ++ [e] }

def publish (s : State) (root : Word) : State := { s with published := s.published ++ [root] }

end State

end ShieldedPool
