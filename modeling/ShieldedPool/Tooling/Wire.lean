import ShieldedPool.Evm.Word

/-! frametx.py: frame transactions as the tooling builds them and the bytes it sends.
A number that has no encoding there raises, which is `none` here. -/

namespace ShieldedPool.Wire
open Evm

/-- `x.to_bytes(size, "big")` -/
def toBytes (size : Nat) (x : Int) : Option Bytes :=
  if 0 ≤ x ∧ x < 256 ^ size then
    some ((List.range size).map fun i => BitVec.ofNat 8 (x.toNat / 256 ^ (size - 1 - i)))
  else none

/-- `(x.bit_length() + 7) // 8`, for numbers that are not negative -/
def byteLength (x : Nat) : Nat := if x = 0 then 0 else Nat.log2 x / 8 + 1

def shortest (x : Nat) : Bytes := (List.range (byteLength x)).map fun i => BitVec.ofNat 8 (x / 256 ^ (byteLength x - 1 - i))

/-- The length header of a string (`0x80`) or a list (`0xc0`). -/
def header (base : Nat) (size : Nat) : Bytes :=
  if size < 56 then [BitVec.ofNat 8 (base + size)]
  else BitVec.ofNat 8 (base + 55 + byteLength size) :: shortest size

def rlpBytes (b : Bytes) : Bytes :=
  match b with
  | [x] => if x.toNat < 0x80 then b else header 0x80 1 ++ b
  | _ => header 0x80 b.length ++ b

def rlpList (items : List Bytes) : Bytes := header 0xc0 items.flatten.length ++ items.flatten

def rlpInt (x : Int) : Option Bytes := if 0 ≤ x then some (rlpBytes (shortest x.toNat)) else none

def addr20 (a : Int) : Option Bytes := toBytes 20 a

structure Frame where
  mode : Int
  flags : Int
  target : Option Int
  gasLimit : Int
  value : Int
  data : Bytes
  deriving DecidableEq

/-- `tgt`: no target is an empty string. -/
def targetRlp : Option Int → Option Bytes
  | some a => (addr20 a).map rlpBytes
  | none => some (rlpBytes [])

def Frame.rlp (f : Frame) : Option Bytes := do
  return rlpList [← rlpInt f.mode, ← rlpInt f.flags, ← targetRlp f.target, ← rlpInt f.gasLimit, ← rlpInt f.value, rlpBytes f.data]

structure FrameSig where
  scheme : Int
  signer : Int
  msg : Bytes
  signature : Bytes
  deriving DecidableEq

def secp256k1 : Int := 0

/-- A signature over the whole transaction, with no message of its own, is left out of what it signs. -/
def FrameSig.rlp (s : FrameSig) (elide : Bool) : Option Bytes := do
  let signature := if elide ∧ s.msg = [] then [] else s.signature
  return rlpList [← rlpInt s.scheme, rlpBytes (← addr20 s.signer), rlpBytes s.msg, rlpBytes signature]

/-- A recent-root reference; the tooling hands the transaction its encoding. -/
structure Reference where
  sourceId : Bytes
  slot : Int
  root : Bytes
  deriving DecidableEq

def Reference.rlp (r : Reference) : Option Bytes := do
  return rlpList [rlpBytes r.sourceId, ← rlpInt r.slot, rlpBytes r.root]

structure FrameTx where
  chainId : Int
  nonceKeys : List Int
  nonceSeq : Int
  sender : Int
  frames : List Frame
  signatures : List FrameSig
  maxPriorityFee : Int
  maxFee : Int
  maxBlobFee : Int := 0
  blobHashes : List Bytes := []
  recentRootRefs : List Reference := []
  deriving DecidableEq

namespace FrameTx

def envelope (tx : FrameTx) (elide : Bool) : Option (List Bytes) := do
  return [← rlpInt tx.chainId, rlpList (← tx.nonceKeys.mapM rlpInt), ← rlpInt tx.nonceSeq, rlpBytes (← addr20 tx.sender),
    rlpList (← tx.frames.mapM Frame.rlp), rlpList (← tx.signatures.mapM fun s => s.rlp elide), ← rlpInt tx.maxPriorityFee,
    ← rlpInt tx.maxFee, ← rlpInt tx.maxBlobFee, rlpList (tx.blobHashes.map rlpBytes),
    rlpList (← tx.recentRootRefs.mapM Reference.rlp)]

def encode (tx : FrameTx) : Option Bytes := (tx.envelope false).map rlpList

def raw (tx : FrameTx) : Option Bytes := tx.encode.map (0x06#8 :: ·)

def sigHash (keccak : Bytes → Word) (tx : FrameTx) : Option Word :=
  (tx.envelope true).map fun items => keccak (0x06#8 :: rlpList items)

/-- `_calldata_gas` -/
def calldataGas (encoded : Bytes) : Nat := (encoded.map fun b => if b = 0 then 4 else 16).sum

def signatureGas (tx : FrameTx) : Nat := (tx.signatures.map fun s => if s.scheme = 0 then 2800 else if s.scheme = 1 then 6700 else 0).sum

def recentRootGas (tx : FrameTx) : Nat := if tx.recentRootRefs = [] then 0 else 2400 + tx.recentRootRefs.length * 2002

def totalGasLimit (tx : FrameTx) : Option Int := do
  let framesRlp := rlpList (← tx.frames.mapM Frame.rlp)
  let sigsRlp := rlpList (← tx.signatures.mapM fun s => s.rlp false)
  let refsRlp := rlpList (← tx.recentRootRefs.mapM Reference.rlp)
  let refsGas := if tx.recentRootRefs = [] then 0 else calldataGas refsRlp
  let calldata := calldataGas framesRlp + calldataGas sigsRlp + refsGas
  return ((15000 + tx.frames.length * 475 + calldata + tx.signatureGas : Nat) : Int) + (tx.frames.map Frame.gasLimit).sum + tx.recentRootGas

def maxCost (tx : FrameTx) : Option Int := do
  return tx.maxFee * (← tx.totalGasLimit) + (tx.blobHashes.length * 131072 : Nat) * tx.maxBlobFee

end FrameTx

end ShieldedPool.Wire
