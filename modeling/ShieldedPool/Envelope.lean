import ShieldedPool.Interface
import ShieldedPool.Evm.Yul

/-! Frame transactions as contract code sees them: the envelope opcodes of EIP-8141,
EIP-8250 and EIP-8272, and EnvelopeProbe.yul, which hands them to Solidity code. -/

namespace ShieldedPool
open Evm Yul

/-- The introspection opcodes. `none` is the exceptional halt of a read out of range or
outside a frame transaction. -/
structure Opcodes where
  /-- TXPARAM, by parameter. -/
  txParam : Nat → Option Word
  /-- FRAMEPARAM, by frame index and parameter. -/
  frameParam : Nat → Nat → Option Word
  /-- FRAMEDATALOAD, by frame index and byte offset. -/
  frameDataLoad : Nat → Nat → Option Word
  nonceKey : Nat → Option Word
  /-- RECENTROOTREFLOAD, by field and reference index. -/
  recentRootRef : Nat → Nat → Option Word

/-- What the opcodes give outside a frame transaction. -/
def Opcodes.absent : Opcodes where
  txParam := fun _ => none
  frameParam := fun _ _ => none
  frameDataLoad := fun _ _ => none
  nonceKey := fun _ => none
  recentRootRef := fun _ _ => none

/-- An opcode that halts takes its whole call down without return data. -/
def opcode {ω : Type} : Option Word → Program ω Word
  | some w => return w
  | none => Exec.revert []

inductive Mode where
  | default | verify | sender
  deriving DecidableEq, Repr

def Mode.word : Mode → Word
  | default => 0
  | verify => 1
  | sender => 2

structure Frame where
  mode : Mode
  flags : Word
  target : Address
  gasLimit : Word
  value : Word
  data : Bytes
  short : data.length < 2 ^ 64
  deriving DecidableEq

structure RootReference where
  source : Word
  slot : Word
  root : Word
  deriving DecidableEq, Repr

structure FrameTx where
  sender : Address
  frames : List Frame
  nonceKeys : List Word
  nonceSeq : Word
  refs : List RootReference
  signatures : Word
  blobs : Word
  maxCost : Word
  fewFrames : frames.length < 2 ^ 64
  fewKeys : nonceKeys.length < 2 ^ 64
  fewRefs : refs.length < 2 ^ 64
  deriving DecidableEq

namespace FrameTx

def frameParam (f : Frame) : Nat → Option Word
  | 0x00 => some f.target.word
  | 0x01 => some f.gasLimit
  | 0x02 => some f.mode.word
  | 0x03 => some f.flags
  | 0x04 => some (BitVec.ofNat 256 f.data.length)
  | 0x08 => some f.value
  | _ => none

def refField (r : RootReference) : Nat → Option Word
  | 0 => some r.source
  | 1 => some r.slot
  | 2 => some r.root
  | _ => none

/-- The parameters while frame `index` runs, once `payer` has approved payment. -/
def txParam (tx : FrameTx) (index : Nat) (payer : Option Address) : Nat → Option Word
  | 0x01 => some tx.nonceSeq
  | 0x02 => some tx.sender.word
  | 0x06 => some tx.maxCost
  | 0x07 => some tx.blobs
  | 0x09 => some (BitVec.ofNat 256 tx.frames.length)
  | 0x0A => some (BitVec.ofNat 256 index)
  | 0x0B => some tx.signatures
  | 0x0D => some (BitVec.ofNat 256 tx.nonceKeys.length)
  | 0x0F => some (BitVec.ofNat 256 tx.refs.length)
  | 0x11 => some (match payer with | some a => a.word | none => 0)
  | _ => none

def opcodes (tx : FrameTx) (index : Nat) (payer : Option Address) : Opcodes where
  txParam := tx.txParam index payer
  frameParam := fun i param => tx.frames[i]? >>= fun f => frameParam f param
  frameDataLoad := fun i offset => tx.frames[i]? >>= fun f => some (wordAt f.data offset)
  nonceKey := fun i => tx.nonceKeys[i]?
  recentRootRef := fun field i => tx.refs[i]? >>= fun r => refField r field

end FrameTx

namespace EnvelopeProbe

def runtime (o : Opcodes) : Program Unit Bytes := do
  let frames ← opcode (o.txParam 0x09)
  mstore 0 frames
  let frameIndex ← opcode (o.txParam 0x0A)
  mstore 32 frameIndex
  let keyCount ← opcode (o.txParam 0x0D)
  mstore 64 keyCount
  let nonceSeq ← opcode (o.txParam 0x01)
  mstore 96 nonceSeq
  Exec.when (Op.gt keyCount 0 ≠ 0) do
    let key ← opcode (o.nonceKey 0)
    mstore 128 key
  Exec.when (Op.gt keyCount 1 ≠ 0) do
    let key ← opcode (o.nonceKey 1)
    mstore 160 key
  let refCount ← opcode (o.txParam 0x0F)
  mstore 192 refCount
  Exec.when (Op.gt refCount 0 ≠ 0) do
    let source ← opcode (o.recentRootRef 0 0)
    mstore 224 source
    let root ← opcode (o.recentRootRef 2 0)
    mstore 256 root
  Exec.when (Op.lt frameIndex frames ≠ 0) do
    let target ← opcode (o.frameParam frameIndex.toNat 0x00)
    mstore 288 target
  let payer ← opcode (o.txParam 0x11)
  mstore 320 payer
  memoryRange 0 352

/-- What a STATICCALL to the probe returns, if it succeeds. -/
def reply (o : Opcodes) : Option Bytes :=
  match runtime o (Machine.start ()) with
  | .ok (out, _) => some out
  | .error _ => none

end EnvelopeProbe

end ShieldedPool
