import ShieldedPool.Paymaster
import ShieldedPool.Proofs.Seam

/-! The sponsoring paymaster. What its code checks before it approves payment, what frame 0
of the pool has checked by then, and why the two together never leave it out of pocket. -/

namespace ShieldedPool.Proofs
open Evm Yul PoolYul Exec

namespace Paymaster
open ShieldedPool.Paymaster

variable {ω α : Type} {d : Deployment} {address : Address} {runtime : Bytes} {c : Call} {o : Opcodes}

/-- A paymaster configured for one pool that is also the sender. -/
def imageFor (d : Deployment) (runtime : Bytes) : Image where
  runtime := runtime
  pool := d.self.word
  poolSender := d.self.word

/-- The words of frame 2 that the paymaster compares with its own call. -/
def SameWords (data : Bytes) (o : Opcodes) (offset count : Nat) : Prop :=
  ∀ k, k < count → o.frameDataLoad 2 (offset + 32 * k) = some (wordAt data (offset + 32 * k))

/-- All that the paymaster checks of a transaction before it pays for it. -/
structure Pays (d : Deployment) (address : Address) (data : Bytes) (o : Opcodes) : Prop where
  size : BitVec.ofNat 256 data.length = 548#256
  frames : o.txParam 0x09 = some 3
  frameIndex : o.txParam 0x0A = some 1
  sender : o.txParam 0x02 = some d.self.word
  covered : ∃ cost, o.txParam 0x06 = some cost ∧ cost ≤ wordAt data 228
  verifyTarget : o.frameParam 0 0x00 = some d.self.word
  verifyFlags : o.frameParam 0 0x03 = some 2
  payTarget : o.frameParam 1 0x00 = some address.word
  settleTarget : o.frameParam 2 0x00 = some d.self.word
  words : SameWords data o 4 17

/-- The call in frame 2, of which the paymaster looks at no more than the selector. -/
def Settles (o : Opcodes) : Prop :=
  ∃ len, o.frameParam 2 0x04 = some len ∧ ∃ head, o.frameDataLoad 2 0 = some head ∧
    if len = 548 then head >>> 224 = 0xb9947fa0#256 else len = 580 ∧ head >>> 224 = 0xd677b46e#256

/-- Its other checks, which frame 0 of the pool makes as well or which follow from them. -/
structure Terms (d : Deployment) (address : Address) (data : Bytes) (o : Opcodes) : Prop extends Pays d address data o where
  selector : wordAt data 0 >>> 224 = 0x8cc8fe8d#256
  keyCount : o.txParam 0x0D = some 2
  nonceSeq : o.txParam 0x01 = some 0
  lo : o.nonceKey 0 = some (if Op.gt (wordAt data 68) (wordAt data 100) ≠ 0 then wordAt data 100 else wordAt data 68)
  hi : o.nonceKey 1 = some (if Op.gt (wordAt data 68) (wordAt data 100) ≠ 0 then wordAt data 68 else wordAt data 100)
  refCount : o.txParam 0x0F = some 1
  source : o.recentRootRef 0 0 = some d.sourceId
  root : o.recentRootRef 2 0 = some (wordAt data 4)
  signatures : o.txParam 0x0B = some 1
  blobs : o.txParam 0x07 = some 0
  verifyMode : o.frameParam 0 0x02 = some 1
  verifyData : o.frameParam 0 0x04 = some 0
  verifyGas : o.frameParam 0 0x01 = some 300000
  verifyValue : o.frameParam 0 0x08 = some 0
  payMode : o.frameParam 1 0x02 = some 1
  payFlags : o.frameParam 1 0x03 = some 1
  payData : o.frameParam 1 0x04 = some 548
  payGas : o.frameParam 1 0x01 = some 100000
  payValue : o.frameParam 1 0x08 = some 0
  settleMode : o.frameParam 2 0x02 = some 2
  settleFlags : o.frameParam 2 0x03 = some 0
  settleGas : o.frameParam 2 0x01 = some 10000000
  settleValue : o.frameParam 2 0x08 = some 0
  call : Settles o

theorem compareWords_returns (env : Env) (o : Opcodes) (count offset : Nat) :
    Returns (compareWords env o count offset : Program ω Unit) fun _ => SameWords env.data o offset count := by
  induction count generalizing offset with
  | zero => exact (Returns.pure ()).congr fun _ => ⟨fun _ k inside => absurd inside (Nat.not_lt_zero k), fun _ => rfl⟩
  | succ count ih =>
    refine ((opcode_returns _).bind fun w => (Returns.pure (wordAt env.data offset)).value <|
      (Returns.revertIf _ _).guard (ih (offset + 32))).congr fun _ => ?_
    simp only [Op.iszero_eq_ne_zero, ne_eq, not_not]
    constructor
    · rintro ⟨w, loaded, rfl, rest⟩ k inside
      cases k with
      | zero => exact loaded
      | succ k =>
        have later := rest k (by omega)
        rwa [show offset + 32 + 32 * k = offset + 32 * (k + 1) by ring] at later
    · intro all
      refine ⟨wordAt env.data offset, all 0 (by omega), rfl, fun k inside => ?_⟩
      have later := all (k + 1) (by omega)
      rwa [show offset + 32 * (k + 1) = offset + 32 + 32 * k by ring] at later

theorem configured_returns :
    Returns (configured (environment d address (imageFor d runtime) c) : Program ω (Word × Word)) fun addresses =>
      addresses = (d.self.word, d.self.word) := by
  let env := environment d address (imageFor d runtime) c
  let words := [d.self.word, d.self.word]
  have code : env.code = runtime ++ encodeWords words := by
    change runtime ++ encodeWord d.self.word ++ encodeWord d.self.word = _
    simp [words]
  have bytes : slice env.code (env.code.length - 64) 64 = encodeWords words := by
    rw [slice_load _ _ _ (by rw [code]; simp [words])]
    simp [code, words]
  have stored (memory : Memory) (i : Nat) (inside : i < words.length) :
      (memory.store 0 (encodeWords words)).loadWord (32 * i) = words[i] := by
    have loaded := Memory.loadWord_store memory 0 (encodeWords words) (32 * i) (by rw [length_encodeWords]; omega)
    rw [Nat.zero_add] at loaded
    rw [loaded, ← List.append_nil (encodeWords words), wordAt_encodeWords _ i inside]
  refine ⟨fun m a => ?_⟩
  change (∃ t, Except.ok ((Op.and ((m.memory.store 0 (slice env.code (env.code.length - 64) 64)).loadWord (32 * 0)) Op.addressMask,
    Op.and ((m.memory.store 0 (slice env.code (env.code.length - 64) 64)).loadWord (32 * 1)) Op.addressMask), _) =
      Except.ok (a, t)) ↔ _
  rw [bytes, stored _ 0 (by simp [words]), stored _ 1 (by simp [words])]
  simp [words, Op.and_addressMask, eq_comm]

theorem calldataload_returns (env : Env) (offset : Nat) :
    Returns (calldataload env offset : Program ω Word) fun w => w = wordAt env.data offset := .pure _

theorem checkSettleCall_returns (o : Opcodes) :
    Returns (ShieldedPool.Paymaster.checkSettleCall o : Program ω Unit) fun _ => Settles o := by
  refine ((opcode_returns _).bind fun len => (opcode_returns _).bind fun head =>
    .ite (Returns.revertIf _ _) (.ite (Returns.revertIf _ _) (.revert _))).congr fun _ => ?_
  simp only [selector_iff, if_false_right]
  rfl

/-- The paymaster approves nothing but payment, and exactly on its terms. -/
theorem approvePayment_returns :
    Returns (approvePayment (environment d address (imageFor d runtime) c) o : Program ω Word) fun scope =>
      Terms d address c.data o ∧ scope = 1 := by
  have returns := ((Returns.revertIf _ _).guard <| (calldataload_returns ..).value <| (Returns.revertIf _ _).guard <|
    configured_returns.value <| (demandEq_returns ..).guard <| (calldataload_returns ..).value <| (calldataload_returns ..).value <|
    (calldataload_returns ..).value <| (opcode_returns _).bind fun maxCost => (Returns.revertIf _ _).guard <|
    (demandEq_returns ..).guard <| (demandZero_returns ..).guard <| (demandEq_returns ..).guard <|
    (demandEq_returns ..).guard <| (demandEq_returns ..).guard <| hashedPool_returns rfl fun source own =>
    (Returns.revertIf _ _).guard <| (calldataload_returns ..).value <| (demandEq_returns ..).guard <|
    (demandEq_returns ..).guard <| (demandEq_returns ..).guard <| (demandEq_returns ..).guard <| (demandZero_returns ..).guard <|
    (demandEq_returns ..).guard <| (demandEq_returns ..).guard <| (demandEq_returns ..).guard <| (demandZero_returns ..).guard <|
    (demandEq_returns ..).guard <| (demandZero_returns ..).guard <|
    (demandEq_returns ..).guard <| (demandEq_returns ..).guard <| (demandEq_returns ..).guard <| (demandEq_returns ..).guard <|
    (demandEq_returns ..).guard <| (demandZero_returns ..).guard <|
    (demandEq_returns ..).guard <| (demandEq_returns ..).guard <| (demandZero_returns ..).guard <| (demandEq_returns ..).guard <|
    (demandZero_returns ..).guard <| (checkSettleCall_returns o).guard <| (compareWords_returns ..).guard <| Returns.pure 1 :
      Returns (approvePayment (environment d address (imageFor d runtime) c) o : Program ω Word) _)
  refine returns.congr fun scope => ?_
  simp only [selector_iff, Op.lt_ne_zero, BitVec.not_lt]
  constructor
  · rintro ⟨size, selector, sender, maxCost, charged, covered, keyCount, nonceSeq, lo, hi, refCount, source, named, own, root,
      frames, index, signatures, blobs, target, mode, flags, data, gas, value, payTarget, payMode, payFlags, payData, payGas,
      payValue, settleTarget, settleMode, settleFlags, settleGas, settleValue, call, words, rfl⟩
    exact ⟨⟨⟨size, frames, index, sender, ⟨maxCost, charged, covered⟩, target, flags, payTarget, settleTarget, words⟩,
      selector, keyCount, nonceSeq, lo, hi, refCount, own ▸ named, root, signatures, blobs, mode, data, gas, value, payMode,
      payFlags, payData, payGas, payValue, settleMode, settleFlags, settleGas, settleValue, call⟩, rfl⟩
  · rintro ⟨terms, rfl⟩
    obtain ⟨maxCost, charged, covered⟩ := terms.covered
    exact ⟨terms.size, terms.selector, terms.sender, maxCost, charged, covered, terms.keyCount, terms.nonceSeq, terms.lo, terms.hi,
      terms.refCount, _, terms.source, rfl, terms.root, terms.frames, terms.frameIndex, terms.signatures, terms.blobs,
      terms.verifyTarget, terms.verifyMode, terms.verifyFlags, terms.verifyData, terms.verifyGas, terms.verifyValue,
      terms.payTarget, terms.payMode, terms.payFlags, terms.payData, terms.payGas, terms.payValue, terms.settleTarget,
      terms.settleMode, terms.settleFlags, terms.settleGas, terms.settleValue, terms.call, terms.words, rfl⟩

theorem run_nil (empty : c.data = []) : run (environment d address (imageFor d runtime) c) o = .ok none := if_pos empty

/-- On a call with data, the paymaster pays exactly on its terms. -/
theorem run_ok {scope : Word} (nonempty : c.data ≠ []) :
    run (environment d address (imageFor d runtime) c) o = .ok (some scope) ↔ Terms d address c.data o ∧ scope = 1 := by
  rw [← (@approvePayment_returns Unit d address runtime c o).iff (Machine.start ()) scope, run,
    if_neg (show (environment d address (imageFor d runtime) c).data ≠ [] from nonempty)]
  cases approvePayment (environment d address (imageFor d runtime) c) o (Machine.start ()) with
  | error data => exact iff_of_false nofun nofun
  | ok pair =>
    obtain ⟨other, t⟩ := pair
    constructor
    · intro returned
      cases returned
      exact ⟨t, rfl⟩
    · rintro ⟨_, same⟩
      cases same
      rfl

theorem pays_of_run {scope : Word} (ran : run (environment d address (imageFor d runtime) c) o = .ok (some scope)) :
    Pays d address c.data o ∧ scope = 1 := by
  by_cases empty : c.data = []
  · rw [run_nil empty] at ran
    cases ran
  · exact ((run_ok empty).mp ran).imp_left Terms.toPays

end Paymaster

end ShieldedPool.Proofs
