import ShieldedPool.Tooling.Wire

/-! Which transactions have an encoding: numbers are not negative and addresses have twenty bytes. -/

namespace ShieldedPool.Wire
open Evm

/-- An integer that is an address. -/
def IsAddress (a : Int) : Prop := 0 ≤ a ∧ a < 2 ^ 160

structure Frame.Encodable (f : Frame) : Prop where
  mode : 0 ≤ f.mode
  flags : 0 ≤ f.flags
  target : ∀ a ∈ f.target, IsAddress a
  gasLimit : 0 ≤ f.gasLimit
  value : 0 ≤ f.value

structure FrameSig.Encodable (s : FrameSig) : Prop where
  scheme : 0 ≤ s.scheme
  signer : IsAddress s.signer

structure FrameTx.Encodable (tx : FrameTx) : Prop where
  chainId : 0 ≤ tx.chainId
  nonceKeys : ∀ key ∈ tx.nonceKeys, 0 ≤ key
  nonceSeq : 0 ≤ tx.nonceSeq
  sender : IsAddress tx.sender
  frames : ∀ f ∈ tx.frames, f.Encodable
  signatures : ∀ s ∈ tx.signatures, s.Encodable
  maxPriorityFee : 0 ≤ tx.maxPriorityFee
  maxFee : 0 ≤ tx.maxFee
  maxBlobFee : 0 ≤ tx.maxBlobFee
  recentRootRefs : ∀ r ∈ tx.recentRootRefs, 0 ≤ r.slot

theorem isSome_rlpInt (x : Int) : (rlpInt x).isSome ↔ 0 ≤ x := by
  rw [rlpInt]
  split_ifs with sign <;> simp [sign]

theorem isSome_addr20 (a : Int) : (addr20 a).isSome ↔ IsAddress a := by
  have bound : (256 : Int) ^ 20 = 2 ^ 160 := by norm_num
  rw [addr20, toBytes, bound, IsAddress]
  by_cases inside : 0 ≤ a ∧ a < 2 ^ 160
  · rw [if_pos inside]
    exact iff_of_true rfl inside
  · rw [if_neg inside]
    exact iff_of_false Bool.false_ne_true inside

/-- The rest of an encoding does not depend on the parts before it. -/
theorem isSome_bind_of {α β : Type} (x : Option α) (f : α → Option β) {p : Prop} (rest : ∀ a, (f a).isSome ↔ p) :
    (x >>= f).isSome ↔ x.isSome ∧ p := by
  cases x with
  | none => simp
  | some a => simpa using rest a

theorem isSome_targetRlp (target : Option Int) : (targetRlp target).isSome ↔ ∀ a ∈ target, IsAddress a := by
  cases target <;> simp [targetRlp, isSome_addr20]

theorem isSome_mapM {α β : Type} (f : α → Option β) (items : List α) :
    (items.mapM f).isSome ↔ ∀ a ∈ items, (f a).isSome := by
  induction items with
  | nil => simp
  | cons a items ih =>
    rw [List.mapM_cons, isSome_bind_of _ _ fun _ => isSome_bind_of _ _ fun _ => iff_of_true rfl trivial, and_true, ih,
      List.forall_mem_cons]

theorem Frame.isSome_rlp (f : Frame) : f.rlp.isSome ↔ f.Encodable := by
  rw [Frame.rlp, isSome_bind_of _ _ fun _ => isSome_bind_of _ _ fun _ => isSome_bind_of _ _ fun _ =>
    isSome_bind_of _ _ fun _ => isSome_bind_of _ _ fun _ => iff_of_true rfl trivial]
  simp only [isSome_targetRlp, isSome_rlpInt]
  exact ⟨fun ⟨mode, flags, target, gasLimit, value, _⟩ => ⟨mode, flags, target, gasLimit, value⟩,
    fun ⟨mode, flags, target, gasLimit, value⟩ => ⟨mode, flags, target, gasLimit, value, trivial⟩⟩

theorem FrameSig.isSome_rlp (s : FrameSig) (elide : Bool) : (s.rlp elide).isSome ↔ s.Encodable := by
  rw [FrameSig.rlp, isSome_bind_of _ _ fun _ => isSome_bind_of _ _ fun _ => iff_of_true rfl trivial]
  simp only [isSome_rlpInt, isSome_addr20]
  exact ⟨fun ⟨scheme, signer, _⟩ => ⟨scheme, signer⟩, fun ⟨scheme, signer⟩ => ⟨scheme, signer, trivial⟩⟩

theorem Reference.isSome_rlp (r : Reference) : r.rlp.isSome ↔ 0 ≤ r.slot := by
  rw [Reference.rlp, isSome_bind_of _ _ fun _ => iff_of_true rfl trivial]
  simp only [isSome_rlpInt, and_true]

namespace FrameTx

theorem isSome_envelope (tx : FrameTx) (elide : Bool) : (tx.envelope elide).isSome ↔ tx.Encodable := by
  rw [envelope, isSome_bind_of _ _ fun _ => isSome_bind_of _ _ fun _ => isSome_bind_of _ _ fun _ =>
    isSome_bind_of _ _ fun _ => isSome_bind_of _ _ fun _ => isSome_bind_of _ _ fun _ => isSome_bind_of _ _ fun _ =>
    isSome_bind_of _ _ fun _ => isSome_bind_of _ _ fun _ => isSome_bind_of _ _ fun _ => iff_of_true rfl trivial]
  simp only [isSome_rlpInt, isSome_addr20, isSome_mapM, Frame.isSome_rlp, FrameSig.isSome_rlp, Reference.isSome_rlp]
  constructor
  · rintro ⟨chainId, nonceKeys, nonceSeq, sender, frames, signatures, maxPriorityFee, maxFee, maxBlobFee, refs, _⟩
    exact ⟨chainId, nonceKeys, nonceSeq, sender, frames, signatures, maxPriorityFee, maxFee, maxBlobFee, refs⟩
  · rintro ⟨chainId, nonceKeys, nonceSeq, sender, frames, signatures, maxPriorityFee, maxFee, maxBlobFee, refs⟩
    exact ⟨chainId, nonceKeys, nonceSeq, sender, frames, signatures, maxPriorityFee, maxFee, maxBlobFee, refs, trivial⟩

theorem isSome_raw (tx : FrameTx) : tx.raw.isSome ↔ tx.Encodable := by
  rw [raw, encode, Option.isSome_map, Option.isSome_map, isSome_envelope]

theorem isSome_sigHash (keccak : Bytes → Word) (tx : FrameTx) : (tx.sigHash keccak).isSome ↔ tx.Encodable := by
  rw [sigHash, Option.isSome_map, isSome_envelope]

/-- Whatever can be sent has a cost. -/
theorem isSome_maxCost {tx : FrameTx} (encodable : tx.Encodable) : tx.maxCost.isSome := by
  have frames : (tx.frames.mapM Frame.rlp).isSome :=
    (isSome_mapM _ _).mpr fun f member => (Frame.isSome_rlp f).mpr (encodable.frames f member)
  have signatures : (tx.signatures.mapM fun s : FrameSig => s.rlp false).isSome :=
    (isSome_mapM _ _).mpr fun s member => (FrameSig.isSome_rlp s false).mpr (encodable.signatures s member)
  have refs : (tx.recentRootRefs.mapM Reference.rlp).isSome :=
    (isSome_mapM _ _).mpr fun r member => (Reference.isSome_rlp r).mpr (encodable.recentRootRefs r member)
  obtain ⟨_, frames⟩ := Option.isSome_iff_exists.mp frames
  obtain ⟨_, signatures⟩ := Option.isSome_iff_exists.mp signatures
  obtain ⟨_, refs⟩ := Option.isSome_iff_exists.mp refs
  rw [maxCost, totalGasLimit, frames, signatures, refs]
  rfl

example : totalGasLimit {
    chainId := 1
    nonceKeys := [0]
    nonceSeq := 7
    sender := 0xABCD
    frames := [⟨1, 3, none, 0x5208, 0, [0x11#8, 0x22#8]⟩, ⟨2, 0, some 0x1234, 0x9c40, 0, []⟩]
    signatures := [⟨secp256k1, 0xABCD, [], List.replicate 65 1⟩]
    maxPriorityFee := 0x3b9aca00
    maxFee := 0x6fc23ac00 } = some 81478 := by decide +kernel

end FrameTx

end ShieldedPool.Wire
