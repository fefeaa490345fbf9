import ShieldedPool.Proofs.Broadcast
import ShieldedPool.Proofs.FrameProof
import ShieldedPool.Proofs.Paymaster
import ShieldedPool.Proofs.Settle

/-! The transaction the tooling builds for a spend, as the protocol reads it, meets every check
of the pool's frame 0 and of the paymaster but the ones on the proof and on the fee. -/

namespace ShieldedPool.Tooling
open Evm Yul Proofs

variable {tools : Tools} {job : Job} {d : Deployment} {sp : Spend}

structure ReadsFrame (f : Wire.Frame) (seen : Frame) : Prop where
  mode : f.mode = seen.mode.word.toNat
  flags : f.flags = seen.flags.toNat
  target : f.target = some (seen.target.toNat : Int)
  gasLimit : f.gasLimit = seen.gasLimit.toNat
  value : f.value = seen.value.toNat
  data : f.data = seen.data

structure ReadsReference (r : Wire.Reference) (seen : RootReference) : Prop where
  source : r.sourceId = encodeWord seen.source
  slot : r.slot = seen.slot.toNat
  root : r.root = encodeWord seen.root

/-- The transaction that contracts see when the tooling's is processed. Its maximum cost is up to
the protocol. -/
structure Reads (tx : Wire.FrameTx) (seen : FrameTx) : Prop where
  sender : tx.sender = seen.sender.toNat
  frames : List.Forall₂ ReadsFrame tx.frames seen.frames
  nonceKeys : tx.nonceKeys = seen.nonceKeys.map fun key => (key.toNat : Int)
  nonceSeq : tx.nonceSeq = seen.nonceSeq.toNat
  refs : List.Forall₂ ReadsReference tx.recentRootRefs seen.refs
  signatures : tx.signatures.length = seen.signatures.toNat
  blobs : tx.blobHashes.length = seen.blobs.toNat

/-- The calldata of a spend of the right shape for its operation. -/
inductive SettleData (sp : Spend) : Bytes → Prop
  | transfer (amount : sp.publicAmount = 0) (ctx : sp.ctx = 0) :
      SettleData sp (selectorBytes 0xb9947fa0#256 ++ encodeWords sp.words)
  | withdraw {recipient : Address} (amount : sp.publicAmount ≠ 0) (nonzero : recipient.word ≠ 0) (ctx : sp.ctx = recipient.word) :
      SettleData sp (selectorBytes 0xd677b46e#256 ++ encodeWords (sp.words ++ [recipient.word]))

/-- The calldata of the paymaster's frame. -/
def carrier (sp : Spend) : Bytes := selectorBytes 0x8cc8fe8d#256 ++ encodeWords sp.words

/-- The arguments of `build_and_send` for an ordinary spend of this pool. -/
structure Spends (d : Deployment) (sp : Spend) (paymaster : Option Int) (job : Job) : Prop where
  pool : job.pool = d.self.toNat
  value : job.value = 0
  calldata : SettleData sp job.calldata
  nonces : job.protocolNonces = [(sp.lo.toNat : Int), sp.hi.toNat]
  distinct : sp.nf1 ≠ sp.nf2
  verify : job.proofVerify = some (paymaster, carrier sp)
  refs : ∃ slot : Word, job.recentRootRefs = [⟨encodeWord d.sourceId, slot.toNat, encodeWord sp.root⟩]
  sender : job.senderOverride = some (d.self.toNat : Int)
  gas : job.settleGasOverride = none

theorem length_words (sp : Spend) : sp.words.length = 17 := rfl

/-- The tuple stands in front of whatever follows it. -/
theorem SettleData.split {data : Bytes} (settles : SettleData sp data) :
    ∃ selector rest, data = selectorBytes selector ++ (encodeWords sp.words ++ rest) := by
  cases settles with
  | transfer => exact ⟨_, [], by rw [List.append_nil]⟩
  | withdraw => exact ⟨_, _, by rw [encodeWords_append]⟩

theorem SettleData.length {data : Bytes} (settles : SettleData sp data) : data.length = 548 ∨ data.length = 580 := by
  cases settles with
  | transfer => exact .inl (by rw [List.length_append, length_selectorBytes, length_encodeWords, length_words])
  | withdraw =>
    exact .inr (by rw [List.length_append, length_selectorBytes, length_encodeWords, List.length_append, length_words]; rfl)

theorem decode_split (selector : Word) (rest : Bytes) :
    Spend.decode (selectorBytes selector ++ (encodeWords sp.words ++ rest)) 4 = sp := by
  have decoded := sp.decode_words (selectorBytes selector) rest
  rwa [length_selectorBytes] at decoded

theorem SettleData.decode {data : Bytes} (settles : SettleData sp data) : Spend.decode data 4 = sp := by
  obtain ⟨selector, rest, rfl⟩ := settles.split
  exact decode_split selector rest

theorem length_carrier (sp : Spend) : (carrier sp).length = 548 := by
  rw [carrier, List.length_append, length_selectorBytes, length_encodeWords, length_words]

theorem decode_carrier (sp : Spend) : Spend.decode (carrier sp) 4 = sp := by
  have decoded := @decode_split sp 0x8cc8fe8d#256 []
  rwa [List.append_nil] at decoded

/-- The carrier repeats the tuple of the settle frame word for word. -/
theorem SettleData.words {data : Bytes} (settles : SettleData sp data) {k : Nat} (inside : k < 17) :
    wordAt data (4 + 32 * k) = wordAt (carrier sp) (4 + 32 * k) := by
  obtain ⟨selector, rest, rfl⟩ := settles.split
  have bound : k < sp.words.length := inside
  have stands (rest : Bytes) : wordAt (encodeWords sp.words ++ rest) (32 * k) = sp.words[k] := wordAt_encodeWords _ _ bound rest
  have bare := stands []
  rw [List.append_nil] at bare
  rw [carrier, wordAt_selectorBytes, wordAt_selectorBytes, stands, bare]

theorem empty_short : ([] : Bytes).length < 2 ^ 64 := by decide

def approveFrame (d : Deployment) (flags gas : Word) : Frame where
  mode := .verify
  flags := flags
  target := d.self
  gasLimit := gas
  value := 0
  data := []
  short := empty_short

def carrierFrame (pm : Address) (sp : Spend) : Frame where
  mode := .verify
  flags := 1
  target := pm
  gasLimit := 100000
  value := 0
  data := carrier sp
  short := by
    rw [length_carrier]
    decide

def settlementFrame (d : Deployment) {data : Bytes} (settles : SettleData sp data) : Frame where
  mode := .sender
  flags := 0
  target := d.self
  gasLimit := 10000000
  value := 0
  data := data
  short := by
    rcases settles.length with size | size
    · rw [size]
      decide
    · rw [size]
      decide

theorem word_of_int {w v : Word} (same : (w.toNat : Int) = v.toNat) : w = v := BitVec.eq_of_toNat_eq (Int.ofNat.inj same)

theorem mode_of_int {m n : Mode} (same : (m.word.toNat : Int) = n.word.toNat) : m = n := by
  cases m <;> cases n <;> first | rfl | exact absurd same (by decide)

/-- A frame is read in one way only. -/
theorem ReadsFrame.unique {f : Wire.Frame} {first second : Frame} (one : ReadsFrame f first) (other : ReadsFrame f second) :
    first = second := by
  obtain ⟨mode, flags, target, gasLimit, value, data, short⟩ := first
  obtain ⟨mode', flags', target', gasLimit', value', data', short'⟩ := second
  obtain rfl := mode_of_int (one.mode.symm.trans other.mode)
  obtain rfl := word_of_int (one.flags.symm.trans other.flags)
  obtain rfl := word_of_int (one.gasLimit.symm.trans other.gasLimit)
  obtain rfl := word_of_int (one.value.symm.trans other.value)
  obtain rfl : data = data' := one.data.symm.trans other.data
  have targets : (target.toNat : Int) = target'.toNat := Option.some.inj (one.target.symm.trans other.target)
  obtain rfl : target = target' := BitVec.eq_of_toNat_eq (Int.ofNat.inj targets)
  rfl

theorem reads_settle {paymaster : Option Int} (spends : Spends d sp paymaster job) :
    ReadsFrame (settleFrame job 10000000) (settlementFrame d spends.calldata) :=
  ⟨rfl, rfl, congrArg some spends.pool, rfl, spends.value, rfl⟩

/-- The transaction with the given frames before the one that settles. -/
def spendTx (d : Deployment) {data : Bytes} (settles : SettleData sp data) (verify : List Frame) (few : verify.length ≤ 2) (slot maxCost : Word) :
    FrameTx where
  sender := d.self
  frames := verify ++ [settlementFrame d settles]
  nonceKeys := [sp.lo, sp.hi]
  nonceSeq := 0
  refs := [⟨d.sourceId, slot, sp.root⟩]
  signatures := 1
  blobs := 0
  maxCost := maxCost
  fewFrames := by
    rw [List.length_append, List.length_singleton]
    omega
  fewKeys := show (2 : Nat) < 2 ^ 64 by decide
  fewRefs := show (1 : Nat) < 2 ^ 64 by decide

theorem SettleData.call {data : Bytes} (settles : SettleData sp data) {o : Opcodes} {i : Nat}
    (size : o.frameParam i 0x04 = some (BitVec.ofNat 256 data.length))
    (loads : ∀ offset, o.frameDataLoad i offset = some (wordAt data offset)) : SettleCall o i sp := by
  cases settles with
  | transfer amount ctx =>
    refine .transfer (size.trans ?_) (loads 0) (selector_selectorBytes _ (by decide) _) amount ctx
    rw [List.length_append, length_selectorBytes, length_encodeWords, length_words]
    rfl
  | @withdraw recipient amount nonzero ctx =>
    refine .withdraw (size.trans ?_) (loads 0) (selector_selectorBytes _ (by decide) _) amount ((loads 548).trans ?_) nonzero ctx
    · rw [List.length_append, length_selectorBytes, length_encodeWords, List.length_append, length_words]
      rfl
    · have last := wordAt_encodeWords (sp.words ++ [recipient.word]) 17 (by rw [List.length_append, length_words]; exact Nat.lt_succ_self 17) []
      rw [List.append_nil] at last
      rw [show 548 = 4 + 32 * 17 by rfl, wordAt_selectorBytes, last]
      rfl

theorem SettleData.loaded {data : Bytes} (settles : SettleData sp data) {o : Opcodes} {i : Nat}
    (loads : ∀ offset, o.frameDataLoad i offset = some (wordAt data offset)) : SpendIn o i sp :=
  ⟨fun k => wordAt data (4 + 32 * k), fun _ _ => loads _, settles.decode.symm⟩

theorem SettleData.selected {o : Opcodes} {data : Bytes} (settles : SettleData sp data)
    (size : o.frameParam 2 0x04 = some (BitVec.ofNat 256 data.length))
    (loads : ∀ offset, o.frameDataLoad 2 offset = some (wordAt data offset)) : Paymaster.Settles o := by
  cases settles.call size loads with
  | transfer size loaded selector => exact ⟨548, size, _, loaded, by rw [if_pos rfl]; exact selector⟩
  | withdraw size loaded selector => exact ⟨580, size, _, loaded, by rw [if_neg (by decide)]; exact ⟨rfl, selector⟩⟩

section Checks
variable {data : Bytes} (settles : SettleData sp data) (slot maxCost : Word)

/-- Two frames: the pool approves and pays, then settles. -/
def selfPaidTx (d : Deployment) : FrameTx := spendTx d settles [approveFrame d 3 350000] (Nat.le_succ 1) slot maxCost

/-- Three frames, where the middle one carries the tuple to the paymaster. -/
def sponsoredTx (d : Deployment) (pm : Address) : FrameTx :=
  spendTx d settles [approveFrame d 2 300000, carrierFrame pm sp] (Nat.le_refl 2) slot maxCost

theorem granted_selfPaid (payer : Option Address) :
    Granted d ((selfPaidTx settles slot maxCost d).opcodes 0 payer) 3 ↔ Proven d sp ∧ maxCost ≤ sp.fee := by
  have loaded : SpendIn ((selfPaidTx settles slot maxCost d).opcodes 0 payer) 1 sp := settles.loaded fun _ => rfl
  constructor
  · generalize scope : (3 : Word) = three
    rintro (⟨_, approves, charged, covered⟩ | _)
    · obtain rfl := approves.loaded.unique loaded
      obtain rfl : maxCost = _ := Option.some.inj charged
      exact ⟨approves.proven, covered⟩
    · exact absurd scope (by decide)
  · rintro ⟨proven, covered⟩
    exact .selfPaid ⟨rfl, rfl, rfl⟩ ⟨⟨rfl, rfl, rfl, rfl, rfl, rfl, rfl, rfl, rfl, rfl, rfl, rfl, rfl, rfl, rfl, rfl⟩, loaded,
      settles.call rfl fun _ => rfl, ⟨rfl, rfl, rfl, rfl⟩, proven⟩ rfl covered

theorem granted_sponsored (payer : Option Address) (pm : Address) :
    Granted d ((sponsoredTx settles slot maxCost d pm).opcodes 0 payer) 2 ↔ Proven d sp := by
  have loaded : SpendIn ((sponsoredTx settles slot maxCost d pm).opcodes 0 payer) 2 sp := settles.loaded fun _ => rfl
  constructor
  · generalize scope : (2 : Word) = two
    rintro (_ | ⟨_, approves⟩)
    · exact absurd scope (by decide)
    · obtain rfl := approves.loaded.unique loaded
      exact approves.proven
  · intro proven
    exact .sponsored ⟨rfl, rfl, rfl, rfl, rfl, rfl, rfl⟩ ⟨⟨rfl, rfl, rfl, rfl, rfl, rfl, rfl, rfl, rfl, rfl, rfl, rfl, rfl, rfl,
      rfl, rfl⟩, loaded, settles.call rfl fun _ => rfl, ⟨rfl, rfl, rfl, rfl⟩, proven⟩

theorem terms_sponsored (payer : Option Address) (pm : Address) :
    Paymaster.Terms d pm (carrier sp) ((sponsoredTx settles slot maxCost d pm).opcodes 1 payer) ↔ maxCost ≤ sp.fee := by
  have fee : wordAt (carrier sp) 228 = sp.fee := congrArg Spend.fee (decode_carrier sp)
  have nf1 : wordAt (carrier sp) 68 = sp.nf1 := congrArg Spend.nf1 (decode_carrier sp)
  have nf2 : wordAt (carrier sp) 100 = sp.nf2 := congrArg Spend.nf2 (decode_carrier sp)
  have root : wordAt (carrier sp) 4 = sp.root := congrArg Spend.root (decode_carrier sp)
  have size : BitVec.ofNat 256 (carrier sp).length = 548#256 := by rw [length_carrier]
  constructor
  · intro terms
    obtain ⟨cost, charged, covered⟩ := terms.covered
    obtain rfl : maxCost = cost := Option.some.inj charged
    exact fee ▸ covered
  · intro covered
    exact {
      size := size
      frames := rfl
      frameIndex := rfl
      sender := rfl
      covered := ⟨maxCost, rfl, fee.symm ▸ covered⟩
      verifyTarget := rfl
      verifyFlags := rfl
      payTarget := rfl
      settleTarget := rfl
      words := fun k inside => congrArg some (settles.words inside)
      selector := selector_selectorBytes _ (by decide) _
      keyCount := rfl
      nonceSeq := rfl
      lo := by rw [nf1, nf2, (sorted_eq sp).1]; rfl
      hi := by rw [nf1, nf2, (sorted_eq sp).2]; rfl
      refCount := rfl
      source := rfl
      root := congrArg some root.symm
      signatures := rfl
      blobs := rfl
      verifyMode := rfl
      verifyData := rfl
      verifyGas := rfl
      verifyValue := rfl
      payMode := rfl
      payFlags := rfl
      payData := congrArg some size
      payGas := rfl
      payValue := rfl
      settleMode := rfl
      settleFlags := rfl
      settleGas := rfl
      settleValue := rfl
      call := settles.selected rfl fun _ => rfl }

end Checks

theorem ReadsReference.unique {r : Wire.Reference} {first second : RootReference} (one : ReadsReference r first)
    (other : ReadsReference r second) : first = second := by
  obtain ⟨source, slot, root⟩ := first
  obtain ⟨source', slot', root'⟩ := second
  obtain rfl := encodeWord_injective (one.source.symm.trans other.source)
  obtain rfl := word_of_int (one.slot.symm.trans other.slot)
  obtain rfl := encodeWord_injective (one.root.symm.trans other.root)
  rfl

theorem readsFrame_unique : Relator.RightUnique ReadsFrame := fun _ _ _ one other => one.unique other

theorem readsReference_unique : Relator.RightUnique ReadsReference := fun _ _ _ one other => one.unique other

theorem words_unique {first second : List Word} (same : first.map (fun w => (w.toNat : Int)) = second.map fun w => (w.toNat : Int)) :
    first = second := List.map_injective_iff.mpr (fun _ _ => word_of_int) same

/-- But for its maximum cost, a transaction is read in one way only. -/
theorem Reads.unique {tx : Wire.FrameTx} {first second : FrameTx} (one : Reads tx first) (other : Reads tx second)
    (cost : first.maxCost = second.maxCost) : first = second := by
  obtain ⟨sender, frames, nonceKeys, nonceSeq, refs, signatures, blobs, maxCost, _, _, _⟩ := first
  obtain ⟨sender', frames', nonceKeys', nonceSeq', refs', signatures', blobs', maxCost', _, _, _⟩ := second
  obtain rfl : maxCost = maxCost' := cost
  obtain rfl : sender = sender' := BitVec.eq_of_toNat_eq (Int.ofNat.inj (one.sender.symm.trans other.sender))
  obtain rfl : frames = frames' := List.right_unique_forall₂' readsFrame_unique one.frames other.frames
  obtain rfl : nonceKeys = nonceKeys' := words_unique (one.nonceKeys.symm.trans other.nonceKeys)
  obtain rfl := word_of_int (one.nonceSeq.symm.trans other.nonceSeq)
  obtain rfl : refs = refs' := List.right_unique_forall₂' readsReference_unique one.refs other.refs
  obtain rfl : signatures = signatures' := BitVec.eq_of_toNat_eq (one.signatures.symm.trans other.signatures)
  obtain rfl : blobs = blobs' := BitVec.eq_of_toNat_eq (one.blobs.symm.trans other.blobs)
  rfl

/-- All readings of a transaction, when there is one for each maximum cost. -/
theorem Reads.only {tx : Wire.FrameTx} {costing : Word → FrameTx} (reads : ∀ maxCost, Reads tx (costing maxCost))
    (cost : ∀ maxCost, (costing maxCost).maxCost = maxCost) {seen : FrameTx} (read : Reads tx seen) :
    ∃ maxCost, seen = costing maxCost := ⟨seen.maxCost, read.unique (reads _) (cost _).symm⟩

theorem reads_refs {paymaster : Option Int} (spends : Spends d sp paymaster job) :
    ∃ slot, List.Forall₂ ReadsReference job.recentRootRefs [⟨d.sourceId, slot, sp.root⟩] := by
  obtain ⟨slot, refs⟩ := spends.refs
  exact ⟨slot, by rw [refs]; exact .cons ⟨rfl, rfl, rfl⟩ .nil⟩

theorem nonces_nonempty {paymaster : Option Int} (spends : Spends d sp paymaster job) : job.protocolNonces ≠ [] := by
  rw [spends.nonces]
  exact nofun

/-- The built transaction is read with these frames in front of the one that settles. -/
theorem reads_spendTx {paymaster : Option Int} (spends : Spends d sp paymaster job) {c : Context} (sender : c.sender = d.self.toNat)
    {verify : List Frame} (few : verify.length ≤ 2) (frames : List.Forall₂ ReadsFrame (verifyFrames job c.sender) verify)
    (signature : Bytes) : ∃ slot, ∀ maxCost,
      Reads (unsigned tools job c job.senderGas signature) (spendTx d spends.calldata verify few slot maxCost) := by
  obtain ⟨slot, refs⟩ := reads_refs spends
  have gas : job.senderGas = 10000000 := by rw [Job.senderGas, spends.gas]; rfl
  refine ⟨slot, fun maxCost => ⟨sender, ?_, ?_, ?_, refs, rfl, rfl⟩⟩
  · rw [gas]
    exact List.rel_append frames (.cons (reads_settle spends) .nil)
  · exact (if_neg (nonces_nonempty spends)).trans spends.nonces
  · exact if_neg (nonces_nonempty spends)

theorem reads_selfPaid (spends : Spends d sp none job) {c : Context} (sender : c.sender = d.self.toNat) :
    List.Forall₂ ReadsFrame (verifyFrames job c.sender) [approveFrame d 3 350000] := by
  rw [verifyFrames, spends.verify]
  exact .cons ⟨rfl, rfl, congrArg some sender, rfl, rfl, rfl⟩ .nil

theorem reads_sponsored {pm : Address} (spends : Spends d sp (some (pm.toNat : Int)) job) {c : Context}
    (sender : c.sender = d.self.toNat) :
    List.Forall₂ ReadsFrame (verifyFrames job c.sender) [approveFrame d 2 300000, carrierFrame pm sp] := by
  rw [verifyFrames, spends.verify]
  exact .cons ⟨rfl, rfl, congrArg some sender, rfl, rfl, rfl⟩ (.cons ⟨rfl, rfl, rfl, rfl, rfl, rfl⟩ .nil)

theorem lo_lt_hi (distinct : sp.nf1 ≠ sp.nf2) : sp.lo.toNat < sp.hi.toNat := by
  have apart : sp.nf1.toNat ≠ sp.nf2.toNat := fun same => distinct (BitVec.eq_of_toNat_eq same)
  rw [Spend.lo, Spend.hi]
  split_ifs <;> omega

theorem keys_increasing {paymaster : Option Int} (spends : Spends d sp paymaster job) {c : Context} {gas : Int} {signature : Bytes} :
    (unsigned tools job c gas signature).nonceKeys.Pairwise (· < ·) := by
  have keys : (unsigned tools job c gas signature).nonceKeys = [(sp.lo.toNat : Int), sp.hi.toNat] :=
    (if_neg (nonces_nonempty spends)).trans spends.nonces
  rw [keys, List.pairwise_pair]
  exact Int.ofNat_lt.mpr (lo_lt_hi spends.distinct)

/-- Frame 0 approves execution and payment on the proof and the fee alone. -/
structure FitsSelfPaid (d : Deployment) (image : Dispatcher.Image) (sp : Spend) (tx : Wire.FrameTx) : Prop where
  increasing : tx.nonceKeys.Pairwise (· < ·)
  readable : ∀ maxCost, ∃ seen, Reads tx seen ∧ seen.maxCost = maxCost
  approved : ∀ seen, Reads tx seen → ∀ call payer,
    Dispatcher.authorize d image call (seen.opcodes 0 payer) = .ok 3 ↔ Proven d sp ∧ seen.maxCost ≤ sp.fee

/-- Frame 0 approves execution on the proof alone, and the paymaster payment on the fee alone. -/
structure FitsSponsored (d : Deployment) (image : Dispatcher.Image) (runtime : Bytes) (pm : Address) (sp : Spend)
    (tx : Wire.FrameTx) : Prop where
  increasing : tx.nonceKeys.Pairwise (· < ·)
  readable : ∀ maxCost, ∃ seen, Reads tx seen ∧ seen.maxCost = maxCost
  approved : ∀ seen, Reads tx seen → ∀ call payer,
    Dispatcher.authorize d image call (seen.opcodes 0 payer) = .ok 2 ↔ Proven d sp
  carried : ∀ seen, Reads tx seen → ∃ q f, seen.frames[1]? = some q ∧ seen.frames[2]? = some f ∧ q.target = pm ∧
    ∀ k, k < 17 → wordAt q.data (4 + 32 * k) = wordAt f.data (4 + 32 * k)
  paid : ∀ seen, Reads tx seen → ∀ call payer q, seen.frames[1]? = some q → call.data = q.data →
    (Paymaster.run (Paymaster.environment d pm (Proofs.Paymaster.imageFor d runtime) call) (seen.opcodes 1 payer) = .ok (some 1) ↔
      seen.maxCost ≤ sp.fee)

theorem fits_selfPaid (spends : Spends d sp none job) {c : Context} (sender : c.sender = d.self.toNat) (image : Dispatcher.Image)
    (signature : Bytes) : FitsSelfPaid d image sp (unsigned tools job c job.senderGas signature) := by
  obtain ⟨slot, reads⟩ : ∃ slot, ∀ maxCost, Reads (unsigned tools job c job.senderGas signature)
      (selfPaidTx spends.calldata slot maxCost d) :=
    reads_spendTx spends sender (by exact Nat.le_succ 1) (reads_selfPaid spends sender) signature
  refine ⟨keys_increasing spends, fun maxCost => ⟨_, reads maxCost, rfl⟩, fun seen read call payer => ?_⟩
  obtain ⟨maxCost, rfl⟩ := read.only reads fun _ => rfl
  exact dispatcher_authorize_ok.trans (granted_selfPaid spends.calldata slot _ payer)

theorem fits_sponsored {pm : Address} (spends : Spends d sp (some (pm.toNat : Int)) job) {c : Context}
    (sender : c.sender = d.self.toNat) (image : Dispatcher.Image) (runtime signature : Bytes) :
    FitsSponsored d image runtime pm sp (unsigned tools job c job.senderGas signature) := by
  obtain ⟨slot, reads⟩ : ∃ slot, ∀ maxCost, Reads (unsigned tools job c job.senderGas signature)
      (sponsoredTx spends.calldata slot maxCost d pm) :=
    reads_spendTx spends sender (by exact Nat.le_refl 2) (reads_sponsored spends sender) signature
  refine ⟨keys_increasing spends, fun maxCost => ⟨_, reads maxCost, rfl⟩, fun seen read call payer => ?_, fun seen read => ?_,
    fun seen read call payer q frame data => ?_⟩
  · obtain ⟨maxCost, rfl⟩ := read.only reads fun _ => rfl
    exact dispatcher_authorize_ok.trans (granted_sponsored spends.calldata slot _ payer pm)
  · obtain ⟨maxCost, rfl⟩ := read.only reads fun _ => rfl
    exact ⟨carrierFrame pm sp, settlementFrame d spends.calldata, rfl, rfl, rfl, fun k inside => (spends.calldata.words inside).symm⟩
  · obtain ⟨maxCost, rfl⟩ := read.only reads fun _ => rfl
    obtain rfl : carrierFrame pm sp = q := Option.some.inj frame
    have carried : call.data = carrier sp := data
    have nonempty : call.data ≠ [] := by
      intro none
      have size := length_carrier sp
      rw [← carried, none] at size
      cases size
    rw [Proofs.Paymaster.run_ok nonempty, carried]
    exact (and_iff_left rfl).trans (terms_sponsored spends.calldata slot _ payer pm)

/-- `cast calldata`: the selector of the signature, then the words of the arguments. -/
structure Casts (tools : Tools) : Prop where
  transfer : ∀ sp, tools.cast transferSig [.spend sp] = some (selectorBytes 0xb9947fa0#256 ++ encodeWords sp.words)
  withdraw : ∀ sp a, tools.cast withdrawSig [.spend sp, .address a] =
    some (selectorBytes 0xd677b46e#256 ++ encodeWords (sp.words ++ [a.word]))
  verifyProofOnly : ∀ sp, tools.cast verifyProofOnly [.spend sp] = some (carrier sp)

/-- The operation's shape. -/
def Shaped (fix : Fixture) (sp : Spend) : Op → Prop
  | .shield => False
  | .transfer => sp.publicAmount = 0 ∧ sp.ctx = 0
  | .withdraw => sp.publicAmount ≠ 0 ∧ ∃ recipient : Address, fix.recipient = some recipient ∧ recipient.word ≠ 0 ∧
      sp.ctx = recipient.word

/-- A spend of the fixture by the script, for the dispatcher's deployment and without the flags
that are there to spoil it. -/
structure Ordinary (d : Deployment) (tools : Tools) (cfg : Config) (fix : Fixture) (opts : Options) (op : Op) (sp : Spend) :
    Prop where
  casts : Casts tools
  pool : cfg.pool = d.self.toNat
  source : cfg.sourceId = encodeWord d.sourceId
  entry : fix.spends (opts.spendKey.getD op.name) = some sp
  shape : Shaped fix sp op
  distinct : sp.nf1 ≠ sp.nf2
  sender : opts.sender = none
  nonceKeys : opts.nonceKeys = none
  settleGas : opts.settleGas = none
  flipProof : opts.flipProof = false

variable {cfg : Config} {fix : Fixture} {opts : Options} {op : Op} {answers : Nat → Option Json} {log : Log}

theorem castCalldata_ok {sig : String} {args : List Arg} {data : Bytes} (casts : tools.cast sig args = some data) :
    castCalldata tools sig args = .ok data := by
  rw [castCalldata, casts]

theorem calldata_ordinary (ordinary : Ordinary d tools cfg fix opts op sp) :
    ∃ data, spendCalldata tools fix op sp = .ok data ∧ SettleData sp data := by
  have shape := ordinary.shape
  cases op with
  | shield => exact shape.elim
  | transfer => exact ⟨_, castCalldata_ok (ordinary.casts.transfer sp), .transfer shape.1 shape.2⟩
  | withdraw =>
    obtain ⟨amount, recipient, named, nonzero, ctx⟩ := shape
    refine ⟨_, ?_, .withdraw amount nonzero ctx⟩
    rw [spendCalldata, named]
    exact castCalldata_ok (ordinary.casts.withdraw sp recipient)

theorem sorted_nullifiers (sp : Spend) :
    [(sp.nf1.toNat : Int), sp.nf2.toNat].insertionSort (· ≤ ·) = [(sp.lo.toNat : Int), sp.hi.toNat] := by
  rw [List.insertionSort_cons, List.insertionSort_cons, List.insertionSort_nil, List.orderedInsert_nil, List.orderedInsert_cons,
    List.orderedInsert_nil, Spend.lo, Spend.hi]
  split_ifs <;> first | rfl | omega

theorem slot_of_toBytes {slot : Int} {bytes : Bytes} (fits : Wire.toBytes 8 slot = some bytes) : ∃ w : Word, slot = w.toNat := by
  rw [Wire.toBytes] at fits
  split_ifs at fits with inside
  refine ⟨BitVec.ofNat 256 slot.toNat, ?_⟩
  rw [BitVec.toNat_ofNat, Nat.mod_eq_of_lt (by omega)]
  omega

theorem committedRef_ok {slot : Int} {root : Word} {ref : Wire.Reference}
    (ended : (committedRef tools cfg slot root).talk answers = (log, .ok ref)) :
    ∃ w : Word, ref = ⟨cfg.sourceId, w.toNat, encodeWord root⟩ := by
  simp only [committedRef, talk_rpc_bind_eq_ok, Client.talk_lift_bind_eq_ok, encoded_ok] at ended
  obtain ⟨slotBytes, fits, placeBytes, -, stored, rest, -, ⟨bytes, -, last⟩, -⟩ := ended
  obtain ⟨w, rfl⟩ := slot_of_toBytes fits
  split_ifs at last with different
  · cases last
  · cases last
    exact ⟨w, rfl⟩

theorem recentRootRef_ok {pubBlock : Int} {root : Word} {ref : Wire.Reference}
    (ended : (recentRootRef tools cfg pubBlock root).talk answers = (log, .ok ref)) :
    ∃ w : Word, ref = ⟨cfg.sourceId, w.toNat, encodeWord root⟩ := by
  rw [recentRootRef, Client.talk_bind_eq_ok] at ended
  obtain ⟨_, ts, _, -, rest, -⟩ := ended
  rw [Client.talk_bind_eq_ok] at rest
  obtain ⟨_, genesis, _, -, last, -⟩ := rest
  dsimp only at last
  split_ifs at last with zero
  · cases last
  · exact committedRef_ok last

theorem flipped_ordinary (ordinary : Ordinary d tools cfg fix opts op sp) : flipped opts sp = sp := by
  rw [flipped, ordinary.flipProof]
  rfl

/-- The script's setup for an ordinary spend. -/
theorem spends_of_spendJob (ordinary : Ordinary d tools cfg fix opts op sp)
    (ended : (spendJob tools cfg fix opts op).talk answers = (log, .ok job)) :
    ∃ paymaster, payer cfg opts = .ok paymaster ∧ Spends d sp paymaster job := by
  rw [spendJob, Client.talk_lift_bind_eq_ok] at ended
  obtain ⟨paymaster, pays, ended⟩ := ended
  rw [Client.talk_bind_eq_ok] at ended
  obtain ⟨_, setup, _, prepared, ended, -⟩ := ended
  rw [Client.talk_lift_bind_eq_ok] at ended
  obtain ⟨calldata, data, ended⟩ := ended
  rw [spendSetup] at prepared
  simp only [Client.talk_lift_bind_eq_ok, encoded_ok] at prepared
  obtain ⟨found, entry, verify, carried, slot, -, prepared⟩ := prepared
  rw [Client.talk_bind_eq_ok] at prepared
  obtain ⟨_, ref, _, referred, prepared, -⟩ := prepared
  obtain ⟨w, rfl⟩ := recentRootRef_ok referred
  obtain rfl : found = sp := Option.some.inj (entry.symm.trans ordinary.entry)
  have plain := flipped_ordinary ordinary
  rw [plain, castCalldata_ok (ordinary.casts.verifyProofOnly found)] at carried
  cases carried
  cases prepared
  obtain ⟨_, data', settles⟩ := calldata_ordinary ordinary
  rw [plain] at data
  cases data.symm.trans data'
  cases ended
  refine ⟨paymaster, pays, ordinary.pool, rfl, settles, ?_, ordinary.distinct, rfl, ⟨w, ?_⟩, ?_, ordinary.settleGas⟩
  · rw [ordinary.nonceKeys, plain]
    exact sorted_nullifiers found
  · rw [ordinary.source, plain]
  · rw [ordinary.sender, ← ordinary.pool]
    rfl

/-- A request that shows the node a transaction, to simulate it or to send it. -/
def Shows (r : Request) (raw : String) : Prop := r = simulationOf raw ∨ r = ⟨"eth_sendRawTransaction", [.str raw]⟩

/-- Only the transaction built with the settle frame's full gas is shown. -/
def ShowsBuilt (tools : Tools) (job : Job) (r : Request) : Prop :=
  ∀ raw, Shows r raw → ∃ c tx, c.sender = job.sender tools ∧ build tools job c job.senderGas = .ok tx ∧ rawText tx = .ok raw

theorem showsBuilt_of_apart {r : Request} (apart : Apart r) : ShowsBuilt tools job r := by
  rintro raw (rfl | rfl)
  · exact absurd rfl apart.2
  · exact absurd rfl apart.1

theorem raw_of_shows {first raw : String} {r : Request} (request : r = simulationOf first ∨ r = ⟨"eth_sendRawTransaction", [.str first]⟩)
    (shows : Shows r raw) : raw = first := by
  rcases request with rfl | rfl <;> rcases shows with same | same <;>
    exact (Json.str.inj (List.cons.inj (Request.mk.inj same).2).1).symm

/-- Once a spend's first simulation is back, it takes no other request to decide on it. -/
theorem examine_asks (spend : job.protocolNonces ≠ []) {kind : Request → Prop} {c : Context} {first : Choice} :
    Client.Asks kind (examine tools job c first) := by
  by_cases given : first.eff = .null
  · rw [examine, given, if_neg spend]
    exact Client.Asks.raised _
  · rw [examine_given given, judge]
    refine Client.Asks.lift_bind fun v _ => ?_
    by_cases truthy : v.truthy = true
    · rw [if_pos truthy]
      refine Client.Asks.lift_bind fun used _ => ?_
      simp only [if_neg spend]
      cases used with
      | none | some => exact Client.Asks.pure _
    · rw [if_neg truthy]
      exact Client.Asks.lift_bind fun _ _ => Client.Asks.raised _

theorem asks_buildAndSend (spend : job.protocolNonces ≠ []) (dryRun : Bool) :
    Client.Asks (ShowsBuilt tools job) (buildAndSend tools job dryRun) := by
  refine (prepare_apart.mono fun _ => showsBuilt_of_apart).bind_returned fun answers log c prepared => ?_
  refine Client.Asks.lift_bind fun tx built => Client.Asks.lift_bind fun first text => ?_
  have shown {r : Request} (request : r = simulationOf first ∨ r = ⟨"eth_sendRawTransaction", [.str first]⟩) :
      ShowsBuilt tools job r := by
    intro raw shows
    obtain rfl := raw_of_shows request shows
    exact ⟨c, tx, (prepare_ok prepared).1.sender, built, text⟩
  refine Client.Asks.lift_bind fun _ _ => (asks_simulate (shown (.inl rfl))).bind fun sim => ?_
  cases dryRun with
  | true =>
    cases sim with
    | null => exact Client.Asks.pure _
    | bool | num | str | arr | obj => exact Client.Asks.lift_bind fun _ _ => Client.Asks.pure _
  | false =>
    refine (examine_asks spend).bind_returned fun answers log chosen examined => ?_
    obtain ⟨-, -, -, rfl⟩ := (examine_spend spend).mp examined
    refine Client.Asks.lift_bind fun _ _ => Client.Asks.lift_bind fun _ _ => (asks_rpc (shown (.inr rfl))).bind fun txhash => ?_
    exact (await_apart txhash 30).mono fun _ => showsBuilt_of_apart

theorem timestamp_apart (number : String) : Client.Asks Apart (timestamp number) :=
  (apart_rpc (by decide) (by decide)).bind fun _ => Client.Asks.lift_bind fun _ _ => Client.Asks.ofExcept _

theorem committedRef_apart (slot : Int) (root : Word) : Client.Asks Apart (committedRef tools cfg slot root) := by
  refine Client.Asks.lift_bind fun slotBytes _ => Client.Asks.lift_bind fun placeBytes _ =>
    (apart_rpc (by decide) (by decide)).bind fun stored => Client.Asks.lift_bind fun bytes _ => ?_
  split_ifs
  · exact Client.Asks.raised _
  · exact Client.Asks.pure _

theorem recentRootRef_apart (pubBlock : Int) (root : Word) : Client.Asks Apart (recentRootRef tools cfg pubBlock root) := by
  refine (timestamp_apart _).bind fun ts => Client.Asks.bind ?_ fun genesis => ?_
  · rw [genesisTimestamp]
    cases cfg.genesisTimestamp with
    | some genesis => exact Client.Asks.pure _
    | none => exact timestamp_apart _
  · dsimp only
    split_ifs
    · exact Client.Asks.raised _
    · exact committedRef_apart _ _

theorem spendJob_apart : Client.Asks Apart (spendJob tools cfg fix opts op) := by
  refine Client.Asks.lift_bind fun paymaster _ => Client.Asks.bind ?_ fun setup => Client.Asks.lift_bind fun _ _ => Client.Asks.pure _
  exact Client.Asks.lift_bind fun found _ => Client.Asks.lift_bind fun carrier _ => Client.Asks.lift_bind fun slot _ =>
    (recentRootRef_apart _ _).bind fun _ => Client.Asks.pure _

/-- The checks that a spend meets, with the given payer. -/
inductive Fits (d : Deployment) (image : Dispatcher.Image) (runtime : Bytes) (sp : Spend) (tx : Wire.FrameTx) : Option Int → Prop
  | selfPaid (fits : FitsSelfPaid d image sp tx) : Fits d image runtime sp tx none
  | sponsored (pm : Address) (fits : FitsSponsored d image runtime pm sp tx) : Fits d image runtime sp tx (some pm.toNat)

theorem signed_of_build {c : Context} {gas : Int} {tx : Wire.FrameTx} (built : build tools job c gas = .ok tx) :
    ∃ signature, tx = unsigned tools job c gas signature := by
  rw [build] at built
  cases hash : (unsigned tools job c gas []).sigHash tools.keccak with
  | none =>
    rw [hash] at built
    cases built
  | some w =>
    rw [hash] at built
    cases built
    exact ⟨_, rfl⟩

/-- A payer that made it into a transaction is an address. -/
theorem payer_address {a : Int} (spends : Spends d sp (some a) job) {c : Context} {gas : Int}
    (encodable : (unsigned tools job c gas []).Encodable) : ∃ pm : Address, a = pm.toNat := by
  have frames : (unsigned tools job c gas []).frames = verifyFrames job c.sender ++ [settleFrame job gas] := rfl
  have pays : ({ mode := 1, flags := 0x01, target := some a, gasLimit := 100000, value := 0, data := carrier sp } : Wire.Frame) ∈
      (unsigned tools job c gas []).frames := by
    rw [frames, verifyFrames, spends.verify]
    simp
  obtain ⟨low, high⟩ := (encodable.frames _ pays).target a rfl
  refine ⟨BitVec.ofNat 160 a.toNat, ?_⟩
  rw [BitVec.toNat_ofNat, Nat.mod_eq_of_lt (by omega)]
  omega

theorem fits_of_build {paymaster : Option Int} (spends : Spends d sp paymaster job) {c : Context} {tx : Wire.FrameTx} {raw : String}
    (sender : c.sender = job.sender tools) (built : build tools job c job.senderGas = .ok tx) (text : rawText tx = .ok raw)
    (image : Dispatcher.Image) (runtime : Bytes) :
    ∃ bytes, tx.raw = some bytes ∧ raw = hexText bytes ∧ Fits d image runtime sp tx paymaster := by
  have encodable := build_iff.mp ⟨tx, raw, built, text⟩
  have self : c.sender = d.self.toNat := by
    rw [sender, Job.sender, spends.sender]
    rfl
  obtain ⟨signature, rfl⟩ := signed_of_build built
  rw [rawText] at text
  cases bytes : (unsigned tools job c job.senderGas signature).raw with
  | none =>
    rw [bytes] at text
    cases text
  | some bytes' =>
    rw [bytes] at text
    cases text
    refine ⟨bytes', rfl, rfl, ?_⟩
    cases paymaster with
    | none => exact .selfPaid (fits_selfPaid spends self image signature)
    | some a =>
      obtain ⟨pm, rfl⟩ := payer_address spends encodable
      exact .sponsored pm (fits_sponsored spends self image runtime signature)

theorem main_eq (spend : op ≠ .shield) :
    main tools cfg fix opts op = spendJob tools cfg fix opts op >>= fun job => buildAndSend tools job opts.dryRun := by
  cases op with
  | shield => exact absurd rfl spend
  | transfer | withdraw => rfl

theorem Ordinary.spend (ordinary : Ordinary d tools cfg fix opts op sp) : op ≠ .shield := by
  rintro rfl
  exact ordinary.shape

theorem isAddress_toNat (a : Address) : Wire.IsAddress a.toNat := ⟨Int.natCast_nonneg _, by have := a.isLt; omega⟩

theorem encodable_frame {mode flags a gasLimit value : Int} {data : Bytes} (kind : 0 ≤ mode) (scope : 0 ≤ flags)
    (address : Wire.IsAddress a) (gas : 0 ≤ gasLimit) (paid : 0 ≤ value) :
    ({ mode, flags, target := some a, gasLimit, value, data } : Wire.Frame).Encodable :=
  ⟨kind, scope, fun _ named => by cases named; exact address, gas, paid⟩

/-- Every number of an ordinary spend has an encoding, if those that come from elsewhere do. -/
theorem encodable_of_spends {paymaster : Option Int} (spends : Spends d sp paymaster job) (payers : ∀ a ∈ paymaster, Wire.IsAddress a)
    {c : Context} (sender : c.sender = d.self.toNat) (chainId : 0 ≤ c.chainId) (priority : 0 ≤ c.maxPriority) (fee : 0 ≤ c.maxFee) :
    (unsigned tools job c job.senderGas []).Encodable := by
  have self : Wire.IsAddress c.sender := sender ▸ isAddress_toNat d.self
  have gas : (0 : Int) ≤ job.senderGas := by
    rw [Job.senderGas, spends.gas]
    decide
  have pool : Wire.IsAddress job.pool := spends.pool ▸ isAddress_toNat d.self
  have settles : (settleFrame job job.senderGas).Encodable :=
    encodable_frame (by decide) (by decide) pool gas spends.value.ge
  have verifies : ∀ f ∈ verifyFrames job c.sender, f.Encodable := by
    rw [verifyFrames, spends.verify]
    cases paymaster with
    | none =>
      intro f member
      obtain rfl := List.mem_singleton.mp member
      exact encodable_frame (by decide) (by decide) self (by decide) (by decide)
    | some a =>
      intro f member
      rcases List.mem_cons.mp member with rfl | rest
      · exact encodable_frame (by decide) (by decide) self (by decide) (by decide)
      · obtain rfl := List.mem_singleton.mp rest
        exact encodable_frame (by decide) (by decide) (payers a rfl) (by decide) (by decide)
  obtain ⟨slot, refs⟩ := spends.refs
  have keys : (unsigned tools job c job.senderGas []).nonceKeys = [(sp.lo.toNat : Int), sp.hi.toNat] :=
    (if_neg (nonces_nonempty spends)).trans spends.nonces
  have seq : (unsigned tools job c job.senderGas []).nonceSeq = 0 := if_neg (nonces_nonempty spends)
  refine ⟨chainId, ?_, seq.ge, self, ?_, ?_, priority, fee, Int.le_refl 0, ?_⟩
  · rw [keys]
    simp
  · intro f member
    rcases List.mem_append.mp member with early | last
    · exact verifies f early
    · obtain rfl := List.mem_singleton.mp last
      exact settles
  · intro s member
    obtain rfl := List.mem_singleton.mp member
    exact ⟨Int.le_refl 0, isAddress_toNat tools.signer⟩
  · intro r member
    have only : r ∈ job.recentRootRefs := member
    rw [refs] at only
    obtain rfl := List.mem_singleton.mp only
    exact Int.natCast_nonneg _

/-- An ordinary spend is set up once the reference to its root is there. -/
theorem spendJob_yields (ordinary : Ordinary d tools cfg fix opts op sp) {paymaster : Option Int} {pubBlock : Int} {count : Nat}
    {ref : Wire.Reference} (pays : payer cfg opts = .ok paymaster) (slot : (opts.rootSlot.orElse fun _ => cfg.slot op) = some pubBlock)
    (refers : (recentRootRef tools cfg pubBlock sp.root).Yields answers count ref) :
    ∃ job, (spendJob tools cfg fix opts op).Yields answers count job ∧ job.maxFeeOverride = opts.maxFee ∧
      job.maxPriorityOverride = opts.maxPriority ∧ job.saved = opts.saved := by
  obtain ⟨data, made, -⟩ := calldata_ordinary ordinary
  have setup : (spendSetup tools cfg fix opts op paymaster).Yields answers (0 + (0 + (0 + (count + 0))))
      ⟨sp, [(sp.nf1.toNat : Int), sp.nf2.toNat].insertionSort (· ≤ ·), (paymaster, carrier sp), [ref]⟩ := by
    rw [spendSetup, ordinary.entry, slot]
    refine Client.Yields.bind (Client.Yields.lift rfl) ?_
    rw [flipped_ordinary ordinary]
    exact (Client.Yields.lift (castCalldata_ok (ordinary.casts.verifyProofOnly sp))).bind <|
      (Client.Yields.lift rfl).bind <| refers.bind <| Client.Yields.pure _
  simp only [Nat.zero_add, Nat.add_zero] at setup
  have job : (spendJob tools cfg fix opts op).Yields answers (0 + (count + (0 + 0))) {
      pool := cfg.pool
      value := 0
      calldata := data
      protocolNonces := opts.nonceKeys.getD ([(sp.nf1.toNat : Int), sp.nf2.toNat].insertionSort (· ≤ ·))
      proofVerify := some (paymaster, carrier sp)
      recentRootRefs := [ref]
      senderOverride := some (opts.sender.getD cfg.pool)
      maxFeeOverride := opts.maxFee
      maxPriorityOverride := opts.maxPriority
      settleGasOverride := opts.settleGas
      saved := opts.saved } := by
    rw [spendJob]
    exact (Client.Yields.lift pays).bind <| setup.bind <| (Client.Yields.lift made).bind <| Client.Yields.pure _
  rw [Nat.zero_add] at job
  exact ⟨_, job, rfl, rfl, rfl⟩

/-- An ordinary spend gets to its simulation when the node's answers can be read. -/
theorem simulation_shown {c : Context} (prepared : Prepared tools job answers c)
    (encodable : (unsigned tools job c job.senderGas []).Encodable) (saved : job.saved = true) (dryRun : Bool) :
    ∃ raw, (simulationOf raw, answers 3) ∈ ((buildAndSend tools job dryRun).talk answers).1 := by
  obtain ⟨head, begun⟩ := prepare_of_prepared prepared
  obtain ⟨tx, raw, built, text⟩ := build_iff.mpr encodable
  refine ⟨raw, ?_⟩
  have first {β : Type} (f : Json → Rpc β) : (simulationOf raw, answers 3) ∈ ((simulate raw >>= f).talk (Client.later answers 3)).1 := by
    cases ended : (simulate raw >>= f).talk (Client.later answers 3) with
    | mk log out =>
      rcases Client.talk_bind_cases ended with ⟨error, asked, -⟩ | ⟨early, sim, rest, asked, -, rfl⟩
      · obtain ⟨rfl, -⟩ := Prod.mk.inj ((talk_simulate raw).symm.trans asked)
        exact List.mem_singleton.mpr rfl
      · obtain ⟨rfl, -⟩ := Prod.mk.inj ((talk_simulate raw).symm.trans asked)
        exact List.mem_cons_self
  rw [buildAndSend, Client.talk_bind_ok _ begun, (prepare_ok begun).2, built]
  refine List.mem_append_right _ ?_
  change _ ∈ (((liftM (rawText tx) : Rpc String) >>= fun _ => (liftM (save job) : Rpc Unit) >>= _).talk _).1
  rw [text, save_ok.mpr saved]
  exact first _

/-- Whatever transaction the script shows the node for an ordinary spend, every check that the pool
and the paymaster make of it passes, but for those on the proof and the fee. -/
theorem spends_fit (d : Deployment) (image : Dispatcher.Image) (runtime : Bytes) {tools : Tools} {cfg : Config} {fix : Fixture}
    {opts : Options} {op : Op} {sp : Spend} (ordinary : Ordinary d tools cfg fix opts op sp) {answers : Nat → Option Json}
    {entry : Request × Option Json} (member : entry ∈ ((main tools cfg fix opts op).talk answers).1) {raw : String}
    (shows : Shows entry.1 raw) :
    ∃ paymaster tx bytes, payer cfg opts = .ok paymaster ∧ tx.raw = some bytes ∧ raw = hexText bytes ∧
      Fits d image runtime sp tx paymaster := by
  rw [main_eq ordinary.spend] at member
  cases ended : (spendJob tools cfg fix opts op >>= fun job => buildAndSend tools job opts.dryRun).talk answers with
  | mk log out =>
    rw [ended] at member
    have unseen {first : Log} (early : entry ∈ first) {result : Except Raised Job}
        (begun : (spendJob tools cfg fix opts op).talk answers = (first, result)) : False := by
      have apart := spendJob_apart answers entry (by rw [begun]; exact early)
      rcases shows with same | same
      · exact apart.2 (by rw [same]; rfl)
      · exact apart.1 (by rw [same])
    rcases Client.talk_bind_cases ended with ⟨error, begun, -⟩ | ⟨first, job, rest, begun, followed, rfl⟩
    · exact (unseen member begun).elim
    · rcases List.mem_append.mp member with early | late
      · exact (unseen early begun).elim
      · obtain ⟨paymaster, pays, spends⟩ := spends_of_spendJob ordinary begun
        obtain ⟨c, tx, sender, built, text⟩ := asks_buildAndSend (nonces_nonempty spends) opts.dryRun _ entry
          (by rw [followed]; exact late) raw shows
        obtain ⟨bytes, sent, same, fits⟩ := fits_of_build spends sender built text image runtime
        exact ⟨paymaster, tx, bytes, pays, sent, same, fits⟩

def hegotaTools : Tools where
  signer := 0x1111#160
  keccak := fun _ => 0
  sign := fun _ => (false, 1, 1)
  cast := fun sig args => match args with
    | [.spend sp] =>
      if sig = verifyProofOnly then some (carrier sp) else some (selectorBytes 0xb9947fa0#256 ++ encodeWords sp.words)
    | [.spend sp, .address a] => some (selectorBytes 0xd677b46e#256 ++ encodeWords (sp.words ++ [a.word]))
    | _ => none

def hegotaConfig : Config where
  pool := Hegota.address.toNat
  sourceId := encodeWord Hegota.deployment.sourceId
  genesisTimestamp := some 0
  slotTransfer := some 191883

def hegotaFixture : Fixture where
  shieldValue := Hegota.shieldValue.toNat
  innerA := Hegota.inner
  spends := fun key => if key = "transfer" then some Hegota.transfer else none
  recipient := none

def readyNode : Nat → Option Json
  | 0 => some (.obj [("result", .obj [("timestamp", .str "0xc")])])
  | 1 => some (.obj [("result", .str "0x0")])
  | 2 => some (.obj [("result", .str "0x301824")])
  | 3 => some (.obj [("result", .str "0x0")])
  | 4 => some (.obj [("result", .obj [("baseFeePerGas", .str "0x7")])])
  | _ => none

theorem hegota_cast (sig : String) (sp : Spend) : hegotaTools.cast sig [.spend sp] =
    if sig = verifyProofOnly then some (carrier sp) else some (selectorBytes 0xb9947fa0#256 ++ encodeWords sp.words) := rfl

theorem hegota_casts : Casts hegotaTools where
  transfer := fun sp => by
    have different : transferSig ≠ verifyProofOnly := by decide +kernel
    rw [hegota_cast, if_neg different]
  withdraw := fun _ _ => rfl
  verifyProofOnly := fun sp => by rw [hegota_cast, if_pos rfl]

theorem hegota_ordinary : Ordinary Hegota.deployment hegotaTools hegotaConfig hegotaFixture {} .transfer Hegota.transfer where
  casts := hegota_casts
  pool := rfl
  source := rfl
  entry := rfl
  shape := ⟨rfl, rfl⟩
  distinct := by decide
  sender := rfl
  nonceKeys := rfl
  settleGas := rfl
  flipProof := rfl

theorem hegota_prepared {job : Job} (sender : job.senderOverride = some (Hegota.address.toNat : Int)) (maxFee : job.maxFeeOverride = none)
    (priority : job.maxPriorityOverride = none) :
    Prepared hegotaTools job (Client.later readyNode 2) ⟨Hegota.address.toNat, 3151908, 0, 10 ^ 9, 14 + 10 ^ 9⟩ := by
  have named : job.sender hegotaTools = Hegota.address.toNat := by rw [Job.sender, sender]; rfl
  have offered : job.maxPriority = 10 ^ 9 := by rw [Job.maxPriority, priority]; rfl
  have charged : job.maxFee 7 = 14 + 10 ^ 9 := by rw [Job.maxFee, maxFee, offered]; rfl
  refine ⟨named.symm, named ▸ isAddress_toNat Hegota.address, ⟨.str "0x301824", rfl, rfl⟩, ⟨.str "0x0", rfl, rfl⟩,
    ⟨.obj [("baseFeePerGas", .str "0x7")], .str "0x7", 7, rfl, rfl, rfl, ?_, ?_, charged.symm⟩, offered.symm⟩
  · rw [charged]
    decide
  · rw [charged, offered]
    decide

theorem yields_timestamp {number : String} {ts : Int} {block field : Json}
    (read : reads (result "eth_getBlockByNumber") (answers 0) = .ok block) (found : block.index "timestamp" = .ok field)
    (is : quantity field = .ok ts) : (timestamp number).Yields answers 1 ts := by
  refine ⟨[(⟨"eth_getBlockByNumber", [.str number, .bool false]⟩, answers 0)], ?_, rfl⟩
  rw [timestamp, talk_rpc_bind_eq_ok]
  refine ⟨block, [], read, ?_, rfl⟩
  rw [Client.talk_lift_bind_eq_ok]
  refine ⟨field, found, ?_⟩
  rw [is]
  rfl

theorem hegota_committedRef : (committedRef hegotaTools hegotaConfig 2 Hegota.transfer.root).Yields (Client.later readyNode 1) 1
    ⟨hegotaConfig.sourceId, 2, encodeWord Hegota.transfer.root⟩ := by
  have stored : storedBytes (.str "0x0") = .ok (List.replicate 32 0) := rfl
  have zero : encodeWord 0 = List.replicate 32 0 := by decide
  have slot : Wire.toBytes 8 2 = some [0, 0, 0, 0, 0, 0, 0, 2] := rfl
  refine ⟨[(⟨"eth_getStorageAt", [.str "0x0000000000000000000000000000000000008272", .str (hexText (encodeWord 0)),
    .str "latest"]⟩, readyNode 1)], ?_, rfl⟩
  simp only [committedRef, talk_rpc_bind_eq_ok, Client.talk_lift_bind_eq_ok, encoded_ok]
  refine ⟨_, slot, _, slot, .str "0x0", [], rfl, ⟨_, stored, ?_⟩, rfl⟩
  rw [show hegotaTools.keccak _ = 0 from rfl, zero, if_neg (not_not.mpr rfl)]
  rfl

theorem hegota_recentRootRef : (recentRootRef hegotaTools hegotaConfig 191883 Hegota.transfer.root).Yields readyNode 2
    ⟨hegotaConfig.sourceId, 2, encodeWord Hegota.transfer.root⟩ := by
  obtain ⟨first, ts, one⟩ : (timestamp (hexNumber 191883)).Yields readyNode 1 12 :=
    @yields_timestamp readyNode (hexNumber 191883) 12 (.obj [("timestamp", .str "0xc")]) (.str "0xc") rfl rfl rfl
  obtain ⟨second, committed, more⟩ := hegota_committedRef
  refine ⟨first ++ second, ?_, by rw [List.length_append, one, more]⟩
  rw [recentRootRef, Client.talk_bind_ok _ ts, one]
  exact congrArg (fun rest : Log × _ => (first ++ rest.1, rest.2)) committed

theorem hegota_job : ∃ job, (spendJob hegotaTools hegotaConfig hegotaFixture {} .transfer).Yields readyNode 2 job ∧
    job.maxFeeOverride = none ∧ job.maxPriorityOverride = none ∧ job.saved = true := by
  exact spendJob_yields hegota_ordinary rfl rfl hegota_recentRootRef

/-- The transfer of the run on Hegotá is shown to the node, and meets every check. -/
theorem spends_fit_hegota : ∃ raw tx bytes,
    (simulationOf raw, readyNode 5) ∈ ((main hegotaTools hegotaConfig hegotaFixture {} .transfer).talk readyNode).1 ∧
      tx.raw = some bytes ∧ raw = hexText bytes ∧ Fits Hegota.deployment Hegota.image [] Hegota.transfer tx none := by
  obtain ⟨job, ⟨first, begun, two⟩, maxFee, priority, saved⟩ := hegota_job
  obtain ⟨paymaster, pays, spends⟩ := spends_of_spendJob hegota_ordinary begun
  cases pays
  have prepared := hegota_prepared spends.sender maxFee priority
  obtain ⟨raw, shown⟩ := simulation_shown prepared (encodable_of_spends spends nofun rfl (by decide) (by decide) (by decide)) saved false
  have member : (simulationOf raw, readyNode 5) ∈
      ((main hegotaTools hegotaConfig hegotaFixture {} .transfer).talk readyNode).1 := by
    rw [main_eq (by decide), Client.talk_bind_ok _ begun, two]
    exact List.mem_append_right _ shown
  obtain ⟨_, tx, bytes, pays, sent, same, fits⟩ := spends_fit Hegota.deployment Hegota.image [] hegota_ordinary member (.inl rfl)
  cases pays
  exact ⟨raw, tx, bytes, member, sent, same, fits⟩

end ShieldedPool.Tooling
