import ShieldedPool.Proofs.FrameProof

/-! Frame transactions that frame 0 approves, field by field, and what EnvelopeProbe then
reports to the frame that settles. -/

namespace ShieldedPool.Proofs
open Evm Yul Exec

variable {ω α : Type}

/-- Reading an opcode into the next word of memory. -/
theorem readStore (value : Word) (offset : Nat) (rest : Word → Program ω α) (m : Machine ω) :
    (opcode (some value) >>= fun w => mstore offset w >>= fun _ => rest w) m =
      rest value { m with memory := m.memory.storeWord offset value } := rfl

theorem when_run {condition : Prop} [Decidable condition] (holds : condition) (x : Program ω Unit)
    (rest : Unit → Program ω α) {m t : Machine ω} (ran : x m = .ok ((), t)) : (Exec.when condition x >>= rest) m = rest () t := by
  rw [Exec.when, if_pos holds, bind_ok ran]

/-- The probe's answer when there are two keys, one reference and a current frame. -/
theorem probe_reply {o : Opcodes} {frames index seq k0 k1 source root target payer : Word}
    (count : o.txParam 0x09 = some frames) (current : o.txParam 0x0A = some index) (keys : o.txParam 0x0D = some 2)
    (nonce : o.txParam 0x01 = some seq) (first : o.nonceKey 0 = some k0) (second : o.nonceKey 1 = some k1)
    (refs : o.txParam 0x0F = some 1) (named : o.recentRootRef 0 0 = some source)
    (anchored : o.recentRootRef 2 0 = some root) (inside : index < frames)
    (aimed : o.frameParam index.toNat 0x00 = some target) (paid : o.txParam 0x11 = some payer) :
    EnvelopeProbe.reply o =
      some (encodeWords [frames, index, 2, seq, k0, k1, 1, source, root, target, payer]) := by
  have current' : Op.lt index frames ≠ 0 := (Op.lt_ne_zero _ _).mpr inside
  have ran : EnvelopeProbe.runtime o (Machine.start ()) =
      .ok ((Memory.empty.storeWords 0 [frames, index, 2, seq, k0, k1, 1, source, root, target, payer]).load 0 352,
        { (Machine.start ()) with
          memory := Memory.empty.storeWords 0 [frames, index, 2, seq, k0, k1, 1, source, root, target, payer] }) := by
    rw [EnvelopeProbe.runtime, count, current, keys, nonce, first, second, refs, named, anchored, paid]
    rw [readStore, readStore, readStore, readStore, when_run (by decide) _ _ rfl, when_run (by decide) _ _ rfl, readStore,
      when_run (by decide) _ _ rfl, when_run current' _ _ (by rw [aimed]; rfl), readStore]
    rfl
  rw [EnvelopeProbe.reply, ran]
  simp only [Memory.load_store_words Memory.empty 0 [frames, index, 2, seq, k0, k1, 1, source, root, target, payer]
    (show 352 = 32 * 11 from rfl)]

/-- The frame that settles calls `transfer` or `withdraw` with its tuple. -/
inductive FrameCall (f : Frame) (sp : Spend) : Prop
  | transfer (size : f.data.length = 548) (selector : wordAt f.data 0 >>> 224 = Method.selector .transfer)
      (amount : sp.publicAmount = 0) (ctx : sp.ctx = 0)
  | withdraw {recipient : Address} (size : f.data.length = 580)
      (selector : wordAt f.data 0 >>> 224 = Method.selector .withdraw) (amount : sp.publicAmount ≠ 0)
      (named : wordAt f.data 548 = recipient.word) (nonzero : recipient.word ≠ 0) (ctx : sp.ctx = recipient.word)

/-- Frame 0, which only the pool's own approval code can pass. -/
structure VerifyFrame (d : Deployment) (v : Frame) : Prop where
  target : v.target = d.self
  mode : v.mode = .verify
  data : v.data = []
  value : v.value = 0

/-- The middle frame of three, which approves payment. -/
structure PayFrame (p : Frame) : Prop where
  mode : p.mode = .verify
  flags : p.flags = 1
  value : p.value = 0

/-- The frames of either shape, and what the fee has to cover when the pool pays. -/
inductive Shape (d : Deployment) (tx : FrameTx) (f : Frame) (sp : Spend) : Word → Prop
  | selfPaid {v} (verify : VerifyFrame d v) (frames : tx.frames = [v, f]) (covered : tx.maxCost ≤ sp.fee) :
      Shape d tx f sp 3
  | sponsored {v p} (verify : VerifyFrame d v) (pay : PayFrame p) (frames : tx.frames = [v, p, f]) : Shape d tx f sp 2

/-- A transaction that frame 0 approves with the given scope; `f` is the frame that settles. -/
structure Approved (d : Deployment) (tx : FrameTx) (scope : Word) (f : Frame) (sp : Spend) : Prop where
  sender : tx.sender = d.self
  keys : tx.nonceKeys = [sp.lo, sp.hi]
  nonceSeq : tx.nonceSeq = 0
  refs : ∃ slot, tx.refs = [⟨d.sourceId, slot, sp.root⟩]
  shape : Shape d tx f sp scope
  spend : sp = Spend.decode f.data 4
  target : f.target = d.self
  mode : f.mode = .sender
  value : f.value = 0
  call : FrameCall f sp
  proven : Proven d sp

variable {d : Deployment} {tx : FrameTx} {index : Nat} {payer : Option Address}

theorem length_of_word {n : Nat} (bound : n < 2 ^ 64) {w : Word} (same : some (BitVec.ofNat 256 n) = some w) : n = w.toNat := by
  rw [← Option.some.inj same, BitVec.toNat_ofNat, Nat.mod_eq_of_lt (by omega)]

theorem frameParam_some {i param : Nat} {w : Word} (read : (tx.opcodes index payer).frameParam i param = some w) :
    ∃ f, tx.frames[i]? = some f ∧ FrameTx.frameParam f param = some w := Option.bind_eq_some_iff.mp read

theorem frameDataLoad_some {i offset : Nat} {w : Word} {f : Frame} (frame : tx.frames[i]? = some f)
    (read : (tx.opcodes index payer).frameDataLoad i offset = some w) : w = wordAt f.data offset := by
  obtain ⟨g, other, loaded⟩ := Option.bind_eq_some_iff.mp read
  obtain rfl := Option.some.inj (frame.symm.trans other)
  exact (Option.some.inj loaded).symm

theorem spend_of_frame {i : Nat} {f : Frame} {sp : Spend} (frame : tx.frames[i]? = some f)
    (loaded : SpendIn (tx.opcodes index payer) i sp) : sp = Spend.decode f.data 4 := by
  obtain ⟨w, words, rfl⟩ := loaded
  have same (k : Nat) (inside : k < 17) : w k = wordAt f.data (4 + 32 * k) := frameDataLoad_some frame (words k inside)
  exact Spend.ofWords_congr same

theorem call_of_frame {i : Nat} {f : Frame} {sp : Spend} (frame : tx.frames[i]? = some f)
    (call : SettleCall (tx.opcodes index payer) i sp) : FrameCall f sp := by
  have length {w : Word} (read : (tx.opcodes index payer).frameParam i 0x04 = some w) : f.data.length = w.toNat := by
    obtain ⟨g, other, size⟩ := frameParam_some read
    obtain rfl := Option.some.inj (frame.symm.trans other)
    exact length_of_word f.short size
  rcases call with ⟨size, loaded, selector, amount, ctx⟩ | ⟨size, loaded, selector, amount, named, nonzero, ctx⟩
  · exact .transfer (length size) (frameDataLoad_some frame loaded ▸ selector) amount ctx
  · exact .withdraw (length size) (frameDataLoad_some frame loaded ▸ selector) amount
      (frameDataLoad_some frame named).symm nonzero ctx

theorem mode_of_word {m n : Mode} (same : m.word = n.word) : m = n := by
  cases m <;> cases n <;> first | rfl | exact absurd same (by decide)

/-- A parameter of a frame that is known. -/
theorem param_of_frame {i param : Nat} {f : Frame} {w : Word} (frame : tx.frames[i]? = some f)
    (read : (tx.opcodes index payer).frameParam i param = some w) : FrameTx.frameParam f param = some w := by
  obtain ⟨g, other, field⟩ := frameParam_some read
  rwa [Option.some.inj (frame.symm.trans other)]

theorem two_elements {α : Type} {l : List α} {a b : α} (size : l.length = 2) (first : l[0]? = some a)
    (second : l[1]? = some b) : l = [a, b] := by
  match l, size with
  | [x, y], _ => rw [Option.some.inj first, Option.some.inj second]

theorem three_elements {α : Type} {l : List α} {a b c : α} (size : l.length = 3) (first : l[0]? = some a)
    (second : l[1]? = some b) (third : l[2]? = some c) : l = [a, b, c] := by
  match l, size with
  | [x, y, z], _ => rw [Option.some.inj first, Option.some.inj second, Option.some.inj third]

/-- What the checks say about the frame that settles and about all but the shape. -/
theorem approved_of_approves {i : Nat} {sp : Spend} {scope : Word} (approves : Approves d (tx.opcodes index payer) i sp)
    (shape : ∀ f v, tx.frames[i]? = some f → tx.frames[0]? = some v → VerifyFrame d v → Shape d tx f sp scope) :
    ∃ f, Approved d tx scope f sp := by
  have enveloped := approves.enveloped
  obtain ⟨f, last, target⟩ := frameParam_some enveloped.settleTarget
  obtain ⟨v, first, target0⟩ := frameParam_some enveloped.verifyTarget
  have keys : tx.nonceKeys.length = 2 := length_of_word tx.fewKeys enveloped.keyCount
  have refs : tx.refs.length = 1 := length_of_word tx.fewRefs enveloped.refCount
  have data : v.data.length = 0 := length_of_word v.short (param_of_frame first enveloped.verifyData)
  have verify : VerifyFrame d v :=
    ⟨Address.word_injective (Option.some.inj target0), mode_of_word (n := .verify)
      (Option.some.inj (param_of_frame first enveloped.verifyMode)), List.length_eq_zero_iff.mp data,
      Option.some.inj (param_of_frame first enveloped.verifyValue)⟩
  refine ⟨f, Address.word_injective (Option.some.inj enveloped.sender), two_elements keys approves.bindings.lo approves.bindings.hi,
    Option.some.inj enveloped.nonceSeq, ?_, shape f v last first verify, spend_of_frame last approves.loaded,
    Address.word_injective (Option.some.inj target), mode_of_word (n := .sender)
      (Option.some.inj (param_of_frame last enveloped.settleMode)), Option.some.inj (param_of_frame last enveloped.settleValue),
    call_of_frame last approves.call, approves.proven⟩
  obtain ⟨r, single, source⟩ := Option.bind_eq_some_iff.mp approves.bindings.source
  obtain ⟨r', again, root⟩ := Option.bind_eq_some_iff.mp approves.bindings.root
  obtain rfl := Option.some.inj (single.symm.trans again)
  refine ⟨r.slot, ?_⟩
  match listed : tx.refs, refs with
  | [x], _ =>
    rw [listed] at single
    rw [Option.some.inj single, ← Option.some.inj source, ← Option.some.inj root]

/-- The transactions frame 0 approves, and the frame it approves them in. -/
theorem approved_of_granted {scope : Word} (inside : index < tx.frames.length) (granted : Granted d (tx.opcodes index payer) scope) :
    index = 0 ∧ ∃ f sp, Approved d tx scope f sp := by
  have first {i : Nat} {sp : Spend} (approves : Approves d (tx.opcodes index payer) i sp) : index = 0 :=
    length_of_word (inside.trans tx.fewFrames) approves.enveloped.frameIndex
  rcases granted with ⟨shape, approves, charged, covered⟩ | ⟨shape, approves⟩
  · have count : tx.frames.length = 2 := length_of_word tx.fewFrames shape.frames
    obtain ⟨f, approved⟩ := approved_of_approves approves fun f v last start verify =>
      Shape.selfPaid verify (two_elements count start last) (Option.some.inj charged ▸ covered)
    exact ⟨first approves, f, _, approved⟩
  · have count : tx.frames.length = 3 := length_of_word tx.fewFrames shape.frames
    obtain ⟨p, middle, mode⟩ := frameParam_some shape.payMode
    have pay : PayFrame p := ⟨mode_of_word (n := .verify) (Option.some.inj mode),
      Option.some.inj (param_of_frame middle shape.payFlags), Option.some.inj (param_of_frame middle shape.payValue)⟩
    obtain ⟨f, approved⟩ := approved_of_approves approves fun f v last start verify =>
      Shape.sponsored verify pay (three_elements count start middle last)
    exact ⟨first approves, f, _, approved⟩

end ShieldedPool.Proofs
