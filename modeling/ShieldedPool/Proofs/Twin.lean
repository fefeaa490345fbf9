import ShieldedPool.Logic
import ShieldedPool.Reference
import ShieldedPool.Proofs.Effects
import ShieldedPool.Proofs.Layout
import ShieldedPool.Proofs.Refinement

/-! ShieldedPool.yul against ShieldedPoolLogic.sol, call by call: the same answers, the same
revert data, and the picture of the same state. Only the Solidity code panics on a credit
that overflows. -/

namespace ShieldedPool.Proofs.Twin
open Evm Yul PoolYul Exec Layout
open ShieldedPool.Monolith (Loc Log World Image environment)

variable {d : Deployment} {image : Image} {c : Call}

/-- The one error after which the Yul code may go on. -/
def Panics (data : Bytes) : Prop := data = arithmeticPanic

/-- The Yul program goes the way of the Solidity one. -/
abbrev Mirrors {α β : Type} (values : α → β → Prop) (x : Program World α) (y : Exec State β) : Prop :=
  Simulates Panics Tracks values x y

theorem emitLeafAppended_does (d : Deployment) (image : Image) (number : c.number.toNat < 2 ^ 64) (cm : Word) (index : Nat) (root : Word) :
    Computes (Does (append (logOf (.leafAppended cm index root (slotOf c)))))
      (Monolith.emitLeafAppended (environment d image c) cm (BitVec.ofNat 256 index) root) () := by
  intro m
  have slot : (slotOf c).setWidth 256 = c.number := by
    apply BitVec.eq_of_toNat_eq
    rw [slotOf, BitVec.toNat_setWidth, BitVec.toNat_setWidth]
    omega
  have data : (m.memory.storeWords 0x00 [BitVec.ofNat 256 index, root, c.number]).load 0x00 0x60 =
      encodeWords [BitVec.ofNat 256 index, root, (slotOf c).setWidth 256] := by
    rw [slot]
    exact Memory.load_store_words _ _ _ (by simp)
  refine ⟨_, rfl, ?_⟩
  exact congrArg (fun bytes => append ⟨[Monolith.leafAppendedTopic, cm], bytes⟩ m.world) data

theorem emitNoteSpent_does (nf : Word) : Computes (Does (append (logOf (.noteSpent nf)))) (Monolith.emitNoteSpent nf) () :=
  fun _ => ⟨_, rfl, rfl⟩

theorem emitAmount_does (topic who amount : Word) :
    Computes (Does (append ⟨[topic, who], encodeWord amount⟩)) (Monolith.emitAmount topic who amount) () := by
  intro m
  refine ⟨_, rfl, ?_⟩
  exact congrArg (fun bytes => append ⟨[topic, who], bytes⟩ m.world) (Memory.load_storeWord_same m.memory 0x00 amount)

theorem Tracks.emits (e : Event) : ∀ (m m' : Machine World) (s : State), Does (append (logOf e)) m m' → Tracks m s → Tracks m' (s.emit e) :=
  Tracks.does (fun s => append_emit s e) fun _ kept => kept

theorem publishRoot_mirrors : Mirrors (fun _ _ => True) (Monolith.publishRoot c.publishes) (publishRoot c) := by
  intro m s tracks
  have root : m.world.storage (.slot 22) = s.currentRoot := by
    rw [tracks.1]
    exact storage_currentRoot s
  have data : (m.memory.storeWords 0x00 [0, s.currentRoot]).load 0x00 0x40 = publication s.currentRoot := by
    rw [Memory.load_store_words _ _ _ (by simp), publication]
    simp [salt]
  have ran : Monolith.publishRoot c.publishes m = (failIf Error.rootPublishFailed.selector
      (Op.iszero (flag (c.publishes ((m.memory.storeWords 0x00 [0, m.world.storage (.slot 22)]).load 0x00 0x40)))) : Program World Unit)
      { m with
        memory := m.memory.storeWords 0x00 [0, m.world.storage (.slot 22)]
        returndata := []
        world := if c.publishes ((m.memory.storeWords 0x00 [0, m.world.storage (.slot 22)]).load 0x00 0x40) then
          { m.world with published := m.world.published ++ [(m.memory.storeWords 0x00 [0, m.world.storage (.slot 22)]).load 0x00 0x40] }
          else m.world } := rfl
  rw [ran, root, data, publishRoot_eq, failIf_eq]
  cases taken : c.publishes (publication s.currentRoot) with
  | false =>
    rw [revertIf_pos (by decide), if_pos rfl]
    exact .inl rfl
  | true =>
    rw [revertIf_neg (by decide), if_pos rfl, if_neg (by decide)]
    refine ⟨trivial, ?_, tracks.2⟩
    rw [tracks.1]
    simp only [worldOf, State.publish, List.map_append, List.map_cons, List.map_nil]
    rfl

/-- Two checks with one error are one check. -/
theorem revertIf_or {σ α : Type} (p q : Prop) [Decidable p] [Decidable q] (data : Bytes) (rest : Unit → Exec σ α) :
    (Exec.revertIf p data >>= fun _ => Exec.revertIf q data >>= rest) = Exec.revertIf (p ∨ q) data >>= rest := by
  funext s
  rw [revertIf_bind, revertIf_bind, revertIf_bind]
  by_cases first : p
  · rw [if_pos first, if_pos (Or.inl first)]
  · rw [if_neg first]
    exact if_congr (or_iff_right first).symm rfl rfl

theorem revertIf_congr {σ : Type} {p q : Prop} [Decidable p] [Decidable q] (same : p ↔ q) (data : Bytes) :
    (Exec.revertIf p data : Exec σ Unit) = Exec.revertIf q data := if_congr same rfl rfl

/-- The two checks of the nullifiers. -/
theorem nullifiers {α : Type} (nf1 nf2 : Word) (rest : Unit → Program World α) :
    (Exec.revertIf (Op.iszero nf1 ≠ 0) Error.zeroNullifier.data >>= fun _ =>
      Exec.revertIf (Op.iszero nf2 ≠ 0) Error.zeroNullifier.data >>= rest) =
    Exec.revertIf (nf1 = 0 ∨ nf2 = 0) Error.zeroNullifier.data >>= rest := by
  rw [revertIf_congr (Op.iszero_ne_zero nf1), revertIf_congr (Op.iszero_ne_zero nf2), revertIf_or]

theorem requireBelow_eq {ω : Type} (e : Error) (value bound : Word) :
    (requireBelow e value bound : Program ω Unit) = Exec.revertIf (bound ≤ value) e.data := by
  rw [requireBelow, failIf_eq]
  exact revertIf_congr (Op.iszero_lt_ne_zero _ _) _

/-- A word of the call data is known at once. -/
theorem loads {α β : Type} {values : α → β → Prop} {offset : Nat} {f : Word → Program World α} {y : Exec State β}
    (rest : Mirrors values (f (wordAt c.data offset)) y) :
    Mirrors values (Monolith.calldataload (environment d image c) offset >>= f) y := rest

/-- The nine comparisons as the two checks of `_validateSpend`. -/
theorem checkRanges_mirrors (sp : Spend) :
    Mirrors (fun _ _ => True) (checkRanges sp.root sp.nf1 sp.nf2 sp.outCm1 sp.outCm2 sp.domain sp.ctx sp.publicAmount sp.fee)
      (do
        Error.notCanonical.throwIf (¬ sp.Canonical)
        Error.valueTooLarge.throwIf (maxValue ≤ sp.publicAmount ∨ maxValue ≤ sp.fee)) := by
  have last : (Exec.revertIf (maxValue ≤ sp.publicAmount) Error.valueTooLarge.data >>= fun _ =>
      Exec.revertIf (maxValue ≤ sp.fee) Error.valueTooLarge.data : Program World Unit) =
        Exec.revertIf (maxValue ≤ sp.publicAmount ∨ maxValue ≤ sp.fee) Error.valueTooLarge.data := by
    have merged := revertIf_or (maxValue ≤ sp.publicAmount) (maxValue ≤ sp.fee) Error.valueTooLarge.data
      (pure : Unit → Program World Unit)
    simpa only [bind_pure] using merged
  simp only [checkRanges, requireBelow_eq, last]
  simp only [Error.throwIf, revertIf_or]
  refine .guard ?_ fun _ => .revertIf Iff.rfl _
  simp only [Spend.Canonical, not_and_or, BitVec.not_lt]

theorem domainVal_computes : Computes Scratch (domainVal (environment d image c)) d.domain := by
  intro m
  obtain ⟨memory, ran⟩ := domainVal_run (Monolith.hosted_environment image c) m
  exact ⟨_, ran, rfl⟩

theorem validateSpend_mirrors (base : Nat) :
    Mirrors (fun _ _ => True) (Monolith.validateSpend (environment d image c) base)
      (validateSpend d.domain (Spend.decode c.data base)) := by
  refine loads <| loads <| loads <| loads <| loads <| loads <| loads <| loads <| loads <| .left Tracks.scratch domainVal_computes ?_
  rw [failIf_eq]
  refine .guard ?_ fun _ => checkRanges_mirrors (Spend.decode c.data base)
  exact Op.iszero_eq_ne_zero _ _

theorem callVerifier_run (env : Env) (verifier : Word) (base : Nat) {m : Machine World} {b : Bool}
    (answer : env.callee (Address.ofWord verifier) (m.memory.load base 0x224) = .ok (encodeWord (flag b))) :
    ∃ m', callVerifier env verifier base m = (Error.proofInvalid.throwIf (b = false) : Program World Unit) m' ∧ Scratch m m' := by
  have stored : (m.memory.store 0 ((encodeWord (flag b)).take 0x20)).loadWord 0 = flag b := by
    rw [List.take_of_length_le (by simp), ← Memory.storeWord, Memory.loadWord_storeWord_same]
  have same : Op.iszero (Op.eq (flag b) 1) ≠ 0 ↔ b = false := by cases b <;> decide
  refine ⟨{ m with returndata := encodeWord (flag b), memory := m.memory.store 0 ((encodeWord (flag b)).take 0x20) }, ?_, rfl⟩
  rw [callVerifier, bind_ok (callPure_ok answer), failIf_eq, bind_ok (revertIf_neg (by decide) _ _), mload, Exec.read_bind, stored,
    failIf_eq, Error.throwIf]
  simp only [same]
  rfl

theorem verifySpend_mirrors (base : Nat) :
    Mirrors (fun _ _ => True) (Monolith.verifySpend (environment d image c) base) (verifyProof d d.domain (Spend.decode c.data base)) := by
  refine .bind (validateSpend_mirrors base) fun _ _ _ => ?_
  intro m s tracks
  have verifying : Verifying d (environment d image c) 64 := Monolith.verifying_environment image c
  have words : slice c.data (base + 288) 256 = encodeWords (Spend.decode c.data base).proof := by
    rw [show 256 = 32 * 8 from rfl, slice_eq_encodeWords]
    rfl
  let sp := Spend.decode c.data base
  let laid := (((m.memory.storeWord 0x80 (0xc542c93b#256 <<< 224)).store 0x84 (slice c.data (base + 288) 256)).storeWords 0x184 sp.signals)
  obtain ⟨m1, address, scratch⟩ := verifierAddr_computes d image c { m with memory := laid }
  obtain ⟨before, after, code, place⟩ := verifying.code
  cases (immutableAt_run code place { m with memory := laid }).symm.trans address
  have data : (laid.storeWord 0 d.verifier.word).load 0x80 0x224 = sp.verifierCall := by
    have copied := load_signals m.memory sp d.verifier.word
    rw [Memory.storeWords_eq_store _ _ sp.proof, ← words] at copied
    exact copied
  obtain ⟨m2, ran, later⟩ := callVerifier_run (environment d image c) d.verifier.word 0x80
    (m := { m with memory := laid.storeWord 0 d.verifier.word }) (b := d.verify sp.verifierCall) (by
      rw [Address.ofWord_word]
      exact (congrArg (environment d image c |>.callee d.verifier) data).trans (verifying.answer sp))
  change Agree Panics Tracks _ ((Monolith.verifierAddr (environment d image c) >>= fun ver =>
    callVerifier (environment d image c) ver 0x80) { m with memory := laid }) _
  rw [bind_ok address, ran]
  exact Simulates.revertIf Iff.rfl _ m2 s (Tracks.scratch m m2 s later tracks)

/-- What the two decoders ask of the probe's answer: they only differ on a dirty target. -/
structure Ordinary (c : Call) : Prop where
  data : c.data.length < 2 ^ 256
  number : c.number.toNat < 2 ^ 64
  short : ∀ ret, c.probe = some ret → ret.length < 2 ^ 256
  target : ∀ ret, c.probe = some ret → Address.Clean (Facts.decode ret).settleTarget

/-- `spendCheck` once the probe's words are read. -/
def checkFacts (env : Env) (base : Nat) (nf1 nf2 : Word) (f : Facts) : Program World Word := do
  let settleTarget := Op.and f.settleTarget Op.addressMask
  let selfPayShape := Op.and (Op.eq f.frames 2) (Op.eq f.frameIndex 1)
  let paymasterShape := Op.and (Op.eq f.frames 3) (Op.eq f.frameIndex 2)
  failIf Error.notFaithfulShape.selector
    (Op.or (Op.iszero (Op.or selfPayShape paymasterShape)) (Op.iszero (Op.eq settleTarget env.address.word)))
  let lo := if Op.gt nf1 nf2 ≠ 0 then nf2 else nf1
  let hi := if Op.gt nf1 nf2 ≠ 0 then nf1 else nf2
  failIf Error.keySetMismatch.selector
    (Op.or (Op.or (Op.iszero (Op.eq f.keyCount 2)) (Op.iszero (Op.eq f.nonceSeq 0)))
      (Op.or (Op.iszero (Op.eq f.k0 lo)) (Op.iszero (Op.eq f.k1 hi))))
  let root ← Monolith.calldataload env (base + 0)
  let own ← sourceId env
  failIf Error.rootNotBoundToReference.selector
    (Op.or (Op.or (Op.iszero (Op.eq f.refCount 1)) (Op.iszero (Op.eq f.refSource own)))
      (Op.iszero (Op.eq f.refRoot root)))
  failIf Error.invalidPayer.selector (Op.or (Op.iszero f.payerWord) (f.payerWord >>> 160))
  Monolith.validateSpend env base
  Monolith.emitNoteSpent nf1
  Monolith.emitNoteSpent nf2
  return f.payerWord

/-- `_spend` once the probe's answer is decoded. -/
def decideFacts (d : Deployment) (sp : Spend) (f : Facts) : Exec State Address := do
  Error.notFaithfulShape.throwIf (¬ f.FinalFrame ∨ f.settleTarget ≠ d.self.word)
  Error.keySetMismatch.throwIf (f.keyCount ≠ 2 ∨ f.nonceSeq ≠ 0 ∨ f.k0 ≠ sp.lo ∨ f.k1 ≠ sp.hi)
  Error.rootNotBoundToReference.throwIf (f.refCount ≠ 1 ∨ f.refSource ≠ d.sourceId ∨ f.refRoot ≠ sp.root)
  Error.invalidPayer.throwIf (f.payerWord = 0 ∨ ¬ Address.Clean f.payerWord)
  validateSpend d.domain sp
  update fun st => st.emit (.noteSpent sp.nf1)
  update fun st => st.emit (.noteSpent sp.nf2)
  return Address.ofWord f.payerWord

theorem checkFacts_mirrors {f : Facts} (clean : Address.Clean f.settleTarget) (base : Nat) :
    Mirrors (fun w a => w = Address.word a)
      (checkFacts (environment d image c) base (Spend.decode c.data base).nf1 (Spend.decode c.data base).nf2 f)
      (decideFacts d (Spend.decode c.data base) f) := by
  obtain ⟨lo, hi⟩ := sorted_eq (Spend.decode c.data base)
  rw [checkFacts, decideFacts]
  simp only [failIf_eq, lo, hi]
  refine .guard ?_ fun _ => .guard ?_ fun _ => loads <| .left Tracks.scratch (sourceId_computes d image c) <|
    .guard ?_ fun _ => .guard ?_ fun payer => .bind (validateSpend_mirrors base) fun _ _ _ =>
    .perform (Tracks.emits _) (emitNoteSpent_does _) <| .perform (Tracks.emits _) (emitNoteSpent_does _) <| .pure ?_
  · have shape : Op.or (Op.and (Op.eq f.frames 2) (Op.eq f.frameIndex 1)) (Op.and (Op.eq f.frames 3) (Op.eq f.frameIndex 2)) = 0 ↔
        ¬ f.FinalFrame := by
      rw [← not_iff_not, not_not, ← Ne, Op.or_ne_zero, Op.and_eq_ne_zero, Op.and_eq_ne_zero]
      rfl
    rw [Op.and_addressMask, Address.word_ofWord clean, Op.or_ne_zero, Op.iszero_eq_ne_zero, Op.iszero_ne_zero, shape]
    rfl
  · rw [Op.or_ne_zero, Op.or_ne_zero, Op.or_ne_zero]
    simp only [Op.iszero_eq_ne_zero, or_assoc]
  · rw [Op.or_ne_zero, Op.or_ne_zero]
    simp only [Op.iszero_eq_ne_zero, or_assoc]
    rfl
  · rw [Op.or_ne_zero, Op.iszero_ne_zero]
    rfl
  · push Not at payer
    exact (Address.word_ofWord payer.2).symm

/-- The probe's eleven words, as `spendCheck` reads them back. -/
def readFacts (ret : Bytes) : Program World Facts := do
  copy 0x80 (slice ret 0 352)
  let frames ← mload 0x80
  let frameIndex ← mload 0xa0
  let keyCount ← mload 0xc0
  let nonceSeq ← mload 0xe0
  let k0 ← mload 0x100
  let k1 ← mload 0x120
  let refCount ← mload 0x140
  let refSource ← mload 0x160
  let refRoot ← mload 0x180
  let settleTarget ← mload 0x1a0
  let payerWord ← mload 0x1c0
  return { frames, frameIndex, keyCount, nonceSeq, k0, k1, refCount, refSource, refRoot, settleTarget, payerWord }

theorem readFacts_computes (ret : Bytes) : Computes Scratch (readFacts ret) (Facts.decode ret) := by
  intro m
  have word (i : Nat) (inside : i < 11) : (m.memory.store 0x80 (slice ret 0 352)).loadWord (0x80 + 32 * i) = wordAt ret (32 * i) := by
    rw [Memory.loadWord_store _ _ _ _ (by rw [length_slice]; omega), wordAt_slice _ _ _ _ (by omega), Nat.zero_add]
  refine ⟨{ m with memory := m.memory.store 0x80 (slice ret 0 352) }, ?_, rfl⟩
  simp only [readFacts, copy, mload, update_bind, read_bind, pure_apply, Facts.decode, Except.ok.injEq, Prod.mk.injEq, Facts.mk.injEq,
    and_true]
  exact ⟨word 0 (by decide), word 1 (by decide), word 2 (by decide), word 3 (by decide), word 4 (by decide), word 5 (by decide),
    word 6 (by decide), word 7 (by decide), word 8 (by decide), word 9 (by decide), word 10 (by decide)⟩

/-- `spendCheck` in three parts: who calls, what the probe says, and whether the tuple agrees. -/
theorem spendCheck_eq (env : Env) (base : Nat) :
    Monolith.spendCheck env base = (do
      failIf Error.notPoolSender.selector (Op.iszero (Op.eq env.caller.word env.address.word))
      let nf1 ← Monolith.calldataload env (base + 64)
      let nf2 ← Monolith.calldataload env (base + 96)
      failIf Error.zeroNullifier.selector (Op.iszero nf1)
      failIf Error.zeroNullifier.selector (Op.iszero nf2)
      let probe ← Monolith.probeAddr env
      let ok ← callPure env probe 0x00 0x00 0x00 0x00
      failIf Error.notFrameNative.selector (Op.iszero ok)
      let ret ← returndata
      failIf Error.notFrameNative.selector (Op.iszero (Op.eq (BitVec.ofNat 256 ret.length) 352))
      let f ← readFacts ret
      checkFacts env base nf1 nf2 f) := by
  simp only [Monolith.spendCheck, readFacts, checkFacts, bind_assoc, pure_bind]

theorem externals_probe (c : Call) :
    Monolith.externals d image c d.probe [] = (match c.probe with
      | some ret => .ok ret
      | none => .error []) := by
  have other {target : Address} {selector : Word} (long : ([] : Bytes).take 4 ≠ selectorBytes selector) :
      ¬ (d.probe = target ∧ ([] : Bytes).take 4 = selectorBytes selector) := fun both => long both.2
  rw [Monolith.externals, if_neg (other (by decide)), if_neg (other (by decide)), if_neg (other (by decide))]
  exact if_pos ⟨rfl, rfl⟩

theorem spendCheck_mirrors (ordinary : Ordinary c) (base : Nat) :
    Mirrors (fun w a => w = Address.word a) (Monolith.spendCheck (environment d image c) base)
      (spend d (Logic.variant d) c (Spend.decode c.data base)) := by
  rw [spendCheck_eq, spend]
  simp only [failIf_eq]
  refine .guard ?_ fun _ => loads <| loads ?_
  · rw [Op.iszero_eq_ne_zero]
    exact not_congr ⟨fun same => Address.word_injective same, fun same => congrArg Address.word same⟩
  refine (nullifiers ..).symm ▸ .guard Iff.rfl fun _ => .left Tracks.scratch (probeAddr_computes d image c) ?_
  intro m s tracks
  rw [envelopeFacts]
  cases answer : c.probe with
  | none =>
    have silent : (environment d image c).callee (Address.ofWord d.probe.word) (m.memory.load 0x00 0x00) = .error [] := by
      rw [Address.ofWord_word]
      exact (externals_probe c).trans (by rw [answer])
    rw [bind_ok (callPure_error silent), bind_error (revertIf_pos (by decide) _ _)]
    exact .inl rfl
  | some ret =>
    have answered : (environment d image c).callee (Address.ofWord d.probe.word) (m.memory.load 0x00 0x00) = .ok ret := by
      rw [Address.ofWord_word]
      exact (externals_probe c).trans (by rw [answer])
    have size : Op.iszero (Op.eq (BitVec.ofNat 256 ret.length) 352) ≠ 0 ↔ ret.length ≠ 352 := by
      have number : (BitVec.ofNat 256 ret.length).toNat = ret.length := by
        rw [BitVec.toNat_ofNat, Nat.mod_eq_of_lt (ordinary.short ret answer)]
      rw [Op.iszero_eq_ne_zero, not_iff_not, ← BitVec.toNat_inj, number]
      rfl
    rw [bind_ok (callPure_ok answered), bind_ok (revertIf_neg (by decide) _ _), returndata, read_bind, revertIf_congr size]
    change Agree Panics Tracks _ _ (((Error.notFrameNative.throwIf (ret.length ≠ 352) >>= fun _ =>
      Exec.revertIf (¬ Address.Clean (Facts.decode ret).settleTarget) [] >>= fun _ => pure (Facts.decode ret)) >>=
        decideFacts d (Spend.decode c.data base)) s)
    have clean := ordinary.target ret answer
    rw [bind_assoc, revertIf_bind, throwIf_bind]
    by_cases whole : ret.length = 352
    · rw [if_neg (not_not.mpr whole), if_neg (not_not.mpr whole), bind_assoc, revertIf_bind, if_neg (not_not.mpr clean)]
      exact Simulates.left Tracks.scratch (readFacts_computes ret) (checkFacts_mirrors clean base)
        { m with returndata := ret, memory := m.memory.store 0x00 (ret.take 0x00) } s tracks
    · rw [if_pos whole, if_pos whole]
      exact .inl rfl

theorem isLeaf_mirrors (cm : Word) : Mirrors (fun w known => w = flag known) (Monolith.isLeaf cm) (read fun s => s.isLeaf cm) :=
  .left Tracks.scratch (mapSlot_computes cm 23) <| .read fun m s tracks => by rw [tracks.1]; exact storage_isLeaf s cm

/-- An output note: whether it is new, and then its index. -/
def place (env : Env) (cm : Word) : Program World (Word × Word) := do
  let known ← Monolith.isLeaf cm
  let i ← Monolith.insertNew env cm (Op.iszero known)
  return (Op.iszero known, i)

def Placed (placed : Word × Word) (index : Option Nat) : Prop :=
  match index with
  | none => placed.1 = 0
  | some n => placed.1 = 1 ∧ placed.2 = BitVec.ofNat 256 n

theorem place_mirrors (cm : Word) : Mirrors Placed (place (environment d image c) cm) (insertNew d cm) := by
  refine .bind (isLeaf_mirrors cm) ?_
  rintro _ known rfl
  cases known with
  | true => exact .pure rfl
  | false => exact .bind (insert_simulates cm) fun i n same => .pure ⟨rfl, same⟩

theorem emitLeaf_mirrors (number : c.number.toNat < 2 ^ 64) (cm root : Word) {placed : Word × Word} {index : Option Nat}
    (same : Placed placed index) :
    Mirrors (fun _ _ => True) (Exec.when (placed.1 ≠ 0) (Monolith.emitLeafAppended (environment d image c) cm placed.2 root))
      (emitLeaf c cm index root) := by
  obtain ⟨new, i⟩ := placed
  cases index with
  | none =>
    obtain rfl : new = 0 := same
    exact .pure trivial
  | some n =>
    obtain ⟨rfl, rfl⟩ : new = 1 ∧ i = BitVec.ofNat 256 n := same
    have new : (1 : Word) ≠ 0 := by decide
    rw [Exec.when, if_pos new]
    intro m s tracks
    obtain ⟨m', ran, does⟩ := emitLeafAppended_does d image number cm n root m
    rw [ran]
    exact ⟨trivial, Tracks.emits _ m m' s does tracks⟩

theorem recordLeaves_mirrors (number : c.number.toNat < 2 ^ 64) (cm1 cm2 : Word) {placed1 placed2 : Word × Word} {i1 i2 : Option Nat}
    (first : Placed placed1 i1) (second : Placed placed2 i2) :
    Mirrors (fun _ _ => True)
      (Exec.when (Op.or placed1.1 placed2.1 ≠ 0) do
        let newRoot ← Monolith.computeRoot (environment d image c)
        Monolith.sstore (.slot 22) newRoot
        Exec.when (placed1.1 ≠ 0) (Monolith.emitLeafAppended (environment d image c) cm1 placed1.2 newRoot)
        Exec.when (placed2.1 ≠ 0) (Monolith.emitLeafAppended (environment d image c) cm2 placed2.2 newRoot))
      (recordLeaves d c cm1 cm2 i1 i2) := by
  have new {placed : Word × Word} {index : Option Nat} (same : Placed placed index) : placed.1 ≠ 0 ↔ index.isSome = true := by
    cases index with
    | none => simp [show placed.1 = 0 from same]
    | some n => simp [show placed.1 = 1 from same.1]
  refine .ite ?_ (fun _ => ?_) fun _ => .pure trivial
  · rw [Op.or_ne_zero, new first, new second]
  · simp only [refreshRoot, bind_assoc, pure_bind]
    refine .bind computeRoot_simulates ?_
    rintro root _ rfl
    refine .perform (Tracks.does (fun s => put_currentRoot s root) fun _ kept => kept) (sstore_does _ _) ?_
    exact .bind (emitLeaf_mirrors number cm1 root first) fun _ _ _ => emitLeaf_mirrors number cm2 root second

/-- A word of storage that pictures a field of the Solidity state. -/
theorem sload_mirrors {loc : Loc} {field : State → Word} (stored : ∀ s, storageOf s loc = field s) :
    Mirrors (fun w found => w = found) (Monolith.sload loc) (read field) :=
  .read fun m s tracks => by rw [tracks.1]; exact stored s

/-- The Yul code adds an amount to a pull credit without a check. -/
theorem credit_wraps {base topic : Word} {a : Address} (amount : Word) {credit : State → Word} {set : Word → State → State}
    (event : Event) (stored : ∀ s, storageOf s (.map base a.word) = credit s)
    (puts : ∀ s total, put (.map base a.word) total (worldOf s) = worldOf (set total s)) (log : logOf event = ⟨[topic, a.word], encodeWord amount⟩)
    (kept : ∀ total s, (set total s).nextIndex = s.nextIndex) {m : Machine World} {s : State} (tracks : Tracks m s) :
    ∃ m', (do
        let loc ← Monolith.mapSlot a.word base
        let found ← Monolith.sload loc
        Monolith.sstore loc (found + amount)
        Monolith.emitAmount topic a.word amount : Program World Unit) m = .ok ((), m') ∧
      Tracks m' ((set (credit s + amount) s).emit event) := by
  obtain ⟨m1, slot, scratch⟩ := mapSlot_computes a.word base m
  have tracks1 : Tracks m1 s := Tracks.scratch m m1 s scratch tracks
  have found : m1.world.storage (.map base a.word) = credit s := by
    rw [tracks1.1]
    exact stored s
  obtain ⟨m2, stores, does⟩ := sstore_does (.map base a.word) (credit s + amount) m1
  have tracks2 : Tracks m2 (set (credit s + amount) s) :=
    Tracks.does (fun s => puts s _) (fun s room => (kept _ s).trans_le room) m1 m2 s does tracks1
  obtain ⟨m3, emits, logged⟩ := emitAmount_does topic a.word amount m2
  refine ⟨m3, ?_, Tracks.emits event m2 m3 _ (log ▸ logged) tracks2⟩
  rw [bind_ok slot, bind_ok (sload_run _ m1), found, bind_ok stores]
  exact emits

/-- An amount added to a pull credit. -/
theorem credit_mirrors {base topic : Word} {a : Address} (amount : Word) {credit : State → Word} {set : Word → State → State}
    (event : Event) (stored : ∀ s, storageOf s (.map base a.word) = credit s)
    (puts : ∀ s total, put (.map base a.word) total (worldOf s) = worldOf (set total s)) (log : logOf event = ⟨[topic, a.word], encodeWord amount⟩)
    (kept : ∀ total s, (set total s).nextIndex = s.nextIndex) :
    Mirrors (fun _ _ => True)
      (do
        let loc ← Monolith.mapSlot a.word base
        let found ← Monolith.sload loc
        Monolith.sstore loc (found + amount)
        Monolith.emitAmount topic a.word amount)
      (do
        let found ← read credit
        let total ← checkedAdd found amount
        update (set total)
        update fun s => s.emit event) := by
  have panics : Panics arithmeticPanic := rfl
  intro m s tracks
  obtain ⟨m', ran, after⟩ := credit_wraps amount event stored puts log kept tracks
  rw [ran, read_bind, checkedAdd_bind]
  by_cases excess : 2 ^ 256 ≤ (credit s).toNat + amount.toNat
  · rw [if_pos excess]
    exact panics
  · rw [if_neg excess]
    exact ⟨trivial, after⟩

theorem settle_eq (env : Env) (publishes : Bytes → Bool) (base : Nat) (payer : Word) :
    Monolith.settle env publishes base payer = (do
      let oc1 ← Monolith.calldataload env (base + 128)
      let oc2 ← Monolith.calldataload env (base + 160)
      let fee ← Monolith.calldataload env (base + 224)
      let placed1 ← place env oc1
      let placed2 ← place env oc2
      Exec.when (Op.or placed1.1 placed2.1 ≠ 0) do
        let newRoot ← Monolith.computeRoot env
        Monolith.sstore (.slot 22) newRoot
        Exec.when (placed1.1 ≠ 0) (Monolith.emitLeafAppended env oc1 placed1.2 newRoot)
        Exec.when (placed2.1 ≠ 0) (Monolith.emitLeafAppended env oc2 placed2.2 newRoot)
      Monolith.publishRoot publishes
      Exec.when (Op.and (Op.iszero (Op.eq payer env.address.word)) (Op.iszero (Op.iszero fee)) ≠ 0) do
        let loc ← Monolith.mapSlot payer 25
        let found ← Monolith.sload loc
        Monolith.sstore loc (found + fee)
        Monolith.emitAmount Monolith.feeCreditedTopic payer fee) := by
  simp only [Monolith.settle, place, bind_assoc, pure_bind, Monolith.emitFeeCredited]

theorem due_iff (d : Deployment) (image : Image) (c : Call) (payer : Address) (fee : Word) :
    Op.and (Op.iszero (Op.eq payer.word (environment d image c).address.word)) (Op.iszero (Op.iszero fee)) ≠ 0 ↔ fee ≠ 0 ∧ payer ≠ d.self := by
  rw [Op.iszero, Op.iszero, Op.and_flag_ne_zero, ← Op.iszero, ← Op.iszero, Op.iszero_eq_ne_zero, Op.iszero_iszero_ne_zero, and_comm]
  exact and_congr Iff.rfl (not_congr ⟨fun same => Address.word_injective same, fun same => congrArg Address.word same⟩)

theorem settle_mirrors (ordinary : Ordinary c) (base : Nat) (payer : Address) :
    Mirrors (fun _ _ => True) (Monolith.settle (environment d image c) c.publishes base payer.word)
      (settle d c (Spend.decode c.data base) payer) := by
  rw [settle_eq]
  refine loads <| loads <| loads <| .bind (place_mirrors _) fun placed1 i1 first => .bind (place_mirrors _) fun placed2 i2 second =>
    .bind (recordLeaves_mirrors ordinary.number _ _ first second) fun _ _ _ => .bind publishRoot_mirrors fun _ _ _ => ?_
  refine .ite (due_iff d image c payer _) (fun _ => ?_) fun _ => .pure trivial
  exact credit_mirrors _ (.feeCredited payer _) (fun s => storage_feeCredit s payer) (fun s total => put_feeCredit s payer total) rfl fun _ _ => rfl

theorem ret_computes (v : Word) : Computes Scratch (Monolith.ret v) (.returned (encodeWord v)) := by
  intro m
  refine ⟨{ m with memory := m.memory.storeWord 0x00 v }, ?_, rfl⟩
  exact congrArg (fun bytes => Except.ok (Reply.returned bytes, _)) (Memory.load_storeWord_same m.memory 0x00 v)

theorem ret_mirrors {v w : Word} (same : v = w) : Mirrors (· = ·) (Monolith.ret v) (returnWord w) := by
  subst same
  intro m s tracks
  obtain ⟨m', ran, scratch⟩ := ret_computes v m
  rw [ran]
  exact ⟨rfl, Tracks.scratch m m' s scratch tracks⟩

theorem addrArg_mirrors (offset : Nat) :
    Mirrors (fun w a => w = Address.word a) (Monolith.addrArg (environment d image c) offset) (addressArg c offset) := by
  refine loads <| .guard Iff.rfl fun clean => .pure ?_
  exact (Address.word_ofWord (not_not.mp clean)).symm

theorem shield_mirrors (ordinary : Ordinary c) :
    Mirrors (· = ·)
      (do
        failIf Error.zeroValueShield.selector (Op.iszero c.value)
        failIf Error.valueTooLarge.selector (Op.iszero (Op.lt c.value maxValue))
        let inner ← Monolith.calldataload (environment d image c) 4
        failIf Error.notCanonical.selector (Op.iszero (Op.lt inner fieldP))
        let cm ← Monolith.hash3 (environment d image c) 2 inner c.value
        let known ← Monolith.isLeaf cm
        failIf Error.duplicateCommitment.selector known
        let index ← Monolith.insert (environment d image c) cm
        let newRoot ← Monolith.computeRoot (environment d image c)
        Monolith.sstore (.slot 22) newRoot
        Monolith.emitLeafAppended (environment d image c) cm index newRoot
        Monolith.publishRoot c.publishes
        Monolith.ret index)
      (do
        let index ← shield d c (wordAt c.data 4)
        returnWord (BitVec.ofNat 256 index)) := by
  simp only [shield, failIf_eq, refreshRoot, bind_assoc, pure_bind]
  refine .guard (Op.iszero_ne_zero _) fun _ => .guard (Op.iszero_lt_ne_zero _ _) fun _ => loads <|
    .guard (Op.iszero_lt_ne_zero _ _) fun _ => .left Tracks.scratch (hash3_computes d image c 2 _ _) <| .bind (isLeaf_mirrors _) ?_
  rintro _ known rfl
  refine .guard (flag_ne_zero known) fun _ => .bind (insert_simulates _) ?_
  rintro _ index rfl
  refine .bind computeRoot_simulates ?_
  rintro root _ rfl
  exact .perform (Tracks.does (fun s => put_currentRoot s root) fun _ kept => kept) (sstore_does _ _) <|
    .perform (Tracks.emits _) (emitLeafAppended_does d image ordinary.number _ index root) <|
    .bind publishRoot_mirrors fun _ _ _ => ret_mirrors rfl

theorem transfer_mirrors (ordinary : Ordinary c) :
    Mirrors (· = ·)
      (do
        let pub ← Monolith.calldataload (environment d image c) 196
        let ctx ← Monolith.calldataload (environment d image c) 260
        failIf Error.transferShape.selector (Op.or (Op.iszero (Op.iszero pub)) (Op.iszero (Op.iszero ctx)))
        let payer ← Monolith.spendCheck (environment d image c) 4
        Monolith.settle (environment d image c) c.publishes 4 payer
        Monolith.stop)
      (do
        transfer d (Logic.variant d) c (Spend.decode c.data 4)
        returnNothing) := by
  simp only [transfer, failIf_eq, bind_assoc]
  refine loads <| loads <| .guard ?_ fun _ => .bind (spendCheck_mirrors ordinary 4) ?_
  · rw [Op.or_ne_zero, Op.iszero_iszero_ne_zero, Op.iszero_iszero_ne_zero]
    rfl
  · rintro _ payer rfl
    exact .bind (settle_mirrors ordinary 4 payer) fun _ _ _ => .pure rfl

theorem withdraw_mirrors (ordinary : Ordinary c) :
    Mirrors (· = ·)
      (do
        let recipient ← Monolith.addrArg (environment d image c) 548
        let pub ← Monolith.calldataload (environment d image c) 196
        let ctx ← Monolith.calldataload (environment d image c) 260
        failIf Error.withdrawShape.selector (Op.or (Op.iszero pub) (Op.iszero ctx))
        failIf Error.ctxDoesNotNameRecipient.selector (Op.iszero (Op.eq ctx (Monolith.ctxFor recipient)))
        let payer ← Monolith.spendCheck (environment d image c) 4
        Monolith.settle (environment d image c) c.publishes 4 payer
        let loc ← Monolith.mapSlot recipient 24
        let credit ← Monolith.sload loc
        Monolith.sstore loc (credit + pub)
        Monolith.emitWithdrawalCredited recipient pub
        Monolith.stop)
      (do
        let recipient ← addressArg c 548
        withdraw d (Logic.variant d) c (Spend.decode c.data 4) recipient
        returnNothing) := by
  refine .bind (addrArg_mirrors 548) ?_
  rintro _ recipient rfl
  have named : Monolith.ctxFor recipient.word = ctxFor recipient := by
    rw [Monolith.ctxFor, Op.and_addressMask, Address.ofWord_word, ctxFor]
  simp only [withdraw, failIf_eq, bind_assoc, named]
  refine loads <| loads <| .guard ?_ fun _ => .guard (Op.iszero_eq_ne_zero _ _) fun _ => .bind (spendCheck_mirrors ordinary 4) ?_
  · rw [Op.or_ne_zero, Op.iszero_ne_zero, Op.iszero_ne_zero]
    rfl
  rintro _ payer rfl
  refine .bind (settle_mirrors ordinary 4 payer) fun _ _ _ => ?_
  have credited := credit_mirrors (Spend.decode c.data 4).publicAmount (.withdrawalCredited recipient _)
    (fun s => storage_withdrawalCredit s recipient) (fun s total => put_withdrawalCredit s recipient total) rfl fun _ _ => rfl
  have whole := Simulates.bind credited (f := fun _ => Monolith.stop) (g := fun _ => returnNothing) fun _ _ _ => .pure rfl
  simp only [bind_assoc] at whole
  simp only [creditWithdrawal, bind_assoc]
  exact whole

/-- A claim, up to the call that pays. -/
theorem claim_mirrors {base topic : Word} {credit : Address → State → Word} {set : Address → State → State} {event : Address → Word → Event}
    (stored : ∀ a s, storageOf s (.map base a.word) = credit a s) (puts : ∀ a s, put (.map base a.word) 0 (worldOf s) = worldOf (set a s))
    (log : ∀ a amount, logOf (event a amount) = ⟨[topic, a.word], encodeWord amount⟩) (kept : ∀ a s, (set a s).nextIndex = s.nextIndex) :
    Mirrors (· = ·)
      (do
        let who ← Monolith.addrArg (environment d image c) 4
        let loc ← Monolith.mapSlot who base
        let amount ← Monolith.sload loc
        failIf Error.noCredit.selector (Op.iszero amount)
        Monolith.sstore loc 0
        Monolith.emitAmount topic who amount
        return .payout (Address.ofWord who) amount)
      (do
        let who ← addressArg c 4
        let amount ← read (credit who)
        Error.noCredit.throwIf (amount = 0)
        update (set who)
        update fun s => s.emit (event who amount)
        return Reply.payout who amount) := by
  refine .bind (addrArg_mirrors 4) ?_
  rintro _ who rfl
  refine .left Tracks.scratch (mapSlot_computes who.word base) <| .bind (sload_mirrors (stored who)) ?_
  rintro amount _ rfl
  have emits := emitAmount_does topic who.word amount
  rw [← log] at emits
  rw [failIf_eq]
  exact .guard (Op.iszero_ne_zero _) fun _ => .perform (Tracks.does (puts who) fun s room => (kept who s).trans_le room) (sstore_does _ _) <|
    .perform (Tracks.emits _) emits <| .pure (by rw [Address.ofWord_word])

theorem verifyProofOnly_mirrors :
    Mirrors (· = ·)
      (do
        let nf1 ← Monolith.calldataload (environment d image c) 68
        failIf Error.zeroNullifier.selector (Op.iszero nf1)
        let nf2 ← Monolith.calldataload (environment d image c) 100
        failIf Error.zeroNullifier.selector (Op.iszero nf2)
        Monolith.verifySpend (environment d image c) 4
        Monolith.stop)
      (do
        verifyProofOnly d (Logic.variant d) (Spend.decode c.data 4)
        returnNothing) := by
  have merged := nullifiers (wordAt c.data 68) (wordAt c.data 100) fun _ =>
    Monolith.verifySpend (environment d image c) 4 >>= fun _ => Monolith.stop
  simp only [Monolith.calldataload, pure_bind, failIf_eq, verifyProofOnly, bind_assoc]
  rw [show (environment d image c).data = c.data from rfl]
  refine merged.symm ▸ .guard Iff.rfl fun _ => .bind (verifySpend_mirrors 4) fun _ _ _ => .pure rfl

/-- The branch of the Yul switch that a selector leads to. -/
def branch (env : Env) (publishes : Bytes → Bool) : Method → Program World Reply
  | .shield => Monolith.shield env publishes
  | .transfer => Monolith.transfer env publishes
  | .withdraw => Monolith.withdraw env publishes
  | .verifyProofOnly => Monolith.verifyProofOnly env
  | .claimWithdrawal => Monolith.claimWithdrawal env
  | .claimFee => Monolith.claimFee env
  | .currentRoot => do
    let root ← Monolith.sload (.slot 22)
    Monolith.ret root
  | .sourceId => do
    let id ← sourceId env
    Monolith.ret id
  | .domain => do
    let own ← domainVal env
    Monolith.ret own
  | .nextIndex => do
    let index ← Monolith.sload (.slot 21)
    Monolith.ret index
  | .isLeaf => do
    Monolith.needArgs env 32
    let cm ← Monolith.calldataload env 4
    let known ← Monolith.isLeaf cm
    Monolith.ret known
  | .withdrawalCredit => do
    Monolith.needArgs env 32
    let who ← Monolith.addrArg env 4
    let credit ← Monolith.withdrawalCredit who
    Monolith.ret credit
  | .feeCredit => do
    Monolith.needArgs env 32
    let who ← Monolith.addrArg env 4
    let credit ← Monolith.feeCredit who
    Monolith.ret credit
  | .filledSubtrees => do
    Monolith.needArgs env 32
    let i ← Monolith.calldataload env 4
    Exec.revertIf (Op.gt i (BitVec.ofNat 256 depth) ≠ 0) []
    let node ← Monolith.sload (.slot i)
    Monolith.ret node
  | .ctxFor => do
    Monolith.needArgs env 32
    let who ← Monolith.addrArg env 4
    Monolith.ret (Monolith.ctxFor who)
  | .domainFor => do
    Monolith.needArgs env 64
    let chainId ← Monolith.calldataload env 4
    let source ← Monolith.calldataload env 36
    let scalar ← domainFor env chainId source
    Monolith.ret scalar
  | .probe => do
    let probe ← Monolith.probeAddr env
    Monolith.ret probe
  | .verifier => do
    let verifier ← Monolith.verifierAddr env
    Monolith.ret verifier
  | .depth => Monolith.ret (BitVec.ofNat 256 depth)
  | .salt => Monolith.ret 0
  | .domainTag => Monolith.ret domainTag
  | .recentRootPredeploy => Monolith.ret 0x8272

theorem dispatch_selected (env : Env) (publishes : Bytes → Bool) {m : Method} (selected : wordAt env.data 0 >>> 224 = m.selector) :
    Monolith.dispatch env publishes = (do
      Exec.revertIf (env.value ≠ 0 ∧ Op.iszero (Op.eq m.selector Method.shield.selector) ≠ 0) []
      branch env publishes m) := by
  rw [Monolith.dispatch, Monolith.calldataload, pure_bind, selected]
  cases m <;> rfl

theorem dispatch_unknown (env : Env) (publishes : Bytes → Bool) (unknown : Method.ofSelector (wordAt env.data 0 >>> 224) = none)
    (sender : wordAt env.data 0 >>> 224 ≠ Reference.poolSenderSelector) (m : Machine World) :
    Monolith.dispatch env publishes m = .error [] := by
  have others : ∀ method ∈ Method.all, ¬ wordAt env.data 0 >>> 224 = method.selector := by
    intro method _ same
    rw [same, ofSelector_selector] at unknown
    cases unknown
  rw [Monolith.dispatch, Monolith.calldataload, pure_bind, revertIf_bind]
  generalize wordAt env.data 0 >>> 224 = selector at others sender
  by_cases paid : env.value ≠ 0 ∧ Op.iszero (Op.eq selector 0x26123548#256) ≠ 0
  · rw [if_pos paid]
  · simp only [Method.all, List.forall_mem_cons, Method.selector] at others
    simp only [Reference.poolSenderSelector] at sender
    simp only [if_neg paid, others, sender, if_false, revert_apply]

theorem needArgs_iff (env : Env) (selector : 4 ≤ env.data.length) (size : env.data.length < 2 ^ 256) (count : Word) :
    Op.lt (BitVec.ofNat 256 env.data.length - 4) count ≠ 0 ↔ env.data.length < 4 + count.toNat := by
  have returns : Returns (Monolith.needArgs env count) _ := Monolith.needArgs_returns selector size
  have passes := returns.iff (Machine.start (worldOf .empty)) ()
  rw [Monolith.needArgs, exists_congr fun t => revertIf_eq_ok] at passes
  rw [← not_iff_not, Nat.not_lt, ← passes]
  exact ⟨fun fails => ⟨_, fails, rfl⟩, fun ⟨_, fails, _⟩ => fails⟩

/-- A function without arguments, behind a length check that the selector has passed. -/
theorem nullary {x : Program World Reply} {y : Exec State Reply} (selector : 4 ≤ c.data.length) (same : Mirrors (· = ·) x y) :
    Mirrors (· = ·) x (Exec.revertIf (c.data.length < 4 + 0) [] >>= fun _ => y) := by
  intro m s tracks
  rw [revertIf_bind, if_neg (by omega)]
  exact same m s tracks

theorem storage_level {i : Word} (inside : ¬ BitVec.ofNat 256 depth < i) (s : State) : storageOf s (.slot i) = s.filledSubtrees i.toNat := by
  have level : i.toNat ≤ depth := by
    rw [BitVec.not_lt, BitVec.le_def] at inside
    exact inside
  rw [storageOf, if_pos level]

theorem branch_mirrors (ordinary : Ordinary c) (selector : 4 ≤ c.data.length) (m : Method) :
    Mirrors (· = ·) (branch (environment d image c) c.publishes m)
      (Exec.revertIf (c.data.length < 4 + m.argBytes) [] >>= fun _ => body d (Logic.variant d) c m) := by
  have long (count : Word) : Op.lt (BitVec.ofNat 256 c.data.length - 4) count ≠ 0 ↔ c.data.length < 4 + count.toNat :=
    needArgs_iff (environment d image c) selector ordinary.data count
  cases m with
  | shield => exact .guard (long 32) fun _ => shield_mirrors ordinary
  | transfer => exact .guard (long 544) fun _ => transfer_mirrors ordinary
  | withdraw => exact .guard (long 576) fun _ => withdraw_mirrors ordinary
  | verifyProofOnly => exact .guard (long 544) fun _ => verifyProofOnly_mirrors
  | claimWithdrawal =>
    exact .guard (long 32) fun _ => claim_mirrors (fun a s => storage_withdrawalCredit s a)
      (fun a s => put_withdrawalCredit s a 0) (fun _ _ => rfl) fun _ _ => rfl
  | claimFee =>
    exact .guard (long 32) fun _ => claim_mirrors (fun a s => storage_feeCredit s a)
      (fun a s => put_feeCredit s a 0) (fun _ _ => rfl) fun _ _ => rfl
  | currentRoot => exact nullary selector <| .bind (sload_mirrors storage_currentRoot) fun _ _ same => ret_mirrors same
  | sourceId => exact nullary selector <| .left Tracks.scratch (sourceId_computes d image c) <| ret_mirrors rfl
  | domain => exact nullary selector <| .left Tracks.scratch domainVal_computes <| ret_mirrors rfl
  | nextIndex => exact nullary selector <| .bind read_nextIndex fun _ _ same => ret_mirrors same.1
  | isLeaf => exact .guard (long 32) fun _ => loads <| .bind (isLeaf_mirrors _) fun _ _ same => ret_mirrors same
  | withdrawalCredit =>
    refine .guard (long 32) fun _ => .bind (addrArg_mirrors 4) ?_
    rintro _ who rfl
    exact .bind (.left Tracks.scratch (mapSlot_computes _ _) <| sload_mirrors fun s => storage_withdrawalCredit s who)
      fun _ _ same => ret_mirrors same
  | feeCredit =>
    refine .guard (long 32) fun _ => .bind (addrArg_mirrors 4) ?_
    rintro _ who rfl
    exact .bind (.left Tracks.scratch (mapSlot_computes _ _) <| sload_mirrors fun s => storage_feeCredit s who)
      fun _ _ same => ret_mirrors same
  | filledSubtrees =>
    refine .guard (long 32) fun _ => loads <| .guard (Op.lt_ne_zero _ _) fun inside => ?_
    exact .bind (sload_mirrors (storage_level inside)) fun _ _ same => ret_mirrors same
  | ctxFor =>
    refine .guard (long 32) fun _ => .bind (addrArg_mirrors 4) ?_
    rintro _ who rfl
    exact ret_mirrors (by rw [Monolith.ctxFor, Op.and_addressMask, Address.ofWord_word, ctxFor])
  | domainFor =>
    refine .guard (long 64) fun _ => loads <| loads <| .left Tracks.scratch (fun m => ⟨_, domainFor_run _ _ _ m, rfl⟩) <| ret_mirrors rfl
  | probe => exact nullary selector <| .left Tracks.scratch (probeAddr_computes d image c) <| ret_mirrors rfl
  | verifier => exact nullary selector <| .left Tracks.scratch (verifierAddr_computes d image c) <| ret_mirrors rfl
  | depth => exact nullary selector <| ret_mirrors rfl
  | salt => exact nullary selector <| ret_mirrors rfl
  | domainTag => exact nullary selector <| ret_mirrors rfl
  | recentRootPredeploy => exact nullary selector <| ret_mirrors (by decide)

/-- Call data too short for a selector is padded with a zero byte, which no selector ends in. -/
theorem selector_of_short {data : Bytes} (short : data.length < 4) : (wordAt data 0 >>> 224).toNat % 256 = 0 := by
  have last : data.getD (0 + 3) 0 = 0 := by
    rw [List.getD_eq_getElem?_getD, List.getElem?_eq_none (by omega), Option.getD_none]
  rw [wordAt, decodeWord_shift, spell, last]
  simp

theorem dispatch_mirrors (image : Image) (ordinary : Ordinary c) (plain : ¬ ReadsSender c) :
    Mirrors (· = ·) (Monolith.dispatch (environment d image c) c.publishes) (dispatch d (Logic.variant d) c) := by
  intro m s tracks
  rw [dispatch, revertIf_bind]
  by_cases short : c.data.length < 4
  · have low := selector_of_short short
    have unknown : Method.ofSelector (wordAt c.data 0 >>> 224) = none := by
      rw [Option.eq_none_iff_forall_ne_some]
      intro method found
      rw [← ofSelector_eq_some found] at low
      revert low
      cases method <;> decide
    have sender : wordAt c.data 0 >>> 224 ≠ Reference.poolSenderSelector := by
      intro same
      rw [same] at low
      exact absurd low (by decide)
    rw [if_pos short, dispatch_unknown (environment d image c) c.publishes unknown sender]
    exact .inl rfl
  rw [if_neg short]
  cases chosen : Method.ofSelector (wordAt c.data 0 >>> 224) with
  | none =>
    rw [dispatch_unknown (environment d image c) c.publishes chosen fun sender => plain ⟨Nat.not_lt.mp short, sender⟩]
    exact .inl rfl
  | some method =>
    have selected : wordAt c.data 0 >>> 224 = method.selector := (ofSelector_eq_some chosen).symm
    rw [dispatch_selected (environment d image c) c.publishes selected]
    refine Simulates.guard ?_ (fun _ => branch_mirrors ordinary (Nat.not_lt.mp short) method) m s tracks
    have payable : Op.iszero (Op.eq method.selector Method.shield.selector) ≠ 0 ↔ method.payable = false := by
      cases method <;> decide
    rw [payable, and_comm]
    rfl

/-- One call of the Yul pool is one call of the Solidity settlement. -/
theorem call_mirrors (ordinary : Ordinary c) (plain : ¬ ReadsSender c) {s : State} (room : s.nextIndex ≤ 2 ^ depth)
    (calm : Logic.call d c s ≠ .error arithmeticPanic) :
    Monolith.call d image c (worldOf s) = (Logic.call d c s).map (Prod.map id worldOf) := by
  have agreed := dispatch_mirrors (d := d) image ordinary plain (Machine.start (worldOf s)) s ⟨rfl, room⟩
  rw [Monolith.call]
  rw [Logic.call] at calm ⊢
  cases right : dispatch d (Logic.variant d) c s with
  | error data =>
    rw [right] at agreed calm
    cases left : Monolith.dispatch (environment d image c) c.publishes (Machine.start (worldOf s)) with
    | error other =>
      rw [left] at agreed
      rcases agreed with rfl | panics
      · rfl
      · exact absurd (congrArg Except.error panics) calm
    | ok pair =>
      rw [left] at agreed
      exact absurd (congrArg Except.error agreed) calm
  | ok other =>
    rw [right] at agreed
    cases left : Monolith.dispatch (environment d image c) c.publishes (Machine.start (worldOf s)) with
    | error data =>
      rw [left] at agreed
      exact agreed.elim
    | ok pair =>
      rw [left] at agreed
      obtain ⟨reply, m⟩ := pair
      obtain ⟨answer, t⟩ := other
      obtain ⟨rfl, pictures, -⟩ := agreed
      exact congrArg (fun world => Except.ok (reply, world)) pictures

end ShieldedPool.Proofs.Twin
