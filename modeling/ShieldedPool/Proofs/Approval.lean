import ShieldedPool.Dispatcher
import ShieldedPool.Monolith
import ShieldedPool.SharedSender
import ShieldedPool.Proofs.Effects

/-! What frame 0 asks of a transaction, said once. Each of the three authorizers approves
exactly the transactions that meet it, so they approve the same ones. -/

namespace ShieldedPool.Proofs
open Evm Yul PoolYul Exec

variable {ω : Type}

/-- The Spend tuple in the data of frame `i`. -/
def SpendIn (o : Opcodes) (i : Nat) (sp : Spend) : Prop :=
  ∃ w : Nat → Word, (∀ k, k < 17 → o.frameDataLoad i (4 + 32 * k) = some (w k)) ∧ sp = Spend.ofWords w

/-- The envelope fields every authorizer fixes, with frame `i` as the one that settles. -/
structure Enveloped (pool : Word) (o : Opcodes) (i : Nat) : Prop where
  sender : o.txParam 0x02 = some pool
  frameIndex : o.txParam 0x0A = some 0
  signatures : o.txParam 0x0B = some 1
  blobs : o.txParam 0x07 = some 0
  keyCount : o.txParam 0x0D = some 2
  nonceSeq : o.txParam 0x01 = some 0
  refCount : o.txParam 0x0F = some 1
  verifyTarget : o.frameParam 0 0x00 = some pool
  verifyMode : o.frameParam 0 0x02 = some 1
  verifyData : o.frameParam 0 0x04 = some 0
  verifyValue : o.frameParam 0 0x08 = some 0
  settleTarget : o.frameParam i 0x00 = some pool
  settleMode : o.frameParam i 0x02 = some 2
  settleFlags : o.frameParam i 0x03 = some 0
  settleGas : o.frameParam i 0x01 = some 10000000
  settleValue : o.frameParam i 0x08 = some 0

/-- Two frames, and the pool pays. -/
structure SelfPaid (o : Opcodes) : Prop where
  frames : o.txParam 0x09 = some 2
  flags : o.frameParam 0 0x03 = some 3
  gas : o.frameParam 0 0x01 = some 350000

/-- Three frames, and the middle one pays. -/
structure Sponsored (o : Opcodes) : Prop where
  frames : o.txParam 0x09 = some 3
  flags : o.frameParam 0 0x03 = some 2
  gas : o.frameParam 0 0x01 = some 300000
  payMode : o.frameParam 1 0x02 = some 1
  payFlags : o.frameParam 1 0x03 = some 1
  payGas : o.frameParam 1 0x01 = some 100000
  payValue : o.frameParam 1 0x08 = some 0

/-- Frame `i` calls `transfer` or `withdraw` with arguments of the right shape. -/
inductive SettleCall (o : Opcodes) (i : Nat) (sp : Spend) : Prop
  | transfer {head} (size : o.frameParam i 0x04 = some 548) (loaded : o.frameDataLoad i 0 = some head)
      (selector : head >>> 224 = 0xb9947fa0#256) (amount : sp.publicAmount = 0) (ctx : sp.ctx = 0)
  | withdraw {head} {recipient : Address} (size : o.frameParam i 0x04 = some 580) (loaded : o.frameDataLoad i 0 = some head)
      (selector : head >>> 224 = 0xd677b46e#256) (amount : sp.publicAmount ≠ 0)
      (named : o.frameDataLoad i 548 = some recipient.word) (nonzero : recipient.word ≠ 0) (ctx : sp.ctx = recipient.word)

/-- The nonce keys are the tuple's nullifiers, and the reference names this pool and its root. -/
structure Bindings (d : Deployment) (o : Opcodes) (sp : Spend) : Prop where
  lo : o.nonceKey 0 = some sp.lo
  hi : o.nonceKey 1 = some sp.hi
  source : o.recentRootRef 0 0 = some d.sourceId
  root : o.recentRootRef 2 0 = some sp.root

/-- The tuple passes the pool's checks and the verifier accepts it. -/
structure Proven (d : Deployment) (sp : Spend) : Prop where
  nf1 : sp.nf1 ≠ 0
  nf2 : sp.nf2 ≠ 0
  valid : Valid d.domain sp
  verified : d.verify sp.verifierCall = true

/-- All that frame 0 asks of the frame that settles. -/
structure Approves (d : Deployment) (o : Opcodes) (i : Nat) (sp : Spend) : Prop where
  enveloped : Enveloped d.self.word o i
  loaded : SpendIn o i sp
  call : SettleCall o i sp
  bindings : Bindings d o sp
  proven : Proven d sp

/-- The scope frame 0 ends with. -/
inductive Granted (d : Deployment) (o : Opcodes) : Word → Prop
  | selfPaid {sp cost} (shape : SelfPaid o) (approves : Approves d o 1 sp) (charged : o.txParam 0x06 = some cost)
      (covered : cost ≤ sp.fee) : Granted d o 3
  | sponsored {sp} (shape : Sponsored o) (approves : Approves d o 2 sp) : Granted d o 2

theorem opcode_returns (value : Option Word) : Returns (opcode value : Program ω Word) fun w => value = some w := by
  cases value with
  | none => exact (Returns.revert []).congr fun w => by simp
  | some v => exact (Returns.pure v).congr fun w => by simp [eq_comm]

theorem failIf_returns (selector condition : Word) :
    Returns (failIf selector condition : Program ω Unit) fun _ => ¬ condition ≠ 0 := by
  rw [failIf_eq]
  exact .revertIf _ _

theorem requireEq_returns (e : Error) (value : Option Word) (expected : Word) :
    Returns (requireEq e value expected : Program ω Unit) fun _ => value = some expected :=
  ((opcode_returns value).bind fun _ => failIf_returns _ _).congr fun _ => by
    simp only [Op.iszero_eq_ne_zero, ne_eq, not_not]
    exact ⟨fun ⟨w, loaded, same⟩ => same ▸ loaded, fun loaded => ⟨expected, loaded, rfl⟩⟩

theorem requireZero_returns (e : Error) (value : Option Word) :
    Returns (requireZero e value : Program ω Unit) fun _ => value = some 0 :=
  ((opcode_returns value).bind fun _ => failIf_returns _ _).congr fun _ => by
    simp only [ne_eq, not_not]
    exact ⟨fun ⟨w, loaded, same⟩ => same ▸ loaded, fun loaded => ⟨0, loaded, rfl⟩⟩

theorem requireBelow_returns (e : Error) (value bound : Word) :
    Returns (requireBelow e value bound : Program ω Unit) fun _ => value < bound :=
  (failIf_returns _ _).congr fun _ => by rw [Op.iszero_lt_ne_zero, BitVec.not_le]

theorem demandEq_returns (value : Option Word) (expected : Word) :
    Returns (demandEq value expected : Program ω Unit) fun _ => value = some expected :=
  ((opcode_returns value).bind fun _ => .revertIf _ _).congr fun _ => by
    simp only [Op.iszero_eq_ne_zero, ne_eq, not_not]
    exact ⟨fun ⟨w, loaded, same⟩ => same ▸ loaded, fun loaded => ⟨expected, loaded, rfl⟩⟩

theorem demandZero_returns (value : Option Word) : Returns (demandZero value : Program ω Unit) fun _ => value = some 0 :=
  ((opcode_returns value).bind fun _ => .revertIf _ _).congr fun _ => by
    simp only [ne_eq, not_not]
    exact ⟨fun ⟨w, loaded, same⟩ => same ▸ loaded, fun loaded => ⟨0, loaded, rfl⟩⟩

theorem sourceId_run (env : Env) (m : Machine ω) :
    sourceId env m = .ok (env.keccak (encodeWord env.address.word ++ encodeWord 0),
      { m with memory := m.memory.storeWords 0 [env.address.word, 0] }) := by
  have digest : (m.memory.storeWords 0 [env.address.word, 0]).load 0x00 0x40 =
      encodeWord env.address.word ++ encodeWord 0 := by
    rw [Memory.load_store_words _ _ _ (by rfl)]
    simp
  exact congrArg (fun bytes => Except.ok (env.keccak bytes, _)) digest

theorem domainFor_run (env : Env) (chainId source : Word) (m : Machine ω) :
    domainFor env chainId source m =
      .ok (env.keccak (encodeWord domainTag ++ encodeWord chainId ++ encodeWord source) % fieldP,
        { m with memory := m.memory.storeWords 0 [domainTag, chainId, source] }) := by
  have digest : (m.memory.storeWords 0 [domainTag, chainId, source]).load 0x00 0x60 =
      encodeWord domainTag ++ encodeWord chainId ++ encodeWord source := by
    rw [Memory.load_store_words _ _ _ (by rfl)]
    simp
  exact congrArg (fun bytes => Except.ok (env.keccak bytes % fieldP, _)) digest

/-- An environment in which code computes the deployment's identity. -/
structure Hosted (d : Deployment) (env : Env) : Prop where
  address : env.address = d.self
  chainId : env.chainId = d.chainId
  keccak : env.keccak = d.keccak

theorem sourceId_returns {d : Deployment} {env : Env} (hosted : Hosted d env) :
    Returns (sourceId env : Program ω Word) fun w => w = d.sourceId := by
  refine ⟨fun m w => ?_⟩
  rw [sourceId_run, hosted.address, hosted.keccak]
  constructor
  · rintro ⟨_, returned⟩
    cases returned
    rfl
  · rintro rfl
    exact ⟨_, rfl⟩

theorem domainVal_run {d : Deployment} {env : Env} (hosted : Hosted d env) (m : Machine ω) :
    ∃ memory, domainVal env m = .ok (d.domain, { m with memory }) := by
  have source : d.keccak (encodeWord d.self.word ++ encodeWord 0) = d.sourceId := rfl
  have domain : d.keccak (encodeWord domainTag ++ encodeWord d.chainId ++ encodeWord d.sourceId) % fieldP = d.domain := rfl
  rw [domainVal, bind_ok (sourceId_run env m), domainFor_run, hosted.address, hosted.chainId, hosted.keccak, source, domain]
  exact ⟨_, rfl⟩

theorem domainVal_returns {d : Deployment} {env : Env} (hosted : Hosted d env) :
    Returns (domainVal env : Program ω Word) fun w => w = d.domain := by
  refine ⟨fun m w => ?_⟩
  obtain ⟨memory, ran⟩ := domainVal_run hosted m
  rw [ran]
  constructor
  · rintro ⟨_, returned⟩
    cases returned
    rfl
  · rintro rfl
    exact ⟨_, rfl⟩

variable (o : Opcodes) (i : Nat)

/-- The switch over the number of frames. -/
theorem shapeOf_returns (frames : Word) {rest : Nat × Bool → Program ω Word} {two three : Word → Prop}
    (selfPay : Returns (rest (1, true)) two) (sponsored : Returns (rest (2, false)) three) :
    Returns (shapeOf frames >>= rest) fun scope => frames = 2 ∧ two scope ∨ frames = 3 ∧ three scope := by
  rw [shapeOf, fail_eq]
  by_cases pair : frames = 2
  · rw [if_pos pair]
    exact selfPay.congr fun scope => by simp [pair]
  · rw [if_neg pair]
    by_cases triple : frames = 3
    · rw [if_pos triple]
      exact sponsored.congr fun scope => by simp [triple]
    · rw [if_neg triple]
      exact (Returns.revert _).congr fun scope =>
        ⟨False.elim, fun either => either.elim (fun two => pair two.1) fun three => triple three.1⟩

/-- The settle frame's call, read word by word. -/
def SettleWords : Prop :=
  ∃ len, o.frameParam i 0x04 = some len ∧ ∃ head, o.frameDataLoad i 0 = some head ∧
    if len = 548 then head >>> 224 = 0xb9947fa0#256 ∧ o.frameDataLoad i 196 = some 0 ∧ o.frameDataLoad i 260 = some 0
    else if len = 580 then head >>> 224 = 0xd677b46e#256 ∧ ∃ pub, o.frameDataLoad i 196 = some pub ∧ pub ≠ 0 ∧
      ∃ r, o.frameDataLoad i 548 = some r ∧ (r ≠ 0 ∧ Address.Clean r) ∧ o.frameDataLoad i 260 = some r
    else False

theorem recipientWord_iff (r : Word) : ¬ Op.or (Op.iszero r) (r >>> 160) ≠ 0 ↔ r ≠ 0 ∧ Address.Clean r := by
  rw [Op.or_ne_zero, not_or, Op.iszero_ne_zero, not_not]
  rfl

theorem selector_iff (selector expected : Word) : ¬ Op.iszero (Op.eq selector expected) ≠ 0 ↔ selector = expected := by
  rw [Op.iszero_eq_ne_zero, not_not]

theorem checkSettleCall_returns : Returns (PoolYul.checkSettleCall o i : Program ω Unit) fun _ => SettleWords o i := by
  rw [PoolYul.checkSettleCall, fail_eq]
  refine ((opcode_returns _).bind fun len => (opcode_returns _).bind fun head =>
    .ite ((failIf_returns _ _).guard <| (requireZero_returns ..).guard (requireZero_returns ..))
      (.ite ((failIf_returns _ _).guard <| (opcode_returns _).bind fun pub => (failIf_returns _ _).guard <|
        (opcode_returns _).bind fun r => (failIf_returns _ _).guard (requireEq_returns ..)) (.revert _))).congr fun _ => ?_
  simp only [selector_iff, recipientWord_iff]
  simp only [Op.iszero_ne_zero]
  rfl

theorem demandSettleCall_returns : Returns (SharedSender.checkSettleCall o : Program ω Unit) fun _ => SettleWords o 2 := by
  rw [SharedSender.checkSettleCall]
  refine ((opcode_returns _).bind fun len => (opcode_returns _).bind fun head =>
    .ite ((Returns.revertIf _ _).guard <| (demandZero_returns ..).guard (demandZero_returns ..))
      (.ite ((Returns.revertIf _ _).guard <| (opcode_returns _).bind fun pub => (Returns.revertIf _ _).guard <|
        (opcode_returns _).bind fun r => (Returns.revertIf _ _).guard (demandEq_returns ..)) (.revert _))).congr fun _ => ?_
  simp only [selector_iff, recipientWord_iff]
  simp only [Op.iszero_ne_zero]
  rfl

variable {o i}

theorem SpendIn.word {sp : Spend} (loaded : SpendIn o i sp) :
    o.frameDataLoad i 4 = some sp.root ∧ o.frameDataLoad i 36 = some sp.domain ∧ o.frameDataLoad i 68 = some sp.nf1 ∧
      o.frameDataLoad i 100 = some sp.nf2 ∧ o.frameDataLoad i 132 = some sp.outCm1 ∧
      o.frameDataLoad i 164 = some sp.outCm2 ∧ o.frameDataLoad i 196 = some sp.publicAmount ∧
      o.frameDataLoad i 228 = some sp.fee ∧ o.frameDataLoad i 260 = some sp.ctx := by
  obtain ⟨w, words, rfl⟩ := loaded
  exact ⟨words 0 (by decide), words 1 (by decide), words 2 (by decide), words 3 (by decide), words 4 (by decide),
    words 5 (by decide), words 6 (by decide), words 7 (by decide), words 8 (by decide)⟩

theorem settleWords_iff {sp : Spend} (loaded : SpendIn o i sp) : SettleWords o i ↔ SettleCall o i sp := by
  obtain ⟨-, -, -, -, -, -, amount, -, ctx⟩ := loaded.word
  rw [SettleWords, amount, ctx]
  constructor
  · rintro ⟨len, size, head, first, shape⟩
    by_cases transfer : len = 548
    · rw [if_pos transfer] at shape
      exact .transfer (transfer ▸ size) first shape.1 (Option.some.inj shape.2.1) (Option.some.inj shape.2.2)
    · rw [if_neg transfer] at shape
      by_cases withdraw : len = 580
      · rw [if_pos withdraw] at shape
        obtain ⟨selector, pub, same, positive, r, named, ⟨nonzero, clean⟩, bound⟩ := shape
        rw [← Address.word_ofWord clean] at named nonzero bound
        exact .withdraw (withdraw ▸ size) first selector (Option.some.inj same ▸ positive) named nonzero
          (Option.some.inj bound)
      · rw [if_neg withdraw] at shape
        exact shape.elim
  · rintro (⟨size, first, selector, zero, none⟩ | ⟨size, first, selector, positive, named, nonzero, same⟩)
    · exact ⟨548, size, _, first, by rw [if_pos rfl, zero, none]; exact ⟨selector, rfl, rfl⟩⟩
    · refine ⟨580, size, _, first, ?_⟩
      rw [if_neg (by decide), if_pos rfl, same]
      exact ⟨selector, _, rfl, positive, _, named, ⟨nonzero, Address.word_clean _⟩, rfl⟩

theorem SpendIn.unique {first second : Spend} (one : SpendIn o i first) (other : SpendIn o i second) : first = second := by
  obtain ⟨v, left, rfl⟩ := one
  obtain ⟨w, right, rfl⟩ := other
  exact Spend.ofWords_congr fun k inside => Option.some.inj ((left k inside).symm.trans (right k inside))

/-- The sorted nullifiers, as Yul code picks them. -/
theorem sorted_eq (sp : Spend) : (if Op.gt sp.nf1 sp.nf2 ≠ 0 then sp.nf2 else sp.nf1) = sp.lo ∧
    (if Op.gt sp.nf1 sp.nf2 ≠ 0 then sp.nf1 else sp.nf2) = sp.hi := by
  simp only [Op.gt_ne_zero, Spend.lo, Spend.hi]
  exact ⟨trivial, trivial⟩

/-- The nonce keys and the reference, read word by word. -/
def BindingWords (d : Deployment) (o : Opcodes) (i : Nat) : Prop :=
  ∃ nf1, o.frameDataLoad i 68 = some nf1 ∧ ∃ nf2, o.frameDataLoad i 100 = some nf2 ∧
    o.nonceKey 0 = some (if Op.gt nf1 nf2 ≠ 0 then nf2 else nf1) ∧
    o.nonceKey 1 = some (if Op.gt nf1 nf2 ≠ 0 then nf1 else nf2) ∧
    ∃ source, o.recentRootRef 0 0 = some source ∧ source = d.sourceId ∧
      ∃ refRoot, o.recentRootRef 2 0 = some refRoot ∧ ∃ root, o.frameDataLoad i 4 = some root ∧ refRoot = root

theorem checkBindings_returns {d : Deployment} {env : Env} (hosted : Hosted d env) :
    Returns (checkBindings env o i : Program ω Unit) fun _ => BindingWords d o i := by
  rw [checkBindings]
  refine ((opcode_returns _).bind fun _ => (opcode_returns _).bind fun _ => (requireEq_returns ..).guard <|
    (requireEq_returns ..).guard <| (opcode_returns _).bind fun source => (sourceId_returns hosted).value <|
    (failIf_returns _ _).guard <| (opcode_returns _).bind fun refRoot => (opcode_returns _).bind fun _ =>
    failIf_returns _ _).congr fun _ => ?_
  simp only [selector_iff]
  rfl

theorem bindingWords_iff {d : Deployment} {sp : Spend} (loaded : SpendIn o i sp) :
    BindingWords d o i ↔ Bindings d o sp := by
  obtain ⟨root, -, nf1, nf2, -⟩ := loaded.word
  rw [BindingWords, root, nf1, nf2]
  simp only [Option.some.injEq, exists_eq_left', sorted_eq]
  constructor
  · rintro ⟨lo, hi, source, named, rfl, refRoot, same, rfl⟩
    exact ⟨lo, hi, named, same⟩
  · intro bindings
    exact ⟨bindings.lo, bindings.hi, _, bindings.source, rfl, _, bindings.root, rfl⟩

/-- The payment part of the envelope's shape. -/
def PaymentWords (o : Opcodes) (selfPay : Bool) : Prop :=
  if selfPay then o.frameParam 0 0x03 = some 3 ∧ o.frameParam 0 0x01 = some 350000
  else o.frameParam 0 0x03 = some 2 ∧ o.frameParam 0 0x01 = some 300000 ∧ o.frameParam 1 0x02 = some 1 ∧
    o.frameParam 1 0x03 = some 1 ∧ o.frameParam 1 0x01 = some 100000 ∧ o.frameParam 1 0x08 = some 0

theorem checkPaymentShape_returns (selfPay : Bool) :
    Returns (checkPaymentShape o selfPay : Program ω Unit) fun _ => PaymentWords o selfPay := by
  cases selfPay with
  | true => exact (requireEq_returns ..).guard (requireEq_returns ..)
  | false =>
    exact (requireEq_returns ..).guard <| (requireEq_returns ..).guard <| (requireEq_returns ..).guard <|
      (requireEq_returns ..).guard <| (requireEq_returns ..).guard (requireZero_returns ..)

theorem checkFrames_returns {env : Env} (selfPay : Bool) (sender : o.txParam 0x02 = some env.address.word) :
    Returns (checkFrames env o i selfPay : Program ω Unit) fun _ =>
      Enveloped env.address.word o i ∧ PaymentWords o selfPay := by
  refine ((requireZero_returns ..).guard <| (requireEq_returns ..).guard <| (requireZero_returns ..).guard <|
    (requireEq_returns ..).guard <| (requireZero_returns ..).guard <| (requireEq_returns ..).guard <|
    (requireEq_returns ..).guard <| (requireEq_returns ..).guard <| (requireZero_returns ..).guard <|
    (requireZero_returns ..).guard <| (checkPaymentShape_returns selfPay).guard <| (requireEq_returns ..).guard <|
    (requireEq_returns ..).guard <| (requireZero_returns ..).guard <| (requireEq_returns ..).guard
    (requireZero_returns ..)).congr fun _ => ?_
  constructor
  · rintro ⟨index, signatures, blobs, keys, seq, refs, target, mode, data, value, payment, target', mode', flags', gas', value'⟩
    exact ⟨⟨sender, index, signatures, blobs, keys, seq, refs, target, mode, data, value, target', mode', flags', gas',
      value'⟩, payment⟩
  · rintro ⟨⟨-, index, signatures, blobs, keys, seq, refs, target, mode, data, value, target', mode', flags', gas',
      value'⟩, payment⟩
    exact ⟨index, signatures, blobs, keys, seq, refs, target, mode, data, value, payment, target', mode', flags', gas',
      value'⟩

/-- What a proof check of frame `i` establishes. -/
def ProofChecked (d : Deployment) (o : Opcodes) (i : Nat) : Prop := ∃ sp, SpendIn o i sp ∧ Proven d sp

/-- What frame 0 grants once it knows the shape. -/
def GrantedAs (d : Deployment) (o : Opcodes) (i : Nat) (selfPay : Bool) (scope : Word) : Prop :=
  (Enveloped d.self.word o i ∧ PaymentWords o selfPay) ∧ SettleWords o i ∧ BindingWords d o i ∧ ProofChecked d o i ∧
    if selfPay then ∃ fee, o.frameDataLoad i 228 = some fee ∧ ∃ cost, o.txParam 0x06 = some cost ∧ ¬ fee < cost ∧ scope = 3
    else scope = 2

theorem verifyFrameApprove_words {d : Deployment} {env : Env} (hosted : Hosted d env) {checkProof : Nat → Program ω Unit}
    (proof : ∀ i, Returns (checkProof i) fun _ => ProofChecked d o i) :
    Returns (PoolYul.verifyFrameApprove env o checkProof) fun scope =>
      o.txParam 0x02 = some d.self.word ∧ ∃ frames, o.txParam 0x09 = some frames ∧
        (frames = 2 ∧ GrantedAs d o 1 true scope ∨ frames = 3 ∧ GrantedAs d o 2 false scope) := by
  by_cases sender : o.txParam 0x02 = some d.self.word
  · rw [← hosted.address] at sender ⊢
    refine ((requireEq_returns ..).guard <| (opcode_returns _).bind fun frames => shapeOf_returns frames ?_ ?_)
    · refine ((checkFrames_returns true sender).guard <| (checkSettleCall_returns ..).guard <|
        (checkBindings_returns hosted).guard <| (proof 1).guard <| (opcode_returns _).bind fun fee =>
        (opcode_returns _).bind fun cost => (failIf_returns _ _).guard (.pure 3)).congr fun scope => ?_
      simp only [Op.lt_ne_zero, hosted.address]
      rfl
    · refine ((checkFrames_returns false sender).guard <| (checkSettleCall_returns ..).guard <|
        (checkBindings_returns hosted).guard <| (proof 2).guard (.pure 2)).congr fun scope => ?_
      rw [hosted.address]
      rfl
  · rw [← hosted.address] at sender ⊢
    refine ⟨fun m scope => ⟨?_, fun granted => absurd granted.1 sender⟩⟩
    rintro ⟨t, returned⟩
    obtain ⟨_, u, checked, -⟩ := bind_eq_ok.mp returned
    exact absurd (((requireEq_returns ..).iff m ()).mp ⟨u, checked⟩) sender

theorem approves_iff {d : Deployment} :
    (Enveloped d.self.word o i ∧ SettleWords o i ∧ BindingWords d o i ∧ ProofChecked d o i) ↔ ∃ sp, Approves d o i sp := by
  constructor
  · rintro ⟨enveloped, call, bindings, sp, loaded, proven⟩
    exact ⟨sp, enveloped, loaded, (settleWords_iff loaded).mp call, (bindingWords_iff loaded).mp bindings, proven⟩
  · rintro ⟨sp, approves⟩
    exact ⟨approves.enveloped, (settleWords_iff approves.loaded).mpr approves.call,
      (bindingWords_iff approves.loaded).mpr approves.bindings, sp, approves.loaded, approves.proven⟩

theorem granted_iff {d : Deployment} {scope : Word} :
    (o.txParam 0x02 = some d.self.word ∧ ∃ frames, o.txParam 0x09 = some frames ∧
      (frames = 2 ∧ GrantedAs d o 1 true scope ∨ frames = 3 ∧ GrantedAs d o 2 false scope)) ↔ Granted d o scope := by
  constructor
  · rintro ⟨-, frames, count, ⟨rfl, granted⟩ | ⟨rfl, granted⟩⟩
    · obtain ⟨⟨enveloped, flags, gas⟩, call, bindings, proof, fee, loaded, cost, charged, covered, rfl⟩ := granted
      obtain ⟨sp, approves⟩ := approves_iff.mp ⟨enveloped, call, bindings, proof⟩
      obtain ⟨-, -, -, -, -, -, -, paid, -⟩ := approves.loaded.word
      obtain rfl := Option.some.inj (paid.symm.trans loaded)
      exact .selfPaid ⟨count, flags, gas⟩ approves charged (BitVec.not_lt.mp covered)
    · obtain ⟨⟨enveloped, flags, gas, mode, flags', gas', value⟩, call, bindings, proof, rfl⟩ := granted
      obtain ⟨sp, approves⟩ := approves_iff.mp ⟨enveloped, call, bindings, proof⟩
      exact .sponsored ⟨count, flags, gas, mode, flags', gas', value⟩ approves
  · rintro (⟨shape, approves, charged, covered⟩ | ⟨shape, approves⟩)
    · obtain ⟨enveloped, call, bindings, proof⟩ := approves_iff.mpr ⟨_, approves⟩
      obtain ⟨-, -, -, -, -, -, -, paid, -⟩ := approves.loaded.word
      exact ⟨enveloped.sender, 2, shape.frames, .inl ⟨rfl, ⟨enveloped, shape.flags, shape.gas⟩, call, bindings, proof,
        _, paid, _, charged, BitVec.not_lt.mpr covered, rfl⟩⟩
    · obtain ⟨enveloped, call, bindings, proof⟩ := approves_iff.mpr ⟨_, approves⟩
      exact ⟨enveloped.sender, 3, shape.frames, .inr ⟨rfl, ⟨enveloped, shape.flags, shape.gas, shape.payMode,
        shape.payFlags, shape.payGas, shape.payValue⟩, call, bindings, proof, rfl⟩⟩

/-- Frame 0 approves exactly what the specification grants, whatever way the proof is checked. -/
theorem verifyFrameApprove_returns {d : Deployment} {env : Env} (hosted : Hosted d env) {checkProof : Nat → Program ω Unit}
    (proof : ∀ i, Returns (checkProof i) fun _ => ProofChecked d o i) :
    Returns (PoolYul.verifyFrameApprove env o checkProof) (Granted d o) :=
  (verifyFrameApprove_words hosted proof).congr fun _ => granted_iff

end ShieldedPool.Proofs
