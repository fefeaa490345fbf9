import ShieldedPool.Pool
import ShieldedPool.Proofs.Approval
import ShieldedPool.Proofs.Proxy

/-! The three ways frame 0 checks the proof of the settle frame: inline, by a call of the
pool to itself, and by a call from another contract. All establish the same thing. -/

namespace ShieldedPool.Proofs
open Evm Yul PoolYul Exec

variable {ω : Type}

theorem copyFrameWords_ok {o : Opcodes} {i count source target : Nat} {m t : Machine ω} :
    copyFrameWords o i count source target m = .ok ((), t) ↔
      ∃ w : Nat → Word, (∀ k, k < count → o.frameDataLoad i (source + 32 * k) = some (w k)) ∧
        t = { m with memory := m.memory.storeWords target ((List.range count).map w) } := by
  induction count generalizing source target m with
  | zero =>
    constructor
    · intro returned
      cases returned
      exact ⟨fun _ => 0, fun k inside => absurd inside (Nat.not_lt_zero k), rfl⟩
    · rintro ⟨w, -, rfl⟩
      rfl
  | succ count ih =>
    rw [copyFrameWords]
    cases first : o.frameDataLoad i source with
    | none =>
      constructor
      · intro returned
        cases returned
      · rintro ⟨w, words, -⟩
        exact absurd ((words 0 (by omega)).symm.trans first) (by simp)
    | some v =>
      change copyFrameWords o i count (source + 32) (target + 32) { m with memory := m.memory.storeWord target v } = _ ↔ _
      rw [ih]
      constructor
      · rintro ⟨w, words, rfl⟩
        refine ⟨fun k => Nat.casesOn (motive := fun _ => Word) k v w, fun k inside => ?_, ?_⟩
        · cases k with
          | zero => exact first
          | succ k => rw [← words k (by omega)]; congr 1; omega
        · rw [List.range_succ_eq_map, List.map_cons, List.map_map, Memory.storeWords]
          rfl
      · rintro ⟨w, words, rfl⟩
        refine ⟨fun k => w (k + 1), fun k inside => ?_, ?_⟩
        · rw [← words (k + 1) (by omega)]
          congr 1
          omega
        · obtain rfl : v = w 0 := Option.some.inj (first.symm.trans (words 0 (by omega)))
          rw [List.range_succ_eq_map, List.map_cons, List.map_map, Memory.storeWords]
          rfl

/-- A call whose answer is one truth value. -/
theorem callVerifier_ok {env : Env} {verifier : Word} {base : Nat} {m : Machine ω} {b : Bool}
    (answer : env.callee (Address.ofWord verifier) (m.memory.load base 0x224) = .ok (encodeWord (flag b))) :
    (∃ t, callVerifier env verifier base m = .ok ((), t)) ↔ b = true := by
  have stored : (m.memory.store 0 ((encodeWord (flag b)).take 0x20)).loadWord 0 = flag b := by
    rw [List.take_of_length_le (by simp), ← Memory.storeWord, Memory.loadWord_storeWord_same]
  rw [callVerifier, bind_ok (callPure_ok answer), failIf_eq, bind_ok (revertIf_neg (by decide) _ _), mload, Exec.read_bind, stored, failIf_eq,
    exists_congr fun t => revertIf_eq_ok]
  rw [selector_iff]
  cases b <;> simp [flag]

/-- The verifier call of a tuple whose proof words are already in memory. -/
def sendSignals (env : Env) (fromEnd : Nat) (nf1 nf2 oc1 oc2 root dom pub fee ctx : Word) : Program ω Unit := do
  storeSignals 0x80 nf1 nf2 oc1 oc2 root dom pub fee ctx
  let ver ← immutableAt env fromEnd
  callVerifier env ver 0x80

/-- An environment whose verifier answers as the deployment says. -/
structure Verifying (d : Deployment) (env : Env) (fromEnd : Nat) : Prop where
  code : ∃ before after, env.code = before ++ encodeWord d.verifier.word ++ after ∧ fromEnd = 32 + after.length
  answer : ∀ sp : Spend, env.callee d.verifier sp.verifierCall = .ok (encodeWord (flag (d.verify sp.verifierCall)))

/-- The verifier's calldata, once its proof words and signals are in memory. -/
theorem load_signals (memory : Memory) (sp : Spend) (own : Word) :
    ((((memory.storeWord 0x80 (0xc542c93b#256 <<< 224)).storeWords 0x84 sp.proof).storeWords 0x184 sp.signals).storeWord 0 own).load
      0x80 0x224 = sp.verifierCall := by
  have whole : ((memory.storeWord 0x80 (0xc542c93b#256 <<< 224)).storeWords 0x84 sp.proof).storeWords 0x184 sp.signals =
      (memory.storeWord 0x80 (0xc542c93b#256 <<< 224)).storeWords 0x84 (sp.proof ++ sp.signals) := by
    rw [Memory.storeWords_append]
    rfl
  rw [Memory.load_storeWord_other _ _ _ (by decide), whole,
    Memory.load_call memory 0x80 _ (sp.proof ++ sp.signals) (by simp [Spend.proof, Spend.signals])]
  rfl

theorem sendSignals_ok {d : Deployment} {env : Env} {fromEnd : Nat} (verifying : Verifying d env fromEnd) (sp : Spend)
    {m : Machine ω} {memory : Memory}
    (laid : m.memory = (memory.storeWord 0x80 (0xc542c93b#256 <<< 224)).storeWords 0x84 sp.proof) :
    (∃ t, sendSignals env fromEnd sp.nf1 sp.nf2 sp.outCm1 sp.outCm2 sp.root sp.domain sp.publicAmount sp.fee sp.ctx m =
      .ok ((), t)) ↔ d.verify sp.verifierCall = true := by
  obtain ⟨before, after, code, place⟩ := verifying.code
  have signals : storeSignals 0x80 sp.nf1 sp.nf2 sp.outCm1 sp.outCm2 sp.root sp.domain sp.publicAmount sp.fee sp.ctx m =
      .ok ((), { m with memory := m.memory.storeWords 0x184 sp.signals }) := rfl
  have data : ((m.memory.storeWords 0x184 sp.signals).storeWord 0 d.verifier.word).load 0x80 0x224 = sp.verifierCall := by
    rw [laid]
    exact load_signals memory sp _
  rw [sendSignals, bind_ok signals, bind_ok (immutableAt_run code place _)]
  apply callVerifier_ok
  rw [Address.ofWord_word]
  exact (congrArg (env.callee d.verifier) data).trans (verifying.answer sp)

theorem checkRanges_returns (root nf1 nf2 oc1 oc2 dom ctx pub fee : Word) :
    Returns (checkRanges root nf1 nf2 oc1 oc2 dom ctx pub fee : Program ω Unit) fun _ =>
      (root < fieldP ∧ nf1 < fieldP ∧ nf2 < fieldP ∧ oc1 < fieldP ∧ oc2 < fieldP ∧ dom < fieldP ∧ ctx < fieldP) ∧
        pub < maxValue ∧ fee < maxValue :=
  ((requireBelow_returns ..).guard <| (requireBelow_returns ..).guard <| (requireBelow_returns ..).guard <|
    (requireBelow_returns ..).guard <| (requireBelow_returns ..).guard <| (requireBelow_returns ..).guard <|
    (requireBelow_returns ..).guard <| (requireBelow_returns ..).guard <| requireBelow_returns ..).congr fun _ => by
    simp only [and_assoc]

/-- A tuple from its nine signals and its proof words. -/
def tupleOf (root dom nf1 nf2 oc1 oc2 pub fee ctx : Word) (w : Nat → Word) : Spend :=
  Spend.ofWords fun k => match k with
    | 0 => root | 1 => dom | 2 => nf1 | 3 => nf2 | 4 => oc1 | 5 => oc2 | 6 => pub | 7 => fee | 8 => ctx
    | k + 9 => w k

theorem sendProof_returns {d : Deployment} {env : Env} {fromEnd : Nat} (verifying : Verifying d env fromEnd) (o : Opcodes) (i : Nat)
    (root dom nf1 nf2 oc1 oc2 pub fee ctx : Word) :
    Returns (do
      mstore 0x80 (0xc542c93b#256 <<< 224)
      copyFrameWords o i 8 292 (0x80 + 0x04)
      sendSignals env fromEnd nf1 nf2 oc1 oc2 root dom pub fee ctx : Program ω Unit) fun _ =>
      ∃ w : Nat → Word, (∀ k, k < 8 → o.frameDataLoad i (292 + 32 * k) = some (w k)) ∧
        d.verify (tupleOf root dom nf1 nf2 oc1 oc2 pub fee ctx w).verifierCall = true := by
  refine ⟨fun m _ => ?_⟩
  have sent (w : Nat → Word) := sendSignals_ok verifying (tupleOf root dom nf1 nf2 oc1 oc2 pub fee ctx w)
    (m := { m with memory := (m.memory.storeWord 0x80 (0xc542c93b#256 <<< 224)).storeWords 0x84 ((List.range 8).map w) }) rfl
  constructor
  · rintro ⟨t, returned⟩
    obtain ⟨_, mid, copied, rest⟩ := bind_eq_ok.mp returned
    obtain ⟨_, after, words, last⟩ := bind_eq_ok.mp rest
    cases copied
    obtain ⟨w, loaded, rfl⟩ := copyFrameWords_ok.mp words
    exact ⟨w, loaded, (sent w).mp ⟨t, last⟩⟩
  · rintro ⟨w, loaded, verified⟩
    obtain ⟨t, last⟩ := (sent w).mpr verified
    exact ⟨t, bind_eq_ok.mpr ⟨(), _, rfl, bind_eq_ok.mpr ⟨(), _, copyFrameWords_ok.mpr ⟨w, loaded, rfl⟩, last⟩⟩⟩

/-- Reading a tuple word by word. -/
theorem proofChecked_iff {d : Deployment} {o : Opcodes} {i : Nat} :
    (∃ root, o.frameDataLoad i 4 = some root ∧ ∃ dom, o.frameDataLoad i 36 = some dom ∧
      ∃ nf1, o.frameDataLoad i 68 = some nf1 ∧ ∃ nf2, o.frameDataLoad i 100 = some nf2 ∧
      ∃ oc1, o.frameDataLoad i 132 = some oc1 ∧ ∃ oc2, o.frameDataLoad i 164 = some oc2 ∧
      ∃ pub, o.frameDataLoad i 196 = some pub ∧ ∃ fee, o.frameDataLoad i 228 = some fee ∧
      ∃ ctx, o.frameDataLoad i 260 = some ctx ∧ nf1 ≠ 0 ∧ nf2 ≠ 0 ∧ dom = d.domain ∧
        ((root < fieldP ∧ nf1 < fieldP ∧ nf2 < fieldP ∧ oc1 < fieldP ∧ oc2 < fieldP ∧ dom < fieldP ∧ ctx < fieldP) ∧
          pub < maxValue ∧ fee < maxValue) ∧
        ∃ w : Nat → Word, (∀ k, k < 8 → o.frameDataLoad i (292 + 32 * k) = some (w k)) ∧
          d.verify (tupleOf root dom nf1 nf2 oc1 oc2 pub fee ctx w).verifierCall = true) ↔ ProofChecked d o i := by
  constructor
  · rintro ⟨root, h0, dom, h1, nf1, h2, nf2, h3, oc1, h4, oc2, h5, pub, h6, fee, h7, ctx, h8, first, second, domain,
      ⟨canonical, amount, fees⟩, w, proof, verified⟩
    refine ⟨tupleOf root dom nf1 nf2 oc1 oc2 pub fee ctx w, ⟨_, fun k inside => ?_, rfl⟩, first, second,
      ⟨domain, canonical, amount, fees⟩, verified⟩
    rcases k with _ | _ | _ | _ | _ | _ | _ | _ | _ | k
    · exact h0
    · exact h1
    · exact h2
    · exact h3
    · exact h4
    · exact h5
    · exact h6
    · exact h7
    · exact h8
    · rw [← proof k (by omega)]
      congr 1
      omega
  · rintro ⟨sp, loaded, proven⟩
    obtain ⟨root, dom, nf1, nf2, oc1, oc2, pub, fee, ctx⟩ := loaded.word
    obtain ⟨w, words, rfl⟩ := loaded
    refine ⟨_, root, _, dom, _, nf1, _, nf2, _, oc1, _, oc2, _, pub, _, fee, _, ctx, proven.nf1, proven.nf2,
      proven.valid.domain, ⟨proven.valid.canonical, proven.valid.publicAmount, proven.valid.fee⟩, fun k => w (9 + k),
      fun k inside => ?_, proven.verified⟩
    rw [← words (9 + k) (by omega)]
    congr 1
    omega

theorem verifyFrameProof_returns {d : Deployment} {image : Dispatcher.Image} {c : Call} {o : Opcodes} (i : Nat) :
    Returns (Dispatcher.verifyFrameProof (Dispatcher.environment d image c) o i : Program ω Unit) fun _ => ProofChecked d o i := by
  have hosted : Hosted d (Dispatcher.environment d image c) := ⟨rfl, rfl, rfl⟩
  have verifying : Verifying d (Dispatcher.environment d image c) 32 :=
    ⟨⟨image.runtime ++ encodeWord image.impl.word, [], (List.append_nil _).symm, rfl⟩, fun sp => if_pos rfl⟩
  refine ((opcode_returns _).bind fun root => (opcode_returns _).bind fun dom => (opcode_returns _).bind fun nf1 =>
    (opcode_returns _).bind fun nf2 => (opcode_returns _).bind fun oc1 => (opcode_returns _).bind fun oc2 =>
    (opcode_returns _).bind fun pub => (opcode_returns _).bind fun fee => (opcode_returns _).bind fun ctx =>
    (failIf_returns _ _).guard <| (failIf_returns _ _).guard <| (domainVal_returns hosted).value <|
    (failIf_returns _ _).guard <| (checkRanges_returns ..).guard <|
    sendProof_returns verifying o i root dom nf1 nf2 oc1 oc2 pub fee ctx).congr fun _ => ?_
  simp only [selector_iff]
  simp only [Op.iszero_ne_zero]
  exact proofChecked_iff

/-- The dispatcher's frame 0. -/
theorem dispatcher_authorize_ok {d : Deployment} {image : Dispatcher.Image} {c : Call} {o : Opcodes} {scope : Word} :
    Dispatcher.authorize d image c o = .ok scope ↔ Granted d o scope := by
  have hosted : Hosted d (Dispatcher.environment d image c) := ⟨rfl, rfl, rfl⟩
  rw [← (verifyFrameApprove_returns hosted verifyFrameProof_returns).iff (Machine.start ()) scope, Dispatcher.authorize,
    Dispatcher.verifyFrameApprove]
  cases PoolYul.verifyFrameApprove (Dispatcher.environment d image c) o
    (Dispatcher.verifyFrameProof (Dispatcher.environment d image c) o) (Machine.start ()) with
  | error data => simp
  | ok pair => simp [Prod.ext_iff]

/-- The call `verifyProofOnly` with a tuple's seventeen words. -/
def proofCall (w : Nat → Word) : Bytes := selectorBytes 0x8cc8fe8d#256 ++ encodeWords ((List.range 17).map w)

theorem length_proofCall (w : Nat → Word) : (proofCall w).length = 548 := by simp [proofCall]

theorem selector_proofCall (w : Nat → Word) : wordAt (proofCall w) 0 >>> 224 = 0x8cc8fe8d#256 :=
  selector_selectorBytes _ (by decide) _

theorem decode_proofCall (w : Nat → Word) : Spend.decode (proofCall w) 4 = Spend.ofWords w := by
  have word (k : Nat) (inside : k < 17) : wordAt (proofCall w) (4 + 32 * k) = w k := by
    have read := wordAt_encodeWords ((List.range 17).map w) k (by simpa using inside) []
    rw [List.append_nil] at read
    rw [proofCall, wordAt_selectorBytes, read]
    simp
  simp only [Spend.decode, Spend.ofWords, word _ (show 0 < 17 by decide), word _ (show 1 < 17 by decide),
    word _ (show 2 < 17 by decide), word _ (show 3 < 17 by decide), word _ (show 4 < 17 by decide),
    word _ (show 5 < 17 by decide), word _ (show 6 < 17 by decide), word _ (show 7 < 17 by decide),
    word _ (show 8 < 17 by decide), word _ (show 9 < 17 by decide), word _ (show 10 < 17 by decide),
    word _ (show 11 < 17 by decide), word _ (show 12 < 17 by decide), word _ (show 13 < 17 by decide),
    word _ (show 14 < 17 by decide), word _ (show 15 < 17 by decide), word _ (show 16 < 17 by decide)]

theorem proven_iff {d : Deployment} {sp : Spend} :
    Proven d sp ↔ sp.nf1 ≠ 0 ∧ sp.nf2 ≠ 0 ∧ Valid d.domain sp ∧ d.verify sp.verifierCall = true :=
  ⟨fun proven => ⟨proven.nf1, proven.nf2, proven.valid, proven.verified⟩,
    fun ⟨nf1, nf2, valid, verified⟩ => ⟨nf1, nf2, valid, verified⟩⟩

/-- The Solidity code answers it by the same checks. -/
theorem logic_proofCall (d : Deployment) (c : Call) (w : Nat → Word) (s : State) :
    (∃ reply t, Logic.call d { c with caller := d.self, value := 0, data := proofCall w } s = .ok (reply, t)) ↔
      Proven d (Spend.ofWords w) := by
  rw [proven_iff, ← decode_proofCall w]
  constructor
  · rintro ⟨reply, t, returned⟩
    obtain ⟨m, ⟨-, selects⟩, -, -, ran⟩ := (dispatch_ok d _).mp returned
    obtain rfl : m = .verifyProofOnly := selector_injective (selects.symm.trans (selector_proofCall w))
    obtain ⟨_, mid, checked, -⟩ := bind_eq_ok.mp ran
    obtain ⟨nf1, nf2, valid, verified, -⟩ := (verifyProofOnly_ok d).mp checked
    exact ⟨nf1, nf2, valid, verified⟩
  · rintro ⟨nf1, nf2, valid, verified⟩
    refine ⟨.returned [], s, (dispatch_ok d _).mpr ⟨.verifyProofOnly, ⟨?_, selector_proofCall w⟩, fun _ => rfl, ?_, ?_⟩⟩
    · exact (show 4 ≤ 548 by decide).trans_eq (length_proofCall w).symm
    · exact (length_proofCall w).ge
    · exact bind_ok ((verifyProofOnly_ok d).mpr ⟨nf1, nf2, valid, verified, rfl⟩)

theorem load_proofCall (memory : Memory) (base : Nat) (w : Nat → Word) :
    ((memory.storeWord base (0x8cc8fe8d#256 <<< 224)).storeWords (base + 4) ((List.range 17).map w)).load base 548 =
      proofCall w :=
  Memory.load_call memory base _ _ (by simp)

/-- A proof check that copies the tuple into a call of `verifyProofOnly`. -/
theorem relayedProof_returns {d : Deployment} {o : Opcodes} {i base : Nat} {check : Program ω α} {result : α → Prop}
    (checked : ∀ (m : Machine ω) (w : Nat → Word) (a : α), m.memory.load base 548 = proofCall w →
      ((∃ t, check m = .ok (a, t)) ↔ Proven d (Spend.ofWords w) ∧ result a)) :
    Returns (do
      mstore base (0x8cc8fe8d#256 <<< 224)
      copyFrameWords o i 17 4 (base + 4)
      check : Program ω α) fun a => ProofChecked d o i ∧ result a := by
  refine ⟨fun m a => ?_⟩
  have sent (w : Nat → Word) := checked { m with
    memory := (m.memory.storeWord base (0x8cc8fe8d#256 <<< 224)).storeWords (base + 4) ((List.range 17).map w) } w a
    (load_proofCall m.memory base w)
  constructor
  · rintro ⟨t, returned⟩
    obtain ⟨_, mid, copied, rest⟩ := bind_eq_ok.mp returned
    obtain ⟨_, after, words, last⟩ := bind_eq_ok.mp rest
    cases copied
    obtain ⟨w, loaded, rfl⟩ := copyFrameWords_ok.mp words
    obtain ⟨proven, ends⟩ := (sent w).mp ⟨t, last⟩
    exact ⟨⟨_, ⟨w, loaded, rfl⟩, proven⟩, ends⟩
  · rintro ⟨⟨_, ⟨w, loaded, rfl⟩, proven⟩, ends⟩
    obtain ⟨t, last⟩ := (sent w).mpr ⟨proven, ends⟩
    exact ⟨t, bind_eq_ok.mpr ⟨(), _, rfl, bind_eq_ok.mpr ⟨(), _, copyFrameWords_ok.mpr ⟨w, loaded, rfl⟩, last⟩⟩⟩

namespace Monolith
open ShieldedPool.Monolith

variable {d : Deployment} {env : Env}

theorem calldataload_value (offset : Nat) {β : Type} {rest : Word → Program ω β} {result : β → Prop}
    (after : Returns (rest (wordAt env.data offset)) result) : Returns (calldataload env offset >>= rest) result := after

theorem validateSpend_returns (hosted : Hosted d env) (base : Nat) :
    Returns (Monolith.validateSpend env base) fun _ => Valid d.domain (Spend.decode env.data base) := by
  refine (calldataload_value _ <| calldataload_value _ <| calldataload_value _ <| calldataload_value _ <|
    calldataload_value _ <| calldataload_value _ <| calldataload_value _ <| calldataload_value _ <| calldataload_value _ <|
    (domainVal_returns hosted).value <| (failIf_returns _ _).guard (checkRanges_returns ..)).congr fun _ => ?_
  rw [selector_iff]
  exact ⟨fun ⟨domain, canonical, amount, fee⟩ => ⟨domain, canonical, amount, fee⟩,
    fun valid => ⟨valid.domain, valid.canonical, valid.publicAmount, valid.fee⟩⟩

/-- The verifier call on a tuple copied from call data. -/
theorem sendCopy_returns (verifying : Verifying d env 64) (base : Nat) :
    Returns (do
      mstore 0x80 (0xc542c93b#256 <<< 224)
      copy (0x80 + 0x04) (slice env.data (base + 288) 256)
      sendSignals env 64 (Spend.decode env.data base).nf1 (Spend.decode env.data base).nf2
        (Spend.decode env.data base).outCm1 (Spend.decode env.data base).outCm2 (Spend.decode env.data base).root
        (Spend.decode env.data base).domain (Spend.decode env.data base).publicAmount (Spend.decode env.data base).fee
        (Spend.decode env.data base).ctx : Program World Unit) fun _ =>
      d.verify (Spend.decode env.data base).verifierCall = true := by
  refine ⟨fun m _ => ?_⟩
  have words : slice env.data (base + 288) 256 = encodeWords (Spend.decode env.data base).proof := by
    rw [show 256 = 32 * 8 from rfl, slice_eq_encodeWords]
    rfl
  have laid : (m.memory.storeWord 0x80 (0xc542c93b#256 <<< 224)).store 0x84 (slice env.data (base + 288) 256) =
      (m.memory.storeWord 0x80 (0xc542c93b#256 <<< 224)).storeWords 0x84 (Spend.decode env.data base).proof := by
    rw [words, Memory.storeWords_eq_store]
  have sent := sendSignals_ok verifying (Spend.decode env.data base) (m := { m with
    memory := (m.memory.storeWord 0x80 (0xc542c93b#256 <<< 224)).store 0x84 (slice env.data (base + 288) 256) }) laid
  rw [mstore, update_bind, copy, update_bind]
  exact sent

theorem verifySpend_returns (hosted : Hosted d env) (verifying : Verifying d env 64) (base : Nat) :
    Returns (Monolith.verifySpend env base) fun _ =>
      Valid d.domain (Spend.decode env.data base) ∧ d.verify (Spend.decode env.data base).verifierCall = true :=
  (validateSpend_returns hosted base).guard <| calldataload_value _ <| calldataload_value _ <| calldataload_value _ <|
    calldataload_value _ <| calldataload_value _ <| calldataload_value _ <| calldataload_value _ <| calldataload_value _ <|
    calldataload_value _ <| sendCopy_returns verifying base

/-- The length check of a call that is known to hold a selector. -/
theorem needArgs_returns {count : Word} (selector : 4 ≤ env.data.length) (size : env.data.length < 2 ^ 256) :
    Returns (needArgs env count) fun _ => 4 + count.toNat ≤ env.data.length := by
  refine (Returns.revertIf _ _).congr fun _ => ?_
  have length : (BitVec.ofNat 256 env.data.length - 4).toNat = env.data.length - 4 := by
    have four : (4#256).toNat = 4 := rfl
    rw [BitVec.toNat_sub, BitVec.toNat_ofNat, Nat.mod_eq_of_lt size]
    change (2 ^ 256 - 4 + env.data.length) % 2 ^ 256 = env.data.length - 4
    omega
  rw [Op.lt_ne_zero, BitVec.not_lt, BitVec.le_def, length]
  omega

theorem verifyProofOnly_returns (hosted : Hosted d env) (verifying : Verifying d env 64) {w : Nat → Word}
    (data : env.data = proofCall w) :
    Returns (Monolith.verifyProofOnly env) fun reply => Proven d (Spend.ofWords w) ∧ reply = .returned [] := by
  have length : env.data.length = 548 := by rw [data, length_proofCall]
  refine ((needArgs_returns (by omega) (by omega)).guard <| calldataload_value _ <|
    (failIf_returns _ _).guard <| calldataload_value _ <| (failIf_returns _ _).guard <|
    (verifySpend_returns hosted verifying 4).guard (.pure _)).congr fun reply => ?_
  rw [Op.iszero_ne_zero, Op.iszero_ne_zero, ← decode_proofCall w, proven_iff, ← data, length]
  constructor
  · rintro ⟨-, nf1, nf2, ⟨valid, verified⟩, rfl⟩
    exact ⟨⟨nf1, nf2, valid, verified⟩, rfl⟩
  · rintro ⟨⟨nf1, nf2, valid, verified⟩, rfl⟩
    exact ⟨by decide, nf1, nf2, ⟨valid, verified⟩, rfl⟩

theorem dispatch_proofCall (hosted : Hosted d env) (verifying : Verifying d env 64) {w : Nat → Word}
    (data : env.data = proofCall w) (free : env.value = 0) (publishes : Bytes → Bool) :
    Returns (Monolith.dispatch env publishes) fun reply => Proven d (Spend.ofWords w) ∧ reply = .returned [] := by
  have selected : wordAt env.data 0 >>> 224 = 0x8cc8fe8d#256 := by rw [data, selector_proofCall]
  refine (calldataload_value _ <| (Returns.revertIf _ _).guard (r := fun reply =>
    Proven d (Spend.ofWords w) ∧ reply = .returned []) ?_).congr fun reply => ?_
  · rw [selected, if_neg (by decide), if_neg (by decide), if_neg (by decide), if_pos rfl]
    exact verifyProofOnly_returns hosted verifying data
  · simp [free]

theorem hosted_environment (image : Image) (c : Call) : Hosted d (environment d image c) := ⟨rfl, rfl, rfl⟩

theorem take_selectorBytes (selector : Word) (rest : Bytes) : (selectorBytes selector ++ rest).take 4 = selectorBytes selector :=
  List.take_left' (length_selectorBytes selector)

theorem verifying_environment (image : Image) (c : Call) : Verifying d (environment d image c) 64 where
  code := ⟨image.runtime ++ encodeWord image.poseidonT3.word ++ encodeWord image.poseidonT4.word, encodeWord d.probe.word,
    rfl, by simp⟩
  answer := by
    intro sp
    have selector : sp.verifierCall.take 4 = selectorBytes 0xc542c93b#256 := take_selectorBytes ..
    change externals d image c d.verifier sp.verifierCall = _
    rw [externals, if_neg, if_neg, if_pos ⟨rfl, selector⟩]
    · rw [selector]
      exact fun both => absurd both.2 (by decide)
    · rw [selector]
      exact fun both => absurd both.2 (by decide)

/-- The pool's call of itself. -/
theorem call_proofCall (image : Image) (c : Call) (w : Nat → Word) (world : World) :
    (∃ t, call d image { c with caller := d.self, value := 0, data := proofCall w } world = .ok (.returned [], t)) ∧
        Proven d (Spend.ofWords w) ∨
      (∃ data, call d image { c with caller := d.self, value := 0, data := proofCall w } world = .error data) ∧
        ¬ Proven d (Spend.ofWords w) := by
  have decided := (@dispatch_proofCall d (environment d image { c with caller := d.self, value := 0, data := proofCall w })
    (hosted_environment image _) (verifying_environment image _) w rfl rfl c.publishes).iff (Machine.start world)
  rw [call]
  cases ran : Monolith.dispatch (environment d image { c with caller := d.self, value := 0, data := proofCall w }) c.publishes
      (Machine.start world) with
  | ok pair =>
    obtain ⟨reply, t⟩ := pair
    obtain ⟨proven, rfl⟩ := (decided reply).mp ⟨t, ran⟩
    exact .inl ⟨⟨t.world, rfl⟩, proven⟩
  | error data =>
    refine .inr ⟨⟨data, rfl⟩, fun proven => ?_⟩
    obtain ⟨t, returned⟩ := (decided (.returned [])).mpr ⟨proven, rfl⟩
    rw [ran] at returned
    cases returned

theorem selfVerify_returns (image : Image) (c : Call) (o : Opcodes) (i : Nat) :
    Returns (selfVerify d image c o i) fun _ => ProofChecked d o i := by
  refine (@relayedProof_returns _ _ d o i 0x80 _ (fun _ => True) fun m w _ laid => ?_).congr fun _ => iff_of_eq (and_true _)
  rw [and_true]
  rcases call_proofCall (d := d) image c w m.world with ⟨⟨world, returned⟩, proven⟩ | ⟨⟨data, failed⟩, refuted⟩
  · have answer : staticcallSelf d image c 0x80 548 m = .ok (1, { m with returndata := [] }) := by
      rw [staticcallSelf, memoryRange, read_bind, laid]
      simp only [returned]
    rw [bind_ok answer, failIf_eq, revertIf_neg (by decide)]
    exact ⟨fun _ => proven, fun _ => ⟨_, rfl⟩⟩
  · have answer : staticcallSelf d image c 0x80 548 m = .ok (0, { m with returndata := data }) := by
      rw [staticcallSelf, memoryRange, read_bind, laid]
      simp only [failed]
    rw [bind_ok answer, failIf_eq, revertIf_pos (by decide)]
    refine ⟨?_, fun proven => absurd proven refuted⟩
    rintro ⟨_, returned⟩
    cases returned

/-- Frame 0 of the standalone Yul pool. -/
theorem authorize_ok {image : Image} {c : Call} {o : Opcodes} {world : World} {scope : Word} :
    authorize d image c o world = .ok scope ↔ Granted d o scope := by
  rw [← (verifyFrameApprove_returns (hosted_environment image c) (selfVerify_returns image c o)).iff (Machine.start world) scope,
    authorize, Monolith.verifyFrameApprove]
  cases PoolYul.verifyFrameApprove (environment d image c) o (selfVerify d image c o) (Machine.start world) with
  | error data => simp
  | ok pair => simp [Prod.ext_iff]

end Monolith

/-- The dispatcher pool as another contract calls it without value, its storage being `s`. -/
def poolCallee (d : Deployment) (image : Dispatcher.Image) (c : Call) (s : State) (target : Address) (data : Bytes) :
    Except Bytes Bytes :=
  if target = d.self then
    match Dispatcher.call d image { c with caller := d.self, value := 0, data } s with
    | .ok (.returned out, _) => .ok out
    | .ok (.payout _ _, _) => .error []
    | .error out => .error out
  else .error []

theorem poolCallee_proofCall {d : Deployment} {image : Dispatcher.Image} {c : Call} {s : State} {w : Nat → Word} :
    (∃ out, poolCallee d image c s d.self (proofCall w) = .ok out) ↔ Proven d (Spend.ofWords w) := by
  rw [← logic_proofCall d c w s, poolCallee, if_pos rfl, Dispatcher.call_eq]
  cases ran : Logic.call d { c with caller := d.self, value := 0, data := proofCall w } s with
  | error data => simp
  | ok pair =>
    obtain ⟨reply, t⟩ := pair
    cases reply with
    | returned out => simp
    | payout who amount =>
      obtain ⟨m, ⟨-, selects⟩, -, -, body⟩ := (dispatch_ok d _).mp ran
      obtain rfl : m = .verifyProofOnly := selector_injective (selects.symm.trans (selector_proofCall w))
      obtain ⟨_, mid, -, rest⟩ := bind_eq_ok.mp body
      cases rest

namespace SharedSender
open ShieldedPool.SharedSender

/-- The sender's environment: its pool is its own address, and calls reach the dispatcher there. -/
def poolEnvironment (d : Deployment) (image : Dispatcher.Image) (runtime : Bytes) (c : Call) (s : State) : Env :=
  environment d d.self runtime d.self.word c (poolCallee d image c s)

variable {d : Deployment} {image : Dispatcher.Image} {runtime : Bytes} {c : Call} {s : State}

theorem callPool_ok {m : Machine ω} {w : Nat → Word} {scope : Word} (laid : m.memory.load 0 548 = proofCall w) :
    (∃ t, (do
      let ok ← callPure (poolEnvironment d image runtime c s) d.self.word 0 548 0 0
      Exec.revertIf (Op.iszero ok ≠ 0) []
      return 2 : Program ω Word) m = .ok (scope, t)) ↔ Proven d (Spend.ofWords w) ∧ scope = 2 := by
  have target : (poolEnvironment d image runtime c s).callee (Address.ofWord d.self.word) (m.memory.load 0 548) =
      poolCallee d image c s d.self (proofCall w) := by
    rw [laid, Address.ofWord_word]
    rfl
  rw [← @poolCallee_proofCall d image c s w]
  cases answer : poolCallee d image c s d.self (proofCall w) with
  | ok out =>
    rw [answer] at target
    rw [bind_ok (callPure_ok target), bind_ok (revertIf_neg (by decide) _ _)]
    simp [eq_comm]
  | error out =>
    rw [answer] at target
    rw [bind_ok (callPure_error target), bind_error (revertIf_pos (by decide) _ _)]
    simp

end SharedSender

/-- The source identity of the pool named by a word, hashed around a read of the envelope. -/
theorem hashedPool_returns {d : Deployment} {env : Env} (hashes : env.keccak = d.keccak) {value : Option Word}
    {rest : Word → Word → Program ω α} {result : Word → Word → α → Prop}
    (after : ∀ source own, Returns (rest source own) (result source own)) :
    Returns (do
      mstore 0 d.self.word
      mstore 32 0
      let source ← opcode value
      let own ← keccak256 env 0 64
      rest source own) fun a => ∃ source, value = some source ∧ result source d.sourceId a := by
  refine ⟨fun m a => ?_⟩
  cases value with
  | none =>
    constructor
    · rintro ⟨t, returned⟩
      cases returned
    · rintro ⟨source, absent, -⟩
      cases absent
  | some source =>
    have digest : (m.memory.storeWords 0 [d.self.word, 0]).load 0 64 = encodeWord d.self.word ++ encodeWord 0 := by
      rw [Memory.load_store_words _ _ _ (by rfl)]
      simp
    have hashed : keccak256 env 0 64 { m with memory := m.memory.storeWords 0 [d.self.word, 0] } =
        .ok (d.sourceId, { m with memory := m.memory.storeWords 0 [d.self.word, 0] }) := by
      rw [keccak256, memoryRange, read_bind, digest, hashes]
      rfl
    rw [mstore, update_bind, mstore, update_bind]
    change (∃ t, (keccak256 env 0 64 >>= rest source) { m with memory := m.memory.storeWords 0 [d.self.word, 0] } =
      .ok (a, t)) ↔ _
    rw [bind_ok hashed, (after source d.sourceId).iff]
    simp

namespace SharedSender
open ShieldedPool.SharedSender

variable {d : Deployment} {image : Dispatcher.Image} {runtime : Bytes} {c : Call} {s : State}

theorem pool_returns :
    Returns (immutableAt (poolEnvironment d image runtime c s) 32 : Program ω Word) fun pool => pool = d.self.word := by
  refine ⟨fun m pool => ?_⟩
  rw [@immutableAt_run ω _ runtime [] _ 32 (List.append_nil _).symm rfl m]
  constructor
  · rintro ⟨t, returned⟩
    cases returned
    rfl
  · rintro rfl
    exact ⟨_, rfl⟩

theorem runtime_returns (o : Opcodes) :
    Returns (SharedSender.runtime (poolEnvironment d image runtime c s) o : Program ω Word) fun scope =>
      (Sponsored o ∧ ∃ sp, Approves d o 2 sp) ∧ scope = 2 := by
  refine (pool_returns.value <| (demandEq_returns ..).guard <| (demandEq_returns ..).guard <|
    (demandZero_returns ..).guard <| (demandEq_returns ..).guard <| (demandZero_returns ..).guard <|
    (demandEq_returns ..).guard <| (demandZero_returns ..).guard <| (demandEq_returns ..).guard <|
    (demandEq_returns ..).guard <| (demandEq_returns ..).guard <| (demandEq_returns ..).guard <|
    (demandZero_returns ..).guard <| (demandEq_returns ..).guard <| (demandZero_returns ..).guard <|
    (demandEq_returns ..).guard <| (demandEq_returns ..).guard <| (demandEq_returns ..).guard <|
    (demandZero_returns ..).guard <| (demandEq_returns ..).guard <| (demandEq_returns ..).guard <|
    (demandZero_returns ..).guard <| (demandEq_returns ..).guard <| (demandZero_returns ..).guard <|
    (demandSettleCall_returns o).guard <| (opcode_returns _).bind fun nf1 => (opcode_returns _).bind fun nf2 =>
    (demandEq_returns ..).guard <| (demandEq_returns ..).guard <| hashedPool_returns rfl fun source own =>
    (Returns.revertIf _ _).guard <| (opcode_returns _).bind fun refRoot => (opcode_returns _).bind fun root =>
    (Returns.revertIf _ _).guard <| relayedProof_returns fun m w scope laid => callPool_ok laid).congr fun scope => ?_
  simp only [selector_iff]
  constructor
  · rintro ⟨sender, frames, index, signatures, blobs, keys, seq, refs, target, mode, flags, data, gas, value, payMode, payFlags,
      payGas, payValue, target', mode', flags', gas', value', call, nf1, first, nf2, second, lo, hi, source, named, own,
      refRoot, anchored, root, loaded, same, proof, rfl⟩
    have bindings : BindingWords d o 2 :=
      ⟨nf1, first, nf2, second, lo, hi, source, named, own, refRoot, anchored, root, loaded, same⟩
    exact ⟨⟨⟨frames, flags, gas, payMode, payFlags, payGas, payValue⟩, approves_iff.mp
      ⟨⟨sender, index, signatures, blobs, keys, seq, refs, target, mode, data, value, target', mode', flags', gas', value'⟩,
        call, bindings, proof⟩⟩, rfl⟩
  · rintro ⟨⟨shape, approved⟩, rfl⟩
    obtain ⟨enveloped, call, ⟨nf1, first, nf2, second, lo, hi, source, named, own, refRoot, anchored, root, loaded, same⟩,
      proof⟩ := approves_iff.mpr approved
    exact ⟨enveloped.sender, shape.frames, enveloped.frameIndex, enveloped.signatures, enveloped.blobs, enveloped.keyCount,
      enveloped.nonceSeq, enveloped.refCount, enveloped.verifyTarget, enveloped.verifyMode, shape.flags, enveloped.verifyData,
      shape.gas, enveloped.verifyValue, shape.payMode, shape.payFlags, shape.payGas, shape.payValue, enveloped.settleTarget,
      enveloped.settleMode, enveloped.settleFlags, enveloped.settleGas, enveloped.settleValue, call, nf1, first, nf2, second,
      lo, hi, source, named, own, refRoot, anchored, root, loaded, same, proof, rfl⟩

theorem authorize_ok {o : Opcodes} {scope : Word} :
    authorize (poolEnvironment d image runtime c s) o = .ok scope ↔
      (Sponsored o ∧ ∃ sp, Approves d o 2 sp) ∧ scope = 2 := by
  rw [← (runtime_returns o).iff (Machine.start ()) scope, authorize]
  cases SharedSender.runtime (poolEnvironment d image runtime c s) o (Machine.start ()) with
  | error data => simp
  | ok pair => simp [Prod.ext_iff]

end SharedSender

/-- The three-frame grants are the ones without payment by the pool. -/
theorem granted_of_three {d : Deployment} {o : Opcodes} (frames : o.txParam 0x09 = some 3) (scope : Word) :
    Granted d o scope ↔ (Sponsored o ∧ ∃ sp, Approves d o 2 sp) ∧ scope = 2 := by
  constructor
  · rintro (⟨shape, approves, charged, covered⟩ | ⟨shape, approves⟩)
    · exact absurd (frames.symm.trans shape.frames) (by decide)
    · exact ⟨⟨shape, _, approves⟩, rfl⟩
  · rintro ⟨⟨shape, sp, approves⟩, rfl⟩
    exact .sponsored shape approves

/-- The pool pays only for two frames, in frame 0, when the tuple's fee covers the maximum cost. -/
theorem granted_payment {d : Deployment} {o : Opcodes} (granted : Granted d o 3) :
    o.txParam 0x09 = some 2 ∧ o.txParam 0x0A = some 0 ∧
      ∃ sp cost, SpendIn o 1 sp ∧ o.txParam 0x06 = some cost ∧ cost ≤ sp.fee := by
  generalize same : (3 : Word) = scope at granted
  cases granted with
  | selfPaid shape approves charged covered =>
    exact ⟨shape.frames, approves.enveloped.frameIndex, _, _, approves.loaded, charged, covered⟩
  | sponsored => exact absurd same (by decide)

theorem hegota_sourceId : Hegota.deployment.sourceId = Hegota.source := by decide +kernel

theorem hegota_domain : Hegota.deployment.domain = Hegota.transfer.domain := by
  rw [Deployment.domain, hegota_sourceId]
  decide +kernel

theorem hegota_spend : Spend.decode Hegota.settleFrame.data 4 = Hegota.transfer := by
  have decoded := Hegota.transfer.decode_words (selectorBytes Method.transfer.selector) []
  rwa [length_selectorBytes, List.append_nil] at decoded

theorem hegota_selector : wordAt Hegota.settleFrame.data 0 >>> 224 = Method.transfer.selector :=
  selector_selectorBytes _ (by decide) _

theorem hegota_length : Hegota.settleFrame.data.length = 548 := by
  have whole : Hegota.settleFrame.data = selectorBytes Method.transfer.selector ++ encodeWords Hegota.transfer.words := rfl
  rw [whole, List.length_append, length_selectorBytes, length_encodeWords]
  decide

theorem hegota_proven : Proven Hegota.deployment Hegota.transfer where
  nf1 := by decide
  nf2 := by decide
  valid := ⟨hegota_domain.symm, by decide, by decide, by decide⟩
  verified := by
    have accepts (data : Bytes) (same : data = Hegota.transfer.verifierCall) : Hegota.deployment.verify data = true :=
      decide_eq_true same
    exact accepts _ (Eq.refl _)

/-- The recorded transfer, settled by the last of a transaction's frames. -/
theorem hegota_approves {o : Opcodes} {i : Nat} (enveloped : Enveloped Hegota.deployment.self.word o i)
    (size : o.frameParam i 0x04 = some (BitVec.ofNat 256 Hegota.settleFrame.data.length))
    (data : ∀ offset, o.frameDataLoad i offset = some (wordAt Hegota.settleFrame.data offset))
    (keys : ∀ k, o.nonceKey k = Hegota.transferTx.nonceKeys[k]?) (refs : ∀ k, o.recentRootRef k = (Hegota.transferTx.opcodes 0 none).recentRootRef k) :
    Approves Hegota.deployment o i Hegota.transfer where
  enveloped := enveloped
  loaded := ⟨fun k => wordAt Hegota.settleFrame.data (4 + 32 * k), fun k _ => data _, hegota_spend.symm⟩
  call := by
    rw [hegota_length] at size
    exact .transfer size (data 0) hegota_selector rfl rfl
  bindings := by
    refine ⟨keys 0, keys 1, ?_, ?_⟩
    · rw [refs 0]
      exact congrArg some hegota_sourceId.symm
    · rw [refs 2]
      rfl
  proven := hegota_proven

theorem hegota_granted : Granted Hegota.deployment (Hegota.transferTx.opcodes 0 none) 3 := by
  refine .selfPaid ⟨rfl, rfl, rfl⟩ (hegota_approves ?_ rfl (fun _ => rfl) (fun _ => rfl) fun _ => rfl) rfl (by decide)
  exact ⟨rfl, rfl, rfl, rfl, rfl, rfl, rfl, rfl, rfl, rfl, rfl, rfl, rfl, rfl, rfl, rfl⟩

theorem hegota_granted_sponsored : Granted Hegota.deployment (Hegota.sponsoredTx.opcodes 0 none) 2 := by
  refine .sponsored ⟨rfl, rfl, rfl, rfl, rfl, rfl, rfl⟩ (hegota_approves ?_ rfl (fun _ => rfl) (fun _ => rfl) fun _ => rfl)
  exact ⟨rfl, rfl, rfl, rfl, rfl, rfl, rfl, rfl, rfl, rfl, rfl, rfl, rfl, rfl, rfl, rfl⟩

/-- The three frame-0 authorizers of one pool approve the same transactions with the same scope;
the pool pays only in frame 0 of two, when the tuple's fee covers the maximum cost. -/
theorem authorizers_agree (d : Deployment) (image : Dispatcher.Image) (monolith : ShieldedPool.Monolith.Image)
    (runtime : Bytes) (c : Call) (world : ShieldedPool.Monolith.World) (s : State) (o : Opcodes) :
    (∀ scope, Dispatcher.authorize d image c o = .ok scope ↔
      ShieldedPool.Monolith.authorize d monolith c o world = .ok scope) ∧
    (o.txParam 0x09 = some 3 → ∀ scope, Dispatcher.authorize d image c o = .ok scope ↔
      ShieldedPool.SharedSender.authorize (SharedSender.poolEnvironment d image runtime c s) o = .ok scope) ∧
    (Dispatcher.authorize d image c o = .ok 3 → o.txParam 0x09 = some 2 ∧ o.txParam 0x0A = some 0 ∧
      ∃ sp cost, SpendIn o 1 sp ∧ o.txParam 0x06 = some cost ∧ cost ≤ sp.fee) := by
  refine ⟨fun scope => ?_, fun frames scope => ?_, fun approved => ?_⟩
  · rw [dispatcher_authorize_ok, Monolith.authorize_ok]
  · rw [dispatcher_authorize_ok, SharedSender.authorize_ok, granted_of_three frames]
  · exact granted_payment (dispatcher_authorize_ok.mp approved)

/-- All three approve the recorded transfer in the three-frame form, and the pools pay for it in the other. -/
theorem authorizers_agree_hegota :
    (∀ c world s, Dispatcher.authorize Hegota.deployment Hegota.image c (Hegota.sponsoredTx.opcodes 0 none) = .ok 2 ∧
      ShieldedPool.Monolith.authorize Hegota.deployment ⟨[], 0xa1#160, 0xa2#160⟩ c (Hegota.sponsoredTx.opcodes 0 none) world = .ok 2 ∧
      ShieldedPool.SharedSender.authorize (SharedSender.poolEnvironment Hegota.deployment Hegota.image [] c s)
        (Hegota.sponsoredTx.opcodes 0 none) = .ok 2) ∧
    ∀ c world, Dispatcher.authorize Hegota.deployment Hegota.image c (Hegota.transferTx.opcodes 0 none) = .ok 3 ∧
      ShieldedPool.Monolith.authorize Hegota.deployment ⟨[], 0xa1#160, 0xa2#160⟩ c (Hegota.transferTx.opcodes 0 none) world = .ok 3 := by
  refine ⟨fun c world s => ?_, fun c world => ?_⟩
  · obtain ⟨pools, shared, -⟩ := authorizers_agree Hegota.deployment Hegota.image ⟨[], 0xa1#160, 0xa2#160⟩ [] c world s
      (Hegota.sponsoredTx.opcodes 0 none)
    have approved := @dispatcher_authorize_ok Hegota.deployment Hegota.image c _ 2 |>.mpr hegota_granted_sponsored
    exact ⟨approved, (pools 2).mp approved, (shared rfl 2).mp approved⟩
  · obtain ⟨pools, -, -⟩ := authorizers_agree Hegota.deployment Hegota.image ⟨[], 0xa1#160, 0xa2#160⟩ [] c world genesis
      (Hegota.transferTx.opcodes 0 none)
    have approved := @dispatcher_authorize_ok Hegota.deployment Hegota.image c _ 3 |>.mpr hegota_granted
    exact ⟨approved, (pools 3).mp approved⟩

end ShieldedPool.Proofs
