import ShieldedPool.Proofs.Settle

/-! The proof check of frame 0 against `verifyProofOnly`: not only do both accept the same
tuples, they refuse with the same error and send the verifier the same bytes. -/

namespace ShieldedPool.Proofs
open Evm Yul PoolYul Exec

variable {ω σ : Type}

theorem throwIf_decides (e : Error) (condition : Prop) [Decidable condition] :
    Decides (e.throwIf condition : Exec σ Unit) (reject condition e.data) := .revertIf _ _

theorem failIf_decides (e : Error) (condition : Word) :
    Decides (failIf e.selector condition : Program ω Unit) (reject (condition ≠ 0) e.data) := by
  rw [failIf_eq]
  exact .revertIf _ _

theorem opcode_some {α : Type} (w : Word) (rest : Word → Program ω α) : (opcode (some w) >>= rest) = rest w := rfl

theorem requireEq_decides (e : Error) (w expected : Word) :
    Decides (requireEq e (some w) expected : Program ω Unit) (reject (w ≠ expected) e.data) :=
  (failIf_decides e _).congr (reject_congr (Op.iszero_eq_ne_zero w expected) _)

theorem requireZero_decides (e : Error) (w : Word) :
    Decides (requireZero e (some w) : Program ω Unit) (reject (w ≠ 0) e.data) := failIf_decides e w

theorem requireBelow_decides (e : Error) (value bound : Word) :
    Decides (requireBelow e value bound : Program ω Unit) (reject (bound ≤ value) e.data) :=
  (failIf_decides e _).congr (reject_congr (Op.iszero_lt_ne_zero value bound) _)

/-- The checks that need no proof. -/
def validVerdict (d : Deployment) (sp : Spend) : Except Bytes Unit := do
  reject (sp.nf1 = 0 ∨ sp.nf2 = 0) Error.zeroNullifier.data
  reject (sp.domain ≠ d.domain) Error.invalidDomain.data
  reject (¬ sp.Canonical) Error.notCanonical.data
  reject (maxValue ≤ sp.publicAmount ∨ maxValue ≤ sp.fee) Error.valueTooLarge.data

def proofVerdict (d : Deployment) (sp : Spend) : Except Bytes Unit := do
  validVerdict d sp
  reject (d.verify sp.verifierCall = false) Error.proofInvalid.data

theorem checkRanges_decides (sp : Spend) :
    Decides (checkRanges sp.root sp.nf1 sp.nf2 sp.outCm1 sp.outCm2 sp.domain sp.ctx sp.publicAmount sp.fee : Program ω Unit) (do
      reject (¬ sp.Canonical) Error.notCanonical.data
      reject (maxValue ≤ sp.publicAmount ∨ maxValue ≤ sp.fee) Error.valueTooLarge.data) := by
  refine ((requireBelow_decides ..).guard <| (requireBelow_decides ..).guard <| (requireBelow_decides ..).guard <|
    (requireBelow_decides ..).guard <| (requireBelow_decides ..).guard <| (requireBelow_decides ..).guard <|
    (requireBelow_decides ..).guard <| (requireBelow_decides ..).guard <| requireBelow_decides ..).congr ?_
  have canonical : ¬ sp.Canonical ↔ fieldP ≤ sp.root ∨ fieldP ≤ sp.nf1 ∨ fieldP ≤ sp.nf2 ∨ fieldP ≤ sp.outCm1 ∨
      fieldP ≤ sp.outCm2 ∨ fieldP ≤ sp.domain ∨ fieldP ≤ sp.ctx := by
    simp only [Spend.Canonical, not_and_or, BitVec.not_lt]
  rw [reject_congr canonical]
  simp only [reject_or, reject_or_last]

/-- `verifyFrameProof` before its STATICCALL; it returns the address it is about to call. -/
def untilVerifier (env : Env) (o : Opcodes) (settleIndex : Nat) : Program ω Word := do
  let root ← opcode (o.frameDataLoad settleIndex 4)
  let dom ← opcode (o.frameDataLoad settleIndex 36)
  let nf1 ← opcode (o.frameDataLoad settleIndex 68)
  let nf2 ← opcode (o.frameDataLoad settleIndex 100)
  let oc1 ← opcode (o.frameDataLoad settleIndex 132)
  let oc2 ← opcode (o.frameDataLoad settleIndex 164)
  let pub ← opcode (o.frameDataLoad settleIndex 196)
  let fee ← opcode (o.frameDataLoad settleIndex 228)
  let ctx ← opcode (o.frameDataLoad settleIndex 260)
  failIf Error.zeroNullifier.selector (Op.iszero nf1)
  failIf Error.zeroNullifier.selector (Op.iszero nf2)
  let own ← domainVal env
  failIf Error.invalidDomain.selector (Op.iszero (Op.eq dom own))
  checkRanges root nf1 nf2 oc1 oc2 dom ctx pub fee
  mstore 0x80 (0xc542c93b#256 <<< 224)
  copyFrameWords o settleIndex 8 292 (0x80 + 0x04)
  storeSignals 0x80 nf1 nf2 oc1 oc2 root dom pub fee ctx
  Dispatcher.verifierAddr env

theorem verifyFrameProof_eq (env : Env) (o : Opcodes) (i : Nat) :
    (Dispatcher.verifyFrameProof env o i : Program ω Unit) =
      untilVerifier env o i >>= fun ver => callVerifier env ver 0x80 := by
  simp only [Dispatcher.verifyFrameProof, untilVerifier, bind_assoc]

/-- The checks on a tuple in frame 0's words. -/
def tupleChecks (env : Env) (sp : Spend) : Program ω Unit := do
  failIf Error.zeroNullifier.selector (Op.iszero sp.nf1)
  failIf Error.zeroNullifier.selector (Op.iszero sp.nf2)
  let own ← domainVal env
  failIf Error.invalidDomain.selector (Op.iszero (Op.eq sp.domain own))
  checkRanges sp.root sp.nf1 sp.nf2 sp.outCm1 sp.outCm2 sp.domain sp.ctx sp.publicAmount sp.fee

theorem tupleChecks_decides {d : Deployment} {env : Env} (hosted : Hosted d env) (sp : Spend) :
    Decides (tupleChecks env sp : Program ω Unit) (validVerdict d sp) := by
  refine ((failIf_decides _ _).guard <| (failIf_decides _ _).guard <| (Decides.of_returns (domainVal_returns hosted)).value <|
    (failIf_decides _ _).guard (checkRanges_decides sp)).congr ?_
  rw [reject_or, reject_congr (or_congr (Op.iszero_ne_zero sp.nf1) (Op.iszero_ne_zero sp.nf2)),
    reject_congr (Op.iszero_eq_ne_zero sp.domain d.domain)]
  rfl

/-- The verifier's calldata laid out in memory. -/
def layCall (env : Env) (o : Opcodes) (settleIndex : Nat) (sp : Spend) : Program ω Word := do
  mstore 0x80 (0xc542c93b#256 <<< 224)
  copyFrameWords o settleIndex 8 292 (0x80 + 0x04)
  storeSignals 0x80 sp.nf1 sp.nf2 sp.outCm1 sp.outCm2 sp.root sp.domain sp.publicAmount sp.fee sp.ctx
  Dispatcher.verifierAddr env

theorem untilVerifier_eq {o : Opcodes} {i : Nat} {sp : Spend} (env : Env) (loaded : SpendIn o i sp) :
    (untilVerifier env o i : Program ω Word) = tupleChecks env sp >>= fun _ => layCall env o i sp := by
  obtain ⟨root, dom, nf1, nf2, oc1, oc2, pub, fee, ctx⟩ := loaded.word
  rw [untilVerifier, root, dom, nf1, nf2, oc1, oc2, pub, fee, ctx]
  simp only [opcode_some, tupleChecks, layCall, bind_assoc]

variable {d : Deployment} {image : Dispatcher.Image} {c : Call} {o : Opcodes} {i : Nat} {sp : Spend}

theorem layCall_run (loaded : SpendIn o i sp) (m : Machine ω) :
    ∃ t, layCall (Dispatcher.environment d image c) o i sp m = .ok (d.verifier.word, t) ∧
      t.memory.load 0x80 0x224 = sp.verifierCall := by
  obtain ⟨w, words, rfl⟩ := loaded
  have copied := (@copyFrameWords_ok ω o i 8 292 0x84 { m with memory := m.memory.storeWord 0x80 (0xc542c93b#256 <<< 224) } _).mpr
    ⟨fun k => w (9 + k), fun k inside => by rw [← words (9 + k) (by omega)]; congr 1; omega, rfl⟩
  have code : (Dispatcher.environment d image c).code =
      (image.runtime ++ encodeWord image.impl.word) ++ encodeWord d.verifier.word ++ [] := (List.append_nil _).symm
  refine ⟨_, bind_eq_ok.mpr ⟨(), _, rfl, bind_eq_ok.mpr ⟨(), _, copied, bind_eq_ok.mpr ⟨(), _, rfl, immutableAt_run code rfl _⟩⟩⟩, ?_⟩
  exact load_signals m.memory (Spend.ofWords w) d.verifier.word

theorem callVerifier_map {env : Env} {verifier : Word} {base : Nat} {m : Machine ω} {b : Bool}
    (answer : env.callee (Address.ofWord verifier) (m.memory.load base 0x224) = .ok (encodeWord (flag b))) :
    (callVerifier env verifier base m).map Prod.fst = reject (b = false) Error.proofInvalid.data := by
  have stored : (m.memory.store 0 ((encodeWord (flag b)).take 0x20)).loadWord 0 = flag b := by
    rw [List.take_of_length_le (by simp), ← Memory.storeWord, Memory.loadWord_storeWord_same]
  rw [callVerifier, bind_ok (callPure_ok answer), failIf_eq, bind_ok (revertIf_neg (by decide) _ _), mload, Exec.read_bind, stored,
    (failIf_decides _ _).run]
  refine reject_congr ?_ _
  rw [Op.iszero_eq_ne_zero]
  cases b <;> decide

theorem verifyFrameProof_decides (loaded : SpendIn o i sp) :
    Decides (Dispatcher.verifyFrameProof (Dispatcher.environment d image c) o i : Program ω Unit) (proofVerdict d sp) := by
  have hosted : Hosted d (Dispatcher.environment d image c) := ⟨rfl, rfl, rfl⟩
  rw [verifyFrameProof_eq, untilVerifier_eq _ loaded, bind_assoc]
  refine (tupleChecks_decides hosted sp).guard ⟨fun m => ?_⟩
  obtain ⟨t, laid, data⟩ := @layCall_run _ d image c _ _ _ loaded m
  rw [bind_ok laid]
  refine callVerifier_map ?_
  rw [data, Address.ofWord_word]
  exact if_pos rfl

theorem validateSpend_decides (d : Deployment) (sp : Spend) :
    Decides (validateSpend d.domain sp : Exec State Unit) (do
      reject (sp.domain ≠ d.domain) Error.invalidDomain.data
      reject (¬ sp.Canonical) Error.notCanonical.data
      reject (maxValue ≤ sp.publicAmount ∨ maxValue ≤ sp.fee) Error.valueTooLarge.data) :=
  (throwIf_decides _ _).guard <| (throwIf_decides _ _).guard <| throwIf_decides _ _

/-- The checks of `verifyProofOnly` before its call of the verifier. -/
def solidityChecks (d : Deployment) (sp : Spend) : Exec State Unit := do
  Error.zeroNullifier.throwIf (sp.nf1 = 0 ∨ sp.nf2 = 0)
  validateSpend d.domain sp

theorem verifyProofOnly_eq (d : Deployment) (sp : Spend) :
    verifyProofOnly d (Logic.variant d) sp =
      solidityChecks d sp >>= fun _ => Error.proofInvalid.throwIf (d.verify sp.verifierCall = false) := by
  rw [solidityChecks, bind_assoc]
  rfl

theorem solidityChecks_decides (d : Deployment) (sp : Spend) : Decides (solidityChecks d sp) (validVerdict d sp) :=
  (throwIf_decides _ _).guard (validateSpend_decides d sp)

theorem verifyProofOnly_decides (d : Deployment) (sp : Spend) :
    Decides (verifyProofOnly d (Logic.variant d) sp) (proofVerdict d sp) := by
  rw [verifyProofOnly_eq]
  exact (solidityChecks_decides d sp).guard (throwIf_decides _ _)

/-- The call `verifyProofOnly` on the tuple in a settle frame's data. -/
def proofQuery (c : Call) (f : Frame) : Call :=
  { c with value := 0, data := selectorBytes Method.verifyProofOnly.selector ++ slice f.data 4 544 }

theorem spendIn_of_frame {tx : FrameTx} {index i : Nat} {payer : Option Address} {f : Frame} (frame : tx.frames[i]? = some f) :
    SpendIn (tx.opcodes index payer) i (Spend.decode f.data 4) := by
  exact ⟨fun k => wordAt f.data (4 + 32 * k), fun k _ => Option.bind_eq_some_iff.mpr ⟨f, frame, rfl⟩, rfl⟩

theorem logic_proofQuery (d : Deployment) (c : Call) (f : Frame) (s : State) :
    (Logic.call d (proofQuery c f) s).map (fun _ => ()) = proofVerdict d (Spend.decode f.data 4) := by
  have data : (proofQuery c f).data = proofCall fun k => wordAt f.data (4 + 32 * k) :=
    congrArg (selectorBytes _ ++ ·) (slice_eq_encodeWords f.data 4 17)
  have length : (proofQuery c f).data.length = 548 := by rw [data, length_proofCall]
  have selects : Selects (proofQuery c f) .verifyProofOnly := ⟨by omega, by rw [data, selector_proofCall]; rfl⟩
  have decoded : Spend.decode (proofQuery c f).data 4 = Spend.decode f.data 4 := by rw [data, decode_proofCall]; rfl
  rw [Logic.call, dispatch_of_selects selects (fun _ => rfl) length.ge, body, decoded, ← (verifyProofOnly_decides d _).run s, bind_apply]
  cases verifyProofOnly d (Logic.variant d) (Spend.decode f.data 4) s <;> rfl

/-- The checks up to one that refuses all have errors of four bytes. -/
theorem length_of_guard {condition : Prop} [Decidable condition] {e : Error} {rest : Unit → Except Bytes Unit} {data : Bytes}
    (refused : (reject condition e.data >>= rest) = .error data) (later : rest () = .error data → data.length = 4) :
    data.length = 4 := by
  by_cases holds : condition
  · rw [reject_pos holds] at refused
    cases refused
    exact length_selectorBytes _
  · rw [reject_neg holds] at refused
    exact later refused

theorem length_of_proofVerdict {data : Bytes} (refused : proofVerdict d sp = .error data) : data.length = 4 := by
  have last : proofVerdict d sp = proofVerdict d sp >>= fun _ => .ok () := (bind_pure (proofVerdict d sp)).symm
  rw [last] at refused
  simp only [proofVerdict, validVerdict, bind_assoc] at refused
  exact length_of_guard refused fun refused => length_of_guard refused fun refused => length_of_guard refused fun refused =>
    length_of_guard refused fun refused => length_of_guard refused nofun

/-- Frame 0's inline check and `verifyProofOnly` on the tuple to be settled succeed together or
fail with the same four bytes, and they send the verifier the same calldata. -/
theorem frame_proof_is_verifyProofOnly {tx : FrameTx} {index i : Nat} {payer : Option Address} {f : Frame} (frame : tx.frames[i]? = some f) :
    (∀ (m : Machine ω) s,
      (Dispatcher.verifyFrameProof (Dispatcher.environment d image c) (tx.opcodes index payer) i m).map Prod.fst =
        (Logic.call d (proofQuery c f) s).map fun _ => ()) ∧
    (∀ s data, Logic.call d (proofQuery c f) s = .error data → data.length = 4) ∧
    (∀ (m : Machine ω) s, (∃ ver t, untilVerifier (Dispatcher.environment d image c) (tx.opcodes index payer) i m = .ok (ver, t)) ↔
      ∃ t, solidityChecks d (Spend.decode f.data 4) s = .ok ((), t)) ∧
    ∀ (m : Machine ω) ver t, untilVerifier (Dispatcher.environment d image c) (tx.opcodes index payer) i m = .ok (ver, t) →
      Address.ofWord ver = d.verifier ∧ t.memory.load 0x80 0x224 = (Spend.decode f.data 4).verifierCall := by
  have loaded : SpendIn (tx.opcodes index payer) i (Spend.decode f.data 4) := spendIn_of_frame frame
  have hosted : Hosted d (Dispatcher.environment d image c) := ⟨rfl, rfl, rfl⟩
  have checked {m t : Machine ω} {ver : Word}
      (reached : untilVerifier (Dispatcher.environment d image c) (tx.opcodes index payer) i m = .ok (ver, t)) :
      validVerdict d (Spend.decode f.data 4) = .ok () ∧ ver = d.verifier.word ∧
        t.memory.load 0x80 0x224 = (Spend.decode f.data 4).verifierCall := by
    rw [untilVerifier_eq _ loaded] at reached
    obtain ⟨_, middle, passed, last⟩ := bind_eq_ok.mp reached
    obtain ⟨t', laid, data⟩ := @layCall_run _ d image c _ _ _ loaded middle
    rw [laid] at last
    cases last
    exact ⟨((tupleChecks_decides hosted _).returns_iff m ()).mp ⟨middle, passed⟩, rfl, data⟩
  refine ⟨fun m s => ?_, fun s data failed => ?_, fun m s => ⟨?_, ?_⟩, fun m ver t reached => ?_⟩
  · rw [(verifyFrameProof_decides loaded).run m, logic_proofQuery]
  · have verdict := logic_proofQuery d c f s
    rw [failed] at verdict
    exact length_of_proofVerdict verdict.symm
  · rintro ⟨ver, t, reached⟩
    exact ((solidityChecks_decides d _).returns_iff s ()).mpr (checked reached).1
  · intro passed
    obtain ⟨middle, passed⟩ := ((tupleChecks_decides hosted _).returns_iff m ()).mpr (((solidityChecks_decides d _).returns_iff s ()).mp passed)
    obtain ⟨t, laid, -⟩ := @layCall_run _ d image c _ _ _ loaded middle
    rw [untilVerifier_eq _ loaded]
    exact ⟨_, t, bind_eq_ok.mpr ⟨(), middle, passed, laid⟩⟩
  · obtain ⟨-, own, data⟩ := checked reached
    exact ⟨by rw [own, Address.ofWord_word], data⟩

theorem frame_proof_is_verifyProofOnly_hegota :
    (Dispatcher.verifyFrameProof (Dispatcher.environment Hegota.deployment Hegota.image ⟨Hegota.address, 0, [], 0, none, Hegota.block.publishes⟩)
      (Hegota.transferTx.opcodes 0 none) 1 (Machine.start ())).map Prod.fst =
        (Logic.call Hegota.deployment (proofQuery ⟨Hegota.address, 0, [], 0, none, Hegota.block.publishes⟩ Hegota.settleFrame) genesis).map
          fun _ => () := by
  have frame : Hegota.transferTx.frames[1]? = some Hegota.settleFrame := rfl
  exact (frame_proof_is_verifyProofOnly frame).1 (Machine.start ()) genesis

end ShieldedPool.Proofs
