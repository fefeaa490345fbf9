import ShieldedPool.Proofs.Precompiles
import ShieldedPool.Proofs.Spendable

/-! The pool with the generated verifier installed: what an approved transaction has proved, and what
the words of its proof do not fix. -/

namespace ShieldedPool.Proofs
open Evm Exec Yul Curve Groth16Verifier
open Tooling (SettleData selfPaidTx sponsoredTx)

variable {G₂ T : Type} [AddCommGroup G₂] [AddCommGroup T] {s : Setting G₂ T}

/-- A call of the verifier for nothing but its answer. -/
def asked (data : Bytes) (callee : Address → Bytes → Except Bytes Bytes) : Env := ⟨0, 0, 0, data, [], 0, 0, fun _ => 0, callee⟩

theorem selected_verifierCall (sp : Spend) : wordAt sp.verifierCall 0 >>> 224 = 0xc542c93b#256 := selector_selectorBytes _ (by decide) _

theorem length_verifierCall (sp : Spend) : sp.verifierCall.length = 548 := by
  change (selectorBytes _ ++ encodeWords (sp.proof ++ sp.signals)).length = 548
  have size : (sp.proof ++ sp.signals).length = 17 := rfl
  rw [List.length_append, length_selectorBytes, length_encodeWords, size]

theorem wordAt_verifierCall (sp : Spend) {i : Nat} (inside : i < 17) :
    wordAt sp.verifierCall (4 + 32 * i) = (sp.proof ++ sp.signals).getD i 0 := by
  have bound : i < (sp.proof ++ sp.signals).length := inside
  rw [Spend.verifierCall, wordAt_selectorBytes, ← List.append_nil (encodeWords _), wordAt_encodeWords _ _ bound, List.getD_eq_getElem?_getD,
    List.getElem?_eq_getElem bound, Option.getD_some]

theorem proofWords_verifierCall (sp : Spend) : proofWords sp.verifierCall = sp.proof := by
  have words : proofWords sp.verifierCall = (List.range 8).map fun i => (sp.proof ++ sp.signals).getD i 0 := by
    apply List.map_congr_left
    intro i member
    exact wordAt_verifierCall sp ((List.mem_range.mp member).trans (by decide))
  rw [words]
  rfl

theorem signalWords_verifierCall (sp : Spend) : signalWords sp.verifierCall = sp.signals := by
  have words : signalWords sp.verifierCall = (List.range 9).map fun i => (sp.proof ++ sp.signals).getD (8 + i) 0 := by
    apply List.map_congr_left
    intro i member
    have inside := List.mem_range.mp member
    have offset : 260 + 32 * i = 4 + 32 * (8 + i) := by omega
    rw [offset]
    exact wordAt_verifierCall sp (by omega)
  rw [words]
  rfl

/-- Five points of a second group, under the names that the verification of the transfer uses, with a
pairing that is trivial. -/
def transferSetting : Setting (ZMod 5) PUnit where
  twist Q := [[0, 0, 0, 0], [betax1, betax2, betay1, betay2], [gammax1, gammax2, gammay1, gammay2], [deltax1, deltax2, deltay1, deltay2],
    [Hegota.transfer.pB.1.1, Hegota.transfer.pB.1.2, Hegota.transfer.pB.2.1, Hegota.transfer.pB.2.2]].getD Q.val []
  length_twist := by decide
  injective := by decide
  e := 0
  beta := 1
  gamma := (2 : Nat)
  delta := (3 : Nat)
  twist_beta := rfl
  twist_gamma := rfl
  twist_delta := rfl

theorem equation_transfer : Equation transferSetting Hegota.transfer.proof Hegota.transfer.signals := by
  obtain ⟨A, first⟩ := on_curve (x := Hegota.transfer.pA.1) (y := Hegota.transfer.pA.2) (by decide +kernel)
  obtain ⟨C, third⟩ := on_curve (x := Hegota.transfer.pC.1) (y := Hegota.transfer.pC.2) (by decide +kernel)
  have second : transferSetting.twist 4 =
      [Hegota.transfer.pB.1.1, Hegota.transfer.pB.1.2, Hegota.transfer.pB.2.1, Hegota.transfer.pB.2.2] := rfl
  have same : opposite q.toNat (opposite q.toNat Hegota.transfer.pA.2) = Hegota.transfer.pA.2 := opposite_opposite small (by decide)
  -- The pairing is trivial, so only the names of the three points are left.
  refine ⟨A, 4, C, ?_, Subsingleton.elim _ _⟩
  rw [first, second, third, Spend.proof]
  simp only [List.modify_cons]
  rw [same]
  rfl

theorem valid_transfer : Valid Hegota.deployment.domain Hegota.transfer := ⟨hegota_domain.symm, by decide, by decide, by decide⟩

theorem signals_transfer : ∀ n ∈ Hegota.transfer.signals, n < r := valid_transfer.signals_canonical

theorem answered_one {b : Bool} : (Except.ok (encodeWord (flag b)) : Except Bytes Bytes) = .ok (encodeWord 1) ↔ b = true := by
  constructor
  · intro same
    rw [← flag_ne_zero, encodeWord_injective (Except.ok.inj same)]
    decide
  · rintro rfl
    rfl

/-- For every call: the verifier reverts when it is paid or its function's call data is not there,
and otherwise answers one truth value, true for canonical signals and a proof that solves the
Groth16 equation for them. -/
theorem verifier_answers {env : Env} (pre : Precompiles env.callee s) :
    (call env = .error [] ↔ env.value ≠ 0 ∨ env.data.length < 548 ∨ wordAt env.data 0 >>> 224 ≠ 0xc542c93b#256) ∧
      (∀ out, call env = .ok out → out = encodeWord 0 ∨ out = encodeWord 1) ∧
      (call env = .ok (encodeWord 1) ↔ env.value = 0 ∧ 548 ≤ env.data.length ∧ wordAt env.data 0 >>> 224 = 0xc542c93b#256 ∧
        (∀ n ∈ signalWords env.data, n < r) ∧ Equation s (proofWords env.data) (signalWords env.data)) := by
  by_cases served : env.value = 0 ∧ 548 ≤ env.data.length ∧ wordAt env.data 0 >>> 224 = 0xc542c93b#256
  · obtain ⟨free, whole, selected⟩ := served
    obtain ⟨b, answered, accepts⟩ := call_eq pre free selected whole
    rw [answered]
    refine ⟨iff_of_false nofun ?_, ?_, ?_⟩
    · rintro (paid | short | unknown)
      · exact paid free
      · omega
      · exact unknown selected
    · intro out same
      obtain rfl := Except.ok.inj same
      cases b with
      | false => exact .inl rfl
      | true => exact .inr rfl
    · rw [answered_one, accepts]
      exact ⟨fun holds => ⟨free, whole, selected, holds⟩, fun holds => holds.2.2.2⟩
  · have other : env.value ≠ 0 ∨ env.data.length < 548 ∨ wordAt env.data 0 >>> 224 ≠ 0xc542c93b#256 := by
      by_contra none
      push Not at none
      exact served none
    rw [call_error other]
    exact ⟨iff_of_true rfl other, nofun, iff_of_false nofun fun holds => served ⟨holds.1, holds.2.1, holds.2.2.1⟩⟩

theorem verifier_answers_transfer : call (asked Hegota.transfer.verifierCall (precompiles transferSetting)) = .ok (encodeWord 1) := by
  have canonical : ∀ n ∈ signalWords Hegota.transfer.verifierCall, n < r := by
    rw [signalWords_verifierCall]
    exact signals_transfer
  have solved : Equation transferSetting (proofWords Hegota.transfer.verifierCall) (signalWords Hegota.transfer.verifierCall) := by
    rw [proofWords_verifierCall, signalWords_verifierCall]
    exact equation_transfer
  have answers := @verifier_answers _ _ _ _ _ (asked Hegota.transfer.verifierCall (precompiles transferSetting)) (precompiles_ok transferSetting)
  exact answers.2.2.mpr ⟨rfl, (length_verifierCall _).ge, selected_verifierCall _, canonical, solved⟩

/-- The contract at the deployment's verifier address is the generated verifier. -/
def Installed (d : Deployment) (callee : Address → Bytes → Except Bytes Bytes) : Prop :=
  ∀ env : Env, env.callee = callee → env.value = 0 → wordAt env.data 0 >>> 224 = 0xc542c93b#256 → 548 ≤ env.data.length →
    call env = .ok (encodeWord (flag (d.verify env.data)))

variable {d : Deployment} {callee : Address → Bytes → Except Bytes Bytes}

open Classical in
/-- The deployment with the generated verifier for its own. -/
noncomputable def equipped (d : Deployment) (callee : Address → Bytes → Except Bytes Bytes) : Deployment :=
  { d with verify := fun data => decide (call (asked data callee) = .ok (encodeWord 1)) }

theorem installed_equipped (pre : Precompiles callee s) (d : Deployment) : Installed (equipped d callee) callee := by
  intro env same free selected whole
  subst same
  obtain ⟨b, answered, accepts⟩ := call_eq pre free selected whole
  obtain ⟨b', again, accepts'⟩ := @call_eq G₂ T _ _ (asked env.data env.callee) s pre rfl selected whole
  -- The answer depends on nothing of the environment but the call data and the precompiles.
  obtain rfl : b = b' := Bool.eq_iff_iff.mpr (accepts.trans accepts'.symm)
  have verdict : (equipped d env.callee).verify env.data = b := by
    apply Bool.eq_iff_iff.mpr
    rw [equipped, decide_eq_true_eq, again, answered_one]
  rw [answered, verdict]

theorem verify_iff (pre : Precompiles callee s) (installed : Installed d callee) (sp : Spend) :
    d.verify sp.verifierCall = true ↔ (∀ n ∈ sp.signals, n < fieldP) ∧ Equation s sp.proof sp.signals := by
  have selected := selected_verifierCall sp
  have whole := (length_verifierCall sp).ge
  have answered := installed (asked sp.verifierCall callee) rfl rfl selected whole
  obtain ⟨b, again, accepts⟩ := @call_eq G₂ T _ _ (asked sp.verifierCall callee) s pre rfl selected whole
  have same : flag b = flag (d.verify sp.verifierCall) := encodeWord_injective (Except.ok.inj (again.symm.trans answered))
  have verdict : d.verify sp.verifierCall = true ↔ b = true := by rw [← flag_ne_zero, ← same, flag_ne_zero]
  rw [verdict, accepts]
  change (∀ n ∈ signalWords sp.verifierCall, n < r) ∧ Equation s (proofWords sp.verifierCall) (signalWords sp.verifierCall) ↔ _
  rw [proofWords_verifierCall, signalWords_verifierCall]
  rfl

/-- What frame 0 asks of a spend, with the pairing written out. -/
structure Shown (d : Deployment) (s : Setting G₂ T) (sp : Spend) : Prop where
  nf1 : sp.nf1 ≠ 0
  nf2 : sp.nf2 ≠ 0
  valid : Valid d.domain sp
  equation : Equation s sp.proof sp.signals

theorem proven_iff_shown (pre : Precompiles callee s) (installed : Installed d callee) {sp : Spend} : Proven d sp ↔ Shown d s sp := by
  constructor
  · intro proven
    obtain ⟨-, equation⟩ := (verify_iff pre installed sp).mp proven.verified
    exact ⟨proven.nf1, proven.nf2, proven.valid, equation⟩
  · intro shown
    have verified := (verify_iff pre installed sp).mpr ⟨shown.valid.signals_canonical, shown.equation⟩
    exact ⟨shown.nf1, shown.nf2, shown.valid, verified⟩

section Built
variable {sp : Spend} {data : Bytes} (settles : SettleData sp data) (slot maxCost : Word) (image : Dispatcher.Image) (c : Call)
  (payer : Option Address)

theorem authorized_selfPaid (pre : Precompiles callee s) (installed : Installed d callee) :
    Dispatcher.authorize d image c ((selfPaidTx settles slot maxCost d).opcodes 0 payer) = .ok 3 ↔ Shown d s sp ∧ maxCost ≤ sp.fee := by
  rw [dispatcher_authorize_ok, Tooling.granted_selfPaid, proven_iff_shown pre installed]

theorem authorized_sponsored (pre : Precompiles callee s) (installed : Installed d callee) (pm : Address) :
    Dispatcher.authorize d image c ((sponsoredTx settles slot maxCost d pm).opcodes 0 payer) = .ok 2 ↔ Shown d s sp := by
  rw [dispatcher_authorize_ok, Tooling.granted_sponsored, proven_iff_shown pre installed]

end Built

theorem shown_transfer : Shown (equipped Hegota.deployment (precompiles transferSetting)) transferSetting Hegota.transfer :=
  ⟨by decide, by decide, valid_transfer, equation_transfer⟩

/-- Every transaction that frame 0 approves settles a spend whose proof solves the Groth16 equation,
and of those that the tooling builds it approves exactly the ones with such a proof. -/
theorem approval_proves (pre : Precompiles callee s) (installed : Installed d callee) (image : Dispatcher.Image) (c : Call) (payer : Option Address) :
    (∀ (tx : FrameTx) (index : Nat) (scope : Word), index < tx.frames.length →
        Dispatcher.authorize d image c (tx.opcodes index payer) = .ok scope →
        index = 0 ∧ ∃ f sp, Approved d tx scope f sp ∧ Shown d s sp) ∧
      ∀ {sp : Spend} {data : Bytes} (settles : SettleData sp data) (slot maxCost : Word),
        (Dispatcher.authorize d image c ((selfPaidTx settles slot maxCost d).opcodes 0 payer) = .ok 3 ↔ Shown d s sp ∧ maxCost ≤ sp.fee) ∧
          ∀ pm, Dispatcher.authorize d image c ((sponsoredTx settles slot maxCost d pm).opcodes 0 payer) = .ok 2 ↔ Shown d s sp := by
  constructor
  · intro tx index scope inside granted
    obtain ⟨first, f, sp, approved⟩ := approved_of_granted inside (dispatcher_authorize_ok.mp granted)
    exact ⟨first, f, sp, approved, (proven_iff_shown pre installed).mp approved.proven⟩
  · intro sp data settles slot maxCost
    refine ⟨authorized_selfPaid settles slot maxCost image c payer pre installed, ?_⟩
    intro pm
    exact authorized_sponsored settles slot maxCost image c payer pre installed pm

theorem approval_proves_transfer :
    Dispatcher.authorize (equipped Hegota.deployment (precompiles transferSetting)) Hegota.image
      ⟨0, 0, [], 0, none, fun _ => true⟩
      ((selfPaidTx (@SettleData.transfer Hegota.transfer rfl rfl) 191883 10384588145384232
        (equipped Hegota.deployment (precompiles transferSetting))).opcodes 0 none) = .ok 3 := by
  have pre := precompiles_ok transferSetting
  have proves := approval_proves pre (installed_equipped pre Hegota.deployment) Hegota.image ⟨0, 0, [], 0, none, fun _ => true⟩ none
  exact (proves.2 _ _ _).1.mpr ⟨shown_transfer, by decide⟩

/-- The spend with another word in its proof. -/
def rewritten (sp : Spend) (y : Word) : Spend := { sp with pA := (sp.pA.1, y) }

theorem equation_rewritten {sp : Spend} {y : Word} (alike : opposite q.toNat y = opposite q.toNat sp.pA.2) :
    Equation s (rewritten sp y).proof (rewritten sp y).signals ↔ Equation s sp.proof sp.signals := by
  have words : (rewritten sp y).proof.modify 1 (fun w => opposite q.toNat (opposite q.toNat w)) =
      sp.proof.modify 1 fun w => opposite q.toNat (opposite q.toNat w) :=
    congrArg (fun w => [sp.pA.1, opposite q.toNat w, sp.pB.1.1, sp.pB.1.2, sp.pB.2.1, sp.pB.2.2, sp.pC.1, sp.pC.2]) alike
  have signals : (rewritten sp y).signals = sp.signals := rfl
  rw [Equation, words, signals, ← Equation]

section
variable (c : Call) (sp : Spend) (y : Word) (x x' : Bytes)

theorem transfer_rewritten : transfer d (Logic.variant d) { c with data := x' } (rewritten sp y) =
    transfer d (Logic.variant d) { c with data := x } sp := rfl

theorem withdraw_rewritten (who : Address) : withdraw d (Logic.variant d) { c with data := x' } (rewritten sp y) who =
    withdraw d (Logic.variant d) { c with data := x } sp who := rfl

end

theorem dispatch_congr {v : Variant} {c e : Call} {m : Method} {st : State} (first : Selects c m) (second : Selects e m)
    (value : e.value = c.value) (long : 4 + m.argBytes ≤ c.data.length) (long' : 4 + m.argBytes ≤ e.data.length)
    (same : body d v e m st = body d v c m st) : dispatch d v e st = dispatch d v c st := by
  obtain ⟨size, selected⟩ := first
  obtain ⟨size', selected'⟩ := second
  rw [dispatch, dispatch, revertIf_bind, revertIf_bind, if_neg (by omega), if_neg (by omega), selected, selected', ofSelector_selector]
  simp only [revertIf_bind]
  rw [value, if_neg (Nat.not_lt.mpr long), if_neg (Nat.not_lt.mpr long'), same]

theorem addressArg_word {c : Call} {offset : Nat} {who : Address} (named : wordAt c.data offset = who.word) :
    addressArg c offset = pure who := by
  funext st
  have arg : addressArg c offset st = .ok (who, st) := (addressArg_ok c).mpr ⟨named, rfl⟩
  exact arg

/-- The settlement does not read the proof. -/
theorem call_rewritten {sp : Spend} {data : Bytes} (settles : SettleData sp data) (y : Word) :
    ∃ other, SettleData (rewritten sp y) other ∧
      ∀ (c : Call) (st : State), Logic.call d { c with data := other } st = Logic.call d { c with data := data } st := by
  cases settles with
  | transfer amount ctx =>
    have settles : SettleData sp _ := .transfer amount ctx
    have other : SettleData (rewritten sp y) _ := .transfer amount ctx
    have size (t : Spend) : (selectorBytes 0xb9947fa0#256 ++ encodeWords t.words).length = 548 := by
      rw [List.length_append, length_selectorBytes, length_encodeWords, Tooling.length_words]
    refine ⟨_, other, ?_⟩
    intro c st
    have selects (t : Spend) : Selects { c with data := selectorBytes 0xb9947fa0#256 ++ encodeWords t.words } .transfer :=
      ⟨(Nat.le_add_right 4 544).trans (size t).ge, selector_selectorBytes _ (by decide) _⟩
    apply dispatch_congr (selects sp) (selects (rewritten sp y)) rfl (size sp).ge (size _).ge
    rw [body, body, settles.decode, other.decode, transfer_rewritten]
  | @withdraw recipient amount nonzero ctx =>
    have settles : SettleData sp _ := @SettleData.withdraw sp recipient amount nonzero ctx
    have other : SettleData (rewritten sp y) _ := @SettleData.withdraw (rewritten sp y) recipient amount nonzero ctx
    have size (t : Spend) : (selectorBytes 0xd677b46e#256 ++ encodeWords (t.words ++ [recipient.word])).length = 580 := by
      rw [List.length_append, length_selectorBytes, length_encodeWords, List.length_append, Tooling.length_words]
      rfl
    refine ⟨_, other, ?_⟩
    intro c st
    have selects (t : Spend) : Selects { c with data := selectorBytes 0xd677b46e#256 ++ encodeWords (t.words ++ [recipient.word]) } .withdraw :=
      ⟨(Nat.le_add_right 4 576).trans (size t).ge, selector_selectorBytes _ (by decide) _⟩
    have argument (t : Spend) : addressArg { c with data := selectorBytes 0xd677b46e#256 ++ encodeWords (t.words ++ [recipient.word]) } 548 =
        pure recipient := by
      have bound : 17 < (t.words ++ [recipient.word]).length := by
        rw [List.length_append, Tooling.length_words]
        exact Nat.lt_succ_self 17
      have last := wordAt_encodeWords (t.words ++ [recipient.word]) 17 bound []
      rw [List.append_nil] at last
      apply addressArg_word
      exact (wordAt_selectorBytes 0xd677b46e#256 _ (32 * 17)).trans last
    apply dispatch_congr (selects sp) (selects (rewritten sp y)) rfl (size sp).ge (size _).ge
    rw [body, body, argument, argument, pure_bind, pure_bind, settles.decode, other.decode, withdraw_rewritten]

theorem shown_rewritten {sp : Spend} {y : Word} (alike : opposite q.toNat y = opposite q.toNat sp.pA.2) :
    Shown d s (rewritten sp y) ↔ Shown d s sp := by
  constructor
  · intro shown
    obtain ⟨domain, canonical, amount, fee⟩ := shown.valid
    exact ⟨shown.nf1, shown.nf2, ⟨domain, canonical, amount, fee⟩, (equation_rewritten alike).mp shown.equation⟩
  · intro shown
    obtain ⟨domain, canonical, amount, fee⟩ := shown.valid
    exact ⟨shown.nf1, shown.nf2, ⟨domain, canonical, amount, fee⟩, (equation_rewritten alike).mpr shown.equation⟩

theorem room : 3 * q.toNat ≤ 2 ^ 256 := by decide

/-- Whoever holds the transaction of a spend can write another with a different proof text, which
frame 0 approves alike and whose settlement does the same. -/
theorem proof_rewritable (pre : Precompiles callee s) (installed : Installed d callee) {sp : Spend} {data : Bytes}
    (settles : SettleData sp data) (inside : sp.pA.2.toNat < q.toNat) (slot maxCost : Word) :
    ∃ y other, ∃ again : SettleData (rewritten sp y) other, other ≠ data ∧
      (∀ (c : Call) (st : State), Logic.call d { c with data := other } st = Logic.call d { c with data := data } st) ∧
      ∀ (image : Dispatcher.Image) (c : Call) (payer : Option Address),
        (Dispatcher.authorize d image c ((selfPaidTx again slot maxCost d).opcodes 0 payer) = .ok 3 ↔
          Dispatcher.authorize d image c ((selfPaidTx settles slot maxCost d).opcodes 0 payer) = .ok 3) ∧
        ∀ pm, Dispatcher.authorize d image c ((sponsoredTx again slot maxCost d pm).opcodes 0 payer) = .ok 2 ↔
          Dispatcher.authorize d image c ((sponsoredTx settles slot maxCost d pm).opcodes 0 payer) = .ok 2 := by
  -- Another second word of `_pA` that leaves the verifier with the same negated point.
  obtain ⟨y, changed, alike⟩ := exists_same_opposite room inside
  obtain ⟨other, again, same⟩ := @call_rewritten d sp data settles y
  have shown : Shown d s (rewritten sp y) ↔ Shown d s sp := shown_rewritten alike
  refine ⟨y, other, again, ?_, same, ?_⟩
  · rintro rfl
    have tuples : rewritten sp y = sp := again.decode.symm.trans settles.decode
    have word : (rewritten sp y).pA.2 = sp.pA.2 := by rw [tuples]
    exact changed word
  · intro image c payer
    constructor
    · rw [authorized_selfPaid again slot maxCost image c payer pre installed, authorized_selfPaid settles slot maxCost image c payer pre installed]
      exact and_congr_left fun _ => shown
    · intro pm
      rw [authorized_sponsored again slot maxCost image c payer pre installed, authorized_sponsored settles slot maxCost image c payer pre installed]
      exact shown

theorem proof_rewritable_transfer :
    ∃ y other, ∃ again : SettleData (rewritten Hegota.transfer y) other, other ≠ Hegota.settleFrame.data ∧
      Dispatcher.authorize (equipped Hegota.deployment (precompiles transferSetting)) Hegota.image ⟨0, 0, [], 0, none, fun _ => true⟩
        ((selfPaidTx again 191883 10384588145384232 (equipped Hegota.deployment (precompiles transferSetting))).opcodes 0 none) = .ok 3 := by
  have pre := precompiles_ok transferSetting
  have installed := installed_equipped pre Hegota.deployment
  have settles : SettleData Hegota.transfer Hegota.settleFrame.data := @SettleData.transfer Hegota.transfer rfl rfl
  obtain ⟨y, other, again, changed, -, alike⟩ := proof_rewritable pre installed settles (by decide) 191883 10384588145384232
  refine ⟨y, other, again, changed, ?_⟩
  apply (alike Hegota.image ⟨0, 0, [], 0, none, fun _ => true⟩ none).1.mpr
  exact (authorized_selfPaid settles _ _ _ _ _ pre installed).mpr ⟨shown_transfer, by decide⟩

end ShieldedPool.Proofs
