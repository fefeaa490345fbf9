import ShieldedPool.Logic
import ShieldedPool.Proofs.Operations

/-! Everything a call of ShieldedPoolLogic.sol that returns can have done. Invariants are
proved by cases on `Effect` and never unfold the code again. -/

namespace ShieldedPool.Proofs
open Evm Exec

variable (d : Deployment) (c : Call)

/-- `_spend` accepts the tuple, and `payer` is who paid for the transaction. -/
structure Authenticated (sp : Spend) (payer : Address) : Prop where
  sender : c.caller = d.self
  nf1 : sp.nf1 ≠ 0
  nf2 : sp.nf2 ≠ 0
  bound : ∃ ret, c.probe = some ret ∧ ret.length = 352 ∧ Bound d (Logic.variant d) sp (Facts.decode ret) ∧
    payer = Address.ofWord (Facts.decode ret).payerWord
  valid : Valid d.domain sp

theorem spend_logic {sp : Spend} {payer : Address} {s t : State} :
    spend d (Logic.variant d) c sp s = .ok (payer, t) ↔ Authenticated d c sp payer ∧ t = noted s sp := by
  rw [spend_ok]
  constructor
  · rintro ⟨sender, nf1, nf2, ret, mid, answer, size, bound, payer, checked, rfl⟩
    obtain ⟨valid, rfl⟩ := validateSpend_ok.mp checked
    exact ⟨⟨sender, nf1, nf2, ⟨ret, answer, size, bound, payer⟩, valid⟩, rfl⟩
  · rintro ⟨⟨sender, nf1, nf2, ⟨ret, answer, size, bound, payer⟩, valid⟩, rfl⟩
    exact ⟨sender, nf1, nf2, ret, s, answer, size, bound, payer, validateSpend_ok.mpr ⟨valid, rfl⟩, rfl⟩

/-- The state after `_spend` and `_settle`. -/
def settled (s : State) (sp : Spend) (payer : Address) : State :=
  let t := grown d c (noted s sp) sp.outCm1 sp.outCm2
  credited d (t.publish t.currentRoot) payer sp.fee

/-- The three things `_settle` can still fail on. -/
structure Fits (s : State) (sp : Spend) (payer : Address) : Prop where
  room : ¬ Overflows s {sp.outCm1, sp.outCm2}
  published : c.publishes (publication (grown d c (noted s sp) sp.outCm1 sp.outCm2).currentRoot) = true
  fee : sp.fee ≠ 0 → payer ≠ d.self → (s.feeCredit payer).toNat + sp.fee.toNat < 2 ^ 256

theorem feeCredit_grown (s : State) (cm1 cm2 : Word) : (grown d c s cm1 cm2).feeCredit = s.feeCredit := by
  simp only [grown, added]
  split_ifs <;> rfl

theorem withdrawalCredit_grown (s : State) (cm1 cm2 : Word) :
    (grown d c s cm1 cm2).withdrawalCredit = s.withdrawalCredit := by
  simp only [grown, added]
  split_ifs <;> rfl

theorem settle_ok {sp : Spend} {payer : Address} {s t : State} :
    settle d c sp payer (noted s sp) = .ok ((), t) ↔ Fits d c s sp payer ∧ t = settled d c s sp payer := by
  have kept (root : Word) : ((grown d c (noted s sp) sp.outCm1 sp.outCm2).publish root).feeCredit = s.feeCredit :=
    feeCredit_grown d c (noted s sp) _ _
  rw [settle_eq, creditFee_eq, error_or_ok, error_or_ok, error_or_ok, kept]
  constructor
  · rintro ⟨room, published, fee, returned⟩
    cases returned
    refine ⟨⟨room, by simpa using published, fun due other => ?_⟩, rfl⟩
    exact Nat.not_le.mp fun excess => fee ⟨⟨due, other⟩, excess⟩
  · rintro ⟨fits, rfl⟩
    exact ⟨fits.room, by simp [fits.published], fun both => Nat.not_le.mpr (fits.fee both.1.1 both.1.2) both.2, rfl⟩

theorem withdrawalCredit_settled (s : State) (sp : Spend) (payer : Address) :
    (settled d c s sp payer).withdrawalCredit = s.withdrawalCredit := by
  have same := withdrawalCredit_grown d c (noted s sp) sp.outCm1 sp.outCm2
  simp only [settled, credited]
  split_ifs <;> exact same

theorem transfer_ok {sp : Spend} {s t : State} :
    transfer d (Logic.variant d) c sp s = .ok ((), t) ↔
      sp.publicAmount = 0 ∧ sp.ctx = 0 ∧
        ∃ payer, Authenticated d c sp payer ∧ Fits d c s sp payer ∧ t = settled d c s sp payer := by
  rw [transfer, throwIf_bind, error_or_ok, bind_eq_ok]
  constructor
  · rintro ⟨shape, payer, mid, spent, rest⟩
    obtain ⟨authenticated, rfl⟩ := (spend_logic d c).mp spent
    obtain ⟨fits, rfl⟩ := (settle_ok d c).mp rest
    simp only [ne_eq, not_or, not_not] at shape
    exact ⟨shape.1, shape.2, payer, authenticated, fits, rfl⟩
  · rintro ⟨amount, ctx, payer, authenticated, fits, rfl⟩
    exact ⟨by simp [amount, ctx], payer, noted s sp, (spend_logic d c).mpr ⟨authenticated, rfl⟩,
      (settle_ok d c).mpr ⟨fits, rfl⟩⟩

/-- The state after `withdraw`. -/
def withdrawn (s : State) (sp : Spend) (payer recipient : Address) : State :=
  ((settled d c s sp payer).setWithdrawalCredit recipient (s.withdrawalCredit recipient + sp.publicAmount)).emit
    (.withdrawalCredited recipient sp.publicAmount)

theorem creditWithdrawal_settled (s : State) (sp : Spend) (payer recipient : Address) :
    creditWithdrawal recipient sp.publicAmount (settled d c s sp payer) =
      if 2 ^ 256 ≤ (s.withdrawalCredit recipient).toNat + sp.publicAmount.toNat then .error arithmeticPanic
      else .ok ((), withdrawn d c s sp payer recipient) := by
  rw [creditWithdrawal, read_bind, checkedAdd_bind, withdrawalCredit_settled]
  rfl

theorem withdraw_ok {sp : Spend} {recipient : Address} {s t : State} :
    withdraw d (Logic.variant d) c sp recipient s = .ok ((), t) ↔
      sp.publicAmount ≠ 0 ∧ sp.ctx ≠ 0 ∧ sp.ctx = recipient.word ∧
        ∃ payer, Authenticated d c sp payer ∧ Fits d c s sp payer ∧
          (s.withdrawalCredit recipient).toNat + sp.publicAmount.toNat < 2 ^ 256 ∧
          t = withdrawn d c s sp payer recipient := by
  rw [withdraw, throwIf_bind, throwIf_bind, error_or_ok, error_or_ok, bind_eq_ok]
  constructor
  · rintro ⟨shape, named, payer, mid, spent, rest⟩
    obtain ⟨authenticated, rfl⟩ := (spend_logic d c).mp spent
    obtain ⟨_, after, kept, last⟩ := bind_eq_ok.mp rest
    obtain ⟨fits, rfl⟩ := (settle_ok d c).mp kept
    rw [creditWithdrawal_settled, error_or_ok] at last
    obtain ⟨room, returned⟩ := last
    cases returned
    simp only [not_or] at shape
    exact ⟨shape.1, shape.2, by simpa [ctxFor] using named, payer, authenticated, fits, Nat.not_le.mp room, rfl⟩
  · rintro ⟨amount, ctx, named, payer, authenticated, fits, room, rfl⟩
    refine ⟨not_or.mpr ⟨amount, ctx⟩, by simp [ctxFor, named], payer, noted s sp,
      (spend_logic d c).mpr ⟨authenticated, rfl⟩, ?_⟩
    rw [bind_ok ((settle_ok d c).mpr ⟨fits, rfl⟩), creditWithdrawal_settled, if_neg (Nat.not_le.mpr room)]

theorem claimWithdrawal_ok {who : Address} {reply : Reply} {s t : State} :
    claimWithdrawal who s = .ok (reply, t) ↔
      s.withdrawalCredit who ≠ 0 ∧ reply = .payout who (s.withdrawalCredit who) ∧
        t = (s.setWithdrawalCredit who 0).emit (.withdrawn who (s.withdrawalCredit who)) := by
  rw [claimWithdrawal, read_bind, throwIf_bind, error_or_ok]
  constructor
  · rintro ⟨owed, returned⟩
    cases returned
    exact ⟨owed, rfl, rfl⟩
  · rintro ⟨owed, rfl, rfl⟩
    exact ⟨owed, rfl⟩

theorem claimFee_ok {who : Address} {reply : Reply} {s t : State} :
    claimFee who s = .ok (reply, t) ↔
      s.feeCredit who ≠ 0 ∧ reply = .payout who (s.feeCredit who) ∧
        t = (s.setFeeCredit who 0).emit (.feePaid who (s.feeCredit who)) := by
  rw [claimFee, read_bind, throwIf_bind, error_or_ok]
  constructor
  · rintro ⟨owed, returned⟩
    cases returned
    exact ⟨owed, rfl, rfl⟩
  · rintro ⟨owed, rfl, rfl⟩
    exact ⟨owed, rfl⟩

theorem addressArg_ok {offset : Nat} {a : Address} {s t : State} :
    addressArg c offset s = .ok (a, t) ↔ wordAt c.data offset = a.word ∧ t = s := by
  rw [addressArg, revertIf_bind, error_or_ok, not_not]
  constructor
  · rintro ⟨clean, returned⟩
    cases returned
    exact ⟨(Address.word_ofWord clean).symm, rfl⟩
  · rintro ⟨named, rfl⟩
    rw [named]
    exact ⟨Address.word_clean a, by rw [Address.ofWord_word]; rfl⟩

theorem ofSelector_eq_some {w : Word} {m : Method} (found : Method.ofSelector w = some m) : m.selector = w := by
  simpa using List.find?_some found

theorem ofSelector_selector (m : Method) : Method.ofSelector m.selector = some m := by
  cases m <;> decide

theorem selector_injective {m n : Method} (same : m.selector = n.selector) : m = n :=
  Option.some.inj (by rw [← ofSelector_selector m, same, ofSelector_selector n])

/-- The method a call's first four bytes select. -/
def Selects (m : Method) : Prop := 4 ≤ c.data.length ∧ wordAt c.data 0 >>> 224 = m.selector

theorem dispatch_ok {v : Variant} {reply : Reply} {s t : State} :
    dispatch d v c s = .ok (reply, t) ↔
      ∃ m, Selects c m ∧ (m.payable = false → c.value = 0) ∧ 4 + m.argBytes ≤ c.data.length ∧
        body d v c m s = .ok (reply, t) := by
  rw [dispatch, revertIf_bind, error_or_ok, Nat.not_lt]
  cases chosen : Method.ofSelector (wordAt c.data 0 >>> 224) with
  | none =>
    constructor
    · rintro ⟨-, returned⟩
      cases returned
    · rintro ⟨m, ⟨-, selected⟩, -⟩
      rw [selected, ofSelector_selector] at chosen
      cases chosen
  | some m =>
    simp only [revertIf_bind, error_or_ok, Nat.not_lt]
    constructor
    · rintro ⟨size, value, long, returned⟩
      exact ⟨m, ⟨size, (ofSelector_eq_some chosen).symm⟩, fun plain => by_contra fun paid => value ⟨plain, paid⟩,
        long, returned⟩
    · rintro ⟨n, ⟨size, selected⟩, value, long, returned⟩
      rw [selected, ofSelector_selector] at chosen
      obtain rfl := Option.some.inj chosen
      exact ⟨size, fun both => both.2 (value both.1), long, returned⟩

/-- Methods that only read. -/
def Method.View : Method → Prop
  | .shield | .transfer | .withdraw | .claimWithdrawal | .claimFee => False
  | _ => True

/-- What a call that returns, or pays out, has done to the state. -/
inductive Effect (s : State) : Reply → State → Prop
  | shield (selects : Selects c .shield) (positive : c.value ≠ 0) (small : c.value < maxValue)
      (canonical : wordAt c.data 4 < fieldP)
      (fresh : ¬ s.isLeaf (commitmentOf d (wordAt c.data 4) c.value) = true) (room : s.nextIndex < 2 ^ depth) :
      Effect s (.returned (encodeWord (BitVec.ofNat 256 s.nextIndex)))
        ((deposited d c s (commitmentOf d (wordAt c.data 4) c.value)).publish
          (rootOf d (inserted d s (commitmentOf d (wordAt c.data 4) c.value))))
  | transfer {payer} (selects : Selects c .transfer) (free : c.value = 0) (long : 548 ≤ c.data.length)
      (amount : (Spend.decode c.data 4).publicAmount = 0)
      (ctx : (Spend.decode c.data 4).ctx = 0) (authenticated : Authenticated d c (Spend.decode c.data 4) payer)
      (fits : Fits d c s (Spend.decode c.data 4) payer) :
      Effect s (.returned []) (settled d c s (Spend.decode c.data 4) payer)
  | withdraw {payer recipient} (selects : Selects c .withdraw) (free : c.value = 0) (long : 580 ≤ c.data.length)
      (amount : (Spend.decode c.data 4).publicAmount ≠ 0)
      (named : (Spend.decode c.data 4).ctx = recipient.word) (authenticated : Authenticated d c (Spend.decode c.data 4) payer)
      (fits : Fits d c s (Spend.decode c.data 4) payer)
      (credit : (s.withdrawalCredit recipient).toNat + (Spend.decode c.data 4).publicAmount.toNat < 2 ^ 256) :
      Effect s (.returned []) (withdrawn d c s (Spend.decode c.data 4) payer recipient)
  | claimWithdrawal {who} (selects : Selects c .claimWithdrawal) (free : c.value = 0) (named : wordAt c.data 4 = who.word)
      (owed : s.withdrawalCredit who ≠ 0) :
      Effect s (.payout who (s.withdrawalCredit who))
        ((s.setWithdrawalCredit who 0).emit (.withdrawn who (s.withdrawalCredit who)))
  | claimFee {who} (selects : Selects c .claimFee) (free : c.value = 0) (named : wordAt c.data 4 = who.word)
      (owed : s.feeCredit who ≠ 0) :
      Effect s (.payout who (s.feeCredit who)) ((s.setFeeCredit who 0).emit (.feePaid who (s.feeCredit who)))
  | view {out} (free : c.value = 0) : Effect s (.returned out) s

theorem verifyProofOnly_ok {v : Variant} {sp : Spend} {s t : State} :
    verifyProofOnly d v sp s = .ok ((), t) ↔
      sp.nf1 ≠ 0 ∧ sp.nf2 ≠ 0 ∧ Valid v.domain sp ∧ d.verify sp.verifierCall = true ∧ t = s := by
  rw [verifyProofOnly, throwIf_bind, error_or_ok, verifyProof_ok, not_or, and_assoc]

private theorem view_of_body {m : Method} {reply : Reply} {s t : State} (view : Method.View m)
    (returned : body d (Logic.variant d) c m s = .ok (reply, t)) : ∃ out, reply = .returned out ∧ t = s := by
  cases m with
  | shield => exact view.elim
  | transfer => exact view.elim
  | withdraw => exact view.elim
  | claimWithdrawal => exact view.elim
  | claimFee => exact view.elim
  | verifyProofOnly =>
    obtain ⟨_, mid, checked, rest⟩ := bind_eq_ok.mp returned
    obtain ⟨-, -, -, -, rfl⟩ := (verifyProofOnly_ok d).mp checked
    cases rest
    exact ⟨_, rfl, rfl⟩
  | withdrawalCredit | feeCredit | ctxFor =>
    obtain ⟨who, mid, arg, rest⟩ := bind_eq_ok.mp returned
    obtain ⟨-, rfl⟩ := (addressArg_ok c).mp arg
    cases rest
    exact ⟨_, rfl, rfl⟩
  | filledSubtrees =>
    simp only [body, revertIf_bind, error_or_ok] at returned
    obtain ⟨-, rest⟩ := returned
    cases rest
    exact ⟨_, rfl, rfl⟩
  | _ =>
    cases returned
    exact ⟨_, rfl, rfl⟩

/-- Every call that returns is one of these. -/
theorem effect_of_call {reply : Reply} {s t : State} (returned : Logic.call d c s = .ok (reply, t)) :
    Effect d c s reply t := by
  obtain ⟨m, selects, free, long, ran⟩ := (dispatch_ok d c).mp returned
  by_cases view : Method.View m
  · obtain ⟨out, rfl, rfl⟩ := view_of_body d c view ran
    exact .view (free (by cases m <;> first | rfl | exact view.elim))
  cases m with
  | shield =>
    obtain ⟨index, mid, stored, rest⟩ := bind_eq_ok.mp ran
    simp only [shield_eq, error_or_ok, Except.ok.injEq, Prod.mk.injEq] at stored
    obtain ⟨positive, small, canonical, fresh, room, -, rfl, rfl⟩ := stored
    cases rest
    exact .shield selects positive (BitVec.not_le.mp small) (BitVec.not_le.mp canonical) fresh (Nat.not_le.mp room)
  | transfer =>
    obtain ⟨_, mid, kept, rest⟩ := bind_eq_ok.mp ran
    obtain ⟨amount, ctx, payer, authenticated, fits, rfl⟩ := (transfer_ok d c).mp kept
    cases rest
    exact .transfer selects (free rfl) long amount ctx authenticated fits
  | withdraw =>
    obtain ⟨recipient, mid, arg, rest⟩ := bind_eq_ok.mp ran
    obtain ⟨-, rfl⟩ := (addressArg_ok c).mp arg
    obtain ⟨_, after, kept, last⟩ := bind_eq_ok.mp rest
    obtain ⟨amount, -, named, payer, authenticated, fits, credit, rfl⟩ := (withdraw_ok d c).mp kept
    cases last
    exact .withdraw selects (free rfl) long amount named authenticated fits credit
  | claimWithdrawal =>
    obtain ⟨who, mid, arg, rest⟩ := bind_eq_ok.mp ran
    obtain ⟨named, rfl⟩ := (addressArg_ok c).mp arg
    obtain ⟨owed, rfl, rfl⟩ := claimWithdrawal_ok.mp rest
    exact .claimWithdrawal selects (free rfl) named owed
  | claimFee =>
    obtain ⟨who, mid, arg, rest⟩ := bind_eq_ok.mp ran
    obtain ⟨named, rfl⟩ := (addressArg_ok c).mp arg
    obtain ⟨owed, rfl, rfl⟩ := claimFee_ok.mp rest
    exact .claimFee selects (free rfl) named owed
  | _ => exact absurd trivial view

end ShieldedPool.Proofs
