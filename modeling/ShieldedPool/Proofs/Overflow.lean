import ShieldedPool.Proofs.Jobs
import ShieldedPool.Proofs.Panic
import ShieldedPool.Proofs.Twin

/-! Where the hand-written Yul pool and the Solidity settlement differ: exactly on the settlements
that overflow a credit. The Solidity code panics there, and the Yul code adds and goes on. -/

namespace ShieldedPool.Proofs.Overflow
open Evm Yul PoolYul Exec Layout
open ShieldedPool.Monolith (World Image environment)
open ShieldedPool.Proofs.Twin (Mirrors Ordinary place credit_wraps due_iff needArgs_iff place_mirrors recordLeaves_mirrors publishRoot_mirrors
  spendCheck_mirrors addrArg_mirrors dispatch_selected)

variable {α β : Type} {d : Deployment} {image : Image} {c : Call} {s t : State} {m : Machine World}

/-- Where the Solidity program returns, so does the Yul one. -/
theorem ok_of_mirrors {values : α → β → Prop} {x : Program World α} {y : Exec State β} (same : Mirrors values x y) (tracks : Tracks m s)
    {b : β} (returned : y s = .ok (b, t)) : ∃ a m', x m = .ok (a, m') ∧ values a b ∧ Tracks m' t := by
  have agreed := same m s tracks
  rw [returned] at agreed
  cases ran : x m with
  | error data =>
    rw [ran] at agreed
    exact agreed.elim
  | ok pair =>
    rw [ran] at agreed
    exact ⟨pair.1, pair.2, rfl, agreed⟩

theorem loads_run (env : Env) (offset : Nat) (f : Word → Program World α) :
    (Monolith.calldataload env offset >>= f) m = f (wordAt env.data offset) m := rfl

/-- A check of the Yul code that passes. -/
theorem failIf_passes {selector condition : Word} (passes : ¬ condition ≠ 0) : (failIf selector condition : Program World Unit) m = .ok ((), m) := by
  rw [failIf_eq]
  exact revertIf_neg passes _ _

variable (image)

theorem needArgs_passes (ordinary : Ordinary c) (selector : 4 ≤ c.data.length) {count : Word} (long : 4 + count.toNat ≤ c.data.length) :
    Monolith.needArgs (environment d image c) count m = .ok ((), m) :=
  revertIf_neg (fun short => Nat.not_lt.mpr long ((needArgs_iff (environment d image c) selector ordinary.data count).mp short)) _ _

/-- The fee reaches the credit of a payer other than the pool, whatever is there. -/
theorem fee_wraps (c : Call) (payer : Address) (fee : Word) (tracks : Tracks m s) :
    ∃ m', Exec.when (Op.and (Op.iszero (Op.eq payer.word (environment d image c).address.word)) (Op.iszero (Op.iszero fee)) ≠ 0) (do
        let loc ← Monolith.mapSlot payer.word 25
        let found ← Monolith.sload loc
        Monolith.sstore loc (found + fee)
        Monolith.emitAmount Monolith.feeCreditedTopic payer.word fee : Program World Unit) m = .ok ((), m') ∧
      Tracks m' (credited d s payer fee) := by
  rw [when_apply, credited]
  by_cases due : fee ≠ 0 ∧ payer ≠ d.self
  · rw [if_pos ((due_iff d image c payer fee).mpr due), if_pos due]
    exact credit_wraps _ (.feeCredited payer fee) (fun s => storage_feeCredit s payer) (fun s total => put_feeCredit s payer total) rfl
      (fun _ _ => rfl) tracks
  · rw [if_neg (mt (due_iff d image c payer fee).mp due), if_neg due]
    exact ⟨m, rfl, tracks⟩

section
variable {payer : Address} (ordinary : Ordinary c) (room : ¬ Overflows s {(Spend.decode c.data 4).outCm1, (Spend.decode c.data 4).outCm2})
  (published : c.publishes (publication (newRoot d c s (Spend.decode c.data 4))) = true)
include ordinary room published

/-- `settle` does what `_settle` does, with a fee that is added without a check. -/
theorem settle_wraps (tracks : Tracks m (noted s (Spend.decode c.data 4))) :
    ∃ m', Monolith.settle (environment d image c) c.publishes 4 payer.word m = .ok ((), m') ∧
      Tracks m' (settled d c s (Spend.decode c.data 4) payer) := by
  have fresh : ¬ Overflows (noted s (Spend.decode c.data 4)) {(Spend.decode c.data 4).outCm1, (Spend.decode c.data 4).outCm2} := room
  obtain ⟨first, second⟩ := not_or.mp (mt (overflows_iff d ..).mpr fresh)
  have places (cm : Word) : Mirrors Twin.Placed (place (environment d image c) cm) (insertNew d cm) := place_mirrors cm
  obtain ⟨placed1, m1, ran1, same1, tracks1⟩ := ok_of_mirrors (places _) tracks (insertNew_ok d fun new => Nat.not_le.mp fun full => first ⟨new, full⟩)
  obtain ⟨placed2, m2, ran2, same2, tracks2⟩ := ok_of_mirrors (places _) tracks1 (insertNew_ok d fun new => Nat.not_le.mp fun full => second ⟨new, full⟩)
  have records := @recordLeaves_mirrors d image c ordinary.number (Spend.decode c.data 4).outCm1 (Spend.decode c.data 4).outCm2 _ _ _ _ same1 same2
  obtain ⟨_, m3, ran3, -, tracks3⟩ := ok_of_mirrors records tracks2 (recordLeaves_eq d c _ _ _)
  obtain ⟨_, m4, ran4, -, tracks4⟩ := ok_of_mirrors publishRoot_mirrors tracks3 ((publishRoot_eq c _).trans (if_neg (ne_false_of_eq_true published)))
  obtain ⟨m5, ran5, tracks5⟩ := fee_wraps image c payer (Spend.decode c.data 4).fee tracks4
  refine ⟨m5, ?_, tracks5⟩
  rw [Twin.settle_eq]
  simp only [Monolith.calldataload, pure_bind]
  change (place (environment d image c) (Spend.decode c.data 4).outCm1 >>= _) m = _
  rw [bind_ok ran1]
  change (place (environment d image c) (Spend.decode c.data 4).outCm2 >>= _) m1 = _
  rw [bind_ok ran2]
  refine (bind_ok ran3).trans ?_
  exact (bind_ok ran4).trans ran5

variable (authenticated : Authenticated d c (Spend.decode c.data 4) payer) (tracks : Tracks m s)
include authenticated tracks

theorem spend_wraps : ∃ m1 m2, Monolith.spendCheck (environment d image c) 4 m = .ok (payer.word, m1) ∧
    Monolith.settle (environment d image c) c.publishes 4 payer.word m1 = .ok ((), m2) ∧
    Tracks m2 (settled d c s (Spend.decode c.data 4) payer) := by
  obtain ⟨_, m1, ran, rfl, tracks1⟩ := ok_of_mirrors (spendCheck_mirrors ordinary 4) tracks ((spend_logic d c).mpr ⟨authenticated, rfl⟩)
  obtain ⟨m2, settled, tracks2⟩ := settle_wraps image ordinary room published tracks1
  exact ⟨m1, m2, ran, settled, tracks2⟩

theorem transfer_wraps (selects : Selects c .transfer) (long : 548 ≤ c.data.length) (amount : (Spend.decode c.data 4).publicAmount = 0)
    (ctx : (Spend.decode c.data 4).ctx = 0) : ∃ m', Monolith.transfer (environment d image c) c.publishes m = .ok (.returned [], m') ∧
      Tracks m' (outcome d c s (Spend.decode c.data 4) payer) := by
  obtain ⟨m1, m2, spent, settled, tracks2⟩ := spend_wraps image ordinary room published authenticated tracks
  have passes : Monolith.needArgs (environment d image c) 544 m = .ok ((), m) := needArgs_passes image ordinary selects.1 long
  have shape : ¬ Op.or (Op.iszero (Op.iszero (Spend.decode c.data 4).publicAmount)) (Op.iszero (Op.iszero (Spend.decode c.data 4).ctx)) ≠ 0 := by
    rw [amount, ctx]
    decide
  rw [outcome, if_pos amount]
  refine ⟨m2, ?_, tracks2⟩
  rw [Monolith.transfer, bind_ok passes, loads_run, loads_run]
  refine (bind_ok (failIf_passes shape)).trans ?_
  rw [bind_ok spent, bind_ok settled]
  rfl

theorem withdraw_wraps (selects : Selects c .withdraw) (long : 580 ≤ c.data.length) (amount : (Spend.decode c.data 4).publicAmount ≠ 0)
    (nonzero : (Spend.decode c.data 4).ctx ≠ 0) (clean : Address.Clean (Spend.decode c.data 4).ctx)
    (named : wordAt c.data 548 = (Spend.decode c.data 4).ctx) :
    ∃ m', Monolith.withdraw (environment d image c) c.publishes m = .ok (.returned [], m') ∧
      Tracks m' (outcome d c s (Spend.decode c.data 4) payer) := by
  have passes : Monolith.needArgs (environment d image c) 576 m = .ok ((), m) := needArgs_passes image ordinary selects.1 long
  have recipient : addressArg c 548 s = .ok (Address.ofWord (Spend.decode c.data 4).ctx, s) :=
    (addressArg_ok c).mpr ⟨named.trans (Address.word_ofWord clean).symm, rfl⟩
  obtain ⟨_, m0, arg, rfl, tracks0⟩ := ok_of_mirrors (@addrArg_mirrors d image c 548) tracks recipient
  obtain ⟨m1, m2, spent, settled, tracks2⟩ := spend_wraps image ordinary room published authenticated tracks0
  have shape : ¬ Op.or (Op.iszero (Spend.decode c.data 4).publicAmount) (Op.iszero (Spend.decode c.data 4).ctx) ≠ 0 := by
    rw [Op.or_ne_zero, Op.iszero_ne_zero, Op.iszero_ne_zero]
    exact not_or.mpr ⟨amount, nonzero⟩
  have own : ¬ Op.iszero (Op.eq (Spend.decode c.data 4).ctx (Monolith.ctxFor (Address.ofWord (Spend.decode c.data 4).ctx).word)) ≠ 0 := by
    rw [Op.iszero_eq_ne_zero, Monolith.ctxFor, Op.and_addressMask, Address.ofWord_word, Address.word_ofWord clean]
    exact not_not.mpr rfl
  obtain ⟨m3, paid, tracks3⟩ := credit_wraps (a := Address.ofWord (Spend.decode c.data 4).ctx) (Spend.decode c.data 4).publicAmount
    (.withdrawalCredited _ _) (fun s => storage_withdrawalCredit s _) (fun s total => put_withdrawalCredit s _ total) rfl (fun _ _ => rfl) tracks2
  rw [withdrawalCredit_settled] at tracks3
  rw [outcome, if_neg amount]
  refine ⟨m3, ?_, tracks3⟩
  rw [Monolith.withdraw, bind_ok passes, bind_ok arg, loads_run, loads_run]
  refine (bind_ok (failIf_passes shape)).trans ?_
  refine (bind_ok (failIf_passes own)).trans ?_
  rw [bind_ok spent, bind_ok settled]
  have whole : ((do
      let loc ← Monolith.mapSlot (Address.ofWord (Spend.decode c.data 4).ctx).word 24
      let found ← Monolith.sload loc
      Monolith.sstore loc (found + (Spend.decode c.data 4).publicAmount)
      Monolith.emitAmount _ (Address.ofWord (Spend.decode c.data 4).ctx).word (Spend.decode c.data 4).publicAmount) >>= fun _ => Monolith.stop) m2 =
      .ok (.returned [], m3) := bind_ok paid
  simp only [bind_assoc] at whole
  exact whole

theorem dispatch_wraps (settles : SettlementCall c) (free : c.value = 0) :
    ∃ m', Monolith.dispatch (environment d image c) c.publishes m = .ok (.returned [], m') ∧ Tracks m' (outcome d c s (Spend.decode c.data 4) payer) := by
  have unpaid (n : Method) : ¬ ((environment d image c).value ≠ 0 ∧ Op.iszero (Op.eq n.selector Method.shield.selector) ≠ 0) :=
    fun paid => paid.1 free
  cases settles with
  | transfer selects long amount ctx =>
    rw [dispatch_selected (environment d image c) c.publishes selects.2, bind_ok (revertIf_neg (unpaid _) _ _)]
    exact transfer_wraps image ordinary room published authenticated tracks selects long amount ctx
  | withdraw selects long amount nonzero clean named =>
    rw [dispatch_selected (environment d image c) c.publishes selects.2, bind_ok (revertIf_neg (unpaid _) _ _)]
    exact withdraw_wraps image ordinary room published authenticated tracks selects long amount nonzero clean named

end

end ShieldedPool.Proofs.Overflow

namespace ShieldedPool.Proofs
open Evm Exec
open ShieldedPool.Monolith (World Image environment)
open ShieldedPool.Proofs.Layout (worldOf)

variable {d : Deployment} {image : Image} {c : Call} {s : State}

/-- Where the Solidity code panics, the Yul code returns, with the sums that overflow left modulo
2^256. -/
theorem monolith_wraps (image : Image) (room : s.nextIndex ≤ 2 ^ depth) (ordinary : Twin.Ordinary c) {payer : Address} (excess : Excess d c s payer) :
    Monolith.call d image c (worldOf s) = .ok (.returned [], worldOf (outcome d c s (Spend.decode c.data 4) payer)) := by
  obtain ⟨m, ran, pictures, -⟩ := Overflow.dispatch_wraps (m := Yul.Machine.start (worldOf s)) (s := s) image ordinary excess.room
    excess.published excess.authenticated ⟨rfl, room⟩ excess.settles excess.free
  rw [Monolith.call, ran]
  exact congrArg (fun world => Except.ok (Reply.returned [], world)) pictures

variable (d image c s) in
/-- The two pools answer a call alike, with the same storage, logs and publications after it, and
end its payout alike. -/
def AnswersAlike : Prop :=
  Monolith.call d image c (worldOf s) = (Logic.call d c s).map (Prod.map id worldOf) ∧ Monolith.resume = finishClaim

theorem answersAlike_of_fits (reachable : Reachable d s) (ordinary : Twin.Ordinary c) (plain : ¬ ReadsSender c)
    (fits : ¬ ∃ payer, Excess d c s payer) : AnswersAlike d image c s := by
  refine ⟨Twin.call_mirrors ordinary plain (room_of_reachable reachable) (mt panics_iff.mp fits), ?_⟩
  funext accepted
  cases accepted <;> rfl

theorem not_answersAlike_of_excess (reachable : Reachable d s) (ordinary : Twin.Ordinary c) {payer : Address} (excess : Excess d c s payer) :
    ¬ AnswersAlike d image c s := by
  intro alike
  have panics : Logic.call d c s = .error arithmeticPanic := panics_iff.mpr ⟨payer, excess⟩
  have same := alike.1
  rw [panics, monolith_wraps image (room_of_reachable reachable) ordinary excess] at same
  cases same

/-- The Yul pool and the Solidity settlement answer a call with data alike, unless it is a
settlement that `_spend` lets through and that overflows a credit. -/
theorem standalone_alike_iff (image : Image) (reachable : Reachable d s) (_nonempty : c.data ≠ []) (ordinary : Twin.Ordinary c)
    (plain : ¬ ReadsSender c) : AnswersAlike d image c s ↔ ¬ ∃ payer, Excess d c s payer :=
  ⟨fun alike ⟨_, excess⟩ => not_answersAlike_of_excess reachable ordinary excess alike, answersAlike_of_fits reachable ordinary plain⟩

/-- The settlement after an approval is an ordinary call. -/
theorem ordinary_of_approved {tx : FrameTx} {scope : Word} {f : Frame} {sp : Spend} (approved : Approved d tx scope f sp) {payer : Address}
    (nonzero : payer.word ≠ 0) {b : Block} (number : b.number.toNat < 2 ^ 64) : Twin.Ordinary (settleCall tx f payer b) := by
  obtain ⟨ret, answer, size, bound, -⟩ := probe_of_approved approved nonzero
  have same {other : Bytes} (answered : (settleCall tx f payer b).probe = some other) : other = ret :=
    Option.some.inj (answered.symm.trans answer)
  refine ⟨?_, number, fun other answered => ?_, fun other answered => ?_⟩
  · have length : f.data.length ≤ 580 := by
      rcases approved.call with ⟨size, -⟩ | ⟨size, -⟩
      · omega
      · omega
    exact length.trans_lt (by decide)
  · rw [same answered, size]
    decide
  · rw [same answered, bound.target]
    exact Address.word_clean _

theorem plain_of_settlement (settles : SettlementCall c) : ¬ ReadsSender c := by
  rintro ⟨-, sender⟩
  cases settles with
  | transfer selects => exact absurd (selects.2.symm.trans sender) (by decide)
  | withdraw selects => exact absurd (selects.2.symm.trans sender) (by decide)

end ShieldedPool.Proofs

namespace ShieldedPool.Proofs.TwoSpends
open Evm Wallet.TwoSpends

theorem ordinary_settlement : Twin.Ordinary settlement := ordinary_of_approved withdrawal_spends.approved (by decide) (by decide)

theorem plain_settlement : ¬ ReadsSender settlement := plain_of_settlement (settles_of_approved withdrawal_spends.approved)

theorem settlement_returns {s : State} (room : ¬ Overflows s (outputsOf withdrawal)) (credits : CreditsFit deployment s withdrawal deployment.self) :
    Logic.call deployment settlement s = .ok (.returned [], outcome deployment settlement s withdrawal deployment.self) := by
  have spends : Logic.call deployment settlement s = settleRest deployment settlement withdrawal deployment.self (noted s withdrawal) :=
    settlement_eq withdrawal_spends.approved (by decide)
  exact spends.trans (settleRest_fits deployment settlement room rfl credits)

theorem room_of_few {s : State} (few : s.nextIndex + (freshOutputs s (outputsOf withdrawal)).card ≤ 3) : ¬ Overflows s (outputsOf withdrawal) := by
  intro full
  have capacity : 3 < 2 ^ ShieldedPool.depth := by decide
  have excess := full.2
  omega

/-- The withdrawal settled as often as its amounts fit the credit of their recipient. -/
theorem settled_repeatedly (n : Nat) (fits : n * 50000000000000000 < 2 ^ 256) :
    ∃ s, Reachable deployment s ∧ s.nextIndex + (freshOutputs s (outputsOf withdrawal)).card ≤ 3 ∧
      (s.withdrawalCredit 0xcc).toNat = n * 50000000000000000 := by
  induction n with
  | zero =>
    have few : (freshOutputs funded.pool (outputsOf withdrawal)).card ≤ 2 := (Finset.card_filter_le _ _).trans Finset.card_le_two
    have index : funded.pool.nextIndex = 1 := rfl
    have blank : (funded.pool.withdrawalCredit 0xcc).toNat = 0 := rfl
    exact ⟨funded.pool, reachable, by omega, blank.trans (Nat.zero_mul _).symm⟩
  | succ n ih =>
    obtain ⟨s, reached, few, credit⟩ := ih ((Nat.mul_le_mul_right _ n.le_succ).trans_lt fits)
    have recipient : Address.ofWord withdrawal.ctx = 0xcc := by decide
    have amount : withdrawal.publicAmount.toNat = 50000000000000000 := rfl
    have room := room_of_few few
    have credits : CreditsFit deployment s withdrawal deployment.self := by
      refine ⟨fun due => absurd rfl due.2, ?_⟩
      rw [recipient, credit, amount]
      omega
    obtain ⟨index, leaves, -, withdrawals⟩ := outcome_fields deployment settlement s withdrawal deployment.self
    refine ⟨_, .call reached (settlement_returns room credits), ?_, ?_⟩
    · have none : freshOutputs (outcome deployment settlement s withdrawal deployment.self) (outputsOf withdrawal) = ∅ := by
        apply Finset.filter_eq_empty_iff.mpr
        intro cm member
        rw [outputsOf, Finset.mem_insert, Finset.mem_singleton] at member
        exact ne_false_of_eq_true ((leaves cm).mpr (.inl member))
      rw [none, index]
      exact few
    · have spends : withdrawal.publicAmount ≠ 0 := by decide
      rw [withdrawals, withdrawalCreditAfter, if_neg spends, recipient, Function.update_self, BitVec.toNat_add, credit, amount,
        Nat.mod_eq_of_lt (by omega)]
      omega

end ShieldedPool.Proofs.TwoSpends

namespace ShieldedPool.Proofs
open Evm Wallet.TwoSpends
open ShieldedPool.Proofs.Layout (worldOf)

/-- The first time it is settled, both pools return with the same effects. -/
theorem standalone_alike_iff_twoSpends :
    Monolith.call TwoSpends.deployment ⟨[], 0xa1#160, 0xa2#160⟩ TwoSpends.settlement (worldOf TwoSpends.funded.pool) =
      .ok (.returned [], worldOf (outcome TwoSpends.deployment TwoSpends.settlement TwoSpends.funded.pool TwoSpends.withdrawal
        TwoSpends.deployment.self)) := by
  have few : (freshOutputs TwoSpends.funded.pool (outputsOf TwoSpends.withdrawal)).card ≤ 2 :=
    (Finset.card_filter_le _ _).trans Finset.card_le_two
  have index : TwoSpends.funded.pool.nextIndex = 1 := rfl
  have fee (payer : Address) : TwoSpends.funded.pool.feeCredit payer = 0 := rfl
  have withdrawal (a : Address) : TwoSpends.funded.pool.withdrawalCredit a = 0 := rfl
  have fits (payer : Address) : CreditsFit TwoSpends.deployment TwoSpends.funded.pool TwoSpends.withdrawal payer := by
    refine ⟨fun _ => ?_, ?_⟩
    · rw [fee]
      decide
    · rw [withdrawal]
      decide
  have decoded : Spend.decode TwoSpends.settlement.data 4 = TwoSpends.withdrawal := TwoSpends.withdrawal_spends.approved.spend.symm
  have alike := (standalone_alike_iff ⟨[], 0xa1#160, 0xa2#160⟩ TwoSpends.reachable (by decide) TwoSpends.ordinary_settlement
    TwoSpends.plain_settlement).mpr fun ⟨payer, excess⟩ => excess.credits (decoded ▸ fits payer)
  rw [alike.1, TwoSpends.settlement_returns (TwoSpends.room_of_few (by omega)) (fits _)]
  rfl

/-- Settled once more after that, the Solidity code panics, and the Yul code leaves the recipient
a credit below the amount of one withdrawal. -/
theorem standalone_differs_on_overflow : ∃ s, Reachable TwoSpends.deployment s ∧
    (s.withdrawalCredit 0xcc).toNat = 2315841784746323908471419700173758157065399693312811280789151 * 50000000000000000 ∧
    TwoSpends.settlement.data ≠ [] ∧ Twin.Ordinary TwoSpends.settlement ∧ ¬ ReadsSender TwoSpends.settlement ∧
    Logic.call TwoSpends.deployment TwoSpends.settlement s = .error arithmeticPanic ∧
    (∃ t, Monolith.call TwoSpends.deployment ⟨[], 0xa1#160, 0xa2#160⟩ TwoSpends.settlement (worldOf s) = .ok (.returned [], worldOf t) ∧
      (t.withdrawalCredit 0xcc).toNat < 50000000000000000) ∧
    ¬ AnswersAlike TwoSpends.deployment ⟨[], 0xa1#160, 0xa2#160⟩ TwoSpends.settlement s := by
  obtain ⟨s, reached, few, credit⟩ := TwoSpends.settled_repeatedly 2315841784746323908471419700173758157065399693312811280789151 (by decide)
  have approved := TwoSpends.withdrawal_spends.approved
  have decoded : Spend.decode TwoSpends.settlement.data 4 = TwoSpends.withdrawal := approved.spend.symm
  have recipient : Address.ofWord TwoSpends.withdrawal.ctx = 0xcc := by decide
  have amount : TwoSpends.withdrawal.publicAmount.toNat = 50000000000000000 := rfl
  have excess : Excess TwoSpends.deployment TwoSpends.settlement s TwoSpends.deployment.self := by
    refine ⟨settles_of_approved approved, rfl, ?_, ?_, rfl, fun credits => ?_⟩
    · rw [decoded]
      exact authenticated_of_approved approved (by decide)
    · rw [decoded]
      exact TwoSpends.room_of_few few
    · have fits := credits.withdrawal
      rw [decoded, recipient, credit, amount] at fits
      exact absurd fits (by decide)
  have wraps := monolith_wraps ⟨[], 0xa1#160, 0xa2#160⟩ (room_of_reachable reached) TwoSpends.ordinary_settlement excess
  refine ⟨s, reached, credit, by decide, TwoSpends.ordinary_settlement, TwoSpends.plain_settlement, panics_iff.mpr ⟨_, excess⟩, ⟨_, wraps, ?_⟩,
    not_answersAlike_of_excess reached TwoSpends.ordinary_settlement excess⟩
  obtain ⟨-, -, -, withdrawals⟩ := outcome_fields TwoSpends.deployment TwoSpends.settlement s TwoSpends.withdrawal TwoSpends.deployment.self
  have spends : TwoSpends.withdrawal.publicAmount ≠ 0 := by decide
  rw [decoded, withdrawals, withdrawalCreditAfter, if_neg spends, recipient, Function.update_self, BitVec.toNat_add, credit, amount]
  decide

end ShieldedPool.Proofs
