import ShieldedPool.Proofs.Builder
import ShieldedPool.Proofs.Payout
import ShieldedPool.Wallet

/-! A transaction together with what frame 0 finds in it: when it can be executed by itself, and
what it leaves once it has settled. -/

namespace ShieldedPool.Proofs
open Evm Exec
open Tooling (SettleData spendTx selfPaidTx sponsoredTx carrier approveFrame carrierFrame settlementFrame)

variable {d : Deployment} {image : Dispatcher.Image} {outside : Outside d.self} {chain : Chain State} {s : State}

def outputsOf (sp : ShieldedPool.Spend) : Finset Word := {sp.outCm1, sp.outCm2}

/-- The nonce keys are the nullifiers. -/
theorem mem_keys {sp : ShieldedPool.Spend} {key : Word} : key ∈ [sp.lo, sp.hi] ↔ key ∈ ({sp.nf1, sp.nf2} : Finset Word) := by
  rw [ShieldedPool.Spend.lo, ShieldedPool.Spend.hi, Finset.mem_insert, Finset.mem_singleton, List.mem_pair]
  split_ifs
  · exact or_comm
  · exact Iff.rfl

/-- A frame transaction, and what frame 0 finds in it. -/
structure Job where
  tx : FrameTx
  scope : Word
  payer : Address
  frame : Frame
  spend : ShieldedPool.Spend

namespace Job
variable (d image outside chain) in
/-- Frame 0 approves the transaction, against a root the pool has published, and its payer can pay. -/
structure Spends (j : Job) : Prop where
  ready : Ready d image outside chain j.tx j.scope j.payer
  approved : Approved d j.tx j.scope j.frame j.spend
  nonzero : j.payer.word ≠ 0

/-- The gas that an account is charged for the transaction. -/
def gas (j : Job) (refund : Nat) (a : Address) : Nat := if a = j.payer then j.tx.maxCost.toNat - refund else 0

/-- The observations of the transaction by itself. -/
def Shows (j : Job) (refund : Nat) (shown : List Observation) : Prop :=
  ∃ c result, (∀ data, c.publishes data = true) ∧ shown = script j.tx j.scope j.payer c result refund

/-- The transaction the tooling builds for a spend that the pool pays for. -/
def selfPaid (d : Deployment) {sp : ShieldedPool.Spend} {data : Bytes} (settles : SettleData sp data) (slot maxCost : Word) : Job where
  tx := selfPaidTx settles slot maxCost d
  scope := 3
  payer := d.self
  frame := settlementFrame d settles
  spend := sp

/-- The same with a paymaster's frame before the one that settles. -/
def sponsored (d : Deployment) {sp : ShieldedPool.Spend} {data : Bytes} (settles : SettleData sp data) (slot maxCost : Word) (pm : Address) :
    Job where
  tx := sponsoredTx settles slot maxCost d pm
  scope := 2
  payer := pm
  frame := settlementFrame d settles
  spend := sp

section Built
variable {sp : ShieldedPool.Spend} {data : Bytes} (settles : SettleData sp data) (slot : Word) {maxCost : Word}

theorem approved_spendTx {verify : List Frame} {few : verify.length ≤ 2} {scope : Word}
    (granted : Granted d ((spendTx d settles verify few slot maxCost).opcodes 0 none) scope) :
    Approved d (spendTx d settles verify few slot maxCost) scope (settlementFrame d settles) sp := by
  have nonempty : 0 < (spendTx d settles verify few slot maxCost).frames.length := by simp [spendTx]
  obtain ⟨-, f, other, approved⟩ := approved_of_granted nonempty granted
  have last := getLast_of_approved approved
  rw [lastIndex, ← List.getLast?_eq_getElem?, spendTx, List.getLast?_concat] at last
  obtain rfl := Option.some.inj last
  obtain rfl : other = sp := approved.spend.trans settles.decode
  exact approved

theorem approved_selfPaid (proven : Proven d sp) (covered : maxCost ≤ sp.fee) :
    Granted d ((selfPaid d settles slot maxCost).tx.opcodes 0 none) 3 ∧
      Approved d (selfPaid d settles slot maxCost).tx 3 (settlementFrame d settles) sp := by
  have granted := (Tooling.granted_selfPaid settles slot maxCost none).mpr ⟨proven, covered⟩
  exact ⟨granted, approved_spendTx settles slot granted⟩

theorem admissible_spendTx {verify : List Frame} {few : verify.length ≤ 2} (distinct : sp.nf1 ≠ sp.nf2)
    (rooted : sp.root ∈ chain.pool.published) (fresh : ∀ key ∈ ({sp.nf1, sp.nf2} : Finset Word), key ∉ chain.consumed) :
    Admissible (dispatcherNetwork d image outside) chain (spendTx d settles verify few slot maxCost) where
  ordered := List.pairwise_pair.mpr (Tooling.lo_lt_hi distinct)
  fresh _ _ key member := fresh key (mem_keys.mp member)
  rooted r member _ := by
    obtain rfl := List.mem_singleton.mp member
    exact rooted

/-- Frame 0 approves it for any proven tuple of unused notes whose fee covers it. -/
theorem spends_selfPaid (proven : Proven d sp) (distinct : sp.nf1 ≠ sp.nf2) (covered : maxCost ≤ sp.fee)
    (rooted : sp.root ∈ chain.pool.published) (fresh : ∀ key ∈ ({sp.nf1, sp.nf2} : Finset Word), key ∉ chain.consumed)
    (funds : maxCost.toNat ≤ chain.eth d.self) (nonzero : d.self.word ≠ 0) :
    (selfPaid d settles slot maxCost).Spends d image outside chain := by
  obtain ⟨granted, approved⟩ := approved_selfPaid settles slot proven covered
  have admissible : Admissible (dispatcherNetwork d image outside) chain (spendTx d settles [approveFrame d 3 350000] (Nat.le_succ 1) slot maxCost) :=
    admissible_spendTx settles slot distinct rooted fresh
  exact ⟨⟨admissible, granted, .pool, funds⟩, approved, nonzero⟩

/-- With an account whose code approves payment for it, it need not be covered. -/
theorem spends_sponsored {pm : Address} (proven : Proven d sp) (distinct : sp.nf1 ≠ sp.nf2) (rooted : sp.root ∈ chain.pool.published)
    (fresh : ∀ key ∈ ({sp.nf1, sp.nf2} : Finset Word), key ∉ chain.consumed) (funds : maxCost.toNat ≤ chain.eth pm)
    (nonzero : pm.word ≠ 0) (other : pm ≠ d.self)
    (approves : outside.approves pm ((sponsoredTx settles slot maxCost d pm).opcodes 1 none) (carrier sp) 1) :
    (sponsored d settles slot maxCost pm).Spends d image outside chain := by
  have granted := (Tooling.granted_sponsored settles slot maxCost none pm).mpr proven
  have paying : PaidBy d outside.approves (sponsoredTx settles slot maxCost d pm) 2 (carrierFrame pm sp).target :=
    .sponsor rfl other approves
  have admissible : Admissible (dispatcherNetwork d image outside) chain
      (spendTx d settles [approveFrame d 2 300000, carrierFrame pm sp] (Nat.le_refl 2) slot maxCost) :=
    admissible_spendTx settles slot distinct rooted fresh
  exact ⟨⟨admissible, granted, paying, funds⟩, approved_spendTx settles slot granted, nonzero⟩

end Built

end Job

/-- A settlement is no deposit. -/
theorem other_of_approved {tx : FrameTx} {scope : Word} {f : Frame} {sp : ShieldedPool.Spend} (approved : Approved d tx scope f sp)
    {payer : Address} {b : Block} : ¬ Selects (settleCall tx f payer b) .shield := by
  intro selects
  rcases method_of_selects (selects_of_approved approved rfl) selects with same | same
  · cases same
  · cases same

variable {j : Job} {refund : Nat} {last : Ledger State} {history : List (Entry State)}

/-- A chain on which `j` has been paid for, whether or not it has settled. -/
structure After (d : Deployment) (chain : Chain State) (j : Job) (refund : Nat) (ch : Chain State) : Prop where
  paid : ch.paid = chain.paid ++ [j.tx]
  published : ∀ root ∈ chain.pool.published, root ∈ ch.pool.published
  eth : ch.eth = Function.update chain.eth j.payer (chain.eth j.payer - j.tx.maxCost.toNat + refund)

theorem after_of_settlement (spends : j.Spends d image outside chain) {c : Call} {result : Except Bytes Reply} {ch : Chain State}
    (ended : Settlement d (paidFor d.self j.payer j.tx chain) c j.spend j.payer result ch) :
    After d chain j refund (refunded j.payer refund ch) := by
  have paid : (paidFor d.self j.payer j.tx chain).paid = chain.paid ++ [j.tx] := if_pos spends.approved.sender
  have eth : Function.update (paidFor d.self j.payer j.tx chain).eth j.payer ((paidFor d.self j.payer j.tx chain).eth j.payer + refund) =
      Function.update chain.eth j.payer (chain.eth j.payer - j.tx.maxCost.toNat + refund) := by
    simp only [paidFor, paidChain, Function.update_idem, Function.update_self]
  cases ended with
  | full | panics => exact ⟨paid, fun _ => id, eth⟩
  | settles =>
    refine ⟨paid, fun root published => ?_, eth⟩
    change root ∈ (outcome _ _ chain.pool _ _).published
    rw [outcome]
    split_ifs
    · exact published_settled published _ _
    · exact published_settled published _ _

theorem After.small {ch : Chain State} (after : After d chain j refund ch) (bound : refund ≤ j.tx.maxCost.toNat)
    (funds : j.tx.maxCost.toNat ≤ chain.eth j.payer) (small : ∀ a, chain.eth a < 2 ^ 256) (a : Address) : ch.eth a < 2 ^ 256 := by
  rw [after.eth]
  by_cases here : a = j.payer
  · subst here
    rw [Function.update_self]
    exact lt_of_le_of_lt (by omega) (small j.payer)
  · rw [Function.update_of_ne here]
    exact small a

/-- It can be executed by itself, in a block in which the settlement's publication is accepted. -/
theorem executed_of_spends (spends : j.Spends d image outside chain) (small : ∀ a, chain.eth a < 2 ^ 256) (bound : refund ≤ j.tx.maxCost.toNat)
    {b : Block} (written : ∀ data, b.publishes data = true) :
    ∃ result history ch, Settlement d (paidFor d.self j.payer j.tx chain) (settleCall j.tx j.frame j.payer b) j.spend j.payer result ch ∧
      Run (dispatcherNetwork d image outside) ⟨chain, [], none⟩ history ⟨refunded j.payer refund ch, [], none⟩ ∧
      history.map Entry.shown = script j.tx j.scope j.payer (settleCall j.tx j.frame j.payer b) result refund ∧
      After d chain j refund (refunded j.payer refund ch) := by
  obtain ⟨result, ch, ended, executes⟩ := executes_of_ready spends.ready spends.approved spends.nonzero written
  have after : After d chain j refund (refunded j.payer refund ch) := after_of_settlement spends ended
  have room : ch.eth j.payer + refund < 2 ^ 256 := by
    have fits := after.small bound spends.ready.funds small j.payer
    have same : (refunded j.payer refund ch).eth j.payer = ch.eth j.payer + refund := Function.update_self ..
    rwa [same] at fits
  obtain ⟨history, run, shown⟩ := executes refund bound room
  exact ⟨result, history, ch, ended, run, shown, after⟩

/-- What a transaction that has settled leaves. -/
structure Done (d : Deployment) (chain : Chain State) (j : Job) (refund : Nat) (history : List (Entry State)) (last : Ledger State) : Prop where
  settles : ∀ e ∈ history, ∀ c result, e.shown = .called c result → result = .ok (.returned [])
  idle : last = ⟨last.chain, [], none⟩
  pool : ∃ c, last.chain.pool = outcome d c chain.pool j.spend j.payer
  after : After d chain j refund last.chain
  bound : refund ≤ j.tx.maxCost.toNat

/-- A transaction executed by itself that neither finds the tree full nor panics has settled. -/
theorem done_of_run (spends : j.Spends d image outside chain) (run : Run (dispatcherNetwork d image outside) ⟨chain, [], none⟩ history last)
    (shows : j.Shows refund (history.map Entry.shown)) (room : ¬ Overflows chain.pool (outputsOf j.spend))
    (calm : ∀ e ∈ history, ∀ c, e.shown ≠ .called c (.error arithmeticPanic)) : Done d chain j refund history last := by
  obtain ⟨c, result, written, shown⟩ := shows
  obtain ⟨⟨b, ch, ended, rfl⟩, bound, -⟩ := left_of_executes spends.approved spends.nonzero written spends.ready.paying ⟨history, run, shown⟩
  have only {c' : Call} {result' : Except Bytes Reply} (member : .called c' result' ∈ script j.tx j.scope j.payer c result refund) :
      result' = result := by
    rw [script] at member
    split_ifs at member <;> simp at member <;> exact member.2
  have called : .called c result ∈ history.map Entry.shown := by
    rw [shown, script]
    split_ifs <;> simp
  obtain ⟨e, inside, shows⟩ := List.mem_map.mp called
  have after : After d chain j refund (refunded j.payer refund ch) := after_of_settlement spends ended
  have returned : result = .ok (.returned []) ∧ ch.pool = outcome d (settleCall j.tx j.frame j.payer b) chain.pool j.spend j.payer := by
    cases ended with
    | full excess => exact absurd excess room
    | panics => exact absurd shows (calm e inside c)
    | settles => exact ⟨rfl, rfl⟩
  refine ⟨fun e member c' result' same => ?_, rfl, ⟨_, returned.2⟩, after, bound⟩
  have listed : e.shown ∈ script j.tx j.scope j.payer c result refund := shown ▸ List.mem_map_of_mem member
  rw [same] at listed
  exact (only listed).trans returned.1

/-- With room for its outputs and its credits, a transaction that frame 0 approves settles. -/
theorem settles_of_spends (spends : j.Spends d image outside chain) (small : ∀ a, chain.eth a < 2 ^ 256)
    (room : ¬ Overflows chain.pool (outputsOf j.spend)) (credits : CreditsFit d chain.pool j.spend j.payer) (bound : refund ≤ j.tx.maxCost.toNat)
    {b : Block} (written : ∀ data, b.publishes data = true) :
    ∃ history last, Run (dispatcherNetwork d image outside) ⟨chain, [], none⟩ history last ∧
      history.map Entry.shown = script j.tx j.scope j.payer (settleCall j.tx j.frame j.payer b) (.ok (.returned [])) refund ∧
      Done d chain j refund history last := by
  obtain ⟨result, history, ch, ended, run, shown, -⟩ := executed_of_spends spends small bound written
  have returned : result = .ok (.returned []) := by
    cases ended with
    | full excess => exact absurd excess room
    | panics excess => exact absurd credits excess
    | settles => rfl
  subst returned
  refine ⟨history, _, run, shown, done_of_run spends run ⟨_, _, written, shown⟩ room fun e member c panics => ?_⟩
  have listed : e.shown ∈ script j.tx j.scope j.payer (settleCall j.tx j.frame j.payer b) (.ok (.returned [])) refund :=
    shown ▸ List.mem_map_of_mem member
  rw [panics, script] at listed
  split_ifs at listed <;> simp at listed

theorem begun_of_shows {history : List (Entry State)} {refund : Nat} (shows : j.Shows refund (history.map Entry.shown)) {e : Entry State}
    (member : e ∈ history) {tx : FrameTx} (begun : e.shown = .begun tx) : tx = j.tx := by
  obtain ⟨c, result, -, shown⟩ := shows
  have listed : .begun tx ∈ script j.tx j.scope j.payer c result refund := shown ▸ begun ▸ List.mem_map_of_mem member
  rw [script] at listed
  split_ifs at listed <;> simpa using listed

namespace TwoSpends
open Wallet.TwoSpends

/-- A withdrawal from a deposited note, in the pool of the recorded run. -/
def withdrawal : ShieldedPool.Spend where
  root := nodes.getD depth 0
  domain := domain
  nf1 := nullifier.getD 0 0
  nf2 := nullifier.getD 1 0
  outCm1 := change
  outCm2 := leaf.getD 1 0
  publicAmount := 50000000000000000
  fee := 40000000000000000
  ctx := 0xcc
  pA := (0, 0)
  pB := ((0, 0), (0, 0))
  pC := (0, 0)

/-- A transfer of nothing by the same key, with an output of the withdrawal. -/
def transfer : ShieldedPool.Spend :=
  { withdrawal with
    root := zeroRoot
    nf1 := nullifier.getD 2 0
    nf2 := nullifier.getD 3 0
    outCm1 := leaf.getD 1 0
    outCm2 := leaf.getD 1 0
    publicAmount := 0
    fee := 0
    ctx := 0 }

def deployment : Deployment :=
  { Hegota.deployment with
    hash2 := poseidon.p2
    hash3 := poseidon.p3
    verify := fun data => data = withdrawal.verifierCall ∨ data = transfer.verifierCall }

theorem table : ZerosTable deployment := by
  have table : ∀ l, l < depth → zeros (l + 1) = poseidon.p2 (zeros l) (zeros l) := by decide +kernel
  exact table

def withdrawalJob : Job :=
  .selfPaid deployment (@SettleData.withdraw withdrawal 0xcc#160 (by decide) (by decide) rfl) 191883 10384588145384232

def transferJob : Job := .selfPaid deployment (@SettleData.transfer transfer rfl rfl) 191883 0

def start : Ledger State := launch fun _ => 10 ^ 18

def deposit : Call := start.call 0xbb#160 value (depositData (inner.getD 0 0)) Hegota.block

/-- The chain after the deposit. -/
def funded : Chain State :=
  { start.chain with
    pool := depositedIn deployment deposit genesis (inner.getD 0 0)
    eth := Chain.move (fun _ => 10 ^ 18) 0xbb#160 Hegota.address value.toNat }

theorem depositable : Depositable deployment genesis (inner.getD 0 0) value where
  positive := by decide
  small := by decide
  canonical := by decide
  fresh := Bool.noConfusion
  room := by decide

theorem deposits : Run (dispatcherNetwork deployment Hegota.image Hegota.outside) start
    [⟨.called deposit (.ok (.returned (encodeWord 0))), ⟨funded, [], none⟩⟩] ⟨funded, [], none⟩ := by
  have written (data : Bytes) : Hegota.block.publishes data = true := rfl
  have active : start.Active := fun p tx => by cases tx
  exact .step .start (step_of_deposit active trivial (by decide) depositable written ⟨by decide, fun _ => by decide⟩)

theorem leaves : leavesOf funded.pool = [leaf.getD 0 0] := by
  have cm : commitmentOf deployment (inner.getD 0 0) value = leaf.getD 0 0 := by decide +kernel
  exact congrArg (fun cm => [cm]) cm

theorem root : rootOf deployment (inserted deployment genesis (commitmentOf deployment (inner.getD 0 0) value)) = withdrawal.root := by
  decide +kernel

theorem published : funded.pool.published = [zeroRoot, withdrawal.root] := congrArg (fun root => [zeroRoot, root]) root

theorem own_domain : deployment.domain = domain := hegota_domain

theorem proven {sp : ShieldedPool.Spend} (either : sp = withdrawal ∨ sp = transfer) : Proven deployment sp := by
  have verified : deployment.verify sp.verifierCall = true :=
    decide_eq_true (either.imp (congrArg Spend.verifierCall) (congrArg Spend.verifierCall))
  rcases either with rfl | rfl
  · exact ⟨by decide, by decide, ⟨own_domain.symm, by decide, by decide, by decide⟩, verified⟩
  · exact ⟨by decide, by decide, ⟨own_domain.symm, by decide, by decide, by decide⟩, verified⟩

theorem withdrawal_spends : withdrawalJob.Spends deployment Hegota.image Hegota.outside funded := by
  refine Job.spends_selfPaid _ _ (proven (.inl rfl)) (by decide) (by decide) ?_ (fun _ _ => List.not_mem_nil) (by decide) (by decide)
  rw [published]
  exact List.mem_cons_of_mem _ List.mem_cons_self

theorem transfer_spends : transferJob.Spends deployment Hegota.image Hegota.outside funded := by
  refine Job.spends_selfPaid _ _ (proven (.inr rfl)) (by decide) (by decide) ?_ (fun _ _ => List.not_mem_nil) (by decide) (by decide)
  rw [published]
  exact List.mem_cons_self

theorem reachable : Reachable deployment funded.pool := reachable_of_run deposits

theorem small (a : Address) : funded.eth a < 2 ^ 256 := by
  change Chain.move (fun _ => 10 ^ 18) (0xbb : Address) deployment.self (100000000000000000 : Word).toNat a < 2 ^ 256
  apply lt_of_canMove
  · exact ⟨by decide, fun _ => by decide⟩
  · decide

/-- The call that settles the withdrawal. -/
def settlement : Call := settleCall withdrawalJob.tx withdrawalJob.frame deployment.self Hegota.block

/-- A ledger on which the withdrawal has settled. -/
structure Withdrawn (last : Ledger State) : Prop where
  idle : last = ⟨last.chain, [], none⟩
  leaves : leavesOf last.chain.pool = [leaf.getD 0 0, change, leaf.getD 1 0]
  credit : last.chain.pool.withdrawalCredit 0xcc = 50000000000000000
  balance : last.chain.eth 0xcc = 10 ^ 18
  funds : last.chain.eth deployment.self = 1089615411854615768

theorem settled : ∃ history last, Run (dispatcherNetwork deployment Hegota.image Hegota.outside) start history last ∧ Withdrawn last ∧
    history.map Entry.shown = .called deposit (.ok (.returned (encodeWord 0))) ::
      script withdrawalJob.tx 3 deployment.self settlement (.ok (.returned [])) 0 := by
  have none : funded.pool.withdrawalCredit = fun _ => 0 := rfl
  have room : ¬ Overflows funded.pool (outputsOf withdrawal) := by
    have few : (freshOutputs funded.pool (outputsOf withdrawal)).card ≤ 2 := (Finset.card_filter_le _ _).trans Finset.card_le_two
    have index : funded.pool.nextIndex = 1 := rfl
    rw [Overflows, index, depth]
    omega
  have credits : CreditsFit deployment funded.pool withdrawal deployment.self := ⟨fun due => absurd rfl due.2, by rw [none]; decide⟩
  obtain ⟨history, last, executed, shown, done⟩ := settles_of_spends (b := Hegota.block) withdrawal_spends small room credits (Nat.zero_le _)
    fun _ => rfl
  obtain ⟨c, pool⟩ := done.pool
  obtain ⟨-, -, -, withdrawals⟩ := outcome_fields deployment c funded.pool withdrawal deployment.self
  have pool : last.chain.pool = outcome deployment c funded.pool withdrawal deployment.self := pool
  have recipient : Address.ofWord withdrawal.ctx = 0xcc := by decide
  have spends : withdrawal.publicAmount ≠ 0 := by decide
  refine ⟨_, last, run_append deposits executed, ⟨done.idle, ?_, ?_, ?_, ?_⟩, congrArg _ shown⟩
  · rw [pool, leavesOf_outcome (treeOk_of_reachable reachable) c _ room, leaves]
    decide
  · rw [pool, withdrawals, none, withdrawalCreditAfter, if_neg spends, recipient, Function.update_self]
    rfl
  · have apart : (0xcc : Address) ≠ withdrawalJob.payer := by decide
    rw [done.after.eth, Function.update_of_ne apart]
    rfl
  · have own : deployment.self = withdrawalJob.payer := rfl
    rw [done.after.eth, own, Function.update_self]
    decide

/-- A claim of what has been withdrawn, by the depositor. -/
def claim : Call := start.call 0xbb#160 0 (Kind.withdrawal.data 0xcc) Hegota.block

theorem claim_other : ¬ Selects claim .shield := by
  intro selects
  cases selector_injective (selects.2.symm.trans (Kind.withdrawal.selects rfl).2)

/-- The deposit, the withdrawal and its payout. -/
def shown : List Observation :=
  .called deposit (.ok (.returned (encodeWord 0))) :: script withdrawalJob.tx 3 deployment.self settlement (.ok (.returned [])) 0 ++
    [.called claim (.ok (.payout 0xcc 50000000000000000)), .resumed (.ok [])]

/-- The ledger after the payout. -/
structure Paid (last : Ledger State) : Prop where
  leaves : leavesOf last.chain.pool = [leaf.getD 0 0, change, leaf.getD 1 0]
  credit : last.chain.pool.withdrawalCredit 0xcc = 0
  balance : last.chain.eth 0xcc = 10 ^ 18 + 50000000000000000

theorem paid : ∃ history last, Run (dispatcherNetwork deployment Hegota.image Hegota.outside) start history last ∧ Paid last ∧
    history.map Entry.shown = shown := by
  obtain ⟨history, last, run, withdrawn, recorded⟩ := settled
  obtain ⟨chain, _, _⟩ := last
  cases withdrawn.idle
  have active : Ledger.Active ⟨chain, [], none⟩ := fun p tx => by cases tx
  have credit : Kind.withdrawal.credit chain.pool 0xcc = 50000000000000000 := withdrawn.credit
  have apart : (0xcc : Address) ≠ deployment.self := by decide
  have funds : chain.eth deployment.self = 1089615411854615768 := withdrawn.funds
  have balance : chain.eth 0xcc = 10 ^ 18 := withdrawn.balance
  have covered : (Kind.withdrawal.credit chain.pool 0xcc).toNat ≤ chain.eth deployment.self := by
    rw [credit, funds]
    decide
  have claims : Follows (dispatcherNetwork deployment Hegota.image Hegota.outside)
      [.called claim (.ok (.payout 0xcc (Kind.withdrawal.credit chain.pool 0xcc))), .resumed (.ok [])] ⟨chain, [], none⟩
      ⟨Kind.withdrawal.paidOut deployment.self 0xcc chain, [], none⟩ := by
    refine follows_of_claim .withdrawal active trivial (by decide) Hegota.block ?_ apart ?_ covered ?_
    · rw [funds]
      decide
    · rw [credit]
      decide
    · rw [credit, balance]
      decide
  obtain ⟨later, run', shown'⟩ := run_of_follows claims
  refine ⟨_, _, run_append run run', ⟨?_, Kind.withdrawal.credit_claimed chain.pool 0xcc, ?_⟩, ?_⟩
  · rw [← withdrawn.leaves]
    exact leavesOf_frame (appended_silent rfl)
  · change (Kind.withdrawal.paidOut deployment.self 0xcc chain).eth 0xcc = _
    rw [(Kind.withdrawal.eth_paidOut apart covered).1, credit, balance]
    rfl
  · rw [List.map_append, recorded, shown', credit]
    rfl

end TwoSpends

end ShieldedPool.Proofs
