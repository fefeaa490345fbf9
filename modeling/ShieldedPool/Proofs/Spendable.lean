import ShieldedPool.Proofs.Commuting
import ShieldedPool.Proofs.Indexer

/-! What a wallet prepares for notes that are not spent goes through: the prover finds a proof, the
entry is put together, frame 0 approves the transaction built for it, the pool can pay for it, and
its settlement returns. -/

namespace ShieldedPool.Proofs
open Evm Exec Circuit Wallet Merkle
open Tooling (SettleData selfPaidTx settlementFrame)

variable {d : Deployment} {image : Dispatcher.Image} {outside : Outside d.self} {chain ch : Chain State} {s t : State}

/-- Whoever inserts leaves publishes the root they lead to. -/
theorem current_published (reachable : Reachable d s) : s.currentRoot ∈ s.published := by
  have last {t : State} : t.currentRoot ∈ (t.publish t.currentRoot).published := List.mem_append_right _ List.mem_cons_self
  have settles (c : Call) (s : State) (sp : ShieldedPool.Spend) (payer : Address) :
      (settled d c s sp payer).currentRoot ∈ (settled d c s sp payer).published := by
    obtain ⟨-, -, -, current, published⟩ := credited_fields (d := d)
      ((grown d c (noted s sp) sp.outCm1 sp.outCm2).publish (grown d c (noted s sp) sp.outCm1 sp.outCm2).currentRoot) payer sp.fee
    rw [settled, current, published]
    exact last
  induction reachable with
  | deployed => exact List.mem_cons_self
  | @call s t c reply earlier returned ih =>
    cases effect_of_call d c returned with
    | shield => exact last
    | transfer => exact settles c s _ _
    | withdraw => exact settles c s _ _
    | claimWithdrawal | claimFee | view => exact ih

/-- What a wallet wants to pay, as arguments of `build_witness`. -/
structure Payment where
  inputs : List Input
  outputs : List (Word × Int)
  publicAmount : Int
  fee : Int
  recipient : Option Address

namespace Payment
variable (d : Deployment) (tree : Tree) (o : Payment)

def nullifiers : List Word := inputNullifiers d.hash2 d.hash3 d.domain o.inputs

def commitments : List Word := outputCommitments d.hash3 o.outputs

def ctx : Nat := (o.recipient.map ctxForRecipient).getD 0

def witness : Option Witness := buildWitness d.hash2 tree o.inputs o.outputs d.domain o.publicAmount o.fee o.recipient

def entry (publics : List Nat) (proof : Proof) : Option ShieldedPool.Spend :=
  spendEntry d.hash2 d.hash3 tree d.domain o.inputs o.outputs o.publicAmount o.fee o.ctx publics proof

/-- The tuple of the payment. -/
structure Entered (sp : ShieldedPool.Spend) : Prop where
  root : sp.root = tree.root d.hash2
  nullifiers : o.nullifiers d = [sp.nf1, sp.nf2]
  commitments : o.commitments d = [sp.outCm1, sp.outCm2]
  publicAmount : (sp.publicAmount.toNat : Int) = o.publicAmount
  fee : (sp.fee.toNat : Int) = o.fee
  ctx : sp.ctx.toNat = o.ctx
  valid : Valid d.domain sp
  verified : d.verify sp.verifierCall = true

/-- The notes are leaves of the tree, and different. -/
structure Owned : Prop where
  opened : ∀ i ∈ o.inputs, ∀ idx, i.idx = some idx → tree.leaves[idx]? = some (commitment d.hash2 d.hash3 i.sk i.rho i.value)
  different : (o.nullifiers d).Nodup

end Payment

/-- The prover finds a proof for a witness that satisfies the circuit, and the verifier accepts what it finds. -/
structure Proves (d : Deployment) (poseidon : Poseidon) (prove : Prover) (w : Witness) : Prop where
  complete : ∀ s : Signals ShieldedPool.depth, s.toInputs = w.inputs ShieldedPool.depth → Circuit.Spend poseidon s →
    ∃ proof, prove w = some (s.publics.map ZMod.val, proof)
  accepted : ∀ publics proof, prove w = some (publics, proof) → ∀ sp : ShieldedPool.Spend, sp.signals.map BitVec.toNat = publics →
    sp.pA = proof.pA → sp.pB = proof.pB → sp.pC = proof.pC → d.verify sp.verifierCall = true

section Wallets
variable {poseidon : Poseidon} {prove : Prover} {o : Payment} {w : Witness}

theorem toNat_value {v : Int} (range : 0 ≤ v ∧ v < 2 ^ 128) : (BitVec.ofInt 256 v).toNat = v.toNat := by
  obtain ⟨n, rfl⟩ := Int.eq_ofNat_of_zero_le range.1
  have bound : n < 2 ^ 128 := by exact_mod_cast range.2
  rw [BitVec.ofInt_natCast, BitVec.toNat_ofNat, Int.toNat_natCast]
  exact Nat.mod_eq_of_lt (by omega)

/-- Signals that agree with canonical words are those words. -/
theorem publics_eq {signals : List Word} {publics : List Fr} (canonical : ∀ w ∈ signals, w < fieldP)
    (same : publics.map ZMod.val = signals.map BitVec.toNat) : publics = signals.map felt := by
  apply List.map_injective_iff.mpr (ZMod.val_injective _)
  rw [same, List.map_map]
  apply List.map_congr_left
  intro w member
  exact (val_felt (canonical w member)).symm

theorem Valid.signals_canonical {domain : Word} {sp : ShieldedPool.Spend} (valid : Valid domain sp) : ∀ w ∈ sp.signals, w < fieldP := by
  obtain ⟨-, ⟨root, nf1, nf2, outCm1, outCm2, own, ctx⟩, amount, fee⟩ := valid
  have fits : maxValue < fieldP := by decide
  intro w member
  simp only [ShieldedPool.Spend.signals, List.mem_cons, List.not_mem_nil, or_false] at member
  rcases member with rfl | rfl | rfl | rfl | rfl | rfl | rfl | rfl | rfl
  any_goals assumption
  · exact BitVec.lt_trans amount fits
  · exact BitVec.lt_trans fee fits

/-- The constraints leave no choice of the public signals. -/
theorem publics_of_spend {depth : Nat} {s : Signals depth} (satisfied : Circuit.Spend poseidon s) :
    s.publics = (s.toInputs.signals poseidon).publics := by
  have nf1 : s.nf1 = s.nf poseidon 0 := satisfied.nf1.trans (nf_of_spend satisfied 0)
  have nf2 : s.nf2 = s.nf poseidon 1 := satisfied.nf2.trans (nf_of_spend satisfied 1)
  have outCm1 := satisfied.outCm1.trans (satisfied.outCm 0)
  have outCm2 := satisfied.outCm2.trans (satisfied.outCm 1)
  rw [Signals.publics, nf1, nf2, outCm1, outCm2]
  rfl

theorem guard_bind {α : Type} {condition : Prop} [Decidable condition] (holds : condition) (x : Option α) :
    (guard condition >>= fun _ => x) = x := by
  rw [guard, if_pos holds]
  rfl

theorem domain_canonical (d : Deployment) : d.domain < fieldP := by
  rw [Deployment.domain, Deployment.domainFor, BitVec.lt_def, BitVec.toNat_umod]
  exact Nat.mod_lt _ (by decide)

/-- The assignment that the witness stands for. -/
theorem assignment_of_witness (hashes : Hashes d poseidon) {leaves : List Word} (bound : leaves.length ≤ 2 ^ ShieldedPool.depth)
    (owned : o.Owned d (treeOf d.hash2 ShieldedPool.depth leaves)) (built : o.witness d (treeOf d.hash2 ShieldedPool.depth leaves) = some w) :
    ∃ s : Signals ShieldedPool.depth, s.toInputs = w.inputs ShieldedPool.depth ∧ Circuit.Spend poseidon s ∧
      s.publics.map ZMod.val = (o.nullifiers d).map BitVec.toNat ++ (o.commitments d).map BitVec.toNat ++
        [((treeOf d.hash2 ShieldedPool.depth leaves).root d.hash2).toNat, d.domain.toNat, o.publicAmount.toNat, o.fee.toNat, o.ctx] := by
  obtain ⟨opened, different⟩ := owned
  simp only [Payment.witness, Payment.nullifiers, hashes.two, hashes.three] at built opened different
  rw [Payment.nullifiers, Payment.commitments, hashes.two, hashes.three]
  exact wallet_complete bound opened different (domain_canonical d) built

/-- The prover finds a proof for the witness, and `spend_entry` puts the two together. -/
theorem entry_of_witness (hashes : Hashes d poseidon) (proves : Proves d poseidon prove w) {leaves : List Word}
    (bound : leaves.length ≤ 2 ^ ShieldedPool.depth) (owned : o.Owned d (treeOf d.hash2 ShieldedPool.depth leaves))
    (built : o.witness d (treeOf d.hash2 ShieldedPool.depth leaves) = some w) :
    ∃ publics proof sp s, prove w = some (publics, proof) ∧
      o.entry d (treeOf d.hash2 ShieldedPool.depth leaves) publics proof = some sp ∧
      o.Entered d (treeOf d.hash2 ShieldedPool.depth leaves) sp ∧ s.toInputs = w.inputs ShieldedPool.depth ∧ Opens poseidon sp s := by
  obtain ⟨s, extends_, satisfied, publics⟩ := assignment_of_witness hashes bound owned built
  obtain ⟨proof, found⟩ := proves.complete s extends_ satisfied
  obtain ⟨inputs, outputs, publicAmount, fee, recipient⟩ := o
  have prepared : buildWitness d.hash2 (treeOf d.hash2 ShieldedPool.depth leaves) inputs outputs d.domain publicAmount fee recipient = some w :=
    built
  obtain ⟨a, b, out1, out2, rfl, rfl, filled⟩ := built_cases prepared
  simp only [Payment.nullifiers, Payment.commitments, Payment.ctx] at publics
  have rooted : (treeOf d.hash2 ShieldedPool.depth leaves).root d.hash2 < fieldP := by
    rw [hashes.two, root_treeOf bound]
    exact root_canonical (by decide) leaves
  generalize treeOf d.hash2 ShieldedPool.depth leaves = t at publics rooted filled ⊢
  let sp : ShieldedPool.Spend := {
    root := t.root d.hash2
    domain := d.domain
    nf1 := nullifier d.hash2 d.hash3 d.domain a.sk (commitment d.hash2 d.hash3 a.sk a.rho a.value)
    nf2 := nullifier d.hash2 d.hash3 d.domain b.sk (commitment d.hash2 d.hash3 b.sk b.rho b.value)
    outCm1 := d.hash3 2 out1.1 (BitVec.ofInt 256 out1.2)
    outCm2 := d.hash3 2 out2.1 (BitVec.ofInt 256 out2.2)
    publicAmount := BitVec.ofInt 256 publicAmount
    fee := BitVec.ofInt 256 fee
    ctx := BitVec.ofNat 256 ((recipient.map ctxForRecipient).getD 0)
    pA := proof.pA
    pB := proof.pB
    pC := proof.pC }
  have amount : sp.publicAmount.toNat = publicAmount.toNat := toNat_value filled.amountRange
  have charged : sp.fee.toNat = fee.toNat := toNat_value filled.feeRange
  have small : (recipient.map ctxForRecipient).getD 0 < fieldP.toNat := ctx_fits recipient
  have ctx : sp.ctx.toNat = (recipient.map ctxForRecipient).getD 0 := by
    rw [BitVec.toNat_ofNat]
    exact Nat.mod_eq_of_lt (small.trans fieldP.isLt)
  have signals : s.publics.map ZMod.val = sp.signals.map BitVec.toNat := by
    rw [publics, ← amount, ← charged, ← ctx]
    rfl
  have hash (x y z : Word) : d.hash3 x y z < fieldP := hashes.three ▸ p3_canonical x y z
  have range : maxValue.toNat = 2 ^ 128 := by decide
  have valid : Valid d.domain sp := by
    refine ⟨rfl, ⟨rooted, hash .., hash .., hash .., hash .., domain_canonical d, ?_⟩, ?_, ?_⟩
    · rwa [BitVec.lt_def, ctx]
    · have bounds := filled.amountRange
      rw [BitVec.lt_def, amount, range]
      omega
    · have bounds := filled.feeRange
      rw [BitVec.lt_def, charged, range]
      omega
  have verified : d.verify sp.verifierCall = true := proves.accepted _ proof found sp signals.symm rfl rfl rfl
  refine ⟨_, proof, sp, s, found, ?_, ?_, extends_, satisfied, publics_eq valid.signals_canonical signals⟩
  · have same : (s.publics.map ZMod.val).map Int.ofNat =
        [sp.nf1, sp.nf2, sp.outCm1, sp.outCm2, sp.root, sp.domain].map (fun w => (w.toNat : Int)) ++
          [publicAmount, fee, (((recipient.map ctxForRecipient).getD 0 : Nat) : Int)] := by
      rw [signals, ← Int.toNat_of_nonneg filled.amountRange.1, ← Int.toNat_of_nonneg filled.feeRange.1, ← amount, ← charged, ← ctx]
      rfl
    exact guard_bind same (some sp)
  · refine ⟨rfl, rfl, rfl, ?_, ?_, ctx, valid, verified⟩
    · rw [amount]
      exact Int.toNat_of_nonneg filled.amountRange.1
    · rw [charged]
      exact Int.toNat_of_nonneg filled.feeRange.1

namespace Payment

/-- The notes are unspent, an amount goes to somebody, and there is room for the outputs. -/
structure Payable (d : Deployment) (chain : Chain State) (o : Payment) : Prop where
  unused : ∀ nf ∈ o.nullifiers d, nf ≠ 0 ∧ nf ∉ chain.consumed
  named : o.publicAmount = 0 ∧ o.recipient = none ∨ o.publicAmount ≠ 0 ∧ ∃ who, o.recipient = some who ∧ who.word ≠ 0
  room : chain.pool.nextIndex + (freshOutputs chain.pool (o.commitments d).toFinset).card ≤ 2 ^ ShieldedPool.depth

/-- What was asked for has happened: the outputs are leaves, the recipient has its credit, and of
the nonce keys only the notes' own have been consumed. -/
structure Performed (d : Deployment) (chain : Chain State) (o : Payment) (last : Ledger State) : Prop where
  leaves : ∀ cm ∈ o.commitments d, last.chain.pool.isLeaf cm = true
  credited : ∀ who, o.recipient = some who →
    ((last.chain.pool.withdrawalCredit who).toNat : Int) = (chain.pool.withdrawalCredit who).toNat + o.publicAmount
  consumed : ∀ key, key ∈ last.chain.consumed ↔ key ∈ chain.consumed ∨ key ∈ o.nullifiers d

variable {tree : Tree} {sp : ShieldedPool.Spend}

/-- The calldata that the tooling writes. -/
theorem Entered.settleData (entered : o.Entered d tree sp) (payable : o.Payable d chain) : ∃ data, SettleData sp data := by
  have ctx := entered.ctx
  have amount := entered.publicAmount
  rcases payable.named with ⟨none, nobody⟩ | ⟨some_, who, named, nonzero⟩
  · rw [none] at amount
    rw [Payment.ctx, nobody] at ctx
    refine ⟨_, .transfer ?_ ?_⟩
    · apply BitVec.eq_of_toNat_eq
      exact_mod_cast amount
    · apply BitVec.eq_of_toNat_eq
      exact ctx
  · rw [Payment.ctx, named] at ctx
    refine ⟨_, @SettleData.withdraw sp who ?_ nonzero ?_⟩
    · intro zero
      apply some_
      rw [← amount, zero]
      rfl
    · apply BitVec.eq_of_toNat_eq
      rw [ctx]
      exact (Address.word_toNat who).symm

theorem Entered.proven (entered : o.Entered d tree sp) (payable : o.Payable d chain) : Proven d sp := by
  have unused := payable.unused
  rw [entered.nullifiers] at unused
  exact ⟨(unused _ (by simp)).1, (unused _ (by simp)).1, entered.valid, entered.verified⟩

theorem Entered.fresh (entered : o.Entered d tree sp) (payable : o.Payable d chain) :
    ∀ key ∈ ({sp.nf1, sp.nf2} : Finset Word), key ∉ chain.consumed := by
  have unused := payable.unused
  rw [entered.nullifiers] at unused
  intro key member
  apply (unused key ?_).2
  simpa using member

theorem Entered.room (entered : o.Entered d tree sp) (payable : o.Payable d chain) : ¬ Overflows chain.pool (outputsOf sp) := by
  have room := payable.room
  rw [entered.commitments] at room
  intro excess
  have same : [sp.outCm1, sp.outCm2].toFinset = outputsOf sp := by
    ext cm
    simp [outputsOf]
  rw [same] at room
  exact absurd excess.2 (Nat.not_lt.mpr room)

end Payment

variable {extract : ShieldedPool.Spend → Signals ShieldedPool.depth} {before : List (Entry State)} {tree : Tree} {maxCost : Word}

/-- The step that begins a transaction. -/
def beginning (chain : Chain State) (tx : FrameTx) : Entry State :=
  ⟨.begun tx, { chain with approved := false, payer := none }, [], some ⟨tx, 0, chain, none⟩⟩

/-- The pool can pay for a payment, and has room for its credits. -/
theorem covered_of_safe (hashes : Hashes d poseidon) {q : Queries} {l : Ledger State} (idle : l = ⟨chain, [], none⟩)
    (safe : Safe poseidon extract q d image outside l) (filled : ∀ t ∈ q.triples, poseidon.three t.1 t.2.1 t.2.2 ≠ 0)
    (trees : Grows poseidon q chain.pool) {tx : FrameTx} {f : Frame} {sp : ShieldedPool.Spend} (approved : Approved d tx 3 f sp)
    (known : Known poseidon extract q tx.tuple) (rooted : sp.root ∈ chain.pool.published) (fresh : chain.KeysFresh d.self tx)
    (covered : tx.maxCost.toNat ≤ sp.fee.toNat) : tx.maxCost.toNat ≤ chain.eth d.self ∧ CreditsFit d chain.pool sp d.self := by
  subst idle
  have ideal : Ideal poseidon q d := ⟨hashes, safe.free, filled⟩
  have backed : Backed poseidon extract q d 0 chain := (safe.solvent.kept _ .current).less (Nat.zero_le _)
  have paid : (paidChain d.self d.self tx chain).paid = chain.paid ++ [tx] := if_pos approved.sender
  have spent := owed_of_payment hashes safe.free filled backed.sound approved (tuple_of_approved approved ▸ known) rooted trees fresh
    (rfl : (paidChain d.self d.self tx chain).pool = chain.pool) paid
  have covers := backed.all
  have amounts := amounts_of_known approved known
  rw [tuple_of_approved approved] at amounts
  have funds : tx.maxCost.toNat ≤ chain.eth d.self := by omega
  have pledged := backed.pay ideal approved known rooted trees fresh funds fun _ => covered
  have fits : CreditsFit d (paidChain d.self d.self tx chain).pool sp d.self := fits_of_backed pledged ?_ approved known fun _ => covered
  · exact ⟨funds, fits⟩
  have taken : (paidChain d.self d.self tx chain).eth d.self = chain.eth d.self - tx.maxCost.toNat := Function.update_self ..
  rw [taken]
  exact (Nat.sub_le _ _).trans_lt safe.small

theorem Payment.performed_of_done {sp : ShieldedPool.Spend} {data : Bytes} {settles : SettleData sp data} {slot : Word} {refund : Nat}
    {history : List (Entry State)} {last : Ledger State} (entered : o.Entered d tree sp) (payable : o.Payable d chain)
    (credits : CreditsFit d chain.pool sp d.self) (own : (Job.selfPaid d settles slot maxCost).tx.nonceKeys = [sp.lo, sp.hi])
    (done : Done d chain (.selfPaid d settles slot maxCost) refund history last) : o.Performed d chain last := by
  obtain ⟨c, pool⟩ := done.pool
  obtain ⟨-, leaves, -, withdrawals⟩ := outcome_fields d c chain.pool sp d.self
  have pool : last.chain.pool = outcome d c chain.pool sp d.self := pool
  rw [← pool] at leaves withdrawals
  refine ⟨fun cm member => ?_, fun who named => ?_, fun key => ?_⟩
  · rw [entered.commitments] at member
    apply (leaves cm).mpr
    exact .inl (by simpa using member)
  · have ctx := entered.ctx
    rw [Payment.ctx, named] at ctx
    have recipient : Address.ofWord sp.ctx = who := by
      have word : sp.ctx = who.word := BitVec.eq_of_toNat_eq (ctx.trans (Address.word_toNat who).symm)
      rw [word, Address.ofWord_word]
    have spends : sp.publicAmount ≠ 0 := by
      rcases payable.named with ⟨-, nobody⟩ | ⟨some_, -⟩
      · rw [nobody] at named
        cases named
      · intro zero
        apply some_
        rw [← entered.publicAmount, zero]
        rfl
    have fits := credits.withdrawal
    rw [recipient] at fits
    rw [withdrawals, withdrawalCreditAfter, if_neg spends, recipient, Function.update_self, BitVec.toNat_add, Nat.mod_eq_of_lt fits,
      ← entered.publicAmount]
    exact Nat.cast_add _ _
  · rw [Chain.consumed, done.after.paid, List.flatMap_append, List.mem_append, entered.nullifiers]
    have same : [(Job.selfPaid d settles slot maxCost).tx].flatMap FrameTx.nonceKeys = [sp.lo, sp.hi] := by
      rw [List.flatMap_singleton, own]
    rw [same, mem_keys, Finset.mem_insert, Finset.mem_singleton, List.mem_pair, Chain.consumed]

/-- Whatever `build_witness` prepares for the wallet's unspent notes goes through. The prover finds
a proof, `spend_entry` takes it, and the transaction built from that can be executed by itself: its
settlement returns and does what was asked for. This holds unless two hashes that have been
evaluated collide or a commitment is zero. -/
theorem payment_goes_through (hashes : Hashes d poseidon) (proves : Proves d poseidon prove w) {eth : Address → Nat}
    (words : ∀ a, eth a < 2 ^ 256) (run : Run (dispatcherNetwork d image outside) (launch eth) before ⟨chain, [], none⟩)
    (extracts : ∀ tx, Proved d before tx → Opens poseidon tx.tuple (extract tx.tuple))
    (seeded : seededTree d.hash2 ShieldedPool.depth chain.pool.logs chain.pool.currentRoot = some tree) (owned : o.Owned d tree)
    (payable : o.Payable d chain) (built : o.witness d tree = some w) (covered : (maxCost.toNat : Int) ≤ o.fee) (nonzero : d.self.word ≠ 0) :
    ∃ publics proof sp s data, ∃ settles : SettleData sp data, prove w = some (publics, proof) ∧ o.entry d tree publics proof = some sp ∧
      o.Entered d tree sp ∧ s.toInputs = w.inputs ShieldedPool.depth ∧ Opens poseidon sp s ∧
      ∀ slot, Broken poseidon (runQueries poseidon (Function.update extract sp s) d
          (before ++ [beginning chain (selfPaidTx settles slot maxCost d)])) ∨
        ∀ refund, refund ≤ maxCost.toNat → ∃ history last, Run (dispatcherNetwork d image outside) ⟨chain, [], none⟩ history last ∧
          (Job.selfPaid d settles slot maxCost).Shows refund (history.map Entry.shown) ∧
          (∀ e ∈ history, ∀ c result, e.shown = .called c result → result = .ok (.returned [])) ∧ o.Performed d chain last := by
  have reachable : Reachable d chain.pool := reachable_of_run run
  have treeOk := treeOk_of_reachable reachable
  have rebuilt : tree = treeOf d.hash2 ShieldedPool.depth (leavesOf chain.pool) :=
    Option.some.inj (seeded.symm.trans (seededTree_eq treeOk (rootsOk_of_reachable reachable hashes.table)))
  have current : tree.root d.hash2 = chain.pool.currentRoot := by
    rw [rebuilt, root_treeOf treeOk.grown.bound, (rootsOk_of_reachable reachable hashes.table).root]
  obtain ⟨publics, proof, sp, s, found, entry, entered, extends_, opens⟩ : ∃ publics proof sp s, prove w = some (publics, proof) ∧
      o.entry d tree publics proof = some sp ∧ o.Entered d tree sp ∧ s.toInputs = w.inputs ShieldedPool.depth ∧ Opens poseidon sp s := by
    subst rebuilt
    exact entry_of_witness hashes proves treeOk.grown.bound owned built
  obtain ⟨data, settles⟩ := entered.settleData payable
  refine ⟨publics, proof, sp, s, data, settles, found, entry, entered, extends_, opens, fun slot => ?_⟩
  let j : Job := .selfPaid d settles slot maxCost
  have fee : maxCost ≤ sp.fee := by
    have charged := entered.fee
    rw [BitVec.le_def]
    omega
  obtain ⟨granted, approved⟩ := Job.approved_selfPaid settles slot (entered.proven payable) fee
  have tuple : j.tx.tuple = sp := tuple_of_approved approved
  have rooted : sp.root ∈ chain.pool.published := by
    rw [entered.root, current]
    exact current_published reachable
  let whole : List (Entry State) := before ++ [beginning chain j.tx]
  have inside : beginning chain j.tx ∈ whole := List.mem_append_right _ List.mem_cons_self
  have extracts' : ∀ tx, Proved d whole tx → Opens poseidon tx.tuple (Function.update extract sp s tx.tuple) := by
    intro tx proved
    by_cases same : tx.tuple = sp
    · rw [same, Function.update_self]
      exact opens
    · rw [Function.update_of_ne same]
      obtain ⟨verified, e, member, begun⟩ := proved
      rcases List.mem_append.mp member with old | new
      · exact extracts tx ⟨verified, e, old, begun⟩
      · rw [List.mem_singleton.mp new] at begun
        cases begun
        exact absurd tuple same
  refine or_iff_not_imp_left.mpr fun sound refund bound => ?_
  have safe := (safe_within hashes words run (fun _ => List.mem_append_left _) extracts').resolve_left sound
  have filled : ∀ t ∈ (runQueries poseidon (Function.update extract sp s) d whole).triples, poseidon.three t.1 t.2.1 t.2.2 ≠ 0 := by
    intro t member zero
    exact sound (.inr ⟨t, member, zero⟩)
  have evaluated := evaluated_of_run extracts' inside
  have known := evaluated.known j.tx rfl (tuple ▸ approved.proven.verified)
  obtain ⟨funds, credits⟩ := covered_of_safe hashes rfl safe filled evaluated.trees approved known rooted
    (fun _ _ key member => entered.fresh payable key (mem_keys.mp member)) fee
  have distinct : sp.nf1 ≠ sp.nf2 := by
    have different := owned.different
    rw [entered.nullifiers] at different
    simpa using different
  have spends : j.Spends d image outside chain :=
    Job.spends_selfPaid settles slot (entered.proven payable) distinct fee rooted (entered.fresh payable) funds nonzero
  have small : ∀ a, chain.eth a < 2 ^ 256 := small_of_run run words
  obtain ⟨history, last, executed, shows, done⟩ := settles_of_spends (b := ⟨0, fun _ => true⟩) spends small (entered.room payable) credits bound
    fun _ => rfl
  exact ⟨history, last, executed, ⟨_, _, fun _ => rfl, shows⟩, done.settles, Payment.performed_of_done entered payable credits approved.keys done⟩

end Wallets

end ShieldedPool.Proofs

namespace ShieldedPool.Proofs.TwoSpends
open Evm Circuit Wallet Wallet.TwoSpends Merkle
open Tooling (SettleData selfPaidTx)

def payment : Payment where
  inputs := [⟨spendKey, rho.getD 0 0, 100000000000000000, some 0⟩, ⟨spendKey, rho.getD 1 0, 0, none⟩]
  outputs := [(inner.getD 2 0, 10000000000000000), (inner.getD 1 0, 0)]
  publicAmount := 50000000000000000
  fee := 40000000000000000
  recipient := some 0xcc

def prover : Prover := fun _ => some (withdrawal.signals.map BitVec.toNat, ⟨(0, 0), ((0, 0), (0, 0)), (0, 0)⟩)

theorem nullifiers : payment.nullifiers deployment = [nullifier.getD 0 0, nullifier.getD 1 0] := by
  have computed : inputNullifiers deployment.hash2 deployment.hash3 domain payment.inputs = [nullifier.getD 0 0, nullifier.getD 1 0] := by
    decide +kernel
  rw [Payment.nullifiers, own_domain, computed]

theorem root_tree : (treeOf deployment.hash2 ShieldedPool.depth [leaf.getD 0 0]).root deployment.hash2 = withdrawal.root := by
  have current : funded.pool.currentRoot = withdrawal.root := root
  rw [← leaves, root_treeOf (treeOk_of_reachable reachable).grown.bound, ← (rootsOk_of_reachable reachable hashes.table).root, current]

theorem owned : payment.Owned deployment (treeOf deployment.hash2 ShieldedPool.depth [leaf.getD 0 0]) where
  opened := by
    have cm : commitment deployment.hash2 deployment.hash3 spendKey (rho.getD 0 0) 100000000000000000 = leaf.getD 0 0 := by decide +kernel
    intro i member idx index
    rcases List.mem_pair.mp member with rfl | rfl
    · obtain rfl := Option.some.inj index
      exact congrArg some cm.symm
    · cases index
  different := by
    rw [nullifiers]
    decide +kernel

theorem payable : payment.Payable deployment funded where
  unused := by
    rw [nullifiers]
    intro nf member
    refine ⟨?_, List.not_mem_nil⟩
    rcases List.mem_pair.mp member with rfl | rfl
    · decide
    · decide
  named := .inr ⟨by decide, 0xcc, rfl, by decide⟩
  room := by
    have few : (freshOutputs funded.pool (payment.commitments deployment).toFinset).card ≤ 2 :=
      (Finset.card_filter_le _ _).trans (List.toFinset_card_le _)
    have index : funded.pool.nextIndex = 1 := rfl
    have capacity : 3 ≤ 2 ^ ShieldedPool.depth := by decide
    omega

theorem proves {w : Witness} (built : payment.witness deployment (treeOf deployment.hash2 ShieldedPool.depth [leaf.getD 0 0]) = some w) :
    Proves deployment poseidon prover w where
  complete s extends_ satisfied := by
    have single : [leaf.getD 0 0].length ≤ 2 ^ ShieldedPool.depth := by
      rw [List.length_singleton]
      decide
    obtain ⟨other, again, found, publics⟩ := assignment_of_witness hashes single owned built
    have same : s.publics = other.publics := by
      rw [publics_of_spend satisfied, publics_of_spend found, extends_, again]
    have outputs : payment.commitments deployment = [withdrawal.outCm1, withdrawal.outCm2] := by decide +kernel
    rw [same, publics, nullifiers, outputs, root_tree, own_domain]
    exact ⟨_, rfl⟩
  accepted publics proof found sp signals pA pB pC := by
    obtain ⟨rfl, rfl⟩ := Prod.mk.inj (Option.some.inj found)
    have same : sp.signals = withdrawal.signals := List.map_injective_iff.mpr (fun _ _ => BitVec.eq_of_toNat_eq) signals
    have coordinates : sp.proof = withdrawal.proof := by
      rw [ShieldedPool.Spend.proof, pA, pB, pC]
      rfl
    have call : sp.verifierCall = withdrawal.verifierCall := by
      rw [ShieldedPool.Spend.verifierCall, ShieldedPool.Spend.verifierCall, same, coordinates]
    rw [call]
    exact (proven (.inl rfl)).verified

/-- The wallet prepares this, and hashes nothing that is not in the tables. -/
theorem prepared : ∃ w, payment.witness deployment (treeOf deployment.hash2 ShieldedPool.depth [leaf.getD 0 0]) = some w ∧
    (((w.inputs ShieldedPool.depth).signals poseidon).queries poseidon).Within (tabled pairs triples) :=
  ⟨_, rfl, within_tabled (by decide +kernel)⟩

section Entered
variable {sp : ShieldedPool.Spend} {s : Signals ShieldedPool.depth} {data : Bytes} (settles : SettleData sp data)
  (entered : payment.Entered deployment (treeOf deployment.hash2 ShieldedPool.depth [leaf.getD 0 0]) sp)

include entered in
theorem spends_of_entered : (Job.selfPaid deployment settles 191883 10384588145384232).Spends deployment Hegota.image Hegota.outside funded := by
  have distinct : sp.nf1 ≠ sp.nf2 := by
    have different := owned.different
    rw [entered.nullifiers] at different
    simpa using different
  have covered : (10384588145384232 : Word) ≤ sp.fee := by
    have fee : (sp.fee.toNat : Int) = 40000000000000000 := entered.fee
    have cost : (10384588145384232 : Word).toNat = 10384588145384232 := rfl
    rw [BitVec.le_def, cost]
    omega
  have rooted : sp.root ∈ funded.pool.published := by
    rw [entered.root, root_tree, published]
    exact List.mem_cons_of_mem _ List.mem_cons_self
  exact Job.spends_selfPaid settles 191883 (entered.proven payable) distinct covered rooted (entered.fresh payable) (by decide) (by decide)

include entered in
theorem not_broken_of_entered (within : (s.queries poseidon).Within (tabled pairs triples)) :
    ¬ Broken poseidon (runQueries poseidon (Function.update assignment sp s) deployment
      ([⟨.called deposit (.ok (.returned (encodeWord 0))), ⟨funded, [], none⟩⟩] ++
        [beginning funded (selfPaidTx settles 191883 10384588145384232 deployment)])) := by
  have spends := spends_of_entered settles entered
  refine not_broken_of_proofs (fun c deposited => ?_) (fun tx proved => ?_) (List.mem_cons_self : _ ∈ rows) fun e member => ?_
  · obtain ⟨-, reply, e, member, called⟩ := deposited
    rcases List.mem_pair.mp member with rfl | rfl
    · cases called
      rfl
    · cases called
  · obtain ⟨-, e, member, begun⟩ := proved
    rcases List.mem_pair.mp member with rfl | rfl
    · cases begun
    · cases begun
      have tuple : (selfPaidTx settles 191883 10384588145384232 deployment).tuple = sp := tuple_of_approved spends.approved
      rw [tuple, Function.update_self]
      exact within
  · have deposited : leavesOf funded.pool <+: [leaf.getD 0 0, change, leaf.getD 1 0] := by
      rw [leaves]
      decide
    rcases List.mem_pair.mp member with rfl | rfl
    · exact deposited
    · exact deposited

end Entered

end ShieldedPool.Proofs.TwoSpends

namespace ShieldedPool.Proofs
open Evm Circuit Merkle Wallet.TwoSpends
open Tooling (SettleData selfPaidTx)

/-- The withdrawal goes through in the pool that the deposit has left. -/
theorem payment_goes_through_twoSpends : ∃ w publics proof sp data, ∃ settles : SettleData sp data,
    TwoSpends.prover w = some (publics, proof) ∧ (sp.publicAmount.toNat : Int) = 50000000000000000 ∧
      ∃ history last, Run (dispatcherNetwork TwoSpends.deployment Hegota.image Hegota.outside) ⟨TwoSpends.funded, [], none⟩ history last ∧
        (Job.selfPaid TwoSpends.deployment settles 191883 10384588145384232).Shows 0 (history.map Entry.shown) ∧
        TwoSpends.payment.Performed TwoSpends.deployment TwoSpends.funded last := by
  have seeded := seededTree_eq (treeOk_of_reachable TwoSpends.reachable)
    (rootsOk_of_reachable TwoSpends.reachable TwoSpends.hashes.table)
  rw [TwoSpends.leaves] at seeded
  have extracts := TwoSpends.extracts TwoSpends.usual_before
  obtain ⟨w, built, within⟩ := TwoSpends.prepared
  have fee : ((10384588145384232 : Word).toNat : Int) ≤ TwoSpends.payment.fee := by decide
  obtain ⟨publics, proof, sp, s, data, settles, found, -, entered, extends_, opens, through⟩ :=
    payment_goes_through TwoSpends.hashes (TwoSpends.proves built) (fun _ => by decide) TwoSpends.deposits extracts seeded TwoSpends.owned
      TwoSpends.payable built fee (by decide)
  have evaluated : (s.queries poseidon).Within (tabled pairs triples) := by
    rw [queries_of_spend opens.satisfied, extends_]
    exact within
  have sound := TwoSpends.not_broken_of_entered settles entered evaluated
  obtain ⟨history, last, executed, shows, -, performed⟩ := (through 191883).resolve_left sound 0 (Nat.zero_le _)
  exact ⟨w, publics, proof, sp, data, settles, found, entered.publicAmount, history, last, executed, shows, performed⟩

section Credits
variable {d : Deployment} {image : Dispatcher.Image} {outside : Outside d.self}
variable {poseidon : Poseidon} {extract : ShieldedPool.Spend → Signals ShieldedPool.depth}

theorem Kind.credit_le_total (kind : Kind) (s : State) (who : Address) :
    (kind.credit s who).toNat ≤ total s.withdrawalCredit + total s.feeCredit := by
  cases kind with
  | withdrawal => exact (le_total s.withdrawalCredit who).trans (Nat.le_add_right _ _)
  | fee => exact (le_total s.feeCredit who).trans (Nat.le_add_left _ _)

/-- Every credit can be claimed at any time, by any account that may act, for the whole of what it
says: a payout that its receiver accepts brings it that much of the pool's ETH. This holds unless
two hashes that have been evaluated collide or a commitment is zero. -/
theorem credits_claimable (hashes : Hashes d poseidon) {eth : Address → Nat} (words : ∀ a, eth a < 2 ^ 256) {history : List (Entry State)}
    {last : Ledger State} (run : Run (dispatcherNetwork d image outside) (launch eth) history last)
    (extracts : ∀ tx, Proved d history tx → Opens poseidon tx.tuple (extract tx.tuple)) (active : last.Active) {caller : Address}
    (acts : outside.acts caller) (other : caller ≠ d.self) (b : Block) :
    Broken poseidon (runQueries poseidon extract d history) ∨ ∀ (kind : Kind) (who : Address), who ≠ d.self →
      kind.credit last.chain.pool who ≠ 0 → last.chain.eth who + (kind.credit last.chain.pool who).toNat < 2 ^ 256 →
      ∃ ch, Follows (dispatcherNetwork d image outside)
          [.called (last.call caller 0 (kind.data who) b) (.ok (.payout who (kind.credit last.chain.pool who))), .resumed (.ok [])]
          last ⟨ch, last.stack, last.tx⟩ ∧
        kind.credit ch.pool who = 0 ∧ ch.eth who = last.chain.eth who + (kind.credit last.chain.pool who).toNat ∧
        ch.eth d.self + (kind.credit last.chain.pool who).toNat = last.chain.eth d.self := by
  refine (safe_of_run hashes words run extracts).imp_right fun safe kind who apart owed room => ?_
  have backed : Backed poseidon extract _ d 0 last.chain := (safe.solvent.kept _ .current).less (Nat.zero_le _)
  have covers := backed.all
  have part := kind.credit_le_total last.chain.pool who
  rw [Proofs.owed] at covers
  have funds : (kind.credit last.chain.pool who).toNat ≤ last.chain.eth d.self := by omega
  exact ⟨_, follows_of_claim kind active acts other b safe.small apart owed funds room, kind.credit_claimed _ _,
    kind.eth_paidOut apart funds⟩

end Credits

/-- What has been withdrawn can be claimed by the depositor. -/
theorem credits_claimable_twoSpends : ∃ history last,
    Run (dispatcherNetwork TwoSpends.deployment Hegota.image Hegota.outside) TwoSpends.start history last ∧
      ∃ ch, Follows (dispatcherNetwork TwoSpends.deployment Hegota.image Hegota.outside)
          [.called (last.call 0xbb 0 (Kind.withdrawal.data 0xcc) Hegota.block) (.ok (.payout 0xcc 50000000000000000)), .resumed (.ok [])]
          last ⟨ch, last.stack, last.tx⟩ ∧
        ch.eth 0xcc = 1050000000000000000 := by
  obtain ⟨history, last, run, withdrawn, shown⟩ := TwoSpends.settled
  have usual (e : Entry State) (member : e ∈ history) : TwoSpends.Usual e.shown := by
    have listed : e.shown ∈ history.map Entry.shown := List.mem_map_of_mem member
    rw [shown] at listed
    exact TwoSpends.usual_shown (List.mem_append_left _ listed)
  have sound := TwoSpends.not_broken run usual (withdrawn.leaves ▸ List.mem_cons_self)
  have active : last.Active := by
    intro p tx
    rw [withdrawn.idle] at tx
    cases tx
  have claims := (credits_claimable TwoSpends.hashes (fun _ => by decide) run (TwoSpends.extracts usual) active trivial
    (by decide : (0xbb : Address) ≠ TwoSpends.deployment.self) Hegota.block).resolve_left sound
  have credit : Kind.withdrawal.credit last.chain.pool 0xcc = 50000000000000000 := withdrawn.credit
  obtain ⟨ch, follows, -, paid, -⟩ := claims .withdrawal 0xcc (by decide) (by rw [credit]; decide) (by rw [credit, withdrawn.balance]; decide)
  rw [credit] at follows paid
  refine ⟨history, last, run, ch, follows, ?_⟩
  rw [paid, withdrawn.balance]
  rfl

end ShieldedPool.Proofs
