import ShieldedPool.Coins
import ShieldedPool.Proofs.Notes
import ShieldedPool.Proofs.Settling

/-! What the pool owes, and what one payment, one settlement and one deposit do to it: the pull
credits, and the leaves whose nullifier keys have not been consumed, at the values they commit to. -/

namespace ShieldedPool
open Evm

/-- The tuple that the last frame of a transaction settles. -/
def FrameTx.tuple (tx : FrameTx) : Spend := Spend.decode ((tx.frames.getLast?.map Frame.data).getD []) 4

namespace Proofs
open Circuit Merkle

/-- The libraries the pool calls compute the circuit's hash, and its table of empty subtrees is theirs. -/
structure Hashes (d : Deployment) (poseidon : Poseidon) : Prop where
  two : d.hash2 = poseidon.p2
  three : d.hash3 = poseidon.p3
  table : ZerosTable d

section
variable (poseidon : Poseidon) (extract : ShieldedPool.Spend → Signals ShieldedPool.depth) (q : Queries)

/-- There is an assignment behind a tuple's proof, and it evaluates nothing outside `q`. -/
structure Known (sp : ShieldedPool.Spend) : Prop where
  opens : Opens poseidon sp (extract sp)
  within : ((extract sp).queries poseidon).Within q

/-- What a tree with the given leaves evaluates. -/
def treeQueries (leaves : List Word) : Set (Fr × Fr) := treePairs poseidon.two (pad 0 (leaves.map felt)) ShieldedPool.depth 0

/-- A transaction that has been paid for has opened the leaf, and its nullifier key is consumed. -/
def KeyConsumed (paid : List FrameTx) (cm : Word) : Prop :=
  ∃ tx ∈ paid, ∃ k, felt cm = (extract tx.tuple).cm poseidon k ∧ ∃ key ∈ tx.nonceKeys, felt key = (extract tx.tuple).nf poseidon k

open Classical in
/-- The value a leaf commits to, by the evaluations in `q`. -/
noncomputable def noteValue (cm : Word) : Nat :=
  if known : ∃ v inner, opening inner v ∈ q.triples ∧ felt cm = poseidon.commit inner v then (choose known).val else 0

/-- The values of the leaves whose nullifier keys have not been consumed. -/
noncomputable def unspent (value : Word → Nat) (chain : Chain State) : Nat :=
  Coins.worth (fun cm => chain.pool.isLeaf cm = true ∧ ¬ KeyConsumed poseidon extract chain.paid cm) value

/-- All that the pool owes. -/
noncomputable def owed (value : Word → Nat) (chain : Chain State) : Nat :=
  total chain.pool.withdrawalCredit + total chain.pool.feeCredit + unspent poseidon extract value chain

/-- What is known of a chain: its pool is one that calls have led to, its leaves are commitments
that somebody has evaluated, and frame 0 has approved what has been paid for. -/
structure Sound (d : Deployment) (chain : Chain State) : Prop where
  reachable : Reachable d chain.pool
  committed : ∀ cm, chain.pool.isLeaf cm = true → cm < fieldP ∧ ∃ inner v, opening inner v ∈ q.triples ∧ felt cm = poseidon.commit inner v
  paid : ∀ tx ∈ chain.paid, Known poseidon extract q tx.tuple ∧ ∃ scope f, Approved d tx scope f tx.tuple

end

variable {poseidon : Poseidon} {extract : ShieldedPool.Spend → Signals ShieldedPool.depth} {q : Queries} {d : Deployment}
  {tx : FrameTx} {scope : Word} {f : Frame} {sp : ShieldedPool.Spend} {chain : Chain State}

theorem tuple_of_approved (approved : Approved d tx scope f sp) : tx.tuple = sp := by
  have last := getLast_of_approved approved
  rw [lastIndex, ← List.getLast?_eq_getElem?] at last
  rw [FrameTx.tuple, last, approved.spend]
  rfl

theorem felt_commitmentOf (hashes : Hashes d poseidon) (inner value : Word) :
    felt (commitmentOf d inner value) = poseidon.commit (felt inner) (felt value) := by
  have tag : felt 2 = 2 := Nat.cast_ofNat
  rw [commitmentOf, hashes.three, felt_p3, tag, Poseidon.commit]

theorem commitmentOf_canonical (hashes : Hashes d poseidon) (inner value : Word) : commitmentOf d inner value < fieldP := by
  rw [commitmentOf, hashes.three]
  exact p3_canonical _ _ _

theorem noteValue_eq (free : q.Free poseidon) {inner v : Fr} (evaluated : opening inner v ∈ q.triples) {cm : Word}
    (leaf : felt cm = poseidon.commit inner v) : noteValue poseidon q cm = v.val := by
  have known : ∃ v inner, opening inner v ∈ q.triples ∧ felt cm = poseidon.commit inner v := ⟨v, inner, evaluated, leaf⟩
  obtain ⟨other, again, same⟩ := Classical.choose_spec known
  have equal := free.triples _ again _ evaluated (same.symm.trans leaf)
  rw [noteValue, dif_pos known]
  exact congrArg (fun t : Fr × Fr × Fr => t.2.2.val) equal

/-- What an input opens, as a triple. -/
theorem opening_mem (known : Known poseidon extract q sp) (k : Fin 2) :
    opening ((extract sp).note k).inner ((extract sp).inValue k) ∈ q.triples ∧
      (extract sp).cm poseidon k = poseidon.commit ((extract sp).note k).inner ((extract sp).inValue k) := by
  have satisfied := known.opens.satisfied
  have value := (satisfied.wired k).value
  rw [← value, ← leaf_of_spend satisfied]
  refine ⟨known.within.triples ⟨k, .inl ?_⟩, (satisfied.note k).leaf⟩
  exact .inr (.inl rfl)

theorem free_of_known (free : q.Free poseidon) {other : ShieldedPool.Spend} (first : Known poseidon extract q sp)
    (second : Known poseidon extract q other) (k j : Fin 2) :
    (((extract sp).note k).queries.union ((extract other).note j).queries).Free poseidon := by
  apply free.within
  constructor
  · rintro p (mine | theirs)
    · exact first.within.pairs ⟨k, .inl mine⟩
    · exact second.within.pairs ⟨j, .inl theirs⟩
  · rintro t (mine | theirs)
    · exact first.within.triples ⟨k, .inl mine⟩
    · exact second.within.triples ⟨j, .inl theirs⟩

/-- An input with value opens a leaf of the pool. -/
theorem leaf_of_input (hashes : Hashes d poseidon) (free : q.Free poseidon)
    (filled : ∀ t ∈ q.triples, poseidon.three t.1 t.2.1 t.2.2 ≠ 0) (sound : Sound poseidon extract q d chain)
    (known : Known poseidon extract q sp) (rooted : sp.root ∈ chain.pool.published)
    (trees : ∀ n, treeQueries poseidon ((leavesOf chain.pool).take n) ⊆ q.pairs) {k : Fin 2} (nonzero : (extract sp).inValue k ≠ 0) :
    ∃ cm, chain.pool.isLeaf cm = true ∧ felt cm = (extract sp).cm poseidon k := by
  obtain ⟨sizes, -, -, published⟩ := (rootsOk_of_reachable sound.reachable hashes.table).published
  rw [published] at rooted
  obtain ⟨n, -, rooted⟩ := List.mem_map.mp rooted
  have root : (extract sp).root = Merkle.root poseidon.two 0 ShieldedPool.depth (((leavesOf chain.pool).take n).map felt) := by
    have zero : felt 0 = 0 := Nat.cast_zero
    rw [known.opens.exposes.root, ← rooted, hashes.two, ← zero, root_map felt_p2]
  obtain ⟨evaluated, opening⟩ := opening_mem known k
  have inside : Proofs.queries poseidon (extract sp) k (((leavesOf chain.pool).take n).map felt) ⊆ q.pairs := by
    rintro p (climbed | built)
    · exact known.within.pairs ⟨k, .inr climbed⟩
    · exact trees n built
  have collisionFree : CollisionFree poseidon.two (Proofs.queries poseidon (extract sp) k (((leavesOf chain.pool).take n).map felt)) :=
    fun a first b second => free.pairs a (inside first) b (inside second)
  have leaf := member_of_spend known.opens.satisfied root nonzero collisionFree (by rw [opening]; exact filled _ evaluated)
  obtain ⟨cm, member, same⟩ := List.mem_map.mp (List.mem_of_getElem? leaf)
  exact ⟨cm, ((treeOk_of_reachable sound.reachable).grown.member cm).mpr (List.mem_of_mem_take member), same⟩

/-- The values that a tuple's inputs bring in. -/
def inputValue (s : Signals ShieldedPool.depth) : Nat := ∑ k, (s.inValue k).val

/-- The leaf that input `k` opens. -/
def inputLeaf (poseidon : Poseidon) (s : Signals ShieldedPool.depth) (k : Fin 2) : Word := BitVec.ofNat 256 (s.cm poseidon k).val

theorem felt_inputLeaf (s : Signals ShieldedPool.depth) (k : Fin 2) : felt (inputLeaf poseidon s k) = s.cm poseidon k := felt_word _

theorem inputLeaf_eq {s : Signals ShieldedPool.depth} {k : Fin 2} {cm : Word} (canonical : cm < fieldP) (same : felt cm = s.cm poseidon k) :
    inputLeaf poseidon s k = cm := by
  apply BitVec.eq_of_toNat_eq
  rw [inputLeaf, toNat_word, ← same, val_felt canonical]

theorem noteValue_inputLeaf (free : q.Free poseidon) (known : Known poseidon extract q sp) (k : Fin 2) :
    noteValue poseidon q (inputLeaf poseidon (extract sp) k) = ((extract sp).inValue k).val := by
  obtain ⟨evaluated, opening⟩ := opening_mem known k
  exact noteValue_eq free evaluated ((felt_inputLeaf _ k).trans opening)

/-- The key that an input shows is consumed by its payment, -/
theorem consumed_of_payment (approved : Approved d tx scope f sp) (known : Known poseidon extract q sp) {paid : List FrameTx}
    (member : tx ∈ paid) (k : Fin 2) : KeyConsumed poseidon extract paid (inputLeaf poseidon (extract sp) k) := by
  have tuple := tuple_of_approved approved
  refine ⟨tx, member, k, ?_, keyOf sp k, keyOf_mem approved k, ?_⟩
  · rw [tuple, felt_inputLeaf]
  · rw [tuple, ← felt_keyOf known.opens, nf_of_spend known.opens.satisfied]

/-- and was not before. -/
theorem unconsumed_of_fresh (free : q.Free poseidon) (sound : Sound poseidon extract q d chain) (approved : Approved d tx scope f sp)
    (known : Known poseidon extract q sp) (fresh : chain.KeysFresh d.self tx) (k : Fin 2) :
    ¬ KeyConsumed poseidon extract chain.paid (inputLeaf poseidon (extract sp) k) := by
  rintro ⟨old, member, j, same, -⟩
  obtain ⟨knownOld, _, _, approvedOld⟩ := sound.paid old member
  rw [felt_inputLeaf] at same
  have key := key_of_same_note approvedOld approved knownOld.opens known.opens (free_of_known free knownOld known j k) same.symm
  apply fresh approved.sender approved.nonceSeq _ (keyOf_mem approved k)
  exact consumed_of_paid member (key ▸ keyOf_mem approvedOld j)

theorem KeyConsumed.mono {paid more : List FrameTx} (inside : ∀ tx ∈ paid, tx ∈ more) {cm : Word}
    (consumed : KeyConsumed poseidon extract paid cm) : KeyConsumed poseidon extract more cm := by
  obtain ⟨tx, member, rest⟩ := consumed
  exact ⟨tx, inside tx member, rest⟩

/-- A payment takes what its inputs are worth out of what the pool owes. -/
theorem owed_of_payment (hashes : Hashes d poseidon) (free : q.Free poseidon)
    (filled : ∀ t ∈ q.triples, poseidon.three t.1 t.2.1 t.2.2 ≠ 0) (sound : Sound poseidon extract q d chain)
    (approved : Approved d tx scope f sp) (known : Known poseidon extract q sp) (rooted : sp.root ∈ chain.pool.published)
    (trees : ∀ n, treeQueries poseidon ((leavesOf chain.pool).take n) ⊆ q.pairs) (fresh : chain.KeysFresh d.self tx)
    {after : Chain State} (pool : after.pool = chain.pool) (paid : after.paid = chain.paid ++ [tx]) :
    owed poseidon extract (noteValue poseidon q) after + inputValue (extract sp) ≤ owed poseidon extract (noteValue poseidon q) chain := by
  let leaf := inputLeaf poseidon (extract sp)
  let valuable := Finset.univ.filter fun k : Fin 2 => (extract sp).inValue k ≠ 0
  have injective : Set.InjOn leaf valuable := by
    intro k _ j _ same
    have apart : leaf 0 ≠ leaf 1 := by
      intro same
      apply inputs_apart approved known.opens (free_of_known free known known 0 1)
      rw [← felt_inputLeaf, ← felt_inputLeaf]
      exact congrArg felt same
    fin_cases k <;> fin_cases j
    · rfl
    · exact absurd same apart
    · exact absurd same.symm apart
    · rfl
  have worth : ∑ cm ∈ valuable.image leaf, noteValue poseidon q cm = inputValue (extract sp) := by
    rw [Finset.sum_image injective, Finset.sum_congr rfl fun k _ => noteValue_inputLeaf free known k, inputValue]
    refine Finset.sum_filter_of_ne fun k _ positive zero => positive ?_
    rw [zero, ZMod.val_zero]
  have redeemed : unspent poseidon extract (noteValue poseidon q) after + inputValue (extract sp) ≤
      unspent poseidon extract (noteValue poseidon q) chain := by
    rw [← worth, unspent, unspent, pool, paid]
    apply Coins.worth_redeem
    · intro cm member
      obtain ⟨k, nonzero, rfl⟩ := Finset.mem_image.mp member
      obtain ⟨cm, isLeaf, same⟩ := leaf_of_input hashes free filled sound known rooted trees (Finset.mem_filter.mp nonzero).2
      have equal : leaf k = cm := inputLeaf_eq (sound.committed cm isLeaf).1 same
      exact ⟨equal ▸ isLeaf, unconsumed_of_fresh free sound approved known fresh k⟩
    · intro cm member still
      obtain ⟨k, -, rfl⟩ := Finset.mem_image.mp member
      exact still.2 (consumed_of_payment approved known (List.mem_append_right _ (List.mem_singleton_self _)) k)
    · intro cm still
      exact ⟨still.1, fun consumed => still.2 (consumed.mono fun _ => List.mem_append_left _)⟩
  rw [owed, owed, pool]
  omega

/-- The outputs of a known tuple are commitments to their values. -/
theorem output_mem (known : Known poseidon extract q sp) :
    opening ((extract sp).outInner 0) ((extract sp).outValue 0) ∈ q.triples ∧
      felt sp.outCm1 = poseidon.commit ((extract sp).outInner 0) ((extract sp).outValue 0) ∧
      opening ((extract sp).outInner 1) ((extract sp).outValue 1) ∈ q.triples ∧
      felt sp.outCm2 = poseidon.commit ((extract sp).outInner 1) ((extract sp).outValue 1) := by
  have satisfied := known.opens.satisfied
  have exposes := known.opens.exposes
  refine ⟨known.within.triples ⟨0, .inr rfl⟩, ?_, known.within.triples ⟨1, .inr rfl⟩, ?_⟩
  · rw [← exposes.outCm1, satisfied.outCm1, satisfied.outCm, Poseidon.commit]
  · rw [← exposes.outCm2, satisfied.outCm2, satisfied.outCm, Poseidon.commit]

/-- The circuit's conservation equation, in the amounts of the tuple. -/
theorem inputValue_eq (opens : Opens poseidon sp (extract sp)) (amount : sp.publicAmount < maxValue) (fee : sp.fee < maxValue) :
    inputValue (extract sp) =
      ((extract sp).outValue 0).val + ((extract sp).outValue 1).val + sp.publicAmount.toNat + sp.fee.toNat := by
  have fits : maxValue < fieldP := by decide
  have exposes := opens.exposes
  rw [inputValue, Fin.sum_univ_two, conserved_of_spend opens.satisfied, exposes.publicAmount, exposes.fee, val_felt (BitVec.lt_trans amount fits),
    val_felt (BitVec.lt_trans fee fits)]

theorem total_feeCreditAfter {payer : Address} (credits : CreditsFit d chain.pool sp payer) :
    total (feeCreditAfter d sp payer chain.pool.feeCredit) ≤
      total chain.pool.feeCredit + if payer = d.self then 0 else sp.fee.toNat := by
  rw [feeCreditAfter]
  by_cases due : sp.fee ≠ 0 ∧ payer ≠ d.self
  · rw [if_pos due, if_neg due.2, total_add _ _ _ (credits.fee due)]
  · rw [if_neg due]
    exact Nat.le_add_right _ _

theorem total_withdrawalCreditAfter {payer : Address} (credits : CreditsFit d chain.pool sp payer) :
    total (withdrawalCreditAfter sp chain.pool.withdrawalCredit) ≤ total chain.pool.withdrawalCredit + sp.publicAmount.toNat := by
  rw [withdrawalCreditAfter]
  split_ifs
  · exact Nat.le_add_right _ _
  · exact (total_add _ _ _ credits.withdrawal).le

/-- A settlement owes no more than its payment has set free, less the fee when the pool has paid. -/
theorem owed_of_settlement (free : q.Free poseidon) (known : Known poseidon extract q sp) (amount : sp.publicAmount < maxValue)
    (fee : sp.fee < maxValue) {payer : Address} (credits : CreditsFit d chain.pool sp payer) {c : Call} {after : Chain State}
    (pool : after.pool = outcome d c chain.pool sp payer) (paid : after.paid = chain.paid) :
    owed poseidon extract (noteValue poseidon q) after + (if payer = d.self then sp.fee.toNat else 0) ≤
      owed poseidon extract (noteValue poseidon q) chain + inputValue (extract sp) := by
  obtain ⟨-, leaf, feeCredit, withdrawalCredit⟩ := outcome_fields d c chain.pool sp payer
  obtain ⟨evaluated1, opening1, evaluated2, opening2⟩ := output_mem known
  have issued : unspent poseidon extract (noteValue poseidon q) after ≤ unspent poseidon extract (noteValue poseidon q) chain +
      noteValue poseidon q sp.outCm1 + noteValue poseidon q sp.outCm2 := by
    let first (cm : Word) : Prop := (chain.pool.isLeaf cm = true ∧ ¬ KeyConsumed poseidon extract chain.paid cm) ∨ cm = sp.outCm1
    have one : Coins.worth first (noteValue poseidon q) ≤ unspent poseidon extract (noteValue poseidon q) chain +
        noteValue poseidon q sp.outCm1 := Coins.worth_issue fun _ held => held
    have two : unspent poseidon extract (noteValue poseidon q) after ≤ Coins.worth first (noteValue poseidon q) +
        noteValue poseidon q sp.outCm2 := by
      apply Coins.worth_issue
      rintro cm ⟨isLeaf, unconsumed⟩
      rw [pool, leaf] at isLeaf
      rw [paid] at unconsumed
      rcases isLeaf with (here | here) | old
      · exact .inl (.inr here)
      · exact .inr here
      · exact .inl (.inl ⟨old, unconsumed⟩)
    exact two.trans (Nat.add_le_add_right one _)
  rw [noteValue_eq free evaluated1 opening1, noteValue_eq free evaluated2 opening2] at issued
  have fees := total_feeCreditAfter credits
  have withdrawals := total_withdrawalCreditAfter credits
  have conserved := inputValue_eq known.opens amount fee
  rw [owed, owed, pool, feeCredit, withdrawalCredit]
  split_ifs at fees ⊢ <;> omega

theorem Sound.settle (sound : Sound poseidon extract q d chain) (known : Known poseidon extract q sp) (canonical : sp.Canonical)
    {payer : Address} {c : Call} {after : Chain State} (reachable : Reachable d after.pool)
    (pool : after.pool = outcome d c chain.pool sp payer) (paid : after.paid = chain.paid) : Sound poseidon extract q d after where
  reachable := reachable
  committed := by
    obtain ⟨-, leaf, -⟩ := outcome_fields d c chain.pool sp payer
    obtain ⟨evaluated1, opening1, evaluated2, opening2⟩ := output_mem known
    intro cm isLeaf
    rw [pool, leaf] at isLeaf
    rcases isLeaf with (rfl | rfl) | old
    · exact ⟨canonical.2.2.2.1, _, _, evaluated1, opening1⟩
    · exact ⟨canonical.2.2.2.2.1, _, _, evaluated2, opening2⟩
    · exact sound.committed cm old
  paid := by
    rw [paid]
    exact sound.paid

end Proofs

end ShieldedPool
