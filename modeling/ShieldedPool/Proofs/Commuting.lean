import ShieldedPool.Proofs.Jobs
import ShieldedPool.Proofs.Panic

/-! Spends with disjoint nullifiers, executed one after the other in any order. Their credits,
leaves and payments add up to the same; only the order of the new leaves differs. -/

namespace ShieldedPool.Proofs
open Evm Exec Circuit
open Tooling (SettleData selfPaidTx settlementFrame)

variable {d : Deployment} {image : Dispatcher.Image} {outside : Outside d.self} {chain : Chain State} {s : State}

section Amounts
variable {κ α : Type} [DecidableEq κ] [AddCommSemigroup α]

def addAt (m : κ → α) (at_ : κ) (x : α) : κ → α := Function.update m at_ (m at_ + x)

theorem addAt_comm (m : κ → α) (a b : κ) (x y : α) : addAt (addAt m a x) b y = addAt (addAt m b y) a x := by
  funext c
  by_cases same : a = b
  · subst same
    by_cases here : c = a
    · subst here
      simp only [addAt, Function.update_self]
      exact add_right_comm _ _ _
    · simp only [addAt, Function.update_of_ne here]
  · by_cases first : c = a
    · subst first
      simp only [addAt, Function.update_self, Function.update_of_ne same]
    · by_cases second : c = b
      · subst second
        simp only [addAt, Function.update_self, Function.update_of_ne first]
      · simp only [addAt, Function.update_of_ne first, Function.update_of_ne second]

end Amounts

theorem feeCreditAfter_comm (j k : ShieldedPool.Spend) (payer payer' : Address) (m : Address → Word) :
    feeCreditAfter d k payer' (feeCreditAfter d j payer m) = feeCreditAfter d j payer (feeCreditAfter d k payer' m) := by
  simp only [feeCreditAfter]
  split_ifs
  · exact addAt_comm m payer payer' j.fee k.fee
  all_goals rfl

theorem withdrawalCreditAfter_comm (j k : ShieldedPool.Spend) (m : Address → Word) :
    withdrawalCreditAfter k (withdrawalCreditAfter j m) = withdrawalCreditAfter j (withdrawalCreditAfter k m) := by
  simp only [withdrawalCreditAfter]
  split_ifs
  · rfl
  · rfl
  · rfl
  · exact addAt_comm m _ _ j.publicAmount k.publicAmount

/-- What is left to insert once some outputs are leaves. -/
theorem freshOutputs_after {t : State} {first : Finset Word} (second : Finset Word) (leaves : ∀ cm, t.isLeaf cm = true ↔ cm ∈ first ∨ s.isLeaf cm = true) :
    (freshOutputs s first).card + (freshOutputs t second).card = (freshOutputs s (first ∪ second)).card := by
  have later : freshOutputs t second = freshOutputs s (second \ first) := by
    ext cm
    have known := leaves cm
    simp only [freshOutputs, Finset.mem_filter, Finset.mem_sdiff, ← Bool.not_eq_true]
    tauto
  have split : freshOutputs s (first ∪ second) = freshOutputs s first ∪ freshOutputs s (second \ first) := by
    rw [freshOutputs, freshOutputs, freshOutputs, ← Finset.filter_union, Finset.union_sdiff_self_eq_union]
  have apart : Disjoint (freshOutputs s first) (freshOutputs s (second \ first)) :=
    Finset.disjoint_filter_filter (Finset.disjoint_sdiff)
  rw [later, split, Finset.card_union_of_disjoint apart]

variable {j k : Job} {refund : Nat} {last : Ledger State} {history : List (Entry State)}

/-- Once `j` has been paid for, a transaction that takes other notes can still be executed. -/
theorem Job.Spends.after {ch : Chain State} (spends : k.Spends d image outside chain) (approved : Approved d j.tx j.scope j.frame j.spend)
    (nullifiers : Disjoint ({j.spend.nf1, j.spend.nf2} : Finset Word) {k.spend.nf1, k.spend.nf2})
    (enough : j.payer = k.payer → j.tx.maxCost.toNat + k.tx.maxCost.toNat ≤ chain.eth j.payer) (after : After d chain j refund ch) :
    k.Spends d image outside ch := by
  obtain ⟨⟨⟨ordered, fresh, rooted⟩, authorized, paying, funds⟩, own, nonzero⟩ := spends
  refine ⟨⟨⟨ordered, fun sender nonce key mine => ?_, fun r member source => after.published _ (rooted r member source)⟩, authorized, paying,
    ?_⟩, own, nonzero⟩
  · rw [Chain.consumed, after.paid, List.flatMap_append, List.mem_append, not_or]
    refine ⟨fresh sender nonce key mine, fun theirs => ?_⟩
    obtain ⟨tx, here, theirs⟩ := List.mem_flatMap.mp theirs
    rw [List.mem_singleton.mp here] at theirs
    rw [approved.keys] at theirs
    rw [own.keys] at mine
    exact Finset.disjoint_left.mp nullifiers (mem_keys.mp theirs) (mem_keys.mp mine)
  · rw [after.eth]
    by_cases same : k.payer = j.payer
    · have enough := enough same.symm
      rw [same, Function.update_self]
      omega
    · rw [Function.update_of_ne same]
      exact funds

theorem eth_of_refund {max : Nat} {payer : Address} (eth : Address → Nat) (bound : refund ≤ max) (funds : max ≤ eth payer) (a : Address) :
    Function.update eth payer (eth payer - max + refund) a + (if a = payer then max - refund else 0) = eth a := by
  by_cases here : a = payer
  · subst here
    rw [Function.update_self, if_pos rfl]
    omega
  · rw [Function.update_of_ne here, if_neg here, Nat.add_zero]

/-- What an account has to have to pay for all of them. -/
def owing (jobs : List Job) (a : Address) : Nat := (jobs.map fun j => if j.payer = a then j.tx.maxCost.toNat else 0).sum

/-- The gas an account is charged for all of them, each with its refund. -/
def charged (turns : List (Job × Nat)) (a : Address) : Nat := (turns.map fun turn => turn.1.gas turn.2 a).sum

def allOutputs (jobs : List Job) : Finset Word := jobs.foldr (fun j outputs => outputsOf j.spend ∪ outputs) ∅

theorem mem_allOutputs {jobs : List Job} {cm : Word} : cm ∈ allOutputs jobs ↔ ∃ j ∈ jobs, cm ∈ outputsOf j.spend := by
  induction jobs with
  | nil => simp [allOutputs]
  | cons j rest ih =>
    have split : allOutputs (j :: rest) = outputsOf j.spend ∪ allOutputs rest := rfl
    rw [split, Finset.mem_union, ih, List.exists_mem_cons_iff]

theorem allOutputs_perm {jobs jobs' : List Job} (perm : jobs.Perm jobs') : allOutputs jobs = allOutputs jobs' := by
  ext cm
  rw [mem_allOutputs, mem_allOutputs]
  exact exists_congr fun j => and_congr_left' perm.mem_iff

theorem owing_cons (rest : List Job) (a : Address) : owing (j :: rest) a = (if j.payer = a then j.tx.maxCost.toNat else 0) + owing rest a :=
  List.sum_cons

theorem le_owing {jobs : List Job} (member : j ∈ jobs) : j.tx.maxCost.toNat ≤ owing jobs j.payer := by
  apply List.single_le_sum (fun _ _ => Nat.zero_le _)
  exact List.mem_map.mpr ⟨j, member, if_pos rfl⟩

variable (d image outside chain) in
/-- Transactions that frame 0 approves, that take different notes and that their payers can pay for
together. -/
structure Independent (jobs : List Job) : Prop where
  spends : ∀ j ∈ jobs, j.Spends d image outside chain
  nullifiers : jobs.Pairwise fun j k => Disjoint ({j.spend.nf1, j.spend.nf2} : Finset Word) {k.spend.nf1, k.spend.nf2}
  funds : ∀ a, owing jobs a ≤ chain.eth a

/-- The entries of each of them by itself, one after the other, with what is refunded to its payer. -/
def ShowsInTurn : List (Job × Nat) → List (Entry State) → Prop
  | [], history => history = []
  | (j, refund) :: rest, history =>
    ∃ earlier later, history = earlier ++ later ∧ j.Shows refund (earlier.map Entry.shown) ∧ ShowsInTurn rest later

variable {rest jobs jobs' : List Job} {turns turns' : List (Job × Nat)}

theorem Independent.perm (independent : Independent d image outside chain jobs) (perm : jobs.Perm jobs') :
    Independent d image outside chain jobs' where
  spends j member := independent.spends j (perm.mem_iff.mpr member)
  nullifiers := perm.pairwise independent.nullifiers fun apart => apart.symm
  funds a := by
    have same : owing jobs a = owing jobs' a := (perm.map _).sum_eq
    exact same ▸ independent.funds a

/-- Once one has been paid for, the others are as independent as before. -/
theorem Independent.after (independent : Independent d image outside chain (j :: rest)) {ch : Chain State} (after : After d chain j refund ch) :
    Independent d image outside ch rest := by
  have first := independent.spends j List.mem_cons_self
  obtain ⟨apart, others⟩ := List.pairwise_cons.mp independent.nullifiers
  refine ⟨fun k member => ?_, others, fun a => ?_⟩
  · refine (independent.spends k (List.mem_cons_of_mem _ member)).after first.approved (apart k member) (fun same => ?_) after
    have enough := independent.funds j.payer
    have most := le_owing member
    rw [owing_cons, if_pos rfl] at enough
    rw [← same] at most
    omega
  · have enough := independent.funds a
    rw [owing_cons] at enough
    rw [after.eth]
    by_cases here : a = j.payer
    · subst here
      rw [if_pos rfl] at enough
      rw [Function.update_self]
      omega
    · rw [Function.update_of_ne here]
      exact (Nat.le_add_left _ _).trans enough

theorem executed_in_turn (independent : Independent d image outside chain (turns.map Prod.fst)) (small : ∀ a, chain.eth a < 2 ^ 256)
    (bounds : ∀ turn ∈ turns, turn.2 ≤ turn.1.tx.maxCost.toNat) {b : Block} (written : ∀ data, b.publishes data = true) :
    ∃ history last, Run (dispatcherNetwork d image outside) ⟨chain, [], none⟩ history last ∧ ShowsInTurn turns history := by
  induction turns generalizing chain with
  | nil => exact ⟨[], _, .start, rfl⟩
  | cons turn rest ih =>
    obtain ⟨j, refund⟩ := turn
    have first := independent.spends j List.mem_cons_self
    have bound := bounds (j, refund) List.mem_cons_self
    obtain ⟨_, earlier, ch, -, run, shown, after⟩ := executed_of_spends first small bound written
    obtain ⟨later, last, run', shown'⟩ := ih (independent.after after) (after.small bound first.ready.funds small) fun turn member =>
      bounds turn (List.mem_cons_of_mem _ member)
    exact ⟨_, last, run_append run run', earlier, later, rfl, ⟨_, _, written, shown⟩, shown'⟩

/-- What transactions that have settled leave, whatever their order was. -/
structure AllSettled (d : Deployment) (chain : Chain State) (turns : List (Job × Nat)) (last : Ledger State) : Prop where
  idle : last.stack = [] ∧ last.tx = none
  nextIndex : last.chain.pool.nextIndex = chain.pool.nextIndex + (freshOutputs chain.pool (allOutputs (turns.map Prod.fst))).card
  isLeaf : ∀ cm, last.chain.pool.isLeaf cm = true ↔ cm ∈ allOutputs (turns.map Prod.fst) ∨ chain.pool.isLeaf cm = true
  feeCredit : last.chain.pool.feeCredit =
    (turns.map Prod.fst).foldl (fun m j => feeCreditAfter d j.spend j.payer m) chain.pool.feeCredit
  withdrawalCredit : last.chain.pool.withdrawalCredit =
    (turns.map Prod.fst).foldl (fun m j => withdrawalCreditAfter j.spend m) chain.pool.withdrawalCredit
  paid : last.chain.paid = chain.paid ++ (turns.map Prod.fst).map Job.tx
  eth : ∀ a, last.chain.eth a + charged turns a = chain.eth a

/-- What one leaves to insert for the others. -/
theorem fresh_after (s : State) (c : Call) (j : Job) (outputs : Finset Word) :
    (freshOutputs s (outputsOf j.spend)).card + (freshOutputs (outcome d c s j.spend j.payer) outputs).card =
      (freshOutputs s (outputsOf j.spend ∪ outputs)).card := by
  obtain ⟨-, leaves, -, -⟩ := outcome_fields d c s j.spend j.payer
  apply freshOutputs_after
  intro cm
  rw [leaves, outputsOf, Finset.mem_insert, Finset.mem_singleton]

theorem room_first {outputs : Finset Word}
    (room : chain.pool.nextIndex + (freshOutputs chain.pool (outputsOf j.spend ∪ outputs)).card ≤ 2 ^ depth) :
    ¬ Overflows chain.pool (outputsOf j.spend) := by
  have fewer : (freshOutputs chain.pool (outputsOf j.spend)).card ≤ (freshOutputs chain.pool (outputsOf j.spend ∪ outputs)).card :=
    Finset.card_le_card (Finset.filter_subset_filter _ Finset.subset_union_left)
  exact fun excess => by have := excess.2; omega

theorem room_later {outputs : Finset Word} (room : chain.pool.nextIndex + (freshOutputs chain.pool (outputsOf j.spend ∪ outputs)).card ≤ 2 ^ depth)
    (c : Call) : (outcome d c chain.pool j.spend j.payer).nextIndex +
      (freshOutputs (outcome d c chain.pool j.spend j.payer) outputs).card ≤ 2 ^ depth := by
  have sum := fresh_after (d := d) chain.pool c j outputs
  have index : (outcome d c chain.pool j.spend j.payer).nextIndex = chain.pool.nextIndex + (freshOutputs chain.pool (outputsOf j.spend)).card :=
    (outcome_fields d c chain.pool j.spend j.payer).1
  omega

/-- With room in the tree for the outputs of all, executed one after the other they all settle. -/
theorem allSettled_of_run (independent : Independent d image outside chain (turns.map Prod.fst))
    (room : chain.pool.nextIndex + (freshOutputs chain.pool (allOutputs (turns.map Prod.fst))).card ≤ 2 ^ depth)
    (run : Run (dispatcherNetwork d image outside) ⟨chain, [], none⟩ history last) (shown : ShowsInTurn turns history)
    (calm : ∀ e ∈ history, ∀ c, e.shown ≠ .called c (.error arithmeticPanic)) :
    (∀ e ∈ history, ∀ c result, e.shown = .called c result → result = .ok (.returned [])) ∧ AllSettled d chain turns last := by
  induction turns generalizing chain history with
  | nil =>
    cases shown
    obtain rfl := run_nil run
    refine ⟨fun e member => absurd member List.not_mem_nil, ⟨rfl, rfl⟩, ?_, fun cm => ?_, rfl, rfl, (List.append_nil _).symm, fun _ => rfl⟩
    · simp [allOutputs, freshOutputs]
    · simp [allOutputs]
  | cons turn rest ih =>
    obtain ⟨j, refund⟩ := turn
    obtain ⟨earlier, later, rfl, shows, onwards⟩ := shown
    obtain ⟨middle, run, run'⟩ := run_split run
    have first := independent.spends j List.mem_cons_self
    have room : chain.pool.nextIndex + (freshOutputs chain.pool (outputsOf j.spend ∪ allOutputs (rest.map Prod.fst))).card ≤ 2 ^ depth := room
    have done := done_of_run first run shows (room_first room) fun e member => calm e (List.mem_append_left _ member)
    obtain ⟨c, pool⟩ := done.pool
    have sum := fresh_after (d := d) chain.pool c j (allOutputs (rest.map Prod.fst))
    have left := room_later (d := d) room c
    obtain ⟨index, leaves, fees, withdrawals⟩ := outcome_fields d c chain.pool j.spend j.payer
    rw [← pool] at sum left index leaves fees withdrawals
    have index : middle.chain.pool.nextIndex = chain.pool.nextIndex + (freshOutputs chain.pool (outputsOf j.spend)).card := index
    rw [done.idle] at run'
    obtain ⟨settles, all⟩ := ih (independent.after done.after) left run' onwards fun e member => calm e (List.mem_append_right _ member)
    refine ⟨fun e member => (List.mem_append.mp member).elim (done.settles e) (settles e), all.idle, ?_, fun cm => ?_, ?_, ?_, ?_, fun a => ?_⟩
    · exact all.nextIndex.trans (by rw [index, Nat.add_assoc, sum]; rfl)
    · rw [all.isLeaf, leaves]
      change _ ↔ cm ∈ outputsOf j.spend ∪ allOutputs (rest.map Prod.fst) ∨ _
      rw [Finset.mem_union, outputsOf, Finset.mem_insert, Finset.mem_singleton]
      tauto
    · rw [all.feeCredit, fees]
      rfl
    · rw [all.withdrawalCredit, withdrawals]
      rfl
    · rw [all.paid, done.after.paid, List.append_assoc]
      rfl
    · have sum : charged ((j, refund) :: rest) a = j.gas refund a + charged rest a := List.sum_cons
      have charged := eth_of_refund chain.eth done.bound first.ready.funds a
      rw [← done.after.eth] at charged
      rw [sum, Nat.add_left_comm, all.eth, Job.gas, Nat.add_comm, charged]

/-- Two orders end with the same counters, leaves, credits, nonce keys and, but for the gas, balances. -/
structure EndsAlike (turns turns' : List (Job × Nat)) (one other : Ledger State) : Prop where
  nextIndex : one.chain.pool.nextIndex = other.chain.pool.nextIndex
  isLeaf : one.chain.pool.isLeaf = other.chain.pool.isLeaf
  feeCredit : one.chain.pool.feeCredit = other.chain.pool.feeCredit
  withdrawalCredit : one.chain.pool.withdrawalCredit = other.chain.pool.withdrawalCredit
  consumed : ∀ key, key ∈ one.chain.consumed ↔ key ∈ other.chain.consumed
  eth : ∀ a, one.chain.eth a + charged turns a = other.chain.eth a + charged turns' a

theorem endsAlike_of_allSettled {one other : Ledger State} (perm : (turns.map Prod.fst).Perm (turns'.map Prod.fst))
    (first : AllSettled d chain turns one) (second : AllSettled d chain turns' other) : EndsAlike turns turns' one other where
  nextIndex := by rw [first.nextIndex, second.nextIndex, allOutputs_perm perm]
  isLeaf := by
    funext cm
    rw [Bool.eq_iff_iff, first.isLeaf, second.isLeaf, allOutputs_perm perm]
  feeCredit := by
    rw [first.feeCredit, second.feeCredit]
    apply perm.foldl_eq'
    intro j _ k _ m
    apply feeCreditAfter_comm
  withdrawalCredit := by
    rw [first.withdrawalCredit, second.withdrawalCredit]
    apply perm.foldl_eq'
    intro j _ k _ m
    apply withdrawalCreditAfter_comm
  consumed key := by
    rw [Chain.consumed, Chain.consumed, first.paid, second.paid]
    exact (((perm.map _).append_left _).flatMap_right _).mem_iff
  eth a := (first.eth a).trans (second.eth a).symm

section Orders
variable {poseidon : Poseidon} {extract : ShieldedPool.Spend → Signals ShieldedPool.depth}

/-- They begin nothing but themselves. -/
theorem begun_in_turn (shown : ShowsInTurn turns history) {e : Entry State} (member : e ∈ history) {tx : FrameTx} (begun : e.shown = .begun tx) :
    ∃ j ∈ turns.map Prod.fst, tx = j.tx := by
  induction turns generalizing history with
  | nil =>
    cases shown
    exact absurd member List.not_mem_nil
  | cons turn rest ih =>
    obtain ⟨earlier, later, rfl, shows, onwards⟩ := shown
    rcases List.mem_append.mp member with inside | inside
    · exact ⟨turn.1, List.mem_cons_self, begun_of_shows shows inside begun⟩
    · obtain ⟨j, listed, same⟩ := ih onwards inside
      exact ⟨j, List.mem_cons_of_mem _ listed, same⟩

/-- In a run that ends with them all settle, unless its hashes fail it. -/
theorem settled_in_turn (hashes : Hashes d poseidon) {eth : Address → Nat} (words : ∀ a, eth a < 2 ^ 256) {before : List (Entry State)}
    (run : Run (dispatcherNetwork d image outside) (launch eth) before ⟨chain, [], none⟩)
    (independent : Independent d image outside chain (turns.map Prod.fst))
    (room : chain.pool.nextIndex + (freshOutputs chain.pool (allOutputs (turns.map Prod.fst))).card ≤ 2 ^ depth)
    (extracts : ∀ tx, Proved d before tx ∨ (∃ j ∈ turns.map Prod.fst, tx = j.tx) → Opens poseidon tx.tuple (extract tx.tuple))
    (executed : Run (dispatcherNetwork d image outside) ⟨chain, [], none⟩ history last) (shown : ShowsInTurn turns history) :
    Broken poseidon (runQueries poseidon extract d (before ++ history)) ∨
      (∀ e ∈ history, ∀ c result, e.shown = .called c result → result = .ok (.returned [])) ∧ AllSettled d chain turns last := by
  have opens (tx : FrameTx) (proved : Proved d (before ++ history) tx) : Opens poseidon tx.tuple (extract tx.tuple) := by
    obtain ⟨verified, e, member, begun⟩ := proved
    rcases List.mem_append.mp member with inside | inside
    · exact extracts tx (.inl ⟨verified, e, inside, begun⟩)
    · exact extracts tx (.inr (begun_in_turn shown inside begun))
  refine (calm_of_run hashes words (run_append run executed) opens).imp_right fun calm => ?_
  exact allSettled_of_run independent room executed shown fun e member => calm e (List.mem_append_right _ member)

/-- Two orders of the same transactions end alike, unless the hashes of one of them fail it. -/
theorem alike_in_turn (hashes : Hashes d poseidon) {eth : Address → Nat} (words : ∀ a, eth a < 2 ^ 256) {before : List (Entry State)}
    (run : Run (dispatcherNetwork d image outside) (launch eth) before ⟨chain, [], none⟩)
    (independent : Independent d image outside chain jobs)
    (room : chain.pool.nextIndex + (freshOutputs chain.pool (allOutputs jobs)).card ≤ 2 ^ depth)
    (extracts : ∀ tx, Proved d before tx ∨ (∃ j ∈ jobs, tx = j.tx) → Opens poseidon tx.tuple (extract tx.tuple))
    {history' : List (Entry State)} {one other : Ledger State} (perm : (turns.map Prod.fst).Perm jobs) (perm' : (turns'.map Prod.fst).Perm jobs)
    (executed : Run (dispatcherNetwork d image outside) ⟨chain, [], none⟩ history one) (shown : ShowsInTurn turns history)
    (executed' : Run (dispatcherNetwork d image outside) ⟨chain, [], none⟩ history' other) (shown' : ShowsInTurn turns' history') :
    Broken poseidon (runQueries poseidon extract d (before ++ history)) ∨
      Broken poseidon (runQueries poseidon extract d (before ++ history')) ∨
      (∀ e ∈ history ++ history', ∀ c result, e.shown = .called c result → result = .ok (.returned [])) ∧ EndsAlike turns turns' one other := by
  have settled {turns : List (Job × Nat)} {history : List (Entry State)} {last : Ledger State} (perm : (turns.map Prod.fst).Perm jobs)
      (executed : Run (dispatcherNetwork d image outside) ⟨chain, [], none⟩ history last) (shown : ShowsInTurn turns history) :
      Broken poseidon (runQueries poseidon extract d (before ++ history)) ∨
        (∀ e ∈ history, ∀ c result, e.shown = .called c result → result = .ok (.returned [])) ∧ AllSettled d chain turns last := by
    refine settled_in_turn hashes words run (independent.perm perm.symm) ?_ (fun tx known => ?_) executed shown
    · rw [allOutputs_perm perm]
      exact room
    · exact extracts tx (known.imp_right fun ⟨j, listed, same⟩ => ⟨j, perm.mem_iff.mp listed, same⟩)
  rcases settled perm executed shown with broken | ⟨settles, done⟩
  · exact .inl broken
  rcases settled perm' executed' shown' with broken | ⟨settles', done'⟩
  · exact .inr (.inl broken)
  refine .inr (.inr ⟨fun e member => ?_, endsAlike_of_allSettled (perm.trans perm'.symm) done done'⟩)
  exact (List.mem_append.mp member).elim (settles e) (settles' e)

/-- Transactions that frame 0 approves and that take different notes do not interfere, two or any
number of them. If the tree has room for the outputs of all, they can be executed in any order, all
of them settle where their publications are accepted, and any two orders end alike. This holds
unless two hashes that the runs have evaluated collide or one of their commitments is zero. -/
theorem spends_settle_in_any_order (hashes : Hashes d poseidon) {eth : Address → Nat} (words : ∀ a, eth a < 2 ^ 256)
    {before : List (Entry State)} (run : Run (dispatcherNetwork d image outside) (launch eth) before ⟨chain, [], none⟩)
    (independent : Independent d image outside chain jobs)
    (room : chain.pool.nextIndex + (freshOutputs chain.pool (allOutputs jobs)).card ≤ 2 ^ depth)
    (extracts : ∀ tx, Proved d before tx ∨ (∃ j ∈ jobs, tx = j.tx) → Opens poseidon tx.tuple (extract tx.tuple)) :
    (∀ turns : List (Job × Nat), (turns.map Prod.fst).Perm jobs → (∀ turn ∈ turns, turn.2 ≤ turn.1.tx.maxCost.toNat) →
      ∃ history last, Run (dispatcherNetwork d image outside) ⟨chain, [], none⟩ history last ∧ ShowsInTurn turns history) ∧
    ∀ turns turns' history history' one other, (turns.map Prod.fst).Perm jobs → (turns'.map Prod.fst).Perm jobs →
      Run (dispatcherNetwork d image outside) ⟨chain, [], none⟩ history one → ShowsInTurn turns history →
      Run (dispatcherNetwork d image outside) ⟨chain, [], none⟩ history' other → ShowsInTurn turns' history' →
      Broken poseidon (runQueries poseidon extract d (before ++ history)) ∨
        Broken poseidon (runQueries poseidon extract d (before ++ history')) ∨
        (∀ e ∈ history ++ history', ∀ c result, e.shown = .called c result → result = .ok (.returned [])) ∧
          EndsAlike turns turns' one other := by
  refine ⟨fun turns perm bounds => ?_, fun turns turns' history history' one other perm perm' executed shown executed' shown' => ?_⟩
  · have written (data : Bytes) : (⟨0, fun _ => true⟩ : Block).publishes data = true := rfl
    exact executed_in_turn (independent.perm perm.symm) (small_of_run run words) bounds written
  · exact alike_in_turn hashes words run independent room extracts perm perm' executed shown executed' shown'

end Orders

variable (d image outside chain) in
/-- Transaction `j` is executed by itself, and then `k`. -/
structure InTurn (j k : Job) (refund refund' : Nat) (history : List (Entry State)) (last : Ledger State) : Prop where
  run : Run (dispatcherNetwork d image outside) ⟨chain, [], none⟩ history last
  shown : ∃ earlier later, history = earlier ++ later ∧ j.Shows refund (earlier.map Entry.shown) ∧ k.Shows refund' (later.map Entry.shown)

variable (chain) in
/-- The two take different notes, there is room for the outputs of both, and if one account pays for both it can. -/
structure Apart (j k : Job) : Prop where
  nullifiers : Disjoint ({j.spend.nf1, j.spend.nf2} : Finset Word) {k.spend.nf1, k.spend.nf2}
  room : chain.pool.nextIndex + (freshOutputs chain.pool (outputsOf j.spend ∪ outputsOf k.spend)).card ≤ 2 ^ depth
  funds : j.payer = k.payer → j.tx.maxCost.toNat + k.tx.maxCost.toNat ≤ chain.eth j.payer

theorem Apart.symm (apart : Apart chain j k) : Apart chain k j where
  nullifiers := apart.nullifiers.symm
  room := Finset.union_comm (outputsOf j.spend) (outputsOf k.spend) ▸ apart.room
  funds same := by
    rw [same, Nat.add_comm]
    exact apart.funds same.symm

theorem inTurn_iff {refund' : Nat} : InTurn d image outside chain j k refund refund' history last ↔
    Run (dispatcherNetwork d image outside) ⟨chain, [], none⟩ history last ∧ ShowsInTurn [(j, refund), (k, refund')] history := by
  constructor
  · rintro ⟨run, earlier, later, rfl, shown, shown'⟩
    exact ⟨run, earlier, later, rfl, shown, later, [], (List.append_nil _).symm, shown', rfl⟩
  · rintro ⟨run, earlier, _, rfl, shown, later, _, rfl, shown', rfl⟩
    exact ⟨run, earlier, later, congrArg (earlier ++ ·) (List.append_nil _), shown, shown'⟩

theorem Apart.independent (apart : Apart chain j k) (first : j.Spends d image outside chain) (second : k.Spends d image outside chain) :
    Independent d image outside chain [j, k] where
  spends i member := by
    rcases List.mem_pair.mp member with rfl | rfl
    · exact first
    · exact second
  nullifiers := List.pairwise_pair.mpr apart.nullifiers
  funds a := by
    have enough := first.ready.funds
    have enough' := second.ready.funds
    have together := apart.funds
    rw [owing_cons, owing_cons]
    change _ + (_ + 0) ≤ _
    split_ifs with pays pays' pays'
    · subst pays
      exact together pays'.symm
    · subst pays
      exact enough
    · subst pays'
      omega
    · exact Nat.zero_le _

theorem Apart.room_all (apart : Apart chain j k) : chain.pool.nextIndex + (freshOutputs chain.pool (allOutputs [j, k])).card ≤ 2 ^ depth := by
  have both : allOutputs [j, k] = outputsOf j.spend ∪ outputsOf k.spend := congrArg (outputsOf j.spend ∪ ·) (Finset.union_empty _)
  rw [both]
  exact apart.room

/-- With room for their credits both settle, and their outputs become leaves in that order. -/
theorem inTurn_settles {eth : Address → Nat} (words : ∀ a, eth a < 2 ^ 256) {before : List (Entry State)}
    (run : Run (dispatcherNetwork d image outside) (launch eth) before ⟨chain, [], none⟩) (first : j.Spends d image outside chain)
    (second : k.Spends d image outside chain) (apart : Apart chain j k) (credits : CreditsFit d chain.pool j.spend j.payer)
    (credits' : ∀ c, CreditsFit d (outcome d c chain.pool j.spend j.payer) k.spend k.payer) {b : Block}
    (written : ∀ data, b.publishes data = true) :
    ∃ history last, InTurn d image outside chain j k 0 0 history last ∧
      history.map Entry.shown = script j.tx j.scope j.payer (settleCall j.tx j.frame j.payer b) (.ok (.returned [])) 0 ++
        script k.tx k.scope k.payer (settleCall k.tx k.frame k.payer b) (.ok (.returned [])) 0 ∧
      leavesOf last.chain.pool =
        [j.spend.outCm1, j.spend.outCm2, k.spend.outCm1, k.spend.outCm2].foldl extended (leavesOf chain.pool) := by
  have room := room_first apart.room
  obtain ⟨earlier, middle, run', shown, done⟩ := settles_of_spends first (small_of_run run words) room credits (Nat.zero_le _) written
  obtain ⟨ch, rfl⟩ : ∃ ch, middle = ⟨ch, [], none⟩ := ⟨_, done.idle⟩
  obtain ⟨c, pool⟩ := done.pool
  have room' : ¬ Overflows ch.pool (outputsOf k.spend) := by
    have left := room_later (d := d) apart.room c
    rw [← pool] at left
    exact fun excess => Nat.not_lt.mpr left excess.2
  have second := second.after first.approved apart.nullifiers apart.funds done.after
  have reaches := run_append run run'
  obtain ⟨later, last, run'', shown', done'⟩ := settles_of_spends second (small_of_run reaches words) room' (pool ▸ credits' c) (Nat.zero_le _)
    written
  obtain ⟨c', pool'⟩ := done'.pool
  refine ⟨_, last, ⟨run_append run' run'', earlier, later, rfl, ⟨_, _, written, shown⟩, _, _, written, shown'⟩, ?_, ?_⟩
  · rw [List.map_append, shown, shown']
  · rw [pool', leavesOf_outcome (treeOk_of_reachable (reachable_of_run reaches)) c' _ room', pool,
      leavesOf_outcome (treeOk_of_reachable (reachable_of_run run)) c _ room]
    rfl

section Either
variable {poseidon : Poseidon} {extract : ShieldedPool.Spend → Signals ShieldedPool.depth}

/-- Both orders of two end with the same counters, leaves, credits, nonce keys and, but for the gas, balances. -/
structure EndAlike (j k : Job) (r r' s s' : Nat) (one other : Ledger State) : Prop where
  nextIndex : one.chain.pool.nextIndex = other.chain.pool.nextIndex
  isLeaf : one.chain.pool.isLeaf = other.chain.pool.isLeaf
  feeCredit : one.chain.pool.feeCredit = other.chain.pool.feeCredit
  withdrawalCredit : one.chain.pool.withdrawalCredit = other.chain.pool.withdrawalCredit
  consumed : ∀ key, key ∈ one.chain.consumed ↔ key ∈ other.chain.consumed
  eth : ∀ a, one.chain.eth a + j.gas r a + k.gas r' a = other.chain.eth a + j.gas s a + k.gas s' a

theorem EndsAlike.pair {r r' s s' : Nat} {one other : Ledger State} (alike : EndsAlike [(j, r), (k, r')] [(k, s'), (j, s)] one other) :
    EndAlike j k r r' s s' one other where
  nextIndex := alike.nextIndex
  isLeaf := alike.isLeaf
  feeCredit := alike.feeCredit
  withdrawalCredit := alike.withdrawalCredit
  consumed := alike.consumed
  eth a := by
    have same : one.chain.eth a + (j.gas r a + (k.gas r' a + 0)) = other.chain.eth a + (k.gas s' a + (j.gas s a + 0)) := alike.eth a
    omega

theorem inTurn_of_independent {refund' : Nat} (independent : Independent d image outside chain [j, k]) (small : ∀ a, chain.eth a < 2 ^ 256)
    (bound : refund ≤ j.tx.maxCost.toNat) (bound' : refund' ≤ k.tx.maxCost.toNat) :
    ∃ history last, InTurn d image outside chain j k refund refund' history last := by
  have written (data : Bytes) : (⟨0, fun _ => true⟩ : Block).publishes data = true := rfl
  have bounds (turn : Job × Nat) (listed : turn ∈ [(j, refund), (k, refund')]) : turn.2 ≤ turn.1.tx.maxCost.toNat := by
    rcases List.mem_pair.mp listed with rfl | rfl
    · exact bound
    · exact bound'
  have independent : Independent d image outside chain ([(j, refund), (k, refund')].map Prod.fst) := independent
  obtain ⟨history, last, executed, shown⟩ := executed_in_turn independent small bounds written
  exact ⟨history, last, inTurn_iff.mpr ⟨executed, shown⟩⟩

/-- Two transactions that frame 0 approves and that take different notes do not interfere. If the
tree has room for the outputs of both, either can be executed first, both settle, and the two
orders end alike. This holds unless two hashes that the runs have evaluated collide or one of their
commitments is zero. -/
theorem disjoint_spends_commute (hashes : Hashes d poseidon) {eth : Address → Nat} (words : ∀ a, eth a < 2 ^ 256)
    {before : List (Entry State)} (run : Run (dispatcherNetwork d image outside) (launch eth) before ⟨chain, [], none⟩)
    (first : j.Spends d image outside chain) (second : k.Spends d image outside chain) (apart : Apart chain j k)
    (extracts : ∀ tx, Proved d before tx ∨ tx = j.tx ∨ tx = k.tx → Opens poseidon tx.tuple (extract tx.tuple)) :
    (∀ r r', r ≤ j.tx.maxCost.toNat → r' ≤ k.tx.maxCost.toNat →
      (∃ history last, InTurn d image outside chain j k r r' history last) ∧ ∃ history last, InTurn d image outside chain k j r' r history last) ∧
    ∀ r r' s s' history history' one other, InTurn d image outside chain j k r r' history one →
      InTurn d image outside chain k j s' s history' other →
      Broken poseidon (runQueries poseidon extract d (before ++ history)) ∨
        Broken poseidon (runQueries poseidon extract d (before ++ history')) ∨
        (∀ e ∈ history ++ history', ∀ c result, e.shown = .called c result → result = .ok (.returned [])) ∧
          EndAlike j k r r' s s' one other := by
  have independent := apart.independent first second
  have both (tx : FrameTx) (known : Proved d before tx ∨ ∃ i ∈ [j, k], tx = i.tx) : Opens poseidon tx.tuple (extract tx.tuple) := by
    apply extracts tx
    refine known.imp_right fun ⟨i, listed, same⟩ => ?_
    rcases List.mem_pair.mp listed with rfl | rfl
    · exact .inl same
    · exact .inr same
  have keep (r r' : Nat) : ([(j, r), (k, r')].map Prod.fst).Perm [j, k] := .refl _
  have swap (s' s : Nat) : ([(k, s'), (j, s)].map Prod.fst).Perm [j, k] := .swap j k []
  refine ⟨fun r r' bound bound' => ⟨?_, ?_⟩, fun r r' s s' history history' one other inTurn inTurn' => ?_⟩
  · exact inTurn_of_independent independent (small_of_run run words) bound bound'
  · exact inTurn_of_independent (independent.perm (.swap k j [])) (small_of_run run words) bound' bound
  · obtain ⟨executed, shown⟩ := inTurn_iff.mp inTurn
    obtain ⟨executed', shown'⟩ := inTurn_iff.mp inTurn'
    have alike := alike_in_turn hashes words run independent apart.room_all both (keep r r') (swap s' s) executed shown executed' shown'
    exact alike.imp_right (Or.imp_right (And.imp_right EndsAlike.pair))

end Either

end ShieldedPool.Proofs

namespace ShieldedPool.Proofs.TwoSpends
open Evm Wallet.TwoSpends

theorem apart : Apart funded withdrawalJob transferJob where
  nullifiers := by decide
  room := by
    have few : (freshOutputs funded.pool (outputsOf withdrawal ∪ outputsOf transfer)).card ≤ 4 :=
      (Finset.card_filter_le _ _).trans ((Finset.card_union_le _ _).trans (Nat.add_le_add Finset.card_le_two Finset.card_le_two))
    have index : funded.pool.nextIndex = 1 := rfl
    have capacity : 5 ≤ 2 ^ ShieldedPool.depth := by decide
    change funded.pool.nextIndex + (freshOutputs funded.pool (outputsOf withdrawal ∪ outputsOf transfer)).card ≤ 2 ^ ShieldedPool.depth
    omega
  funds _ := by decide

theorem credits_transfer (s : State) : CreditsFit deployment s transfer deployment.self :=
  ⟨fun due => absurd rfl due.2, (s.withdrawalCredit _).isLt⟩

theorem credits_withdrawal {s : State} (none : s.withdrawalCredit = fun _ => 0) : CreditsFit deployment s withdrawal deployment.self :=
  ⟨fun due => absurd rfl due.2, by rw [none]; decide⟩

theorem usual_inTurn {j k : Job} {before history : List (Entry State)} {b : Block} (ours : Ours j.tx) (ours' : Ours k.tx)
    (approved : Approved deployment j.tx 3 j.frame j.spend) (approved' : Approved deployment k.tx 3 k.frame k.spend)
    (first : ∀ e ∈ before, Usual e.shown)
    (shown : history.map Entry.shown = script j.tx 3 j.payer (settleCall j.tx j.frame j.payer b) (.ok (.returned [])) 0 ++
      script k.tx 3 k.payer (settleCall k.tx k.frame k.payer b) (.ok (.returned [])) 0) : ∀ e ∈ before ++ history, Usual e.shown := by
  intro e member
  rcases List.mem_append.mp member with old | new
  · exact first e old
  have listed : e.shown ∈ history.map Entry.shown := List.mem_map_of_mem new
  rw [shown] at listed
  rcases List.mem_append.mp listed with one | other
  · exact usual_script ours (other_of_approved approved) one
  · exact usual_script ours' (other_of_approved approved') other

/-- The deposit before the two. -/
def before : List (Entry State) := [⟨.called deposit (.ok (.returned (encodeWord 0))), ⟨funded, [], none⟩⟩]

theorem usual_before : ∀ e ∈ before, Usual e.shown := by
  intro e member
  rw [List.mem_singleton.mp member]
  exact usual_deposit

/-- Both orders have a run, with different leaves at its end, and neither breaks anything. -/
theorem orders : ∃ history history' one other, InTurn deployment Hegota.image Hegota.outside funded withdrawalJob transferJob 0 0 history one ∧
    InTurn deployment Hegota.image Hegota.outside funded transferJob withdrawalJob 0 0 history' other ∧
    leavesOf one.chain.pool ≠ leavesOf other.chain.pool ∧
    ¬ Broken poseidon (runQueries poseidon assignment deployment (before ++ history)) ∧
    ¬ Broken poseidon (runQueries poseidon assignment deployment (before ++ history')) := by
  have written (data : Bytes) : Hegota.block.publishes data = true := rfl
  have words (a : Address) : 10 ^ 18 < 2 ^ 256 := by decide
  have unpaid (c : Call) : (outcome deployment c funded.pool transfer deployment.self).withdrawalCredit = fun _ => 0 :=
    (outcome_fields deployment c funded.pool transfer deployment.self).2.2.2
  obtain ⟨history, one, inTurn, shown, leaves⟩ := inTurn_settles words deposits withdrawal_spends transfer_spends apart
    (credits_withdrawal rfl) (fun _ => credits_transfer _) written
  obtain ⟨history', other, inTurn', shown', leaves'⟩ := inTurn_settles words deposits transfer_spends withdrawal_spends apart.symm
    (credits_transfer _) (fun c => credits_withdrawal (unpaid c)) written
  rw [TwoSpends.leaves] at leaves leaves'
  have usual := usual_inTurn (.inl rfl) (.inr rfl) withdrawal_spends.approved transfer_spends.approved usual_before shown
  have usual' := usual_inTurn (.inr rfl) (.inl rfl) transfer_spends.approved withdrawal_spends.approved usual_before shown'
  refine ⟨history, history', one, other, inTurn, inTurn', ?_, ?_, ?_⟩
  · rw [leaves, leaves']
    decide
  · apply not_broken (run_append deposits inTurn.run) usual
    rw [leaves]
    decide
  · apply not_broken (run_append deposits inTurn'.run) usual'
    rw [leaves']
    decide

theorem independent : Independent deployment Hegota.image Hegota.outside funded [withdrawalJob, transferJob] :=
  apart.independent withdrawal_spends transfer_spends

end ShieldedPool.Proofs.TwoSpends

namespace ShieldedPool.Proofs
open Evm Exec Circuit
open Tooling (SettleData selfPaidTx settlementFrame)

theorem disjoint_spends_commute_twoSpends : ∃ before history history' one other,
    Run (dispatcherNetwork TwoSpends.deployment Hegota.image Hegota.outside) TwoSpends.start before ⟨TwoSpends.funded, [], none⟩ ∧
      InTurn TwoSpends.deployment Hegota.image Hegota.outside TwoSpends.funded TwoSpends.withdrawalJob TwoSpends.transferJob 0 0 history one ∧
      InTurn TwoSpends.deployment Hegota.image Hegota.outside TwoSpends.funded TwoSpends.transferJob TwoSpends.withdrawalJob 0 0 history' other ∧
      leavesOf one.chain.pool ≠ leavesOf other.chain.pool ∧
      (∀ e ∈ history ++ history', ∀ c result, e.shown = .called c result → result = .ok (.returned [])) ∧
      EndAlike TwoSpends.withdrawalJob TwoSpends.transferJob 0 0 0 0 one other := by
  have extracts (tx : FrameTx) (known : Proved TwoSpends.deployment TwoSpends.before tx ∨
      tx = TwoSpends.withdrawalJob.tx ∨ tx = TwoSpends.transferJob.tx) : Opens Wallet.TwoSpends.poseidon tx.tuple (TwoSpends.assignment tx.tuple) :=
    known.elim (TwoSpends.extracts TwoSpends.usual_before tx) TwoSpends.opens
  obtain ⟨history, history', one, other, inTurn, inTurn', differ, sound, sound'⟩ := TwoSpends.orders
  obtain ⟨-, alike⟩ := disjoint_spends_commute TwoSpends.hashes (fun _ => by decide) TwoSpends.deposits TwoSpends.withdrawal_spends
    TwoSpends.transfer_spends TwoSpends.apart extracts
  exact ⟨_, history, history', one, other, TwoSpends.deposits, inTurn, inTurn', differ,
    ((alike 0 0 0 0 history history' one other inTurn inTurn').resolve_left sound).resolve_left sound'⟩

/-- The withdrawal and the transfer in both orders. -/
theorem spends_settle_in_any_order_twoSpends : ∃ history history' one other,
    Run (dispatcherNetwork TwoSpends.deployment Hegota.image Hegota.outside) ⟨TwoSpends.funded, [], none⟩ history one ∧
      ShowsInTurn [(TwoSpends.withdrawalJob, 0), (TwoSpends.transferJob, 0)] history ∧
      Run (dispatcherNetwork TwoSpends.deployment Hegota.image Hegota.outside) ⟨TwoSpends.funded, [], none⟩ history' other ∧
      ShowsInTurn [(TwoSpends.transferJob, 0), (TwoSpends.withdrawalJob, 0)] history' ∧
      leavesOf one.chain.pool ≠ leavesOf other.chain.pool ∧
      (∀ e ∈ history ++ history', ∀ c result, e.shown = .called c result → result = .ok (.returned [])) ∧
      EndsAlike [(TwoSpends.withdrawalJob, 0), (TwoSpends.transferJob, 0)] [(TwoSpends.transferJob, 0), (TwoSpends.withdrawalJob, 0)] one other := by
  have extracts (tx : FrameTx) (known : Proved TwoSpends.deployment TwoSpends.before tx ∨
      ∃ j ∈ [TwoSpends.withdrawalJob, TwoSpends.transferJob], tx = j.tx) : Opens Wallet.TwoSpends.poseidon tx.tuple (TwoSpends.assignment tx.tuple) := by
    rcases known with proved | ⟨j, listed, rfl⟩
    · exact TwoSpends.extracts TwoSpends.usual_before tx proved
    · exact TwoSpends.opens ((List.mem_pair.mp listed).imp (congrArg Job.tx) (congrArg Job.tx))
  obtain ⟨history, history', one, other, inTurn, inTurn', differ, sound, sound'⟩ := TwoSpends.orders
  obtain ⟨executed, shown⟩ := inTurn_iff.mp inTurn
  obtain ⟨executed', shown'⟩ := inTurn_iff.mp inTurn'
  obtain ⟨-, alike⟩ := spends_settle_in_any_order TwoSpends.hashes (fun _ => by decide) TwoSpends.deposits TwoSpends.independent
    TwoSpends.apart.room_all extracts
  have same := alike [(TwoSpends.withdrawalJob, 0), (TwoSpends.transferJob, 0)] [(TwoSpends.transferJob, 0), (TwoSpends.withdrawalJob, 0)]
    history history' one other (.refl _) (.swap ..) executed shown executed' shown'
  exact ⟨history, history', one, other, executed, shown, executed', shown', differ, (same.resolve_left sound).resolve_left sound'⟩

end ShieldedPool.Proofs
