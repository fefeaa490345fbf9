import ShieldedPool.Proofs.Attribution
import ShieldedPool.Proofs.Backing
import ShieldedPool.Proofs.Credits
import ShieldedPool.Proofs.Execution

/-! Solvency over whole runs. Between its payment and its settlement a transaction holds what its
inputs were worth in reserve; everything the pool owes besides is covered by its ETH. -/

namespace ShieldedPool.Proofs
open Evm Circuit

/-- What is asked of the hashes that have been evaluated: no collision, and no commitment to zero. -/
structure Ideal (poseidon : Poseidon) (q : Queries) (d : Deployment) : Prop where
  hashes : Hashes d poseidon
  free : q.Free poseidon
  filled : ∀ t ∈ q.triples, poseidon.three t.1 t.2.1 t.2.2 ≠ 0

section
variable (poseidon : Poseidon) (extract : ShieldedPool.Spend → Signals ShieldedPool.depth) (q : Queries) (d : Deployment)

/-- The pool has the ETH for all it owes, and `held` besides. -/
structure Backed (held : Nat) (chain : Chain State) : Prop where
  sound : Sound poseidon extract q d chain
  covers : owed poseidon extract (noteValue poseidon q) chain + held ≤ chain.eth d.self

/-- What a payment sets free for the settlement. -/
def pledge (tx : FrameTx) (payer : Address) : Nat :=
  inputValue (extract tx.tuple) - if payer = d.self then tx.maxCost.toNat else 0

end

variable {poseidon : Poseidon} {extract : ShieldedPool.Spend → Signals ShieldedPool.depth} {q : Queries} {d : Deployment}
  {image : Dispatcher.Image} {outside : Outside d.self} {tx : FrameTx} {scope : Word} {f : Frame} {sp : ShieldedPool.Spend}
  {chain ch : Chain State} {held : Nat}

theorem Backed.zero (sound : Sound poseidon extract q d chain) (covers : owed poseidon extract (noteValue poseidon q) chain ≤ chain.eth d.self) :
    Backed poseidon extract q d 0 chain := ⟨sound, (Nat.add_zero _).symm ▸ covers⟩

theorem Backed.all (backed : Backed poseidon extract q d 0 chain) :
    owed poseidon extract (noteValue poseidon q) chain ≤ chain.eth d.self := Nat.add_zero (owed _ _ _ _) ▸ backed.covers

theorem Backed.less (backed : Backed poseidon extract q d held chain) {less : Nat} (bound : less ≤ held) :
    Backed poseidon extract q d less chain := ⟨backed.sound, (Nat.add_le_add_left bound _).trans backed.covers⟩

/-- The chain may gain ETH, and forget approvals. -/
theorem Backed.frame (backed : Backed poseidon extract q d held chain) (pool : ch.pool = chain.pool) (paid : ch.paid = chain.paid)
    (gained : chain.eth d.self ≤ ch.eth d.self) : Backed poseidon extract q d held ch := by
  obtain ⟨⟨reachable, committed, known⟩, covers⟩ := backed
  refine ⟨⟨pool ▸ reachable, pool ▸ committed, paid ▸ known⟩, ?_⟩
  rw [owed, unspent, pool, paid]
  exact covers.trans gained

/-- The value of a deposit is a field element. -/
theorem val_felt_small {w : Word} (small : w < maxValue) : (felt w).val = w.toNat := by
  have fits : maxValue < fieldP := by decide
  exact val_felt (BitVec.lt_trans small fits)

/-- A deposit owes what it brings in. -/
theorem owed_of_deposit (hashes : Hashes d poseidon) (free : q.Free poseidon) {c : Call} (small : c.value < maxValue)
    (evaluated : opening (felt (wordAt c.data 4)) (felt c.value) ∈ q.triples) {eth : Address → Nat} :
    owed poseidon extract (noteValue poseidon q) { chain with pool := depositedIn d c chain.pool (wordAt c.data 4), eth } ≤
      owed poseidon extract (noteValue poseidon q) chain + c.value.toNat := by
  have issued : unspent poseidon extract (noteValue poseidon q) { chain with pool := depositedIn d c chain.pool (wordAt c.data 4), eth } ≤
      unspent poseidon extract (noteValue poseidon q) chain + c.value.toNat := by
    rw [← val_felt_small small, ← noteValue_eq free evaluated (felt_commitmentOf hashes _ _)]
    apply Coins.worth_issue
    rintro cm ⟨isLeaf, unconsumed⟩
    change Function.update chain.pool.isLeaf (commitmentOf d (wordAt c.data 4) c.value) true cm = true at isLeaf
    by_cases here : cm = commitmentOf d (wordAt c.data 4) c.value
    · exact .inr here
    · rw [Function.update_of_ne here] at isLeaf
      exact .inl ⟨isLeaf, unconsumed⟩
  change total chain.pool.withdrawalCredit + total chain.pool.feeCredit + _ ≤ total chain.pool.withdrawalCredit + total chain.pool.feeCredit + _ + _
  omega

/-- What a call that has deposited has evaluated. -/
def Deposits (q : Queries) (shown : Observation) : Prop :=
  ∀ c reply, shown = .called c (.ok reply) → Selects c .shield → opening (felt (wordAt c.data 4)) (felt c.value) ∈ q.triples

/-- Nobody but the pool itself can call it and leave it owing more than it has. -/
theorem Backed.called (ideal : Ideal poseidon q d) {c : Call} (backed : Backed poseidon extract q d 0 chain)
    (caller : c.caller ≠ d.self) {result : Except Bytes Reply} (deposits : Deposits q (.called c result)) {o : Opcodes} {outermost : Bool}
    {pending : List (Pending State)} (called : Called (dispatcherNetwork d image outside) o outermost chain c result ch pending) :
    Backed poseidon extract q d 0 ch := by
  have sound := backed.sound
  have covers : owed poseidon extract (noteValue poseidon q) chain ≤ chain.eth d.self := backed.all
  have logic {reply : Reply} {t : State} (ran : Dispatcher.call d image c chain.pool = .ok (reply, t)) :
      Logic.call d c chain.pool = .ok (reply, t) := by
    rw [← Dispatcher.call_eq d image, ran]
  cases called with
  | @returned out pool funds ran =>
    have reachable : Reachable d pool := .call sound.reachable (logic ran)
    cases effect_of_call d c (logic ran) with
    | shield selects positive small canonical fresh room =>
      have evaluated := deposits c _ rfl selects
      refine .zero ⟨reachable, fun cm isLeaf => ?_, sound.paid⟩ ?_
      · change Function.update chain.pool.isLeaf (commitmentOf d (wordAt c.data 4) c.value) true cm = true at isLeaf
        by_cases here : cm = commitmentOf d (wordAt c.data 4) c.value
        · rw [here]
          exact ⟨commitmentOf_canonical ideal.hashes _ _, _, _, evaluated, felt_commitmentOf ideal.hashes _ _⟩
        · rw [Function.update_of_ne here] at isLeaf
          exact sound.committed cm isLeaf
      · have more := @owed_of_deposit _ extract q d chain ideal.hashes ideal.free c small evaluated (Chain.move chain.eth c.caller d.self c.value.toNat)
        change _ ≤ Chain.move chain.eth c.caller d.self c.value.toNat d.self
        rw [move_target caller.symm]
        exact more.trans (Nat.add_le_add_right covers _)
    | transfer _ _ _ _ _ authenticated => exact absurd authenticated.sender caller
    | withdraw _ _ _ _ _ authenticated => exact absurd authenticated.sender caller
    | view free =>
      refine .zero ⟨sound.reachable, sound.committed, sound.paid⟩ ?_
      change _ ≤ Chain.move chain.eth c.caller d.self c.value.toNat d.self
      rw [move_target caller.symm]
      exact Nat.le_add_right_of_le covers
  | @paying who amount pool funds ran other payable =>
    have reachable : Reachable d pool := .call sound.reachable (logic ran)
    have other : who ≠ d.self := other
    have sent {paid : Nat} : Chain.move (Chain.move chain.eth c.caller d.self 0) d.self who paid d.self = chain.eth d.self - paid := by
      rw [move_none, Chain.move, if_neg other.symm, Function.update_of_ne other.symm, Function.update_self]
    cases effect_of_call d c (logic ran) with
    | claimWithdrawal selects free named owes =>
      refine .zero ⟨reachable, sound.committed, sound.paid⟩ ?_
      have cleared := total_clear chain.pool.withdrawalCredit who
      change total (Function.update chain.pool.withdrawalCredit who 0) + total chain.pool.feeCredit +
        unspent poseidon extract (noteValue poseidon q) chain ≤ Chain.move (Chain.move chain.eth c.caller d.self c.value.toNat) d.self who _ d.self
      rw [free, show (0 : Word).toNat = 0 from rfl, sent]
      rw [owed] at covers
      omega
    | claimFee selects free named owes =>
      refine .zero ⟨reachable, sound.committed, sound.paid⟩ ?_
      have cleared := total_clear chain.pool.feeCredit who
      change total chain.pool.withdrawalCredit + total (Function.update chain.pool.feeCredit who 0) +
        unspent poseidon extract (noteValue poseidon q) chain ≤ Chain.move (Chain.move chain.eth c.caller d.self c.value.toNat) d.self who _ d.self
      rw [free, show (0 : Word).toNat = 0 from rfl, sent]
      rw [owed] at covers
      omega
  | unpaid => exact backed
  | reverted => exact backed

theorem covered_of_paidBy {approves : Address → Opcodes → Bytes → Word → Prop} {payer : Address} (approved : Approved d tx scope f sp)
    (pays : PaidBy d approves tx scope payer) (own : payer = d.self) : tx.maxCost.toNat ≤ sp.fee.toNat := by
  cases pays with
  | pool =>
    rcases approved.shape with ⟨-, -, covered⟩
    exact covered
  | sponsor frame other approval => exact absurd own other

/-- The fee is a part of what the inputs bring in. -/
theorem amounts_of_known (approved : Approved d tx scope f sp) (known : Known poseidon extract q tx.tuple) :
    sp.publicAmount.toNat + sp.fee.toNat ≤ inputValue (extract tx.tuple) := by
  rw [tuple_of_approved approved] at known ⊢
  have valid := approved.proven.valid
  rw [inputValue_eq known.opens valid.publicAmount valid.fee]
  omega

/-- Paying for a transaction sets its inputs free for the settlement. -/
theorem Backed.pay (ideal : Ideal poseidon q d) {who : Address} (backed : Backed poseidon extract q d 0 chain)
    (approved : Approved d tx scope f sp) (known : Known poseidon extract q tx.tuple) (rooted : sp.root ∈ chain.pool.published)
    (trees : ∀ n, treeQueries poseidon ((leavesOf chain.pool).take n) ⊆ q.pairs) (fresh : chain.KeysFresh d.self tx)
    (funds : tx.maxCost.toNat ≤ chain.eth who) (covered : who = d.self → tx.maxCost.toNat ≤ sp.fee.toNat) :
    Backed poseidon extract q d (pledge extract d tx who) (paidChain d.self who tx chain) := by
  have tuple := tuple_of_approved approved
  have knownTuple : Known poseidon extract q sp := tuple ▸ known
  have paid : (paidChain d.self who tx chain).paid = chain.paid ++ [tx] := if_pos approved.sender
  have pool : (paidChain d.self who tx chain).pool = chain.pool := rfl
  have spent := owed_of_payment ideal.hashes ideal.free ideal.filled backed.sound approved knownTuple rooted trees fresh pool paid
  have covers := backed.all
  have amounts := amounts_of_known approved known
  refine ⟨⟨backed.sound.reachable, backed.sound.committed, fun old member => ?_⟩, ?_⟩
  · rw [paid] at member
    rcases List.mem_append.mp member with old | new
    · exact backed.sound.paid _ old
    · obtain rfl := List.mem_singleton.mp new
      exact ⟨known, scope, f, tuple.symm ▸ approved⟩
  · rw [pledge, tuple] at *
    by_cases own : who = d.self
    · subst own
      have taken : (paidChain d.self d.self tx chain).eth d.self = chain.eth d.self - tx.maxCost.toNat := Function.update_self ..
      have covered := covered rfl
      rw [taken, if_pos rfl]
      omega
    · have kept : (paidChain d.self who tx chain).eth d.self = chain.eth d.self := Function.update_of_ne (Ne.symm own) _ _
      rw [kept, if_neg own]
      omega

/-- A chain that covers the pledge has room for the credits of the settlement. -/
theorem fits_of_backed {payer : Address} (backed : Backed poseidon extract q d (pledge extract d tx payer) chain)
    (small : chain.eth d.self < 2 ^ 256) (approved : Approved d tx scope f sp) (known : Known poseidon extract q tx.tuple)
    (covered : payer = d.self → tx.maxCost.toNat ≤ sp.fee.toNat) : CreditsFit d chain.pool sp payer := by
  have covers := backed.covers
  have amounts := amounts_of_known approved known
  have fee := le_total chain.pool.feeCredit payer
  have withdrawal := le_total chain.pool.withdrawalCredit (Address.ofWord sp.ctx)
  rw [owed, pledge] at covers
  refine ⟨fun due => ?_, ?_⟩
  · rw [if_neg due.2] at covers
    omega
  · by_cases own : payer = d.self
    · have covered := covered own
      rw [if_pos own] at covers
      omega
    · rw [if_neg own] at covers
      omega

theorem Backed.conclude (ideal : Ideal poseidon q d) {payer : Address}
    (backed : Backed poseidon extract q d (pledge extract d tx payer) chain) (approved : Approved d tx scope f sp)
    (known : Known poseidon extract q tx.tuple) (covered : payer = d.self → tx.maxCost.toNat ≤ sp.fee.toNat) (c : Call)
    (credits : CreditsFit d chain.pool sp payer) (reachable : Reachable d ch.pool) (pool : ch.pool = outcome d c chain.pool sp payer)
    (paid : ch.paid = chain.paid) (eth : ch.eth d.self = chain.eth d.self) : Backed poseidon extract q d 0 ch := by
  have tuple := tuple_of_approved approved
  have knownTuple : Known poseidon extract q sp := tuple ▸ known
  have valid := approved.proven.valid
  have settled := owed_of_settlement ideal.free knownTuple valid.publicAmount valid.fee credits pool paid
  have covers := backed.covers
  have amounts := amounts_of_known approved known
  refine .zero (backed.sound.settle knownTuple valid.canonical reachable pool paid) ?_
  rw [eth]
  rw [pledge, tuple] at covers
  rw [tuple] at amounts
  by_cases own : payer = d.self
  · have covered := covered own
    rw [if_pos own] at covers settled
    omega
  · rw [if_neg own] at covers settled
    omega

/-- EnvelopeProbe tells the frame that settles who has paid. -/
theorem payerOf_settleCall (approved : Approved d tx scope f sp) (payer : Address) (b : Block) : payerOf (settleCall tx f payer b) = payer := by
  have answer : (settleCall tx f payer b).probe = some (encodeWords (wordsOf (report tx f payer))) :=
    reply_report (getLast_of_approved approved)
  rw [payerOf, answer, Option.getD_some, wordsOf, decode_facts]
  exact Address.ofWord_word _

/-- The settlement of a spend uses up its pledge, whether it returns or reverts. -/
theorem Backed.settle (ideal : Ideal poseidon q d) {payer : Address} {b : Block}
    (backed : Backed poseidon extract q d (pledge extract d tx payer) chain) (approved : Approved d tx scope f sp)
    (known : Known poseidon extract q tx.tuple) (covered : payer = d.self → tx.maxCost.toNat ≤ sp.fee.toNat) {o : Opcodes}
    {outermost : Bool} {result : Except Bytes Reply} {pending : List (Pending State)}
    (called : Called (dispatcherNetwork d image outside) o outermost chain (settleCall tx f payer b) result ch pending) :
    Backed poseidon extract q d 0 ch := by
  have selects : Selects (settleCall tx f payer b) .transfer ∨ Selects (settleCall tx f payer b) .withdraw :=
    selects_of_approved approved rfl
  have decoded : Spend.decode (settleCall tx f payer b).data 4 = sp := approved.spend.symm
  have kept : Chain.move chain.eth (settleCall tx f payer b).caller d.self (settleCall tx f payer b).value.toNat = chain.eth := by
    have caller : (settleCall tx f payer b).caller = d.self := approved.sender
    rw [caller, move_self]
  cases called with
  | returned funds ran =>
    change Dispatcher.call d image _ _ = _ at ran
    rw [Dispatcher.call_eq] at ran
    cases effect_of_call d _ ran with
    | shield other => rcases method_of_selects selects other with same | same <;> cases same
    | transfer _ _ _ amount _ authenticated fits =>
      rw [decoded] at amount authenticated fits
      obtain rfl := (payerOf_settleCall approved payer b).symm.trans (payerOf_authenticated authenticated)
      have credits : CreditsFit d chain.pool sp payer := by
        refine ⟨fun due => fits.fee due.1 due.2, ?_⟩
        rw [amount]
        exact (chain.pool.withdrawalCredit _).isLt
      refine backed.conclude ideal approved known covered (settleCall tx f payer b) credits (.call backed.sound.reachable ran) ?_ rfl (congrFun kept _)
      rw [decoded, outcome, if_pos amount]
    | withdraw _ _ _ amount named authenticated fits credit =>
      rw [decoded] at amount named authenticated fits credit
      obtain rfl := (payerOf_settleCall approved payer b).symm.trans (payerOf_authenticated authenticated)
      have recipient : Address.ofWord sp.ctx = _ := named ▸ Address.ofWord_word _
      have credits : CreditsFit d chain.pool sp payer := ⟨fun due => fits.fee due.1 due.2, by rwa [recipient]⟩
      refine backed.conclude ideal approved known covered (settleCall tx f payer b) credits (.call backed.sound.reachable ran) ?_ rfl (congrFun kept _)
      rw [decoded, outcome, if_neg amount, recipient]
    | view => exact (backed.less (Nat.zero_le _)).frame rfl rfl (congrFun kept _).ge
  | paying funds ran => exact absurd ran (dispatcher_frameZero.quiet selects)
  | unpaid | reverted => exact backed.less (Nat.zero_le _)

theorem published_of_change {l : Ledger State} {shown : Observation} {root : Word}
    (change : Change (dispatcherNetwork d image outside) l shown ch) (published : root ∈ l.chain.pool.published) :
    root ∈ ch.pool.published := by
  cases change with
  | called caller called =>
    have effect {c : Call} {reply : Reply} {t : State} (ran : Dispatcher.call d image c l.chain.pool = .ok (reply, t)) :
        root ∈ t.published := by
      rw [Dispatcher.call_eq] at ran
      exact published_of_effect (effect_of_call d c ran) published
    cases called with
    | returned funds ran => exact effect ran
    | paying funds ran => exact effect ran
    | unpaid | reverted => exact published
  | moved | rewarded | begun | sent | refunded => exact published
  | approved _ _ approval =>
    rcases fields_of_approve approval with rfl | ⟨-, -, -, rfl⟩
    · exact published
    · exact published

section
variable (extract d)

/-- What the transaction in progress still has pledged to its settlement. -/
def reserve (tx : Option (Progress State)) (payer : Option Address) : Nat :=
  match tx, payer with
  | some p, some w => if p.tx.sender = d.self ∧ p.index < p.tx.frames.length then pledge extract d p.tx w else 0
  | _, _ => 0

end

section
variable (poseidon extract q d)

/-- Wherever the chain goes from here, the pool has the ETH for what it owes. -/
structure Solvent (l : Ledger State) : Prop where
  before : ∀ p, l.tx = some p → Backed poseidon extract q d 0 p.before
  kept : ∀ ch, Kept l ch → Backed poseidon extract q d (reserve extract d l.tx ch.payer) ch

/-- What is known of the transaction in progress: the assignment behind its proof, if it is valid,
and its roots. -/
structure Vetted (l : Ledger State) : Prop where
  known : ∀ p, l.tx = some p → d.verify p.tx.tuple.verifierCall = true → Known poseidon extract q p.tx.tuple
  rooted : ∀ p, l.tx = some p → ∀ r ∈ p.tx.refs, r.source = d.sourceId → Throughout (fun ch => r.root ∈ ch.pool.published) l

/-- The hashes of a pool's trees are in `q`. -/
def Grows (s : State) : Prop := ∀ n, treeQueries poseidon ((leavesOf s).take n) ⊆ q.pairs

/-- `q` has all that a step has evaluated. -/
structure Evaluated (e : Entry State) : Prop where
  deposits : Deposits q e.shown
  known : ∀ tx, e.shown = .begun tx → d.verify tx.tuple.verifierCall = true → Known poseidon extract q tx.tuple
  trees : Grows poseidon q e.reached.chain.pool

end

variable {l l' : Ledger State} {shown : Observation} {p : Progress State}

theorem reserve_of_unpaid (tx : Option (Progress State)) : reserve extract d tx none = 0 := by
  cases tx <;> rfl

theorem reserve_of_foreign {payer : Option Address} (foreign : p.tx.sender ≠ d.self) : reserve extract d (some p) payer = 0 := by
  cases payer with
  | none => rfl
  | some w => exact if_neg fun both => foreign both.1

theorem vetted_of_step (vetted : Vetted poseidon extract q d l) (evaluated : Evaluated poseidon extract q d ⟨shown, l'⟩)
    (step : Step (dispatcherNetwork d image outside) l shown l') : Vetted poseidon extract q d l' := by
  refine ⟨fun p' after => ?_, fun p' after r member own => ?_⟩
  · rcases before_of_step step after with ⟨p, tx, same, -⟩ | ⟨chain, -, -, rfl, -⟩
    · rw [same]
      exact vetted.known p tx
    · exact evaluated.known p'.tx rfl
  · rcases before_of_step step after with ⟨p, tx, same, -⟩ | ⟨chain, rfl, admissible, -, rfl, before⟩
    · rw [same] at member
      exact (vetted.rooted p tx r member own).step
        (fun ch change => published_of_change change ((vetted.rooted p tx r member own).1 _ .current)) step
    · have published : r.root ∈ chain.pool.published := admissible.rooted r member own
      refine ⟨fun ch kept => ?_, fun p'' again => ?_⟩
      · cases kept with
        | current => exact published
        | undo member => cases member
        | start tx started =>
          cases tx
          cases started
      · cases after.symm.trans again
        rw [before]
        exact published

/-- Until frame 0 approves, and in everybody else's transactions, each step leaves the pool with
what it owes. -/
theorem Backed.change (ideal : Ideal poseidon q d) (backed : Backed poseidon extract q d 0 l.chain)
    (loose : ∀ p, l.tx = some p → p.tx.sender = d.self → l.chain.approved = false ∧ ∀ frame scope, shown ≠ .authorized frame (.ok scope))
    (deposits : Deposits q shown) (change : Change (dispatcherNetwork d image outside) l shown ch) : Backed poseidon extract q d 0 ch := by
  cases change with
  | called caller called same =>
    rw [same] at deposits
    refine backed.called ideal ?_ deposits called
    rcases caller with ⟨-, other⟩ | @⟨p, f, tx, -, -, permitted, same⟩
    · exact other
    · rw [same, Network.callerOf]
      split_ifs with sends
      · intro own
        cases (permitted sends).symm.trans (loose p tx own).1
      · exact outside.apart
  | moved acts other funds => exact backed.frame rfl rfl (le_move (Ne.symm other))
  | rewarded room => exact backed.frame rfl rfl (le_update _ _ _ _)
  | begun => exact backed.frame rfl rfl le_rfl
  | @approved p who scope ch tx inside effect authority =>
    have foreign : p.tx.sender ≠ d.self := by
      intro own
      obtain ⟨clear, silent⟩ := loose p tx own
      rcases authority with ⟨other, -⟩ | ⟨-, frame, -, authorized, -⟩
      · exact approve_clear clear (own ▸ other) effect
      · exact silent _ _ authorized
    rcases fields_of_approve effect with rfl | ⟨-, -, -, rfl⟩
    · exact backed.frame rfl rfl le_rfl
    · refine backed.frame rfl (if_neg foreign) ?_
      have other : d.self ≠ who := by
        rintro rfl
        rcases authority with ⟨other, -⟩ | ⟨-, frame, c, -, granted⟩
        · exact other rfl
        · rw [Ledger.opcodes, tx] at granted
          obtain ⟨-, _, _, approved⟩ := approved_of_granted inside (dispatcher_authorize_ok.mp granted)
          exact foreign approved.sender
      exact (Function.update_of_ne other _ _).ge
  | sent tx due mode permitted target funds =>
    refine backed.frame rfl rfl (le_move fun own => ?_)
    cases permitted.symm.trans (loose _ tx own.symm).1
  | refunded room => exact backed.frame rfl rfl (le_update _ _ _ _)

theorem reserve_of_paid {w : Address} (own : p.tx.sender = d.self) (inside : p.index < p.tx.frames.length) :
    reserve extract d (some p) (some w) = pledge extract d p.tx w := if_pos ⟨own, inside⟩

theorem reserve_le (p : Progress State) (w : Address) : reserve extract d (some p) (some w) ≤ pledge extract d p.tx w := by
  rw [reserve]
  split_ifs
  · exact le_rfl
  · exact Nat.zero_le _

/-- The payment in frame 0. -/
theorem Solvent.authorize (ideal : Ideal poseidon q d) (solvent : Solvent poseidon extract q d ⟨chain, [], some p⟩)
    (vetted : Vetted poseidon extract q d ⟨chain, [], some p⟩) (trees : Grows poseidon q chain.pool) (unpaid : chain.payer = none)
    (approved : Approved d p.tx scope f sp) (effect : chain.approve d.self p.tx d.self scope = some ch) :
    Solvent poseidon extract q d ⟨ch, [], some p.next⟩ := by
  have backed : Backed poseidon extract q d 0 chain := (solvent.kept _ .current).less (Nat.zero_le _)
  have nothing : reserve extract d (some p.next) chain.payer = 0 := by rw [unpaid, reserve_of_unpaid]
  have marked : Backed poseidon extract q d (reserve extract d (some p.next) chain.payer) { chain with approved := true } := by
    rw [nothing]
    exact backed.frame rfl rfl le_rfl
  refine ⟨fun p' after => ?_, fun other kept => ?_⟩
  · cases after
    exact solvent.before p rfl
  obtain rfl := kept_of_next kept
  rcases approved.shape with ⟨-, -, covered⟩ | ⟨-, -, -⟩
  · rcases fields_of_approve effect with rfl | ⟨-, funds, fresh, rfl⟩
    · exact marked
    · obtain ⟨slot, refs⟩ := approved.refs
      have rooted := (vetted.rooted p rfl ⟨d.sourceId, slot, sp.root⟩ (by rw [refs]; exact List.mem_singleton_self _) rfl).1 _ .current
      have known := vetted.known p rfl (tuple_of_approved approved ▸ approved.proven.verified)
      exact (backed.pay ideal approved known rooted trees fresh funds fun _ => covered).less (reserve_le p.next d.self)
  · rw [Chain.approve, if_neg (by decide), if_pos rfl, Chain.approveExecution, Option.ite_none_right_eq_some] at effect
    obtain rfl := Option.some.inj effect.2
    exact marked

theorem Solvent.loose (ideal : Ideal poseidon q d) (solvent : Solvent poseidon extract q d l) (vetted : Vetted poseidon extract q d l)
    (trees : Grows poseidon q l.chain.pool) (deposits : Deposits q shown)
    (loose : ∀ p, l.tx = some p → p.tx.sender = d.self → ∀ ch, Kept l ch → ch.approved = false ∧ ch.payer = none)
    (step : Step (dispatcherNetwork d image outside) l shown l') : Solvent poseidon extract q d l' := by
  by_cases silent : ∀ p, l.tx = some p → p.tx.sender = d.self → ∀ frame scope, shown ≠ .authorized frame (.ok scope)
  · have nothing (p' : Progress State) (after : l'.tx = some p') (ch : Chain State) (kept : Kept l' ch) :
        reserve extract d (some p') ch.payer = 0 := by
      by_cases own : p'.tx.sender = d.self
      · suffices unpaid : ch.payer = none by rw [unpaid, reserve_of_unpaid]
        rcases before_of_step step after with ⟨p, tx, same, -⟩ | ⟨chain, rfl, -, -, rfl, -⟩
        · rw [same] at own
          exact (opened_of_step own tx (loose p tx own) (silent p tx own) step (by rw [after]; exact Option.some_ne_none _) kept).2
        · cases kept with
          | current => rfl
          | undo member => cases member
          | start tx started =>
            cases tx
            cases started
      · exact reserve_of_foreign own
    refine ⟨fun p' after => ?_, fun ch kept => ?_⟩
    · rcases before_of_step step after with ⟨p, tx, -, same⟩ | ⟨chain, rfl, -, -, -, same⟩
      · exact same ▸ solvent.before p tx
      · exact same ▸ (solvent.kept _ .current).less (Nat.zero_le _)
    · suffices backed : Backed poseidon extract q d 0 ch by
        cases after : l'.tx with
        | none => exact backed
        | some p' => rwa [nothing p' after ch kept]
      rcases kept_of_step step kept with old | change | ⟨-, p, tx, rfl⟩
      · exact (solvent.kept ch old).less (Nat.zero_le _)
      · exact ((solvent.kept _ .current).less (Nat.zero_le _)).change ideal
          (fun p tx own => ⟨(loose p tx own _ .current).1, silent p tx own⟩) deposits change
      · exact solvent.before p tx
  · push Not at silent
    obtain ⟨p, tx, own, frame, scope, rfl⟩ := silent
    cases step with
    | authorize due target empty verify ran effect =>
      cases tx
      obtain ⟨-, f, sp, approved⟩ := approved_of_granted (inside_of_frame due.2) (dispatcher_authorize_ok.mp ran)
      exact solvent.authorize ideal vetted trees (loose p rfl own _ .current).2 approved effect

/-- From its approval on, a transaction pledges what its payment sets free until it has settled. -/
theorem Solvent.advance (ideal : Ideal poseidon q d) (solvent : Solvent poseidon extract q d ⟨chain, [], some p⟩)
    (vetted : Vetted poseidon extract q d ⟨chain, [], some p⟩) (trees : Grows poseidon q chain.pool)
    (approved : Approved d p.tx scope f sp) (advance : Advance d (dispatcherNetwork d image outside) chain p scope f shown l') :
    Solvent poseidon extract q d l' := by
  have current := solvent.kept chain .current
  have backed : Backed poseidon extract q d 0 chain := current.less (Nat.zero_le _)
  have own : p.tx.sender = d.self := approved.sender
  have known := vetted.known p rfl (tuple_of_approved approved ▸ approved.proven.verified)
  have place := lastIndex_of_shape approved.shape
  -- Once a frame is over there is nothing to go back to but the chain it has left.
  have onwards {ch : Chain State} (after : Backed poseidon extract q d (reserve extract d (some p.next) ch.payer) ch) :
      Solvent poseidon extract q d ⟨ch, [], some p.next⟩ := by
    refine ⟨fun p' same => ?_, fun other kept => ?_⟩
    · cases same
      exact solvent.before p rfl
    · obtain rfl := kept_of_next kept
      exact after
  have closed {ch : Chain State} (after : Backed poseidon extract q d 0 ch) : Solvent poseidon extract q d ⟨ch, [], none⟩ := by
    refine ⟨fun p' same => (by cases same), fun other kept => ?_⟩
    cases kept with
    | current => exact after
    | undo member => cases member
    | start tx => cases tx
  -- After the frame that settles nothing is pledged any more.
  have nothing (index : p.index = lastIndex p.tx) (payer : Option Address) : reserve extract d (some p.next) payer = 0 := by
    cases payer with
    | none => rfl
    | some w =>
      refine if_neg fun both => ?_
      have inside : p.index + 1 < p.tx.frames.length := both.2
      omega
  cases advance with
  | rewarded room =>
    refine ⟨solvent.before, fun ch kept => ?_⟩
    cases kept with
    | current => exact current.frame rfl rfl (le_update _ _ _ _)
    | undo member => cases member
    | start tx started => exact solvent.kept ch (.start tx started)
  | started sponsored index unpaid =>
    refine ⟨fun p' same => ?_, fun ch kept => ?_⟩
    · cases same
      exact solvent.before p rfl
    · have same : ch = chain := by
        cases kept with
        | current => rfl
        | undo member => cases member
        | start tx started =>
          cases tx
          cases started
          rfl
      rw [same, unpaid, reserve_of_unpaid]
      exact backed
  | @paid pay undo ch sponsored index running target approves effect =>
    obtain ⟨⟨flag, unpaid, funds, fresh⟩, rfl⟩ := fields_of_payment effect
    refine ⟨solvent.before, fun ch kept => ?_⟩
    cases kept with
    | current =>
      obtain ⟨slot, refs⟩ := approved.refs
      have rooted := (vetted.rooted p rfl ⟨d.sourceId, slot, sp.root⟩ (by rw [refs]; exact List.mem_singleton_self _) rfl).1 _ .current
      have paid := backed.pay ideal approved known rooted trees fresh funds fun self => absurd self target
      exact (paid.less (reserve_le p pay.target)).frame rfl rfl le_rfl
    | undo member => cases member
    | start tx started => exact solvent.kept ch (.start tx started)
  | @closed w sponsored index paid payer =>
    refine onwards ?_
    have first : p.next.index < p.next.tx.frames.length := by
      change p.index + 1 < p.tx.frames.length
      rcases place with ⟨rfl, -⟩ | ⟨-, -, length⟩
      · exact absurd sponsored (by decide)
      · omega
    rw [paid, reserve_of_paid own (Nat.lt_of_succ_lt first)] at current
    rw [paid, reserve_of_paid (p := p.next) own first]
    exact current
  | @settled b w result ch index paid payer called =>
    have inside : p.index < p.tx.frames.length := by
      rcases place with ⟨-, last, length⟩ | ⟨-, last, length⟩ <;> omega
    rw [paid, reserve_of_paid own inside] at current
    rw [call_of_due (dispatcherNetwork d image outside) approved index paid] at called
    refine onwards ?_
    rw [nothing index]
    exact current.settle ideal approved known (covered_of_paidBy approved payer) called
  | exhausted index paid payer =>
    refine onwards ?_
    rw [nothing index]
    exact backed
  | aborted => exact closed (solvent.before p rfl)
  | finished complete paid payer bound room => exact closed (backed.frame rfl rfl (le_update _ _ _ _))

theorem solvent_of_step (ideal : Ideal poseidon q d) (staged : Staged d (dispatcherNetwork d image outside) l)
    (solvent : Solvent poseidon extract q d l) (vetted : Vetted poseidon extract q d l) (trees : Grows poseidon q l.chain.pool)
    (deposits : Deposits q shown) (step : Step (dispatcherNetwork d image outside) l shown l') : Solvent poseidon extract q d l' := by
  by_cases busy : ∃ p, l.tx = some p ∧ p.tx.sender = d.self ∧ l.chain.approved = true
  · obtain ⟨p, tx, own, flag⟩ := busy
    rcases staged p tx own with clear | ⟨approved, stack, -, position⟩
    · exact absurd ((clear _ .current).1.symm.trans flag) Bool.noConfusion
    obtain ⟨chain, _, _⟩ := l
    cases stack
    cases tx
    exact solvent.advance ideal vetted trees approved (advance_of_step dispatcher_frameZero approved flag position step)
  · refine solvent.loose ideal vetted trees deposits (fun p tx own => ?_) step
    rcases staged p tx own with clear | ⟨approved, -, flag, -⟩
    · exact clear
    · exact absurd ⟨p, tx, own, flag⟩ busy

section
variable (poseidon extract d)

/-- A transaction with a valid proof has begun. -/
def Proved {σ : Type} (history : List (Entry σ)) (tx : FrameTx) : Prop :=
  d.verify tx.tuple.verifierCall = true ∧ ∃ e ∈ history, e.shown = .begun tx

/-- A deposit has been made. -/
def Deposited (history : List (Entry State)) (c : Call) : Prop :=
  Selects c .shield ∧ ∃ reply, ∃ e ∈ history, e.shown = .called c (.ok reply)

/-- The pool has been in a state. -/
def Visited (history : List (Entry State)) (s : State) : Prop := s = genesis ∨ ∃ e ∈ history, s = e.reached.chain.pool

/-- What a run has evaluated: the assignments behind its proofs, its deposits, and its pool's trees. -/
def runQueries (history : List (Entry State)) : Queries where
  pairs := {p | (∃ tx, Proved d history tx ∧ p ∈ ((extract tx.tuple).queries poseidon).pairs) ∨
    ∃ s, Visited history s ∧ ∃ n, p ∈ treeQueries poseidon ((leavesOf s).take n)}
  triples := {t | (∃ tx, Proved d history tx ∧ t ∈ ((extract tx.tuple).queries poseidon).triples) ∨
    ∃ c, Deposited history c ∧ t = opening (felt (wordAt c.data 4)) (felt c.value)}

end

theorem evaluated_of_run {history : List (Entry State)}
    (extracts : ∀ tx, Proved d history tx → Opens poseidon tx.tuple (extract tx.tuple)) {e : Entry State} (member : e ∈ history) :
    Evaluated poseidon extract (runQueries poseidon extract d history) d e where
  deposits c reply shown selects := .inr ⟨c, ⟨selects, reply, e, member, shown⟩, rfl⟩
  known tx shown verified := by
    have proved : Proved d history tx := ⟨verified, e, member, shown⟩
    exact ⟨extracts tx proved, fun _ inside => .inl ⟨tx, proved, inside⟩, fun _ inside => .inl ⟨tx, proved, inside⟩⟩
  trees n p inside := .inr ⟨_, .inr ⟨e, member, rfl⟩, n, inside⟩

theorem solvent_of_run (ideal : Ideal poseidon q d) {first last : Ledger State} {history : List (Entry State)}
    (run : Run (dispatcherNetwork d image outside) first history last) (evaluated : ∀ e ∈ history, Evaluated poseidon extract q d e)
    (staged : Staged d (dispatcherNetwork d image outside) first) (solvent : Solvent poseidon extract q d first)
    (vetted : Vetted poseidon extract q d first) (trees : Grows poseidon q first.chain.pool) :
    Staged d (dispatcherNetwork d image outside) last ∧ Solvent poseidon extract q d last ∧ Vetted poseidon extract q d last ∧
      Grows poseidon q last.chain.pool := by
  induction run with
  | start => exact ⟨staged, solvent, vetted, trees⟩
  | @step history m shown l earlier taken ih =>
    obtain ⟨staged, solvent, vetted, trees⟩ := ih fun e member => evaluated e (List.mem_append_left _ member)
    have entry := evaluated ⟨shown, l⟩ (List.mem_append_right _ (List.mem_singleton_self _))
    exact ⟨staged_of_step dispatcher_frameZero staged taken,
      solvent_of_step ideal staged solvent vetted trees entry.deposits taken, vetted_of_step vetted entry taken, entry.trees⟩

theorem unspent_genesis {eth : Address → Nat} {value : Word → Nat} : unspent poseidon extract value (launch eth).chain = 0 := by
  apply Coins.worth_none
  rintro cm ⟨isLeaf, -⟩
  cases isLeaf

theorem backed_launch (eth : Address → Nat) : Backed poseidon extract q d 0 (launch eth).chain := by
  refine .zero ⟨.deployed, fun cm isLeaf => (by cases isLeaf), fun tx member => (by cases member)⟩ ?_
  have none : total (launch eth).chain.pool.withdrawalCredit + total (launch eth).chain.pool.feeCredit = 0 := by
    change total (fun _ => 0) + total (fun _ => 0) = 0
    rw [total_zero]
  rw [owed, none, unspent_genesis]
  exact Nat.zero_le _

/-- A settlement that `_spend` lets through finds its pledge in the pool's ETH, so neither of its
additions overflows. -/
theorem fits_of_solvent (staged : Staged d (dispatcherNetwork d image outside) l) (solvent : Solvent poseidon extract q d l)
    (vetted : Vetted poseidon extract q d l) (small : l.chain.eth d.self < 2 ^ 256) {c : Call} {result : Except Bytes Reply}
    (step : Step (dispatcherNetwork d image outside) l (.called c result) l') {payer : Address}
    (authenticated : Authenticated d c (Spend.decode c.data 4) payer) : CreditsFit d l.chain.pool (Spend.decode c.data 4) payer := by
  generalize shownIs : Observation.called c result = shown at step
  cases step with
  | call _ _ other =>
    cases shownIs
    exact absurd authenticated.sender other
  | @frameCall chain _ p f b _ _ due target nonempty mode permitted called =>
    obtain ⟨rfl, rfl⟩ := Observation.called.inj shownIs
    have sends : f.mode = .sender := by
      by_contra other
      have caller : (dispatcherNetwork d image outside).callerOf p.tx f = outside.entryPoint := if_neg other
      exact outside.apart (caller.symm.trans authenticated.sender)
    have own : p.tx.sender = d.self := by
      have caller : (dispatcherNetwork d image outside).callerOf p.tx f = p.tx.sender := if_pos sends
      exact caller.symm.trans authenticated.sender
    obtain ⟨scope, g, sp, approved, -, position⟩ := approved_of_staged staged own (permitted sends)
    rcases position.frame approved due.2 with ⟨-, -, verify⟩ | ⟨index, -, rfl, w, paid, pays⟩
    · exact absurd verify mode
    · have inside : p.index < p.tx.frames.length := inside_of_frame due.2
      have backed := solvent.kept _ .current
      rw [paid, reserve_of_paid own inside] at backed
      rw [call_of_due (dispatcherNetwork d image outside) approved index paid] at authenticated ⊢
      obtain rfl := (payerOf_settleCall approved w b).symm.trans (payerOf_authenticated authenticated)
      have decoded : Spend.decode (settleCall p.tx f w b).data 4 = sp := approved.spend.symm
      have known := vetted.known p rfl (tuple_of_approved approved ▸ approved.proven.verified)
      rw [decoded]
      exact fits_of_backed backed small approved known (covered_of_paidBy approved pays)
  | _ => cases shownIs

section
variable (poseidon extract q d image outside)

/-- What a run keeps as long as its hashes do not fail it. -/
structure Safe (l : Ledger State) : Prop where
  free : q.Free poseidon
  staged : Staged d (dispatcherNetwork d image outside) l
  solvent : Solvent poseidon extract q d l
  vetted : Vetted poseidon extract q d l
  small : l.chain.eth d.self < 2 ^ 256

/-- Two of the hashes collide, or a commitment is zero. -/
def Broken : Prop := q.Collide poseidon ∨ ∃ t ∈ q.triples, poseidon.three t.1 t.2.1 t.2.2 = 0

end

/-- At any point of a run, by the hashes that the whole of it evaluates. -/
theorem safe_within (hashes : Hashes d poseidon) {eth : Address → Nat} (words : ∀ a, eth a < 2 ^ 256) {history whole : List (Entry State)}
    {last : Ledger State} (run : Run (dispatcherNetwork d image outside) (launch eth) history last) (inside : ∀ e ∈ history, e ∈ whole)
    (extracts : ∀ tx, Proved d whole tx → Opens poseidon tx.tuple (extract tx.tuple)) :
    Broken poseidon (runQueries poseidon extract d whole) ∨
      Safe poseidon extract (runQueries poseidon extract d whole) d image outside last := by
  rcases Queries.free_or_collide poseidon (runQueries poseidon extract d whole) with free | collide
  · by_cases filled : ∃ t ∈ (runQueries poseidon extract d whole).triples, poseidon.three t.1 t.2.1 t.2.2 = 0
    · exact .inl (.inr filled)
    push Not at filled
    have ideal : Ideal poseidon (runQueries poseidon extract d whole) d := ⟨hashes, free, filled⟩
    have idle (p : Progress State) : (launch eth).tx ≠ some p := Option.some_ne_none p |>.symm
    have solvent : Solvent poseidon extract (runQueries poseidon extract d whole) d (launch eth) :=
      ⟨fun p tx => absurd tx (idle p), fun ch kept => kept_launch kept ▸ backed_launch eth⟩
    obtain ⟨staged, solvent, vetted, -⟩ := solvent_of_run ideal run (fun e member => evaluated_of_run extracts (inside e member))
      (fun p tx => absurd tx (idle p)) solvent ⟨fun p tx => absurd tx (idle p), fun p tx => absurd tx (idle p)⟩
      fun n p inside => .inr ⟨genesis, .inl rfl, n, inside⟩
    exact .inr ⟨free, staged, solvent, vetted, small_of_run run words d.self⟩
  · exact .inl (.inl collide)

theorem safe_of_run (hashes : Hashes d poseidon) {eth : Address → Nat} (words : ∀ a, eth a < 2 ^ 256) {history : List (Entry State)}
    {last : Ledger State} (run : Run (dispatcherNetwork d image outside) (launch eth) history last)
    (extracts : ∀ tx, Proved d history tx → Opens poseidon tx.tuple (extract tx.tuple)) :
    Broken poseidon (runQueries poseidon extract d history) ∨
      Safe poseidon extract (runQueries poseidon extract d history) d image outside last :=
  safe_within hashes words run (fun _ => id) extracts

section Tables
variable {pairs : List ((Word × Word) × Word)} {triples : List ((Word × Word × Word) × Word)}

/-- Hashes looked up in tables of different answers do not fail anybody. -/
theorem not_broken_of_within (left : Injective pairs) (right : Injective triples)
    (filled : triples.all (fun row => decide (row.2 ≠ 0)) = true) (within : q.Within (tabled pairs triples)) :
    ¬ Broken (.ofTable pairs triples) q := by
  rintro (collide | ⟨t, member, blank⟩)
  · exact ((tabled_free left right).within within).not_collide collide
  · have answered : answersTriple triples t = true := within.triples member
    obtain ⟨w, found⟩ := Option.isSome_iff_exists.mp answered
    have listed := mem_of_lookup found
    have canonical : w < fieldP := of_decide_eq_true (List.all_eq_true.mp right.canonical _ listed)
    have nonzero : w ≠ 0 := of_decide_eq_true (List.all_eq_true.mp filled _ listed)
    apply nonzero
    apply felt_injective canonical (by decide)
    have answer : (((triples.lookup (BitVec.ofNat 256 t.1.val, BitVec.ofNat 256 t.2.1.val, BitVec.ofNat 256 t.2.2.val)).getD 0).toNat : Fr) = 0 := blank
    rw [found] at answer
    exact answer.trans Nat.cast_zero.symm

/-- A run looks all of them up if its proofs, its deposits and the trees over what its leaves are
prefixes of do. -/
theorem runQueries_within {history : List (Entry State)}
    (proofs : ∀ tx, Proved d history tx → ((extract tx.tuple).queries poseidon).Within (tabled pairs triples))
    (deposits : ∀ c, Deposited history c → answersTriple triples (opening (felt (wordAt c.data 4)) (felt c.value)) = true)
    {row : List Word} (visited : ∀ e ∈ history, leavesOf e.reached.chain.pool <+: row)
    (trees : ∀ n ≤ row.length, Merkle.treeAll (answersPair pairs) poseidon.two ShieldedPool.depth 0 ((row.take n).map felt) = true) :
    (runQueries poseidon extract d history).Within (tabled pairs triples) := by
  refine ⟨?_, ?_⟩
  · rintro p (⟨tx, proved, inside⟩ | ⟨s, reached, n, inside⟩)
    · exact (proofs tx proved).pairs inside
    · have leaves : leavesOf s <+: row := by
        rcases reached with rfl | ⟨e, member, rfl⟩
        · exact List.nil_prefix
        · exact visited e member
      rw [List.prefix_iff_eq_take.mp leaves, List.take_take] at inside
      apply Merkle.test_of_treeAll (trees _ _) p inside
      exact (min_le_right _ _).trans leaves.length_le
  · rintro t (⟨tx, proved, inside⟩ | ⟨c, deposited, rfl⟩)
    · exact (proofs tx proved).triples inside
    · exact deposits c deposited

end Tables

section
variable (poseidon extract q d image outside)

/-- With these values of the leaves, the pool can pay whatever it owes. -/
structure Covered (value : Word → Nat) (l : Ledger State) : Prop where
  opened : ∀ cm, l.chain.pool.isLeaf cm = true → ∃ inner v, opening inner v ∈ q.triples ∧ felt cm = poseidon.commit inner v
  eth : total l.chain.pool.withdrawalCredit + total l.chain.pool.feeCredit + unspent poseidon extract value l.chain ≤ l.chain.eth d.self
  credits : ∀ a b, (l.chain.pool.withdrawalCredit a).toNat + (l.chain.pool.feeCredit b).toNat ≤ l.chain.eth d.self
  fits : ∀ c result next payer, Step (dispatcherNetwork d image outside) l (.called c result) next →
    Authenticated d c (Spend.decode c.data 4) payer → CreditsFit d l.chain.pool (Spend.decode c.data 4) payer

end

theorem Safe.covered (safe : Safe poseidon extract q d image outside l) :
    Covered poseidon extract q d image outside (noteValue poseidon q) l := by
  have backed := (safe.solvent.kept _ .current).less (Nat.zero_le _)
  refine ⟨fun cm isLeaf => (backed.sound.committed cm isLeaf).2, backed.all, fun a b => ?_, fun c result next payer step authenticated => ?_⟩
  · have withdrawal := le_total l.chain.pool.withdrawalCredit a
    have fee := le_total l.chain.pool.feeCredit b
    have all : total l.chain.pool.withdrawalCredit + total l.chain.pool.feeCredit + unspent poseidon extract (noteValue poseidon q) l.chain ≤
      l.chain.eth d.self := backed.all
    omega
  · exact fits_of_solvent safe.staged safe.solvent safe.vetted safe.small step authenticated

/-- In every state a run of the chain can reach, the pool's ETH covers all pull credits and the
values of all leaves whose nullifier keys have not been consumed, and no settlement overflows a
credit. This holds unless two hashes that the run has evaluated collide or one of its commitments
is zero; a leaf's value is the one somebody has opened it to. -/
theorem pool_solvent (hashes : Hashes d poseidon) {eth : Address → Nat} (words : ∀ a, eth a < 2 ^ 256) {history : List (Entry State)}
    {last : Ledger State} (run : Run (dispatcherNetwork d image outside) (launch eth) history last)
    (extracts : ∀ tx, Proved d history tx → Opens poseidon tx.tuple (extract tx.tuple)) :
    (runQueries poseidon extract d history).Collide poseidon ∨
      (∃ t ∈ (runQueries poseidon extract d history).triples, poseidon.three t.1 t.2.1 t.2.2 = 0) ∨
      ∃ value : Word → Nat,
        (∀ cm inner v, opening inner v ∈ (runQueries poseidon extract d history).triples → felt cm = poseidon.commit inner v →
          value cm = v.val) ∧
        (∀ cm, last.chain.pool.isLeaf cm = true →
          ∃ inner v, opening inner v ∈ (runQueries poseidon extract d history).triples ∧ felt cm = poseidon.commit inner v) ∧
        total last.chain.pool.withdrawalCredit + total last.chain.pool.feeCredit + unspent poseidon extract value last.chain ≤
          last.chain.eth d.self ∧
        ∀ c result next payer, Step (dispatcherNetwork d image outside) last (.called c result) next →
          Authenticated d c (Spend.decode c.data 4) payer → CreditsFit d last.chain.pool (Spend.decode c.data 4) payer := by
  rcases safe_of_run hashes words run extracts with (collide | filled) | safe
  · exact .inl collide
  · exact .inr (.inl filled)
  · have covered := safe.covered
    exact .inr (.inr ⟨noteValue poseidon _, fun cm inner v evaluated leaf => noteValue_eq safe.free evaluated leaf,
      covered.opened, covered.eth, covered.fits⟩)

/-- The same values cover the pool at every point of a run: one value for each leaf, by the hash
that somebody has opened it with, and after every step the ETH is there for all credits and for
all leaves that can still be spent. -/
theorem covered_throughout (hashes : Hashes d poseidon) {eth : Address → Nat} (words : ∀ a, eth a < 2 ^ 256) {history : List (Entry State)}
    {last : Ledger State} (run : Run (dispatcherNetwork d image outside) (launch eth) history last)
    (extracts : ∀ tx, Proved d history tx → Opens poseidon tx.tuple (extract tx.tuple)) :
    Broken poseidon (runQueries poseidon extract d history) ∨
      ∃ value : Word → Nat,
        (∀ cm inner v, opening inner v ∈ (runQueries poseidon extract d history).triples → felt cm = poseidon.commit inner v →
          value cm = v.val) ∧
        Covered poseidon extract (runQueries poseidon extract d history) d image outside value (launch eth) ∧
        ∀ e ∈ history, Covered poseidon extract (runQueries poseidon extract d history) d image outside value e.reached := by
  by_cases broken : Broken poseidon (runQueries poseidon extract d history)
  · exact .inl broken
  have covered {earlier : List (Entry State)} {l : Ledger State} (inside : ∀ e ∈ earlier, e ∈ history)
      (earlierRun : Run (dispatcherNetwork d image outside) (launch eth) earlier l) :=
    ((safe_within hashes words earlierRun inside extracts).resolve_left broken).covered
  have safe := (safe_of_run hashes words run extracts).resolve_left broken
  refine .inr ⟨noteValue poseidon _, fun cm inner v evaluated leaf => noteValue_eq safe.free evaluated leaf, ?_, fun e member => ?_⟩
  · exact covered (fun e member => absurd member List.not_mem_nil) .start
  · obtain ⟨before, after, split⟩ := List.append_of_mem member
    obtain ⟨l, earlier, step, -⟩ := step_of_run run split
    apply covered _ (earlier.step step)
    intro x inside
    rw [split, List.append_cons]
    exact List.mem_append_left _ inside

end ShieldedPool.Proofs

namespace ShieldedPool.Proofs.TwoSpends
open Evm Circuit Wallet.TwoSpends

theorem hashes : Hashes deployment poseidon := ⟨rfl, rfl, table⟩

/-- The assignments behind the two proofs. -/
def assignment (sp : ShieldedPool.Spend) : Signals ShieldedPool.depth :=
  if sp.publicAmount = 0 then transferInputs.signals poseidon else withdrawalInputs.signals poseidon

theorem tuple_withdrawalJob : withdrawalJob.tx.tuple = withdrawal := tuple_of_approved withdrawal_spends.approved

theorem tuple_transferJob : transferJob.tx.tuple = transfer := tuple_of_approved transfer_spends.approved

/-- One of the two transactions. -/
def Ours (tx : FrameTx) : Prop := tx = withdrawalJob.tx ∨ tx = transferJob.tx

theorem opens {tx : FrameTx} (ours : Ours tx) : Opens poseidon tx.tuple (assignment tx.tuple) := by
  rcases ours with rfl | rfl
  · rw [tuple_withdrawalJob]
    exact withdrawal_opens
  · rw [tuple_transferJob]
    exact transfer_opens

theorem assignment_within {tx : FrameTx} (ours : Ours tx) : ((assignment tx.tuple).queries poseidon).Within (tabled pairs triples) := by
  rcases ours with rfl | rfl
  · rw [tuple_withdrawalJob]
    exact withdrawal_within
  · rw [tuple_transferJob]
    exact transfer_within

/-- What a run of the two spends may show: nothing taken back, no other transaction, no other deposit. -/
structure Usual (shown : Observation) : Prop where
  forward : Forward shown
  begun : ∀ tx, shown = .begun tx → Ours tx
  deposits : ∀ c reply, shown = .called c (.ok reply) → Selects c .shield → c = deposit

theorem usual_called {c : Call} {result : Except Bytes Reply} (known : Selects c .shield → c = deposit) : Usual (.called c result) where
  forward := trivial
  begun tx begun := by cases begun
  deposits c' reply same selects := by
    cases same
    exact known selects

theorem usual_other {shown : Observation} (forward : Forward shown) (begun : ∀ tx, shown ≠ .begun tx)
    (called : ∀ c result, shown ≠ .called c result) : Usual shown where
  forward := forward
  begun tx same := absurd same (begun tx)
  deposits c reply same := absurd same (called c (.ok reply))

theorem usual_script {tx : FrameTx} (ours : Ours tx) {payer : Address} {c : Call} {result : Except Bytes Reply} {refund : Nat}
    (other : ¬ Selects c .shield) {shown : Observation} (member : shown ∈ script tx 3 payer c result refund) : Usual shown := by
  rw [script, if_pos rfl] at member
  simp only [List.mem_cons, List.not_mem_nil, or_false] at member
  rcases member with rfl | rfl | rfl | rfl
  · refine ⟨trivial, fun tx begun => ?_, fun c reply same => ?_⟩
    · cases begun
      exact ours
    · cases same
  · exact usual_other trivial (fun _ => Observation.noConfusion) fun _ _ => Observation.noConfusion
  · exact usual_called fun selects => absurd selects other
  · exact usual_other trivial (fun _ => Observation.noConfusion) fun _ _ => Observation.noConfusion

theorem usual_deposit : Usual (.called deposit (.ok (.returned (encodeWord 0)))) := usual_called fun _ => rfl

theorem usual_shown {o : Observation} (member : o ∈ TwoSpends.shown) : Usual o := by
  rcases List.mem_cons.mp member with rfl | later
  · exact usual_deposit
  rcases List.mem_append.mp later with settles | pays
  · exact usual_script (.inl rfl) (other_of_approved withdrawal_spends.approved) settles
  rcases List.mem_pair.mp pays with rfl | rfl
  · exact usual_called fun selects => absurd selects claim_other
  · exact usual_other trivial (fun _ => Observation.noConfusion) fun _ _ => Observation.noConfusion

/-- The rows of leaves that the two spends lead to, in either order. -/
def rows : List (List Word) := [[leaf.getD 0 0, change, leaf.getD 1 0], [leaf.getD 0 0, leaf.getD 1 0, change]]

theorem trees : rows.all (fun row => (List.range 4).all fun n =>
    Merkle.treeAll (answersPair pairs) poseidon.two ShieldedPool.depth 0 ((row.take n).map felt)) = true := by
  decide +kernel

/-- No run breaks the hash that has the one deposit and looks its proofs up. -/
theorem not_broken_of_proofs {extract : ShieldedPool.Spend → Signals ShieldedPool.depth} {history : List (Entry State)}
    (deposits : ∀ c, Deposited history c → c = deposit)
    (proofs : ∀ tx, Proved deployment history tx → ((extract tx.tuple).queries poseidon).Within (tabled pairs triples))
    {row : List Word} (listed : row ∈ rows) (visited : ∀ e ∈ history, leavesOf e.reached.chain.pool <+: row) :
    ¬ Broken poseidon (runQueries poseidon extract deployment history) := by
  apply not_broken_of_within injective_pairs injective_triples (by decide +kernel)
  refine runQueries_within proofs (fun c deposited => ?_) visited fun n few => ?_
  · rw [deposits c deposited]
    decide +kernel
  · have three : row.length = 3 := by
      rcases List.mem_pair.mp listed with rfl | rfl
      · rfl
      · rfl
    rw [three] at few
    exact List.all_eq_true.mp (List.all_eq_true.mp trees _ listed) n (List.mem_range.mpr (Nat.lt_succ_of_le few))

theorem not_broken_of_usual {history : List (Entry State)} (usual : ∀ e ∈ history, Usual e.shown) {row : List Word} (listed : row ∈ rows)
    (visited : ∀ e ∈ history, leavesOf e.reached.chain.pool <+: row) : ¬ Broken poseidon (runQueries poseidon assignment deployment history) := by
  refine not_broken_of_proofs (fun c deposited => ?_) (fun tx proved => ?_) listed visited
  · obtain ⟨selects, reply, e, member, called⟩ := deposited
    exact (usual e member).deposits c reply called selects
  · obtain ⟨-, e, member, begun⟩ := proved
    exact assignment_within ((usual e member).begun tx begun)

/-- No run of the two spends breaks it. -/
theorem not_broken {history : List (Entry State)} {last : Ledger State}
    (run : Run (dispatcherNetwork deployment Hegota.image Hegota.outside) start history last) (usual : ∀ e ∈ history, Usual e.shown)
    (listed : leavesOf last.chain.pool ∈ rows) : ¬ Broken poseidon (runQueries poseidon assignment deployment history) :=
  not_broken_of_usual usual listed (leaves_of_run run fun e member => (usual e member).forward).2

/-- Where only the two transactions begin, they are behind every proof. -/
theorem extracts {σ : Type} {history : List (Entry σ)} (usual : ∀ e ∈ history, Usual e.shown) (tx : FrameTx) (proved : Proved deployment history tx) :
    Opens poseidon tx.tuple (assignment tx.tuple) := by
  obtain ⟨-, e, member, begun⟩ := proved
  exact opens ((usual e member).begun tx begun)

theorem proved {σ : Type} {history : List (Entry σ)} (begun : .begun withdrawalJob.tx ∈ history.map Entry.shown) :
    Proved deployment history withdrawalJob.tx := by
  obtain ⟨e, member, shown⟩ := List.mem_map.mp begun
  refine ⟨?_, e, member, shown⟩
  rw [tuple_withdrawalJob]
  exact (proven (.inl rfl)).verified

/-- The withdrawal has opened its change. -/
theorem value_change {history : List (Entry State)} (proved : Proved deployment history withdrawalJob.tx) {value : Word → Nat}
    (fixed : ∀ cm inner v, opening inner v ∈ (runQueries poseidon assignment deployment history).triples → felt cm = poseidon.commit inner v →
      value cm = v.val) : value change = 10000000000000000 := by
  have opened : opening (withdrawalInputs.outInner 0) (withdrawalInputs.outValue 0) ∈
      (runQueries poseidon assignment deployment history).triples := by
    refine .inl ⟨_, proved, ?_⟩
    rw [tuple_withdrawalJob]
    exact ⟨0, .inr rfl⟩
  have made : felt change = poseidon.commit (withdrawalInputs.outInner 0) (withdrawalInputs.outValue 0) := by decide +kernel
  rw [fixed change _ _ opened made]
  decide +kernel

/-- The deposit, the withdrawal and its payout, in a run that breaks nothing. -/
theorem paid_sound : ∃ history last, Run (dispatcherNetwork deployment Hegota.image Hegota.outside) start history last ∧
    history.map Entry.shown = TwoSpends.shown ∧ (∀ e ∈ history, Usual e.shown) ∧ Proved deployment history withdrawalJob.tx ∧
      ¬ Broken poseidon (runQueries poseidon assignment deployment history) := by
  obtain ⟨history, last, run, paid, shown⟩ := TwoSpends.paid
  have usual (e : Entry State) (member : e ∈ history) : Usual e.shown := usual_shown (shown ▸ List.mem_map_of_mem member)
  refine ⟨history, last, run, shown, usual, ?_, not_broken run usual (paid.leaves ▸ List.mem_cons_self)⟩
  apply proved
  rw [shown]
  exact List.mem_cons_of_mem _ List.mem_cons_self

end ShieldedPool.Proofs.TwoSpends

namespace ShieldedPool.Proofs
open Evm Circuit Wallet.TwoSpends

/-- The pool remains solvent through the deposit, the withdrawal and its payout, with the change at
what it was made with. -/
theorem pool_solvent_twoSpends :
    ∃ history last, Run (dispatcherNetwork TwoSpends.deployment Hegota.image Hegota.outside) TwoSpends.start history last ∧
      history.map Entry.shown = TwoSpends.shown ∧ Proved TwoSpends.deployment history TwoSpends.withdrawalJob.tx ∧
      ∃ value : Word → Nat,
        (∀ cm inner v, opening inner v ∈ (runQueries poseidon TwoSpends.assignment TwoSpends.deployment history).triples →
          felt cm = poseidon.commit inner v → value cm = v.val) ∧
        value change = 10000000000000000 ∧
        total last.chain.pool.withdrawalCredit + total last.chain.pool.feeCredit +
          unspent poseidon TwoSpends.assignment value last.chain ≤ last.chain.eth Hegota.address := by
  obtain ⟨history, last, run, shown, usual, proved, sound⟩ := TwoSpends.paid_sound
  rcases pool_solvent TwoSpends.hashes (fun _ => by decide) run (TwoSpends.extracts usual) with collide | filled | ⟨value, fixed, -, covered, -⟩
  · exact absurd (.inl collide) sound
  · exact absurd (.inr filled) sound
  exact ⟨history, last, run, shown, proved, value, fixed, TwoSpends.value_change proved fixed, covered⟩

/-- One value of the change covers the pool from the deposit to the payout. -/
theorem covered_throughout_twoSpends :
    ∃ history last, Run (dispatcherNetwork TwoSpends.deployment Hegota.image Hegota.outside) TwoSpends.start history last ∧
      history.map Entry.shown = TwoSpends.shown ∧ Proved TwoSpends.deployment history TwoSpends.withdrawalJob.tx ∧
      ∃ value : Word → Nat, value change = 10000000000000000 ∧
        ∀ e ∈ history, Covered poseidon TwoSpends.assignment (runQueries poseidon TwoSpends.assignment TwoSpends.deployment history)
          TwoSpends.deployment Hegota.image Hegota.outside value e.reached := by
  obtain ⟨history, last, run, shown, usual, proved, sound⟩ := TwoSpends.paid_sound
  rcases covered_throughout TwoSpends.hashes (fun _ => by decide) run (TwoSpends.extracts usual) with broken | ⟨value, fixed, -, covered⟩
  · exact absurd broken sound
  exact ⟨history, last, run, shown, proved, value, TwoSpends.value_change proved fixed, covered⟩

end ShieldedPool.Proofs
