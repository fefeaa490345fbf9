import ShieldedPool.Accounts
import ShieldedPool.Proofs.Jobs
import ShieldedPool.Proofs.Lifting

/-! The two ledgers of pull credits, whatever the recipients of payouts do while they run:
what settlements have credited to an account is what it is still owed and what claims sent it. -/

namespace ShieldedPool.Proofs
open Evm Exec

variable {d : Deployment} {image : Dispatcher.Image} {outside : Outside d.self}

theorem Account.Exact.credit {a : Account} {owed : Address → Word} (exact : a.Exact owed) {who : Address} {amount : Word}
    (room : (owed who).toNat + amount.toNat < 2 ^ 256) :
    (a.credit who amount.toNat).Exact (Function.update owed who (owed who + amount)) := by
  intro other
  have before := exact other
  by_cases same : other = who
  · subst same
    have sum : (owed other + amount).toNat = (owed other).toNat + amount.toNat := BitVec.toNat_add_of_lt room
    simp only [Account.credit, Function.update_self, sum]
    omega
  · simp only [Account.credit, Function.update_of_ne same]
    exact before

theorem Account.Exact.send {a : Account} {owed : Address → Word} (exact : a.Exact owed) (who : Address) :
    (a.send who (owed who).toNat).Exact (Function.update owed who 0) := by
  intro other
  have before := exact other
  by_cases same : other = who
  · subst same
    simp only [Account.send, Function.update_self]
    change _ = 0 + _
    omega
  · simp only [Account.send, Function.update_of_ne same]
    exact before

/-- The credits and the tally agree, and the pool owes itself no fee. -/
structure Exact (d : Deployment) (s : State × Tally) : Prop where
  withdrawals : s.2.withdrawals.Exact s.1.withdrawalCredit
  fees : s.2.fees.Exact s.1.feeCredit
  own : s.1.feeCredit d.self = 0

variable {c : Call} {s : State} {t : Tally} {payer : Address} {sp : Spend}

/-- A settlement that returns has done nothing less than settle. -/
theorem effect_of_settles {reply : Reply} {s' : State} (settles : Selects c .transfer ∨ Selects c .withdraw)
    (returned : Logic.call d c s = .ok (reply, s')) :
    ∃ out payer, reply = .returned out ∧ Authenticated d c (Spend.decode c.data 4) payer ∧ Fits d c s (Spend.decode c.data 4) payer ∧
      (Selects c .transfer ∧ s' = settled d c s (Spend.decode c.data 4) payer ∨
        Selects c .withdraw ∧ (s.withdrawalCredit (Address.ofWord (Spend.decode c.data 4).ctx)).toNat +
          (Spend.decode c.data 4).publicAmount.toNat < 2 ^ 256 ∧
          s' = withdrawn d c s (Spend.decode c.data 4) payer (Address.ofWord (Spend.decode c.data 4).ctx)) := by
  obtain ⟨m, chosen, -, -, ran⟩ := (dispatch_ok d c).mp returned
  rcases method_of_selects settles chosen with rfl | rfl
  · obtain ⟨_, mid, kept, rest⟩ := bind_eq_ok.mp ran
    obtain ⟨-, -, payer, authenticated, fits, rfl⟩ := (transfer_ok d c).mp kept
    cases rest
    exact ⟨[], payer, rfl, authenticated, fits, .inl ⟨chosen, rfl⟩⟩
  · obtain ⟨recipient, mid, arg, rest⟩ := bind_eq_ok.mp ran
    obtain ⟨-, rfl⟩ := (addressArg_ok c).mp arg
    obtain ⟨_, after, kept, last⟩ := bind_eq_ok.mp rest
    obtain ⟨-, -, named, payer, authenticated, fits, room, rfl⟩ := (withdraw_ok d c).mp kept
    cases last
    rw [named, Address.ofWord_word]
    exact ⟨[], payer, rfl, authenticated, fits, .inr ⟨chosen, room, rfl⟩⟩

theorem payerOf_authenticated (authenticated : Authenticated d c sp payer) : payerOf c = payer := by
  obtain ⟨ret, answer, -, -, rfl⟩ := authenticated.bound
  rw [payerOf, answer, Option.getD_some]

/-- The fee goes where the tally says. -/
theorem exact_of_settled (exact : Exact d (s, t)) (authenticated : Authenticated d c (Spend.decode c.data 4) payer)
    (fits : Fits d c s (Spend.decode c.data 4) payer) :
    Exact d (settled d c s (Spend.decode c.data 4) payer, t.settle d c) := by
  have paid := payerOf_authenticated authenticated
  have withdrawals : (t.settle d c).withdrawals = t.withdrawals := by
    rw [Tally.settle]
    split_ifs <;> rfl
  refine ⟨?_, ?_, ?_⟩
  · rw [withdrawals, withdrawalCredit_settled]
    exact exact.withdrawals
  · rw [feeCredit_settled, feeCreditAfter, Tally.settle, paid]
    by_cases own : payer = d.self
    · rw [if_pos own, if_neg fun due => due.2 own]
      exact exact.fees
    · rw [if_neg own]
      by_cases fee : (Spend.decode c.data 4).fee = 0
      · rw [if_neg fun due => due.1 fee, fee]
        have none : t.fees.credit payer (0 : Word).toNat = t.fees := by
          simp [Account.credit]
        rw [none]
        exact exact.fees
      · rw [if_pos ⟨fee, own⟩]
        exact Account.Exact.credit exact.fees (fits.fee fee own)
  · rw [feeCredit_settled, feeCreditAfter]
    split_ifs with due
    · rw [Function.update_of_ne fun same => due.2 same.symm]
      exact exact.own
    · exact exact.own

theorem accounted_ok {reply : Reply} {s s' : State × Tally} :
    (Dispatcher.accountedCode d image).call c s = .ok (reply, s') ↔
      Logic.call d c s.1 = .ok (reply, s'.1) ∧ s'.2 = s.2.record d c reply := by
  change (Dispatcher.call d image c s.1).map _ = _ ↔ _
  rw [Dispatcher.call_eq]
  cases Logic.call d c s.1 with
  | error data => exact iff_of_false nofun fun both => nomatch both.1
  | ok done =>
    constructor
    · intro same
      cases same
      exact ⟨rfl, rfl⟩
    · rintro ⟨same, tallied⟩
      obtain ⟨plain, tally⟩ := s'
      cases same
      cases tallied
      rfl

/-- Every call keeps the two in step. -/
theorem exact_of_call {reply : Reply} {s s' : State × Tally} (exact : Exact d s)
    (returned : (Dispatcher.accountedCode d image).call c s = .ok (reply, s')) : Exact d s' := by
  obtain ⟨plain, t⟩ := s
  obtain ⟨plain', t'⟩ := s'
  obtain ⟨ran, tallied⟩ := accounted_ok.mp returned
  subst tallied
  by_cases settles : Selects c .transfer ∨ Selects c .withdraw
  · obtain ⟨out, payer, rfl, authenticated, fits, ⟨selects, rfl⟩ | ⟨selects, room, rfl⟩⟩ := effect_of_settles settles ran
    · have record : t.record d c (.returned out) = t.settle d c := by
        rw [Tally.record, selectorOf, selects.2, if_neg (by decide), if_pos rfl]
      rw [record]
      exact exact_of_settled exact authenticated fits
    · have kept := exact_of_settled exact authenticated fits
      have record : t.record d c (.returned out) = { t.settle d c with
          withdrawals := t.withdrawals.credit (Address.ofWord (Spend.decode c.data 4).ctx) (Spend.decode c.data 4).publicAmount.toNat } := by
        rw [Tally.record, selectorOf, selects.2, if_pos rfl]
      have credited : (withdrawn d c plain (Spend.decode c.data 4) payer (Address.ofWord (Spend.decode c.data 4).ctx)).withdrawalCredit =
          Function.update plain.withdrawalCredit (Address.ofWord (Spend.decode c.data 4).ctx)
            (plain.withdrawalCredit (Address.ofWord (Spend.decode c.data 4).ctx) + (Spend.decode c.data 4).publicAmount) := by
        change Function.update (settled d c plain (Spend.decode c.data 4) payer).withdrawalCredit _ _ = _
        rw [withdrawalCredit_settled]
      have withdrawals := Account.Exact.credit exact.withdrawals room
      rw [record]
      exact ⟨credited.symm ▸ withdrawals, kept.fees, kept.own⟩
  · have still (out : Bytes) : t.record d c (.returned out) = t := by
      obtain ⟨m, ⟨size, -⟩, -⟩ := (dispatch_ok d c).mp ran
      rw [Tally.record, selectorOf, if_neg fun other => settles (.inr ⟨size, other⟩), if_neg fun other => settles (.inl ⟨size, other⟩)]
    cases effect_of_call d c ran with
    | shield =>
      rw [still]
      exact ⟨exact.withdrawals, exact.fees, exact.own⟩
    | transfer selects => exact absurd (.inl selects) settles
    | withdraw selects => exact absurd (.inr selects) settles
    | @claimWithdrawal who selects =>
      rw [Tally.record, selectorOf, selects.2, if_pos rfl]
      exact ⟨Account.Exact.send exact.withdrawals who, exact.fees, exact.own⟩
    | @claimFee who selects =>
      rw [Tally.record, selectorOf, selects.2, if_neg (by decide)]
      refine ⟨exact.withdrawals, Account.Exact.send exact.fees who, ?_⟩
      change Function.update plain.feeCredit who 0 d.self = 0
      by_cases own : d.self = who
      · rw [own, Function.update_self]
      · rw [Function.update_of_ne own]
        exact exact.own
    | view =>
      rw [still]
      exact exact

theorem pool_of_approve {σ : Type} {self who : Address} {tx : FrameTx} {scope : Word} {chain ch : Chain σ}
    (effect : chain.approve self tx who scope = some ch) : ch.pool = chain.pool := by
  rcases fields_of_approve effect with rfl | ⟨-, -, -, rfl⟩ <;> rfl

theorem exact_of_change {l : Ledger (State × Tally)} {shown : Observation} {ch : Chain (State × Tally)}
    (change : Change (accountedNetwork d image outside) l shown ch) (exact : Exact d l.chain.pool) : Exact d ch.pool := by
  cases change with
  | called caller called =>
    cases called with
    | returned funds ran => exact exact_of_call exact ran
    | paying funds ran => exact exact_of_call exact ran
    | unpaid => exact exact
    | reverted => exact exact
  | approved tx inside effect =>
    rw [pool_of_approve effect]
    exact exact
  | moved | rewarded | begun | sent | refunded => exact exact

theorem exact_throughout {eth : Address → Nat} {history : List (Entry (State × Tally))} {l : Ledger (State × Tally)}
    (run : Run (accountedNetwork d image outside) (accountedLaunch eth) history l) : Throughout (fun ch => Exact d ch.pool) l := by
  refine invariant_of_run run ⟨fun ch kept => ?_, nofun⟩ fun l shown l' kept step =>
    kept.step (fun ch change => exact_of_change change (kept.1 _ .current)) step
  have start : Exact d (genesis, Tally.empty) := ⟨fun _ => rfl, fun _ => rfl, rfl⟩
  cases kept with
  | current => exact start
  | undo member => cases member
  | start tx => cases tx

theorem accounted_enriches : Enriches Prod.fst (Dispatcher.accountedCode d image) (Dispatcher.poolCode d image) where
  call c s := by
    change ((Dispatcher.call d image c s.1).map _).map _ = Dispatcher.call d image c s.1
    cases Dispatcher.call d image c s.1 <;> rfl
  resume := rfl
  authorize _ _ _ := rfl
  published _ := rfl

section Brackets
variable {σ : Type} {net : Network σ} {first l l' : Ledger σ} {history : List (Entry σ)}

/-- The claim that has made a payout still in flight, and the ledger it was made on. -/
structure ClaimedAt (net : Network σ) (first : Ledger σ) (history : List (Entry σ)) (undo : Chain σ) (rest : List (Pending σ)) : Prop where
  made : ∃ before c who amount m after l, history = before ++ ⟨.called c (.ok (.payout who amount)), m⟩ :: after ∧
    Run net first before l ∧ Step net l (.called c (.ok (.payout who amount))) m ∧ l.chain = undo ∧ l.stack = rest

/-- Every payout in flight goes back to a claim of the run. -/
def Bracketed (net : Network σ) (first : Ledger σ) (history : List (Entry σ)) : List (Pending σ) → Prop
  | [] => True
  | .payout undo _ :: rest => ClaimedAt net first history undo rest ∧ Bracketed net first history rest
  | .scope _ :: rest => Bracketed net first history rest

theorem ClaimedAt.extend {undo : Chain σ} {rest : List (Pending σ)} (claimed : ClaimedAt net first history undo rest) (e : Entry σ) :
    ClaimedAt net first (history ++ [e]) undo rest := by
  obtain ⟨before, c, who, amount, m, after, l, rfl, run, step, chain, stack⟩ := claimed.made
  exact ⟨before, c, who, amount, m, after ++ [e], l, by simp, run, step, chain, stack⟩

theorem Bracketed.extend {stack : List (Pending σ)} (bracketed : Bracketed net first history stack) (e : Entry σ) :
    Bracketed net first (history ++ [e]) stack := by
  induction stack with
  | nil => trivial
  | cons q rest ih =>
    cases q with
    | payout => exact ⟨bracketed.1.extend e, ih bracketed.2⟩
    | scope => exact ih bracketed

theorem Bracketed.tail {q : Pending σ} {rest : List (Pending σ)} (bracketed : Bracketed net first history (q :: rest)) :
    Bracketed net first history rest := by
  cases q with
  | payout => exact bracketed.2
  | scope => exact bracketed

/-- The only call that stays pending is a claim that pays out. -/
theorem pending_of_called {o : Opcodes} {outermost : Bool} {chain after : Chain σ} {c : Call} {result : Except Bytes Reply}
    {pending : List (Pending σ)} (called : Called net o outermost chain c result after pending) :
    pending = [] ∨ ∃ who amount, result = .ok (.payout who amount) ∧ pending = [.payout chain outermost] := by
  cases called with
  | paying => exact .inr ⟨_, _, rfl, rfl⟩
  | _ => exact .inl rfl

theorem bracketed_of_step {shown : Observation} (run : Run net first history l) (bracketed : Bracketed net first history l.stack)
    (step : Step net l shown l') : Bracketed net first (history ++ [⟨shown, l'⟩]) l'.stack := by
  have kept := bracketed.extend ⟨shown, l'⟩
  have taken := step
  cases step with
  | call active acts other nonempty called =>
    rcases pending_of_called called with rfl | ⟨who, amount, rfl, rfl⟩
    · exact kept
    · exact ⟨⟨history, _, who, amount, _, [], l, rfl, run, taken, rfl, rfl⟩, kept⟩
  | frameCall due target nonempty mode permitted called =>
    rcases pending_of_called called with rfl | ⟨who, amount, rfl, rfl⟩
    · trivial
    · exact ⟨⟨history, _, who, amount, _, [], _, rfl, run, taken, rfl, rfl⟩, trivial⟩
  | accept top | refuse top | leave top | undo top =>
    rw [top] at kept
    exact kept.tail
  | touch | enter | move | reward | approve => exact kept
  | begin | authorize | unauthorized | frameExhausted | frameStart | frameEnd | frameRevert | abort | finish => trivial

theorem bracketed_of_run (empty : first.stack = []) (run : Run net first history l) : Bracketed net first history l.stack := by
  induction run with
  | start => rw [empty]; trivial
  | step run taken ih => exact bracketed_of_step run ih taken

end Brackets

/-- No settlement completes while a payout is in flight. -/
theorem stack_of_settles {σ : Type} {net : Network σ} {l l' : Ledger σ} {reply : Reply} (zero : FrameZero d net)
    (settles : Selects c .transfer ∨ Selects c .withdraw) (step : Step net l (.called c (.ok reply)) l') : l.stack = [] := by
  have pinned {s t} := @FrameZero.pinned σ d net zero c s t reply settles
  cases step with
  | call active acts other nonempty called =>
    cases called with
    | returned funds ran => exact absurd ((pinned ran).trans zero.self.symm) other
    | paying funds ran => exact absurd ((pinned ran).trans zero.self.symm) other
  | frameCall => rfl

/-- A payout is for what the named account is owed, and takes nothing from anyone but the pool. -/
structure PaysNamed (d : Deployment) (c : Call) (who : Address) (amount : Word) (before after : Chain State) : Prop where
  named : wordAt c.data 4 = who.word
  owed : Selects c .claimWithdrawal ∧ amount = before.pool.withdrawalCredit who ∨
    Selects c .claimFee ∧ amount = before.pool.feeCredit who
  nonzero : amount ≠ 0
  other : who ≠ d.self
  others : ∀ a, a ≠ d.self → a ≠ who → after.eth a = before.eth a
  sent : after.eth = Chain.move before.eth d.self who amount.toNat

theorem paysNamed_of_called {o : Opcodes} {outermost : Bool} {chain after : Chain State} {pending : List (Pending State)} {who : Address}
    {amount : Word} (called : Called (dispatcherNetwork d image outside) o outermost chain c (.ok (.payout who amount)) after pending) :
    PaysNamed d c who amount chain after := by
  cases called with
  | paying funds ran other payable =>
    change Dispatcher.call d image c chain.pool = _ at ran
    rw [Dispatcher.call_eq] at ran
    have free {eth : Address → Nat} (zero : c.value = 0) : Chain.move eth c.caller d.self c.value.toNat = eth := by
      rw [zero]
      exact move_none eth _ _
    have sent (zero : c.value = 0) : Chain.move (Chain.move chain.eth c.caller d.self c.value.toNat) d.self who amount.toNat =
        Chain.move chain.eth d.self who amount.toNat := by rw [free zero]
    have other : who ≠ d.self := other
    have others (zero : c.value = 0) (a : Address) (from_ : a ≠ d.self) (to_ : a ≠ who) :
        Chain.move (Chain.move chain.eth c.caller d.self c.value.toNat) d.self who amount.toNat a = chain.eth a := by
      rw [sent zero, Chain.move, if_neg other.symm, Function.update_of_ne to_, Function.update_of_ne from_]
    cases effect_of_call d c ran with
    | claimWithdrawal selects zero named owed => exact ⟨named, .inl ⟨selects, rfl⟩, owed, other, others zero, sent zero⟩
    | claimFee selects zero named owed => exact ⟨named, .inr ⟨selects, rfl⟩, owed, other, others zero, sent zero⟩

theorem paysNamed_of_step {l l' : Ledger State} {who : Address} {amount : Word}
    (step : Step (dispatcherNetwork d image outside) l (.called c (.ok (.payout who amount))) l') :
    PaysNamed d c who amount l.chain l'.chain := by
  cases step with
  | call active acts other nonempty called => exact paysNamed_of_called called
  | frameCall due target nonempty mode permitted called => exact paysNamed_of_called called

/-- A refused payout takes the chain back to where its claim was made. -/
theorem undone_of_refuse {σ : Type} {net : Network σ} {first l l' : Ledger σ} {history : List (Entry σ)} {data : Bytes}
    (empty : first.stack = []) (run : Run net first history l) (step : Step net l (.resumed (.error data)) l') :
    ClaimedAt net first history l'.chain l'.stack := by
  have bracketed := bracketed_of_run empty run
  cases step with
  | refuse top =>
    rw [top] at bracketed
    exact bracketed.1

theorem chain_of_reverted {σ : Type} {net : Network σ} {l l' : Ledger σ} {data : Bytes} (step : Step net l (.called c (.error data)) l') :
    l'.chain = l.chain := by
  have same {o : Opcodes} {outermost : Bool} {chain after : Chain σ} {pending : List (Pending σ)}
      (called : Called net o outermost chain c (.error data) after pending) : after = chain := by
    cases called <;> rfl
  cases step with
  | call active acts other nonempty called => exact same called
  | frameCall due target nonempty mode permitted called => exact same called

/-- At every point of a run, with payouts in flight and recipients calling back as they like, what
has been credited to an account is what it is owed and what claims have sent it; claims pay the
account they name, refusals and reverts undo themselves, and nothing settles during a payout. -/
theorem credits_exact {eth : Address → Nat} {history : List (Entry State)} {l : Ledger State}
    (run : Run (dispatcherNetwork d image outside) (launch eth) history l) :
    (∃ (tallied : List (Entry (State × Tally))) (last : Ledger (State × Tally)),
      Run (accountedNetwork d image outside) (accountedLaunch eth) tallied last ∧ tallied.map (Entry.map Prod.fst) = history ∧
        last.map Prod.fst = l ∧ Exact d last.chain.pool ∧ ∀ e ∈ tallied, Exact d e.reached.chain.pool) ∧
    (∀ before c who amount m after, history = before ++ ⟨.called c (.ok (.payout who amount)), m⟩ :: after →
      ∃ earlier, Run (dispatcherNetwork d image outside) (launch eth) before earlier ∧ PaysNamed d c who amount earlier.chain m.chain) ∧
    (∀ before data m after, history = before ++ ⟨.resumed (.error data), m⟩ :: after →
      ClaimedAt (dispatcherNetwork d image outside) (launch eth) before m.chain m.stack) ∧
    (∀ before c data m after, history = before ++ ⟨.called c (.error data), m⟩ :: after →
      ∃ earlier, Run (dispatcherNetwork d image outside) (launch eth) before earlier ∧ m.chain = earlier.chain) ∧
    ∀ before c reply m after, history = before ++ ⟨.called c (.ok reply), m⟩ :: after → Selects c .transfer ∨ Selects c .withdraw →
      ∃ earlier, Run (dispatcherNetwork d image outside) (launch eth) before earlier ∧ earlier.stack = [] := by
  refine ⟨?_, fun before c who amount m after split => ?_, fun before data m after split => ?_, fun before c data m after split => ?_,
    fun before c reply m after split settles => ?_⟩
  · obtain ⟨tallied, last, lifted, shadow, same⟩ := @run_lift _ _ _ _ _ d outside accounted_enriches (accountedLaunch eth) _ _ run
    refine ⟨tallied, last, lifted, shadow, same, (exact_throughout lifted).1 _ .current, fun e member => ?_⟩
    obtain ⟨before, after, split⟩ := List.append_of_mem member
    obtain ⟨middle, earlier, step, -⟩ := step_of_run lifted split
    exact (exact_throughout (earlier.step step)).1 _ .current
  · obtain ⟨earlier, prefixed, step, -⟩ := step_of_run run split
    exact ⟨earlier, prefixed, paysNamed_of_step step⟩
  · obtain ⟨earlier, prefixed, step, -⟩ := step_of_run run split
    exact undone_of_refuse rfl prefixed step
  · obtain ⟨earlier, prefixed, step, -⟩ := step_of_run run split
    exact ⟨earlier, prefixed, chain_of_reverted step⟩
  · obtain ⟨earlier, prefixed, step, -⟩ := step_of_run run split
    exact ⟨earlier, prefixed, stack_of_settles dispatcher_frameZero settles step⟩

/-- A withdrawal credits an account, and a claim by another pays it out. -/
theorem credits_exact_twoSpends :
    ∃ history last tallied summed, Run (dispatcherNetwork TwoSpends.deployment Hegota.image Hegota.outside) TwoSpends.start history last ∧
      history.map Entry.shown = TwoSpends.shown ∧
      Run (accountedNetwork TwoSpends.deployment Hegota.image Hegota.outside) (accountedLaunch fun _ => 10 ^ 18) tallied summed ∧
      tallied.map (Entry.map Prod.fst) = history ∧ (∀ e ∈ tallied, Exact TwoSpends.deployment e.reached.chain.pool) ∧
      summed.chain.pool.2.withdrawals.credited 0xcc = summed.chain.pool.2.withdrawals.sent 0xcc ∧
      ∃ earlier m, (⟨.called TwoSpends.claim (.ok (.payout 0xcc 50000000000000000)), m⟩ : Entry State) ∈ history ∧
        PaysNamed TwoSpends.deployment TwoSpends.claim 0xcc 50000000000000000 earlier m.chain := by
  obtain ⟨history, last, run, paid, shown⟩ := TwoSpends.paid
  obtain ⟨⟨tallied, summed, again, shadow, same, exact, throughout⟩, named, -⟩ := credits_exact run
  have claimed : .called TwoSpends.claim (.ok (.payout 0xcc 50000000000000000)) ∈ history.map Entry.shown := by
    rw [shown]
    exact List.mem_append_right _ List.mem_cons_self
  obtain ⟨⟨_, m⟩, member, rfl⟩ := List.mem_map.mp claimed
  obtain ⟨before, after, split⟩ := List.append_of_mem member
  obtain ⟨earlier, -, pays⟩ := named before _ _ _ m after split
  have nothing : summed.chain.pool.1.withdrawalCredit 0xcc = 0 := by
    rw [← paid.credit, ← same]
    rfl
  have balanced := exact.withdrawals 0xcc
  rw [nothing] at balanced
  exact ⟨history, last, tallied, summed, run, shown, again, shadow, throughout, balanced.trans (Nat.zero_add _), earlier.chain, m, member, pays⟩

end ShieldedPool.Proofs
