import ShieldedPool.Proofs.Jobs

/-! A sponsoring paymaster over whole runs: it pays only for transactions of the pool that frame 0
has approved, and each of these brings in at least what it costs. -/

namespace ShieldedPool.Proofs
open Evm
open Tooling (SettleData carrier length_carrier terms_sponsored)

variable {σ : Type} {net : Network σ} {d : Deployment} {runtime : Bytes} {pm : Address} {l l' : Ledger σ} {shown : Observation}
  {p : Progress σ}

/-- A paymaster of this pool on the chain: an account whose code makes no calls of its own, and
approves what the paymaster's runtime does. -/
structure Hosts (d : Deployment) (runtime : Bytes) (pm : Address) (net : Network σ) : Prop where
  nonzero : pm.word ≠ 0
  other : pm ≠ net.self
  entry : net.entryPoint ≠ pm
  still : ¬ net.acts pm
  approves : ∀ o data scope, net.approves pm o data scope → ∃ c : Call, c.data = data ∧
    ShieldedPool.Paymaster.run (ShieldedPool.Paymaster.environment d pm (Paymaster.imageFor d runtime) c) o = .ok (some scope)

theorem pays_of_approves (hosts : Hosts d runtime pm net) {o : Opcodes} {data : Bytes} {scope : Word}
    (approves : net.approves pm o data scope) : Paymaster.Pays d pm data o ∧ scope = 1 := by
  obtain ⟨c, rfl, ran⟩ := hosts.approves _ _ _ approves
  exact Paymaster.pays_of_run ran

/-- A transaction whose middle frame `q` the paymaster runs in, and whose last frame `f` settles. -/
structure Sponsors (d : Deployment) (tx : FrameTx) (q f : Frame) (sp : Spend) : Prop where
  approved : Approved d tx 2 f sp
  frames : ∃ v, VerifyFrame d v ∧ tx.frames = [v, q, f]
  same : Spend.decode q.data 4 = sp
  covered : tx.maxCost ≤ sp.fee

theorem opcodes_of_tx {l : Ledger σ} (tx : l.tx = some p) : l.opcodes = p.tx.opcodes p.index l.chain.payer := by
  rw [Ledger.opcodes, tx]

theorem sender_of_pays {o : Opcodes} {tx : FrameTx} {index : Nat} {payer : Option Address} {data : Bytes}
    (opcodes : o = tx.opcodes index payer) (pays : Paymaster.Pays d pm data o) : tx.sender = d.self := by
  have sender := pays.sender
  rw [opcodes] at sender
  exact Address.word_injective (Option.some.inj sender)

/-- The paymaster's checks, read on a transaction that frame 0 has approved. -/
theorem sponsors_of_pays {tx : FrameTx} {scope : Word} {q f : Frame} {sp : Spend} {payer : Option Address}
    (approved : Approved d tx scope f sp) (frame : tx.frames[1]? = some q)
    (pays : Paymaster.Pays d pm q.data (tx.opcodes 1 payer)) : Sponsors d tx q f sp := by
  have count : tx.frames.length = 3 := length_of_word tx.fewFrames pays.frames
  rcases approved.shape with ⟨-, frames, -⟩ | @⟨v, q', verify, pay, frames⟩
  · rw [frames] at count
    cases count
  rw [frames] at frame
  obtain rfl := Option.some.inj frame
  have settle : tx.frames[2]? = some f := by rw [frames]; rfl
  have same : Spend.decode q'.data 4 = sp := by
    rw [approved.spend]
    exact spend_of_frame settle ⟨_, pays.words, rfl⟩
  obtain ⟨cost, charged, covered⟩ := pays.covered
  obtain rfl : tx.maxCost = cost := Option.some.inj charged
  have fee : wordAt q'.data 228 = sp.fee := congrArg Spend.fee same
  exact ⟨approved, ⟨v, verify, frames⟩, same, fee ▸ covered⟩

theorem sponsors_of_paidBy (hosts : Hosts d runtime pm net) (self : net.self = d.self) {tx : FrameTx} {scope : Word} {f : Frame}
    {sp : Spend} (approved : Approved d tx scope f sp) (payer : PaidBy d net.approves tx scope pm) :
    ∃ q, q.target = pm ∧ Sponsors d tx q f sp := by
  generalize same : pm = who at payer
  cases payer with
  | pool => exact absurd (same.trans self.symm) hosts.other
  | @sponsor q frame other approval =>
    subst same
    exact ⟨q, rfl, sponsors_of_pays approved frame (pays_of_approves hosts approval).1⟩

/-- A transaction sent in the paymaster's own name never gets to act for it. -/
def Unsent (pm : Address) (l : Ledger σ) : Prop :=
  ∀ p, l.tx = some p → p.tx.sender = pm → ∀ ch, Kept l ch → ch.approved = false

/-- Without an approval of its own, the sender cannot pay for itself either. -/
theorem unapproved_of_change (hosts : Hosts d runtime pm net) {ch : Chain σ} (tx : l.tx = some p) (sender : p.tx.sender = pm)
    (clear : l.chain.approved = false) (change : Change net l shown ch) : ch.approved = false := by
  cases change with
  | called caller called => cases called <;> exact clear
  | moved | rewarded => exact clear
  | begun | refunded => rfl
  | @approved q who scope ch same inside effect authority =>
    obtain rfl := Option.some.inj (tx.symm.trans same)
    refine absurd effect ?_
    rcases authority with ⟨-, -, data, approves⟩ | ⟨rfl, -⟩
    · by_cases own : who = pm
      · subst own
        obtain ⟨-, rfl⟩ := pays_of_approves hosts approves
        intro effect
        exact absurd ((fields_of_payment effect).1.1.symm.trans clear) nofun
      · exact approve_clear clear (fun same => own (same.trans sender))
    · exact approve_clear clear (fun same => hosts.other (sender.symm.trans same.symm))
  | sent same due mode permitted => exact absurd (permitted.symm.trans clear) nofun

theorem unsent_of_step (hosts : Hosts d runtime pm net) (unsent : Unsent pm l) (step : Step net l shown l') : Unsent pm l' := by
  intro p' after sender ch kept
  rcases before_of_step step after with ⟨p, tx, same, -⟩ | ⟨chain, rfl, -, -, rfl, -⟩
  · rw [same] at sender
    have clear := unsent p tx sender
    rcases kept_of_step step kept with old | change | ⟨ended, -⟩
    · exact clear ch old
    · exact unapproved_of_change hosts tx sender (clear _ .current) change
    · exact absurd (after.symm.trans ended) nofun
  · cases kept with
    | current => rfl
    | undo member => cases member
    | start tx started =>
      cases tx
      cases started

/-- The paymaster's balance and what the pool owes it in fees. -/
def wealth (pm : Address) (chain : Chain State) : Nat := chain.eth pm + (chain.pool.feeCredit pm).toNat

/-- A fee credit grows when a settlement adds to it, and goes only to its owner. -/
theorem feeCredit_of_effect {c : Call} {s t : State} {out : Bytes} (effect : Effect d c s (.returned out) t) (a : Address) :
    (s.feeCredit a).toNat ≤ (t.feeCredit a).toNat := by
  have credited (sp : Spend) (payer : Address) (fits : Fits d c s sp payer) :
      (s.feeCredit a).toNat ≤ ((settled d c s sp payer).feeCredit a).toNat := by
    rw [feeCredit_settled, feeCreditAfter]
    split_ifs with due
    · by_cases here : a = payer
      · subst here
        have room := fits.fee due.1 due.2
        rw [Function.update_self, BitVec.toNat_add, Nat.mod_eq_of_lt room]
        exact Nat.le_add_right _ _
      · rw [Function.update_of_ne here]
    · exact le_refl _
  cases effect with
  | shield => exact le_refl _
  | transfer _ _ _ _ _ _ fits => exact credited _ _ fits
  | withdraw _ _ _ _ _ _ fits _ => exact credited _ _ fits
  | view => exact le_refl _

section Changes
variable {image : Dispatcher.Image} {outside : Outside d.self} {l l' : Ledger State} {p : Progress State}

theorem wealth_of_called {o : Opcodes} {outermost : Bool} {chain ch : Chain State} {c : Call} {result : Except Bytes Reply}
    {pending : List (Pending State)} (other : pm ≠ d.self) (caller : pm ≠ c.caller)
    (called : Called (dispatcherNetwork d image outside) o outermost chain c result ch pending) : wealth pm chain ≤ wealth pm ch := by
  have effect {reply : Reply} {t : State} (ran : Dispatcher.call d image c chain.pool = .ok (reply, t)) :
      Effect d c chain.pool reply t := effect_of_call d c (by rw [← Dispatcher.call_eq d image, ran])
  cases called with
  | returned funds ran => exact Nat.add_le_add (le_move caller) (feeCredit_of_effect (effect ran) pm)
  | @paying who amount pool funds ran outsider payable =>
    have taken : Chain.move chain.eth c.caller d.self c.value.toNat pm = chain.eth pm := move_other caller other
    have given : Chain.move chain.eth c.caller d.self c.value.toNat pm ≤
        Chain.move (Chain.move chain.eth c.caller d.self c.value.toNat) d.self who amount.toNat pm := le_move other
    cases effect ran with
    | claimWithdrawal => exact Nat.add_le_add_right (taken ▸ given) _
    | claimFee =>
      by_cases here : who = pm
      · subst here
        have outsider : who ≠ d.self := outsider
        have moved : Chain.move (Chain.move chain.eth c.caller d.self c.value.toNat) d.self who
            (chain.pool.feeCredit who).toNat who = chain.eth who + (chain.pool.feeCredit who).toNat := by
          rw [move_target outsider, taken]
        change wealth who chain ≤ Chain.move (Chain.move chain.eth c.caller d.self c.value.toNat) d.self who
            (chain.pool.feeCredit who).toNat who + _
        rw [moved]
        exact Nat.le_add_right _ _
      · have same : (Function.update chain.pool.feeCredit who 0) pm = chain.pool.feeCredit pm :=
          Function.update_of_ne (Ne.symm here) _ _
        change chain.eth pm + (chain.pool.feeCredit pm).toNat ≤ _ + ((Function.update chain.pool.feeCredit who 0) pm).toNat
        rw [same]
        exact Nat.add_le_add_right (taken ▸ given) _
  | unpaid => exact le_refl _
  | reverted => exact le_refl _

/-- Unless it has just paid for a transaction of the pool, nothing makes the paymaster poorer. -/
theorem wealth_of_change (hosts : Hosts d runtime pm (dispatcherNetwork d image outside)) (unsent : Unsent pm l)
    (loose : ∀ p, l.tx = some p → p.tx.sender = d.self → l.chain.approved = false) {ch : Chain State}
    (change : Change (dispatcherNetwork d image outside) l shown ch) : wealth pm l.chain ≤ wealth pm ch := by
  cases change with
  | called caller called =>
    refine wealth_of_called hosts.other ?_ called
    rintro rfl
    rcases caller with ⟨acts, -⟩ | @⟨p, f, tx, -, -, permitted, same⟩
    · exact hosts.still acts
    · by_cases sends : f.mode = .sender
      · rw [Network.callerOf, if_pos sends] at same
        cases (permitted sends).symm.trans (unsent p tx same.symm _ .current)
      · rw [Network.callerOf, if_neg sends] at same
        exact hosts.entry same.symm
  | @moved src dst amount acts other funds =>
    have stranger : pm ≠ src := fun same => hosts.still (by rw [same]; exact acts)
    exact Nat.add_le_add_right (le_move stranger) _
  | @rewarded dst amount room => exact Nat.add_le_add_right (le_update _ _ _ _) _
  | begun => exact le_refl _
  | @approved p who scope ch tx inside effect authority =>
    rcases fields_of_approve effect with rfl | ⟨-, -, -, rfl⟩
    · exact le_refl _
    · by_cases own : who = pm
      · subst own
        refine absurd effect ?_
        rcases authority with ⟨-, -, data, approves⟩ | ⟨same, -⟩
        · obtain ⟨pays, -⟩ := pays_of_approves hosts approves
          have sender := sender_of_pays (opcodes_of_tx tx) pays
          have stranger : who ≠ d.self := hosts.other
          exact approve_clear (loose p tx sender) (sender ▸ stranger)
        · exact absurd same hosts.other
      · have same : (paidChain (dispatcherNetwork d image outside).self who p.tx l.chain).eth pm = l.chain.eth pm :=
          Function.update_of_ne (Ne.symm own) _ _
        exact Nat.add_le_add_right same.ge _
  | @sent p f tx due mode permitted target funds =>
    have stranger : pm ≠ p.tx.sender := by
      intro same
      cases permitted.symm.trans (unsent p tx same.symm _ .current)
    exact Nat.add_le_add_right (le_move stranger) _
  | refunded room => exact Nat.add_le_add_right (le_update _ _ _ _) _

end Changes

/-- What a run is assumed to meet wherever it settles: enough gas, a predeploy that takes the root,
and credits that fit their words. -/
structure Regular (shown : Observation) : Prop where
  gas : shown ≠ .exhausted
  written : ∀ c result, shown = .called c result → Selects c .transfer ∨ Selects c .withdraw → ∀ data, c.publishes data = true
  credits : ∀ c, shown = .called c (.error arithmeticPanic) → ¬ (Selects c .transfer ∨ Selects c .withdraw)

/-- No settlement finds the tree full. -/
def Roomy (shown : Observation) : Prop :=
  ∀ c, shown = .called c (.error Error.treeFull.data) → ¬ (Selects c .transfer ∨ Selects c .withdraw)

/-- What the paymaster has advanced to the transaction in progress. -/
def advanced (d : Deployment) (pm : Address) (l : Ledger State) : Nat :=
  match l.tx with
  | none => 0
  | some p => if p.tx.sender = d.self ∧ l.chain.payer = some pm ∧ p.index < p.tx.frames.length then p.tx.maxCost.toNat else 0

/-- Wherever the chain goes from here, the paymaster has `w`, up to what it has advanced. -/
structure Rich (d : Deployment) (pm : Address) (w : Nat) (l : Ledger State) : Prop where
  before : ∀ p, l.tx = some p → w ≤ wealth pm p.before
  kept : ∀ ch, Kept l ch → w ≤ wealth pm ch + advanced d pm l

section Run
variable {image : Dispatcher.Image} {outside : Outside d.self} {l l' : Ledger State} {p : Progress State} {w : Nat}

theorem advanced_of_unpaid {tx : Option (Progress State)} {stack : List (Pending State)} {chain : Chain State}
    (unpaid : chain.payer ≠ some pm) : advanced d pm ⟨chain, stack, tx⟩ = 0 := by
  cases tx with
  | none => rfl
  | some p => exact if_neg fun all => unpaid all.2.1

theorem advanced_of_paid {stack : List (Pending State)} {chain : Chain State} (own : p.tx.sender = d.self)
    (paid : chain.payer = some pm) (inside : p.index < p.tx.frames.length) :
    advanced d pm ⟨chain, stack, some p⟩ = p.tx.maxCost.toNat := if_pos ⟨own, paid, inside⟩

/-- Before frame 0 has approved, and in everybody else's transactions. -/
theorem Rich.loose (rich : Rich d pm w l) (hosts : Hosts d runtime pm (dispatcherNetwork d image outside)) (unsent : Unsent pm l)
    (loose : ∀ p, l.tx = some p → p.tx.sender = d.self → l.chain.approved = false ∧ l.chain.payer = none)
    (step : Step (dispatcherNetwork d image outside) l shown l') : Rich d pm w l' := by
  have nothing : advanced d pm l = 0 := by
    rw [advanced]
    cases tx : l.tx with
    | none => rfl
    | some p =>
      refine if_neg fun all => ?_
      rw [(loose p tx all.1).2] at all
      cases all.2.1
  have kept (ch : Chain State) (old : Kept l ch) : w ≤ wealth pm ch := by
    have bound := rich.kept ch old
    rwa [nothing] at bound
  refine ⟨fun p' after => ?_, fun ch after => Nat.le_add_right_of_le ?_⟩
  · rcases before_of_step step after with ⟨p, tx, -, same⟩ | ⟨chain, rfl, -, -, -, same⟩
    · exact same ▸ rich.before p tx
    · exact same ▸ kept _ .current
  · rcases kept_of_step step after with old | change | ⟨-, p, tx, rfl⟩
    · exact kept ch old
    · exact (kept _ .current).trans (wealth_of_change hosts unsent (fun p tx own => (loose p tx own).1) change)
    · exact rich.before p tx

/-- What a settlement adds to the paymaster's wealth when it has paid. -/
theorem wealth_of_settles {chain : Chain State} {c : Call} {sp : Spend} (other : pm ≠ d.self) (credits : CreditsFit d chain.pool sp pm) :
    ((outcome d c chain.pool sp pm).feeCredit pm).toNat = (chain.pool.feeCredit pm).toNat + sp.fee.toNat := by
  obtain ⟨-, -, feeCredit, -⟩ := outcome_fields d c chain.pool sp pm
  rw [feeCredit, feeCreditAfter]
  by_cases due : sp.fee = 0
  · rw [if_neg fun both => both.1 due, due]
    rfl
  · have room := credits.fee ⟨due, other⟩
    rw [if_pos ⟨due, other⟩, Function.update_self, BitVec.toNat_add, Nat.mod_eq_of_lt room]

theorem Rich.advance {chain : Chain State} {scope : Word} {f : Frame} {sp : Spend} (rich : Rich d pm w ⟨chain, [], some p⟩)
    (hosts : Hosts d runtime pm (dispatcherNetwork d image outside)) (approved : Approved d p.tx scope f sp)
    (regular : Regular shown) (roomy : Roomy shown)
    (advance : Advance d (dispatcherNetwork d image outside) chain p scope f shown l') : Rich d pm w l' := by
  have current := rich.kept chain .current
  have own : p.tx.sender = d.self := approved.sender
  have place := lastIndex_of_shape approved.shape
  -- Once a frame is over there is nothing to go back to but the chain it has left.
  have onwards {ch : Chain State} (bound : w ≤ wealth pm ch + advanced d pm ⟨ch, [], some p.next⟩) :
      Rich d pm w ⟨ch, [], some p.next⟩ := by
    refine ⟨fun q tx => ?_, fun other kept => ?_⟩
    · cases tx
      exact rich.before p rfl
    · obtain rfl := kept_of_next kept
      exact bound
  cases advance with
  | @rewarded dst amount room =>
    have same : advanced d pm ⟨{ chain with eth := Function.update chain.eth dst (chain.eth dst + amount) }, [], some p⟩ =
        advanced d pm ⟨chain, [], some p⟩ := rfl
    refine ⟨rich.before, fun ch kept => ?_⟩
    rw [same]
    cases kept with
    | current => exact current.trans (Nat.add_le_add_right (Nat.add_le_add_right (le_update _ _ _ _) _) _)
    | undo member => cases member
    | start tx started => exact rich.kept ch (.start tx started)
  | started sponsored index unpaid =>
    refine ⟨fun q tx => ?_, fun ch kept => ?_⟩
    · cases tx
      exact rich.before p rfl
    · have same : ch = chain := by
        cases kept with
        | current => rfl
        | undo member => cases member
        | start tx started =>
          cases tx
          cases started
          rfl
      rw [same, advanced_of_unpaid (by rw [unpaid]; exact nofun)]
      rwa [advanced_of_unpaid (by rw [unpaid]; exact nofun)] at current
  | @paid q undo ch sponsored index running target approves effect =>
    obtain ⟨⟨-, unpaid, funds, -⟩, rfl⟩ := fields_of_payment effect
    have before : w ≤ wealth pm chain := by rwa [advanced_of_unpaid (by rw [unpaid]; exact nofun)] at current
    refine ⟨rich.before, fun u kept => ?_⟩
    cases kept with
    | current =>
      by_cases mine : q.target = pm
      · subst mine
        have debt : p.index < p.tx.frames.length := by
          rcases place with ⟨rfl, -⟩ | ⟨-, -, length⟩
          · exact absurd sponsored (by decide)
          · omega
        rw [advanced_of_paid own rfl debt]
        rw [wealth] at before ⊢
        simp only [Function.update_self]
        omega
      · have same : (Function.update chain.eth q.target (chain.eth q.target - p.tx.maxCost.toNat)) pm = chain.eth pm :=
          Function.update_of_ne (Ne.symm mine) _ _
        exact Nat.le_add_right_of_le (before.trans (Nat.add_le_add_right same.ge _))
    | undo member => cases member
    | start tx started =>
      have bound := rich.kept u (.start tx started)
      rw [advanced_of_unpaid (by rw [unpaid]; exact nofun)] at bound
      exact Nat.le_add_right_of_le bound
  | @closed v sponsored index paid payer =>
    refine onwards ?_
    have same : advanced d pm ⟨chain, [], some p.next⟩ = advanced d pm ⟨chain, [], some p⟩ := by
      have first : p.next.index < p.next.tx.frames.length := by
        change p.index + 1 < p.tx.frames.length
        rcases place with ⟨rfl, -⟩ | ⟨-, -, length⟩
        · exact absurd sponsored (by decide)
        · omega
      have second : p.index < p.tx.frames.length := Nat.lt_of_succ_lt first
      simp only [advanced, first, second]
      rfl
    rwa [same]
  | @settled b v result ch index paid payer called =>
    refine onwards (Nat.le_add_right_of_le ?_)
    by_cases mine : v = pm
    · subst mine
      rw [call_of_due (dispatcherNetwork d image outside) approved index paid] at called regular roomy
      have selects : Selects (settleCall p.tx f v b) .transfer ∨ Selects (settleCall p.tx f v b) .withdraw :=
        selects_of_approved approved rfl
      have written : ∀ data, b.publishes data = true := regular.written _ _ rfl selects
      obtain ⟨-, ended⟩ := settlement_of_called approved hosts.nonzero written called
      obtain ⟨q, -, sponsors⟩ := sponsors_of_paidBy hosts rfl approved payer
      have covered : p.tx.maxCost.toNat ≤ sp.fee.toNat := sponsors.covered
      have debt : p.index < p.tx.frames.length := by
        rcases place with ⟨-, last, length⟩ | ⟨-, last, length⟩ <;> omega
      rw [advanced_of_paid own paid debt] at current
      cases ended with
      | full => exact absurd selects (roomy _ rfl)
      | panics => exact absurd selects (regular.credits _ rfl)
      | settles room credits =>
        have gained := wealth_of_settles (c := settleCall p.tx f v b) hosts.other credits
        rw [wealth] at current ⊢
        simp only [gained]
        omega
    · have unpaid : chain.payer ≠ some pm := by rw [paid]; exact fun same => mine (Option.some.inj same)
      rw [advanced_of_unpaid unpaid] at current
      have caller : pm ≠ (Ledger.call ⟨chain, [], some p⟩ ((dispatcherNetwork d image outside).callerOf p.tx f) f.value f.data b).caller := by
        change pm ≠ (dispatcherNetwork d image outside).callerOf p.tx f
        rw [Network.callerOf, if_pos approved.mode, own]
        exact hosts.other
      exact current.trans (wealth_of_called hosts.other caller called)
  | exhausted => exact absurd rfl regular.gas
  | aborted =>
    refine ⟨fun q tx => (by cases tx), fun ch kept => ?_⟩
    cases kept with
    | current => exact rich.before p rfl
    | undo member => cases member
    | start tx => cases tx
  | @finished v refund complete paid payer bound room =>
    have nothing : advanced d pm ⟨chain, [], some p⟩ = 0 := if_neg fun all => by
      have inside := all.2.2
      omega
    rw [nothing] at current
    refine ⟨fun q tx => (by cases tx), fun ch kept => ?_⟩
    cases kept with
    | current => exact current.trans (Nat.add_le_add_right (le_update _ _ _ _) _)
    | undo member => cases member
    | start tx => cases tx

theorem rich_of_step (hosts : Hosts d runtime pm (dispatcherNetwork d image outside))
    (staged : Staged d (dispatcherNetwork d image outside) l) (unsent : Unsent pm l) (rich : Rich d pm w l)
    (regular : Regular shown) (roomy : Roomy shown) (step : Step (dispatcherNetwork d image outside) l shown l') : Rich d pm w l' := by
  by_cases busy : ∃ p, l.tx = some p ∧ p.tx.sender = d.self ∧ l.chain.approved = true
  · obtain ⟨p, tx, own, flag⟩ := busy
    rcases staged p tx own with clear | ⟨approved, stack, -, position⟩
    · exact absurd ((clear _ .current).1.symm.trans flag) nofun
    obtain ⟨chain, _, _⟩ := l
    cases stack
    cases tx
    exact rich.advance hosts approved regular roomy (advance_of_step dispatcher_frameZero approved flag position step)
  · refine rich.loose hosts unsent (fun p tx own => ?_) step
    rcases staged p tx own with clear | ⟨approved, -, flag, -⟩
    · exact clear _ .current
    · exact absurd ⟨p, tx, own, flag⟩ busy

/-- An approval by the paymaster is a payment for a transaction of the pool. -/
theorem sponsors_of_step (hosts : Hosts d runtime pm (dispatcherNetwork d image outside))
    (staged : Staged d (dispatcherNetwork d image outside) l) {scope : Word}
    (step : Step (dispatcherNetwork d image outside) l (.approved pm scope) l') :
    ∃ chain ch p q f sp, l = ⟨chain, [], some p⟩ ∧ l' = ⟨ch, [], some p⟩ ∧ chain.approved = true ∧ ch.approved = true ∧
      ch.payer = some pm ∧ q.target = pm ∧ Sponsors d p.tx q f sp := by
  generalize shownIs : Observation.approved pm scope = shown at step
  cases step with
  | @approve l approvedChain p q undo scope' current running target approves effect =>
    obtain ⟨rfl, rfl⟩ := Observation.approved.inj shownIs
    obtain ⟨pays, -⟩ := pays_of_approves hosts approves
    have own := sender_of_pays (opcodes_of_tx current) pays
    rcases staged p current own with clear | ⟨approved, stack, flag, position⟩
    · have stranger : q.target ≠ p.tx.sender := by rw [own]; exact target
      exact absurd effect (approve_clear (clear _ .current).1 stranger)
    obtain ⟨chain, _, _⟩ := l
    cases stack
    cases current
    rcases position.frame approved running.2 with ⟨-, index, -⟩ | ⟨-, closed, -⟩
    · have stranger : q.target ≠ p.tx.sender := by rw [own]; exact target
      obtain ⟨-, payment⟩ := payment_of_approve stranger effect
      obtain ⟨-, rfl⟩ := fields_of_payment payment
      have frame := running.2
      rw [Progress.frame, index] at frame
      rw [opcodes_of_tx rfl, index] at pays
      exact ⟨chain, _, p, q, _, _, rfl, rfl, flag, flag, rfl, rfl, sponsors_of_pays approved frame pays⟩
    · cases running.1.symm.trans closed
  | _ => cases shownIs

theorem rich_of_run (hosts : Hosts d runtime pm (dispatcherNetwork d image outside)) {first last : Ledger State}
    {history : List (Entry State)} (run : Run (dispatcherNetwork d image outside) first history last)
    (staged : Staged d (dispatcherNetwork d image outside) first) (unsent : Unsent pm first) (rich : Rich d pm w first)
    (regular : ∀ e ∈ history, Regular e.shown) (roomy : ∀ e ∈ history, Roomy e.shown) :
    Staged d (dispatcherNetwork d image outside) last ∧ Unsent pm last ∧ Rich d pm w last := by
  induction run with
  | start => exact ⟨staged, unsent, rich⟩
  | @step history m shown l earlier taken ih =>
    obtain ⟨staged, unsent, rich⟩ := ih (fun e member => regular e (List.mem_append_left _ member))
      fun e member => roomy e (List.mem_append_left _ member)
    have entry : ⟨shown, l⟩ ∈ history ++ [(⟨shown, l⟩ : Entry State)] := List.mem_append_right _ (List.mem_singleton_self _)
    exact ⟨staged_of_step dispatcher_frameZero staged taken, unsent_of_step hosts unsent taken,
      rich_of_step hosts staged unsent rich (regular _ entry) (roomy _ entry) taken⟩

/-- A paymaster of the pool never approves on empty calldata. It pays only for three-frame
transactions that frame 0 has approved on the same tuple, whose fee covers the maximum cost and is
credited to it unless the tree is full; so while no settlement finds it full, it never loses. -/
theorem paymaster_never_drained (hosts : Hosts d runtime pm (dispatcherNetwork d image outside)) {eth : Address → Nat}
    {history : List (Entry State)} {last : Ledger State} (run : Run (dispatcherNetwork d image outside) (launch eth) history last) :
    (∀ (c : Call) (o : Opcodes), c.data = [] →
      ShieldedPool.Paymaster.run (ShieldedPool.Paymaster.environment d pm (Paymaster.imageFor d runtime) c) o = .ok none) ∧
    (∀ before scope reached after, history = before ++ ⟨.approved pm scope, reached⟩ :: after →
      ∃ tx during q f sp, Since before tx during ∧ (∃ scope, ∃ e ∈ during, e.shown = .authorized (some 0) (.ok scope)) ∧
        q.target = pm ∧ Sponsors d tx q f sp ∧
        ∀ middle c result settled rest, after = middle ++ ⟨.called c result, settled⟩ :: rest →
          (∀ e ∈ middle, ¬ e.shown.Ends) → Regular (.called c result) →
          result = .error Error.treeFull.data ∨ (settled.chain.pool.feeCredit pm).toNat =
            (reached.chain.pool.feeCredit pm).toNat + sp.fee.toNat) ∧
    ∀ earlier later middle, Run (dispatcherNetwork d image outside) (launch eth) earlier middle →
      Run (dispatcherNetwork d image outside) middle later last → middle.tx = none → middle.stack = [] → last.tx = none →
      (∀ e ∈ later, Regular e.shown) → (∀ e ∈ later, Roomy e.shown) → wealth pm middle.chain ≤ wealth pm last.chain := by
  have zero := @dispatcher_frameZero d image outside
  refine ⟨fun c o empty => Paymaster.run_nil empty, fun before scope reached after split => ?_,
    fun earlier later middle first second idle quiet ended regular roomy => ?_⟩
  · obtain ⟨l, earlier, step, later⟩ := step_of_run run split
    obtain ⟨staged, recorded⟩ := recorded_of_run zero rfl earlier
    obtain ⟨chain, ch, p, q, f, sp, rfl, rfl, flag, after_, paid, target, sponsors⟩ := sponsors_of_step hosts staged step
    obtain ⟨during, recorded⟩ := recorded p rfl
    have own : p.tx.sender = (dispatcherNetwork d image outside).self := sponsors.approved.sender
    refine ⟨p.tx, during, q, f, sp, recorded.since, recorded.verified own flag, target, sponsors,
      fun middle c result settled rest tail lasting regular => ?_⟩
    obtain ⟨m, middleRun, taken, -⟩ := step_of_run later tail
    obtain ⟨staged', ch', p', rfl, same, flag', paid', pool⟩ :=
      paid_of_run zero (staged_of_step zero staged step) own after_ paid middleRun lasting
    obtain ⟨scope', f', sp', approved, -, position⟩ := approved_of_staged staged' (same ▸ own) flag'
    obtain rfl : f' = f := by
      have last' := getLast_of_approved approved
      rw [same] at last'
      exact Option.some.inj (last'.symm.trans (getLast_of_approved sponsors.approved))
    obtain rfl : sp' = sp := approved.spend.trans sponsors.approved.spend.symm
    have place := lastIndex_of_shape approved.shape
    have selects : Selects c .transfer ∨ Selects c .withdraw := by
      cases advance_of_step zero approved flag' position taken
      exact selects_of_approved approved rfl
    cases advance_of_step zero approved flag' position taken with
    | @settled b w result after index paid'' payer called =>
      obtain rfl := Option.some.inj (paid''.symm.trans paid')
      rw [call_of_due (dispatcherNetwork d image outside) approved index paid'] at called regular selects
      have written : ∀ data, b.publishes data = true := regular.written _ _ rfl selects
      obtain ⟨-, ended⟩ := settlement_of_called approved hosts.nonzero written called
      have inside : p'.index < p'.tx.frames.length := by
        rcases place with ⟨-, last, length⟩ | ⟨-, last, length⟩ <;> omega
      cases ended with
      | full => exact .inl rfl
      | panics => exact absurd selects (regular.credits _ rfl)
      | settles room credits =>
        have gained := wealth_of_settles (c := settleCall p'.tx f' w b) hosts.other credits
        rw [pool inside] at gained
        refine .inr ?_
        rw [pool inside]
        exact gained
  · have staged : Staged d (dispatcherNetwork d image outside) middle := (recorded_of_run zero rfl first).1
    have none (p : Progress State) : middle.tx ≠ some p := by rw [idle]; exact nofun
    have rich : Rich d pm (wealth pm middle.chain) middle := by
      refine ⟨fun p tx => absurd tx (none p), fun ch kept => ?_⟩
      cases kept with
      | current => exact Nat.le_add_right _ _
      | undo member =>
        rw [quiet] at member
        cases member
      | start tx => exact absurd tx (none _)
    obtain ⟨-, -, final⟩ := rich_of_run hosts second staged (fun p tx => absurd tx (none p)) rich regular roomy
    have bound := final.kept _ .current
    have nothing : advanced d pm last = 0 := by rw [advanced, ended]
    rwa [nothing] at bound

end Run

/-- A network with a paymaster on it, at address 0xcc. -/
def hosting : Outside Hegota.deployment.self where
  entryPoint := Hegota.outside.entryPoint
  apart := Hegota.outside.apart
  acts := fun who => who ≠ 0xcc#160
  approves := fun who o data scope => who = 0xcc#160 ∧ ∃ c : Call, c.data = data ∧
    ShieldedPool.Paymaster.run (ShieldedPool.Paymaster.environment Hegota.deployment 0xcc#160 (Paymaster.imageFor Hegota.deployment []) c) o =
      .ok (some scope)

theorem hosts_hosting : Hosts Hegota.deployment [] 0xcc#160 (dispatcherNetwork Hegota.deployment Hegota.image hosting) where
  nonzero := by decide
  other := by decide
  entry := by decide
  still := fun acts => acts rfl
  approves := fun _ _ _ approves => approves.2

/-- The recorded transfer, paid for by the paymaster. -/
def sponsoredJob : Job := .sponsored Hegota.deployment (.transfer rfl rfl : SettleData Hegota.transfer _) 191883 10384588145384232 0xcc#160

theorem sponsoredJob_spends : sponsoredJob.Spends Hegota.deployment Hegota.image hosting hegotaChain := by
  have rooted : Hegota.transfer.root ∈ hegotaChain.pool.published := by
    have published : hegotaChain.pool.published = [zeroRoot, rootOf Hegota.deployment (inserted Hegota.deployment genesis
        (commitmentOf Hegota.deployment Hegota.inner Hegota.shieldValue))] := rfl
    rw [published, hegota_root]
    exact List.mem_cons_of_mem _ List.mem_cons_self
  have covered : (10384588145384232 : Word) ≤ Hegota.transfer.fee := by decide
  have nonempty : carrier Hegota.transfer ≠ [] := List.ne_nil_of_length_pos (by rw [length_carrier]; decide)
  refine Job.spends_sponsored _ _ hegota_proven (by decide) rooted (fun _ _ => List.not_mem_nil) (by decide) (by decide) (by decide) ?_
  refine ⟨rfl, ⟨0, 0, carrier Hegota.transfer, 0, none, fun _ => true⟩, rfl, (Paymaster.run_ok nonempty).mpr ⟨?_, rfl⟩⟩
  exact (terms_sponsored _ _ _ _ _).mpr covered

/-- The call that settles it. -/
def sponsoredSettlement : Call := settleCall sponsoredJob.tx sponsoredJob.frame 0xcc#160 Hegota.block

/-- The deposit before it, and its execution. -/
def sponsoredShown : List Observation :=
  [.called hegotaDeposit (.ok (.returned (encodeWord 0))), .begun sponsoredJob.tx, .authorized (some 0) (.ok 2), .started] ++
    .approved 0xcc#160 1 :: ([.closed true] ++ .called sponsoredSettlement (.ok (.returned [])) :: [.finished 0])

theorem sponsored_run : ∃ history last, Run (dispatcherNetwork Hegota.deployment Hegota.image hosting) hegotaLaunch history last ∧
    history.map Entry.shown = sponsoredShown ∧ last.tx = none := by
  have written (data : Bytes) : Hegota.block.publishes data = true := rfl
  have active : hegotaLaunch.Active := fun p tx => by cases tx
  have stranger : (0xbb#160 : Address) ≠ 0xcc#160 := by decide
  have deposits : Step (dispatcherNetwork Hegota.deployment Hegota.image hosting) hegotaLaunch
      (.called hegotaDeposit (.ok (.returned (encodeWord 0)))) ⟨hegotaChain, [], none⟩ :=
    step_of_deposit active stranger (by decide) hegota_depositable written ⟨by decide, fun _ => by decide⟩
  have small (a : Address) : hegotaChain.eth a < 2 ^ 256 := small_of_run (Run.start.step deposits) (fun _ => by decide) a
  have credits : CreditsFit Hegota.deployment hegotaChain.pool Hegota.transfer 0xcc#160 := ⟨fun _ => by decide, by decide⟩
  obtain ⟨history, last, executed, shown, done⟩ := settles_of_spends sponsoredJob_spends small hegota_room credits (Nat.zero_le _) written
  refine ⟨_, last, run_append (Run.start.step deposits) executed, ?_, by rw [done.idle]⟩
  rw [List.map_append, shown, script, if_neg (by decide)]
  rfl

theorem regular_of_returned {c : Call} {reply : Reply} (written : ∀ data, c.publishes data = true) :
    Regular (.called c (.ok reply)) ∧ Roomy (.called c (.ok reply)) := by
  refine ⟨⟨nofun, fun c' result called _ => ?_, nofun⟩, nofun⟩
  cases called
  exact written

theorem regular_of_other {shown : Observation} (gas : shown ≠ .exhausted) (other : ∀ c result, shown ≠ .called c result) :
    Regular shown ∧ Roomy shown :=
  ⟨⟨gas, fun c result called => absurd called (other c result), fun c called => absurd called (other c _)⟩,
    fun c called => absurd called (other c _)⟩

theorem sponsored_regular {o : Observation} (member : o ∈ sponsoredShown) : Regular o ∧ Roomy o := by
  simp only [sponsoredShown, List.cons_append, List.nil_append, List.mem_cons, List.not_mem_nil, or_false] at member
  rcases member with rfl | rfl | rfl | rfl | rfl | rfl | rfl | rfl
  · exact regular_of_returned fun _ => rfl
  · exact regular_of_other Observation.noConfusion fun _ _ => Observation.noConfusion
  · exact regular_of_other Observation.noConfusion fun _ _ => Observation.noConfusion
  · exact regular_of_other Observation.noConfusion fun _ _ => Observation.noConfusion
  · exact regular_of_other Observation.noConfusion fun _ _ => Observation.noConfusion
  · exact regular_of_other Observation.noConfusion fun _ _ => Observation.noConfusion
  · exact regular_of_returned fun _ => rfl
  · exact regular_of_other Observation.noConfusion fun _ _ => Observation.noConfusion

/-- The paymaster pays for the recorded transfer, and is credited the fee. -/
theorem paymaster_never_drained_sponsored :
    ∃ before reached middle settled rest last, Run (dispatcherNetwork Hegota.deployment Hegota.image hosting) hegotaLaunch
        (before ++ ⟨.approved 0xcc#160 1, reached⟩ :: (middle ++ ⟨.called sponsoredSettlement (.ok (.returned [])), settled⟩ :: rest)) last ∧
      (∃ q f sp, q.target = 0xcc#160 ∧ Sponsors Hegota.deployment sponsoredJob.tx q f sp ∧
        (settled.chain.pool.feeCredit 0xcc#160).toNat = (reached.chain.pool.feeCredit 0xcc#160).toNat + sp.fee.toNat) ∧
      wealth 0xcc#160 hegotaLaunch.chain ≤ wealth 0xcc#160 last.chain ∧
      ∀ (c : Call) (o : Opcodes), c.data = [] →
        ShieldedPool.Paymaster.run
          (ShieldedPool.Paymaster.environment Hegota.deployment 0xcc#160 (Paymaster.imageFor Hegota.deployment []) c) o = .ok none := by
  obtain ⟨history, last, run, shown, ended⟩ := sponsored_run
  have regular (e : Entry State) (member : e ∈ history) : Regular e.shown ∧ Roomy e.shown :=
    sponsored_regular (shown ▸ List.mem_map_of_mem member)
  obtain ⟨refuses, pays, keeps⟩ := paymaster_never_drained hosts_hosting run
  have richer := keeps _ _ _ .start run rfl rfl ended (fun e member => (regular e member).1) fun e member => (regular e member).2
  obtain ⟨before, later, rfl, first, paying⟩ := List.map_eq_append_iff.mp shown
  obtain ⟨⟨_, reached⟩, after, rfl, rfl, following⟩ := List.map_eq_cons_iff.mp paying
  obtain ⟨middle, tail, rfl, closed, settling⟩ := List.map_eq_append_iff.mp following
  obtain ⟨⟨_, settled⟩, rest, rfl, rfl, -⟩ := List.map_eq_cons_iff.mp settling
  obtain ⟨tx, during, q, f, sp, since, -, target, sponsors, credited⟩ := pays before 1 reached _ rfl
  obtain ⟨earlier, opened, split⟩ := since.begun
  obtain rfl : tx = sponsoredJob.tx := by
    have begun : .begun tx ∈ before.map Entry.shown := List.mem_map.mpr ⟨_, split ▸ List.mem_append_right _ List.mem_cons_self, rfl⟩
    rw [first] at begun
    simpa using begun
  refine ⟨before, reached, middle, settled, rest, last, run, ⟨q, f, sp, target, sponsors, ?_⟩, richer, refuses⟩
  refine (credited middle _ _ settled rest rfl (fun e member => ?_) (regular_of_returned fun _ => rfl).1).resolve_left nofun
  have listed : e.shown ∈ middle.map Entry.shown := List.mem_map_of_mem member
  rw [closed, List.mem_singleton] at listed
  rw [listed]
  exact id

end ShieldedPool.Proofs
