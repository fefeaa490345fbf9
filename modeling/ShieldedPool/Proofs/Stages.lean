import ShieldedPool.Proofs.Runs
import ShieldedPool.Proofs.Settle

/-! One of the pool's own transactions on its way through its frames. Until frame 0 has
approved, nothing of it can be paid or sent; from then on its frames leave no choice. -/

namespace ShieldedPool.Proofs
open Evm

variable {σ : Type} {net : Network σ} {d : Deployment} {l l' : Ledger σ} {shown : Observation} {p : Progress σ}

/-- A pool that runs the specified frame-0 code, and whose settlement takes calls from the pool
alone and pays nobody. -/
structure FrameZero (d : Deployment) (net : Network σ) : Prop where
  self : net.self = d.self
  source : net.sourceId = d.sourceId
  grants : ∀ {c o s scope}, net.code.authorize c o s = .ok scope → Granted d o scope
  pinned : ∀ {c : Call} {s t reply}, Selects c .transfer ∨ Selects c .withdraw → net.code.call c s = .ok (reply, t) →
    c.caller = d.self
  quiet : ∀ {c : Call} {s t who amount}, Selects c .transfer ∨ Selects c .withdraw → net.code.call c s ≠ .ok (.payout who amount, t)

/-- Who pays for an approved transaction: the pool, or an account whose code has approved it. -/
inductive PaidBy (d : Deployment) (approves : Address → Opcodes → Bytes → Word → Prop) (tx : FrameTx) : Word → Address → Prop
  | pool : PaidBy d approves tx 3 d.self
  | sponsor {q : Frame} (frame : tx.frames[1]? = some q) (other : q.target ≠ d.self)
      (approval : approves q.target (tx.opcodes 1 none) q.data 1) : PaidBy d approves tx 2 q.target

section
variable (d : Deployment) (approves : Address → Opcodes → Bytes → Word → Prop)

/-- How far an approved transaction has come. -/
inductive Position (chain : Chain σ) (p : Progress σ) (scope : Word) : Prop
  | verified (sponsored : scope = 2) (index : p.index = 1) (unpaid : chain.payer = none)
      (undo : ∀ u, p.start = some u → u.approved = true ∧ u.payer = none)
  | paying {w} (sponsored : scope = 2) (index : p.index = 1) (started : p.start ≠ none) (paid : chain.payer = some w)
      (payer : PaidBy d approves p.tx scope w)
  | due {w} (index : p.index = lastIndex p.tx) (closed : p.start = none) (paid : chain.payer = some w)
      (payer : PaidBy d approves p.tx scope w)
  | complete {w} (index : p.index = p.tx.frames.length) (closed : p.start = none) (paid : chain.payer = some w)
      (payer : PaidBy d approves p.tx scope w)

/-- Where one of the pool's own transactions stands. -/
inductive Stage (l : Ledger σ) (p : Progress σ) : Prop
  | opened (clear : ∀ ch, Kept l ch → ch.approved = false ∧ ch.payer = none)
  | approved {scope f sp} (approved : Approved d p.tx scope f sp) (stack : l.stack = []) (flag : l.chain.approved = true)
      (position : Position d approves l.chain p scope)

end

/-- The steps that are left to an approved transaction. -/
inductive Advance (d : Deployment) (net : Network σ) (chain : Chain σ) (p : Progress σ) (scope : Word) (f : Frame) :
    Observation → Ledger σ → Prop
  | rewarded {dst amount} (room : chain.eth dst + amount < 2 ^ 256) :
      Advance d net chain p scope f .quiet
        ⟨{ chain with eth := Function.update chain.eth dst (chain.eth dst + amount) }, [], some p⟩
  | started (sponsored : scope = 2) (index : p.index = 1) (unpaid : chain.payer = none) :
      Advance d net chain p scope f .started ⟨chain, [], some { p with start := some chain }⟩
  | paid {q undo ch} (sponsored : scope = 2) (index : p.index = 1) (running : p.Running q undo) (target : q.target ≠ net.self)
      (approves : net.approves q.target (Ledger.opcodes ⟨chain, [], some p⟩) q.data 1)
      (effect : chain.approvePayment net.self p.tx q.target = some ch) :
      Advance d net chain p scope f (.approved q.target 1) ⟨ch, [], some p⟩
  | closed {w} (sponsored : scope = 2) (index : p.index = 1) (paid : chain.payer = some w) (payer : PaidBy d net.approves p.tx scope w) :
      Advance d net chain p scope f (.closed true) ⟨chain, [], some p.next⟩
  | settled {b w result ch} (index : p.index = lastIndex p.tx) (paid : chain.payer = some w) (payer : PaidBy d net.approves p.tx scope w)
      (called : Called net (Ledger.opcodes ⟨chain, [], some p⟩) true chain
        (Ledger.call ⟨chain, [], some p⟩ (net.callerOf p.tx f) f.value f.data b) result ch []) :
      Advance d net chain p scope f
        (.called (Ledger.call ⟨chain, [], some p⟩ (net.callerOf p.tx f) f.value f.data b) result) ⟨ch, [], some p.next⟩
  | exhausted {w} (index : p.index = lastIndex p.tx) (paid : chain.payer = some w) (payer : PaidBy d net.approves p.tx scope w) :
      Advance d net chain p scope f .exhausted ⟨chain, [], some p.next⟩
  | aborted : Advance d net chain p scope f .aborted ⟨p.before, [], none⟩
  | finished {w refund} (complete : p.index = p.tx.frames.length) (paid : chain.payer = some w) (payer : PaidBy d net.approves p.tx scope w)
      (bound : refund ≤ p.tx.maxCost.toNat) (room : chain.eth w + refund < 2 ^ 256) :
      Advance d net chain p scope f (.finished refund)
        ⟨{ chain with eth := Function.update chain.eth w (chain.eth w + refund), approved := false, payer := none }, [], none⟩

section Frames
variable {tx : FrameTx} {scope : Word} {f : Frame} {sp : Spend}

theorem lastIndex_of_shape (shape : Shape d tx f sp scope) :
    scope = 3 ∧ lastIndex tx = 1 ∧ tx.frames.length = 2 ∨ scope = 2 ∧ lastIndex tx = 2 ∧ tx.frames.length = 3 := by
  rcases shape with ⟨-, frames, -⟩ | ⟨-, -, frames⟩
  · exact .inl ⟨rfl, by rw [lastIndex, frames]; rfl, by rw [frames]; rfl⟩
  · exact .inr ⟨rfl, by rw [lastIndex, frames]; rfl, by rw [frames]; rfl⟩

/-- The middle frame only verifies. -/
theorem middle_of_approved (approved : Approved d tx scope f sp) (sponsored : scope = 2) {g : Frame} (frame : tx.frames[1]? = some g) :
    g.mode = .verify := by
  rcases approved.shape with ⟨-, -, -⟩ | ⟨-, pay, frames⟩
  · exact absurd sponsored (by decide)
  · rw [frames] at frame
    obtain rfl := Option.some.inj frame
    exact pay.mode

theorem data_of_approved (approved : Approved d tx scope f sp) : f.data ≠ [] := by
  intro empty
  rcases approved.call with ⟨size, -⟩ | ⟨size, -⟩ <;> rw [empty] at size <;> simp at size

theorem selects_of_approved (approved : Approved d tx scope f sp) {c : Call} (data : c.data = f.data) :
    Selects c .transfer ∨ Selects c .withdraw := by
  rcases approved.call with ⟨size, selector, -⟩ | ⟨size, selector, -⟩
  · exact .inl ⟨by rw [data, size]; decide, by rw [data, selector]⟩
  · exact .inr ⟨by rw [data, size]; decide, by rw [data, selector]⟩

end Frames

theorem Position.index_pos {scope : Word} {f : Frame} {sp : Spend} {chain : Chain σ} (approved : Approved d p.tx scope f sp)
    (position : Position d net.approves chain p scope) : 0 < p.index := by
  rcases lastIndex_of_shape approved.shape with ⟨-, last, length⟩ | ⟨-, last, length⟩ <;>
    rcases position with ⟨-, index, -, -⟩ | ⟨-, index, -, -, -⟩ | ⟨index, -, -, -⟩ | ⟨index, -, -, -⟩ <;> omega

/-- The frame that comes next in an approved transaction. -/
theorem Position.frame {scope : Word} {f : Frame} {sp : Spend} {chain : Chain σ} (approved : Approved d p.tx scope f sp)
    (position : Position d net.approves chain p scope) {g : Frame} (frame : p.frame = some g) :
    scope = 2 ∧ p.index = 1 ∧ g.mode = .verify ∨
      p.index = lastIndex p.tx ∧ p.start = none ∧ g = f ∧ ∃ w, chain.payer = some w ∧ PaidBy d net.approves p.tx scope w := by
  rcases position with ⟨sponsored, index, -, -⟩ | ⟨sponsored, index, -, -, -⟩ | ⟨index, closed, paid, payer⟩ | ⟨index, -, -, -⟩
  · exact .inl ⟨sponsored, index, middle_of_approved approved sponsored (index ▸ frame)⟩
  · exact .inl ⟨sponsored, index, middle_of_approved approved sponsored (index ▸ frame)⟩
  · rw [Progress.frame, index, getLast_of_approved approved] at frame
    exact .inr ⟨index, closed, (Option.some.inj frame).symm, _, paid, payer⟩
  · rw [Progress.frame, index, List.getElem?_eq_none (le_refl _)] at frame
    cases frame

/-- No other code can change anything while an approved transaction is under way. -/
theorem not_active_of_approved {scope : Word} {f : Frame} {sp : Spend} (tx : l.tx = some p) (approved : Approved d p.tx scope f sp)
    (position : Position d net.approves l.chain p scope) : ¬ l.Active := by
  intro active
  obtain ⟨g, undo, ⟨started, frame⟩, mode⟩ := active p tx
  rcases position.frame approved frame with ⟨-, -, verify⟩ | ⟨-, closed, -⟩
  · exact mode verify
  · rw [closed] at started
    cases started

theorem approve_clear {self who : Address} {tx : FrameTx} {scope : Word} {chain ch : Chain σ} (clear : chain.approved = false)
    (other : who ≠ tx.sender) : chain.approve self tx who scope ≠ some ch := by
  have execution : chain.approveExecution tx who = none := if_neg fun both => other both.1
  have payment : chain.approvePayment self tx who = none := if_neg fun all => by simp [clear] at all
  rw [Chain.approve, execution, payment]
  split_ifs <;> exact nofun

/-- Nothing but frame 0 can approve for the pool. -/
theorem opened_of_step (own : p.tx.sender = net.self) (tx : l.tx = some p)
    (clear : ∀ ch, Kept l ch → ch.approved = false ∧ ch.payer = none) (silent : ∀ frame scope, shown ≠ .authorized frame (.ok scope))
    (step : Step net l shown l') (lasts : l'.tx ≠ none) {ch : Chain σ} (kept : Kept l' ch) : ch.approved = false ∧ ch.payer = none := by
  have current := clear _ .current
  rcases kept_of_step step kept with old | change | ⟨ended, -⟩
  · exact clear ch old
  · cases change with
    | called caller called => cases called <;> exact current
    | moved => exact current
    | rewarded => exact current
    | begun => exact ⟨rfl, rfl⟩
    | approved same inside effect authority =>
      obtain rfl := Option.some.inj (tx.symm.trans same)
      rcases authority with ⟨other, -⟩ | ⟨-, frame, -, authorized, -⟩
      · exact absurd effect (approve_clear current.1 (own ▸ other))
      · exact absurd authorized (silent _ _)
    | sent same due mode permitted =>
      rw [current.1] at permitted
      cases permitted
    | refunded => exact ⟨rfl, rfl⟩
  · exact absurd ended lasts

/-- What APPROVE by frame 0 leaves. -/
theorem position_of_authorize {scope : Word} {f : Frame} {sp : Spend} {chain ch : Chain σ} (self : net.self = d.self)
    (approved : Approved d p.tx scope f sp) (index : p.index = 0) (unpaid : chain.payer = none)
    (effect : chain.approve net.self p.tx net.self scope = some ch) : ch.approved = true ∧ Position d net.approves ch p.next scope := by
  rw [Chain.approve] at effect
  rcases lastIndex_of_shape approved.shape with ⟨rfl, last, length⟩ | ⟨rfl, last, length⟩
  · rw [if_neg (by decide), if_neg (by decide), if_pos rfl] at effect
    obtain ⟨executed, first, second⟩ := Option.bind_eq_some_iff.mp effect
    rw [Chain.approveExecution, Option.ite_none_right_eq_some] at first
    rw [Chain.approvePayment, Option.ite_none_right_eq_some] at second
    cases second.2
    exact ⟨second.1.1, .due (by rw [Progress.next, index]; exact last.symm) rfl rfl (self ▸ .pool)⟩
  · rw [if_neg (by decide), if_pos rfl, Chain.approveExecution, Option.ite_none_right_eq_some] at effect
    cases effect.2
    exact ⟨rfl, .verified rfl (by rw [Progress.next, index]) unpaid nofun⟩

/-- The middle frame can only have somebody else pay. -/
theorem payment_of_approve {w : Word} {who : Address} {chain ch : Chain σ} (stranger : who ≠ p.tx.sender)
    (effect : chain.approve net.self p.tx who w = some ch) : w = 1 ∧ chain.approvePayment net.self p.tx who = some ch := by
  have execution : chain.approveExecution p.tx who = none := if_neg fun both => stranger both.1
  rw [Chain.approve, execution] at effect
  by_cases payment : w = 1
  · rw [if_pos payment] at effect
    exact ⟨payment, effect⟩
  · rw [if_neg payment] at effect
    split_ifs at effect
    cases effect

theorem fields_of_payment {self who : Address} {tx : FrameTx} {chain ch : Chain σ}
    (effect : chain.approvePayment self tx who = some ch) :
    (chain.approved = true ∧ chain.payer = none ∧ tx.maxCost.toNat ≤ chain.eth who ∧ chain.KeysFresh self tx) ∧
      ch = { chain with
        payer := some who
        eth := Function.update chain.eth who (chain.eth who - tx.maxCost.toNat)
        paid := if tx.sender = self then chain.paid ++ [tx] else chain.paid } := by
  rw [Chain.approvePayment, Option.ite_none_right_eq_some] at effect
  exact ⟨effect.1, (Option.some.inj effect.2).symm⟩

/-- The chain after a payment. -/
def paidChain (self who : Address) (tx : FrameTx) (chain : Chain σ) : Chain σ :=
  { chain with
    approved := true
    payer := some who
    eth := Function.update chain.eth who (chain.eth who - tx.maxCost.toNat)
    paid := if tx.sender = self then chain.paid ++ [tx] else chain.paid }

/-- APPROVE only lets the sender act, or has `who` pay as well. -/
theorem fields_of_approve {self who : Address} {tx : FrameTx} {scope : Word} {chain ch : Chain σ}
    (effect : chain.approve self tx who scope = some ch) :
    ch = { chain with approved := true } ∨
      chain.payer = none ∧ tx.maxCost.toNat ≤ chain.eth who ∧ chain.KeysFresh self tx ∧ ch = paidChain self who tx chain := by
  rw [Chain.approve] at effect
  split_ifs at effect
  · obtain ⟨⟨flag, unpaid, funds, fresh⟩, rfl⟩ := fields_of_payment effect
    exact .inr ⟨unpaid, funds, fresh, by rw [paidChain, ← flag]⟩
  · rw [Chain.approveExecution, Option.ite_none_right_eq_some] at effect
    exact .inl (Option.some.inj effect.2).symm
  · obtain ⟨executed, first, second⟩ := Option.bind_eq_some_iff.mp effect
    rw [Chain.approveExecution, Option.ite_none_right_eq_some] at first
    cases first.2
    obtain ⟨⟨-, unpaid, funds, fresh⟩, rfl⟩ := fields_of_payment second
    exact .inr ⟨unpaid, funds, fresh, rfl⟩

section Approved
variable {scope : Word} {f : Frame} {sp : Spend} {chain : Chain σ}

/-- A call of the pool in the frame that settles ends at once. -/
theorem called_of_approved {ch : Chain σ} {o : Opcodes} {outermost : Bool} {c : Call}
    {result : Except Bytes Reply} {pending : List (Pending σ)} (zero : FrameZero d net) (approved : Approved d p.tx scope f sp)
    (data : c.data = f.data) (called : Called net o outermost chain c result ch pending) :
    pending = [] ∧ ch.approved = chain.approved ∧ ch.payer = chain.payer := by
  have quiet {s : σ} {t who amount} := @FrameZero.quiet σ d net zero _ s t who amount (selects_of_approved approved data)
  cases called with
  | returned => exact ⟨rfl, rfl, rfl⟩
  | paying funds ran => exact absurd ran quiet
  | unpaid funds ran => exact absurd ran quiet
  | reverted => exact ⟨rfl, rfl, rfl⟩

/-- Where the middle frame stands. -/
theorem Position.middle (approved : Approved d p.tx scope f sp) (position : Position d net.approves chain p scope) (sponsored : scope = 2)
    (index : p.index = 1) :
    chain.payer = none ∧ (∀ u, p.start = some u → u.approved = true ∧ u.payer = none) ∨
      p.start ≠ none ∧ ∃ w, chain.payer = some w ∧ PaidBy d net.approves p.tx scope w := by
  rcases lastIndex_of_shape approved.shape with ⟨rfl, -⟩ | ⟨-, last, length⟩
  · exact absurd sponsored (by decide)
  rcases position with ⟨-, -, unpaid, undo⟩ | ⟨-, -, started, paid, payer⟩ | ⟨place, -⟩ | ⟨place, -⟩
  · exact .inl ⟨unpaid, undo⟩
  · exact .inr ⟨started, _, paid, payer⟩
  · omega
  · omega

theorem advance_of_step (zero : FrameZero d net) (approved : Approved d p.tx scope f sp) (flag : chain.approved = true)
    (position : Position d net.approves chain p scope) (step : Step net ⟨chain, [], some p⟩ shown l') : Advance d net chain p scope f shown l' := by
  have still : ¬ Ledger.Active ⟨chain, [], some p⟩ := not_active_of_approved rfl approved position
  cases step with
  | call active => exact absurd active still
  | touch active => exact absurd active still
  | enter active => exact absurd active still
  | move active => exact absurd active still
  | accept top | refuse top | leave top | undo top => cases top
  | reward room => exact .rewarded room
  | authorize due target empty verify ran effect =>
    obtain ⟨index, -⟩ := approved_of_granted (inside_of_frame due.2) (zero.grants ran)
    exact absurd (position.index_pos approved) (by omega)
  | unauthorized due target empty mode =>
    rcases position.frame approved due.2 with ⟨-, -, verify⟩ | ⟨-, -, rfl, -⟩
    · exact absurd verify mode
    · exact absurd empty (data_of_approved approved)
  | frameCall due target nonempty mode permitted called =>
    rcases position.frame approved due.2 with ⟨-, -, verify⟩ | ⟨index, -, rfl, w, paid, payer⟩
    · exact absurd verify mode
    · obtain ⟨rfl, -⟩ := called_of_approved zero approved rfl called
      exact .settled index paid payer called
  | frameExhausted due target nonempty mode =>
    rcases position.frame approved due.2 with ⟨-, -, verify⟩ | ⟨index, -, -, w, paid, payer⟩
    · exact absurd verify mode
    · exact .exhausted index paid payer
  | @frameStart _ _ g due target =>
    rcases position.frame approved due.2 with ⟨sponsored, index, verify⟩ | ⟨-, -, rfl, -⟩
    · rw [if_neg (by rw [verify]; exact nofun)]
      rcases position.middle approved sponsored index with ⟨unpaid, -⟩ | ⟨started, -⟩
      · exact .started sponsored index unpaid
      · exact absurd due.1 started
    · exact absurd (approved.target.trans zero.self.symm) target
  | approve current running target approves effect =>
    cases current
    rcases position.frame approved running.2 with ⟨sponsored, index, -⟩ | ⟨-, closed, -⟩
    · have stranger := target
      rw [zero.self, ← approved.sender] at stranger
      obtain ⟨rfl, payment⟩ := payment_of_approve stranger effect
      exact .paid sponsored index running target approves payment
    · exact absurd (running.1.symm.trans closed) nofun
  | frameEnd running target verified =>
    rcases position.frame approved running.2 with ⟨sponsored, index, verify⟩ | ⟨-, closed, -⟩
    · rcases position.middle approved sponsored index with ⟨unpaid, undo⟩ | ⟨-, w, paid, payer⟩
      · obtain ⟨flag', unpaid'⟩ := undo _ running.1
        exact absurd (by rw [flag, flag', unpaid, unpaid']) (verified verify)
      · exact .closed sponsored index paid payer
    · exact absurd (running.1.symm.trans closed) nofun
  | frameRevert running target mode =>
    rcases position.frame approved running.2 with ⟨-, -, verify⟩ | ⟨-, closed, -⟩
    · exact absurd verify mode
    · exact absurd (running.1.symm.trans closed) nofun
  | abort => exact .aborted
  | finish complete closed paid bound room =>
    rcases position with ⟨-, -, unpaid, -⟩ | ⟨-, -, -, paid', payer⟩ | ⟨-, -, paid', payer⟩ | ⟨-, -, paid', payer⟩
    · exact absurd (paid.symm.trans unpaid) nofun
    all_goals
      obtain rfl := Option.some.inj (paid'.symm.trans paid)
      exact .finished complete paid payer bound room

end Approved

/-- One step keeps an approved transaction on its way. -/
theorem stage_of_advance {scope : Word} {f : Frame} {sp : Spend} {chain : Chain σ} (zero : FrameZero d net)
    (approved : Approved d p.tx scope f sp) (flag : chain.approved = true) (position : Position d net.approves chain p scope)
    (advance : Advance d net chain p scope f shown l') {p' : Progress σ} (after : l'.tx = some p') : Stage d net.approves l' p' := by
  have ended (index : p.index = lastIndex p.tx) : p.next.index = p.next.tx.frames.length := by
    change p.index + 1 = p.tx.frames.length
    rcases lastIndex_of_shape approved.shape with ⟨-, last, length⟩ | ⟨-, last, length⟩ <;> omega
  cases advance with
  | rewarded =>
    cases after
    refine .approved approved rfl flag ?_
    rcases position with ⟨sponsored, index, unpaid, undo⟩ | ⟨sponsored, index, started, paid, payer⟩ | ⟨index, closed, paid, payer⟩ |
      ⟨index, closed, paid, payer⟩
    · exact .verified sponsored index unpaid undo
    · exact .paying sponsored index started paid payer
    · exact .due index closed paid payer
    · exact .complete index closed paid payer
  | started sponsored index unpaid =>
    cases after
    refine .approved approved rfl flag (.verified sponsored index unpaid fun u started => ?_)
    cases started
    exact ⟨flag, unpaid⟩
  | paid sponsored index running target approves effect =>
    cases after
    obtain ⟨⟨-, unpaid, -⟩, rfl⟩ := fields_of_payment effect
    have frame := running.2
    rw [Progress.frame, index] at frame
    rw [zero.self] at target
    refine .approved approved rfl flag (.paying sponsored index (by rw [running.1]; exact nofun) rfl ?_)
    subst sponsored
    rw [Ledger.opcodes] at approves
    simp only [index, unpaid] at approves
    exact .sponsor frame target approves
  | closed sponsored index paid payer =>
    cases after
    refine .approved approved rfl flag (.due ?_ rfl paid payer)
    rcases lastIndex_of_shape approved.shape with ⟨rfl, -⟩ | ⟨-, two, -⟩
    · exact absurd sponsored (by decide)
    · change p.index + 1 = _
      rw [index]
      exact two.symm
  | settled index paid payer called =>
    cases after
    obtain ⟨-, kept, same⟩ := called_of_approved zero approved rfl called
    exact .approved approved rfl (kept.trans flag) (.complete (ended index) rfl (same.trans paid) payer)
  | exhausted index paid payer =>
    cases after
    exact .approved approved rfl flag (.complete (ended index) rfl paid payer)
  | aborted | finished => cases after

/-- One step keeps one of the pool's own transactions at a stage. -/
theorem stage_of_step (zero : FrameZero d net) (own : p.tx.sender = net.self) (tx : l.tx = some p) (stage : Stage d net.approves l p)
    (step : Step net l shown l') {p' : Progress σ} (after : l'.tx = some p') : Stage d net.approves l' p' := by
  rcases stage with clear | ⟨approved, stack, flag, position⟩
  · by_cases silent : ∀ frame scope, shown ≠ .authorized frame (.ok scope)
    · exact .opened fun ch => opened_of_step own tx clear silent step (by rw [after]; exact nofun)
    push Not at silent
    obtain ⟨frame, scope, rfl⟩ := silent
    cases step with
    | authorize due target empty verify ran effect =>
      cases tx
      cases after
      obtain ⟨index, f, sp, approved⟩ := approved_of_granted (inside_of_frame due.2) (zero.grants ran)
      have clear := clear _ .current
      obtain ⟨flag, position⟩ := position_of_authorize zero.self approved index clear.2 effect
      exact .approved approved rfl flag position
  · obtain ⟨chain, _, _⟩ := l
    cases stack
    cases tx
    exact stage_of_advance zero approved flag position (advance_of_step zero approved flag position step) after

/-- Each of the pool's own transactions is at a stage. -/
def Staged (d : Deployment) (net : Network σ) (l : Ledger σ) : Prop := ∀ p, l.tx = some p → p.tx.sender = net.self → Stage d net.approves l p

theorem staged_of_step (zero : FrameZero d net) (staged : Staged d net l) (step : Step net l shown l') : Staged d net l' := by
  intro p' after own
  rcases before_of_step step after with ⟨p, tx, same, -⟩ | ⟨chain, rfl, -, -, rfl, -⟩
  · exact stage_of_step zero (same ▸ own) tx (staged p tx (same ▸ own)) step after
  · refine .opened fun ch kept => ?_
    cases kept with
    | current => exact ⟨rfl, rfl⟩
    | undo member => cases member
    | start tx started =>
      cases tx
      cases started

/-- Own transactions with approved execution have been approved by frame 0. -/
theorem approved_of_staged {chain : Chain σ} {stack : List (Pending σ)} (staged : Staged d net ⟨chain, stack, some p⟩)
    (own : p.tx.sender = net.self) (flag : chain.approved = true) :
    ∃ scope f sp, Approved d p.tx scope f sp ∧ stack = [] ∧ Position d net.approves chain p scope := by
  rcases staged p rfl own with clear | ⟨approved, stack, -, position⟩
  · exact absurd ((clear _ .current).1.symm.trans flag) nofun
  · exact ⟨_, _, _, approved, stack, position⟩

/-- Once it is paid for, a transaction keeps its payer, and the pool its state until it settles. -/
theorem paid_of_run {chain : Chain σ} {w : Address} {history : List (Entry σ)} (zero : FrameZero d net)
    (staged : Staged d net ⟨chain, [], some p⟩) (own : p.tx.sender = net.self) (flag : chain.approved = true)
    (paid : chain.payer = some w) (run : Run net ⟨chain, [], some p⟩ history l) (lasts : ∀ e ∈ history, ¬ e.shown.Ends) :
    Staged d net l ∧ ∃ ch q, l = ⟨ch, [], some q⟩ ∧ q.tx = p.tx ∧ ch.approved = true ∧ ch.payer = some w ∧
      (q.index < q.tx.frames.length → ch.pool = chain.pool) := by
  induction run with
  | start => exact ⟨staged, chain, p, rfl, rfl, flag, paid, fun _ => rfl⟩
  | @step history l shown l' run step ih =>
    obtain ⟨staged, ch, q, rfl, same, flag, paid, pool⟩ := ih fun e member => lasts e (List.mem_append_left _ member)
    have lasting : ¬ shown.Ends := lasts ⟨shown, l'⟩ (List.mem_append_right _ (List.mem_singleton_self _))
    refine ⟨staged_of_step zero staged step, ?_⟩
    obtain ⟨scope, f, sp, approved, -, position⟩ := approved_of_staged staged (same ▸ own) flag
    have place := lastIndex_of_shape approved.shape
    cases advance_of_step zero approved flag position step with
    | rewarded => exact ⟨_, q, rfl, same, flag, paid, pool⟩
    | started sponsored index unpaid => exact absurd (paid.symm.trans unpaid) nofun
    | paid sponsored index running target approves effect =>
      exact absurd (paid.symm.trans (fields_of_payment effect).1.2.1) nofun
    | closed sponsored index => exact ⟨ch, q.next, rfl, same, flag, paid, fun inside => pool (Nat.lt_of_succ_lt inside)⟩
    | settled index _ payer called =>
      obtain ⟨-, kept, sameP⟩ := called_of_approved zero approved rfl called
      refine ⟨_, q.next, rfl, same, kept.trans flag, sameP.trans paid, fun inside => ?_⟩
      change q.index + 1 < q.tx.frames.length at inside
      omega
    | exhausted index =>
      refine ⟨ch, q.next, rfl, same, flag, paid, fun inside => ?_⟩
      change q.index + 1 < q.tx.frames.length at inside
      omega
    | aborted | finished => exact absurd trivial lasting

theorem method_of_selects {c : Call} {m : Method} (settles : Selects c .transfer ∨ Selects c .withdraw) (chosen : Selects c m) :
    m = .transfer ∨ m = .withdraw :=
  settles.imp (fun other => selector_injective (chosen.2.symm.trans other.2)) fun other =>
    selector_injective (chosen.2.symm.trans other.2)

theorem not_payout_of_dispatch {c : Call} {v : Variant} {s t : State} {who : Address} {amount : Word}
    (settles : Selects c .transfer ∨ Selects c .withdraw) : dispatch d v c s ≠ .ok (.payout who amount, t) := by
  intro returned
  obtain ⟨m, chosen, -, -, ran⟩ := (dispatch_ok d c).mp returned
  rcases method_of_selects settles chosen with rfl | rfl
  · obtain ⟨_, _, -, rest⟩ := Exec.bind_eq_ok.mp ran
    cases rest
  · obtain ⟨_, _, -, rest⟩ := Exec.bind_eq_ok.mp ran
    obtain ⟨_, _, -, last⟩ := Exec.bind_eq_ok.mp rest
    cases last

theorem caller_of_dispatch {c : Call} {v : Variant} {s t : State} {reply : Reply}
    (settles : Selects c .transfer ∨ Selects c .withdraw) (returned : dispatch d v c s = .ok (reply, t)) : c.caller = v.poolSender := by
  obtain ⟨m, chosen, -, -, ran⟩ := (dispatch_ok d c).mp returned
  rcases method_of_selects settles chosen with rfl | rfl
  · obtain ⟨_, _, kept, -⟩ := Exec.bind_eq_ok.mp ran
    rw [transfer, throwIf_bind, error_or_ok] at kept
    obtain ⟨_, _, spent, -⟩ := Exec.bind_eq_ok.mp kept.2
    exact ((spend_ok d c v).mp spent).1
  · obtain ⟨_, _, -, rest⟩ := Exec.bind_eq_ok.mp ran
    obtain ⟨_, _, kept, -⟩ := Exec.bind_eq_ok.mp rest
    rw [withdraw, throwIf_bind, throwIf_bind, error_or_ok, error_or_ok] at kept
    obtain ⟨_, _, spent, -⟩ := Exec.bind_eq_ok.mp kept.2.2
    exact ((spend_ok d c v).mp spent).1

theorem dispatcher_frameZero {image : Dispatcher.Image} {outside : Outside d.self} :
    FrameZero d (dispatcherNetwork d image outside) where
  self := rfl
  source := rfl
  grants ran := dispatcher_authorize_ok.mp ran
  pinned settles returned := by
    change Dispatcher.call d image _ _ = _ at returned
    rw [Dispatcher.call_eq] at returned
    exact caller_of_dispatch settles returned
  quiet settles := by
    change Dispatcher.call d image _ _ ≠ _
    rw [Dispatcher.call_eq]
    exact not_payout_of_dispatch settles

end ShieldedPool.Proofs
