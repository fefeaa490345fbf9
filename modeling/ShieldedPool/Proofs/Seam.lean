import ShieldedPool.Proofs.Execution

/-! The seam between frame 0 and settlement. Settlement checks no proof, yet whatever it
settles frame 0 of the same transaction has verified, and it settles at most once. -/

namespace ShieldedPool.Proofs
open Evm

variable {σ : Type} {net : Network σ} {d : Deployment} {l l' : Ledger σ} {shown : Observation} {history : List (Entry σ)}

/-- A settlement that completes. -/
inductive Settles : Observation → Prop
  | call {c reply} (selects : Selects c .transfer ∨ Selects c .withdraw) : Settles (.called c (.ok reply))

/-- The entries of the transaction in progress, from its beginning on. -/
structure Since (history : List (Entry σ)) (tx : FrameTx) (during : List (Entry σ)) : Prop where
  begun : ∃ earlier opened, history = earlier ++ ⟨.begun tx, opened⟩ :: during
  within : ∀ e ∈ during, ¬ e.shown.Ends ∧ ∀ other, e.shown ≠ .begun other

/-- What a settlement that completes says about the ledger it completes on. -/
structure SettledAt (d : Deployment) (l : Ledger σ) (p : Progress σ) (f : Frame) (sp : Spend) (c : Call) : Prop where
  tx : l.tx = some p
  approved : ∃ scope, Approved d p.tx scope f sp
  flag : l.chain.approved = true
  index : p.index = lastIndex p.tx
  data : c.data = f.data

theorem settledAt_of_step (zero : FrameZero d net) (staged : Staged d net l) {c : Call} {reply : Reply}
    (settles : Selects c .transfer ∨ Selects c .withdraw) (step : Step net l (.called c (.ok reply)) l') :
    ∃ p f sp, SettledAt d l p f sp c ∧ l'.tx = some p.next ∧ l'.chain.approved = true := by
  have pinned {s t} := @FrameZero.pinned σ d net zero c s t reply settles
  cases step with
  | call active acts other nonempty called =>
    cases called with
    | returned funds ran => exact absurd ((pinned ran).trans zero.self.symm) other
    | paying funds ran => exact absurd ((pinned ran).trans zero.self.symm) other
  | @frameCall chain chain' p f b result pending due target nonempty mode permitted called =>
    have caller : net.callerOf p.tx f = net.self := by
      rw [zero.self]
      cases called with
      | returned funds ran => exact pinned ran
      | paying funds ran => exact pinned ran
    have sends : f.mode = .sender := by
      by_contra otherwise
      rw [Network.callerOf, if_neg otherwise] at caller
      exact net.apart caller
    rw [Network.callerOf, if_pos sends] at caller
    have flag := permitted sends
    rcases staged p rfl caller with clear | @⟨scope, g, sp, approved, -, -, position⟩
    · exact absurd ((clear _ .current).1.symm.trans flag) nofun
    · rcases position.frame approved due.2 with ⟨-, -, verify⟩ | ⟨index, -, rfl, -⟩
      · exact absurd verify mode
      · obtain ⟨rfl, kept, -⟩ := called_of_approved zero approved rfl called
        exact ⟨p, f, sp, ⟨rfl, ⟨scope, approved⟩, flag, index, rfl⟩, rfl, kept.trans flag⟩

/-- The record of the transaction in progress: once it is approved, frame 0 has approved it,
and once it has settled, all of its frames are over. -/
structure Recorded (net : Network σ) (history : List (Entry σ)) (l : Ledger σ) (p : Progress σ) (during : List (Entry σ)) :
    Prop where
  since : Since history p.tx during
  verified : p.tx.sender = net.self → l.chain.approved = true →
    ∃ scope, ∃ e ∈ during, e.shown = .authorized (some 0) (.ok scope)
  settled : ∀ e ∈ during, Settles e.shown →
    p.tx.sender = net.self ∧ l.chain.approved = true ∧ p.index = p.tx.frames.length

theorem Since.extend {tx : FrameTx} {during : List (Entry σ)} (since : Since history tx during) {e : Entry σ}
    (within : ¬ e.shown.Ends ∧ ∀ other, e.shown ≠ .begun other) : Since (history ++ [e]) tx (during ++ [e]) where
  begun := by
    obtain ⟨earlier, opened, rfl⟩ := since.begun
    exact ⟨earlier, opened, by simp⟩
  within := by
    intro x member
    rcases List.mem_append.mp member with old | new
    · exact since.within x old
    · rw [List.mem_singleton.mp new]
      exact within

/-- A transaction whose frames are over stays there until it ends. -/
theorem stays_over (zero : FrameZero d net) {p p' : Progress σ} (staged : Staged d net l) (own : p.tx.sender = net.self)
    (tx : l.tx = some p) (flag : l.chain.approved = true) (complete : p.index = p.tx.frames.length) (step : Step net l shown l')
    (after : l'.tx = some p') : l'.chain.approved = true ∧ p'.index = p'.tx.frames.length := by
  rcases staged p tx own with clear | ⟨approved, stack, -, position⟩
  · exact absurd ((clear _ .current).1.symm.trans flag) nofun
  obtain ⟨chain, _, _⟩ := l
  cases stack
  cases tx
  have place := lastIndex_of_shape approved.shape
  cases advance_of_step zero approved flag position step with
  | rewarded =>
    cases after
    exact ⟨flag, complete⟩
  | started sponsored index | paid sponsored index | closed sponsored index =>
    rcases place with ⟨rfl, -⟩ | ⟨-, -, length⟩
    · exact absurd sponsored (by decide)
    · omega
  | settled index | exhausted index => omega
  | aborted | finished => cases after

theorem recorded_of_step (zero : FrameZero d net) (staged : Staged d net l) {p p' : Progress σ} {during : List (Entry σ)}
    (tx : l.tx = some p) (recorded : Recorded net history l p during) (step : Step net l shown l') (after : l'.tx = some p') :
    Recorded net (history ++ [⟨shown, l'⟩]) l' p' (during ++ [⟨shown, l'⟩]) := by
  have same : p'.tx = p.tx := by
    rcases before_of_step step after with ⟨q, current, same, -⟩ | ⟨chain, rfl, -⟩
    · cases tx.symm.trans current
      exact same
    · cases tx
  have lasts : ¬ shown.Ends := fun ended => by
    cases step <;> first | exact ended | cases after
  have within := within_of_step step (by rw [tx]; exact nofun) lasts
  refine ⟨?_, fun own flag => ?_, fun e member settles => ?_⟩
  · rw [same]
    exact recorded.since.extend ⟨lasts, within.2⟩
  · rw [same] at own
    by_cases before : l.chain.approved = true
    · obtain ⟨scope, e, member, verified⟩ := recorded.verified own before
      exact ⟨scope, e, List.mem_append_left _ member, verified⟩
    by_cases silent : ∀ frame scope, shown ≠ .authorized frame (.ok scope)
    · rcases staged p tx own with clear | ⟨-, -, approved, -⟩
      · exact absurd ((opened_of_step own tx clear silent step (by rw [after]; exact nofun) .current).1.symm.trans flag) nofun
      · exact absurd approved before
    · push Not at silent
      obtain ⟨frame, scope, rfl⟩ := silent
      cases step with
      | authorize due target empty verify ran effect =>
        cases tx
        obtain ⟨index, -⟩ := approved_of_granted (inside_of_frame due.2) (zero.grants ran)
        exact ⟨scope, _, List.mem_append_right _ (List.mem_singleton_self _), by rw [index]⟩
  · rcases List.mem_append.mp member with old | new
    · obtain ⟨own, flag, complete⟩ := recorded.settled e old settles
      exact ⟨by rw [same]; exact own, stays_over zero staged own tx flag complete step after⟩
    · rw [List.mem_singleton.mp new] at settles
      cases settles with
      | call selects =>
        obtain ⟨q, f, sp, at_, next, flag⟩ := settledAt_of_step zero staged selects step
        cases tx.symm.trans at_.tx
        cases next.symm.trans after
        obtain ⟨scope, approved⟩ := at_.approved
        refine ⟨approved.sender.trans zero.self.symm, flag, ?_⟩
        change p.index + 1 = p.tx.frames.length
        have index := at_.index
        rcases lastIndex_of_shape approved.shape with ⟨-, last, length⟩ | ⟨-, last, length⟩ <;> omega

/-- The transaction in progress is on record throughout a run. -/
theorem recorded_of_run (zero : FrameZero d net) {first : Ledger σ} (idle : first.tx = none) (run : Run net first history l) :
    Staged d net l ∧ ∀ p, l.tx = some p → ∃ during, Recorded net history l p during := by
  induction run with
  | start =>
    have none (p : Progress σ) : first.tx ≠ some p := by rw [idle]; exact nofun
    exact ⟨fun p tx => absurd tx (none p), fun p tx => absurd tx (none p)⟩
  | @step history l shown l' run step ih =>
    obtain ⟨staged, recorded⟩ := ih
    refine ⟨staged_of_step zero staged step, fun p' after => ?_⟩
    cases current : l.tx with
    | some p =>
      obtain ⟨during, recorded⟩ := recorded p current
      exact ⟨_, recorded_of_step zero staged current recorded step after⟩
    | none =>
      rcases before_of_step step after with ⟨p, tx, -⟩ | ⟨chain, rfl, admissible, rfl, rfl, -⟩
      · rw [current] at tx
        cases tx
      · have empty {P : Entry σ → Prop} : ∀ e ∈ [], P e := fun e member => absurd member List.not_mem_nil
        refine ⟨[], ⟨⟨history, _, rfl⟩, empty⟩, fun own flag => ?_, empty⟩
        cases flag

/-- What frame 0 has established of the transaction that settles `sp`. -/
structure Vouched (d : Deployment) (tx : FrameTx) (sp : Spend) : Prop where
  verified : d.verify sp.verifierCall = true
  nonzero : sp.nf1 ≠ 0 ∧ sp.nf2 ≠ 0
  canonical : sp.nf1 < fieldP ∧ sp.nf2 < fieldP
  keys : tx.nonceKeys = [sp.lo, sp.hi]
  nonceSeq : tx.nonceSeq = 0
  root : ∃ slot, tx.refs = [⟨d.sourceId, slot, sp.root⟩]
  domain : sp.domain = d.domain

theorem Approved.vouched {tx : FrameTx} {scope : Word} {f : Frame} {sp : Spend} (approved : Approved d tx scope f sp) :
    Vouched d tx sp where
  verified := approved.proven.verified
  nonzero := ⟨approved.proven.nf1, approved.proven.nf2⟩
  canonical := ⟨approved.proven.valid.canonical.2.1, approved.proven.valid.canonical.2.2.1⟩
  keys := approved.keys
  nonceSeq := approved.nonceSeq
  root := approved.refs
  domain := approved.proven.valid.domain

/-- The transaction in progress goes back beyond the entries that neither begin nor end one. -/
theorem Since.mem {before middle during : List (Entry σ)} {e : Entry σ} {tx : FrameTx}
    (since : Since (before ++ e :: middle) tx during) (other : ∀ tx, e.shown ≠ .begun tx)
    (others : ∀ x ∈ middle, ∀ tx, x.shown ≠ .begun tx) : e ∈ during := by
  obtain ⟨earlier, opened, split⟩ := since.begun
  rcases List.append_eq_append_iff.mp split with ⟨between, rfl, rest⟩ | ⟨between, rfl, rest⟩
  · cases between with
    | nil =>
      cases rest
      exact absurd rfl (other tx)
    | cons first between =>
      cases rest
      exact absurd rfl (others _ (List.mem_append_right between List.mem_cons_self) tx)
  · cases between with
    | nil =>
      cases rest
      exact absurd rfl (other tx)
    | cons first between =>
      cases rest
      simp

/-- A settlement that completes belongs to a transaction whose frame 0 has approved it after the
verifier accepted its tuple, and is the only one to complete in that transaction. -/
theorem settlement_verified_once {image : Dispatcher.Image} {outside : Outside d.self} {eth : Address → Nat}
    {history before after : List (Entry State)} {last reached : Ledger State} {c : Call} {reply : Reply}
    (run : Run (dispatcherNetwork d image outside) (launch eth) history last)
    (split : history = before ++ ⟨.called c (.ok reply), reached⟩ :: after)
    (settles : Selects c .transfer ∨ Selects c .withdraw) :
    ∃ tx during, Since before tx during ∧
      (∃ scope, ∃ e ∈ during, e.shown = .authorized (some 0) (.ok scope)) ∧
      Vouched d tx (Spend.decode c.data 4) ∧ (∀ e ∈ during, ¬ Settles e.shown) ∧
      ∀ middle e rest, after = middle ++ e :: rest → (∀ x ∈ middle, ¬ x.shown.Ends) → ¬ Settles e.shown := by
  have zero := @dispatcher_frameZero d image outside
  have alone {before after : List (Entry State)} {e : Entry State} (split : history = before ++ e :: after) (settles : Settles e.shown) :
      e.reached.tx ≠ none ∧ Run (dispatcherNetwork d image outside) e.reached after last ∧
        ∃ c f sp tx during, (∃ reply, e.shown = .called c (.ok reply)) ∧ c.data = f.data ∧ (∃ scope, Approved d tx scope f sp) ∧
          Since before tx during ∧ (∃ scope, ∃ x ∈ during, x.shown = .authorized (some 0) (.ok scope)) ∧
          ∀ x ∈ during, ¬ Settles x.shown := by
    obtain ⟨m, earlier, step, later⟩ := step_of_run run split
    obtain ⟨staged, recorded⟩ := recorded_of_run zero rfl earlier
    obtain ⟨shown, reached⟩ := e
    cases settles with
    | @call c reply selects =>
      obtain ⟨p, f, sp, at_, next, -⟩ := settledAt_of_step zero staged selects step
      obtain ⟨during, recorded⟩ := recorded p at_.tx
      obtain ⟨scope, approved⟩ := at_.approved
      refine ⟨by rw [next]; exact nofun, later, c, f, sp, p.tx, during, ⟨reply, rfl⟩, at_.data, ⟨scope, approved⟩, recorded.since,
        recorded.verified (approved.sender.trans zero.self.symm) at_.flag, fun x member again => ?_⟩
      obtain ⟨-, -, complete⟩ := recorded.settled x member again
      have index := at_.index
      rcases lastIndex_of_shape approved.shape with ⟨-, last, length⟩ | ⟨-, last, length⟩ <;> omega
  obtain ⟨open_, later, c', f, sp, tx, during, ⟨reply', same⟩, data, ⟨scope, approved⟩, since, verified, none⟩ := alone split (.call settles)
  cases same
  refine ⟨tx, during, since, verified, ?_, none, fun middle e rest tail lasting again => ?_⟩
  · rw [data, ← approved.spend]
    exact approved.vouched
  · have resplit : history = (before ++ ⟨.called c (.ok reply), reached⟩ :: middle) ++ e :: rest := by
      rw [split, tail, List.append_assoc, List.cons_append]
    obtain ⟨-, -, -, -, -, tx', during', -, -, -, since', -, none'⟩ := alone resplit again
    obtain ⟨m, middleRun, -, -⟩ := step_of_run later tail
    have others := (within_of_run middleRun open_ lasting).2
    exact none' _ (since'.mem nofun others) (.call settles)

/-- The recorded transfer: its settlement is the fourth step of the run. -/
theorem settlement_verified_once_hegota :
    ∃ history before after last reached, Run (dispatcherNetwork Hegota.deployment Hegota.image Hegota.outside) hegotaLaunch history last ∧
      history = before ++ ⟨.called hegotaSettlement (.ok (.returned [])), reached⟩ :: after ∧
      ∃ tx during, Since before tx during ∧
        (∃ scope, ∃ e ∈ during, e.shown = .authorized (some 0) (.ok scope)) ∧
        Vouched Hegota.deployment tx (Spend.decode hegotaSettlement.data 4) ∧ (∀ e ∈ during, ¬ Settles e.shown) ∧
        ∀ middle e rest, after = middle ++ e :: rest → (∀ x ∈ middle, ¬ x.shown.Ends) → ¬ Settles e.shown := by
  obtain ⟨history, last, run, shown⟩ := hegota_run
  rw [script, if_pos rfl] at shown
  obtain ⟨e1, _, rfl, -, shown⟩ := List.map_eq_cons_iff.mp shown
  obtain ⟨e2, _, rfl, -, shown⟩ := List.map_eq_cons_iff.mp shown
  obtain ⟨e3, _, rfl, -, shown⟩ := List.map_eq_cons_iff.mp shown
  obtain ⟨⟨_, reached⟩, after, rfl, rfl, -⟩ := List.map_eq_cons_iff.mp shown
  have split : e1 :: e2 :: e3 :: ⟨.called hegotaSettlement (.ok (.returned [])), reached⟩ :: after =
      [e1, e2, e3] ++ ⟨.called hegotaSettlement (.ok (.returned [])), reached⟩ :: after := rfl
  have settles : Selects hegotaSettlement .transfer ∨ Selects hegotaSettlement .withdraw := selects_of_approved hegota_approved rfl
  exact ⟨_, _, _, _, _, run, split, settlement_verified_once run split settles⟩

end ShieldedPool.Proofs
