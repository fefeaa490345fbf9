import Mathlib.Data.List.Forall2
import ShieldedPool.Pool

/-! Pools whose state carries more than the code reads. Every run of the plain pool is the
shadow of a run of the richer one, so that a record kept beside the state rolls back with it. -/

namespace ShieldedPool
open Evm

variable {σ τ : Type}

def Chain.map (f : σ → τ) (chain : Chain σ) : Chain τ where
  pool := f chain.pool
  eth := chain.eth
  paid := chain.paid
  approved := chain.approved
  payer := chain.payer

def Pending.map (f : σ → τ) : Pending σ → Pending τ
  | .payout undo outermost => .payout (undo.map f) outermost
  | .scope undo => .scope (undo.map f)

def Progress.map (f : σ → τ) (p : Progress σ) : Progress τ where
  tx := p.tx
  index := p.index
  before := p.before.map f
  start := p.start.map (Chain.map f)

def Ledger.map (f : σ → τ) (l : Ledger σ) : Ledger τ where
  chain := l.chain.map f
  stack := l.stack.map (Pending.map f)
  tx := l.tx.map (Progress.map f)

def Entry.map (f : σ → τ) (e : Entry σ) : Entry τ := ⟨e.shown, e.reached.map f⟩

/-- The pool code `rich` does what `plain` does, and keeps more state. -/
structure Enriches (f : σ → τ) (rich : PoolCode σ) (plain : PoolCode τ) : Prop where
  call : ∀ c s, (rich.call c s).map (Prod.map id f) = plain.call c (f s)
  resume : rich.resume = plain.resume
  authorize : ∀ c o s, rich.authorize c o s = plain.authorize c o (f s)
  published : ∀ s, rich.published s = plain.published (f s)

/-- What a step has shown, but for the data an empty call reverts with. -/
def Observation.redact (g : Bytes → Bytes) : Observation → Observation
  | .authorized frame result => .authorized frame (result.mapError g)
  | shown => shown

/-- An entry of a run and one of its shadow. -/
structure Entry.Shows (f : σ → τ) (g : Bytes → Bytes) (e : Entry σ) (shadow : Entry τ) : Prop where
  shown : e.shown.redact g = shadow.shown.redact g
  reached : e.reached.map f = shadow.reached

/-- `rich` ends calls and approves as `plain` does; empty calls revert with the same data as far
as `g` tells it. -/
structure Keeps (f : σ → τ) (g : Bytes → Bytes) (rich : PoolCode σ) (plain : PoolCode τ) : Prop where
  resume : rich.resume = plain.resume
  authorize : ∀ c o s, (rich.authorize c o s).mapError g = (plain.authorize c o (f s)).mapError g
  published : ∀ s, rich.published s = plain.published (f s)

namespace Proofs

variable {f : σ → τ} {rich : PoolCode σ} {plain : PoolCode τ} {d : Deployment} {outside : Outside d.self}

theorem returned_of_map {c : Call} {s : σ} {reply : Reply} {t : τ}
    (same : (rich.call c s).map (Prod.map id f) = plain.call c (f s)) (ran : plain.call c (f s) = .ok (reply, t)) :
    ∃ s', rich.call c s = .ok (reply, s') ∧ f s' = t := by
  rw [← same] at ran
  cases called : rich.call c s with
  | error data =>
    rw [called] at ran
    cases ran
  | ok pair =>
    rw [called] at ran
    cases ran
    exact ⟨_, rfl, rfl⟩

theorem reverted_of_map {c : Call} {s : σ} {data : Bytes} (same : (rich.call c s).map (Prod.map id f) = plain.call c (f s))
    (ran : plain.call c (f s) = .error data) : rich.call c s = .error data := by
  rw [← same] at ran
  cases called : rich.call c s with
  | error other =>
    rw [called] at ran
    cases ran
    rfl
  | ok pair =>
    rw [called] at ran
    cases ran

/-- Results that `g` cannot tell apart end alike. -/
theorem error_of_alike {α : Type} {g : Bytes → Bytes} {x y : Except Bytes α} (same : x.mapError g = y.mapError g) {e : Bytes}
    (refused : x = .error e) : ∃ e', y = .error e' ∧ g e' = g e := by
  subst refused
  cases y with
  | ok a => cases same
  | error e' => exact ⟨e', rfl, (Except.error.inj same).symm⟩

theorem ok_of_alike {α : Type} {g : Bytes → Bytes} {x y : Except Bytes α} (same : x.mapError g = y.mapError g) {a : α}
    (granted : x = .ok a) : y = .ok a := by
  subst granted
  cases y with
  | ok b => exact congrArg Except.ok (Except.ok.inj same).symm
  | error e => cases same

theorem opcodes_map (l : Ledger σ) : (l.map f).opcodes = l.opcodes := by
  obtain ⟨chain, stack, tx⟩ := l
  cases tx <;> rfl

theorem call_map (l : Ledger σ) (caller : Address) (value : Word) (data : Bytes) (b : Block) :
    (l.map f).call caller value data b = l.call caller value data b := by
  rw [Ledger.call, Ledger.call, opcodes_map]

theorem active_map {l : Ledger σ} (active : (l.map f).Active) : l.Active := by
  intro p tx
  obtain ⟨g, undo, ⟨started, frame⟩, mode⟩ := active (p.map f) (by rw [Ledger.map, tx]; rfl)
  obtain ⟨chain, began, -⟩ := Option.map_eq_some_iff.mp started
  exact ⟨g, chain, ⟨began, frame⟩, mode⟩

theorem approvePayment_map {self who : Address} {tx : FrameTx} {chain : Chain σ} {after : Chain τ}
    (effect : (chain.map f).approvePayment self tx who = some after) :
    ∃ ch, chain.approvePayment self tx who = some ch ∧ ch.map f = after := by
  rw [Chain.approvePayment] at effect ⊢
  by_cases granted : chain.approved = true ∧ chain.payer = none ∧ tx.maxCost.toNat ≤ chain.eth who ∧ chain.KeysFresh self tx
  · rw [if_pos granted]
    refine ⟨_, rfl, Option.some.inj ((if_pos granted).symm.trans effect)⟩
  · cases (if_neg granted).symm.trans effect

theorem approveExecution_map {who : Address} {tx : FrameTx} {chain : Chain σ} {after : Chain τ}
    (effect : (chain.map f).approveExecution tx who = some after) :
    ∃ ch, chain.approveExecution tx who = some ch ∧ ch.map f = after := by
  rw [Chain.approveExecution] at effect ⊢
  split_ifs at effect with granted
  cases effect
  exact ⟨_, if_pos granted, rfl⟩

theorem approve_map {self who : Address} {tx : FrameTx} {scope : Word} {chain : Chain σ} {after : Chain τ}
    (effect : (chain.map f).approve self tx who scope = some after) :
    ∃ ch, chain.approve self tx who scope = some ch ∧ ch.map f = after := by
  rw [Chain.approve] at effect ⊢
  split_ifs at effect ⊢
  · exact approvePayment_map effect
  · exact approveExecution_map effect
  · obtain ⟨_, executed, paid⟩ := Option.bind_eq_some_iff.mp effect
    obtain ⟨middle, granted, rfl⟩ := approveExecution_map executed
    obtain ⟨last, charged, same⟩ := approvePayment_map paid
    exact ⟨last, Option.bind_eq_some_iff.mpr ⟨middle, granted, charged⟩, same⟩

theorem called_lift {g : Bytes → Bytes} (keeps : Keeps f g rich plain) {o : Opcodes} {outermost : Bool} {chain : Chain σ} {c : Call}
    {result : Except Bytes Reply} {after : Chain τ} {pending : List (Pending τ)}
    (same : (rich.call c chain.pool).map (Prod.map id f) = plain.call c (f chain.pool))
    (called : Called (networkOf d outside plain) o outermost (chain.map f) c result after pending) :
    ∃ chain' pending', Called (networkOf d outside rich) o outermost chain c result chain' pending' ∧
      chain'.map f = after ∧ pending'.map (Pending.map f) = pending := by
  cases called with
  | returned funds ran =>
    obtain ⟨s, again, rfl⟩ := returned_of_map same ran
    exact ⟨_, _, .returned funds again, rfl, rfl⟩
  | paying funds ran other payable =>
    obtain ⟨s, again, rfl⟩ := returned_of_map same ran
    exact ⟨_, _, .paying funds again other payable, rfl, rfl⟩
  | unpaid funds ran refused ended =>
    obtain ⟨s, again, rfl⟩ := returned_of_map same ran
    have refused := refused.imp_right fun ⟨own, e, reverted⟩ =>
      And.intro own (Exists.imp (fun _ => And.left) (error_of_alike (keeps.authorize _ _ _).symm reverted))
    exact ⟨_, _, .unpaid funds again refused ((congrFun keeps.resume false).trans ended), rfl, rfl⟩
  | reverted ran => exact ⟨_, _, .reverted (reverted_of_map same ran), rfl, rfl⟩

/-- A ledger between frames. -/
theorem idle_of_map {l : Ledger σ} {chain : Chain τ} {p : Progress τ} (same : l.map f = ⟨chain, [], some p⟩) :
    ∃ ch q, l = ⟨ch, [], some q⟩ ∧ ch.map f = chain ∧ q.map f = p := by
  obtain ⟨ch, stack, tx⟩ := l
  obtain ⟨rfl, none, current⟩ := Ledger.mk.inj same
  obtain ⟨q, rfl, rfl⟩ := Option.map_eq_some_iff.mp current
  obtain rfl := List.map_eq_nil_iff.mp none
  exact ⟨ch, q, rfl, rfl, rfl⟩

theorem top_of_map {l : Ledger σ} {q : Pending τ} {rest : List (Pending τ)} (top : (l.map f).stack = q :: rest) :
    ∃ q' rest', l.stack = q' :: rest' ∧ q'.map f = q ∧ rest'.map (Pending.map f) = rest :=
  List.map_eq_cons_iff.mp top

theorem running_map {q : Progress σ} {g : Frame} {undo : Chain τ} (running : (q.map f).Running g undo) :
    ∃ ch, q.Running g ch ∧ ch.map f = undo := by
  obtain ⟨ch, started, same⟩ := Option.map_eq_some_iff.mp running.1
  exact ⟨ch, ⟨started, running.2⟩, same⟩

theorem due_map {q : Progress σ} {g : Frame} (due : (q.map f).Due g) : q.Due g := ⟨Option.map_eq_none_iff.mp due.1, due.2⟩

theorem next_map (outermost : Bool) (tx : Option (Progress σ)) :
    (if outermost then tx.map Progress.next else tx).map (Progress.map f) =
      if outermost then (tx.map (Progress.map f)).map Progress.next else tx.map (Progress.map f) := by
  cases outermost <;> cases tx <;> rfl

/-- A step of the plain pool is a step of the richer one, if the call it makes is. -/
theorem step_keeps {g : Bytes → Bytes} (keeps : Keeps f g rich plain) {l : Ledger σ} {shown : Observation} {after : Ledger τ}
    (same : ∀ c result, shown = .called c result → (rich.call c l.chain.pool).map (Prod.map id f) = plain.call c (f l.chain.pool))
    (step : Step (networkOf d outside plain) (l.map f) shown after) :
    ∃ shown' l', Step (networkOf d outside rich) l shown' l' ∧ shown'.redact g = shown.redact g ∧ l'.map f = after := by
  generalize first : l.map f = before at step
  cases step with
  | call active acts other nonempty called =>
    subst first
    rw [call_map] at called same ⊢
    rw [opcodes_map] at called
    obtain ⟨ch, pending, again, rfl, rfl⟩ := called_lift keeps (same _ _ rfl) called
    exact ⟨_, _, .call (active_map active) acts other nonempty again, rfl, by rw [Ledger.map, List.map_append]; rfl⟩
  | touch active acts other refused =>
    subst first
    rw [call_map, opcodes_map] at refused
    obtain ⟨e, reverted, alike⟩ := error_of_alike (keeps.authorize _ _ _).symm refused
    exact ⟨_, _, .touch (active_map active) acts other reverted, congrArg (fun data => Observation.authorized none (.error data)) alike, rfl⟩
  | accept top ended =>
    subst first
    obtain ⟨q, rest, stack, same, rfl⟩ := top_of_map top
    cases q with
    | scope => cases same
    | payout =>
      cases same
      exact ⟨_, _, .accept stack ((congrFun keeps.resume true).trans ended), rfl, by rw [Ledger.map, next_map]; rfl⟩
  | refuse top ended =>
    subst first
    obtain ⟨q, rest, stack, same, rfl⟩ := top_of_map top
    cases q with
    | scope => cases same
    | payout =>
      cases same
      exact ⟨_, _, .refuse stack ((congrFun keeps.resume false).trans ended), rfl, by rw [Ledger.map, next_map]; rfl⟩
  | enter active =>
    subst first
    exact ⟨_, _, .enter (active_map active), rfl, rfl⟩
  | leave top =>
    subst first
    obtain ⟨q, rest, stack, same, rfl⟩ := top_of_map top
    cases q with
    | payout => cases same
    | scope =>
      cases same
      exact ⟨_, _, .leave stack, rfl, rfl⟩
  | undo top =>
    subst first
    obtain ⟨q, rest, stack, same, rfl⟩ := top_of_map top
    cases q with
    | payout => cases same
    | scope =>
      cases same
      exact ⟨_, _, .undo stack, rfl, rfl⟩
  | move active acts other funds =>
    subst first
    exact ⟨_, _, .move (active_map active) acts other funds, rfl, rfl⟩
  | reward room =>
    subst first
    exact ⟨_, _, .reward room, rfl, rfl⟩
  | begin admissible =>
    obtain ⟨ch, stack, tx⟩ := l
    obtain ⟨rfl, none, idle⟩ := Ledger.mk.inj first
    obtain rfl := List.map_eq_nil_iff.mp none
    obtain rfl := Option.map_eq_none_iff.mp idle
    have rooted := admissible.rooted
    exact ⟨_, _, .begin ⟨admissible.ordered, admissible.fresh, fun r member own => (keeps.published ch.pool).symm ▸ rooted r member own⟩, rfl, rfl⟩
  | authorize due target empty verify ran effect =>
    obtain ⟨ch, q, rfl, rfl, rfl⟩ := idle_of_map first
    obtain ⟨granted, again, rfl⟩ := approve_map effect
    exact ⟨_, _, .authorize (due_map due) target empty verify (ok_of_alike (keeps.authorize _ _ _).symm ran) again, rfl, rfl⟩
  | unauthorized due target empty mode permitted ran =>
    obtain ⟨ch, q, rfl, rfl, rfl⟩ := idle_of_map first
    obtain ⟨e, reverted, alike⟩ := error_of_alike (keeps.authorize _ _ _).symm ran
    exact ⟨_, _, .unauthorized (due_map due) target empty mode permitted reverted,
      congrArg (fun data => Observation.authorized (some q.index) (.error data)) alike, rfl⟩
  | frameCall due target nonempty mode permitted called =>
    obtain ⟨ch, q, rfl, rfl, rfl⟩ := idle_of_map first
    obtain ⟨ch', pending, again, rfl, rfl⟩ := called_lift keeps (same _ _ rfl) called
    refine ⟨_, _, .frameCall (due_map due) target nonempty mode permitted again, rfl, ?_⟩
    cases pending <;> rfl
  | frameExhausted due target nonempty mode permitted =>
    obtain ⟨ch, q, rfl, rfl, rfl⟩ := idle_of_map first
    exact ⟨_, _, .frameExhausted (due_map due) target nonempty mode permitted, rfl, rfl⟩
  | frameStart due target permitted funds =>
    obtain ⟨ch, q, rfl, rfl, rfl⟩ := idle_of_map first
    refine ⟨_, _, .frameStart (due_map due) target permitted funds, rfl, ?_⟩
    split_ifs <;> rfl
  | approve current running target approves effect =>
    subst first
    obtain ⟨q, tx, rfl⟩ := Option.map_eq_some_iff.mp current
    obtain ⟨undo, held, rfl⟩ := running_map running
    rw [opcodes_map] at approves
    obtain ⟨granted, again, rfl⟩ := approve_map effect
    exact ⟨_, _, .approve tx held target approves again, rfl, rfl⟩
  | frameEnd running target verified =>
    obtain ⟨ch, q, rfl, rfl, rfl⟩ := idle_of_map first
    obtain ⟨undo, held, rfl⟩ := running_map running
    exact ⟨_, _, .frameEnd held target verified, rfl, rfl⟩
  | frameRevert running target mode =>
    obtain ⟨ch, q, rfl, rfl, rfl⟩ := idle_of_map first
    obtain ⟨undo, held, rfl⟩ := running_map running
    exact ⟨_, _, .frameRevert held target mode, rfl, rfl⟩
  | abort =>
    obtain ⟨ch, stack, tx⟩ := l
    obtain ⟨rfl, -, current⟩ := Ledger.mk.inj first
    obtain ⟨q, rfl, rfl⟩ := Option.map_eq_some_iff.mp current
    exact ⟨_, _, .abort, rfl, rfl⟩
  | finish complete closed paid bound room =>
    obtain ⟨ch, q, rfl, rfl, rfl⟩ := idle_of_map first
    exact ⟨_, _, .finish complete (Option.map_eq_none_iff.mp closed) paid bound room, rfl, rfl⟩

section Shadow
variable {g : Bytes → Bytes} {l l' : Ledger σ} {shown : Observation}

theorem active_shadow (active : l.Active) : (l.map f).Active := by
  intro p tx
  obtain ⟨q, current, rfl⟩ := Option.map_eq_some_iff.mp tx
  obtain ⟨frame, undo, ⟨started, runs⟩, mode⟩ := active q current
  exact ⟨frame, undo.map f, ⟨congrArg (Option.map (Chain.map f)) started, runs⟩, mode⟩

theorem approvePayment_shadow {self who : Address} {tx : FrameTx} {chain ch : Chain σ} (effect : chain.approvePayment self tx who = some ch) :
    (chain.map f).approvePayment self tx who = some (ch.map f) := by
  rw [Chain.approvePayment] at effect ⊢
  by_cases granted : chain.approved = true ∧ chain.payer = none ∧ tx.maxCost.toNat ≤ chain.eth who ∧ chain.KeysFresh self tx
  · rw [if_pos granted] at effect
    cases effect
    exact if_pos granted
  · rw [if_neg granted] at effect
    cases effect

theorem approveExecution_shadow {who : Address} {tx : FrameTx} {chain ch : Chain σ} (effect : chain.approveExecution tx who = some ch) :
    (chain.map f).approveExecution tx who = some (ch.map f) := by
  rw [Chain.approveExecution] at effect ⊢
  split_ifs at effect with granted
  cases effect
  exact if_pos granted

theorem approve_shadow {self who : Address} {tx : FrameTx} {scope : Word} {chain ch : Chain σ}
    (effect : chain.approve self tx who scope = some ch) : (chain.map f).approve self tx who scope = some (ch.map f) := by
  rw [Chain.approve] at effect ⊢
  split_ifs at effect ⊢
  · exact approvePayment_shadow effect
  · exact approveExecution_shadow effect
  · obtain ⟨middle, executed, paid⟩ := Option.bind_eq_some_iff.mp effect
    exact Option.bind_eq_some_iff.mpr ⟨middle.map f, approveExecution_shadow executed, approvePayment_shadow paid⟩

theorem called_shadow (keeps : Keeps f g rich plain) {o : Opcodes} {outermost : Bool} {chain after : Chain σ} {c : Call}
    {result : Except Bytes Reply} {pending : List (Pending σ)}
    (same : (rich.call c chain.pool).map (Prod.map id f) = plain.call c (f chain.pool))
    (called : Called (networkOf d outside rich) o outermost chain c result after pending) :
    Called (networkOf d outside plain) o outermost (chain.map f) c result (after.map f) (pending.map (Pending.map f)) := by
  cases called with
  | returned funds ran =>
    rw [show rich.call c chain.pool = _ from ran] at same
    exact .returned funds same.symm
  | paying funds ran other payable =>
    rw [show rich.call c chain.pool = _ from ran] at same
    exact .paying funds same.symm other payable
  | unpaid funds ran refused ended =>
    rw [show rich.call c chain.pool = _ from ran] at same
    have refused := refused.imp_right fun ⟨own, e, reverted⟩ =>
      And.intro own (Exists.imp (fun _ => And.left) (error_of_alike (keeps.authorize _ _ _) reverted))
    exact .unpaid funds same.symm refused ((congrFun keeps.resume false).symm.trans ended)
  | reverted ran =>
    rw [show rich.call c chain.pool = _ from ran] at same
    exact .reverted same.symm

theorem due_shadow {q : Progress σ} {frame : Frame} (due : q.Due frame) : (q.map f).Due frame :=
  ⟨congrArg (Option.map (Chain.map f)) due.1, due.2⟩

theorem running_shadow {q : Progress σ} {frame : Frame} {undo : Chain σ} (running : q.Running frame undo) :
    (q.map f).Running frame (undo.map f) :=
  ⟨congrArg (Option.map (Chain.map f)) running.1, running.2⟩

theorem top_shadow {q : Pending σ} {rest : List (Pending σ)} (top : l.stack = q :: rest) :
    (l.map f).stack = q.map f :: rest.map (Pending.map f) := congrArg (List.map (Pending.map f)) top

theorem after_shadow (p : Progress σ) (undo : Chain σ) (pending : List (Pending σ)) :
    (p.after undo pending).map f = (p.map f).after (undo.map f) (pending.map (Pending.map f)) := by
  cases pending <;> rfl

/-- A step of the richer pool is a step of the plain one, if the call it makes is. -/
theorem step_shadow (keeps : Keeps f g rich plain)
    (same : ∀ c result, shown = .called c result → (rich.call c l.chain.pool).map (Prod.map id f) = plain.call c (f l.chain.pool))
    (step : Step (networkOf d outside rich) l shown l') :
    ∃ shown', Step (networkOf d outside plain) (l.map f) shown' (l'.map f) ∧ shown.redact g = shown'.redact g := by
  cases step with
  | call active acts other nonempty called =>
    have again := called_shadow keeps (same _ _ rfl) called
    rw [← opcodes_map (f := f) l, ← call_map (f := f) l] at again
    have taken : Step (networkOf d outside plain) (l.map f) _ _ := .call (active_shadow active) acts other nonempty again
    rw [call_map] at taken
    refine ⟨_, ?_, rfl⟩
    simp only [Ledger.map, List.map_append] at taken ⊢
    exact taken
  | touch active acts other refused =>
    obtain ⟨e, reverted, alike⟩ := error_of_alike (keeps.authorize _ _ _) refused
    rw [← opcodes_map (f := f) l, ← call_map (f := f) l] at reverted
    have taken : Step (networkOf d outside plain) (l.map f) _ _ := .touch (active_shadow active) acts other reverted
    exact ⟨_, taken, congrArg (fun data => Observation.authorized none (.error data)) alike.symm⟩
  | accept top ended =>
    have taken : Step (networkOf d outside plain) (l.map f) _ _ :=
      .accept (top_shadow top) ((congrFun keeps.resume true).symm.trans ended)
    refine ⟨_, ?_, rfl⟩
    simp only [Ledger.map, next_map] at taken ⊢
    exact taken
  | refuse top ended =>
    have taken : Step (networkOf d outside plain) (l.map f) _ _ :=
      .refuse (top_shadow top) ((congrFun keeps.resume false).symm.trans ended)
    refine ⟨_, ?_, rfl⟩
    simp only [Ledger.map, next_map] at taken ⊢
    exact taken
  | enter active => exact ⟨_, .enter (active_shadow active), rfl⟩
  | leave top => exact ⟨_, .leave (top_shadow top), rfl⟩
  | undo top => exact ⟨_, .undo (top_shadow top), rfl⟩
  | move active acts other funds => exact ⟨_, .move (active_shadow active) acts other funds, rfl⟩
  | reward room => exact ⟨_, .reward room, rfl⟩
  | @begin chain tx admissible =>
    have rooted := admissible.rooted
    exact ⟨_, .begin ⟨admissible.ordered, admissible.fresh, fun r member own => keeps.published chain.pool ▸ rooted r member own⟩, rfl⟩
  | authorize due target empty verify ran effect =>
    exact ⟨_, .authorize (due_shadow due) target empty verify (ok_of_alike (keeps.authorize _ _ _) ran) (approve_shadow effect), rfl⟩
  | @unauthorized chain p _ _ _ due target empty mode permitted ran =>
    obtain ⟨e, reverted, alike⟩ := error_of_alike (keeps.authorize _ _ _) ran
    exact ⟨_, .unauthorized (due_shadow due) target empty mode permitted reverted,
      congrArg (fun data => Observation.authorized (some p.index) (.error data)) alike.symm⟩
  | @frameCall chain _ p _ _ _ _ due target nonempty mode permitted called =>
    have taken : Step (networkOf d outside plain) ⟨chain.map f, [], some (p.map f)⟩ _ _ :=
      .frameCall (due_shadow due) target nonempty mode permitted (called_shadow keeps (same _ _ rfl) called)
    refine ⟨_, ?_, rfl⟩
    rw [← after_shadow] at taken
    exact taken
  | frameExhausted due target nonempty mode permitted =>
    exact ⟨_, .frameExhausted (due_shadow due) target nonempty mode permitted, rfl⟩
  | @frameStart chain p frame due target permitted funds =>
    have taken : Step (networkOf d outside plain) ⟨chain.map f, [], some (p.map f)⟩ _ _ :=
      .frameStart (due_shadow due) target permitted funds
    refine ⟨_, ?_, rfl⟩
    split_ifs at taken ⊢ <;> exact taken
  | approve current running target approves effect =>
    rw [← opcodes_map (f := f) l] at approves
    have taken : Step (networkOf d outside plain) (l.map f) _ _ :=
      .approve (congrArg (Option.map (Progress.map f)) current) (running_shadow running) target approves (approve_shadow effect)
    exact ⟨_, taken, rfl⟩
  | frameEnd running target verified => exact ⟨_, .frameEnd (running_shadow running) target verified, rfl⟩
  | frameRevert running target mode => exact ⟨_, .frameRevert (running_shadow running) target mode, rfl⟩
  | abort => exact ⟨_, .abort, rfl⟩
  | finish complete closed paid bound room =>
    exact ⟨_, .finish complete (congrArg (Option.map (Chain.map f)) closed) paid bound room, rfl⟩

end Shadow

/-- Where the richer pool reverts the call that a step of the plain one makes, it has a step too. -/
theorem reverts_of_step {l : Ledger σ} {c : Call} {result : Except Bytes Reply} {after : Ledger τ} {data : Bytes}
    (step : Step (networkOf d outside plain) (l.map f) (.called c result) after) (ran : rich.call c l.chain.pool = .error data) :
    ∃ l', Step (networkOf d outside rich) l (.called c (.error data)) l' := by
  generalize first : l.map f = before at step
  cases step with
  | call active acts other nonempty called =>
    subst first
    rw [call_map] at ran ⊢
    exact ⟨_, .call (active_map active) acts other nonempty (.reverted ran)⟩
  | frameCall due target nonempty mode permitted called =>
    obtain ⟨ch, q, rfl, rfl, rfl⟩ := idle_of_map first
    exact ⟨_, .frameCall (due_map due) target nonempty mode permitted (.reverted ran)⟩

theorem redact_id (shown : Observation) : shown.redact id = shown := by
  cases shown with
  | authorized frame result => cases result <;> rfl
  | _ => rfl

/-- Each step of the plain pool is a step of the richer one. -/
theorem step_lift (enriches : Enriches f rich plain) {l : Ledger σ} {shown : Observation} {after : Ledger τ}
    (step : Step (networkOf d outside plain) (l.map f) shown after) :
    ∃ l', Step (networkOf d outside rich) l shown l' ∧ l'.map f = after := by
  have keeps : Keeps f id rich plain :=
    ⟨enriches.resume, fun c o s => congrArg (Except.mapError id) (enriches.authorize c o s), enriches.published⟩
  obtain ⟨shown', l', again, same, mapped⟩ := step_keeps keeps (fun c _ _ => enriches.call c l.chain.pool) step
  rw [redact_id, redact_id] at same
  exact ⟨l', same ▸ again, mapped⟩

/-- Each run of the plain pool is the shadow of a run of the richer one. -/
theorem run_lift (enriches : Enriches f rich plain) {first : Ledger σ} {history : List (Entry τ)} {last : Ledger τ}
    (run : Run (networkOf d outside plain) (first.map f) history last) :
    ∃ history' last', Run (networkOf d outside rich) first history' last' ∧ history'.map (Entry.map f) = history ∧ last'.map f = last := by
  generalize start : first.map f = shadow at run
  induction run with
  | start => exact ⟨[], first, .start, rfl, start⟩
  | step earlier taken ih =>
    obtain ⟨history', middle, run, rfl, rfl⟩ := ih
    obtain ⟨l', step, rfl⟩ := step_lift enriches taken
    exact ⟨_, l', run.step step, by rw [List.map_append]; rfl, rfl⟩

end Proofs

end ShieldedPool
