import ShieldedPool.Proofs.Stages

/-! The production split and its specification in lockstep. The specification verifies the
proof again when it settles, but only what frame 0 has verified ever gets that far. -/

namespace ShieldedPool.Proofs
open Evm Exec

variable {d : Deployment}

/-- The specification's immutables under the dispatcher's identity. -/
def ownIdentity (d : Deployment) : Reference.Immutables where
  poolSender := d.self
  probe := d.probe
  verifier := d.verifier
  sourceId := d.sourceId
  domain := d.domain

/-- A call of the getter that only the specification has. -/
def ReadsSender (c : Call) : Prop := 4 ≤ c.data.length ∧ wordAt c.data 0 >>> 224 = Reference.poolSenderSelector

def Plain (shown : Observation) : Prop := ∀ c result, shown = .called c result → ¬ ReadsSender c

/-- The calls on which the second proof check makes no difference. -/
def Agreed (d : Deployment) (c : Call) : Prop := c.caller ≠ d.self ∨ d.verify (Spend.decode c.data 4).verifierCall = true

theorem verifyProof_of_verified {domain : Word} {sp : Spend} (verified : d.verify sp.verifierCall = true) :
    verifyProof d domain sp = validateSpend domain sp := by
  have passes : (Error.proofInvalid.throwIf (d.verify sp.verifierCall = false) : Exec State Unit) = pure () := by
    rw [verified]
    rfl
  rw [verifyProof, passes]
  exact bind_pure_unit

theorem spend_agrees {c : Call} (agreed : Agreed d c) (s : State) :
    spend d (Reference.variant d (ownIdentity d)) c (Spend.decode c.data 4) s =
      spend d (Logic.variant d) c (Spend.decode c.data 4) s := by
  rcases agreed with stranger | verified
  · have refused {v : Variant} (pinned : v.poolSender = d.self) :
        spend d v c (Spend.decode c.data 4) s = .error Error.notPoolSender.data := by
      rw [spend, throwIf_bind, if_pos (by rw [pinned]; exact stranger)]
    rw [refused rfl, refused rfl]
  · have same : (Reference.variant d (ownIdentity d)).authenticate (Spend.decode c.data 4) =
        (Logic.variant d).authenticate (Spend.decode c.data 4) := verifyProof_of_verified verified
    rw [spend, same]
    rfl

theorem body_agrees {c : Call} (agreed : Agreed d c) (m : Method) (s : State) :
    body d (Reference.variant d (ownIdentity d)) c m s = body d (Logic.variant d) c m s := by
  have spends := funext (spend_agrees agreed)
  cases m with
  | transfer => rw [body, body, transfer, transfer, spends]
  | withdraw => simp only [body, withdraw, spends]
  | _ => rfl

/-- Apart from the one getter, the two pools answer such a call alike. -/
theorem call_agrees {image : Dispatcher.Image} {c : Call} (plain : ¬ ReadsSender c) (agreed : Agreed d c) (s : State) :
    Reference.call d (ownIdentity d) c s = Dispatcher.call d image c s := by
  rw [Dispatcher.call_eq, Logic.call, Reference.call]
  simp only [ReadsSender] at plain
  rw [if_neg plain]
  change dispatch d (Reference.variant d (ownIdentity d)) c s = _
  rw [dispatch, dispatch]
  simp only [revertIf_bind]
  cases Method.ofSelector (wordAt c.data 0 >>> 224) with
  | none => rfl
  | some m => simp only [revertIf_bind, body_agrees agreed]

variable {l l' : Ledger State} {shown : Observation}

/-- On a staged ledger no step makes any other call. -/
theorem agreed_of_step {net : Network State} (self : net.self = d.self) (staged : Staged d net l) {c : Call}
    {result : Except Bytes Reply} (step : Step net l (.called c result) l') : Agreed d c := by
  cases step with
  | call active acts other => exact .inl (self ▸ other)
  | @frameCall chain chain' p f b result pending due target nonempty mode permitted called =>
    by_cases caller : net.callerOf p.tx f = d.self
    · have sends : f.mode = .sender := by
        by_contra otherwise
        rw [Network.callerOf, if_neg otherwise, ← self] at caller
        exact net.apart caller
      rw [Network.callerOf, if_pos sends, ← self] at caller
      rcases staged p rfl caller with clear | @⟨scope, g, sp, approved, -, -, position⟩
      · exact absurd ((clear _ .current).1.symm.trans (permitted sends)) nofun
      · rcases position.frame approved due.2 with ⟨-, -, verify⟩ | ⟨-, -, rfl, -⟩
        · exact absurd verify mode
        · refine .inr ?_
          change d.verify (Spend.decode f.data 4).verifierCall = true
          rw [← approved.spend]
          exact approved.proven.verified
    · exact .inl caller

section Transport
variable {outside : Outside d.self} {a b : PoolCode State} {o : Opcodes} {outermost : Bool} {chain chain' : Chain State} {c : Call}
    {result : Except Bytes Reply} {pending : List (Pending State)}

/-- Pools that only differ in their calls. -/
structure Alike (a b : PoolCode State) : Prop where
  resume : a.resume = b.resume
  authorize : a.authorize = b.authorize
  published : a.published = b.published

theorem called_alike (alike : Alike a b) (same : a.call c chain.pool = b.call c chain.pool)
    (called : Called (networkOf d outside a) o outermost chain c result chain' pending) :
    Called (networkOf d outside b) o outermost chain c result chain' pending := by
  cases called with
  | returned funds ran => exact .returned funds (same.symm.trans ran)
  | paying funds ran other payable => exact .paying funds (same.symm.trans ran) other payable
  | unpaid funds ran refused ended =>
    have refused' := refused.imp_right fun ⟨own, e, reverted⟩ =>
      And.intro own (Exists.intro e ((congrFun (congrFun (congrFun alike.authorize _) _) _).symm.trans reverted))
    exact .unpaid funds (same.symm.trans ran) refused' ((congrFun alike.resume false).symm.trans ended)
  | reverted ran => exact .reverted (same.symm.trans ran)

/-- A step of one network is one of the other when the call it makes, if any, has the same answer. -/
theorem step_alike (alike : Alike a b) (step : Step (networkOf d outside a) l shown l')
    (same : ∀ c result, shown = .called c result → a.call c l.chain.pool = b.call c l.chain.pool) :
    Step (networkOf d outside b) l shown l' := by
  have authorize (c : Call) (o : Opcodes) (s : State) : a.authorize c o s = b.authorize c o s := by rw [alike.authorize]
  cases step with
  | call active acts other nonempty called => exact .call active acts other nonempty (called_alike alike (same _ _ rfl) called)
  | touch active acts other refused => exact .touch active acts other ((authorize _ _ _).symm.trans refused)
  | accept top ended => exact .accept top ((congrFun alike.resume true).symm.trans ended)
  | refuse top ended => exact .refuse top ((congrFun alike.resume false).symm.trans ended)
  | enter active => exact .enter active
  | leave top => exact .leave top
  | undo top => exact .undo top
  | move active acts other funds => exact .move active acts other funds
  | reward room => exact .reward room
  | begin admissible =>
    exact .begin ⟨admissible.ordered, admissible.fresh, fun r member own => by
      have rooted : r.root ∈ a.published _ := admissible.rooted r member own
      rw [alike.published] at rooted
      exact rooted⟩
  | authorize due target empty verify ran effect =>
    exact .authorize due target empty verify ((authorize _ _ _).symm.trans ran) effect
  | unauthorized due target empty mode permitted ran =>
    exact .unauthorized due target empty mode permitted ((authorize _ _ _).symm.trans ran)
  | frameCall due target nonempty mode permitted called =>
    exact .frameCall due target nonempty mode permitted (called_alike alike (same _ _ rfl) called)
  | frameExhausted due target nonempty mode permitted => exact .frameExhausted due target nonempty mode permitted
  | frameStart due target permitted funds => exact .frameStart due target permitted funds
  | approve current running target approves effect => exact .approve current running target approves effect
  | frameEnd running target verified => exact .frameEnd running target verified
  | frameRevert running target mode => exact .frameRevert running target mode
  | abort => exact .abort
  | finish complete closed paid bound room => exact .finish complete closed paid bound room

end Transport

theorem alike_pools (d : Deployment) (image : Dispatcher.Image) :
    Alike (Dispatcher.poolCode d image) (Reference.poolCode d image (ownIdentity d)) where
  resume := funext Dispatcher.resume_eq
  authorize := rfl
  published := rfl

variable {image : Dispatcher.Image} {outside : Outside d.self}

theorem step_lockstep (plain : Plain shown) (staged : Staged d (dispatcherNetwork d image outside) l) :
    Step (dispatcherNetwork d image outside) l shown l' ↔ Step (referenceNetwork d image (ownIdentity d) outside) l shown l' := by
  have alike := alike_pools d image
  constructor
  · intro step
    refine step_alike alike step fun c result called => (call_agrees (plain c result called) ?_ _).symm
    subst called
    exact agreed_of_step rfl staged step
  · intro step
    have staged : Staged d (referenceNetwork d image (ownIdentity d) outside) l := staged
    refine step_alike ⟨alike.resume.symm, rfl, rfl⟩ step fun c result called => call_agrees (plain c result called) ?_ _
    subst called
    exact agreed_of_step rfl staged step

theorem run_lockstep {first l : Ledger State} {history : List (Entry State)} (idle : first.tx = none)
    (plain : ∀ e ∈ history, Plain e.shown) :
    Run (dispatcherNetwork d image outside) first history l ↔
      Run (referenceNetwork d image (ownIdentity d) outside) first history l := by
  have staged {history : List (Entry State)} {m : Ledger State} (run : Run (dispatcherNetwork d image outside) first history m) :
      Staged d (dispatcherNetwork d image outside) m :=
    invariant_of_run run (fun p tx => by rw [idle] at tx; cases tx) fun _ _ _ => staged_of_step dispatcher_frameZero
  constructor
  · intro run
    induction run with
    | start => exact .start
    | step earlier taken ih =>
      refine (ih fun e member => plain e (List.mem_append_left _ member)).step ?_
      exact (step_lockstep (plain _ (List.mem_append_right _ (List.mem_singleton_self _))) (staged earlier)).mp taken
  · intro run
    induction run with
    | start => exact .start
    | step earlier taken ih =>
      have before := ih fun e member => plain e (List.mem_append_left _ member)
      exact before.step
        ((step_lockstep (plain _ (List.mem_append_right _ (List.mem_singleton_self _))) (staged before)).mpr taken)

/-- Both constructors leave the same storage, and from there the two pools go through the same
runs: the same calls with the same answers, the same storage, events and publications. -/
theorem split_refines_specification {built specified : Call} {codeLength : Address → Nat} {r : Reference.Immutables} {s t : State}
    (deployed : Dispatcher.construct built State.empty = .ok ((), s))
    (instantiated : Reference.construct d specified codeLength d.self d.probe d.verifier State.empty = .ok (r, t)) :
    s = genesis ∧ t = genesis ∧ ∀ (eth : Address → Nat) (history : List (Entry State)) (last : Ledger State),
      (∀ e ∈ history, Plain e.shown) →
        (Run (dispatcherNetwork d image outside) (launch eth) history last ↔
          Run (referenceNetwork d image r outside) (launch eth) history last) := by
  have first : s = genesis := by
    rw [Dispatcher.construct, update_bind, read_bind, throwIf_bind, error_or_ok] at deployed
    cases deployed.2
    rfl
  obtain ⟨same, other⟩ : r = ownIdentity d ∧ t = genesis := by
    rw [Reference.construct, throwIf_bind, throwIf_bind, throwIf_bind, error_or_ok, error_or_ok, error_or_ok, update_bind,
      publishRoot_bind, error_or_ok] at instantiated
    cases instantiated.2.2.2.2
    exact ⟨rfl, rfl⟩
  rw [same]
  exact ⟨first, other, fun eth history last plain => run_lockstep rfl plain⟩

theorem split_refines_specification_hegota :
    ∃ (r : Reference.Immutables) (s t : State) (built : Call) (codeLength : Address → Nat),
      Dispatcher.construct built State.empty = .ok ((), s) ∧
      Reference.construct Hegota.deployment built codeLength Hegota.address Hegota.deployment.probe Hegota.deployment.verifier State.empty =
        .ok (r, t) ∧
      s = genesis ∧ t = genesis ∧ ∀ (eth : Address → Nat) (history : List (Entry State)) (last : Ledger State),
        (∀ e ∈ history, Plain e.shown) →
          (Run (dispatcherNetwork Hegota.deployment Hegota.image Hegota.outside) (launch eth) history last ↔
            Run (referenceNetwork Hegota.deployment Hegota.image r Hegota.outside) (launch eth) history last) := by
  let built : Call := ⟨0xbb#160, 0, [], 0, none, Hegota.block.publishes⟩
  have deployed : Dispatcher.construct built State.empty = .ok ((), genesis) := rfl
  have instantiated : Reference.construct Hegota.deployment built (fun _ => 1) Hegota.address Hegota.deployment.probe
      Hegota.deployment.verifier State.empty = .ok (ownIdentity Hegota.deployment, genesis) := by
    rw [Reference.construct, throwIf_bind, throwIf_bind, throwIf_bind, if_neg (by decide), if_neg (by decide), if_neg (by decide)]
    rfl
  exact ⟨_, _, _, _, _, deployed, instantiated, split_refines_specification deployed instantiated⟩

end ShieldedPool.Proofs
