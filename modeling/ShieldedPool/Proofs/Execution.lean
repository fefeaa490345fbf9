import ShieldedPool.Proofs.Settling

/-! Runs from a launched chain, and one transaction of the pool executed by itself: which steps that
takes, that it can take them whenever its payer can pay, and what they leave. -/

namespace ShieldedPool.Proofs
open Evm

variable {d : Deployment} {image : Dispatcher.Image} {outside : Outside d.self} {tx : FrameTx} {scope : Word} {f : Frame} {sp : Spend}
  {payer : Address} {c : Call} {result : Except Bytes Reply} {refund : Nat} {chain ch : Chain State} {last : Ledger State}

/-- A launched chain keeps no chain but its own. -/
theorem kept_launch {eth : Address → Nat} (kept : Kept (launch eth) chain) : chain = (launch eth).chain := by
  cases kept with
  | current => rfl
  | undo member => cases member
  | start tx => cases tx

theorem throughout_launch {P : Chain State → Prop} {eth : Address → Nat} (holds : P (launch eth).chain) : Throughout P (launch eth) :=
  ⟨fun _ kept => kept_launch kept ▸ holds, fun p tx => absurd tx (Option.some_ne_none p).symm⟩

theorem reachable_of_change {l : Ledger State} {shown : Observation}
    (change : Change (dispatcherNetwork d image outside) l shown ch) (reachable : Reachable d l.chain.pool) : Reachable d ch.pool := by
  cases change with
  | called caller called =>
    have onwards {c : Call} {reply : Reply} {t : State} (ran : Dispatcher.call d image c l.chain.pool = .ok (reply, t)) :
        Reachable d t := by
      rw [Dispatcher.call_eq] at ran
      exact .call reachable ran
    cases called with
    | returned funds ran => exact onwards ran
    | paying funds ran => exact onwards ran
    | unpaid | reverted => exact reachable
  | moved | rewarded | begun | sent | refunded => exact reachable
  | approved _ _ approval =>
    rcases fields_of_approve approval with rfl | ⟨-, -, -, rfl⟩
    · exact reachable
    · exact reachable

theorem reachable_of_run {eth : Address → Nat} {history : List (Entry State)} {last : Ledger State}
    (run : Run (dispatcherNetwork d image outside) (launch eth) history last) : Reachable d last.chain.pool := by
  have started : Throughout (fun ch => Reachable d ch.pool) (launch eth) := throughout_launch .deployed
  have kept : Throughout (fun ch => Reachable d ch.pool) last := invariant_of_run run started fun _ _ _ kept step =>
    kept.step (fun _ change => reachable_of_change change (kept.1 _ .current)) step
  exact kept.1 _ .current

theorem lt_of_canMove {eth : Address → Nat} {src dst a : Address} {amount : Nat} (funds : Chain.CanMove eth src dst amount)
    (small : eth a < 2 ^ 256) : Chain.move eth src dst amount a < 2 ^ 256 := by
  by_cases same : src = dst
  · rwa [Chain.move, if_pos same]
  by_cases to_ : a = dst
  · subst to_
    rw [move_target (Ne.symm same)]
    exact funds.2 same
  by_cases from_ : a = src
  · subst from_
    rw [Chain.move, if_neg same, Function.update_of_ne to_, Function.update_self]
    exact (Nat.sub_le _ _).trans_lt small
  · rwa [move_other from_ to_]

theorem lt_of_update {eth : Address → Nat} {a b : Address} {amount : Nat} (new : amount < 2 ^ 256) (small : eth a < 2 ^ 256) :
    Function.update eth b amount a < 2 ^ 256 := by
  by_cases here : a = b
  · subst here
    rwa [Function.update_self]
  · rwa [Function.update_of_ne here]

/-- Every balance stays a word. -/
theorem small_of_change {σ : Type} {net : Network σ} {l : Ledger σ} {shown : Observation} {ch : Chain σ} {a : Address}
    (change : Change net l shown ch) (small : ∀ a, l.chain.eth a < 2 ^ 256) : ch.eth a < 2 ^ 256 := by
  cases change with
  | called caller called =>
    cases called with
    | returned funds => exact lt_of_canMove funds (small a)
    | paying funds _ _ payable => exact lt_of_canMove payable (lt_of_canMove funds (small a))
    | unpaid | reverted => exact small a
  | moved _ _ funds => exact lt_of_canMove funds (small a)
  | rewarded room => exact lt_of_update room (small a)
  | begun => exact small a
  | approved _ _ effect =>
    rcases fields_of_approve effect with rfl | ⟨-, -, -, rfl⟩
    · exact small a
    · exact lt_of_update ((Nat.sub_le _ _).trans_lt (small _)) (small a)
  | sent _ _ _ _ _ funds => exact lt_of_canMove funds (small a)
  | refunded room => exact lt_of_update room (small a)

theorem small_of_run {eth : Address → Nat} {history : List (Entry State)}
    (run : Run (dispatcherNetwork d image outside) (launch eth) history last) (words : ∀ a, eth a < 2 ^ 256) (a : Address) :
    last.chain.eth a < 2 ^ 256 := by
  have kept : Throughout (fun ch => ∀ a, ch.eth a < 2 ^ 256) last := invariant_of_run run (throughout_launch words) fun _ _ _ kept step =>
    kept.step (fun _ change _ => small_of_change change (kept.1 _ .current)) step
  exact kept.1 _ .current a

/-- The observations of steps that take nothing back. -/
def Forward : Observation → Prop
  | .quiet | .resumed (.error _) | .closed false | .aborted => False
  | _ => True

theorem leaves_of_called {o : Opcodes} {outermost : Bool} {pending : List (Pending State)}
    (called : Called (dispatcherNetwork d image outside) o outermost chain c result ch pending) : leavesOf chain.pool <+: leavesOf ch.pool := by
  have onwards {reply : Reply} {t : State} (ran : Dispatcher.call d image c chain.pool = .ok (reply, t)) : leavesOf chain.pool <+: leavesOf t := by
    rw [Dispatcher.call_eq] at ran
    exact leaves_of_effect (effect_of_call d c ran)
  cases called with
  | returned funds ran => exact onwards ran
  | paying funds ran => exact onwards ran
  | unpaid | reverted => exact List.prefix_rfl

/-- Such a step keeps the leaves where they are. -/
theorem leaves_of_step {l l' : Ledger State} {shown : Observation} (forward : Forward shown)
    (step : Step (dispatcherNetwork d image outside) l shown l') : leavesOf l.chain.pool <+: leavesOf l'.chain.pool := by
  have approved {tx : FrameTx} {who : Address} {scope : Word} {before after : Chain State} (effect : before.approve d.self tx who scope = some after) :
      leavesOf before.pool <+: leavesOf after.pool := by
    rcases fields_of_approve effect with rfl | ⟨-, -, -, rfl⟩
    · exact List.prefix_rfl
    · exact List.prefix_rfl
  cases step with
  | call active acts other nonempty called => exact leaves_of_called called
  | frameCall due target nonempty mode permitted called => exact leaves_of_called called
  | authorize due target empty verify ran effect => exact approved effect
  | approve current running target approves effect => exact approved effect
  | frameStart =>
    split_ifs
    · exact List.prefix_rfl
    · exact List.prefix_rfl
  | touch | accept | begin | unauthorized | frameExhausted | frameEnd | finish => exact List.prefix_rfl
  | refuse | enter | leave | undo | move | reward | frameRevert | abort => exact forward.elim

theorem leaves_of_run {first : Ledger State} {history : List (Entry State)}
    (run : Run (dispatcherNetwork d image outside) first history last) (forward : ∀ e ∈ history, Forward e.shown) :
    leavesOf first.chain.pool <+: leavesOf last.chain.pool ∧ ∀ e ∈ history, leavesOf e.reached.chain.pool <+: leavesOf last.chain.pool := by
  induction run with
  | start => exact ⟨List.prefix_rfl, fun e member => absurd member List.not_mem_nil⟩
  | step earlier taken ih =>
    obtain ⟨grown, visited⟩ := ih fun e member => forward e (List.mem_append_left _ member)
    have more := leaves_of_step (forward _ (List.mem_append_right _ (List.mem_singleton_self _))) taken
    refine ⟨grown.trans more, fun e member => ?_⟩
    rcases List.mem_append.mp member with old | new
    · exact (visited e old).trans more
    · rw [List.mem_singleton.mp new]

/-- What such an execution shows, from beginning to end. -/
def script (tx : FrameTx) (scope : Word) (payer : Address) (c : Call) (result : Except Bytes Reply) (refund : Nat) : List Observation :=
  if scope = 3 then [.begun tx, .authorized (some 0) (.ok 3), .called c result, .finished refund]
  else [.begun tx, .authorized (some 0) (.ok 2), .started, .approved payer 1, .closed true, .called c result, .finished refund]

/-- Steps that show the given observations, one after another. -/
def Follows {σ : Type} (net : Network σ) : List Observation → Ledger σ → Ledger σ → Prop
  | [], first, last => last = first
  | shown :: rest, first, last => ∃ next, Step net first shown next ∧ Follows net rest next last

theorem follows_of_run {σ : Type} {net : Network σ} {first last : Ledger σ} {history : List (Entry σ)}
    (run : Run net first history last) : Follows net (history.map Entry.shown) first last := by
  induction history generalizing first with
  | nil => exact run_nil run
  | cons e rest ih => exact ⟨e.reached, (run_cons run).1, ih (run_cons run).2⟩

theorem run_of_follows {σ : Type} {net : Network σ} {first last : Ledger σ} {shown : List Observation}
    (follows : Follows net shown first last) : ∃ history, Run net first history last ∧ history.map Entry.shown = shown := by
  induction shown generalizing first with
  | nil =>
    obtain rfl := follows
    exact ⟨[], .start, rfl⟩
  | cons o rest ih =>
    obtain ⟨next, step, later⟩ := follows
    obtain ⟨history, run, same⟩ := ih later
    have first : Run net first [⟨o, next⟩] next := Run.start.step step
    exact ⟨⟨o, next⟩ :: history, run_append first run, by rw [List.map_cons, same]⟩

/-- Transaction `tx` is executed, and nothing else happens. -/
def Executes (net : Network State) (first : Ledger State) (tx : FrameTx) (scope : Word) (payer : Address) (c : Call)
    (result : Except Bytes Reply) (refund : Nat) (last : Ledger State) : Prop :=
  ∃ history, Run net first history last ∧ history.map Entry.shown = script tx scope payer c result refund

/-- The chain on which the frame that settles runs. -/
def paidFor (self payer : Address) (tx : FrameTx) (chain : Chain State) : Chain State :=
  paidChain self payer tx { chain with approved := false, payer := none }

/-- The chain after the refund. -/
def refunded (payer : Address) (refund : Nat) (chain : Chain State) : Chain State :=
  { chain with eth := Function.update chain.eth payer (chain.eth payer + refund), approved := false, payer := none }

/-- What an execution leaves. -/
structure Left (d : Deployment) (chain : Chain State) (tx : FrameTx) (f : Frame) (sp : Spend) (payer : Address)
    (result : Except Bytes Reply) (refund : Nat) (last : Ledger State) : Prop where
  ended : ∃ b ch, Settlement d (paidFor d.self payer tx chain) (settleCall tx f payer b) sp payer result ch ∧
    last = ⟨refunded payer refund ch, [], none⟩
  bound : refund ≤ tx.maxCost.toNat
  funds : tx.maxCost.toNat ≤ chain.eth payer

theorem Settlement.payer_eq {ch : Chain State} (ended : Settlement d chain c sp payer result ch) : ch.payer = chain.payer := by
  cases ended <;> rfl

/-- The last two steps. -/
theorem left_of_follows {p : Progress State} (same : p.tx = tx) (approved : Approved d p.tx scope f sp) (nonzero : payer.word ≠ 0)
    (written : ∀ data, c.publishes data = true)
    (position : Position d outside.approves (paidFor d.self payer tx chain) p scope) (funds : tx.maxCost.toNat ≤ chain.eth payer)
    (follows : Follows (dispatcherNetwork d image outside) [.called c result, .finished refund]
      ⟨paidFor d.self payer tx chain, [], some p⟩ last) : Left d chain tx f sp payer result refund last := by
  obtain ⟨middle, settles, end_, finishes, rfl⟩ := follows
  cases advance_of_step dispatcher_frameZero approved rfl position settles with
  | @settled b w _ ch index paid _ called =>
    obtain rfl : payer = w := Option.some.inj paid
    rw [call_of_due (dispatcherNetwork d image outside) approved index paid] at called written
    obtain ⟨-, ended⟩ := settlement_of_called approved nonzero written called
    rw [same] at ended
    cases finishes with
    | finish complete closed paid' bound room =>
      obtain rfl := Option.some.inj (paid'.symm.trans ended.payer_eq)
      exact ⟨⟨b, ch, ended, rfl⟩, same ▸ bound, funds⟩

/-- When the pool pays for itself, it does so in frame 0. -/
theorem Position.paid_of_self {p : Progress State} {approves : Address → Opcodes → Bytes → Word → Prop}
    (position : Position d approves chain p 3) : chain.payer ≠ none := by
  rcases position with ⟨sponsored, -⟩ | ⟨sponsored, -⟩ | ⟨-, -, paid, -⟩ | ⟨-, -, paid, -⟩
  · exact absurd sponsored (by decide)
  · exact absurd sponsored (by decide)
  · exact paid ▸ nofun
  · exact paid ▸ nofun

/-- The middle frame of a sponsored transaction. -/
theorem paid_of_follows {p : Progress State} {rest : List Observation} (index : p.index = 1)
    (approved : Approved d p.tx 2 f sp) (flag : chain.approved = true) (unpaid : chain.payer = none)
    (closed : p.start = none) (pays : PaidBy d outside.approves p.tx 2 payer)
    (follows : Follows (dispatcherNetwork d image outside) (.started :: .approved payer 1 :: .closed true :: rest) ⟨chain, [], some p⟩ last) :
    ∃ p', p'.tx = p.tx ∧ p.tx.maxCost.toNat ≤ chain.eth payer ∧
      Position d outside.approves (paidChain d.self payer p.tx chain) p' 2 ∧
      Follows (dispatcherNetwork d image outside) rest ⟨paidChain d.self payer p.tx chain, [], some p'⟩ last := by
  obtain ⟨l3, starts, l4, approves, l5, closes, rest⟩ := follows
  have position : Position d outside.approves chain p 2 := by
    refine .verified rfl index unpaid fun u started => ?_
    cases closed.symm.trans started
  cases advance_of_step dispatcher_frameZero approved flag position starts with
  | started =>
    have approved : Approved d { p with start := some chain }.tx 2 f sp := approved
    have position : Position d outside.approves chain { p with start := some chain } 2 := .verified rfl index unpaid fun u started => by
      cases started
      exact ⟨flag, unpaid⟩
    generalize shownIs : Observation.approved payer 1 = shown at approves
    cases advance_of_step dispatcher_frameZero approved flag position approves with
    | @paid q undo ch _ _ running target granted effect =>
      obtain ⟨rfl, -⟩ := Observation.approved.inj shownIs
      obtain ⟨⟨-, -, funds, -⟩, paid⟩ := fields_of_payment effect
      obtain rfl : ch = paidChain d.self q.target p.tx chain := by
        rw [paid, paidChain, ← flag]
        rfl
      have position : Position d outside.approves (paidChain d.self q.target p.tx chain) { p with start := some chain } 2 :=
        .paying rfl index (by intro started; cases started) rfl pays
      cases advance_of_step dispatcher_frameZero approved rfl position closes with
      | closed =>
        refine ⟨{ p with start := some chain }.next, rfl, funds, .due ?_ rfl rfl pays, rest⟩
        rcases lastIndex_of_shape approved.shape with ⟨two, -⟩ | ⟨-, two, -⟩
        · exact absurd two (by decide)
        · change p.index + 1 = lastIndex p.tx
          rw [index]
          exact two.symm
    | _ => cases shownIs

theorem left_of_executes (approved : Approved d tx scope f sp) (nonzero : payer.word ≠ 0) (written : ∀ data, c.publishes data = true)
    (pays : PaidBy d outside.approves tx scope payer)
    (executes : Executes (dispatcherNetwork d image outside) ⟨chain, [], none⟩ tx scope payer c result refund last) :
    Left d chain tx f sp payer result refund last := by
  obtain ⟨history, run, shown⟩ := executes
  have follows := follows_of_run run
  rw [shown, script] at follows
  cases pays with
  | pool =>
    rw [if_pos rfl] at follows
    obtain ⟨l1, begins, l2, authorizes, rest⟩ := follows
    cases begins
    cases authorizes with
    | authorize due target empty verify ran effect =>
      obtain ⟨flag, position⟩ := position_of_authorize rfl approved rfl rfl effect
      rcases fields_of_approve effect with rfl | ⟨-, funds, -, rfl⟩
      · exact absurd rfl position.paid_of_self
      · exact left_of_follows rfl approved nonzero written position funds rest
  | sponsor frame other approval =>
    rw [if_neg (by decide)] at follows
    obtain ⟨l1, begins, l2, authorizes, rest⟩ := follows
    cases begins
    cases authorizes with
    | authorize due target empty verify ran effect =>
      obtain ⟨flag, position⟩ := position_of_authorize rfl approved rfl rfl effect
      rcases fields_of_approve effect with rfl | ⟨-, -, -, rfl⟩
      · obtain ⟨p', same, funds, position, rest⟩ := paid_of_follows rfl approved rfl rfl rfl (.sponsor frame other approval) rest
        exact left_of_follows same (same ▸ approved) nonzero written position funds rest
      · rcases position.middle approved rfl rfl with ⟨unpaid, -⟩ | ⟨started, -⟩
        · cases unpaid
        · exact absurd rfl started

variable (image outside chain) in
/-- The call that settles has a result. -/
theorem called_of_settlement (approved : Approved d tx scope f sp) (nonzero : payer.word ≠ 0) {b : Block}
    (written : ∀ data, b.publishes data = true) (o : Opcodes) :
    ∃ result ch, Called (dispatcherNetwork d image outside) o true chain (settleCall tx f payer b) result ch [] := by
  have code (s : State) : (dispatcherNetwork d image outside).code.call (settleCall tx f payer b) s =
      settleRest d (settleCall tx f payer b) sp payer (noted s sp) := by
    rw [← settlement_eq approved nonzero, ← Dispatcher.call_eq d image]
    rfl
  have reverts {data : Bytes} (stopped : settleRest d (settleCall tx f payer b) sp payer (noted chain.pool sp) = .error data) :
      ∃ result ch, Called (dispatcherNetwork d image outside) o true chain (settleCall tx f payer b) result ch [] :=
    ⟨_, _, .reverted ((code _).trans stopped)⟩
  by_cases full : Overflows chain.pool {sp.outCm1, sp.outCm2}
  · exact reverts (settleRest_full d _ full)
  by_cases credits : CreditsFit d chain.pool sp payer
  · have caller : (settleCall tx f payer b).caller = (dispatcherNetwork d image outside).self := approved.sender
    have free : (settleCall tx f payer b).value.toNat = 0 := congrArg BitVec.toNat approved.value
    refine ⟨_, _, .returned ?_ ((code _).trans (settleRest_fits d _ full (written _) credits))⟩
    rw [caller, free]
    exact ⟨Nat.zero_le _, fun other => absurd rfl other⟩
  · exact reverts (settleRest_panics d _ full (written _) credits)

variable (image outside chain) in
/-- The last two steps can be taken. -/
theorem follows_of_due (p : Progress State) (approved : Approved d p.tx scope f sp) (nonzero : payer.word ≠ 0) {b : Block}
    (written : ∀ data, b.publishes data = true) (index : p.index = lastIndex p.tx) (closed : p.start = none)
    (flag : chain.approved = true) (paid : chain.payer = some payer) :
    ∃ result ch, Settlement d chain (settleCall p.tx f payer b) sp payer result ch ∧
      ∀ refund, refund ≤ p.tx.maxCost.toNat → ch.eth payer + refund < 2 ^ 256 →
        Follows (dispatcherNetwork d image outside) [.called (settleCall p.tx f payer b) result, .finished refund]
          ⟨chain, [], some p⟩ ⟨refunded payer refund ch, [], none⟩ := by
  obtain ⟨result, ch, called⟩ := called_of_settlement image outside chain approved nonzero written
    (Ledger.opcodes ⟨chain, [], some p⟩)
  obtain ⟨-, ended⟩ := settlement_of_called approved nonzero written called
  refine ⟨result, ch, ended, fun refund bound room => ?_⟩
  have call := call_of_due (b := b) (dispatcherNetwork d image outside) approved index paid
  have frame : p.frame = some f := by
    rw [Progress.frame, index]
    exact getLast_of_approved approved
  have mode : f.mode ≠ .verify := by
    rw [approved.mode]
    decide
  have length : p.next.index = p.next.tx.frames.length := by
    change p.index + 1 = p.tx.frames.length
    rcases lastIndex_of_shape approved.shape with ⟨-, last, length⟩ | ⟨-, last, length⟩ <;> omega
  have settles : Step (dispatcherNetwork d image outside) ⟨chain, [], some p⟩ (.called (settleCall p.tx f payer b) result)
      ⟨ch, [], some p.next⟩ := by
    rw [← call] at called ⊢
    exact .frameCall ⟨closed, frame⟩ approved.target (data_of_approved approved) mode (fun _ => flag) called
  have paid' : ch.payer = some payer := ended.payer_eq.trans paid
  exact ⟨_, settles, _, .finish length rfl paid' bound room, rfl⟩

/-- What it takes for a transaction to be executed. -/
structure Ready (d : Deployment) (image : Dispatcher.Image) (outside : Outside d.self) (chain : Chain State) (tx : FrameTx) (scope : Word)
    (payer : Address) : Prop where
  admissible : Admissible (dispatcherNetwork d image outside) chain tx
  authorized : Granted d (tx.opcodes 0 none) scope
  paying : PaidBy d outside.approves tx scope payer
  funds : tx.maxCost.toNat ≤ chain.eth payer

theorem follows_of_ready (ready : Ready d image outside chain tx scope payer) (approved : Approved d tx scope f sp) (nonzero : payer.word ≠ 0)
    {b : Block} (written : ∀ data, b.publishes data = true) :
    ∃ result ch, Settlement d (paidFor d.self payer tx chain) (settleCall tx f payer b) sp payer result ch ∧
      ∀ refund, refund ≤ tx.maxCost.toNat → ch.eth payer + refund < 2 ^ 256 →
        Follows (dispatcherNetwork d image outside) (script tx scope payer (settleCall tx f payer b) result refund)
          ⟨chain, [], none⟩ ⟨refunded payer refund ch, [], none⟩ := by
  let opened : Chain State := { chain with approved := false, payer := none }
  have sender : d.self = tx.sender := approved.sender.symm
  have fresh : opened.KeysFresh d.self tx := ready.admissible.fresh
  have begins : Step (dispatcherNetwork d image outside) ⟨chain, [], none⟩ (.begun tx) ⟨opened, [], some ⟨tx, 0, chain, none⟩⟩ :=
    .begin ready.admissible
  have ran (c : Call) : Dispatcher.authorize d image c (tx.opcodes 0 none) = .ok scope := dispatcher_authorize_ok.mpr ready.authorized
  have authorizes {v : Frame} {ch : Chain State} (verify : VerifyFrame d v) (frame : tx.frames[0]? = some v)
      (effect : opened.approve d.self tx d.self scope = some ch) :
      Step (dispatcherNetwork d image outside) ⟨opened, [], some ⟨tx, 0, chain, none⟩⟩ (.authorized (some 0) (.ok scope))
        ⟨ch, [], some ⟨tx, 1, chain, none⟩⟩ :=
    .authorize (b := b) ⟨rfl, frame⟩ verify.target verify.data verify.mode (ran _) effect
  rcases approved.shape with ⟨verify, frames, covered⟩ | @⟨v, q, verify, pay, frames⟩
  · obtain rfl : payer = d.self := by
      cases ready.paying
      rfl
    have effect : opened.approve d.self tx d.self 3 = some (paidFor d.self d.self tx chain) := by
      rw [Chain.approve, if_neg (by decide), if_neg (by decide), if_pos rfl, Chain.approveExecution, if_pos ⟨sender, rfl⟩]
      exact if_pos ⟨rfl, rfl, ready.funds, fresh⟩
    obtain ⟨result, ch, ended, rest⟩ := follows_of_due image outside (paidFor d.self d.self tx chain) ⟨tx, 1, chain, none⟩
      approved nonzero written (by rw [lastIndex, frames]; rfl) rfl rfl rfl
    refine ⟨result, ch, ended, fun refund bound room => ?_⟩
    rw [script, if_pos rfl]
    exact ⟨_, begins, _, authorizes verify (by rw [frames]; rfl) effect, rest refund bound room⟩
  · obtain ⟨target, approval, rfl⟩ : q.target ≠ d.self ∧ outside.approves q.target (tx.opcodes 1 none) q.data 1 ∧ payer = q.target := by
      cases ready.paying with
      | sponsor frame other approval =>
        rw [frames] at frame
        obtain rfl := Option.some.inj frame
        exact ⟨other, approval, rfl⟩
    have second : tx.frames[1]? = some q := by
      rw [frames]
      rfl
    let executed : Chain State := { opened with approved := true }
    have effect : opened.approve d.self tx d.self 2 = some executed := by
      rw [Chain.approve, if_neg (by decide), if_pos rfl, Chain.approveExecution]
      exact if_pos ⟨sender, rfl⟩
    have starts : Step (dispatcherNetwork d image outside) ⟨executed, [], some ⟨tx, 1, chain, none⟩⟩ .started
        ⟨executed, [], some ⟨tx, 1, chain, some executed⟩⟩ := by
      have other : ¬ q.mode = .sender := by
        rw [pay.mode]
        decide
      have start := @Step.frameStart _ (dispatcherNetwork d image outside) executed ⟨tx, 1, chain, none⟩ q
        ⟨rfl, second⟩ target (fun sends => absurd sends other) (fun sends => absurd sends other)
      rwa [if_neg other] at start
    have approves : Step (dispatcherNetwork d image outside) ⟨executed, [], some ⟨tx, 1, chain, some executed⟩⟩ (.approved q.target 1)
        ⟨paidFor d.self q.target tx chain, [], some ⟨tx, 1, chain, some executed⟩⟩ := by
      refine .approve rfl ⟨rfl, second⟩ target approval ?_
      rw [Chain.approve, if_pos rfl]
      exact if_pos ⟨rfl, rfl, ready.funds, fresh⟩
    have closes : Step (dispatcherNetwork d image outside) ⟨paidFor d.self q.target tx chain, [], some ⟨tx, 1, chain, some executed⟩⟩
        (.closed true) ⟨paidFor d.self q.target tx chain, [], some ⟨tx, 2, chain, none⟩⟩ :=
      .frameEnd ⟨rfl, second⟩ target fun _ same => by cases (Prod.ext_iff.mp same).2
    obtain ⟨result, ch, ended, rest⟩ := follows_of_due image outside (paidFor d.self q.target tx chain) ⟨tx, 2, chain, none⟩
      approved nonzero written (by rw [lastIndex, frames]; rfl) rfl rfl rfl
    refine ⟨result, ch, ended, fun refund bound room => ?_⟩
    rw [script, if_neg (by decide)]
    exact ⟨_, begins, _, authorizes verify (by rw [frames]; rfl) effect, _, starts, _, approves, _, closes, rest refund bound room⟩

/-- A transaction that is ready can be executed, with any refund its payer has room for. -/
theorem executes_of_ready (ready : Ready d image outside chain tx scope payer) (approved : Approved d tx scope f sp) (nonzero : payer.word ≠ 0)
    {b : Block} (written : ∀ data, b.publishes data = true) :
    ∃ result ch, Settlement d (paidFor d.self payer tx chain) (settleCall tx f payer b) sp payer result ch ∧
      ∀ refund, refund ≤ tx.maxCost.toNat → ch.eth payer + refund < 2 ^ 256 →
        Executes (dispatcherNetwork d image outside) ⟨chain, [], none⟩ tx scope payer (settleCall tx f payer b) result refund
          ⟨refunded payer refund ch, [], none⟩ := by
  obtain ⟨result, ch, ended, follows⟩ := follows_of_ready ready approved nonzero written
  exact ⟨result, ch, ended, fun refund bound room => run_of_follows (follows refund bound room)⟩

/-- The calldata of a deposit. -/
def depositData (inner : Word) : Bytes := selectorBytes Method.shield.selector ++ encodeWord inner

theorem length_depositData (inner : Word) : (depositData inner).length = 36 := by
  rw [depositData, List.length_append, length_selectorBytes, length_encodeWord]

/-- What the pool asks of a deposit. -/
structure Depositable (d : Deployment) (s : State) (inner value : Word) : Prop where
  positive : value ≠ 0
  small : value < maxValue
  canonical : inner < fieldP
  fresh : ¬ s.isLeaf (commitmentOf d inner value) = true
  room : s.nextIndex < 2 ^ depth

/-- The pool after a deposit. -/
def depositedIn (d : Deployment) (c : Call) (s : State) (inner : Word) : State :=
  (deposited d c s (commitmentOf d inner c.value)).publish (rootOf d (inserted d s (commitmentOf d inner c.value)))

theorem deposit_returns {s : State} {inner : Word} (data : c.data = depositData inner) (depositable : Depositable d s inner c.value)
    (written : ∀ data, c.publishes data = true) :
    Dispatcher.call d image c s = .ok (.returned (encodeWord (BitVec.ofNat 256 s.nextIndex)), depositedIn d c s inner) := by
  have selected : wordAt c.data 0 >>> 224 = Method.shield.selector := by
    rw [data]
    exact selector_selectorBytes _ (by decide) _
  have argument : wordAt c.data 4 = inner := by
    rw [data]
    exact (wordAt_selectorBytes Method.shield.selector (encodeWord inner) 0).trans (wordAt_encodeWord _)
  have length : c.data.length = 36 := by
    rw [data]
    exact length_depositData inner
  have selects : Selects c .shield := ⟨by omega, selected⟩
  have stored : shield d c inner s = .ok (s.nextIndex, depositedIn d c s inner) := by
    rw [shield_eq, if_neg depositable.positive, if_neg (BitVec.not_le.mpr depositable.small),
      if_neg (BitVec.not_le.mpr depositable.canonical), if_neg depositable.fresh, if_neg (Nat.not_le.mpr depositable.room),
      if_neg (by rw [written]; exact Bool.noConfusion)]
    rfl
  rw [Dispatcher.call_eq, Logic.call, dispatch_of_selects selects (fun free => by cases free) length.ge, body, argument, Exec.bind_ok stored]
  rfl

/-- Any account that may act and has the funds can deposit. -/
theorem step_of_deposit {l : Ledger State} {who : Address} {inner value : Word} {b : Block} (active : l.Active) (acts : outside.acts who)
    (other : who ≠ d.self) (depositable : Depositable d l.chain.pool inner value) (written : ∀ data, b.publishes data = true)
    (funds : Chain.CanMove l.chain.eth who d.self value.toNat) :
    Step (dispatcherNetwork d image outside) l
      (.called (l.call who value (depositData inner) b) (.ok (.returned (encodeWord (BitVec.ofNat 256 l.chain.pool.nextIndex)))))
      { l with chain := { l.chain with
        pool := depositedIn d (l.call who value (depositData inner) b) l.chain.pool inner
        eth := Chain.move l.chain.eth who d.self value.toNat } } := by
  have nonempty : depositData inner ≠ [] := by
    intro empty
    have size := length_depositData inner
    rw [empty] at size
    cases size
  have called : Called (dispatcherNetwork d image outside) l.opcodes false l.chain (l.call who value (depositData inner) b)
      (.ok (.returned (encodeWord (BitVec.ofNat 256 l.chain.pool.nextIndex)))) _ [] :=
    .returned funds (deposit_returns rfl depositable written)
  exact .call active acts other nonempty called

theorem hegota_root :
    rootOf Hegota.deployment
        (inserted Hegota.deployment genesis (commitmentOf Hegota.deployment Hegota.inner Hegota.shieldValue)) = Hegota.transfer.root := by
  decide +kernel

theorem hegota_depositable : Depositable Hegota.deployment genesis Hegota.inner Hegota.shieldValue where
  positive := by decide
  small := by decide
  canonical := by decide
  fresh := by decide
  room := by decide

/-- Every account starts with one ETH. -/
def hegotaLaunch : Ledger State := launch fun _ => 10 ^ 18

/-- The deposit of the recorded run. -/
def hegotaDeposit : Call := hegotaLaunch.call 0xbb#160 Hegota.shieldValue (depositData Hegota.inner) Hegota.block

/-- The chain after the deposit. -/
def hegotaChain : Chain State :=
  { hegotaLaunch.chain with
    pool := depositedIn Hegota.deployment hegotaDeposit genesis Hegota.inner
    eth := Chain.move (fun _ => 10 ^ 18) 0xbb#160 Hegota.address Hegota.shieldValue.toNat }

theorem hegota_ready : Ready Hegota.deployment Hegota.image Hegota.outside hegotaChain Hegota.transferTx 3 Hegota.address where
  admissible := by
    refine ⟨by decide, fun _ _ _ _ => nofun, fun r member _ => ?_⟩
    obtain rfl := List.mem_singleton.mp member
    have published : (dispatcherNetwork Hegota.deployment Hegota.image Hegota.outside).code.published hegotaChain.pool =
        [zeroRoot, rootOf Hegota.deployment (inserted Hegota.deployment genesis
          (commitmentOf Hegota.deployment Hegota.inner Hegota.shieldValue))] := rfl
    rw [published, hegota_root]
    exact List.mem_cons_of_mem _ List.mem_cons_self
  authorized := hegota_granted
  paying := .pool
  funds := by decide

theorem hegota_approved : Approved Hegota.deployment Hegota.transferTx 3 Hegota.settleFrame Hegota.transfer := by
  obtain ⟨-, f, sp, approved⟩ := approved_of_granted (by decide) hegota_granted
  obtain rfl : f = Hegota.settleFrame := (Option.some.inj (getLast_of_approved approved)).symm
  obtain rfl : sp = Hegota.transfer := approved.spend.trans hegota_spend
  exact approved

theorem hegota_fits : CreditsFit Hegota.deployment hegotaChain.pool Hegota.transfer Hegota.address where
  fee := fun due => absurd rfl due.2
  withdrawal := by decide

theorem hegota_room : ¬ Overflows hegotaChain.pool {Hegota.transfer.outCm1, Hegota.transfer.outCm2} := by
  have few : (freshOutputs hegotaChain.pool {Hegota.transfer.outCm1, Hegota.transfer.outCm2}).card ≤ 2 :=
    (Finset.card_filter_le _ _).trans Finset.card_le_two
  have index : hegotaChain.pool.nextIndex = 1 := rfl
  rw [Overflows, index, depth]
  omega

/-- The call that settles it. -/
def hegotaSettlement : Call := settleCall Hegota.transferTx Hegota.settleFrame Hegota.address Hegota.block

theorem hegota_run :
    ∃ history last, Run (dispatcherNetwork Hegota.deployment Hegota.image Hegota.outside) hegotaLaunch history last ∧
      history.map Entry.shown = .called hegotaDeposit (.ok (.returned (encodeWord 0))) ::
        script Hegota.transferTx 3 Hegota.address hegotaSettlement (.ok (.returned [])) 0 := by
  have written (data : Bytes) : Hegota.block.publishes data = true := rfl
  have active : hegotaLaunch.Active := fun p tx => by cases tx
  have deposits : Step (dispatcherNetwork Hegota.deployment Hegota.image Hegota.outside) hegotaLaunch
      (.called hegotaDeposit (.ok (.returned (encodeWord 0)))) ⟨hegotaChain, [], none⟩ :=
    step_of_deposit active trivial (by decide) hegota_depositable written ⟨by decide, fun _ => by decide⟩
  have payer : Hegota.address.word ≠ 0 := by decide
  obtain ⟨result, ch, ended, executes⟩ := executes_of_ready hegota_ready hegota_approved payer written
  cases ended with
  | full excess => exact absurd excess hegota_room
  | panics credits => exact absurd hegota_fits credits
  | settles room credits =>
    obtain ⟨history, run, shown⟩ := executes 0 (Nat.zero_le _) (by decide)
    exact ⟨⟨_, _⟩ :: history, _, run_append (Run.start.step deposits) run, by rw [List.map_cons, shown]; rfl⟩

end ShieldedPool.Proofs
