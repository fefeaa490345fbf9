import ShieldedPool.Envelope

/-! The chain around one pool: ETH balances, the protocol's nonce keys, frame transactions,
and a call stack on which any other contract may call the pool again or revert what it did.
One step is one call, return or frame; what other accounts do is left open. -/

namespace ShieldedPool
open Evm

/-- The code at the pool's address: calls with data, the end of a payout, and the code
an empty call reaches, which approves a scope or reverts. -/
structure PoolCode (σ : Type) where
  call : Call → Exec σ Reply
  resume : Bool → Except Bytes Bytes
  authorize : Call → Opcodes → σ → Except Bytes Word
  published : σ → List Word

/-- A chain with one pool on it. `acts` are the accounts that may send calls and ETH of
their own accord, `approves` what the code of an account lets it APPROVE. -/
structure Network (σ : Type) where
  self : Address
  sourceId : Word
  entryPoint : Address
  apart : entryPoint ≠ self
  code : PoolCode σ
  acts : Address → Prop
  approves : Address → Opcodes → Bytes → Word → Prop

/-- `paid` are the transactions that consumed their nonce keys with the pool as sender.
The last two fields are the approvals of the frame transaction in progress. -/
structure Chain (σ : Type) where
  pool : σ
  eth : Address → Nat
  paid : List FrameTx
  approved : Bool
  payer : Option Address

namespace Chain
variable {σ : Type}

def consumed (chain : Chain σ) : List Word := chain.paid.flatMap FrameTx.nonceKeys

def CanMove (eth : Address → Nat) (src dst : Address) (amount : Nat) : Prop :=
  amount ≤ eth src ∧ (src ≠ dst → eth dst + amount < 2 ^ 256)

def move (eth : Address → Nat) (src dst : Address) (amount : Nat) : Address → Nat :=
  if src = dst then eth else Function.update (Function.update eth src (eth src - amount)) dst (eth dst + amount)

/-- APPROVE with the execution scope: only the sender's own code can give it. -/
def approveExecution (tx : FrameTx) (who : Address) (chain : Chain σ) : Option (Chain σ) :=
  if who = tx.sender ∧ chain.approved = false then some { chain with approved := true } else none

/-- A nonce key at sequence zero is good for one payment. -/
def KeysFresh (self : Address) (tx : FrameTx) (chain : Chain σ) : Prop :=
  tx.sender = self → tx.nonceSeq = 0 → ∀ k ∈ tx.nonceKeys, k ∉ chain.consumed

instance (self : Address) (tx : FrameTx) (chain : Chain σ) : Decidable (chain.KeysFresh self tx) :=
  inferInstanceAs (Decidable (_ → _))

/-- APPROVE with the payment scope: it consumes the nonce keys and takes the maximum cost. -/
def approvePayment (self : Address) (tx : FrameTx) (who : Address) (chain : Chain σ) : Option (Chain σ) :=
  if chain.approved = true ∧ chain.payer = none ∧ tx.maxCost.toNat ≤ chain.eth who ∧ chain.KeysFresh self tx then
    some { chain with
      payer := some who
      eth := Function.update chain.eth who (chain.eth who - tx.maxCost.toNat)
      paid := if tx.sender = self then chain.paid ++ [tx] else chain.paid }
  else none

/-- APPROVE by `who`, by the bits of its scope. -/
def approve (self : Address) (tx : FrameTx) (who : Address) (scope : Word) (chain : Chain σ) : Option (Chain σ) :=
  if scope = 1 then chain.approvePayment self tx who
  else if scope = 2 then chain.approveExecution tx who
  else if scope = 3 then do
    let executed ← chain.approveExecution tx who
    executed.approvePayment self tx who
  else none

end Chain

/-- A call that has not returned: a payout of the pool, which is the frame's own call when
it is `outermost`, or another contract's call. Its revert goes back to `undo`. -/
inductive Pending (σ : Type) where
  | payout (undo : Chain σ) (outermost : Bool)
  | scope (undo : Chain σ)

/-- A frame transaction in progress. An invalid one leaves the chain as it was `before`,
and a frame that reverts goes back to where it was at its `start`. -/
structure Progress (σ : Type) where
  tx : FrameTx
  index : Nat
  before : Chain σ
  start : Option (Chain σ)

structure Ledger (σ : Type) where
  chain : Chain σ
  stack : List (Pending σ)
  tx : Option (Progress σ)

/-- The block's part of a call's context. -/
structure Block where
  number : Word
  publishes : Bytes → Bool

inductive Observation where
  | quiet
  | called (c : Call) (result : Except Bytes Reply)
  | resumed (result : Except Bytes Bytes)
  | authorized (frame : Option Nat) (result : Except Bytes Word)
  | exhausted
  | begun (tx : FrameTx)
  | started
  | approved (who : Address) (scope : Word)
  | closed (completed : Bool)
  | finished (refund : Nat)
  | aborted

/-- The transaction in progress is over. -/
def Observation.Ends : Observation → Prop
  | .finished _ | .aborted => True
  | _ => False

namespace Progress
variable {σ : Type}

def frame (p : Progress σ) : Option Frame := p.tx.frames[p.index]?

/-- The current frame is over. -/
def next (p : Progress σ) : Progress σ := { p with index := p.index + 1, start := none }

/-- The frame that comes next has not been started, and it is `f`. -/
def Due (p : Progress σ) (f : Frame) : Prop := p.start = none ∧ p.frame = some f

/-- Frame `f` is running, from `undo` on. -/
def Running (p : Progress σ) (f : Frame) (undo : Chain σ) : Prop := p.start = some undo ∧ p.frame = some f

end Progress

namespace Ledger
variable {σ : Type}

def opcodes (l : Ledger σ) : Opcodes :=
  match l.tx with
  | none => .absent
  | some p => p.tx.opcodes p.index l.chain.payer

def call (l : Ledger σ) (caller : Address) (value : Word) (data : Bytes) (b : Block) : Call :=
  { caller, value, data, number := b.number, probe := EnvelopeProbe.reply l.opcodes, publishes := b.publishes }

/-- Code that can change state is running. A VERIFY frame is static. -/
def Active (l : Ledger σ) : Prop :=
  ∀ p, l.tx = some p → ∃ f undo, p.Running f undo ∧ f.mode ≠ .verify

end Ledger

/-- A call of the pool with data, from the chain it finds to the chain and the pending
calls it leaves. -/
inductive Called {σ : Type} (net : Network σ) (o : Opcodes) (outermost : Bool) (chain : Chain σ) (c : Call) :
    Except Bytes Reply → Chain σ → List (Pending σ) → Prop
  | returned {out pool} (funds : Chain.CanMove chain.eth c.caller net.self c.value.toNat)
      (ran : net.code.call c chain.pool = .ok (.returned out, pool)) :
      Called net o outermost chain c (.ok (.returned out))
        { chain with pool, eth := Chain.move chain.eth c.caller net.self c.value.toNat } []
  | paying {who amount pool} (funds : Chain.CanMove chain.eth c.caller net.self c.value.toNat)
      (ran : net.code.call c chain.pool = .ok (.payout who amount, pool)) (other : who ≠ net.self)
      (payable : Chain.CanMove (Chain.move chain.eth c.caller net.self c.value.toNat) net.self who amount.toNat) :
      Called net o outermost chain c (.ok (.payout who amount))
        { chain with pool, eth := Chain.move (Chain.move chain.eth c.caller net.self c.value.toNat) net.self who amount.toNat }
        [.payout chain outermost]
  -- The payout is more than the pool has, or goes to the pool's own empty-calldata code, which reverts.
  | unpaid {who amount pool data} (funds : Chain.CanMove chain.eth c.caller net.self c.value.toNat)
      (ran : net.code.call c chain.pool = .ok (.payout who amount, pool))
      (refused : Chain.move chain.eth c.caller net.self c.value.toNat net.self < amount.toNat ∨
        who = net.self ∧ ∃ e, net.code.authorize { c with caller := net.self, value := amount, data := [] } o pool = .error e)
      (ended : net.code.resume false = .error data) :
      Called net o outermost chain c (.error data) chain []
  | reverted {data} (ran : net.code.call c chain.pool = .error data) :
      Called net o outermost chain c (.error data) chain []

/-- What the protocol asks of a frame transaction: nonce keys in order, and references to
roots their sources have published. -/
structure Admissible {σ : Type} (net : Network σ) (chain : Chain σ) (tx : FrameTx) : Prop where
  ordered : tx.nonceKeys.Pairwise fun a b => a.toNat < b.toNat
  fresh : chain.KeysFresh net.self tx
  rooted : ∀ r ∈ tx.refs, r.source = net.sourceId → r.root ∈ net.code.published chain.pool

/-- The caller a frame's own call shows to its target. -/
def Network.callerOf {σ : Type} (net : Network σ) (tx : FrameTx) (f : Frame) : Address :=
  if f.mode = .sender then tx.sender else net.entryPoint

/-- Where a frame leaves the transaction: waiting for the payout its call has made, or done. -/
def Progress.after {σ : Type} (p : Progress σ) (undo : Chain σ) (stack : List (Pending σ)) : Progress σ :=
  match stack with
  | [] => p.next
  | _ => { p with start := some undo }

inductive Step {σ : Type} (net : Network σ) : Ledger σ → Observation → Ledger σ → Prop
  /-- Some other account calls the pool. -/
  | call {l : Ledger σ} {caller value data b result chain pending} (active : l.Active) (acts : net.acts caller)
      (other : caller ≠ net.self) (nonempty : data ≠ [])
      (called : Called net l.opcodes false l.chain (l.call caller value data b) result chain pending) :
      Step net l (.called (l.call caller value data b) result) { l with chain, stack := pending ++ l.stack }
  | touch {l : Ledger σ} {caller value b e} (active : l.Active) (acts : net.acts caller) (other : caller ≠ net.self)
      (refused : net.code.authorize (l.call caller value [] b) l.opcodes l.chain.pool = .error e) :
      Step net l (.authorized none (.error e)) l
  | accept {l : Ledger σ} {undo outermost rest out} (top : l.stack = .payout undo outermost :: rest)
      (ended : net.code.resume true = .ok out) :
      Step net l (.resumed (.ok out)) { l with stack := rest, tx := if outermost then l.tx.map Progress.next else l.tx }
  | refuse {l : Ledger σ} {undo outermost rest data} (top : l.stack = .payout undo outermost :: rest)
      (ended : net.code.resume false = .error data) :
      Step net l (.resumed (.error data))
        { chain := undo, stack := rest, tx := if outermost then l.tx.map Progress.next else l.tx }
  | enter {l : Ledger σ} (active : l.Active) : Step net l .quiet { l with stack := .scope l.chain :: l.stack }
  | leave {l : Ledger σ} {undo rest} (top : l.stack = .scope undo :: rest) : Step net l .quiet { l with stack := rest }
  | undo {l : Ledger σ} {undo rest} (top : l.stack = .scope undo :: rest) :
      Step net l .quiet { l with chain := undo, stack := rest }
  | move {l : Ledger σ} {src dst amount} (active : l.Active) (acts : net.acts src) (other : src ≠ net.self)
      (funds : Chain.CanMove l.chain.eth src dst amount) :
      Step net l .quiet { l with chain := { l.chain with eth := Chain.move l.chain.eth src dst amount } }
  /-- ETH the protocol credits to an account. -/
  | reward {l : Ledger σ} {dst amount} (room : l.chain.eth dst + amount < 2 ^ 256) :
      Step net l .quiet
        { l with chain := { l.chain with eth := Function.update l.chain.eth dst (l.chain.eth dst + amount) } }
  | begin {chain : Chain σ} {tx} (admissible : Admissible net chain tx) :
      Step net ⟨chain, [], none⟩ (.begun tx)
        ⟨{ chain with approved := false, payer := none }, [], some ⟨tx, 0, chain, none⟩⟩
  /-- A VERIFY frame runs the pool's empty-calldata code to an APPROVE. -/
  | authorize {chain approvedChain : Chain σ} {p : Progress σ} {f b scope} (due : p.Due f) (target : f.target = net.self)
      (empty : f.data = []) (verify : f.mode = .verify)
      (ran : net.code.authorize (Ledger.call ⟨chain, [], some p⟩ (net.callerOf p.tx f) f.value f.data b)
        (Ledger.opcodes ⟨chain, [], some p⟩) chain.pool = .ok scope)
      (effect : chain.approve net.self p.tx net.self scope = some approvedChain) :
      Step net ⟨chain, [], some p⟩ (.authorized (some p.index) (.ok scope)) ⟨approvedChain, [], some p.next⟩
  /-- Another frame on that code reverts. -/
  | unauthorized {chain : Chain σ} {p : Progress σ} {f b e} (due : p.Due f) (target : f.target = net.self)
      (empty : f.data = []) (mode : f.mode ≠ .verify) (permitted : f.mode = .sender → chain.approved = true)
      (ran : net.code.authorize (Ledger.call ⟨chain, [], some p⟩ (net.callerOf p.tx f) f.value f.data b)
        (Ledger.opcodes ⟨chain, [], some p⟩) chain.pool = .error e) :
      Step net ⟨chain, [], some p⟩ (.authorized (some p.index) (.error e)) ⟨chain, [], some p.next⟩
  /-- A frame calls the pool with data. -/
  | frameCall {chain chain' : Chain σ} {p : Progress σ} {f b result pending} (due : p.Due f) (target : f.target = net.self)
      (nonempty : f.data ≠ []) (mode : f.mode ≠ .verify) (permitted : f.mode = .sender → chain.approved = true)
      (called : Called net (Ledger.opcodes ⟨chain, [], some p⟩) true chain
        (Ledger.call ⟨chain, [], some p⟩ (net.callerOf p.tx f) f.value f.data b) result chain' pending) :
      Step net ⟨chain, [], some p⟩ (.called (Ledger.call ⟨chain, [], some p⟩ (net.callerOf p.tx f) f.value f.data b) result)
        ⟨chain', pending, some (p.after chain pending)⟩
  /-- Such a call runs out of gas and takes its whole frame down. -/
  | frameExhausted {chain : Chain σ} {p : Progress σ} {f} (due : p.Due f) (target : f.target = net.self)
      (nonempty : f.data ≠ []) (mode : f.mode ≠ .verify) (permitted : f.mode = .sender → chain.approved = true) :
      Step net ⟨chain, [], some p⟩ .exhausted ⟨chain, [], some p.next⟩
  /-- A frame runs some other account's code. -/
  | frameStart {chain : Chain σ} {p : Progress σ} {f} (due : p.Due f) (target : f.target ≠ net.self)
      (permitted : f.mode = .sender → chain.approved = true)
      (funds : f.mode = .sender → Chain.CanMove chain.eth p.tx.sender f.target f.value.toNat) :
      Step net ⟨chain, [], some p⟩ .started
        ⟨if f.mode = .sender then { chain with eth := Chain.move chain.eth p.tx.sender f.target f.value.toNat } else chain,
          [], some { p with start := some chain }⟩
  | approve {l : Ledger σ} {approvedChain : Chain σ} {p : Progress σ} {f undo scope} (current : l.tx = some p)
      (running : p.Running f undo) (target : f.target ≠ net.self)
      (approves : net.approves f.target l.opcodes f.data scope)
      (effect : l.chain.approve net.self p.tx f.target scope = some approvedChain) :
      Step net l (.approved f.target scope) { l with chain := approvedChain }
  | frameEnd {chain : Chain σ} {p : Progress σ} {f undo} (running : p.Running f undo) (target : f.target ≠ net.self)
      (verified : f.mode = .verify → (chain.approved, chain.payer) ≠ (undo.approved, undo.payer)) :
      Step net ⟨chain, [], some p⟩ (.closed true) ⟨chain, [], some p.next⟩
  | frameRevert {chain undo : Chain σ} {p : Progress σ} {f} (running : p.Running f undo) (target : f.target ≠ net.self)
      (mode : f.mode ≠ .verify) :
      Step net ⟨chain, [], some p⟩ (.closed false) ⟨undo, [], some p.next⟩
  /-- The transaction turns out invalid and is not included. -/
  | abort {chain : Chain σ} {stack} {p : Progress σ} : Step net ⟨chain, stack, some p⟩ .aborted ⟨p.before, [], none⟩
  /-- All frames are over and the payer gets back what was not used. -/
  | finish {chain : Chain σ} {p : Progress σ} {payer refund} (complete : p.index = p.tx.frames.length) (closed : p.start = none)
      (paid : chain.payer = some payer) (bound : refund ≤ p.tx.maxCost.toNat)
      (room : chain.eth payer + refund < 2 ^ 256) :
      Step net ⟨chain, [], some p⟩ (.finished refund)
        ⟨{ chain with eth := Function.update chain.eth payer (chain.eth payer + refund), approved := false, payer := none },
          [], none⟩

/-- What a step has shown and the ledger it has led to. -/
structure Entry (σ : Type) where
  shown : Observation
  reached : Ledger σ

/-- Steps one after another, with a record of each. -/
inductive Run {σ : Type} (net : Network σ) (first : Ledger σ) : List (Entry σ) → Ledger σ → Prop
  | start : Run net first [] first
  | step {history : List (Entry σ)} {middle shown last} (run : Run net first history middle) (step : Step net middle shown last) :
      Run net first (history ++ [⟨shown, last⟩]) last

end ShieldedPool
