import ShieldedPool.Pool

/-! What the pool owes and has paid, kept outside its storage: a tally of the credits that
settlements give and of the ETH that claims send, by account. -/

namespace ShieldedPool
open Evm

/-- What has been credited to each account, and what has been sent to it. -/
structure Account where
  credited : Address → Nat
  sent : Address → Nat

namespace Account

def empty : Account := ⟨fun _ => 0, fun _ => 0⟩

def credit (a : Account) (who : Address) (amount : Nat) : Account :=
  { a with credited := Function.update a.credited who (a.credited who + amount) }

def send (a : Account) (who : Address) (amount : Nat) : Account :=
  { a with sent := Function.update a.sent who (a.sent who + amount) }

/-- What is still owed is what `owed` says. -/
def Exact (a : Account) (owed : Address → Word) : Prop := ∀ who, a.credited who = (owed who).toNat + a.sent who

end Account

structure Tally where
  withdrawals : Account
  fees : Account

/-- Who has paid for the transaction, by EnvelopeProbe's report. -/
def payerOf (c : Call) : Address := Address.ofWord (Facts.decode (c.probe.getD [])).payerWord

def selectorOf (c : Call) : Word := wordAt c.data 0 >>> 224

namespace Tally

def empty : Tally := ⟨Account.empty, Account.empty⟩

/-- A settlement owes its fee to whoever has paid for the transaction but the pool. -/
def settle (d : Deployment) (c : Call) (t : Tally) : Tally :=
  if payerOf c = d.self then t
  else { t with fees := t.fees.credit (payerOf c) (Spend.decode c.data 4).fee.toNat }

/-- What a call that returns, or begins its payout, adds. -/
def record (d : Deployment) (c : Call) (t : Tally) : Reply → Tally
  | .payout who amount =>
    if selectorOf c = Method.selector .claimWithdrawal then { t with withdrawals := t.withdrawals.send who amount.toNat }
    else { t with fees := t.fees.send who amount.toNat }
  | .returned _ =>
    if selectorOf c = Method.selector .withdraw then
      { t.settle d c with
        withdrawals := t.withdrawals.credit (Address.ofWord (Spend.decode c.data 4).ctx) (Spend.decode c.data 4).publicAmount.toNat }
    else if selectorOf c = Method.selector .transfer then t.settle d c
    else t

end Tally

/-- The dispatcher with a tally beside its storage. A revert takes back both. -/
def Dispatcher.accountedCode (d : Deployment) (image : Dispatcher.Image) : PoolCode (State × Tally) where
  call := fun c s => (Dispatcher.call d image c s.1).map fun done => (done.1, (done.2, s.2.record d c done.1))
  resume := Dispatcher.resume
  authorize := fun c o _ => Dispatcher.authorize d image c o
  published := fun s => s.1.published

def accountedNetwork (d : Deployment) (image : Dispatcher.Image) (outside : Outside d.self) : Network (State × Tally) :=
  networkOf d outside (Dispatcher.accountedCode d image)

def accountedLaunch (eth : Address → Nat) : Ledger (State × Tally) where
  chain := { pool := (genesis, Tally.empty), eth, paid := [], approved := false, payer := none }
  stack := []
  tx := none

end ShieldedPool
