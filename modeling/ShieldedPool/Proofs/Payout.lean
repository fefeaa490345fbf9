import ShieldedPool.Proofs.Execution

/-! Credits on their way out: what a claim of either kind does to the pool, and that a payout which
its receiver accepts brings it the whole of its credit. -/

namespace ShieldedPool.Proofs
open Evm Exec

variable {d : Deployment} {image : Dispatcher.Image} {outside : Outside d.self} {s : State}

/-- The two kinds of credit. -/
inductive Kind where
  | withdrawal
  | fee

namespace Kind

def method : Kind → Method
  | withdrawal => .claimWithdrawal
  | fee => .claimFee

def credit : Kind → State → Address → Word
  | withdrawal => State.withdrawalCredit
  | fee => State.feeCredit

/-- The pool once a credit is being paid out. -/
def claimed (kind : Kind) (s : State) (who : Address) : State :=
  match kind with
  | withdrawal => (s.setWithdrawalCredit who 0).emit (.withdrawn who (s.withdrawalCredit who))
  | fee => (s.setFeeCredit who 0).emit (.feePaid who (s.feeCredit who))

/-- The calldata of a claim. -/
def data (kind : Kind) (who : Address) : Bytes := selectorBytes kind.method.selector ++ encodeWord who.word

theorem length_data (kind : Kind) (who : Address) : (kind.data who).length = 36 := by
  rw [data, List.length_append, length_selectorBytes, length_encodeWord]

theorem credit_claimed (kind : Kind) (s : State) (who : Address) : kind.credit (kind.claimed s who) who = 0 := by
  cases kind with
  | withdrawal => exact Function.update_self ..
  | fee => exact Function.update_self ..

theorem selects (kind : Kind) {c : Call} {who : Address} (called : c.data = kind.data who) : Selects c kind.method := by
  have length : c.data.length = 36 := by rw [called, length_data]
  refine ⟨by omega, ?_⟩
  rw [called]
  cases kind with
  | withdrawal => exact selector_selectorBytes _ (by decide) _
  | fee => exact selector_selectorBytes _ (by decide) _

/-- A claim by anybody starts the payout of the whole credit. -/
theorem pays (kind : Kind) {c : Call} {who : Address} (called : c.data = kind.data who) (free : c.value = 0)
    (owed : kind.credit s who ≠ 0) :
    Dispatcher.call d image c s = .ok (.payout who (kind.credit s who), kind.claimed s who) := by
  have length : c.data.length = 36 := by rw [called, length_data]
  have argument : wordAt c.data 4 = who.word := by
    rw [called]
    exact (wordAt_selectorBytes kind.method.selector (encodeWord who.word) 0).trans (wordAt_encodeWord _)
  have arg : addressArg c 4 s = .ok (who, s) := (addressArg_ok c).mpr ⟨argument, rfl⟩
  have selects := kind.selects called
  rw [Dispatcher.call_eq, Logic.call]
  cases kind with
  | withdrawal =>
    have selects : Selects c .claimWithdrawal := selects
    rw [dispatch_of_selects selects (fun _ => free) length.ge, body, bind_ok arg, claimWithdrawal, read_bind, throwIf_bind]
    exact (if_neg owed).trans rfl
  | fee =>
    have selects : Selects c .claimFee := selects
    rw [dispatch_of_selects selects (fun _ => free) length.ge, body, bind_ok arg, claimFee, read_bind, throwIf_bind]
    exact (if_neg owed).trans rfl

end Kind

/-- The chain on which a credit has been paid out. -/
def Kind.paidOut (kind : Kind) (self who : Address) (chain : Chain State) : Chain State :=
  { chain with
    pool := kind.claimed chain.pool who
    eth := Chain.move chain.eth self who (kind.credit chain.pool who).toNat }

/-- What a payout brings its receiver has left the pool. -/
theorem Kind.eth_paidOut (kind : Kind) {self who : Address} {chain : Chain State} (apart : who ≠ self)
    (funds : (kind.credit chain.pool who).toNat ≤ chain.eth self) :
    (kind.paidOut self who chain).eth who = chain.eth who + (kind.credit chain.pool who).toNat ∧
      (kind.paidOut self who chain).eth self + (kind.credit chain.pool who).toNat = chain.eth self := by
  have left : (kind.paidOut self who chain).eth self = chain.eth self - (kind.credit chain.pool who).toNat := by
    change Chain.move _ _ _ _ self = _
    rw [Chain.move, if_neg apart.symm, Function.update_of_ne apart.symm, Function.update_self]
  exact ⟨move_target apart, left ▸ Nat.sub_add_cancel funds⟩

/-- Any account that may act can claim a credit that the pool's ETH covers, and its receiver can take it. -/
theorem follows_of_claim {l : Ledger State} (kind : Kind) (active : l.Active) {caller who : Address} (acts : outside.acts caller)
    (other : caller ≠ d.self) (b : Block) (small : l.chain.eth d.self < 2 ^ 256) (apart : who ≠ d.self)
    (owed : kind.credit l.chain.pool who ≠ 0) (funds : (kind.credit l.chain.pool who).toNat ≤ l.chain.eth d.self)
    (room : l.chain.eth who + (kind.credit l.chain.pool who).toNat < 2 ^ 256) :
    Follows (dispatcherNetwork d image outside)
      [.called (l.call caller 0 (kind.data who) b) (.ok (.payout who (kind.credit l.chain.pool who))), .resumed (.ok [])]
      l { l with chain := kind.paidOut d.self who l.chain } := by
  have still : Chain.move l.chain.eth caller d.self (0 : Word).toNat = l.chain.eth := move_none _ _ _
  have nonempty : kind.data who ≠ [] := by
    intro empty
    have length := kind.length_data who
    rw [empty] at length
    cases length
  have payable : Chain.CanMove (Chain.move l.chain.eth caller d.self (0 : Word).toNat) d.self who
      (kind.credit l.chain.pool who).toNat := by
    rw [still]
    exact ⟨funds, fun _ => room⟩
  have called : Called (dispatcherNetwork d image outside) l.opcodes false l.chain (l.call caller 0 (kind.data who) b)
      (.ok (.payout who (kind.credit l.chain.pool who))) (kind.paidOut d.self who l.chain) [.payout l.chain false] := by
    rw [Kind.paidOut, ← still]
    exact .paying ⟨Nat.zero_le _, fun _ => small⟩ (kind.pays rfl rfl owed) apart payable
  have accepts (m : Ledger State) (top : m.stack = .payout l.chain false :: l.stack) :
      Step (dispatcherNetwork d image outside) m (.resumed (.ok [])) { m with stack := l.stack } :=
    .accept top (Dispatcher.resume_eq true)
  exact ⟨_, .call active acts other nonempty called, _, accepts _ rfl, rfl⟩

end ShieldedPool.Proofs
