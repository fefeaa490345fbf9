import ShieldedPool.Proofs.Stages

/-! The frame that settles, on the chain: what its call of the pool leads to once frame 0 has
approved and the transaction has been paid for. -/

namespace ShieldedPool.Proofs
open Evm

variable {d : Deployment} {image : Dispatcher.Image} {outside : Outside d.self} {scope : Word} {f : Frame} {sp : Spend}
  {chain ch : Chain State} {payer : Address} {b : Block} {o : Opcodes} {result : Except Bytes Reply} {pending : List (Pending State)}

theorem move_self (eth : Address → Nat) (a : Address) (amount : Nat) : Chain.move eth a a amount = eth := if_pos rfl

theorem move_none (eth : Address → Nat) (src dst : Address) : Chain.move eth src dst 0 = eth := by
  rw [Chain.move]
  split_ifs
  · rfl
  · rw [Nat.sub_zero, Function.update_eq_self, Nat.add_zero, Function.update_eq_self]

theorem move_other {eth : Address → Nat} {src dst a : Address} {amount : Nat} (from_ : a ≠ src) (to_ : a ≠ dst) :
    Chain.move eth src dst amount a = eth a := by
  rw [Chain.move]
  split_ifs
  · rfl
  · rw [Function.update_of_ne to_, Function.update_of_ne from_]

theorem move_target {eth : Address → Nat} {src dst : Address} {amount : Nat} (apart : dst ≠ src) :
    Chain.move eth src dst amount dst = eth dst + amount := by
  rw [Chain.move, if_neg apart.symm, Function.update_self]

theorem le_move {eth : Address → Nat} {src dst a : Address} {amount : Nat} (from_ : a ≠ src) :
    eth a ≤ Chain.move eth src dst amount a := by
  by_cases to_ : a = dst
  · subst to_
    rw [move_target from_]
    exact Nat.le_add_right _ _
  · exact (move_other from_ to_).ge

theorem le_update (eth : Address → Nat) (dst : Address) (amount : Nat) (a : Address) :
    eth a ≤ Function.update eth dst (eth dst + amount) a := by
  by_cases here : a = dst
  · subst here
    rw [Function.update_self]
    exact Nat.le_add_right _ _
  · rw [Function.update_of_ne here]

/-- What the call that settles can end in. -/
inductive Settlement (d : Deployment) (chain : Chain State) (c : Call) (sp : Spend) (payer : Address) :
    Except Bytes Reply → Chain State → Prop
  | full (excess : Overflows chain.pool {sp.outCm1, sp.outCm2}) : Settlement d chain c sp payer (.error Error.treeFull.data) chain
  | panics (credits : ¬ CreditsFit d chain.pool sp payer) : Settlement d chain c sp payer (.error arithmeticPanic) chain
  | settles (room : ¬ Overflows chain.pool {sp.outCm1, sp.outCm2}) (credits : CreditsFit d chain.pool sp payer) :
      Settlement d chain c sp payer (.ok (.returned [])) { chain with pool := outcome d c chain.pool sp payer }

theorem settlement_of_called {tx : FrameTx} (approved : Approved d tx scope f sp) (nonzero : payer.word ≠ 0)
    (written : ∀ data, b.publishes data = true)
    (called : Called (dispatcherNetwork d image outside) o true chain (settleCall tx f payer b) result ch pending) :
    pending = [] ∧ Settlement d chain (settleCall tx f payer b) sp payer result ch := by
  have code (s : State) : (dispatcherNetwork d image outside).code.call (settleCall tx f payer b) s =
      settleRest d (settleCall tx f payer b) sp payer (noted s sp) := by
    rw [← settlement_eq approved nonzero, ← Dispatcher.call_eq d image]
    rfl
  have ends : settleRest d (settleCall tx f payer b) sp payer (noted chain.pool sp) = .error Error.treeFull.data ∧
        Overflows chain.pool {sp.outCm1, sp.outCm2} ∨
      settleRest d (settleCall tx f payer b) sp payer (noted chain.pool sp) = .error arithmeticPanic ∧
        ¬ CreditsFit d chain.pool sp payer ∨
      settleRest d (settleCall tx f payer b) sp payer (noted chain.pool sp) =
          .ok (.returned [], outcome d (settleCall tx f payer b) chain.pool sp payer) ∧
        ¬ Overflows chain.pool {sp.outCm1, sp.outCm2} ∧ CreditsFit d chain.pool sp payer := by
    by_cases full : Overflows chain.pool {sp.outCm1, sp.outCm2}
    · exact .inl ⟨settleRest_full d _ full, full⟩
    by_cases credits : CreditsFit d chain.pool sp payer
    · exact .inr (.inr ⟨settleRest_fits d _ full (written _) credits, full, credits⟩)
    · exact .inr (.inl ⟨settleRest_panics d _ full (written _) credits, credits⟩)
  cases called with
  | returned funds ran =>
    rw [code] at ran
    rcases ends with ⟨stopped, -⟩ | ⟨stopped, -⟩ | ⟨settled, room, credits⟩
    · rw [stopped] at ran
      cases ran
    · rw [stopped] at ran
      cases ran
    · rw [settled] at ran
      cases ran
      refine ⟨rfl, ?_⟩
      have kept : Chain.move chain.eth (settleCall tx f payer b).caller (dispatcherNetwork d image outside).self
          (settleCall tx f payer b).value.toNat = chain.eth := by
        have caller : (settleCall tx f payer b).caller = (dispatcherNetwork d image outside).self := approved.sender
        rw [caller, move_self]
      rw [kept]
      exact .settles room credits
  | paying funds ran | unpaid funds ran =>
    rw [code] at ran
    rcases ends with ⟨stopped, -⟩ | ⟨stopped, -⟩ | ⟨settled, -⟩ <;>
      · first | rw [stopped] at ran | rw [settled] at ran
        cases ran
  | reverted ran =>
    rw [code] at ran
    refine ⟨rfl, ?_⟩
    rcases ends with ⟨stopped, full⟩ | ⟨stopped, credits⟩ | ⟨settled, -⟩
    · rw [stopped] at ran
      cases ran
      exact .full full
    · rw [stopped] at ran
      cases ran
      exact .panics credits
    · rw [settled] at ran
      cases ran

/-- The call that the last frame of an approved transaction makes. -/
theorem call_of_due {p : Progress State} (net : Network State) (approved : Approved d p.tx scope f sp) (index : p.index = lastIndex p.tx)
    (paid : chain.payer = some payer) :
    Ledger.call ⟨chain, [], some p⟩ (net.callerOf p.tx f) f.value f.data b = settleCall p.tx f payer b := by
  have caller : net.callerOf p.tx f = p.tx.sender := if_pos approved.mode
  rw [Ledger.call, caller, settleCall]
  simp only [Ledger.opcodes, index, paid]

end ShieldedPool.Proofs
