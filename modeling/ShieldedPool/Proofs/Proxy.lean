import ShieldedPool.Dispatcher

/-! The proxy passes everything through: a call of the dispatcher with data is the call of
the implementation on the dispatcher's own storage, byte for byte. -/

namespace ShieldedPool.Proofs
open Evm Yul PoolYul Exec

variable {ω : Type}

/-- Reading back an address the constructor appended to the code. -/
theorem immutableAt_run {env : Env} {before after : Bytes} {a : Address} {fromEnd : Nat}
    (code : env.code = before ++ encodeWord a.word ++ after) (place : fromEnd = 32 + after.length) (m : Machine ω) :
    immutableAt env fromEnd m = .ok (a.word, { m with memory := m.memory.storeWord 0 a.word }) := by
  have start : env.code.length - fromEnd = before.length := by
    rw [code, place]
    simp
  have bytes : slice env.code (env.code.length - fromEnd) 32 = encodeWord a.word := by
    rw [start, slice_load _ _ _ (by rw [code]; simp), code, List.append_assoc, List.drop_left, List.take_left' (by simp)]
  have loaded : (m.memory.storeWord 0 a.word).loadWord 0 = a.word := Memory.loadWord_storeWord_same ..
  have ran : immutableAt env fromEnd m = .ok (Op.and ((m.memory.store 0 (slice env.code (env.code.length - fromEnd) 32)).loadWord 0)
      Op.addressMask, { m with memory := m.memory.store 0 (slice env.code (env.code.length - fromEnd) 32) }) := rfl
  rw [ran, bytes, ← Memory.storeWord, loaded, Op.and_addressMask, Address.ofWord_word]

namespace Dispatcher
open ShieldedPool.Dispatcher

theorem relay_ok (out : Bytes) (m : Machine ω) :
    relay true out m = .ok (out, { m with returndata := out, memory := m.memory.store 0 out }) :=
  congrArg (fun bytes => Except.ok (bytes, _)) (Memory.load_store_same m.memory 0 out)

theorem relay_error (out : Bytes) (m : Machine ω) : relay false out m = .error out :=
  congrArg Except.error (Memory.load_store_same m.memory 0 out)

/-- The dispatcher behaves as its implementation does. -/
theorem call_eq (d : Deployment) (image : Image) (c : Call) : call d image c = Logic.call d c := by
  funext s
  have target (m : Machine State) : impl (environment d image c) m =
      .ok (image.impl.word, { m with memory := m.memory.storeWord 0 image.impl.word }) :=
    immutableAt_run rfl (by simp) m
  have data (memory : Memory) : (memory.store 0 c.data).load 0 c.data.length = c.data := Memory.load_store_same ..
  rw [call, proxy, bind_ok (target _)]
  simp only [copy, Exec.update_bind, delegatecall, memoryRange, Exec.read_bind, Machine.start, data, codeAt,
    Address.ofWord_word, if_pos]
  cases ran : Logic.call d c s with
  | error out => simp only [bind_error (relay_error out _)]
  | ok answer =>
    obtain ⟨reply, t⟩ := answer
    cases reply with
    | returned out =>
      simp only [bind_ok (relay_ok out _)]
      rfl
    | payout who amount => rfl

theorem resume_eq (accepted : Bool) : resume accepted = finishClaim accepted := by
  rw [resume]
  cases ended : finishClaim accepted with
  | ok out => simp only [relay_ok]
  | error out => simp only [relay_error]

end Dispatcher

end ShieldedPool.Proofs
