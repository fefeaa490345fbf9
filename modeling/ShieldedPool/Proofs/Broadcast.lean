import ShieldedPool.Tooling.PoolFrametx
import ShieldedPool.Proofs.Wire

/-! What the tooling sends. A call of `build_and_send` is one conversation with the node; a spend
goes out only after its simulation, and the last check lets a result without a status pass. -/

namespace ShieldedPool.Tooling
open Evm Client

variable {tools : Tools} {job : Job} {answers : Nat → Option Json} {α : Type}

abbrev Log := List (Request × Option Json)

/-- What a request comes to, when its answer is read with `f`. -/
def reads (f : Json → Except Raised Json) : Option Json → Except Raised Json
  | some body => f body
  | none => .error .transport

theorem talk_post (method : String) (params : List Json) (f : Json → Except Raised Json) :
    (post method params >>= fun body => ofExcept (f body)).talk answers =
      ([(⟨method, params⟩, answers 0)], reads f (answers 0)) := by
  let after (answer : Option Json) := ((match answer with
    | some body => pure body
    | none => raised .transport : Rpc Json) >>= fun body => ofExcept (f body)).talk (later answers 1)
  have asked : (post method params >>= fun body => ofExcept (f body)).talk answers =
      ((⟨method, params⟩, answers 0) :: (after (answers 0)).1, (after (answers 0)).2) := rfl
  have ended : ∀ answer, after answer = ([], reads f answer) := by
    intro answer
    cases answer with
    | none => rfl
    | some body => exact talk_ofExcept (f body)
  rw [asked, ended]

theorem talk_rpc (method : String) (params : List Json) :
    (rpc method params).talk answers = ([(⟨method, params⟩, answers 0)], reads (result method) (answers 0)) :=
  talk_post ..

theorem talk_simulate (raw : String) :
    (simulate raw).talk answers =
      ([(⟨"ethrex_simulateFrameTransaction", [.str raw]⟩, answers 0)], reads simulation (answers 0)) :=
  talk_post ..

theorem talk_rpc_bind_eq_ok {method : String} {params : List Json} {f : Json → Rpc α} {log : Log} {value : α} :
    (rpc method params >>= f).talk answers = (log, .ok value) ↔ ∃ r rest, reads (result method) (answers 0) = .ok r ∧
      (f r).talk (later answers 1) = (rest, .ok value) ∧ log = (⟨method, params⟩, answers 0) :: rest := by
  rw [talk_bind_eq_ok, talk_rpc]
  constructor
  · rintro ⟨first, r, rest, begun, followed, rfl⟩
    obtain ⟨rfl, read⟩ := Prod.mk.inj begun
    exact ⟨r, rest, read, followed, rfl⟩
  · rintro ⟨r, rest, read, followed, rfl⟩
    exact ⟨[(⟨method, params⟩, answers 0)], r, rest, by rw [read], followed, rfl⟩

/-- The first three answers can be read, and the fees agree. -/
structure Prepared (tools : Tools) (job : Job) (answers : Nat → Option Json) (c : Context) : Prop where
  sender : c.sender = job.sender tools
  address : Wire.IsAddress (job.sender tools)
  chainId : ∃ r, reads (result "eth_chainId") (answers 0) = .ok r ∧ quantity r = .ok c.chainId
  nonce : ∃ r, reads (result "eth_getTransactionCount") (answers 1) = .ok r ∧ quantity r = .ok c.nonce
  fees : ∃ blk r baseFee, reads (result "eth_getBlockByNumber") (answers 2) = .ok blk ∧
    blk.getD "baseFeePerGas" (.str "0x0") = .ok r ∧ quantity r = .ok baseFee ∧ baseFee ≤ job.maxFee baseFee ∧
    job.maxPriority ≤ job.maxFee baseFee ∧ c.maxFee = job.maxFee baseFee
  priority : c.maxPriority = job.maxPriority

theorem encoded_ok {x : Option α} {a : α} : encoded x = .ok a ↔ x = some a := by
  cases x <;> simp [encoded]

theorem prepare_ok {log : Log} {c : Context} (ended : (prepare tools job).talk answers = (log, .ok c)) :
    Prepared tools job answers c ∧ log.length = 3 := by
  simp only [prepare, talk_rpc_bind_eq_ok, talk_lift_bind_eq_ok] at ended
  obtain ⟨r, _, first, ⟨chainId, id, nonceAddress, address, r', _, second, ⟨nonce, count, blk, _, third,
    ⟨fee, field, baseFee, base, last⟩, rfl⟩, rfl⟩, rfl⟩ := ended
  have named : Wire.IsAddress (job.sender tools) := by
    rw [← Wire.isSome_addr20, Wire.addr20, encoded_ok.mp address]
    rfl
  split_ifs at last with unfit
  · cases last
  · cases last
    rw [not_or, not_lt, not_lt] at unfit
    exact ⟨⟨rfl, named, ⟨r, first, id⟩, ⟨r', second, count⟩, ⟨blk, fee, baseFee, third, field, base, unfit.1, unfit.2, rfl⟩, rfl⟩,
      rfl⟩

theorem prepare_of_prepared {c : Context} (prepared : Prepared tools job answers c) :
    ∃ log, (prepare tools job).talk answers = (log, .ok c) := by
  obtain ⟨sender, address, ⟨r, first, id⟩, ⟨r', second, count⟩, ⟨blk, fee, baseFee, third, field, base, high, low, maxFee⟩,
    priority⟩ := prepared
  obtain ⟨nonceAddress, encodes⟩ := Option.isSome_iff_exists.mp ((Wire.isSome_addr20 _).mpr address)
  have fields : c = ⟨job.sender tools, c.chainId, c.nonce, job.maxPriority, job.maxFee baseFee⟩ := by
    rw [← sender, ← priority, ← maxFee]
  simp only [prepare, talk_rpc_bind_eq_ok, talk_lift_bind_eq_ok]
  refine ⟨_, r, _, first, ⟨_, id, nonceAddress, encoded_ok.mpr encodes, r', _, second, ⟨_, count, blk, [], third,
    ⟨fee, field, baseFee, base, ?_⟩, rfl⟩, rfl⟩, rfl⟩
  rw [if_neg (not_or.mpr ⟨not_lt.mpr high, not_lt.mpr low⟩), ← fields]
  rfl

theorem encodable_signed {c : Context} {gas : Int} {signature : Bytes} (other : Bytes)
    (encodable : (unsigned tools job c gas signature).Encodable) : (unsigned tools job c gas other).Encodable := by
  obtain ⟨chainId, nonceKeys, nonceSeq, sender, frames, signatures, maxPriorityFee, maxFee, maxBlobFee, refs⟩ := encodable
  obtain ⟨scheme, signer⟩ := signatures _ (List.mem_singleton.mpr rfl)
  refine ⟨chainId, nonceKeys, nonceSeq, sender, frames, ?_, maxPriorityFee, maxFee, maxBlobFee, refs⟩
  intro s member
  obtain rfl := List.mem_singleton.mp member
  exact ⟨scheme, signer⟩

/-- A transaction can be built and put into bytes when every number in it has an encoding. -/
theorem build_iff {c : Context} {gas : Int} :
    (∃ tx raw, build tools job c gas = .ok tx ∧ rawText tx = .ok raw) ↔ (unsigned tools job c gas []).Encodable := by
  constructor
  · rintro ⟨tx, raw, built, -⟩
    rw [← Wire.FrameTx.isSome_sigHash tools.keccak]
    cases hash : (unsigned tools job c gas []).sigHash tools.keccak with
    | none =>
      rw [build, hash] at built
      cases built
    | some w => rfl
  · intro encodable
    obtain ⟨hash, hashed⟩ := Option.isSome_iff_exists.mp ((Wire.FrameTx.isSome_sigHash tools.keccak _).mpr encodable)
    let tx := unsigned tools job c gas ((if (tools.sign hash).1 then 28#8 else 27#8) ::
      (encodeWord (tools.sign hash).2.1 ++ encodeWord (tools.sign hash).2.2))
    obtain ⟨bytes, sent⟩ := Option.isSome_iff_exists.mp ((Wire.FrameTx.isSome_raw tx).mpr (encodable_signed _ encodable))
    refine ⟨tx, hexText bytes, ?_, ?_⟩
    · rw [build, hashed]
      rfl
    · rw [rawText, sent]
      rfl

/-- The part of `build_and_send` that comes before it sends: the bytes it has settled on. -/
def decided (tools : Tools) (job : Job) : Rpc String := do
  let c ← prepare tools job
  let tx ← build tools job c job.senderGas
  let raw ← rawText tx
  save job
  let sim ← simulate raw
  let chosen ← examine tools job c ⟨tx, raw, sim⟩
  gate chosen.eff
  announce chosen.tx
  return chosen.raw

theorem buildAndSend_eq : buildAndSend tools job false = decided tools job >>= broadcast := by
  simp only [buildAndSend, decided, bind_assoc, pure_bind, Bool.false_eq_true, if_false]

theorem save_ok : save job = .ok () ↔ job.saved = true := by
  rw [save]
  split_ifs with saved
  · exact iff_of_true rfl saved
  · exact iff_of_false nofun saved

/-- The node finds the transaction valid. -/
def Valid (sim : Json) : Prop := ∃ v, sim.get "valid" = .ok v ∧ v.truthy = true

theorem examine_given {c : Context} {first : Choice} (given : first.eff ≠ .null) :
    examine tools job c first = judge tools job c first := by
  rw [examine]
  cases eff : first.eff with
  | null => exact absurd eff given
  | bool | num | str | arr | obj => rfl

theorem not_null {sim : Json} (valid : Valid sim) : sim ≠ .null := by
  rintro rfl
  obtain ⟨_, none, -⟩ := valid
  cases none

theorem judge_spend (spend : job.protocolNonces ≠ []) {c : Context} {first chosen : Choice} {log : Log} :
    (judge tools job c first).talk answers = (log, .ok chosen) ↔
      Valid first.eff ∧ (∃ used, gasUsed first.eff = .ok used) ∧ log = [] ∧ chosen = first := by
  rw [judge, talk_lift_bind_eq_ok]
  constructor
  · rintro ⟨valid, found, ended⟩
    by_cases truthy : valid.truthy = true
    · rw [if_pos truthy, talk_lift_bind_eq_ok] at ended
      obtain ⟨used, read, ended⟩ := ended
      have kept : (pure first : Rpc Choice).talk answers = (log, .ok chosen) := by
        cases used with
        | none => exact ended
        | some used => simpa only [if_neg spend] using ended
      cases kept
      exact ⟨⟨valid, found, truthy⟩, ⟨used, read⟩, rfl, rfl⟩
    · rw [if_neg truthy, talk_lift_bind_eq_ok] at ended
      obtain ⟨_, _, ended⟩ := ended
      cases ended
  · rintro ⟨⟨valid, found, truthy⟩, ⟨used, read⟩, rfl, rfl⟩
    refine ⟨valid, found, ?_⟩
    rw [if_pos truthy, talk_lift_bind_eq_ok]
    refine ⟨used, read, ?_⟩
    cases used with
    | none => rfl
    | some used =>
      simp only [if_neg spend]
      rfl

theorem examine_spend (spend : job.protocolNonces ≠ []) {c : Context} {first chosen : Choice} {log : Log} :
    (examine tools job c first).talk answers = (log, .ok chosen) ↔
      Valid first.eff ∧ (∃ used, gasUsed first.eff = .ok used) ∧ log = [] ∧ chosen = first := by
  by_cases given : first.eff = .null
  · constructor
    · intro ended
      rw [examine, given, if_neg spend] at ended
      cases ended
    · rintro ⟨valid, -⟩
      exact absurd given (not_null valid)
  · rw [examine_given given, judge_spend spend]

def simulationOf (raw : String) : Request := ⟨"ethrex_simulateFrameTransaction", [.str raw]⟩

/-- What is chosen where no spend is at stake: the first transaction, the resized one, or the
first again because the node did not like the resized one. -/
inductive Chosen (answers : Nat → Option Json) (first : Choice) : Log → Choice → Prop
  | unavailable (none : first.eff = .null) : Chosen answers first [] first
  | first (valid : Valid first.eff) : Chosen answers first [] first
  | kept {raw2 s2} (valid : Valid first.eff) (read : reads simulation (answers 0) = .ok s2) (invalid : ¬ Valid s2) :
      Chosen answers first [(simulationOf raw2, answers 0)] first
  | resized {tx2 raw2 s2} (read : reads simulation (answers 0) = .ok s2) (valid : Valid s2) :
      Chosen answers first [(simulationOf raw2, answers 0)] ⟨tx2, raw2, s2⟩

theorem talk_simulate_bind_eq_ok {raw : String} {f : Json → Rpc α} {log : Log} {value : α} :
    (simulate raw >>= f).talk answers = (log, .ok value) ↔ ∃ sim rest, reads simulation (answers 0) = .ok sim ∧
      (f sim).talk (later answers 1) = (rest, .ok value) ∧ log = (simulationOf raw, answers 0) :: rest := by
  rw [talk_bind_eq_ok, talk_simulate]
  constructor
  · rintro ⟨first, sim, rest, begun, followed, rfl⟩
    obtain ⟨rfl, read⟩ := Prod.mk.inj begun
    exact ⟨sim, rest, read, followed, rfl⟩
  · rintro ⟨sim, rest, read, followed, rfl⟩
    exact ⟨[(simulationOf raw, answers 0)], sim, rest, by rw [read]; rfl, followed, rfl⟩

theorem get_of_not_truthy {s2 v : Json} {key : String} (falsy : s2.truthy ≠ true) (found : s2.get key = .ok v) : v = .null := by
  cases s2 with
  | obj fields =>
    cases fields with
    | nil =>
      cases found
      rfl
    | cons => exact absurd rfl falsy
  | null | bool | num | str | arr => cases found

theorem truthy_of_valid {sim : Json} (valid : Valid sim) : sim.truthy = true := by
  by_contra falsy
  obtain ⟨v, found, truthy⟩ := valid
  rw [get_of_not_truthy falsy found] at truthy
  cases truthy

theorem resize_chosen {c : Context} {first chosen : Choice} {used : Int} {log : Log} (valid : Valid first.eff)
    (ended : (resize tools job c first used).talk answers = (log, .ok chosen)) : Chosen answers first log chosen := by
  simp only [resize, talk_lift_bind_eq_ok, talk_simulate_bind_eq_ok] at ended
  obtain ⟨tx2, built, raw2, text, s2, rest, read, ended, rfl⟩ := ended
  by_cases given : s2.truthy = true
  · rw [if_pos given, talk_lift_bind_eq_ok] at ended
    obtain ⟨v, found, ended⟩ := ended
    by_cases truthy : v.truthy = true
    · rw [if_pos truthy, talk_lift_bind_eq_ok] at ended
      obtain ⟨_, _, ended⟩ := ended
      rw [talk_lift_bind_eq_ok] at ended
      obtain ⟨_, _, ended⟩ := ended
      cases ended
      exact .resized read ⟨v, found, truthy⟩
    · rw [if_neg truthy] at ended
      cases ended
      refine .kept valid read ?_
      rintro ⟨w, again, holds⟩
      cases found.symm.trans again
      exact truthy holds
  · rw [if_neg given] at ended
    cases ended
    exact .kept valid read fun other => given (truthy_of_valid other)

theorem examine_chosen (other : job.protocolNonces = []) {c : Context} {first chosen : Choice} {log : Log}
    (ended : (examine tools job c first).talk answers = (log, .ok chosen)) : Chosen answers first log chosen := by
  by_cases given : first.eff = .null
  · rw [examine, given, if_pos other] at ended
    cases ended
    exact .unavailable given
  · rw [examine_given given, judge, talk_lift_bind_eq_ok] at ended
    obtain ⟨v, found, ended⟩ := ended
    by_cases truthy : v.truthy = true
    · rw [if_pos truthy, talk_lift_bind_eq_ok] at ended
      obtain ⟨used, read, ended⟩ := ended
      cases used with
      | none =>
        cases ended
        exact .first ⟨v, found, truthy⟩
      | some used =>
        simp only [if_pos other] at ended
        exact resize_chosen ⟨v, found, truthy⟩ ended
    · rw [if_neg truthy, talk_lift_bind_eq_ok] at ended
      obtain ⟨_, _, ended⟩ := ended
      cases ended

/-- The last check lets a valid simulation through when its status is a success or says nothing. -/
theorem gate_iff {eff : Json} (valid : Valid eff) :
    gate eff = .ok () ↔ ∃ status, eff.get "executionStatus" = .ok status ∧ (status.truthy = true → status.isText "success" = true) := by
  rw [gate, if_pos (truthy_of_valid valid)]
  cases found : eff.get "executionStatus" with
  | error error =>
    constructor
    · intro passed
      cases passed
    · rintro ⟨_, none, -⟩
      cases none
  | ok status =>
    have spoken : (∃ other, (Except.ok status : Except Raised Json) = .ok other ∧
        (other.truthy = true → other.isText "success" = true)) ↔ (status.truthy = true → status.isText "success" = true) := by
      constructor
      · rintro ⟨other, same, told⟩
        cases same
        exact told
      · intro told
        exact ⟨status, rfl, told⟩
    rw [spoken]
    change (if status.truthy = true ∧ ¬ status.isText "success" = true then
      eff.get "executionError" >>= fun error => throw (.senderReverts (if error.truthy = true then error else status))
      else pure ()) = Except.ok () ↔ _
    by_cases reverts : status.truthy = true ∧ ¬ status.isText "success" = true
    · rw [if_pos reverts]
      refine iff_of_false ?_ fun told => reverts.2 (told reverts.1)
      cases eff.get "executionError" with
      | error | ok => exact nofun
    · rw [if_neg reverts]
      exact iff_of_true rfl (by simpa using reverts)

/-- Not a request to send anything. -/
def Quiet (r : Request) : Prop := r.method ≠ "eth_sendRawTransaction"

/-- Neither a request to send nor one to simulate. -/
def Apart (r : Request) : Prop := Quiet r ∧ r.method ≠ "ethrex_simulateFrameTransaction"

theorem asks_rpc {kind : Request → Prop} {method : String} {params : List Json} (of : kind ⟨method, params⟩) :
    Asks kind (rpc method params) := by
  intro answers entry member
  rw [talk_rpc] at member
  obtain rfl := List.mem_singleton.mp member
  exact of

theorem apart_rpc {method : String} {params : List Json} (different : method ≠ "eth_sendRawTransaction")
    (other : method ≠ "ethrex_simulateFrameTransaction") : Asks Apart (rpc method params) := asks_rpc ⟨different, other⟩

theorem simulationOf_quiet (raw : String) : Quiet (simulationOf raw) :=
  show "ethrex_simulateFrameTransaction" ≠ "eth_sendRawTransaction" by decide

theorem asks_simulate {kind : Request → Prop} {raw : String} (of : kind (simulationOf raw)) : Asks kind (simulate raw) := by
  intro answers entry member
  rw [talk_simulate] at member
  obtain rfl := List.mem_singleton.mp member
  exact of

theorem simulate_quiet (raw : String) : Asks Quiet (simulate raw) := asks_simulate (simulationOf_quiet raw)

theorem prepare_apart : Asks Apart (prepare tools job) := by
  refine (apart_rpc (by decide) (by decide)).bind fun r => (Asks.ofExcept _).bind fun chainId =>
    (Asks.ofExcept _).bind fun nonceAddress => (apart_rpc (by decide) (by decide)).bind fun r' =>
    (Asks.ofExcept _).bind fun nonce => (apart_rpc (by decide) (by decide)).bind fun blk =>
    (Asks.ofExcept _).bind fun fee => (Asks.ofExcept _).bind fun baseFee => ?_
  dsimp only
  split_ifs
  · exact Asks.raised _
  · exact Asks.pure _

theorem resize_quiet {c : Context} {first : Choice} {used : Int} : Asks Quiet (resize tools job c first used) := by
  refine (Asks.ofExcept _).bind fun tx2 => (Asks.ofExcept _).bind fun raw2 => (simulate_quiet raw2).bind fun s2 => ?_
  split_ifs
  · refine (Asks.ofExcept _).bind fun v => ?_
    split_ifs
    · exact (Asks.ofExcept _).bind fun _ => (Asks.ofExcept _).bind fun _ => Asks.pure _
    · exact Asks.pure _
  · exact Asks.pure _

theorem examine_quiet {c : Context} {first : Choice} : Asks Quiet (examine tools job c first) := by
  by_cases given : first.eff = .null
  · rw [examine, given]
    dsimp only
    split_ifs
    · exact Asks.pure _
    · exact Asks.raised _
  · rw [examine_given given]
    refine (Asks.ofExcept _).bind fun v => ?_
    by_cases truthy : v.truthy = true
    · rw [if_pos truthy]
      refine (Asks.ofExcept _).bind fun used => ?_
      cases used with
      | none => exact Asks.pure _
      | some used =>
        dsimp only
        split_ifs
        · exact resize_quiet
        · exact Asks.pure _
    · rw [if_neg truthy]
      exact (Asks.ofExcept _).bind fun _ => Asks.raised _

theorem decided_quiet : Asks Quiet (decided tools job) :=
  (prepare_apart.mono fun _ apart => apart.1).bind fun _ => (Asks.ofExcept _).bind fun _ => (Asks.ofExcept _).bind fun raw =>
    (Asks.ofExcept _).bind fun _ => (simulate_quiet raw).bind fun _ => examine_quiet.bind fun _ => (Asks.ofExcept _).bind fun _ =>
    (Asks.ofExcept _).bind fun _ => Asks.pure _

theorem await_apart (txhash : Json) (tries : Nat) : Asks Apart (await txhash tries) := by
  induction tries with
  | zero => exact Asks.raised _
  | succ tries ih =>
    refine (apart_rpc (by decide) (by decide)).bind fun rcpt => ?_
    split_ifs
    · refine (Asks.ofExcept _).bind fun r => (Asks.ofExcept _).bind fun status => (Asks.ofExcept _).bind fun _ =>
        (Asks.ofExcept _).bind fun _ => (Asks.ofExcept _).bind fun _ => (Asks.ofExcept _).bind fun _ => (Asks.ofExcept _).bind fun _ =>
        (Asks.ofExcept _).bind fun _ => ?_
      split_ifs
      · exact (Asks.ofExcept _).bind fun _ => Asks.raised _
      · exact Asks.pure _
    · exact ih

theorem talk_broadcast {raw : String} {log : Log} {out : Except Raised Json}
    (ended : (broadcast raw).talk answers = (log, out)) :
    ∃ polls, log = (⟨"eth_sendRawTransaction", [.str raw]⟩, answers 0) :: polls ∧ ∀ entry ∈ polls, Quiet entry.1 := by
  rcases talk_bind_cases ended with ⟨error, begun, -⟩ | ⟨first, txhash, polls, begun, followed, rfl⟩
  · obtain ⟨rfl, -⟩ := Prod.mk.inj ((talk_rpc ..).symm.trans begun)
    exact ⟨[], rfl, nofun⟩
  · obtain ⟨rfl, -⟩ := Prod.mk.inj ((talk_rpc ..).symm.trans begun)
    refine ⟨polls, rfl, fun entry member => (await_apart txhash 30 (later answers 1) entry ?_).1⟩
    rw [show (await txhash 30).talk (later answers 1) = (polls, out) from followed]
    exact member

/-- A list has only one place where something of a kind stands that none of its other parts holds. -/
theorem split_unique {β : Type} {p : β → Prop} {first last before after : List β} {x y : β}
    (same : first ++ x :: last = before ++ y :: after) (early : ∀ e ∈ first, ¬ p e) (late : ∀ e ∈ last, ¬ p e) (holds : p y) :
    first = before ∧ x = y := by
  rcases List.append_eq_append_iff.mp same with ⟨middle, rfl, rest⟩ | ⟨middle, rfl, rest⟩
  · cases middle with
    | nil => exact ⟨(List.append_nil _).symm, (List.cons.inj rest).1⟩
    | cons z middle =>
      obtain ⟨-, rfl⟩ := List.cons.inj rest
      exact absurd holds (late y (by simp))
  · cases middle with
    | nil => exact ⟨List.append_nil _, (List.cons.inj rest).1.symm⟩
    | cons z middle =>
      obtain ⟨rfl, -⟩ := List.cons.inj rest
      exact absurd holds (early _ (by simp))

/-- A call sends at most once, and then what it has decided on. -/
theorem decided_of_sent {log before after : Log} {out : Except Raised Json} {params : List Json} {answer : Option Json}
    (ended : (buildAndSend tools job false).talk answers = (log, out))
    (sent : log = before ++ (⟨"eth_sendRawTransaction", params⟩, answer) :: after) :
    ∃ raw, params = [.str raw] ∧ (decided tools job).talk answers = (before, .ok raw) := by
  subst sent
  rw [buildAndSend_eq] at ended
  have sends : ¬ Quiet ⟨"eth_sendRawTransaction", params⟩ := fun quiet => quiet rfl
  rcases talk_bind_cases ended with ⟨error, begun, -⟩ | ⟨first, raw, rest, begun, followed, same⟩
  · refine absurd (@decided_quiet tools job answers (_, answer) ?_) sends
    rw [begun]
    simp
  · obtain ⟨polls, rfl, quiet⟩ := talk_broadcast followed
    have early : ∀ entry ∈ first, ¬ ¬ Quiet entry.1 := by
      intro entry member
      refine not_not.mpr (@decided_quiet tools job answers entry ?_)
      rw [begun]
      exact member
    obtain ⟨rfl, entry⟩ := split_unique (p := fun entry => ¬ Quiet entry.1) same.symm early
      (fun entry member => not_not.mpr (quiet entry member)) sends
    obtain ⟨request, -⟩ := Prod.mk.inj entry
    exact ⟨raw, (Request.mk.inj request).2.symm, begun⟩

/-- The first transaction of a call, which can be put into bytes and saved if it is to be. -/
structure First (tools : Tools) (job : Job) (c : Context) (tx : Wire.FrameTx) (raw : String) : Prop where
  built : build tools job c job.senderGas = .ok tx
  text : rawText tx = .ok raw
  saved : job.saved = true

/-- What came back when a call settles on bytes to send. -/
theorem answers_of_decided {log : Log} {raw : String} (ended : (decided tools job).talk answers = (log, .ok raw)) :
    ∃ head c first tail chosen, (prepare tools job).talk answers = (head, .ok c) ∧ Prepared tools job answers c ∧
      First tools job c first.tx first.raw ∧ reads simulation (answers 3) = .ok first.eff ∧
      (examine tools job c first).talk (later answers 4) = (tail, .ok chosen) ∧ gate chosen.eff = .ok () ∧
      announce chosen.tx = .ok () ∧ chosen.raw = raw ∧ log = head ++ (simulationOf first.raw, answers 3) :: tail := by
  rw [decided, talk_bind_eq_ok] at ended
  obtain ⟨head, c, rest, prepared, ended, rfl⟩ := ended
  simp only [talk_lift_bind_eq_ok, talk_simulate_bind_eq_ok] at ended
  obtain ⟨tx, built, first, text, _, saved, sim, rest, read, ended, rfl⟩ := ended
  rw [talk_bind_eq_ok] at ended
  obtain ⟨tail, chosen, last, examined, ended, rfl⟩ := ended
  rw [talk_lift_bind_eq_ok] at ended
  obtain ⟨_, passed, ended⟩ := ended
  rw [talk_lift_bind_eq_ok] at ended
  obtain ⟨_, announced, ended⟩ := ended
  cases ended
  obtain ⟨ready, three⟩ := prepare_ok prepared
  rw [three] at read examined ⊢
  rw [List.append_nil]
  exact ⟨head, c, ⟨tx, first, sim⟩, tail, chosen, prepared, ready, ⟨built, text, save_ok.mp saved⟩, read, examined, passed, announced, rfl,
    rfl⟩

/-- A spend is settled on when its one simulation is valid and passes the last check. -/
theorem decided_of_answers (spend : job.protocolNonces ≠ []) {c : Context} {tx : Wire.FrameTx} {raw : String} {sim : Json}
    (prepared : Prepared tools job answers c) (first : First tools job c tx raw) (read : reads simulation (answers 3) = .ok sim)
    (valid : Valid sim) (measured : ∃ used, gasUsed sim = .ok used) (passed : gate sim = .ok ()) (announced : announce tx = .ok ()) :
    ∃ log, (decided tools job).talk answers = (log, .ok raw) := by
  obtain ⟨head, begun⟩ := prepare_of_prepared prepared
  refine ⟨head ++ [(simulationOf raw, answers 3)], ?_⟩
  rw [decided, talk_bind_eq_ok]
  refine ⟨head, c, [(simulationOf raw, answers 3)], begun, ?_, rfl⟩
  rw [(prepare_ok begun).2]
  simp only [talk_lift_bind_eq_ok, talk_simulate_bind_eq_ok]
  refine ⟨tx, first.built, raw, first.text, (), save_ok.mpr first.saved, sim, [], read, ?_, rfl⟩
  rw [talk_bind_eq_ok]
  refine ⟨[], ⟨tx, raw, sim⟩, [], (examine_spend spend).mpr ⟨valid, measured, rfl, rfl⟩, ?_, rfl⟩
  rw [talk_lift_bind_eq_ok]
  refine ⟨(), passed, ?_⟩
  rw [talk_lift_bind_eq_ok]
  exact ⟨(), announced, rfl⟩

/-- These bytes were simulated, and the simulation was valid and reported success. -/
def SimulatedCleanly (raw : String) (before : Log) : Prop :=
  ∃ answer sim status, (simulationOf raw, answer) ∈ before ∧ reads simulation answer = .ok sim ∧ Valid sim ∧
    sim.get "executionStatus" = .ok status ∧ status.isText "success" = true

/-- Of the simulations that were valid, that of these bytes came last, and it passed the last check. -/
def LastExamined (raw : String) (before : Log) : Prop :=
  ∃ early answer sim late, before = early ++ (simulationOf raw, answer) :: late ∧ reads simulation answer = .ok sim ∧
    Valid sim ∧ gate sim = .ok () ∧
    ∀ other again, (simulationOf other, again) ∈ late → ∀ s2, reads simulation again = .ok s2 → ¬ Valid s2

/-- The node has no simulation to offer for these bytes. -/
def NotSimulated (raw : String) (before : Log) : Prop :=
  ∃ answer, (simulationOf raw, answer) ∈ before ∧ reads simulation answer = .ok .null

/-- What a call sends, and when it raises instead. -/
structure Guarded (job : Job) (log : Log) (out : Except Raised Json) : Prop where
  spend : job.protocolNonces ≠ [] → ∀ before params answer after,
    log = before ++ (⟨"eth_sendRawTransaction", params⟩, answer) :: after →
      ∃ raw, params = [.str raw] ∧ SimulatedCleanly raw before
  raises : job.protocolNonces ≠ [] → (∀ entry ∈ log, Quiet entry.1) → ∃ error, out = .error error
  other : job.protocolNonces = [] → ∀ before params answer after,
    log = before ++ (⟨"eth_sendRawTransaction", params⟩, answer) :: after →
      ∃ raw, params = [.str raw] ∧ (LastExamined raw before ∨ NotSimulated raw before)

/-- The answers that let a spend out unreported: all before the simulation can be read and put into
a transaction, what is to be printed of it is not too long, and the simulation is valid but leaves
its execution status out. -/
structure Unreported (tools : Tools) (job : Job) (answers : Nat → Option Json) : Prop where
  spend : job.protocolNonces ≠ []
  saved : job.saved = true
  prepared : ∃ c, Prepared tools job answers c ∧ (unsigned tools job c job.senderGas []).Encodable ∧
    ∀ tx, build tools job c job.senderGas = .ok tx → announce tx = .ok ()
  simulated : ∃ sim status, reads simulation (answers 3) = .ok sim ∧ Valid sim ∧ (∃ used, gasUsed sim = .ok used) ∧
    sim.get "executionStatus" = .ok status ∧ status.truthy = false

theorem truthy_of_text {j : Json} (told : j.isText "success" = true) : j.truthy = true := by
  cases j with
  | str text =>
    have same : text = "success" := of_decide_eq_true told
    subst same
    decide
  | null | bool | num | arr | obj => cases told

/-- Once a call has settled on its bytes, it sends them. -/
theorem sent_of_decided {log : Log} {raw : String} (ended : (decided tools job).talk answers = (log, .ok raw)) :
    ∃ answer polls, ((buildAndSend tools job false).talk answers).1 =
      log ++ (⟨"eth_sendRawTransaction", [.str raw]⟩, answer) :: polls := by
  rw [buildAndSend_eq, talk_bind_ok _ ended]
  obtain ⟨polls, same, -⟩ := talk_broadcast (Prod.mk.eta (p := (broadcast raw).talk (later answers log.length))).symm
  exact ⟨_, polls, congrArg (log ++ ·) same⟩

/-- The only simulation before a spend is sent is the one of its first transaction. -/
theorem simulated_once (spend : job.protocolNonces ≠ []) {log : Log} {raw : String}
    (ended : (decided tools job).talk answers = (log, .ok raw)) {other : String} {answer : Option Json}
    (member : (simulationOf other, answer) ∈ log) : answer = answers 3 := by
  obtain ⟨head, c, first, tail, chosen, begun, -, -, -, examined, -, -, -, rfl⟩ := answers_of_decided ended
  obtain ⟨-, -, rfl, -⟩ := (examine_spend spend).mp examined
  rcases List.mem_append.mp member with early | here
  · have apart := @prepare_apart tools job answers (simulationOf other, answer) (by rw [begun]; exact early)
    exact absurd rfl apart.2
  · exact (Prod.mk.inj (List.mem_singleton.mp here)).2

theorem spend_sent {log : Log} {raw : String} (spend : job.protocolNonces ≠ [])
    (ended : (decided tools job).talk answers = (log, .ok raw)) : Unreported tools job answers ∨ SimulatedCleanly raw log := by
  obtain ⟨head, c, first, tail, chosen, -, prepared, ⟨built, text, saved⟩, read, examined, passed, announced, rfl, rfl⟩ :=
    answers_of_decided ended
  obtain ⟨valid, measured, rfl, rfl⟩ := (examine_spend spend).mp examined
  obtain ⟨status, found, told⟩ := (gate_iff valid).mp passed
  by_cases spoken : status.truthy = true
  · exact .inr ⟨answers 3, chosen.eff, status, by simp, read, valid, found, told spoken⟩
  · have printable (tx : Wire.FrameTx) (again : build tools job c job.senderGas = .ok tx) : announce tx = .ok () := by
      cases built.symm.trans again
      exact announced
    exact .inl ⟨spend, saved, ⟨c, prepared, build_iff.mp ⟨_, _, built, text⟩, printable⟩, chosen.eff, status, read, valid, measured, found,
      by simpa using spoken⟩

theorem other_sent {log : Log} {raw : String} (other : job.protocolNonces = [])
    (ended : (decided tools job).talk answers = (log, .ok raw)) : LastExamined raw log ∨ NotSimulated raw log := by
  obtain ⟨head, c, first, tail, chosen, -, -, -, read, examined, passed, -, rfl, rfl⟩ := answers_of_decided ended
  cases examine_chosen other examined with
  | unavailable none => exact .inr ⟨answers 3, by simp, none ▸ read⟩
  | first valid => exact .inl ⟨head, answers 3, first.eff, [], rfl, read, valid, passed, fun _ _ member => nomatch member⟩
  | @kept raw2 s2 valid again invalid =>
    refine .inl ⟨head, answers 3, first.eff, _, rfl, read, valid, passed, ?_⟩
    intro _ answer member s2 found
    obtain ⟨-, rfl⟩ := Prod.mk.inj (List.mem_singleton.mp member)
    cases again.symm.trans found
    exact invalid
  | @resized tx2 raw2 s2 again valid =>
    exact .inl ⟨head ++ [(simulationOf first.raw, answers 3)], _, s2, [], by simp, again, valid, passed,
      fun _ _ member => nomatch member⟩

theorem unguarded_of_unreported (unreported : Unreported tools job answers) :
    ¬ Guarded job ((buildAndSend tools job false).talk answers).1 ((buildAndSend tools job false).talk answers).2 := by
  obtain ⟨spend, saved, ⟨c, prepared, encodable, printable⟩, sim, status, read, valid, measured, found, silent⟩ := unreported
  intro guarded
  obtain ⟨tx, raw, built, text⟩ := build_iff.mpr encodable
  have passed : gate sim = .ok () := (gate_iff valid).mpr ⟨status, found, fun truthy => absurd (silent.symm.trans truthy) nofun⟩
  obtain ⟨log, decides⟩ := decided_of_answers spend prepared ⟨built, text, saved⟩ read valid measured passed (printable tx built)
  obtain ⟨answer, polls, sent⟩ := sent_of_decided decides
  obtain ⟨_, -, again, sim', status', simulated, read', -, found', told⟩ := guarded.spend spend _ _ _ _ sent
  obtain rfl := simulated_once spend decides simulated
  cases read.symm.trans read'
  cases found.symm.trans found'
  exact absurd (silent.symm.trans (truthy_of_text told)) nofun

/-- A call never sends a spend that has not simulated cleanly, unless the simulation leaves its
status out, and otherwise sends only what its last check was about. -/
theorem sends_guarded (tools : Tools) (job : Job) (answers : Nat → Option Json) :
    Guarded job ((buildAndSend tools job false).talk answers).1 ((buildAndSend tools job false).talk answers).2 ↔
      ¬ Unreported tools job answers := by
  constructor
  · intro guarded unreported
    exact unguarded_of_unreported unreported guarded
  · intro reported
    refine ⟨fun spend before params answer after sent => ?_, fun spend quiet => ?_, fun other before params answer after sent => ?_⟩
    · obtain ⟨raw, same, decides⟩ := decided_of_sent Prod.mk.eta.symm sent
      exact ⟨raw, same, (spend_sent spend decides).resolve_left reported⟩
    · cases ended : (decided tools job).talk answers with
      | mk log out =>
        cases out with
        | error error =>
          rw [buildAndSend_eq, talk_bind_error _ ended]
          exact ⟨error, rfl⟩
        | ok raw =>
          obtain ⟨answer, polls, sent⟩ := sent_of_decided ended
          rw [sent] at quiet
          exact absurd rfl (quiet (⟨"eth_sendRawTransaction", [.str raw]⟩, answer) (by simp))
    · obtain ⟨raw, same, decides⟩ := decided_of_sent Prod.mk.eta.symm sent
      exact ⟨raw, same, other_sent other decides⟩

def someTools : Tools where
  signer := 0x1111#160
  keccak := fun _ => 0
  sign := fun _ => (false, 1, 1)
  cast := fun _ _ => none

def someSpend : Job where
  pool := 0x2222
  value := 0
  calldata := []
  protocolNonces := [1, 2]
  proofVerify := some (none, [])
  senderOverride := some 0x2222

def silentNode : Nat → Option Json
  | 0 => some (.obj [("result", .str "0x1")])
  | 1 => some (.obj [("result", .str "0x0")])
  | 2 => some (.obj [("result", .obj [("baseFeePerGas", .str "0x7")])])
  | 3 => some (.obj [("result", .obj [("valid", .bool true)])])
  | _ => none

theorem prepared_silent : Prepared someTools someSpend silentNode ⟨0x2222, 1, 0, 10 ^ 9, 14 + 10 ^ 9⟩ where
  sender := rfl
  address := ⟨by decide, by decide⟩
  chainId := ⟨.str "0x1", rfl, rfl⟩
  nonce := ⟨.str "0x0", rfl, rfl⟩
  fees := ⟨.obj [("baseFeePerGas", .str "0x7")], .str "0x7", 7, rfl, rfl, rfl, by decide, by decide, rfl⟩
  priority := rfl

theorem encodable_silent : (unsigned someTools someSpend ⟨0x2222, 1, 0, 10 ^ 9, 14 + 10 ^ 9⟩ someSpend.senderGas []).Encodable := by
  rw [← Wire.FrameTx.isSome_raw]
  decide

theorem printable_silent (tx : Wire.FrameTx)
    (built : build someTools someSpend ⟨0x2222, 1, 0, 10 ^ 9, 14 + 10 ^ 9⟩ someSpend.senderGas = .ok tx) : announce tx = .ok () := by
  have prints : (build someTools someSpend ⟨0x2222, 1, 0, 10 ^ 9, 14 + 10 ^ 9⟩ someSpend.senderGas >>= announce).isOk = true := by
    decide +kernel
  rw [built] at prints
  change (announce tx).isOk = true at prints
  cases said : announce tx with
  | ok => rfl
  | error =>
    rw [said] at prints
    cases prints

/-- The spend is sent although its simulation reported no execution. -/
theorem sends_not_guarded :
    ¬ Guarded someSpend ((buildAndSend someTools someSpend false).talk silentNode).1
      ((buildAndSend someTools someSpend false).talk silentNode).2 :=
  unguarded_of_unreported ⟨nofun, rfl, ⟨_, prepared_silent, encodable_silent, printable_silent⟩, .obj [("valid", .bool true)], .null, rfl,
    ⟨.bool true, rfl, rfl⟩, ⟨none, rfl⟩, rfl, rfl⟩

end ShieldedPool.Tooling
