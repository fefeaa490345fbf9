import ShieldedPool.Proofs.Solvency

/-! Where ShieldedPoolLogic.sol panics: only on a credit that overflows, in a settlement that
`_spend` lets through, and so nowhere in a run whose hashes do not fail it. -/

namespace ShieldedPool.Proofs
open Evm Exec Circuit

variable {σ α : Type} {d : Deployment} {c : Call} {s : State}

theorem data_ne_panic (e : Error) : e.data ≠ arithmeticPanic := by
  intro same
  have sizes := congrArg List.length same
  rw [Error.data, arithmeticPanic, panic, List.length_append, length_selectorBytes, length_selectorBytes, length_encodeWord] at sizes
  omega

theorem nil_ne_panic : ([] : Bytes) ≠ arithmeticPanic := List.ne_nil_of_length_pos (by decide) |>.symm

/-- A named error is not the panic. -/
theorem spares_throwIf (e : Error) (condition : Prop) [Decidable condition] {x : Exec σ α} (rest : Spares arithmeticPanic x) :
    Spares arithmeticPanic (e.throwIf condition >>= fun _ => x) :=
  .guard (data_ne_panic e) rest

theorem spares_validateSpend (domain : Word) (sp : Spend) : Spares arithmeticPanic (validateSpend domain sp) :=
  spares_throwIf _ _ <| spares_throwIf _ _ <| .revertIf (data_ne_panic _)

theorem spares_addressArg (offset : Nat) : Spares arithmeticPanic (addressArg c offset) :=
  .guard nil_ne_panic (.pure _)

theorem spares_envelopeFacts : Spares arithmeticPanic (envelopeFacts c) := by
  intro s
  rw [envelopeFacts]
  cases c.probe with
  | none => exact fun threw => data_ne_panic _ (Except.error.inj threw)
  | some ret => exact spares_throwIf _ _ (.guard nil_ne_panic (.pure _)) s

theorem spares_spend (sp : Spend) : Spares arithmeticPanic (spend d (Logic.variant d) c sp) := by
  refine spares_throwIf _ _ <| spares_throwIf _ _ <| .bind spares_envelopeFacts fun f => ?_
  refine spares_throwIf _ _ <| spares_throwIf _ _ <| spares_throwIf _ _ <| spares_throwIf _ _ ?_
  exact .bind (spares_validateSpend _ sp) fun _ => .bind (.update _) fun _ => .bind (.update _) fun _ => .pure _

theorem spares_shield (inner : Word) : Spares arithmeticPanic (shield d c inner) := by
  intro s threw
  rw [shield_eq] at threw
  split_ifs at threw <;> exact data_ne_panic _ (Except.error.inj threw)

/-- Nothing panics before `_spend` has found a payer. -/
theorem authenticated_of_panic {sp : Spend} {rest : Address → Exec State α}
    (threw : (spend d (Logic.variant d) c sp >>= rest) s = .error arithmeticPanic) : ∃ payer, Authenticated d c sp payer := by
  rcases bind_eq_error.mp threw with early | ⟨payer, t, spent, -⟩
  · exact absurd early (spares_spend sp s)
  · exact ⟨payer, ((spend_logic d c).mp spent).1⟩

theorem settles_of_transfer {sp : Spend} (threw : transfer d (Logic.variant d) c sp s = .error arithmeticPanic) :
    (sp.publicAmount = 0 ∧ sp.ctx = 0) ∧ ∃ payer, Authenticated d c sp payer := by
  rw [transfer, throwIf_bind] at threw
  split_ifs at threw with shape
  · exact absurd (Except.error.inj threw) (data_ne_panic _)
  rw [ne_eq, ne_eq, not_or, not_not, not_not] at shape
  exact ⟨shape, authenticated_of_panic threw⟩

theorem settles_of_withdraw {sp : Spend} {recipient : Address}
    (threw : withdraw d (Logic.variant d) c sp recipient s = .error arithmeticPanic) :
    (sp.publicAmount ≠ 0 ∧ sp.ctx ≠ 0) ∧ sp.ctx = recipient.word ∧ ∃ payer, Authenticated d c sp payer := by
  rw [withdraw, throwIf_bind, throwIf_bind] at threw
  split_ifs at threw with shape named
  · exact absurd (Except.error.inj threw) (data_ne_panic _)
  · exact absurd (Except.error.inj threw) (data_ne_panic _)
  exact ⟨not_or.mp shape, not_not.mp named, authenticated_of_panic threw⟩

/-- A function that `m` is not one of the two settlements cannot panic. -/
theorem spares_body {m : Method} (transfers : m ≠ .transfer) (withdraws : m ≠ .withdraw) :
    Spares arithmeticPanic (body d (Logic.variant d) c m) := by
  cases m with
  | transfer => exact absurd rfl transfers
  | withdraw => exact absurd rfl withdraws
  | shield => exact .bind (spares_shield _) fun _ => .pure _
  | verifyProofOnly =>
    refine .bind (spares_throwIf _ _ (.bind (spares_validateSpend _ _) fun _ => .revertIf (data_ne_panic _))) fun _ => .pure _
  | claimWithdrawal | claimFee =>
    refine .bind (spares_addressArg _) fun who => .bind (.read _) fun amount => spares_throwIf _ _ ?_
    exact .bind (.update _) fun _ => .bind (.update _) fun _ => .pure _
  | currentRoot | nextIndex | isLeaf => exact .bind (.read _) fun _ => .pure _
  | withdrawalCredit | feeCredit => exact .bind (spares_addressArg _) fun _ => .bind (.read _) fun _ => .pure _
  | ctxFor => exact .bind (spares_addressArg _) fun _ => .pure _
  | filledSubtrees => exact .guard nil_ne_panic (.bind (.read _) fun _ => .pure _)
  | sourceId | domain | domainFor | probe | verifier | depth | salt | domainTag | recentRootPredeploy => exact .pure _

/-- Only a settlement that `_spend` lets through can panic. -/
theorem settles_of_panic (panics : Logic.call d c s = .error arithmeticPanic) :
    SettlementCall c ∧ c.value = 0 ∧ ∃ payer, Authenticated d c (Spend.decode c.data 4) payer := by
  rw [Logic.call, dispatch, revertIf_bind] at panics
  split_ifs at panics with short
  · exact absurd (Except.error.inj panics) nil_ne_panic
  cases chosen : Method.ofSelector (wordAt c.data 0 >>> 224) with
  | none =>
    rw [chosen] at panics
    exact absurd (Except.error.inj panics) nil_ne_panic
  | some m =>
    have selects : Selects c m := ⟨Nat.not_lt.mp short, (ofSelector_eq_some chosen).symm⟩
    rw [chosen] at panics
    simp only [revertIf_bind] at panics
    split_ifs at panics with paid brief
    · exact absurd (Except.error.inj panics) nil_ne_panic
    · exact absurd (Except.error.inj panics) nil_ne_panic
    have free (plain : m.payable = false) : c.value = 0 := not_not.mp fun value => paid ⟨plain, value⟩
    by_cases transfers : m = .transfer
    · subst transfers
      rcases bind_eq_error.mp panics with threw | ⟨_, _, -, late⟩
      · obtain ⟨⟨amount, ctx⟩, authenticated⟩ := settles_of_transfer threw
        exact ⟨.transfer selects (Nat.not_lt.mp brief) amount ctx, free rfl, authenticated⟩
      · cases late
    by_cases withdraws : m = .withdraw
    · subst withdraws
      rcases bind_eq_error.mp panics with threw | ⟨recipient, t, arg, late⟩
      · exact absurd threw (spares_addressArg _ _)
      obtain ⟨word, rfl⟩ := (addressArg_ok c).mp arg
      rcases bind_eq_error.mp late with threw | ⟨_, _, -, last⟩
      · obtain ⟨⟨amount, nonzero⟩, named, authenticated⟩ := settles_of_withdraw threw
        exact ⟨.withdraw selects (Nat.not_lt.mp brief) amount nonzero (named ▸ Address.word_clean _) (word.trans named.symm), free rfl, authenticated⟩
      · cases last
    exact absurd panics (spares_body transfers withdraws s)

/-- A settlement that `_spend` lets through, that has room for its outputs and whose root is taken,
overflows a credit. -/
structure Excess (d : Deployment) (c : Call) (s : State) (payer : Address) : Prop where
  settles : SettlementCall c
  free : c.value = 0
  authenticated : Authenticated d c (Spend.decode c.data 4) payer
  room : ¬ Overflows s {(Spend.decode c.data 4).outCm1, (Spend.decode c.data 4).outCm2}
  published : c.publishes (publication (newRoot d c s (Spend.decode c.data 4))) = true
  credits : ¬ CreditsFit d s (Spend.decode c.data 4) payer

/-- That is when the code panics. -/
theorem panics_iff : Logic.call d c s = .error arithmeticPanic ↔ ∃ payer, Excess d c s payer := by
  constructor
  · intro panics
    obtain ⟨settles, free, payer, authenticated⟩ := settles_of_panic panics
    rw [call_of_settles settles free authenticated] at panics
    have room : ¬ Overflows s {(Spend.decode c.data 4).outCm1, (Spend.decode c.data 4).outCm2} := by
      intro full
      rw [settleRest_full d c full] at panics
      exact absurd (Except.error.inj panics) (data_ne_panic _)
    have published : c.publishes (publication (newRoot d c s (Spend.decode c.data 4))) = true := by
      by_contra refused
      rw [settleRest_unpublished d c room (Bool.eq_false_iff.mpr refused)] at panics
      exact absurd (Except.error.inj panics) (data_ne_panic _)
    refine ⟨payer, settles, free, authenticated, room, published, fun credits => ?_⟩
    rw [settleRest_fits d c room published credits] at panics
    cases panics
  · rintro ⟨payer, excess⟩
    rw [call_of_settles excess.settles excess.free excess.authenticated]
    exact settleRest_panics d c excess.room excess.published excess.credits

/-- A panic is a credit that overflows, in a settlement that `_spend` lets through. -/
theorem excess_of_panic (panics : Logic.call d c s = .error arithmeticPanic) :
    ∃ payer, Authenticated d c (Spend.decode c.data 4) payer ∧ ¬ CreditsFit d s (Spend.decode c.data 4) payer := by
  obtain ⟨payer, excess⟩ := panics_iff.mp panics
  exact ⟨payer, excess.authenticated, excess.credits⟩

variable {poseidon : Poseidon} {extract : ShieldedPool.Spend → Signals ShieldedPool.depth} {image : Dispatcher.Image} {outside : Outside d.self}

/-- No call of a run panics. -/
theorem calm_of_run (hashes : Hashes d poseidon) {eth : Address → Nat} (words : ∀ a, eth a < 2 ^ 256) {history : List (Entry State)}
    {last : Ledger State} (run : Run (dispatcherNetwork d image outside) (launch eth) history last)
    (extracts : ∀ tx, Proved d history tx → Opens poseidon tx.tuple (extract tx.tuple)) :
    Broken poseidon (runQueries poseidon extract d history) ∨ ∀ e ∈ history, ∀ c, e.shown ≠ .called c (.error arithmeticPanic) := by
  refine or_iff_not_imp_left.mpr fun sound e member c panics => ?_
  obtain ⟨before, after, rfl⟩ := List.append_of_mem member
  obtain ⟨m, earlier, step, -⟩ := step_of_run run rfl
  have safe := (safe_within hashes words earlier (fun _ => List.mem_append_left _) extracts).resolve_left sound
  obtain ⟨shown, reached⟩ := e
  subst panics
  have threw : Logic.call d c m.chain.pool = .error arithmeticPanic := by
    have code : (dispatcherNetwork d image outside).code.call c m.chain.pool = Logic.call d c m.chain.pool :=
      congrFun (Dispatcher.call_eq d image c) m.chain.pool
    have ended {o : Opcodes} {outermost : Bool} {ch : Chain State} {pending : List (Pending State)}
        (called : Called (dispatcherNetwork d image outside) o outermost m.chain c (.error arithmeticPanic) ch pending) :
        Logic.call d c m.chain.pool = .error arithmeticPanic := by
      cases called with
      | reverted ran => exact code.symm.trans ran
      | unpaid funds ran refused ended =>
        have failed := (Dispatcher.resume_eq false).symm.trans ended
        exact absurd (Except.error.inj failed) (data_ne_panic _)
    cases step with
    | call active acts other nonempty called => exact ended called
    | frameCall due target nonempty mode permitted called => exact ended called
  obtain ⟨payer, authenticated, excess⟩ := excess_of_panic threw
  exact excess (fits_of_solvent safe.staged safe.solvent safe.vetted safe.small step authenticated)

end ShieldedPool.Proofs
