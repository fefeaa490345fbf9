import ShieldedPool.Evm.Total
import ShieldedPool.Proofs.Envelope
import ShieldedPool.Proofs.PoolTree

/-! The frame that settles, once frame 0 has approved: every check it repeats holds already,
and only a full tree is left to stop it. -/

namespace ShieldedPool.Proofs
open Evm Exec

variable {d : Deployment} {tx : FrameTx} {scope : Word} {f : Frame} {sp : Spend}

/-- The position of the frame that settles. -/
def lastIndex (tx : FrameTx) : Nat := tx.frames.length - 1

theorem getLast_of_approved (approved : Approved d tx scope f sp) : tx.frames[lastIndex tx]? = some f := by
  rcases approved.shape with ⟨-, frames, -⟩ | ⟨-, -, frames⟩ <;> rw [lastIndex, frames] <;> rfl

theorem decode_facts (f : Facts) :
    Facts.decode (encodeWords [f.frames, f.frameIndex, f.keyCount, f.nonceSeq, f.k0, f.k1, f.refCount, f.refSource, f.refRoot,
      f.settleTarget, f.payerWord]) = f := by
  have word (k : Nat) (inside : k < 11) := wordAt_encodeWords [f.frames, f.frameIndex, f.keyCount, f.nonceSeq, f.k0, f.k1,
    f.refCount, f.refSource, f.refRoot, f.settleTarget, f.payerWord] k inside []
  rw [List.append_nil] at word
  rw [Facts.decode, word 0 (by decide), word 1 (by decide), word 2 (by decide), word 3 (by decide), word 4 (by decide),
    word 5 (by decide), word 6 (by decide), word 7 (by decide), word 8 (by decide), word 9 (by decide), word 10 (by decide)]
  rfl

/-- EnvelopeProbe's answer in that frame passes all of `_spend`'s checks of the envelope. -/
theorem probe_of_approved (approved : Approved d tx scope f sp) {payer : Address} (nonzero : payer.word ≠ 0) :
    ∃ ret, EnvelopeProbe.reply (tx.opcodes (lastIndex tx) (some payer)) = some ret ∧ ret.length = 352 ∧
      Bound d (Logic.variant d) sp (Facts.decode ret) ∧ (Facts.decode ret).payerWord = payer.word := by
  obtain ⟨slot, refs⟩ := approved.refs
  have last := getLast_of_approved approved
  have final : ∃ frames index, (tx.opcodes (lastIndex tx) (some payer)).txParam 0x09 = some frames ∧
      (tx.opcodes (lastIndex tx) (some payer)).txParam 0x0A = some index ∧ index < frames ∧ index.toNat = lastIndex tx ∧
      (frames = 2 ∧ index = 1 ∨ frames = 3 ∧ index = 2) := by
    rcases approved.shape with ⟨-, frames, -⟩ | ⟨-, -, frames⟩
    · refine ⟨2, 1, ?_, ?_, by decide, ?_, .inl ⟨rfl, rfl⟩⟩ <;>
        simp [FrameTx.opcodes, FrameTx.txParam, lastIndex, frames]
    · refine ⟨3, 2, ?_, ?_, by decide, ?_, .inr ⟨rfl, rfl⟩⟩ <;>
        simp [FrameTx.opcodes, FrameTx.txParam, lastIndex, frames]
  obtain ⟨frames, index, count, current, inside, place, shape⟩ := final
  have answer := @probe_reply _ _ _ 0 sp.lo sp.hi d.sourceId sp.root d.self.word payer.word count current
    (by simp [FrameTx.opcodes, FrameTx.txParam, approved.keys]) (congrArg some approved.nonceSeq)
    (by simp [FrameTx.opcodes, approved.keys]) (by simp [FrameTx.opcodes, approved.keys])
    (by simp [FrameTx.opcodes, FrameTx.txParam, refs]) (by simp [FrameTx.opcodes, FrameTx.refField, refs])
    (by simp [FrameTx.opcodes, FrameTx.refField, refs]) inside
    (by simp [FrameTx.opcodes, FrameTx.frameParam, place, last, approved.target]) rfl
  refine ⟨_, answer, by simp, ?_⟩
  have facts := decode_facts ⟨frames, index, 2, 0, sp.lo, sp.hi, 1, d.sourceId, sp.root, d.self.word, payer.word⟩
  rw [facts]
  exact ⟨⟨shape, rfl, rfl, rfl, rfl, rfl, rfl, rfl, rfl, nonzero, Address.word_clean _⟩, rfl⟩

/-- The call of the pool the frame that settles makes. -/
def settleCall (tx : FrameTx) (f : Frame) (payer : Address) (b : Block) : Call where
  caller := tx.sender
  value := f.value
  data := f.data
  number := b.number
  probe := EnvelopeProbe.reply (tx.opcodes (lastIndex tx) (some payer))
  publishes := b.publishes

variable {payer : Address} {b : Block} {s : State}

theorem authenticated_of_approved (approved : Approved d tx scope f sp) (nonzero : payer.word ≠ 0) :
    Authenticated d (settleCall tx f payer b) sp payer := by
  obtain ⟨ret, answer, size, bound, paid⟩ := probe_of_approved approved nonzero
  refine ⟨approved.sender, approved.proven.nf1, approved.proven.nf2, ⟨ret, answer, size, bound, ?_⟩, approved.proven.valid⟩
  rw [paid, Address.ofWord_word]

/-- The state a settlement leaves. -/
def outcome (d : Deployment) (c : Call) (s : State) (sp : Spend) (payer : Address) : State :=
  if sp.publicAmount = 0 then settled d c s sp payer else withdrawn d c s sp payer (Address.ofWord sp.ctx)

theorem leavesOf_outcome {d : Deployment} {s : State} (ok : TreeOk d s) (c : Call) {sp : Spend} (payer : Address)
    (room : ¬ Overflows s {sp.outCm1, sp.outCm2}) :
    leavesOf (outcome d c s sp payer) = extended (extended (leavesOf s) sp.outCm1) sp.outCm2 := by
  rw [outcome]
  split_ifs
  · exact leavesOf_settled ok c payer room
  · rw [leavesOf_frame (appended_withdrawn ..)]
    exact leavesOf_settled ok c payer room

theorem dispatch_of_selects {v : Variant} {c : Call} {m : Method} (selects : Selects c m) (free : m.payable = false → c.value = 0)
    (long : 4 + m.argBytes ≤ c.data.length) : dispatch d v c s = body d v c m s := by
  obtain ⟨size, selected⟩ := selects
  rw [dispatch, revertIf_bind, if_neg (by omega), selected, ofSelector_selector]
  simp only [revertIf_bind]
  rw [if_neg fun both => both.2 (free both.1), if_neg (by omega)]

/-- What is left of the settlement once its checks have passed. -/
def settleRest (d : Deployment) (c : Call) (sp : Spend) (payer : Address) : Exec State Reply := do
  settle d c sp payer
  when (sp.publicAmount ≠ 0) (creditWithdrawal (Address.ofWord sp.ctx) sp.publicAmount)
  returnNothing

/-- A call of one of the two settlements, with a tuple of its shape. -/
inductive SettlementCall (c : Call) : Prop
  | transfer (selects : Selects c .transfer) (long : 548 ≤ c.data.length) (amount : (Spend.decode c.data 4).publicAmount = 0)
      (ctx : (Spend.decode c.data 4).ctx = 0) : SettlementCall c
  | withdraw (selects : Selects c .withdraw) (long : 580 ≤ c.data.length) (amount : (Spend.decode c.data 4).publicAmount ≠ 0)
      (nonzero : (Spend.decode c.data 4).ctx ≠ 0) (clean : Address.Clean (Spend.decode c.data 4).ctx)
      (named : wordAt c.data 548 = (Spend.decode c.data 4).ctx) : SettlementCall c

/-- Once `_spend` has let it through, only its effects are left. -/
theorem call_of_settles {c : Call} (settles : SettlementCall c) (free : c.value = 0) (authenticated : Authenticated d c (Spend.decode c.data 4) payer) :
    Logic.call d c s = settleRest d c (Spend.decode c.data 4) payer (noted s (Spend.decode c.data 4)) := by
  have spent : spend d (Logic.variant d) c (Spend.decode c.data 4) s = .ok (payer, noted s (Spend.decode c.data 4)) :=
    (spend_logic d _).mpr ⟨authenticated, rfl⟩
  rw [Logic.call, settleRest]
  cases settles with
  | transfer selects long amount ctx =>
    rw [dispatch_of_selects selects (fun _ => free) long, body, transfer, bind_assoc, throwIf_bind, if_neg (by simp [amount, ctx]), bind_assoc,
      bind_ok spent, when, if_neg (not_not.mpr amount)]
    rfl
  | withdraw selects long amount nonzero clean named =>
    have own := Address.word_ofWord clean
    have arg : addressArg c 548 s = .ok (Address.ofWord (Spend.decode c.data 4).ctx, s) := (addressArg_ok _).mpr ⟨named.trans own.symm, rfl⟩
    rw [dispatch_of_selects selects (fun _ => free) long, body, bind_ok arg, withdraw, bind_assoc, throwIf_bind,
      if_neg (not_or.mpr ⟨amount, nonzero⟩), bind_assoc, throwIf_bind, if_neg (by rw [ctxFor, own]; simp), bind_assoc, bind_ok spent, when,
      if_pos amount, bind_assoc]

theorem settles_of_approved (approved : Approved d tx scope f sp) : SettlementCall (settleCall tx f payer b) := by
  have decoded : Spend.decode (settleCall tx f payer b).data 4 = sp := approved.spend.symm
  rcases approved.call with ⟨size, selector, amount, ctx⟩ | ⟨size, selector, amount, named, recipient, ctx⟩
  · have length : (settleCall tx f payer b).data.length = 548 := size
    exact .transfer ⟨by omega, selector⟩ length.ge (decoded ▸ amount) (decoded ▸ ctx)
  · have length : (settleCall tx f payer b).data.length = 580 := size
    refine .withdraw ⟨by omega, selector⟩ length.ge (decoded ▸ amount) ?_ ?_ ?_
    · rw [decoded, ctx]
      exact recipient
    · rw [decoded, ctx]
      exact Address.word_clean _
    · rw [decoded, ctx]
      exact named

/-- After approval all the checks of the settlement pass. -/
theorem settlement_eq (approved : Approved d tx scope f sp) (nonzero : payer.word ≠ 0) :
    Logic.call d (settleCall tx f payer b) s = settleRest d (settleCall tx f payer b) sp payer (noted s sp) := by
  have decoded : Spend.decode (settleCall tx f payer b).data 4 = sp := approved.spend.symm
  have authenticated := authenticated_of_approved (b := b) approved nonzero
  rw [← decoded] at authenticated ⊢
  exact call_of_settles (settles_of_approved approved) approved.value authenticated

/-- The credits a settlement adds to still fit their words. -/
structure CreditsFit (d : Deployment) (s : State) (sp : Spend) (payer : Address) : Prop where
  fee : sp.fee ≠ 0 ∧ payer ≠ d.self → (s.feeCredit payer).toNat + sp.fee.toNat < 2 ^ 256
  withdrawal : (s.withdrawalCredit (Address.ofWord sp.ctx)).toNat + sp.publicAmount.toNat < 2 ^ 256

section Rest
variable (d : Deployment) (c : Call)

theorem settleRest_full (full : Overflows s {sp.outCm1, sp.outCm2}) :
    settleRest d c sp payer (noted s sp) = .error Error.treeFull.data := by
  have full : Overflows (noted s sp) {sp.outCm1, sp.outCm2} := full
  rw [settleRest, bind_error (by rw [settle_eq, if_pos full])]

/-- The root that the settlement publishes. -/
def newRoot (s : State) (sp : Spend) : Word := (grown d c (noted s sp) sp.outCm1 sp.outCm2).currentRoot

theorem settleRest_unpublished (room : ¬ Overflows s {sp.outCm1, sp.outCm2}) (refused : c.publishes (publication (newRoot d c s sp)) = false) :
    settleRest d c sp payer (noted s sp) = .error Error.rootPublishFailed.data := by
  have room : ¬ Overflows (noted s sp) {sp.outCm1, sp.outCm2} := room
  rw [settleRest, bind_error]
  rw [settle_eq, if_neg room]
  exact if_pos refused

theorem settleRest_fits (room : ¬ Overflows s {sp.outCm1, sp.outCm2}) (published : c.publishes (publication (newRoot d c s sp)) = true)
    (credits : CreditsFit d s sp payer) : settleRest d c sp payer (noted s sp) = .ok (.returned [], outcome d c s sp payer) := by
  have fits : Fits d c s sp payer := ⟨room, published, fun due other => credits.fee ⟨due, other⟩⟩
  rw [settleRest, bind_ok ((settle_ok d c).mpr ⟨fits, rfl⟩), when_bind, outcome]
  by_cases amount : sp.publicAmount = 0
  · rw [if_neg (not_not.mpr amount), if_pos amount]
    rfl
  · rw [if_pos amount, if_neg amount, bind_ok (by rw [creditWithdrawal_settled, if_neg (Nat.not_le.mpr credits.withdrawal)])]
    rfl

theorem settleRest_panics (room : ¬ Overflows s {sp.outCm1, sp.outCm2}) (published : c.publishes (publication (newRoot d c s sp)) = true)
    (credits : ¬ CreditsFit d s sp payer) : settleRest d c sp payer (noted s sp) = .error arithmeticPanic := by
  by_cases fee : sp.fee ≠ 0 ∧ payer ≠ d.self → (s.feeCredit payer).toNat + sp.fee.toNat < 2 ^ 256
  · have fits : Fits d c s sp payer := ⟨room, published, fun due other => fee ⟨due, other⟩⟩
    have excess : 2 ^ 256 ≤ (s.withdrawalCredit (Address.ofWord sp.ctx)).toNat + sp.publicAmount.toNat :=
      Nat.not_lt.mp fun withdrawal => credits ⟨fee, withdrawal⟩
    have amount : sp.publicAmount ≠ 0 := fun zero => by
      rw [zero] at excess
      exact absurd excess (Nat.not_le.mpr (s.withdrawalCredit _).isLt)
    rw [settleRest, bind_ok ((settle_ok d c).mpr ⟨fits, rfl⟩), when_bind, if_pos amount,
      bind_error (by rw [creditWithdrawal_settled, if_pos excess])]
  · obtain ⟨due, excess⟩ := Classical.not_imp.mp fee
    have kept (root : Word) : ((grown d c (noted s sp) sp.outCm1 sp.outCm2).publish root).feeCredit = s.feeCredit :=
      feeCredit_grown d c (noted s sp) _ _
    have room : ¬ Overflows (noted s sp) {sp.outCm1, sp.outCm2} := room
    have taken : ¬ c.publishes (publication (grown d c (noted s sp) sp.outCm1 sp.outCm2).currentRoot) = false := ne_false_of_eq_true published
    rw [settleRest, bind_error]
    rw [settle_eq, if_neg room, if_neg taken, creditFee_eq, kept, if_pos ⟨due, Nat.not_lt.mp excess⟩]

end Rest

section Fields
variable (d : Deployment) (c : Call) (s : State) (sp : Spend) (payer : Address)

theorem isLeaf_settled (cm : Word) :
    (settled d c s sp payer).isLeaf cm = true ↔ (cm = sp.outCm1 ∨ cm = sp.outCm2) ∨ s.isLeaf cm = true := by
  obtain ⟨-, -, leaf, -, -⟩ := credited_fields (d := d) ((grown d c (noted s sp) sp.outCm1 sp.outCm2).publish
    (grown d c (noted s sp) sp.outCm1 sp.outCm2).currentRoot) payer sp.fee
  obtain ⟨-, -, grownLeaf, -⟩ := grown_fields (d := d) c (noted s sp) sp.outCm1 sp.outCm2
  have same : (settled d c s sp payer).isLeaf = (added d (added d (noted s sp) sp.outCm1) sp.outCm2).isLeaf :=
    leaf.trans grownLeaf
  have before : (noted s sp).isLeaf cm = s.isLeaf cm := rfl
  rw [same, isLeaf_added, isLeaf_added, before]
  tauto

theorem nextIndex_settled :
    (settled d c s sp payer).nextIndex = s.nextIndex + (freshOutputs s {sp.outCm1, sp.outCm2}).card := by
  obtain ⟨-, index, -⟩ := credited_fields (d := d) ((grown d c (noted s sp) sp.outCm1 sp.outCm2).publish
    (grown d c (noted s sp) sp.outCm1 sp.outCm2).currentRoot) payer sp.fee
  obtain ⟨-, grownIndex, -⟩ := grown_fields (d := d) c (noted s sp) sp.outCm1 sp.outCm2
  have same : (settled d c s sp payer).nextIndex = (added d (added d (noted s sp) sp.outCm1) sp.outCm2).nextIndex :=
    index.trans grownIndex
  have fresh : freshOutputs (noted s sp) {sp.outCm1, sp.outCm2} = freshOutputs s {sp.outCm1, sp.outCm2} := rfl
  rw [same, nextIndex_added, nextIndex_added, ← fresh, card_freshOutputs d, Nat.add_assoc]
  rfl

/-- The fee goes to the payer, unless it is zero or the pool has paid. -/
def feeCreditAfter (feeCredit : Address → Word) : Address → Word :=
  if sp.fee ≠ 0 ∧ payer ≠ d.self then Function.update feeCredit payer (feeCredit payer + sp.fee) else feeCredit

theorem feeCredit_settled : (settled d c s sp payer).feeCredit = feeCreditAfter d sp payer s.feeCredit := by
  have kept : ((grown d c (noted s sp) sp.outCm1 sp.outCm2).publish
      (grown d c (noted s sp) sp.outCm1 sp.outCm2).currentRoot).feeCredit = s.feeCredit := feeCredit_grown d c (noted s sp) _ _
  simp only [settled, credited, feeCreditAfter]
  split_ifs
  · exact congrArg (fun m => Function.update m payer (m payer + sp.fee)) kept
  · exact kept

/-- The withdrawn amount goes to the address that `ctx` names. -/
def withdrawalCreditAfter (withdrawalCredit : Address → Word) : Address → Word :=
  if sp.publicAmount = 0 then withdrawalCredit
  else Function.update withdrawalCredit (Address.ofWord sp.ctx) (withdrawalCredit (Address.ofWord sp.ctx) + sp.publicAmount)

theorem outcome_fields :
    (outcome d c s sp payer).nextIndex = s.nextIndex + (freshOutputs s {sp.outCm1, sp.outCm2}).card ∧
      (∀ cm, (outcome d c s sp payer).isLeaf cm = true ↔ (cm = sp.outCm1 ∨ cm = sp.outCm2) ∨ s.isLeaf cm = true) ∧
      (outcome d c s sp payer).feeCredit = feeCreditAfter d sp payer s.feeCredit ∧
      (outcome d c s sp payer).withdrawalCredit = withdrawalCreditAfter sp s.withdrawalCredit := by
  rw [outcome, withdrawalCreditAfter]
  split_ifs
  · exact ⟨nextIndex_settled .., isLeaf_settled d c s sp payer, feeCredit_settled .., withdrawalCredit_settled ..⟩
  · refine ⟨nextIndex_settled d c s sp payer, isLeaf_settled d c s sp payer, feeCredit_settled d c s sp payer, ?_⟩
    change Function.update (settled d c s sp payer).withdrawalCredit _ _ = _
    rw [withdrawalCredit_settled]

end Fields

/-- A reachable tree has no room exactly when its leaves and the new ones pass the capacity. -/
theorem overflows_of_reachable (reachable : Reachable d s) (outputs : Finset Word) :
    Overflows s outputs ↔ 2 ^ depth < s.nextIndex + (freshOutputs s outputs).card := by
  have bound := room_of_reachable reachable
  rw [Overflows]
  omega

theorem hegota_authorize (image : Dispatcher.Image) (auth : Call) :
    Dispatcher.authorize Hegota.deployment image auth (Hegota.transferTx.opcodes 0 none) = .ok 3 :=
  dispatcher_authorize_ok.mpr hegota_granted

theorem total_zero : total (fun _ => 0) = 0 := Finset.sum_eq_zero fun _ _ => rfl

/-- Once frame 0 has approved, the frame that settles either returns with its effects or reverts
with TreeFull, and it does the latter exactly when the new outputs do not fit the tree. -/
theorem settlement_fails_only_when_full {image : Dispatcher.Image} (reachable : Reachable d s) {auth : Call} {index : Nat}
    {earlier : Option Address} (inside : index < tx.frames.length)
    (approved : Dispatcher.authorize d image auth (tx.opcodes index earlier) = .ok scope) (nonzero : payer.word ≠ 0)
    (written : ∀ data, b.publishes data = true) (last : tx.frames.getLast? = some f)
    (credits : total s.feeCredit + total s.withdrawalCredit + (Spend.decode f.data 4).fee.toNat +
      (Spend.decode f.data 4).publicAmount.toNat < 2 ^ 256) :
    f.target = d.self ∧ f.mode = .sender ∧ (f.data.length = 548 ∨ f.data.length = 580) ∧
      (Dispatcher.call d image (settleCall tx f payer b) s = .error Error.treeFull.data ↔
        2 ^ depth < s.nextIndex + (freshOutputs s {(Spend.decode f.data 4).outCm1, (Spend.decode f.data 4).outCm2}).card) ∧
      (Dispatcher.call d image (settleCall tx f payer b) s ≠ .error Error.treeFull.data →
        ∃ t, Dispatcher.call d image (settleCall tx f payer b) s = .ok (.returned [], t) ∧
          t.isLeaf (Spend.decode f.data 4).outCm1 = true ∧ t.isLeaf (Spend.decode f.data 4).outCm2 = true ∧
          t.feeCredit = feeCreditAfter d (Spend.decode f.data 4) payer s.feeCredit ∧
          t.withdrawalCredit = if f.data.length = 580 then
            Function.update s.withdrawalCredit (Address.ofWord (Spend.decode f.data 4).ctx)
              (s.withdrawalCredit (Address.ofWord (Spend.decode f.data 4).ctx) + (Spend.decode f.data 4).publicAmount)
            else s.withdrawalCredit) := by
  obtain ⟨-, g, sp, approved⟩ := approved_of_granted inside (dispatcher_authorize_ok.mp approved)
  obtain rfl : g = f := by
    have place := getLast_of_approved approved
    rw [List.getLast?_eq_getElem?] at last
    exact Option.some.inj (place.symm.trans last)
  rw [← approved.spend] at credits ⊢
  have fits : CreditsFit d s sp payer := by
    have fee := le_total s.feeCredit payer
    have withdrawal := le_total s.withdrawalCredit (Address.ofWord sp.ctx)
    exact ⟨fun _ => by omega, by omega⟩
  obtain ⟨-, leaf, feeCredit, withdrawalCredit⟩ := outcome_fields d (settleCall tx g payer b) s sp payer
  have size : (g.data.length = 548 ∧ sp.publicAmount = 0) ∨ g.data.length = 580 ∧ sp.publicAmount ≠ 0 := by
    rcases approved.call with ⟨size, -, amount, -⟩ | ⟨size, -, amount, -⟩
    · exact .inl ⟨size, amount⟩
    · exact .inr ⟨size, amount⟩
  refine ⟨approved.target, approved.mode, size.imp And.left And.left, ?_, ?_⟩
  · rw [Dispatcher.call_eq, settlement_eq approved nonzero, ← overflows_of_reachable reachable]
    by_cases full : Overflows s {sp.outCm1, sp.outCm2}
    · rw [settleRest_full d _ full]
      exact iff_of_true rfl full
    · rw [settleRest_fits d _ full (written _) fits]
      exact iff_of_false nofun full
  · rw [Dispatcher.call_eq, settlement_eq approved nonzero]
    by_cases full : Overflows s {sp.outCm1, sp.outCm2}
    · rw [settleRest_full d _ full]
      exact fun other => absurd rfl other
    · rw [settleRest_fits d _ full (written _) fits]
      refine fun _ => ⟨_, rfl, (leaf _).mpr (.inl (.inl rfl)), (leaf _).mpr (.inl (.inr rfl)), feeCredit, ?_⟩
      rw [withdrawalCredit, withdrawalCreditAfter]
      rcases size with ⟨size, amount⟩ | ⟨size, amount⟩
      · rw [if_pos amount, if_neg (by omega)]
      · rw [if_neg amount, if_pos size]

theorem settlement_fails_only_when_full_hegota :
    ∃ t, Dispatcher.call Hegota.deployment Hegota.image (settleCall Hegota.transferTx Hegota.settleFrame Hegota.address Hegota.block) genesis =
        .ok (.returned [], t) ∧ t.isLeaf Hegota.transfer.outCm1 = true ∧ t.isLeaf Hegota.transfer.outCm2 = true := by
  have payer : Hegota.address.word ≠ 0 := by decide
  have written (data : Bytes) : Hegota.block.publishes data = true := rfl
  have last : Hegota.transferTx.frames.getLast? = some Hegota.settleFrame := rfl
  have none (who : Address → Word) (blank : who = fun _ => 0) : total who = 0 := blank ▸ total_zero
  obtain ⟨-, -, -, full, settled⟩ := settlement_fails_only_when_full (.deployed : Reachable Hegota.deployment genesis) (by decide)
    (hegota_authorize Hegota.image ⟨Hegota.address, 0, [], 0, Option.none, Hegota.block.publishes⟩) payer written last (by
      rw [hegota_spend, none genesis.feeCredit rfl, none genesis.withdrawalCredit rfl]
      decide)
  rw [hegota_spend] at full settled
  have few : (freshOutputs genesis {Hegota.transfer.outCm1, Hegota.transfer.outCm2}).card ≤ 2 :=
    (Finset.card_filter_le _ _).trans Finset.card_le_two
  have room : ¬ 2 ^ depth < genesis.nextIndex + (freshOutputs genesis {Hegota.transfer.outCm1, Hegota.transfer.outCm2}).card := by
    change ¬ 2 ^ 20 < 0 + _
    omega
  obtain ⟨t, returned, first, second, -⟩ := settled fun stopped => room (full.mp stopped)
  exact ⟨t, returned, first, second⟩

end ShieldedPool.Proofs
