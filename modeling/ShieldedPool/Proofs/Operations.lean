import Mathlib.Data.Finset.Card
import ShieldedPool.Merkle.Frontier
import ShieldedPool.Settlement

/-! What each operation of the Solidity code does, as one equation: the checks in their
order, each with its error, and the state the operation leaves when all of them pass. -/

namespace ShieldedPool.Proofs
open Evm Exec Merkle

variable {σ α : Type}

theorem throwIf_bind (e : Error) (condition : Prop) [Decidable condition] (rest : Unit → Exec σ α) (s : σ) :
    (e.throwIf condition >>= rest) s = if condition then .error e.data else rest () s := revertIf_bind ..

theorem throwIf_apply (e : Error) (condition : Prop) [Decidable condition] (s : σ) :
    (e.throwIf condition : Exec σ Unit) s = if condition then .error e.data else .ok ((), s) := by
  by_cases holds : condition
  · rw [Error.throwIf, revertIf_pos holds, if_pos holds]
  · rw [Error.throwIf, revertIf_neg holds, if_neg holds]

theorem when_apply (condition : Prop) [Decidable condition] (x : Exec σ Unit) (s : σ) :
    when condition x s = if condition then x s else .ok ((), s) := by
  by_cases holds : condition <;> simp [when, holds]

theorem when_bind (condition : Prop) [Decidable condition] (x : Exec σ Unit) (rest : Unit → Exec σ α) (s : σ) :
    (when condition x >>= rest) s = if condition then (x >>= rest) s else rest () s := by
  by_cases holds : condition
  · rw [if_pos holds, when, if_pos holds]
  · rw [if_neg holds, when, if_neg holds]
    rfl

theorem checkedAdd_bind (a b : Word) (rest : Word → Exec σ α) (s : σ) :
    (checkedAdd a b >>= rest) s =
      if 2 ^ 256 ≤ a.toNat + b.toNat then .error arithmeticPanic else rest (a + b) s := by
  rw [checkedAdd, bind_assoc, revertIf_bind]
  rfl

variable (d : Deployment) (c : Call)

theorem filledSubtree_run {l : Nat} (inside : l ≤ depth) (s : State) :
    filledSubtree l s = .ok (s.filledSubtrees l, s) := by
  rw [filledSubtree, revertIf_bind, if_neg (by omega), read_apply]

theorem absorb_run (s : State) (fuel idx l : Nat) (node : Word) (bits : Nat) (bound : idx < 2 ^ bits)
    (inside : l + bits ≤ depth + 1) :
    absorb d fuel idx l node s = .ok (Frontier.carry d.hash2 s.filledSubtrees fuel idx l node, s) := by
  induction fuel generalizing idx l node bits with
  | zero => rfl
  | succ fuel ih =>
    rw [absorb, Frontier.carry]
    by_cases odd : idx % 2 = 1
    · cases bits with
      | zero => simp at bound; omega
      | succ bits =>
        rw [if_pos odd, if_pos odd, bind_ok (filledSubtree_run (by omega) s),
          ih (idx / 2) (l + 1) _ bits (by rw [Nat.pow_succ] at bound; omega) (by omega)]
        rfl
    · rw [if_neg odd, if_neg odd]
      rfl

/-- The state after `_insert` has placed a leaf. -/
def inserted (s : State) (cm : Word) : State :=
  { s with
    filledSubtrees := Frontier.push d.hash2 32 s.filledSubtrees s.nextIndex cm
    nextIndex := s.nextIndex + 1
    isLeaf := Function.update s.isLeaf cm true }

theorem setFilledSubtree_run {l : Nat} (inside : l ≤ depth) (node : Word) (s : State) :
    setFilledSubtree l node s = .ok ((), s.setFilled l node) := by
  rw [setFilledSubtree, revertIf_bind, if_neg (by omega), update_apply]

theorem insert_eq (s : State) (cm : Word) :
    insert d cm s =
      if 2 ^ depth ≤ s.nextIndex then .error Error.treeFull.data else .ok (s.nextIndex, inserted d s cm) := by
  rw [insert, read_bind, throwIf_bind]
  by_cases full : 2 ^ depth ≤ s.nextIndex
  · rw [if_pos full, if_pos full]
  · rw [if_neg full, if_neg full, update_bind, update_bind]
    let t : State := ({ s with nextIndex := s.nextIndex + 1 } : State).setLeaf cm
    have ran : absorb d 32 s.nextIndex 0 cm t =
        .ok (Frontier.carry d.hash2 s.filledSubtrees 32 s.nextIndex 0 cm, t) :=
      absorb_run d t 32 s.nextIndex 0 cm depth (by omega) (by decide)
    have level := Frontier.carry_level_le d.hash2 s.filledSubtrees 32 s.nextIndex 0 depth cm (by omega)
    rw [bind_ok ran, inserted, Frontier.push]
    generalize Frontier.carry d.hash2 s.filledSubtrees 32 s.nextIndex 0 cm = reached at level ⊢
    obtain ⟨l, node⟩ := reached
    exact bind_ok (setFilledSubtree_run (by simpa using level) node t)

/-- The root of the current tree. -/
def rootOf (s : State) : Word :=
  if s.nextIndex = 2 ^ depth then s.filledSubtrees depth
  else Frontier.fold d.hash2 zeros s.filledSubtrees depth 0 s.nextIndex 0

theorem foldFrontier_run (s : State) (rounds l idx : Nat) (node : Word) (inside : l + rounds ≤ depth) :
    foldFrontier d rounds l idx node s =
      .ok (Frontier.fold d.hash2 zeros s.filledSubtrees rounds l idx node, s) := by
  induction rounds generalizing l idx node with
  | zero => rfl
  | succ rounds ih =>
    rw [foldFrontier, Frontier.fold]
    by_cases even : idx % 2 = 0
    · rw [if_pos even, if_pos even, ih _ _ _ (by omega)]
      rfl
    · rw [if_neg even, if_neg even, bind_ok (filledSubtree_run (by omega) s), ih _ _ _ (by omega)]
      rfl

theorem computeRoot_eq (s : State) : computeRoot d s = .ok (rootOf d s, s) := by
  rw [computeRoot, read_bind, rootOf]
  by_cases full : s.nextIndex = 2 ^ depth
  · rw [if_pos full, if_pos full, filledSubtree_run (le_refl depth)]
  · rw [if_neg full, if_neg full, foldFrontier_run d s depth 0 s.nextIndex 0 (by omega)]

def refreshed (s : State) : State := { s with currentRoot := rootOf d s }

theorem refreshRoot_eq (s : State) : refreshRoot d s = .ok (rootOf d s, refreshed d s) := by
  rw [refreshRoot, bind_ok (computeRoot_eq d s)]
  rfl

theorem publishRoot_eq (s : State) :
    publishRoot c s = if c.publishes (publication s.currentRoot) = false then .error Error.rootPublishFailed.data
      else .ok ((), s.publish s.currentRoot) := by
  rw [publishRoot, read_bind, throwIf_bind]
  rfl

theorem publishRoot_bind (rest : Unit → Exec State α) (s : State) :
    (publishRoot c >>= rest) s =
      if c.publishes (publication s.currentRoot) = false then .error Error.rootPublishFailed.data
      else rest () (s.publish s.currentRoot) := by
  by_cases refused : c.publishes (publication s.currentRoot) = false
  · rw [if_pos refused, bind_error (by rw [publishRoot_eq, if_pos refused])]
  · rw [if_neg refused, bind_ok (by rw [publishRoot_eq, if_neg refused])]

/-- The commitment of a deposit. -/
def commitmentOf (inner value : Word) : Word := d.hash3 2 inner value

/-- A deposit recorded, before its root is published. -/
def deposited (s : State) (cm : Word) : State :=
  (refreshed d (inserted d s cm)).emit (.leafAppended cm s.nextIndex (rootOf d (inserted d s cm)) (slotOf c))

theorem shield_eq (inner : Word) (s : State) :
    shield d c inner s =
      if c.value = 0 then .error Error.zeroValueShield.data
      else if maxValue ≤ c.value then .error Error.valueTooLarge.data
      else if fieldP ≤ inner then .error Error.notCanonical.data
      else if s.isLeaf (commitmentOf d inner c.value) = true then .error Error.duplicateCommitment.data
      else if 2 ^ depth ≤ s.nextIndex then .error Error.treeFull.data
      else if c.publishes (publication (rootOf d (inserted d s (commitmentOf d inner c.value)))) = false then
        .error Error.rootPublishFailed.data
      else
        .ok (s.nextIndex, (deposited d c s (commitmentOf d inner c.value)).publish
          (rootOf d (inserted d s (commitmentOf d inner c.value)))) := by
  rw [shield, throwIf_bind, throwIf_bind, throwIf_bind, read_bind, throwIf_bind]
  refine if_congr Iff.rfl rfl (if_congr Iff.rfl rfl (if_congr Iff.rfl rfl (if_congr Iff.rfl rfl ?_)))
  by_cases full : 2 ^ depth ≤ s.nextIndex
  · rw [if_pos full, bind_error (by rw [insert_eq, if_pos full])]
  · rw [if_neg full, bind_ok (by rw [insert_eq, if_neg full]), bind_ok (refreshRoot_eq d _), update_bind,
      publishRoot_bind]
    rfl

/-- What `_validateSpend` asks of a tuple. -/
structure Valid (domain : Word) (sp : Spend) : Prop where
  domain : sp.domain = domain
  canonical : sp.Canonical
  publicAmount : sp.publicAmount < maxValue
  fee : sp.fee < maxValue

theorem error_or_ok {p : Prop} [Decidable p] {e : Bytes} {x : Except Bytes α} {a : α} :
    (if p then .error e else x) = .ok a ↔ ¬ p ∧ x = .ok a := by
  by_cases holds : p <;> simp [holds]

theorem validateSpend_ok {domain : Word} {sp : Spend} {s t : State} :
    validateSpend domain sp s = .ok ((), t) ↔ Valid domain sp ∧ t = s := by
  rw [validateSpend, throwIf_bind, throwIf_bind, throwIf_apply, error_or_ok, error_or_ok, error_or_ok]
  constructor
  · rintro ⟨same, canonical, small, returned⟩
    cases returned
    simp only [ne_eq, not_not, not_or, BitVec.not_le] at same canonical small
    exact ⟨⟨same, canonical, small.1, small.2⟩, rfl⟩
  · rintro ⟨valid, rfl⟩
    simp only [ne_eq, not_not, not_or, BitVec.not_le]
    exact ⟨valid.domain, valid.canonical, ⟨valid.publicAmount, valid.fee⟩, trivial⟩

theorem verifyProof_ok {domain : Word} {sp : Spend} {s t : State} :
    verifyProof d domain sp s = .ok ((), t) ↔ Valid domain sp ∧ d.verify sp.verifierCall = true ∧ t = s := by
  rw [verifyProof, bind_eq_ok]
  constructor
  · rintro ⟨_, mid, checked, rest⟩
    obtain ⟨valid, rfl⟩ := validateSpend_ok.mp checked
    rw [throwIf_apply, error_or_ok] at rest
    obtain ⟨accepted, returned⟩ := rest
    cases returned
    exact ⟨valid, by simpa using accepted, rfl⟩
  · rintro ⟨valid, accepted, rfl⟩
    exact ⟨(), t, validateSpend_ok.mpr ⟨valid, rfl⟩, by rw [throwIf_apply, if_neg (by simp [accepted])]⟩

/-- What `_spend` asks of the envelope. -/
structure Bound (d : Deployment) (v : Variant) (sp : Spend) (f : Facts) : Prop where
  final : f.FinalFrame
  target : f.settleTarget = d.self.word
  keyCount : f.keyCount = 2
  nonceSeq : f.nonceSeq = 0
  lo : f.k0 = sp.lo
  hi : f.k1 = sp.hi
  refCount : f.refCount = 1
  source : f.refSource = v.sourceId
  root : f.refRoot = sp.root
  payer : f.payerWord ≠ 0
  clean : Address.Clean f.payerWord

def noted (s : State) (sp : Spend) : State := (s.emit (.noteSpent sp.nf1)).emit (.noteSpent sp.nf2)

theorem envelopeFacts_ok {f : Facts} {s t : State} :
    envelopeFacts c s = .ok (f, t) ↔
      ∃ ret, c.probe = some ret ∧ ret.length = 352 ∧ f = Facts.decode ret ∧ Address.Clean f.settleTarget ∧ t = s := by
  rw [envelopeFacts]
  cases answer : c.probe with
  | none => simp [Error.throw]
  | some ret =>
    simp only [Option.some.injEq]
    rw [throwIf_bind, revertIf_bind, error_or_ok, error_or_ok]
    constructor
    · rintro ⟨size, clean, returned⟩
      cases returned
      exact ⟨ret, rfl, by simpa using size, rfl, by simpa using clean, rfl⟩
    · rintro ⟨_, rfl, size, rfl, clean, rfl⟩
      exact ⟨by simpa using size, by simpa using clean, rfl⟩

variable (v : Variant)

theorem spend_ok {sp : Spend} {payer : Address} {s t : State} :
    spend d v c sp s = .ok (payer, t) ↔
      c.caller = v.poolSender ∧ sp.nf1 ≠ 0 ∧ sp.nf2 ≠ 0 ∧
        ∃ ret mid, c.probe = some ret ∧ ret.length = 352 ∧ Bound d v sp (Facts.decode ret) ∧
          payer = Address.ofWord (Facts.decode ret).payerWord ∧ v.authenticate sp s = .ok ((), mid) ∧ t = noted mid sp := by
  rw [spend, throwIf_bind, throwIf_bind, error_or_ok, error_or_ok]
  simp only [ne_eq, not_not, not_or]
  constructor
  · rintro ⟨sender, ⟨first, second⟩, returned⟩
    obtain ⟨f, mid, facts, rest⟩ := bind_eq_ok.mp returned
    obtain ⟨ret, answer, size, rfl, clean, rfl⟩ := (envelopeFacts_ok c).mp facts
    rw [throwIf_bind, throwIf_bind, throwIf_bind, throwIf_bind] at rest
    simp only [error_or_ok, not_or, not_not] at rest
    obtain ⟨shape, keys, ref, payer, tail⟩ := rest
    obtain ⟨_, after, checked, last⟩ := bind_eq_ok.mp tail
    cases last
    exact ⟨sender, first, second, ret, after, answer, size,
      ⟨shape.1, shape.2, keys.1, keys.2.1, keys.2.2.1, keys.2.2.2, ref.1, ref.2.1, ref.2.2, payer.1, payer.2⟩,
      rfl, checked, rfl⟩
  · rintro ⟨sender, first, second, ret, mid, answer, size, bound, rfl, checked, rfl⟩
    refine ⟨sender, ⟨first, second⟩, ?_⟩
    have clean : Address.Clean (Facts.decode ret).settleTarget := by rw [bound.target]; exact Address.word_clean _
    rw [bind_ok ((envelopeFacts_ok c).mpr ⟨ret, answer, size, rfl, clean, rfl⟩), throwIf_bind, throwIf_bind,
      throwIf_bind, throwIf_bind]
    simp only [error_or_ok, not_or, not_not]
    refine ⟨⟨bound.final, bound.target⟩, ⟨bound.keyCount, bound.nonceSeq, bound.lo, bound.hi⟩,
      ⟨bound.refCount, bound.source, bound.root⟩, ⟨bound.payer, bound.clean⟩, ?_⟩
    rw [bind_ok checked]
    rfl

/-- The outputs of a spend that are not leaves yet, each counted once. -/
def freshOutputs (s : State) (outputs : Finset Word) : Finset Word := outputs.filter fun cm => s.isLeaf cm = false

/-- Insert a commitment unless it is a leaf already. -/
def added (s : State) (cm : Word) : State := if s.isLeaf cm = true then s else inserted d s cm

def leafEvents (s : State) (cm root : Word) : List Event :=
  if s.isLeaf cm = true then [] else [.leafAppended cm s.nextIndex root (slotOf c)]

/-- Both outputs inserted, and the root recomputed if that changed the tree. -/
def grown (s : State) (cm1 cm2 : Word) : State :=
  let s1 := added d s cm1
  let s2 := added d s1 cm2
  if s.isLeaf cm1 = true ∧ s1.isLeaf cm2 = true then s2
  else { refreshed d s2 with logs := s2.logs ++ leafEvents c s cm1 (rootOf d s2) ++ leafEvents c s1 cm2 (rootOf d s2) }

def credited (s : State) (payer : Address) (fee : Word) : State :=
  if fee ≠ 0 ∧ payer ≠ d.self then
    (s.setFeeCredit payer (s.feeCredit payer + fee)).emit (.feeCredited payer fee)
  else s

def indexOf (s : State) (cm : Word) : Option Nat := if s.isLeaf cm = true then none else some s.nextIndex

theorem insertNew_ok {s : State} {cm : Word} (room : ¬ s.isLeaf cm = true → s.nextIndex < 2 ^ depth) :
    insertNew d cm s = .ok (indexOf s cm, added d s cm) := by
  rw [insertNew, read_bind, indexOf, added]
  by_cases known : s.isLeaf cm = true
  · rw [if_pos known, if_pos known, if_pos known]
    rfl
  · rw [if_neg known, if_neg known, if_neg known,
      bind_ok (by rw [insert_eq, if_neg (Nat.not_le.mpr (room known))])]
    rfl

theorem insertNew_full {s : State} {cm : Word} (fresh : ¬ s.isLeaf cm = true) (full : 2 ^ depth ≤ s.nextIndex) :
    insertNew d cm s = .error Error.treeFull.data := by
  rw [insertNew, read_bind, if_neg fresh, bind_error (by rw [insert_eq, if_pos full])]

theorem nextIndex_added (s : State) (cm : Word) :
    (added d s cm).nextIndex = s.nextIndex + if s.isLeaf cm = true then 0 else 1 := by
  rw [added]
  split <;> rfl

theorem creditFee_eq (payer : Address) (fee : Word) (s : State) :
    creditFee d payer fee s =
      if (fee ≠ 0 ∧ payer ≠ d.self) ∧ 2 ^ 256 ≤ (s.feeCredit payer).toNat + fee.toNat then .error arithmeticPanic
      else .ok ((), credited d s payer fee) := by
  rw [creditFee, when_apply, credited]
  by_cases due : fee ≠ 0 ∧ payer ≠ d.self
  · rw [if_pos due, read_bind, checkedAdd_bind]
    by_cases excess : 2 ^ 256 ≤ (s.feeCredit payer).toNat + fee.toNat
    · rw [if_pos excess, if_pos ⟨due, excess⟩]
    · rw [if_neg excess, if_neg fun both => excess both.2, if_pos due]
      rfl
  · rw [if_neg due, if_neg fun both => due both.1, if_neg due]

theorem isLeaf_added (s : State) (cm other : Word) :
    (added d s cm).isLeaf other = true ↔ other = cm ∨ s.isLeaf other = true := by
  rw [added]
  by_cases known : s.isLeaf cm = true
  · rw [if_pos known]
    exact ⟨Or.inr, fun either => either.elim (fun same => same ▸ known) id⟩
  · rw [if_neg known]
    by_cases same : other = cm
    · simp [inserted, same]
    · simp [inserted, same]

theorem card_freshOutputs (s : State) (cm1 cm2 : Word) :
    (freshOutputs s {cm1, cm2}).card =
      (if s.isLeaf cm1 = true then 0 else 1) + (if (added d s cm1).isLeaf cm2 = true then 0 else 1) := by
  simp only [isLeaf_added]
  rw [freshOutputs]
  by_cases same : cm2 = cm1
  · subst same
    by_cases known : s.isLeaf cm2 = true <;> simp [Finset.filter_singleton, known]
  · have other : cm1 ∉ ({cm2} : Finset Word) := by simpa [eq_comm] using same
    rw [Finset.filter_insert, Finset.filter_singleton]
    by_cases known1 : s.isLeaf cm1 = true <;> by_cases known2 : s.isLeaf cm2 = true <;>
      simp [known1, known2, same, Finset.card_insert_of_notMem other]

/-- The outputs that are still to be inserted do not fit. -/
def Overflows (s : State) (outputs : Finset Word) : Prop :=
  0 < (freshOutputs s outputs).card ∧ 2 ^ depth < s.nextIndex + (freshOutputs s outputs).card

instance (s : State) (outputs : Finset Word) : Decidable (Overflows s outputs) := inferInstanceAs (Decidable (_ ∧ _))

theorem indexOf_isSome (s : State) (cm : Word) : (indexOf s cm).isSome = true ↔ ¬ s.isLeaf cm = true := by
  by_cases known : s.isLeaf cm = true <;> simp [indexOf, known]

theorem emitLeaf_eq (s t : State) (cm root : Word) :
    emitLeaf c cm (indexOf s cm) root t = .ok ((), { t with logs := t.logs ++ leafEvents c s cm root }) := by
  rw [indexOf, leafEvents]
  by_cases known : s.isLeaf cm = true
  · rw [if_pos known, if_pos known, List.append_nil]
    rfl
  · rw [if_neg known, if_neg known]
    rfl

/-- The middle of `_settle`, after both insertions. -/
def recordLeaves (cm1 cm2 : Word) (i1 i2 : Option Nat) : Exec State Unit :=
  when (i1.isSome ∨ i2.isSome) do
    let root ← refreshRoot d
    emitLeaf c cm1 i1 root
    emitLeaf c cm2 i2 root

theorem recordLeaves_eq (s : State) (cm1 cm2 : Word) :
    recordLeaves d c cm1 cm2 (indexOf s cm1) (indexOf (added d s cm1) cm2) (added d (added d s cm1) cm2) =
      .ok ((), grown d c s cm1 cm2) := by
  rw [recordLeaves, when_apply, grown]
  by_cases both : s.isLeaf cm1 = true ∧ (added d s cm1).isLeaf cm2 = true
  · rw [if_neg (by simp [indexOf_isSome, both]), if_pos both]
  · rw [if_pos (by simpa only [indexOf_isSome] using Decidable.not_and_iff_or_not.mp both), if_neg both,
      bind_ok (refreshRoot_eq d _),
      bind_ok (emitLeaf_eq c ..), emitLeaf_eq]
    rfl

theorem settle_unfold (sp : Spend) (payer : Address) (s : State) :
    settle d c sp payer s = (insertNew d sp.outCm1 >>= fun i1 => insertNew d sp.outCm2 >>= fun i2 =>
      recordLeaves d c sp.outCm1 sp.outCm2 i1 i2 >>= fun _ => publishRoot c >>= fun _ => creditFee d payer sp.fee) s := rfl

/-- Either each insertion finds room, or one of them does not. -/
theorem overflows_iff (s : State) (cm1 cm2 : Word) :
    Overflows s {cm1, cm2} ↔
      (¬ s.isLeaf cm1 = true ∧ 2 ^ depth ≤ s.nextIndex) ∨
        (¬ (added d s cm1).isLeaf cm2 = true ∧ 2 ^ depth ≤ (added d s cm1).nextIndex) := by
  rw [Overflows, card_freshOutputs d, nextIndex_added]
  by_cases known1 : s.isLeaf cm1 = true
  · by_cases known2 : (added d s cm1).isLeaf cm2 = true
    · rw [if_pos known1, if_pos known2]
      exact iff_of_false (fun excess => absurd excess.1 (lt_irrefl _)) fun stuck => stuck.elim (·.1 known1) (·.1 known2)
    · rw [if_pos known1, if_neg known2]
      exact ⟨fun excess => .inr ⟨known2, Nat.lt_succ_iff.mp excess.2⟩, fun stuck =>
        ⟨Nat.one_pos, Nat.lt_succ_iff.mpr (stuck.elim (absurd known1 ·.1) (·.2))⟩⟩
  · by_cases known2 : (added d s cm1).isLeaf cm2 = true
    · rw [if_neg known1, if_pos known2]
      exact ⟨fun excess => .inl ⟨known1, Nat.lt_succ_iff.mp excess.2⟩, fun stuck =>
        ⟨Nat.one_pos, Nat.lt_succ_iff.mpr (stuck.elim (·.2) (absurd known2 ·.1))⟩⟩
    · rw [if_neg known1, if_neg known2]
      exact ⟨fun excess => .inr ⟨known2, Nat.lt_succ_iff.mp excess.2⟩, fun stuck =>
        ⟨Nat.two_pos, Nat.lt_succ_iff.mpr (stuck.elim (fun full => Nat.le_succ_of_le full.2) (·.2))⟩⟩

theorem settle_eq (sp : Spend) (payer : Address) (s : State) :
    settle d c sp payer s =
      if Overflows s {sp.outCm1, sp.outCm2} then .error Error.treeFull.data
      else if c.publishes (publication (grown d c s sp.outCm1 sp.outCm2).currentRoot) = false then
        .error Error.rootPublishFailed.data
      else creditFee d payer sp.fee
        ((grown d c s sp.outCm1 sp.outCm2).publish (grown d c s sp.outCm1 sp.outCm2).currentRoot) := by
  rw [settle_unfold]
  by_cases stuck1 : ¬ s.isLeaf sp.outCm1 = true ∧ 2 ^ depth ≤ s.nextIndex
  · rw [if_pos ((overflows_iff d ..).mpr (.inl stuck1)), bind_error (insertNew_full d stuck1.1 stuck1.2)]
  · rw [bind_ok (insertNew_ok d fun fresh => Nat.not_le.mp fun full => stuck1 ⟨fresh, full⟩)]
    by_cases stuck2 : ¬ (added d s sp.outCm1).isLeaf sp.outCm2 = true ∧ 2 ^ depth ≤ (added d s sp.outCm1).nextIndex
    · rw [if_pos ((overflows_iff d ..).mpr (.inr stuck2)), bind_error (insertNew_full d stuck2.1 stuck2.2)]
    · rw [if_neg fun excess => ((overflows_iff d ..).mp excess).elim stuck1 stuck2,
        bind_ok (insertNew_ok d fun fresh => Nat.not_le.mp fun full => stuck2 ⟨fresh, full⟩),
        bind_ok (recordLeaves_eq d c s _ _), publishRoot_bind]

end ShieldedPool.Proofs
