import Mathlib.Algebra.BigOperators.Fin
import ShieldedPool.Wallet

/-! Soundness of the join-split constraints, whoever fills in the signals. -/

namespace ShieldedPool.Proofs
open Merkle Circuit

variable {depth : Nat} {poseidon : Poseidon} {n : InputSignals depth} {s : Signals depth}

theorem bit_of_boolean {b : Fr} (boolean : b * (b - 1) = 0) : b = 0 ∨ b = 1 :=
  (mul_eq_zero.mp boolean).imp id sub_eq_zero.mp

/-- The two wires into a node, with the claimed sibling on the side the bit says. -/
theorem wires_of_bit {b : Fr} (bit : b = 0 ∨ b = 1) (x sibling : Fr) :
    poseidon.two (x + b * (sibling - x)) (sibling + b * (x - sibling)) =
      if b = 1 then poseidon.two sibling x else poseidon.two x sibling := by
  rcases bit with clear | set
  · rw [clear, if_neg zero_ne_one, zero_mul, zero_mul, add_zero, add_zero]
  · rw [set, if_pos rfl, one_mul, one_mul, add_sub_cancel, add_sub_cancel]

/-- The `cur` signals are the climb along the claimed path. -/
theorem climb_of_wires {bits siblings : Fin depth → Fr} {cur : Fin (depth + 1) → Fr}
    (wires : ∀ i : Fin depth, cur i.succ = if bits i = 1 then poseidon.two (siblings i) (cur i.castSucc)
      else poseidon.two (cur i.castSucc) (siblings i)) :
    climb poseidon.two (cur 0) (List.ofFn fun i => (decide (bits i = 1), siblings i)) = cur (Fin.last depth) := by
  induction depth with
  | zero => rfl
  | succ depth ih =>
    have first := wires 0
    rw [Fin.castSucc_zero] at first
    rw [List.ofFn_succ, climb]
    simp only [decide_eq_true_eq]
    rw [← first]
    exact @ih (fun i => bits i.succ) (fun i => siblings i.succ) (fun i => cur i.succ) fun i => wires i.succ

theorem climb_of_note (note : InputNote poseidon n) :
    climb poseidon.two n.leaf (List.ofFn fun i => (decide (n.bits i = 1), n.siblings i)) = n.cur (Fin.last depth) := by
  rw [← note.start]
  refine climb_of_wires fun i => ?_
  rw [note.cur, note.node, note.left, note.right, wires_of_bit (bit_of_boolean (note.bits i))]

/-- A note with value ends its climb at the root. -/
theorem rooted_of_note (note : InputNote poseidon n) (nonzero : n.value ≠ 0) : n.cur (Fin.last depth) = n.root :=
  sub_eq_zero.mp ((mul_eq_zero.mp note.member).resolve_right nonzero)

theorem leaf_of_spend (satisfied : Circuit.Spend poseidon s) (k : Fin 2) : (s.note k).leaf = s.cm poseidon k := by
  have note := satisfied.note k
  have wired := satisfied.wired k
  rw [note.leaf, note.inner, note.pk, wired.spendKey, wired.rho, wired.value, Inputs.cm, Poseidon.commitment]

theorem nf_of_spend (satisfied : Circuit.Spend poseidon s) (k : Fin 2) :
    (s.note k).nf = s.nf poseidon k := by
  have note := satisfied.note k
  have wired := satisfied.wired k
  rw [note.nf, note.null, note.domainKey, leaf_of_spend satisfied, wired.domain, wired.spendKey, Inputs.nf, Poseidon.nullifier]

/-- An input with value climbs along its path to the root. -/
theorem climb_of_spend (satisfied : Circuit.Spend poseidon s) {k : Fin 2} (nonzero : s.inValue k ≠ 0) :
    climb poseidon.two (s.cm poseidon k) (s.path k) = s.root := by
  have wired := satisfied.wired k
  have climbed := climb_of_note (satisfied.note k)
  rw [leaf_of_spend satisfied, wired.bits, wired.siblings,
    rooted_of_note (satisfied.note k) (by rw [wired.value]; exact nonzero), wired.root] at climbed
  exact climbed

theorem length_path (k : Fin 2) : (s.path k).length = depth := List.length_ofFn

/-- The conservation equation over the integers. -/
theorem conserved_of_spend (satisfied : Circuit.Spend poseidon s) :
    (s.inValue 0).val + (s.inValue 1).val =
      (s.outValue 0).val + (s.outValue 1).val + s.publicAmount.val + s.fee.val := by
  have small {x : Fr} (range : Num2Bits 128 x) : x.val < 2 ^ 128 := range
  have fits : 4 * 2 ^ 128 < fieldP.toNat := by decide
  have in0 := small (satisfied.inRange 0)
  have in1 := small (satisfied.inRange 1)
  have out0 := small (satisfied.outRange 0)
  have out1 := small (satisfied.outRange 1)
  have amount := small satisfied.amountRange
  have fee := small satisfied.feeRange
  have equal : (((s.inValue 0).val + (s.inValue 1).val : Nat) : Fr) =
      (((s.outValue 0).val + (s.outValue 1).val + s.publicAmount.val + s.fee.val : Nat) : Fr) := by
    push_cast [ZMod.natCast_zmod_val]
    exact satisfied.conserved
  rw [ZMod.natCast_eq_natCast_iff', Nat.mod_eq_of_lt (by omega), Nat.mod_eq_of_lt (by omega)] at equal
  exact equal

theorem different_of_spend (satisfied : Circuit.Spend poseidon s) : s.nf1 ≠ s.nf2 := by
  intro same
  have out := satisfied.sameNullifier
  rw [satisfied.different, isEqual, if_pos same] at out
  exact zero_ne_one out

/-- The pairs that an input's path and the tree hash. -/
def queries (poseidon : Poseidon) (s : Signals depth) (k : Fin 2) (leaves : List Fr) : Set (Fr × Fr) :=
  climbPairs poseidon.two (s.cm poseidon k) (s.path k) ∪ treePairs poseidon.two (pad 0 leaves) depth 0

/-- An input with value is the leaf its bits spell. -/
theorem member_of_spend (satisfied : Circuit.Spend poseidon s) {leaves : List Fr} (root : s.root = Merkle.root poseidon.two 0 depth leaves)
    {k : Fin 2} (nonzero : s.inValue k ≠ 0) (free : CollisionFree poseidon.two (queries poseidon s k leaves))
    (filled : s.cm poseidon k ≠ 0) :
    leaves[position (s.path k)]? = some (s.cm poseidon k) := by
  have free' : CollisionFree poseidon.two (climbPairs poseidon.two (s.cm poseidon k) (s.path k) ∪
      treePairs poseidon.two (pad 0 leaves) (s.path k).length 0) := by
    rw [length_path]
    exact free
  have leaf := leaf_of_climb free' (by rw [climb_of_spend satisfied nonzero, root, Merkle.root, length_path])
  rw [Nat.mul_zero, Nat.zero_add, pad, List.getD_eq_getElem?_getD] at leaf
  cases found : leaves[position (s.path k)]? with
  | none =>
    rw [found] at leaf
    exact absurd leaf filled
  | some cm =>
    rw [found] at leaf
    exact congrArg some leaf.symm

theorem boolean_of_bit {b : Fr} (bit : b = 0 ∨ b = 1) : b * (b - 1) = 0 :=
  mul_eq_zero.mpr (bit.imp id sub_eq_zero.mpr)

/-- The witness generator's assignment to one input note. -/
theorem note_of_inputs {i : Inputs depth} {k : Fin 2} (bits : ∀ l, i.inBits k l = 0 ∨ i.inBits k l = 1)
    (member : i.inValue k ≠ 0 → climb poseidon.two (i.cm poseidon k) (i.path k) = i.root) :
    InputNote poseidon (i.noteSignals poseidon k) where
  bits l := boolean_of_bit (bits l)
  pk := rfl
  inner := rfl
  leaf := rfl
  start := rfl
  left _ := rfl
  right _ := rfl
  node _ := rfl
  cur _ := rfl
  member := by
    have climbed : climb poseidon.two (i.cm poseidon k) (i.path k) = (i.noteSignals poseidon k).cur (Fin.last depth) :=
      @climb_of_wires _ poseidon (i.inBits k) (i.inSiblings k) (i.noteSignals poseidon k).cur fun l => wires_of_bit (bits l) _ _
    by_cases worthless : i.inValue k = 0
    · exact mul_eq_zero.mpr (.inr worthless)
    · exact mul_eq_zero.mpr (.inl (sub_eq_zero.mpr (climbed.symm.trans (member worthless))))
  domainKey := rfl
  null := rfl
  nf := rfl

theorem spend_of_inputs {i : Inputs depth} (bits : ∀ k l, i.inBits k l = 0 ∨ i.inBits k l = 1)
    (member : ∀ k, i.inValue k ≠ 0 → climb poseidon.two (i.cm poseidon k) (i.path k) = i.root)
    (inRange : ∀ k, Num2Bits 128 (i.inValue k)) (outRange : ∀ k, Num2Bits 128 (i.outValue k))
    (amountRange : Num2Bits 128 i.publicAmount) (feeRange : Num2Bits 128 i.fee)
    (conserved : i.inValue 0 + i.inValue 1 = i.outValue 0 + i.outValue 1 + i.publicAmount + i.fee)
    (different : i.nf poseidon 0 ≠ i.nf poseidon 1) : Circuit.Spend poseidon (i.signals poseidon) where
  wired _ := ⟨rfl, rfl, rfl, rfl, rfl, rfl, rfl⟩
  note k := note_of_inputs (bits k) (member k)
  outCm _ := rfl
  inRange := inRange
  outRange := outRange
  amountRange := amountRange
  feeRange := feeRange
  conserved := conserved
  nf1 := rfl
  nf2 := rfl
  sameNullifier := rfl
  different := if_neg different
  outCm1 := rfl
  outCm2 := rfl

/-- What satisfying the constraints guarantees: values are conserved over the integers, the
nullifiers differ, commitments and nullifiers are those of the notes, and an input with value is a
leaf of the tree with the given root, short of a collision. -/
theorem spend_sound (satisfied : Circuit.Spend poseidon s) :
    (s.inValue 0).val + (s.inValue 1).val = (s.outValue 0).val + (s.outValue 1).val + s.publicAmount.val + s.fee.val ∧
    ∑ k with s.inValue k ≠ 0, (s.inValue k).val = ∑ k, (s.outValue k).val + s.publicAmount.val + s.fee.val ∧
    (∀ k, (s.inValue k).val < 2 ^ 128 ∧ (s.outValue k).val < 2 ^ 128) ∧
    s.publicAmount.val < 2 ^ 128 ∧ s.fee.val < 2 ^ 128 ∧ s.nf1 ≠ s.nf2 ∧
    s.outCm1 = poseidon.three 2 (s.outInner 0) (s.outValue 0) ∧ s.outCm2 = poseidon.three 2 (s.outInner 1) (s.outValue 1) ∧
    s.nf1 = poseidon.nullifier s.domain (s.inSpendKey 0) (s.cm poseidon 0) ∧
    s.nf2 = poseidon.nullifier s.domain (s.inSpendKey 1) (s.cm poseidon 1) ∧
    ∀ leaves, s.root = Merkle.root poseidon.two 0 depth leaves → ∀ k, s.inValue k ≠ 0 →
      leaves[position (s.path k)]? = some (s.cm poseidon k) ∨ s.cm poseidon k = 0 ∨
        ∃ p ∈ queries poseidon s k leaves, ∃ q ∈ queries poseidon s k leaves,
          p ≠ q ∧ poseidon.two p.1 p.2 = poseidon.two q.1 q.2 := by
  have conserved := conserved_of_spend satisfied
  refine ⟨conserved, ?_, fun k => ⟨satisfied.inRange k, satisfied.outRange k⟩, satisfied.amountRange, satisfied.feeRange,
    different_of_spend satisfied, ?_, ?_, ?_, ?_, fun leaves root k nonzero => ?_⟩
  · rw [Fin.sum_univ_two, ← conserved, ← Fin.sum_univ_two fun k => (s.inValue k).val]
    refine Finset.sum_filter_of_ne fun k _ positive zero => positive ?_
    rw [zero, ZMod.val_zero]
  · rw [satisfied.outCm1, satisfied.outCm]
  · rw [satisfied.outCm2, satisfied.outCm]
  · exact satisfied.nf1.trans (nf_of_spend satisfied 0)
  · exact satisfied.nf2.trans (nf_of_spend satisfied 1)
  · by_cases filled : s.cm poseidon k = 0
    · exact .inr (.inl filled)
    by_cases free : CollisionFree poseidon.two (queries poseidon s k leaves)
    · exact .inl (member_of_spend satisfied root nonzero free filled)
    · rw [CollisionFree] at free
      push Not at free
      obtain ⟨p, first, q, second, same, other⟩ := free
      exact .inr (.inr ⟨p, first, q, second, other, same⟩)

open Wallet.PoolChain in
theorem spend_sound_poolChain :
    ∃ s : Signals ShieldedPool.depth, s.toInputs = inputs ∧ s.nf1 ≠ s.nf2 ∧
      (s.inValue 0).val + (s.inValue 1).val = (s.outValue 0).val + (s.outValue 1).val + s.publicAmount.val + s.fee.val := by
  have satisfied : Circuit.Spend Wallet.PoolChain.poseidon (inputs.signals Wallet.PoolChain.poseidon) :=
    spend_of_inputs (fun _ _ => .inl rfl) (by decide +kernel) (by decide +kernel) (by decide +kernel) (by decide +kernel)
      (by decide +kernel) (by decide +kernel) (by decide +kernel)
  obtain ⟨conserved, -, -, -, -, different, -⟩ := spend_sound satisfied
  exact ⟨_, rfl, different, conserved⟩

end ShieldedPool.Proofs
