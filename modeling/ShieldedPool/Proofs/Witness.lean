import ShieldedPool.Proofs.Circuit
import ShieldedPool.Proofs.Indexer

/-! What the wallet prepares satisfies the circuit. The wallet computes on canonical
representatives and the circuit in the field, so its hashes and tree paths are carried over. -/

namespace ShieldedPool.Proofs
open Evm Merkle Wallet

variable {poseidon : Circuit.Poseidon}

/-- A word as a field element. -/
def felt (w : Word) : Circuit.Fr := w.toNat

theorem val_fits (x : Circuit.Fr) : x.val < 2 ^ 256 := (ZMod.val_lt x).trans (BitVec.isLt fieldP)

theorem toNat_word (x : Circuit.Fr) : (BitVec.ofNat 256 x.val).toNat = x.val := by
  rw [BitVec.toNat_ofNat, Nat.mod_eq_of_lt (val_fits x)]

theorem felt_word (x : Circuit.Fr) : felt (BitVec.ofNat 256 x.val) = x := by
  rw [felt, toNat_word, ZMod.natCast_zmod_val]

theorem felt_p2 (a b : Word) : felt (poseidon.p2 a b) = poseidon.two (felt a) (felt b) := felt_word _

theorem felt_p3 (a b c : Word) : felt (poseidon.p3 a b c) = poseidon.three (felt a) (felt b) (felt c) := felt_word _

theorem val_felt {w : Word} (canonical : w < fieldP) : (felt w).val = w.toNat := ZMod.val_natCast_of_lt canonical

theorem p2_canonical (a b : Word) : poseidon.p2 a b < fieldP := by
  rw [BitVec.lt_def, Circuit.Poseidon.p2, toNat_word]
  exact ZMod.val_lt _

theorem p3_canonical (a b c : Word) : poseidon.p3 a b c < fieldP := by
  rw [BitVec.lt_def, Circuit.Poseidon.p3, toNat_word]
  exact ZMod.val_lt _

theorem root_canonical {depth : Nat} (positive : 0 < depth) (leaves : List Word) :
    Merkle.root poseidon.p2 0 depth leaves < fieldP := by
  cases depth with
  | zero => exact absurd positive (Nat.lt_irrefl 0)
  | succ depth => exact p2_canonical _ _

/-- A value that passed the range assertion. -/
theorem felt_value {v : Int} (nonneg : 0 ≤ v) (small : v < 2 ^ 128) :
    felt (BitVec.ofInt 256 v) = (v : Circuit.Fr) ∧ (v : Circuit.Fr).val = v.toNat := by
  obtain ⟨n, rfl⟩ := Int.eq_ofNat_of_zero_le nonneg
  have bound : n < 2 ^ 128 := by exact_mod_cast small
  have fits : 2 ^ 128 < fieldP.toNat := by decide
  rw [BitVec.ofInt_natCast, felt, BitVec.toNat_ofNat, Nat.mod_eq_of_lt (by omega), Int.cast_natCast,
    Int.toNat_natCast, ZMod.val_natCast_of_lt (by omega)]
  exact ⟨rfl, rfl⟩

theorem num2Bits_value {v : Int} (range : 0 ≤ v ∧ v < 2 ^ 128) : Circuit.Num2Bits 128 (v : Circuit.Fr) := by
  rw [Circuit.Num2Bits, (felt_value range.1 range.2).2]
  omega

theorem length_authPathFrom (t : Tree) (levels : List (List Word)) (rounds l i : Nat) :
    (t.authPathFrom levels rounds l i).length = rounds := by
  induction rounds generalizing l i with
  | zero => rfl
  | succ rounds ih => rw [Tree.authPathFrom, List.length_cons, ih]

theorem length_inputPath (p2 : Word → Word → Word) (t : Tree) (i : Input) : (t.inputPath p2 i).length = t.depth := by
  rw [Tree.inputPath]
  cases i.idx with
  | none => exact List.length_replicate
  | some idx => exact length_authPathFrom t _ _ _ _

/-- One step of a path as the circuit reads it. -/
theorem step_of_witness {w : Witness} {path : List (Bool × Word)} {k : Fin 2} {depth : Nat} (siblings : w.inSiblings.getD k [] = path.map Prod.snd)
    (bits : w.inBits.getD k [] = path.map fun step => step.1.toNat) (l : Fin depth) (inside : l < path.length) :
    (w.inputs depth).inBits k l = (path[l].1.toNat : Nat) ∧ (w.inputs depth).inSiblings k l = felt path[l].2 := by
  have bit : (w.inputs depth).inBits k l = (((w.inBits.getD k []).getD l 0 : Nat) : Circuit.Fr) := rfl
  have sibling : (w.inputs depth).inSiblings k l = felt ((w.inSiblings.getD k []).getD l 0) := rfl
  rw [bit, sibling, bits, siblings]
  simp [List.getD_eq_getElem?_getD, inside]

theorem bits_of_witness {w : Witness} {path : List (Bool × Word)} {k : Fin 2} {depth : Nat} (length : path.length = depth)
    (siblings : w.inSiblings.getD k [] = path.map Prod.snd) (bits : w.inBits.getD k [] = path.map fun step => step.1.toNat)
    (l : Fin depth) : (w.inputs depth).inBits k l = 0 ∨ (w.inputs depth).inBits k l = 1 := by
  have inside : (l : Nat) < path.length := length ▸ l.isLt
  rw [(step_of_witness siblings bits l inside).1]
  cases path[l].1 with
  | false => exact .inl Nat.cast_zero
  | true => exact .inr Nat.cast_one

/-- The circuit reads a path back as the wallet computed it. -/
theorem path_of_witness {w : Witness} {path : List (Bool × Word)} {k : Fin 2} {depth : Nat} (length : path.length = depth)
    (siblings : w.inSiblings.getD k [] = path.map Prod.snd) (bits : w.inBits.getD k [] = path.map fun step => step.1.toNat) :
    (w.inputs depth).path k = path.map fun step => (step.1, felt step.2) := by
  refine List.ext_getElem (by rw [List.length_map, length]; exact List.length_ofFn) fun l first last => ?_
  have inside : l < path.length := by rwa [List.length_map] at last
  obtain ⟨bit, sibling⟩ := step_of_witness siblings bits (⟨l, length ▸ inside⟩ : Fin depth) inside
  have read : decide ((path[l].1.toNat : Circuit.Fr) = 1) = path[l].1 := by
    cases path[l].1 with
    | false => exact decide_eq_false (by rw [Bool.toNat_false, Nat.cast_zero]; exact zero_ne_one)
    | true => exact decide_eq_true (by rw [Bool.toNat_true, Nat.cast_one])
  rw [List.getElem_map]
  refine (List.getElem_ofFn _).trans ?_
  rw [bit, sibling]
  exact congrArg (·, felt path[l].2) read

theorem felt_commitment (sk rho : Word) {value : Int} (range : 0 ≤ value ∧ value < 2 ^ 128) :
    felt (commitment poseidon.p2 poseidon.p3 sk rho value) = poseidon.commitment (felt sk) (felt rho) value := by
  have tags : felt 2 = 2 ∧ felt 1 = 1 ∧ felt 0 = 0 := ⟨Nat.cast_ofNat, Nat.cast_one, Nat.cast_zero⟩
  rw [commitment, Wallet.inner, ownerPk, felt_p3, felt_p2, felt_p3, (felt_value range.1 range.2).1, tags.1, tags.2.1, tags.2.2,
    Circuit.Poseidon.commitment]

theorem felt_nullifier (domain sk cm : Word) :
    felt (nullifier poseidon.p2 poseidon.p3 domain sk cm) = poseidon.nullifier (felt domain) (felt sk) (felt cm) := by
  have tag : felt 3 = 3 := Nat.cast_ofNat
  rw [nullifier, felt_p3, felt_p2, tag, Circuit.Poseidon.nullifier]

theorem felt_output (out : Word × Int) (range : 0 ≤ out.2 ∧ out.2 < 2 ^ 128) :
    felt (poseidon.p3 2 out.1 (BitVec.ofInt 256 out.2)) = poseidon.three 2 (felt out.1) out.2 := by
  have tag : felt 2 = 2 := Nat.cast_ofNat
  rw [felt_p3, (felt_value range.1 range.2).1, tag]

/-- A tracked note climbs to the root; a note without value need not. -/
theorem climb_of_input {leaves : List Word} (bound : leaves.length ≤ 2 ^ depth) {i : Input}
    (opened : ∀ idx, i.idx = some idx → leaves[idx]? = some (commitment poseidon.p2 poseidon.p3 i.sk i.rho i.value))
    (tracked : i.idx ≠ none) :
    climb poseidon.p2 (commitment poseidon.p2 poseidon.p3 i.sk i.rho i.value) ((treeOf poseidon.p2 depth leaves).inputPath poseidon.p2 i) =
      (treeOf poseidon.p2 depth leaves).root poseidon.p2 := by
  obtain ⟨idx, index⟩ := Option.ne_none_iff_exists'.mp tracked
  obtain ⟨inside, leaf⟩ := List.getElem?_eq_some_iff.mp (opened idx index)
  rw [← leaf, Tree.inputPath, index]
  exact climb_authPath_treeOf bound inside

/-- Input `k` of the map is the given one. -/
structure Prepared (p2 : Word → Word → Word) (t : Tree) (w : Witness) (k : Fin 2) (i : Input) : Prop where
  spendKey : w.inSpendKey.getD k 0 = i.sk
  rho : w.inRho.getD k 0 = i.rho
  value : w.inValue.getD k 0 = i.value
  siblings : w.inSiblings.getD k [] = (t.inputPath p2 i).map Prod.snd
  bits : w.inBits.getD k [] = (t.inputPath p2 i).map fun step => step.1.toNat
  dummy : i.idx = none → i.value = 0
  range : 0 ≤ i.value ∧ i.value < 2 ^ 128

/-- Output `k` of the map is the given one. -/
structure Paid (w : Witness) (k : Fin 2) (out : Word × Int) : Prop where
  inner : w.outInner.getD k 0 = out.1
  value : w.outValue.getD k 0 = out.2
  range : 0 ≤ out.2 ∧ out.2 < 2 ^ 128

/-- What the map holds, and what the assertions have checked of it. -/
structure Built (p2 : Word → Word → Word) (t : Tree) (w : Witness) (a b : Input) (out1 out2 : Word × Int) (domain : Word)
    (publicAmount fee : Int) (recipient : Option Address) : Prop where
  first : Prepared p2 t w 0 a
  second : Prepared p2 t w 1 b
  firstOut : Paid w 0 out1
  secondOut : Paid w 1 out2
  conserved : a.value + b.value = out1.2 + out2.2 + publicAmount + fee
  amountRange : 0 ≤ publicAmount ∧ publicAmount < 2 ^ 128
  feeRange : 0 ≤ fee ∧ fee < 2 ^ 128
  root : w.root = t.root p2
  domain : w.domain = domain
  publicAmount : w.publicAmount = publicAmount
  fee : w.fee = fee
  ctx : w.ctx = (recipient.map ctxForRecipient).getD 0

theorem built_cases {p2 : Word → Word → Word} {t : Tree} {inputs : List Input} {outputs : List (Word × Int)} {domain : Word} {publicAmount fee : Int}
    {recipient : Option Address} {w : Witness} (built : buildWitness p2 t inputs outputs domain publicAmount fee recipient = some w) :
    ∃ a b out1 out2, inputs = [a, b] ∧ outputs = [out1, out2] ∧ Built p2 t w a b out1 out2 domain publicAmount fee recipient := by
  simp only [buildWitness, Option.bind_eq_bind, Option.bind_eq_some_iff, Option.guard_eq_some', exists_const] at built
  obtain ⟨⟨two, pair⟩, dummies, conserved, ranges, same⟩ := built
  obtain ⟨a, b, rfl⟩ := List.length_eq_two.mp two
  obtain ⟨out1, out2, rfl⟩ := List.length_eq_two.mp pair
  simp only [List.map_cons, List.map_nil, List.cons_append, List.nil_append, List.forall_mem_cons] at dummies ranges
  obtain ⟨amountRange, feeRange, rangeA, rangeB, range1, range2, -⟩ := ranges
  obtain rfl := Option.some.inj same
  exact ⟨a, b, out1, out2, rfl, rfl, {
    root := rfl
    domain := rfl
    first := ⟨rfl, rfl, rfl, rfl, rfl, fun none => dummies.1.resolve_left (not_not.mpr none), rangeA⟩
    second := ⟨rfl, rfl, rfl, rfl, rfl, fun none => dummies.2.1.resolve_left (not_not.mpr none), rangeB⟩
    firstOut := ⟨rfl, rfl, range1⟩
    secondOut := ⟨rfl, rfl, range2⟩
    publicAmount := rfl
    fee := rfl
    ctx := rfl
    conserved := by simpa using conserved
    amountRange
    feeRange }⟩

namespace Prepared
variable {t : Tree} {w : Witness} {k : Fin 2} {i : Input}

theorem value_eq (prepared : Prepared poseidon.p2 t w k i) : (w.inputs depth).inValue k = (i.value : Circuit.Fr) :=
  congrArg Int.cast prepared.value

theorem cm_eq (prepared : Prepared poseidon.p2 t w k i) :
    (w.inputs depth).cm poseidon k = felt (commitment poseidon.p2 poseidon.p3 i.sk i.rho i.value) := by
  rw [felt_commitment _ _ prepared.range, ← prepared.spendKey, ← prepared.rho, ← prepared.value]
  rfl

theorem nf_eq (prepared : Prepared poseidon.p2 t w k i) :
    (w.inputs depth).nf poseidon k =
      felt (nullifier poseidon.p2 poseidon.p3 w.domain i.sk (commitment poseidon.p2 poseidon.p3 i.sk i.rho i.value)) := by
  rw [felt_nullifier, ← prepared.cm_eq, ← prepared.spendKey]
  rfl

theorem inRange (prepared : Prepared poseidon.p2 t w k i) : Circuit.Num2Bits 128 ((w.inputs depth).inValue k) := by
  rw [prepared.value_eq]
  exact num2Bits_value prepared.range

theorem climb_eq {leaves : List Word} (prepared : Prepared poseidon.p2 (treeOf poseidon.p2 depth leaves) w k i)
    (bound : leaves.length ≤ 2 ^ depth)
    (opened : ∀ idx, i.idx = some idx → leaves[idx]? = some (commitment poseidon.p2 poseidon.p3 i.sk i.rho i.value))
    (valuable : (w.inputs depth).inValue k ≠ 0) :
    climb poseidon.two ((w.inputs depth).cm poseidon k) ((w.inputs depth).path k) =
      felt ((treeOf poseidon.p2 depth leaves).root poseidon.p2) := by
  have tracked : i.idx ≠ none := by
    intro none
    rw [prepared.value_eq, prepared.dummy none] at valuable
    exact valuable Int.cast_zero
  have path : (w.inputs depth).path k = _ := path_of_witness (length_inputPath _ _ i) prepared.siblings prepared.bits
  rw [prepared.cm_eq, path, climb_map felt_p2, climb_of_input bound opened tracked]

end Prepared

theorem Paid.value_eq {w : Witness} {k : Fin 2} {out : Word × Int} (paid : Paid w k out) :
    (w.inputs depth).outValue k = (out.2 : Circuit.Fr) := congrArg Int.cast paid.value

theorem Paid.outRange {w : Witness} {k : Fin 2} {out : Word × Int} (paid : Paid w k out) :
    Circuit.Num2Bits 128 ((w.inputs depth).outValue k) := by
  rw [paid.value_eq]
  exact num2Bits_value paid.range

namespace Built
variable {leaves : List Word} {w : Witness} {a b : Input} {out1 out2 : Word × Int} {domain : Word} {publicAmount fee : Int}
  {recipient : Option Address}

theorem prepared {t : Tree} (built : Built poseidon.p2 t w a b out1 out2 domain publicAmount fee recipient) (k : Fin 2) :
    ∃ i ∈ [a, b], Prepared poseidon.p2 t w k i := by
  revert k
  exact Fin.forall_fin_two.mpr ⟨⟨a, by simp, built.first⟩, ⟨b, by simp, built.second⟩⟩

theorem conserved_eq {t : Tree} (built : Built poseidon.p2 t w a b out1 out2 domain publicAmount fee recipient) :
    (w.inputs depth).inValue 0 + (w.inputs depth).inValue 1 =
      (w.inputs depth).outValue 0 + (w.inputs depth).outValue 1 + (w.inputs depth).publicAmount + (w.inputs depth).fee := by
  have amount : (w.inputs depth).publicAmount = (publicAmount : Circuit.Fr) := congrArg Int.cast built.publicAmount
  have fee : (w.inputs depth).fee = (fee : Circuit.Fr) := congrArg Int.cast built.fee
  rw [built.first.value_eq, built.second.value_eq, built.firstOut.value_eq, built.secondOut.value_eq, amount, fee]
  exact_mod_cast congrArg (Int.cast : Int → Circuit.Fr) built.conserved

theorem satisfied (built : Built poseidon.p2 (treeOf poseidon.p2 depth leaves) w a b out1 out2 domain publicAmount fee recipient)
    (bound : leaves.length ≤ 2 ^ depth)
    (opened : ∀ i ∈ [a, b], ∀ idx, i.idx = some idx →
      leaves[idx]? = some (commitment poseidon.p2 poseidon.p3 i.sk i.rho i.value))
    (different : (w.inputs depth).nf poseidon 0 ≠ (w.inputs depth).nf poseidon 1) :
    Circuit.Spend poseidon ((w.inputs depth).signals poseidon) := by
  refine spend_of_inputs (fun k l => ?_) (fun k valuable => ?_) (fun k => ?_)
    (Fin.forall_fin_two.mpr ⟨built.firstOut.outRange, built.secondOut.outRange⟩) ?_ ?_ built.conserved_eq different
  · obtain ⟨i, -, prepared⟩ := built.prepared k
    exact bits_of_witness (length_inputPath _ _ i) prepared.siblings prepared.bits l
  · obtain ⟨i, member, prepared⟩ := built.prepared k
    have root : (w.inputs depth).root = felt ((treeOf poseidon.p2 depth leaves).root poseidon.p2) := congrArg felt built.root
    rw [root]
    exact prepared.climb_eq bound (opened i member) valuable
  · obtain ⟨i, -, prepared⟩ := built.prepared k
    exact prepared.inRange
  · exact num2Bits_value (built.publicAmount ▸ built.amountRange)
  · exact num2Bits_value (built.fee ▸ built.feeRange)

end Built

theorem ctx_fits (recipient : Option Address) : (recipient.map ctxForRecipient).getD 0 < fieldP.toNat := by
  have fits : 2 ^ 160 < fieldP.toNat := by decide
  cases recipient with
  | none => exact Nat.zero_lt_of_lt fits
  | some who => exact who.isLt.trans fits

/-- Whatever `build_witness` prepares without an assertion failing extends to a satisfying
assignment, and the public signals of that are what the wallet computes on its own. -/
theorem wallet_complete {leaves : List Word} (bound : leaves.length ≤ 2 ^ depth) {inputs : List Input} {outputs : List (Word × Int)}
    {domain : Word} {publicAmount fee : Int} {recipient : Option Address} {w : Witness}
    (opened : ∀ i ∈ inputs, ∀ idx, i.idx = some idx →
      leaves[idx]? = some (commitment poseidon.p2 poseidon.p3 i.sk i.rho i.value))
    (different : (inputNullifiers poseidon.p2 poseidon.p3 domain inputs).Nodup) (canonical : domain < fieldP)
    (built : buildWitness poseidon.p2 (treeOf poseidon.p2 depth leaves) inputs outputs domain publicAmount fee recipient = some w) :
    ∃ s : Circuit.Signals depth, s.toInputs = w.inputs depth ∧ Circuit.Spend poseidon s ∧
      s.publics.map ZMod.val = (inputNullifiers poseidon.p2 poseidon.p3 domain inputs).map BitVec.toNat ++
        (outputCommitments poseidon.p3 outputs).map BitVec.toNat ++
        [((treeOf poseidon.p2 depth leaves).root poseidon.p2).toNat, domain.toNat, publicAmount.toNat, fee.toNat,
          (recipient.map ctxForRecipient).getD 0] := by
  obtain ⟨a, b, out1, out2, rfl, rfl, filled⟩ := built_cases built
  have nf {k : Fin 2} {i : Input} (prepared : Prepared poseidon.p2 (treeOf poseidon.p2 depth leaves) w k i) :
      ((w.inputs depth).nf poseidon k).val =
        (nullifier poseidon.p2 poseidon.p3 domain i.sk (commitment poseidon.p2 poseidon.p3 i.sk i.rho i.value)).toNat := by
    rw [prepared.nf_eq, filled.domain]
    exact val_felt (p3_canonical _ _ _)
  have outCm {k : Fin 2} {out : Word × Int} (paid : Paid w k out) :
      (poseidon.three 2 ((w.inputs depth).outInner k) ((w.inputs depth).outValue k)).val =
        (poseidon.p3 2 out.1 (BitVec.ofInt 256 out.2)).toNat := by
    have inner : (w.inputs depth).outInner k = felt out.1 := congrArg felt paid.inner
    rw [inner, paid.value_eq, ← felt_output out paid.range]
    exact val_felt (p3_canonical _ _ _)
  have root : (felt w.root).val = ((treeOf poseidon.p2 depth leaves).root poseidon.p2).toNat := by
    rw [filled.root, root_treeOf bound]
    exact val_felt (root_canonical (by decide) leaves)
  have own : (felt w.domain).val = domain.toNat := by
    rw [filled.domain]
    exact val_felt canonical
  have amount : (w.publicAmount : Circuit.Fr).val = publicAmount.toNat := by
    rw [filled.publicAmount, (felt_value filled.amountRange.1 filled.amountRange.2).2]
  have charged : (w.fee : Circuit.Fr).val = fee.toNat := by
    rw [filled.fee, (felt_value filled.feeRange.1 filled.feeRange.2).2]
  have ctx : (w.ctx : Circuit.Fr).val = (recipient.map ctxForRecipient).getD 0 := by
    rw [filled.ctx]
    exact ZMod.val_natCast_of_lt (ctx_fits recipient)
  have apart : (w.inputs depth).nf poseidon 0 ≠ (w.inputs depth).nf poseidon 1 := by
    intro same
    have equal := (nf filled.first).symm.trans ((congrArg ZMod.val same).trans (nf filled.second))
    simp [inputNullifiers, BitVec.eq_of_toNat_eq equal] at different
  refine ⟨(w.inputs depth).signals poseidon, rfl, filled.satisfied bound opened apart, ?_⟩
  change [((w.inputs depth).nf poseidon 0).val, ((w.inputs depth).nf poseidon 1).val,
    (poseidon.three 2 ((w.inputs depth).outInner 0) ((w.inputs depth).outValue 0)).val,
    (poseidon.three 2 ((w.inputs depth).outInner 1) ((w.inputs depth).outValue 1)).val,
    (felt w.root).val, (felt w.domain).val, (w.publicAmount : Circuit.Fr).val, (w.fee : Circuit.Fr).val, (w.ctx : Circuit.Fr).val] = _
  rw [nf filled.first, nf filled.second, outCm filled.firstOut, outCm filled.secondOut, root, own, amount, charged, ctx]
  rfl

open PoolChain in
theorem wallet_complete_poolChain :
    ∃ s : Circuit.Signals depth, Circuit.Spend PoolChain.poseidon s ∧ s.nf1.val =
      12632788740108496001633081209501119095314177530083891179193525174248521782678 := by
  have opened : ∀ i ∈ [note, dummy], ∀ idx, i.idx = some idx →
      [nodes.getD 0 0][idx]? = some (commitment PoolChain.poseidon.p2 PoolChain.poseidon.p3 i.sk i.rho i.value) := by
    have leaf : commitment PoolChain.poseidon.p2 PoolChain.poseidon.p3 note.sk note.rho note.value = nodes.getD 0 0 := by
      decide +kernel
    intro i member idx index
    rcases List.mem_pair.mp member with rfl | rfl
    · obtain rfl := Option.some.inj index
      exact congrArg some leaf.symm
    · cases index
  have different : (inputNullifiers PoolChain.poseidon.p2 PoolChain.poseidon.p3 PoolChain.domain [note, dummy]).Nodup := by
    decide +kernel
  have recorded : (inputNullifiers PoolChain.poseidon.p2 PoolChain.poseidon.p3 PoolChain.domain [note, dummy]).map BitVec.toNat =
      [12632788740108496001633081209501119095314177530083891179193525174248521782678,
        18376581715400417506843115430827924597261880770065403417942163152909274025146] := by
    decide +kernel
  obtain ⟨s, -, satisfied, publics⟩ := @wallet_complete PoolChain.poseidon [nodes.getD 0 0] (by decide) _ outputs _ 0 0 none _
    opened different (by decide) rfl
  rw [recorded] at publics
  exact ⟨s, satisfied, (List.cons.inj publics).1⟩

end ShieldedPool.Proofs
