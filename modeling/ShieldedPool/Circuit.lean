import Mathlib.Data.ZMod.Basic
import ShieldedPool.Field.Lucas
import ShieldedPool.Interface
import ShieldedPool.Merkle.Tree

/-! The join-split circuit spend.circom. An assignment gives every signal of a template a
value in the BN254 scalar field, and the template is the list of its constraints. -/

namespace ShieldedPool.Circuit

abbrev Fr := ZMod fieldP.toNat

theorem prime_fieldP : Nat.Prime fieldP.toNat := Lucas.prime_scalarOrder

instance : Fact (Nat.Prime fieldP.toNat) := ⟨prime_fieldP⟩

/-- `Poseidon(2)` and `Poseidon(3)`. -/
structure Poseidon where
  two : Fr → Fr → Fr
  three : Fr → Fr → Fr → Fr

/-- `Num2Bits(n)`. -/
def Num2Bits (n : Nat) (x : Fr) : Prop := x.val < 2 ^ n

instance (n : Nat) (x : Fr) : Decidable (Num2Bits n x) := inferInstanceAs (Decidable (_ < _))

/-- `IsEqual().out` -/
def isEqual (a b : Fr) : Fr := if a = b then 1 else 0

structure InputSignals (depth : Nat) where
  root : Fr
  domain : Fr
  spendKey : Fr
  rho : Fr
  value : Fr
  siblings : Fin depth → Fr
  bits : Fin depth → Fr
  nf : Fr
  pk : Fr
  inner : Fr
  leaf : Fr
  node : Fin depth → Fr
  left : Fin depth → Fr
  right : Fin depth → Fr
  cur : Fin (depth + 1) → Fr
  domainKey : Fr
  null : Fr

/-- One input note: its nullifier, and a path that has to end at the root if it has value. -/
structure InputNote {depth : Nat} (poseidon : Poseidon) (s : InputSignals depth) : Prop where
  bits : ∀ i, s.bits i * (s.bits i - 1) = 0
  pk : s.pk = poseidon.three 1 s.spendKey 0
  inner : s.inner = poseidon.two s.pk s.rho
  leaf : s.leaf = poseidon.three 2 s.inner s.value
  start : s.cur 0 = s.leaf
  left : ∀ i, s.left i = s.cur i.castSucc + s.bits i * (s.siblings i - s.cur i.castSucc)
  right : ∀ i, s.right i = s.siblings i + s.bits i * (s.cur i.castSucc - s.siblings i)
  node : ∀ i, s.node i = poseidon.two (s.left i) (s.right i)
  cur : ∀ i : Fin depth, s.cur i.succ = s.node i
  member : (s.cur (Fin.last depth) - s.root) * s.value = 0
  domainKey : s.domainKey = poseidon.two s.domain s.spendKey
  null : s.null = poseidon.three 3 s.domainKey s.leaf
  nf : s.nf = s.null

structure Inputs (depth : Nat) where
  root : Fr
  domain : Fr
  inSpendKey : Fin 2 → Fr
  inRho : Fin 2 → Fr
  inValue : Fin 2 → Fr
  inSiblings : Fin 2 → Fin depth → Fr
  inBits : Fin 2 → Fin depth → Fr
  outInner : Fin 2 → Fr
  outValue : Fin 2 → Fr
  publicAmount : Fr
  fee : Fr
  ctx : Fr

structure Signals (depth : Nat) extends Inputs depth where
  nf1 : Fr
  nf2 : Fr
  outCm1 : Fr
  outCm2 : Fr
  note : Fin 2 → InputSignals depth
  outCm : Fin 2 → Fr
  sameNullifier : Fr

/-- What `note[k]` is wired to. -/
structure Wired {depth : Nat} (s : Signals depth) (k : Fin 2) : Prop where
  root : (s.note k).root = s.root
  domain : (s.note k).domain = s.domain
  spendKey : (s.note k).spendKey = s.inSpendKey k
  rho : (s.note k).rho = s.inRho k
  value : (s.note k).value = s.inValue k
  siblings : (s.note k).siblings = s.inSiblings k
  bits : (s.note k).bits = s.inBits k

structure Spend {depth : Nat} (poseidon : Poseidon) (s : Signals depth) : Prop where
  wired : ∀ k, Wired s k
  note : ∀ k, InputNote poseidon (s.note k)
  outCm : ∀ k, s.outCm k = poseidon.three 2 (s.outInner k) (s.outValue k)
  inRange : ∀ k, Num2Bits 128 (s.inValue k)
  outRange : ∀ k, Num2Bits 128 (s.outValue k)
  amountRange : Num2Bits 128 s.publicAmount
  feeRange : Num2Bits 128 s.fee
  conserved : s.inValue 0 + s.inValue 1 = s.outValue 0 + s.outValue 1 + s.publicAmount + s.fee
  nf1 : s.nf1 = (s.note 0).nf
  nf2 : s.nf2 = (s.note 1).nf
  sameNullifier : s.sameNullifier = isEqual s.nf1 s.nf2
  different : s.sameNullifier = 0
  outCm1 : s.outCm1 = s.outCm 0
  outCm2 : s.outCm2 = s.outCm 1

/-- The public signals in the verifier's order. -/
def Signals.publics {depth : Nat} (s : Signals depth) : List Fr :=
  [s.nf1, s.nf2, s.outCm1, s.outCm2, s.root, s.domain, s.publicAmount, s.fee, s.ctx]

namespace Poseidon
variable (poseidon : Poseidon)

/-- The leaf of a note with the given secrets. -/
def commitment (spendKey rho value : Fr) : Fr :=
  poseidon.three 2 (poseidon.two (poseidon.three 1 spendKey 0) rho) value

def nullifier (domain spendKey cm : Fr) : Fr := poseidon.three 3 (poseidon.two domain spendKey) cm

end Poseidon

namespace Inputs
variable {depth : Nat} (poseidon : Poseidon) (s : Inputs depth) (k : Fin 2)

def cm : Fr := poseidon.commitment (s.inSpendKey k) (s.inRho k) (s.inValue k)

def nf : Fr := poseidon.nullifier s.domain (s.inSpendKey k) (s.cm poseidon k)

/-- The path an input claims: at every level the side its bit says and the sibling. -/
def path : List (Bool × Fr) := List.ofFn fun i => (decide (s.inBits k i = 1), s.inSiblings k i)

def noteSignals : InputSignals depth :=
  let pk := poseidon.three 1 (s.inSpendKey k) 0
  let inner := poseidon.two pk (s.inRho k)
  let leaf := poseidon.three 2 inner (s.inValue k)
  let left (i : Fin depth) (cur : Fr) := cur + s.inBits k i * (s.inSiblings k i - cur)
  let right (i : Fin depth) (cur : Fr) := s.inSiblings k i + s.inBits k i * (cur - s.inSiblings k i)
  let cur : Fin (depth + 1) → Fr := Fin.induction leaf fun i x => poseidon.two (left i x) (right i x)
  let domainKey := poseidon.two s.domain (s.inSpendKey k)
  let null := poseidon.three 3 domainKey leaf
  { root := s.root, domain := s.domain, spendKey := s.inSpendKey k, rho := s.inRho k, value := s.inValue k,
    siblings := s.inSiblings k, bits := s.inBits k, nf := null, pk, inner, leaf, node := fun i => cur i.succ,
    left := fun i => left i (cur i.castSucc), right := fun i => right i (cur i.castSucc), cur, domainKey, null }

/-- Every `<==` carried out in order. -/
def signals : Signals depth :=
  let nf (k : Fin 2) := (s.noteSignals poseidon k).nf
  let outCm (k : Fin 2) := poseidon.three 2 (s.outInner k) (s.outValue k)
  { s with
    nf1 := nf 0, nf2 := nf 1, outCm1 := outCm 0, outCm2 := outCm 1, note := s.noteSignals poseidon, outCm,
    sameNullifier := isEqual (nf 0) (nf 1) }

end Inputs

end ShieldedPool.Circuit
