import Mathlib.AlgebraicGeometry.EllipticCurve.Affine.Point
import Mathlib.Data.ZMod.Basic
import Mathlib.Algebra.Field.ZMod
import ShieldedPool.Evm.Word

/-! The curve `y² = x³ + b` over a prime field. A point is written as two words, its coordinates,
and infinity as two zeros. -/

namespace Curve
open Evm

/-- The word that names the opposite of a coordinate: `mod(sub(q, y), q)`, in words that wrap. -/
def opposite (q : Nat) (y : Word) : Word := (BitVec.ofNat 256 q - y) % BitVec.ofNat 256 q

theorem toNat_opposite {q : Nat} (small : q < 2 ^ 256) {y : Word} (inside : y.toNat ≤ q) : (opposite q y).toNat = (q - y.toNat) % q := by
  have size : (BitVec.ofNat 256 q).toNat = q := by rw [BitVec.toNat_ofNat, Nat.mod_eq_of_lt small]
  have le : y ≤ BitVec.ofNat 256 q := by rwa [BitVec.le_def, size]
  rw [opposite, BitVec.toNat_umod, BitVec.toNat_sub_of_le le, size]

variable (q : Nat) [Fact q.Prime] (b : Nat)

abbrev curve : WeierstrassCurve.Affine (ZMod q) where
  a₁ := 0
  a₂ := 0
  a₃ := 0
  a₄ := 0
  a₆ := b

abbrev Point := (curve q b).Point

variable {q : Nat} [Fact q.Prime] {b : Nat}

def coordinate (x : ZMod q) : Word := BitVec.ofNat 256 x.val

/-- The two words of a point. -/
def words : Point q b → List Word
  | .zero => [0, 0]
  | .some x y _ => [coordinate x, coordinate y]

@[simp] theorem words_zero : words (0 : Point q b) = [0, 0] := rfl

@[simp] theorem length_words (P : Point q b) : (words P).length = 2 := by cases P <;> rfl

theorem toNat_coordinate (small : q ≤ 2 ^ 256) (x : ZMod q) : (coordinate x).toNat = x.val := by
  rw [coordinate, BitVec.toNat_ofNat]
  exact Nat.mod_eq_of_lt (x.val_lt.trans_le small)

theorem coordinate_injective (small : q ≤ 2 ^ 256) {x y : ZMod q} (same : coordinate x = coordinate y) : x = y := by
  apply ZMod.val_injective
  rw [← toNat_coordinate small, same, toNat_coordinate small]

theorem coordinate_zero : coordinate (0 : ZMod q) = 0 := by
  rw [coordinate, ZMod.val_zero]
  rfl

/-- `(0, 0)` is not on the curve. -/
theorem equation_zero (nonzero : ¬ q ∣ b) : ¬ (curve q b).Nonsingular 0 0 := by
  rw [WeierstrassCurve.Affine.nonsingular_zero]
  exact fun both => nonzero ((ZMod.natCast_eq_zero_iff b q).mp both.1)

/-- Two words name one point at most. -/
theorem words_injective (small : q ≤ 2 ^ 256) (nonzero : ¬ q ∣ b) : Function.Injective (words : Point q b → List Word) := by
  have apart {x y : ZMod q} (on : (curve q b).Nonsingular x y) : [coordinate x, coordinate y] ≠ [0, 0] := by
    intro same
    obtain ⟨first, second⟩ := List.cons_eq_cons.mp same
    have second := (List.cons_eq_cons.mp second).1
    rw [← coordinate_zero (q := q)] at first second
    rw [coordinate_injective small first, coordinate_injective small second] at on
    exact equation_zero nonzero on
  intro P Q same
  cases P with
  | zero =>
    cases Q with
    | zero => rfl
    | some x y on => exact absurd same.symm (apart on)
  | some x y on =>
    cases Q with
    | zero => exact absurd same (apart on)
    | some x' y' on' =>
      obtain ⟨first, second⟩ := List.cons_eq_cons.mp same
      obtain rfl := coordinate_injective small first
      obtain rfl := coordinate_injective small (List.cons_eq_cons.mp second).1
      rfl

open Classical in
/-- The point that two words name, if they do. -/
noncomputable def named (w : List Word) : Point q b := if names : ∃ P : Point q b, words P = w then names.choose else 0

theorem words_named {w : List Word} (names : ∃ P : Point q b, words P = w) : words (named w : Point q b) = w := by
  rw [named, dif_pos names]
  exact names.choose_spec

/-- Coordinates that satisfy the equation name a point. -/
theorem exists_point {x y : Nat} (odd : q ≠ 2) (inside : x < q ∧ y < q) (finite : y ≠ 0) (on : y ^ 2 % q = (x ^ 3 + b) % q) :
    ∃ P : Point q b, words P = [BitVec.ofNat 256 x, BitVec.ofNat 256 y] := by
  have equation : (curve q b).Equation (x : ZMod q) (y : ZMod q) := by
    have same := (ZMod.natCast_eq_natCast_iff' _ _ q).mpr on
    push_cast at same
    rw [WeierstrassCurve.Affine.equation_iff]
    simpa using same
  have nonzero : (y : ZMod q) ≠ 0 := by
    rw [Ne, ZMod.natCast_eq_zero_iff]
    exact fun divides => absurd (Nat.le_of_dvd (Nat.pos_of_ne_zero finite) divides) (not_le.mpr inside.2)
  have slope : (y : ZMod q) ≠ -y - 0 * x - 0 := by
    intro same
    have two : (2 : ZMod q) * y = 0 := by linear_combination same
    rcases mul_eq_zero.mp two with even | zero
    · have divides : q ∣ 2 := by
        rw [← ZMod.natCast_eq_zero_iff]
        exact_mod_cast even
      exact odd ((Nat.prime_dvd_prime_iff_eq Fact.out Nat.prime_two).mp divides)
    · exact nonzero zero
  refine ⟨.some x y ((WeierstrassCurve.Affine.nonsingular_iff ..).mpr ⟨equation, .inr slope⟩), ?_⟩
  rw [words, coordinate, coordinate, ZMod.val_cast_of_lt inside.1, ZMod.val_cast_of_lt inside.2]

theorem opposite_coordinate (small : q < 2 ^ 256) (y : ZMod q) : opposite q (coordinate y) = coordinate (-y) := by
  have inside : (coordinate y).toNat ≤ q := (toNat_coordinate small.le y).trans_le y.val_lt.le
  apply BitVec.eq_of_toNat_eq
  rw [toNat_opposite small inside, toNat_coordinate small.le, toNat_coordinate small.le, ZMod.neg_val']

theorem opposite_lt (small : q < 2 ^ 256) (y : Word) : (opposite q y).toNat < q := by
  rw [opposite, BitVec.toNat_umod, BitVec.toNat_ofNat, Nat.mod_eq_of_lt small]
  exact Nat.mod_lt _ (Nat.Prime.pos Fact.out)

/-- A coordinate below the order is its opposite's opposite. -/
theorem opposite_opposite (small : q < 2 ^ 256) {y : Word} (inside : y.toNat < q) : opposite q (opposite q y) = y := by
  have named : y = coordinate (y.toNat : ZMod q) := by
    apply BitVec.eq_of_toNat_eq
    rw [toNat_coordinate small.le, ZMod.val_cast_of_lt inside]
  rw [named, opposite_coordinate small, opposite_coordinate small, neg_neg]

theorem words_neg (small : q < 2 ^ 256) {P : Point q b} {x y : Word} (named : words P = [x, y]) : words (-P) = [x, opposite q y] := by
  cases P with
  | zero =>
    obtain ⟨rfl, second⟩ := List.cons_eq_cons.mp named
    obtain rfl := (List.cons_eq_cons.mp second).1
    change [0, 0] = _
    rw [← coordinate_zero (q := q), opposite_coordinate small, neg_zero]
  | some x' y' on =>
    obtain ⟨rfl, second⟩ := List.cons_eq_cons.mp named
    obtain rfl := (List.cons_eq_cons.mp second).1
    rw [opposite_coordinate small, WeierstrassCurve.Affine.Point.neg_some, words]
    simp [WeierstrassCurve.Affine.negY]

/-- Words above the order wrap: two of them may have one opposite. -/
theorem opposite_above (room : 3 * q ≤ 2 ^ 256) {y : Word} (inside : y.toNat < q) :
    opposite q (BitVec.ofNat 256 ((y.toNat + 2 ^ 256) % q + 2 * q)) = opposite q y := by
  have positive : 0 < q := Nat.Prime.pos Fact.out
  have small : q < 2 ^ 256 := by omega
  have size : (BitVec.ofNat 256 q).toNat = q := by rw [BitVec.toNat_ofNat, Nat.mod_eq_of_lt small]
  have rest : (y.toNat + 2 ^ 256) % q < q := Nat.mod_lt _ positive
  have whole := Nat.div_add_mod (y.toNat + 2 ^ 256) q
  generalize (y.toNat + 2 ^ 256) % q = m at rest whole ⊢
  have three : 3 ≤ (y.toNat + 2 ^ 256) / q := (Nat.le_div_iff_mul_le positive).mpr (by omega)
  generalize (y.toNat + 2 ^ 256) / q = k at whole three
  obtain ⟨j, rfl⟩ := Nat.exists_eq_add_of_le three
  apply BitVec.eq_of_toNat_eq
  rw [toNat_opposite small inside.le, opposite, BitVec.toNat_umod, BitVec.toNat_sub, BitVec.toNat_ofNat, size,
    Nat.mod_eq_of_lt (show m + 2 * q < 2 ^ 256 by omega)]
  have product : q * (3 + j) = 3 * q + q * j := by ring
  have wrapped : 2 ^ 256 - (m + 2 * q) + q = q - y.toNat + q * (j + 1) := by
    have step : q * (j + 1) = q * j + q := by ring
    omega
  have inside : q - y.toNat + q * (j + 1) < 2 ^ 256 := by omega
  rw [wrapped, Nat.mod_eq_of_lt inside, Nat.add_mul_mod_self_left]

/-- A coordinate below the order has another word with the same opposite. -/
theorem exists_same_opposite (room : 3 * q ≤ 2 ^ 256) {y : Word} (inside : y.toNat < q) :
    ∃ other, other ≠ y ∧ opposite q other = opposite q y := by
  refine ⟨_, ?_, opposite_above room inside⟩
  intro same
  have rest : (y.toNat + 2 ^ 256) % q < q := Nat.mod_lt _ (Nat.zero_lt_of_lt inside)
  have value := congrArg BitVec.toNat same
  rw [BitVec.toNat_ofNat, Nat.mod_eq_of_lt (by omega)] at value
  omega

/-- Whose opposite a pair of words names. -/
theorem words_neg_iff (small : q < 2 ^ 256) {P : Point q b} {x y : Word} :
    words (-P) = [x, opposite q y] ↔ words P = [x, opposite q (opposite q y)] := by
  constructor
  · intro named
    have back := words_neg small named
    rwa [neg_neg] at back
  · intro named
    have back := words_neg small named
    rwa [opposite_opposite small (opposite_lt small y)] at back

end Curve
