import Mathlib.Logic.Function.Basic
import ShieldedPool.Merkle.Tree

/-! The frontier of a tree that grows leaf by leaf: one node a level, the last completed
left subtree there. Slots whose bit of the leaf count is clear hold stale nodes. -/

namespace Merkle.Frontier
variable {α : Type} (hash : α → α → α)

/-- Absorb left siblings while the index bit is 1; the result is the level reached and
the completed subtree there. -/
def carry (filled : Nat → α) : Nat → Nat → Nat → α → Nat × α
  | 0, _, l, x => (l, x)
  | fuel + 1, idx, l, x => if idx % 2 = 1 then carry filled fuel (idx / 2) (l + 1) (hash (filled l) x) else (l, x)

def push (fuel : Nat) (filled : Nat → α) (n : Nat) (leaf : α) : Nat → α :=
  Function.update filled (carry hash filled fuel n 0 leaf).1 (carry hash filled fuel n 0 leaf).2

/-- Hash the next empty position up the frontier. -/
def fold (zeros filled : Nat → α) : Nat → Nat → Nat → α → α
  | 0, _, _, x => x
  | rounds + 1, l, idx, x =>
    fold zeros filled rounds (l + 1) (idx / 2) (if idx % 2 = 0 then hash x (zeros l) else hash (filled l) x)

/-- Wherever a bit of `n` is set, the slot holds the subtree just left of position `n`. -/
def Holds (f : Nat → α) (filled : Nat → α) (n : Nat) : Prop :=
  ∀ l, n / 2 ^ l % 2 = 1 → filled l = node hash f l (n / 2 ^ l - 1)

variable {hash} {f filled : Nat → α} {n : Nat}

theorem Holds.zero : Holds hash f filled 0 := by
  intro l odd
  simp at odd

/-- Only the leaves already placed matter. -/
theorem Holds.congr {g : Nat → α} (holds : Holds hash f filled n) (same : ∀ j, j < n → f j = g j) :
    Holds hash g filled n := by
  intro l odd
  rw [holds l odd]
  apply node_congr
  intro j _ high
  have left : n / 2 ^ l - 1 + 1 = n / 2 ^ l := by
    generalize n / 2 ^ l = k at odd
    omega
  rw [left] at high
  exact same j (high.trans_le (Nat.mul_div_le n (2 ^ l)))

theorem div_two_pow_succ (n l : Nat) : n / 2 ^ (l + 1) = n / 2 ^ l / 2 := by
  rw [Nat.div_div_eq_div_mul, Nat.pow_succ]

/-- The carry climbs while the bits of `n` are set, and stops at the first clear one. -/
theorem carry_spec (holds : Holds hash f filled n) (fuel l : Nat) (enough : n / 2 ^ l < 2 ^ fuel) :
    ∃ k, l ≤ k ∧ (∀ j, l ≤ j → j < k → n / 2 ^ j % 2 = 1) ∧ n / 2 ^ k % 2 = 0 ∧
      carry hash filled fuel (n / 2 ^ l) l (node hash f l (n / 2 ^ l)) = (k, node hash f k (n / 2 ^ k)) := by
  induction fuel generalizing l with
  | zero =>
    have none : n / 2 ^ l = 0 := Nat.lt_one_iff.mp enough
    exact ⟨l, le_refl l, fun j low high => by omega, by rw [none], rfl⟩
  | succ fuel ih =>
    by_cases odd : n / 2 ^ l % 2 = 1
    · have half := div_two_pow_succ n l
      obtain ⟨k, above, ones, clear, result⟩ := ih (l + 1) (by rw [half]; omega)
      have parent : hash (filled l) (node hash f l (n / 2 ^ l)) = node hash f (l + 1) (n / 2 ^ (l + 1)) := by
        rw [node, holds l odd, half]
        congr 2 <;> omega
      refine ⟨k, by omega, ?_, clear, ?_⟩
      · intro j low high
        by_cases here : j = l
        · rw [here]; exact odd
        · exact ones j (by omega) high
      · rw [carry, if_pos odd, parent, ← half, result]
    · exact ⟨l, le_refl l, fun j low high => by omega, by omega, by rw [carry, if_neg odd]⟩

/-- More fuel than bits changes nothing. -/
theorem carry_fuel (filled : Nat → α) (fuel more idx l : Nat) (x : α) (enough : idx < 2 ^ fuel) :
    carry hash filled (fuel + more) idx l x = carry hash filled fuel idx l x := by
  induction fuel generalizing idx l x with
  | zero =>
    have none : idx = 0 := by simpa using enough
    subst none
    cases more <;> simp [carry]
  | succ fuel ih =>
    rw [Nat.succ_add, carry, carry, ih _ _ _ (by rw [Nat.pow_succ] at enough; omega)]

theorem succ_div_two_pow_of_ones {n k : Nat} (ones : ∀ j, j < k → n / 2 ^ j % 2 = 1) : (n + 1) / 2 ^ k = n / 2 ^ k + 1 ∧
    ∀ j, j < k → (n + 1) / 2 ^ j % 2 = 0 := by
  induction k with
  | zero => exact ⟨by simp, fun j inside => by omega⟩
  | succ k ih =>
    obtain ⟨next, clear⟩ := ih fun j inside => ones j (by omega)
    have odd := ones k (by omega)
    refine ⟨?_, ?_⟩
    · rw [div_two_pow_succ, div_two_pow_succ, next]; omega
    · intro j inside
      by_cases here : j = k
      · rw [here, next]; omega
      · exact clear j (by omega)

theorem succ_div_two_pow_of_clear {n k j : Nat} (next : (n + 1) / 2 ^ k = n / 2 ^ k + 1) (clear : n / 2 ^ k % 2 = 0)
    (above : k < j) : (n + 1) / 2 ^ j = n / 2 ^ j := by
  obtain ⟨d, rfl⟩ := Nat.exists_eq_add_of_lt above
  induction d with
  | zero => rw [Nat.add_zero, div_two_pow_succ, div_two_pow_succ, next]; omega
  | succ d ih =>
    have back := ih (by omega)
    rw [← Nat.add_assoc, div_two_pow_succ (n + 1) (k + d + 1), div_two_pow_succ n (k + d + 1), back]

/-- Recording a leaf keeps the frontier; only the slot of the first clear bit is written. -/
theorem Holds.push (holds : Holds hash f filled n) {leaf : α} (placed : f n = leaf) {fuel : Nat} (enough : n < 2 ^ fuel) :
    Holds hash f (push hash fuel filled n leaf) (n + 1) := by
  obtain ⟨k, -, ones, clear, result⟩ := carry_spec holds fuel 0 (by simpa using enough)
  simp only [Nat.pow_zero, Nat.div_one, node, placed] at result
  obtain ⟨next, low⟩ := succ_div_two_pow_of_ones fun j inside => ones j (by omega) inside
  intro l odd
  rw [Frontier.push, result]
  rcases Nat.lt_trichotomy l k with below | rfl | above
  · have even := low l below
    omega
  · rw [Function.update_self, next, Nat.add_sub_cancel]
  · have same := succ_div_two_pow_of_clear next clear above
    rw [Function.update_of_ne (by omega), same]
    exact holds l (by rw [← same]; exact odd)

variable (hash) in
/-- The level the carry reaches is below every bound the index respects. -/
theorem carry_level_le (filled : Nat → α) (fuel idx l depth : Nat) (x : α) (inside : idx < 2 ^ depth) :
    (carry hash filled fuel idx l x).1 ≤ l + depth := by
  induction fuel generalizing idx l x depth with
  | zero => simp [carry]
  | succ fuel ih =>
    rw [carry]
    by_cases odd : idx % 2 = 1
    · cases depth with
      | zero => simp at inside; omega
      | succ depth =>
        rw [if_pos odd]
        have bound := ih (idx / 2) (l + 1) depth (hash (filled l) x) (by rw [Nat.pow_succ] at inside; omega)
        omega
    · rw [if_neg odd]; omega

/-- Folding from a node on the path of position `n` gives its ancestor. -/
theorem fold_spec {zero : α} {zeros : Nat → α} (holds : Holds hash f filled n) (blank : ∀ j, n ≤ j → f j = zero)
    (rounds l : Nat) (table : ∀ j, j < l + rounds → zeros j = zeroNode hash zero j) :
    fold hash zeros filled rounds l (n / 2 ^ l) (node hash f l (n / 2 ^ l)) =
      node hash f (l + rounds) (n / 2 ^ (l + rounds)) := by
  induction rounds generalizing l with
  | zero => rfl
  | succ rounds ih =>
    have half := div_two_pow_succ n l
    have parent : (if n / 2 ^ l % 2 = 0 then hash (node hash f l (n / 2 ^ l)) (zeros l)
        else hash (filled l) (node hash f l (n / 2 ^ l))) = node hash f (l + 1) (n / 2 ^ (l + 1)) := by
      rw [node, half]
      by_cases even : n / 2 ^ l % 2 = 0
      · have beyond : n ≤ 2 ^ l * (n / 2 ^ l + 1) := (Nat.lt_mul_div_succ n (Nat.two_pow_pos l)).le
        rw [if_pos even, table l (by omega), ← node_eq_zeroNode blank beyond]
        congr 2 <;> omega
      · rw [if_neg even, holds l (by omega)]
        congr 2 <;> omega
    rw [fold, parent, ← half, ih (l + 1) fun j inside => table j (by omega)]
    congr 1
    · omega
    · congr 2; omega

/-- The root of a tree that still has an empty position. -/
theorem fold_root {zero : α} {zeros : Nat → α} (holds : Holds hash f filled n) (blank : ∀ j, n ≤ j → f j = zero)
    {depth : Nat} (room : n < 2 ^ depth) (table : ∀ j, j < depth → zeros j = zeroNode hash zero j) :
    fold hash zeros filled depth 0 n zero = node hash f depth 0 := by
  have folded := fold_spec holds blank depth 0 (by simpa using table)
  simp only [Nat.pow_zero, Nat.div_one, node, blank n (le_refl n), Nat.zero_add] at folded
  rw [folded, Nat.div_eq_of_lt room]

/-- The root of a full tree is in the slot above the others. -/
theorem full_root {depth : Nat} (holds : Holds hash f filled (2 ^ depth)) : filled depth = node hash f depth 0 := by
  have one : 2 ^ depth / 2 ^ depth = 1 := Nat.div_self (Nat.two_pow_pos depth)
  have slot := holds depth (by rw [one])
  rwa [one] at slot

/-- The number of trailing ones, which is the level whose slot leaf `n` completes. -/
def slotOf : Nat → Nat → Nat
  | 0, _ => 0
  | fuel + 1, n => if n % 2 = 1 then slotOf fuel (n / 2) + 1 else 0

theorem carry_level (filled : Nat → α) (fuel idx l : Nat) (x : α) :
    (carry hash filled fuel idx l x).1 = l + slotOf fuel idx := by
  induction fuel generalizing idx l x with
  | zero => rfl
  | succ fuel ih =>
    rw [carry, slotOf]
    by_cases odd : idx % 2 = 1
    · rw [if_pos odd, if_pos odd, ih]
      omega
    · rw [if_neg odd, if_neg odd]
      rfl

/-- Leaf `n` is the last of a subtree of `2 ^ l` leaves on a left side. -/
theorem slotOf_completed {fuel l k : Nat} (inside : l < fuel) (even : k % 2 = 0) : slotOf fuel (2 ^ l * (k + 1) - 1) = l := by
  induction l generalizing fuel k with
  | zero =>
    obtain ⟨fuel, rfl⟩ : ∃ m, fuel = m + 1 := ⟨fuel - 1, by omega⟩
    rw [slotOf, if_neg (by simp; omega)]
  | succ l ih =>
    obtain ⟨fuel, rfl⟩ : ∃ m, fuel = m + 1 := ⟨fuel - 1, by omega⟩
    have positive : 0 < 2 ^ l * (k + 1) := Nat.mul_pos (Nat.two_pow_pos l) (Nat.succ_pos k)
    have double : 2 ^ (l + 1) * (k + 1) = 2 * (2 ^ l * (k + 1)) := by ring
    have half : (2 ^ (l + 1) * (k + 1) - 1) / 2 = 2 ^ l * (k + 1) - 1 := by omega
    rw [slotOf, if_pos (by omega), half, ih (by omega) even]

/-- A slot whose bit of `n` is set was written before. -/
theorem written_of_set {fuel n l : Nat} (inside : l < fuel) (odd : n / 2 ^ l % 2 = 1) : ∃ j, j < n ∧ slotOf fuel j = l := by
  have left : n / 2 ^ l - 1 + 1 = n / 2 ^ l := by
    generalize n / 2 ^ l = k at odd
    omega
  have positive : 0 < 2 ^ l * (n / 2 ^ l) := Nat.mul_pos (Nat.two_pow_pos l) (by omega)
  have bound := Nat.mul_div_le n (2 ^ l)
  refine ⟨2 ^ l * (n / 2 ^ l - 1 + 1) - 1, by rw [left]; omega, slotOf_completed inside (by omega)⟩

end Merkle.Frontier
