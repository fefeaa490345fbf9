import Mathlib.NumberTheory.LucasPrimality
import Mathlib.Tactic.NormNum.Prime

/-! Lucas' primality test as a computation, and with it the orders of the two BN254 fields. -/

namespace Lucas

/-- `a ^ k % n` by repeated squaring, for `k` of at most `fuel` bits. -/
def powMod (n : Nat) : Nat → Nat → Nat → Nat
  | 0, _, _ => 1 % n
  | fuel + 1, a, k => if k % 2 = 1 then a * powMod n fuel (a * a % n) (k / 2) % n else powMod n fuel (a * a % n) (k / 2)

theorem powMod_eq (n fuel a k : Nat) (bound : k < 2 ^ fuel) : powMod n fuel a k = a ^ k % n := by
  induction fuel generalizing a k with
  | zero =>
    obtain rfl : k = 0 := Nat.lt_one_iff.mp bound
    rfl
  | succ fuel ih =>
    have halves : a ^ k = a ^ (k % 2) * (a * a) ^ (k / 2) := by
      rw [← pow_two, ← pow_mul, ← pow_add, Nat.mod_add_div]
    rw [powMod, ih (a * a % n) (k / 2) (by omega), ← Nat.pow_mod, halves]
    split_ifs with odd
    · rw [odd, pow_one, Nat.mul_mod_mod]
    · rw [Nat.mod_two_ne_one.mp odd, pow_zero, one_mul]

/-- Lucas' test as a computation: `a` is a unit of order `n - 1`, whose factors are listed. -/
def Generates (a n : Nat) (factors : List (Nat × Nat)) : Bool :=
  1 < n && (factors.map fun q => q.1 ^ q.2).prod == n - 1 && powMod n (n.log2 + 1) a (n - 1) == 1 &&
    factors.all fun q => powMod n (n.log2 + 1) a ((n - 1) / q.1) != 1

theorem prime_of_generates {n : Nat} (a : Nat) (factors : List (Nat × Nat)) (primes : ∀ q ∈ factors, q.1.Prime)
    (generates : Generates a n factors = true) : n.Prime := by
  simp only [Generates, Bool.and_eq_true, decide_eq_true_eq, beq_iff_eq, List.all_eq_true, bne_iff_ne] at generates
  obtain ⟨⟨⟨large, product⟩, unit⟩, orders⟩ := generates
  have bits (k : Nat) (le : k ≤ n - 1) : k < 2 ^ (n.log2 + 1) :=
    lt_of_lt_of_le (by omega) (Nat.lt_log2_self).le
  have power (k : Nat) (le : k ≤ n - 1) : (a : ZMod n) ^ k = 1 ↔ powMod n (n.log2 + 1) a k = 1 := by
    rw [powMod_eq _ _ _ _ (bits k le), ← Nat.cast_pow, ← Nat.cast_one, ZMod.natCast_eq_natCast_iff', Nat.mod_eq_of_lt large]
  refine lucas_primality n a ((power _ le_rfl).mpr unit) fun q prime divides => ?_
  rw [← product] at divides
  obtain ⟨_, member, dvd⟩ := prime.prime.dvd_prod_iff.mp divides
  obtain ⟨r, listed, rfl⟩ := List.mem_map.mp member
  obtain rfl := (Nat.prime_dvd_prime_iff_eq prime (primes r listed)).mp (prime.dvd_of_dvd_pow dvd)
  exact fun one => orders r listed ((power _ (Nat.div_le_self _ _)).mp one)

private theorem prime_405928799 : Nat.Prime 405928799 :=
  prime_of_generates 22 [(2, 1), (11, 1), (4999, 1), (3691, 1)]
    (by simp only [List.forall_mem_cons]; norm_num) (by decide +kernel)

/-- The order of the BN254 scalar field. -/
theorem prime_scalarOrder : Nat.Prime 21888242871839275222246405745257275088548364400416034343698204186575808495617 := by
  have p1 : Nat.Prime 12048837557 := prime_of_generates 2 [(2, 2), (7, 2), (661, 1), (93001, 1)]
    (by simp only [List.forall_mem_cons]; norm_num) (by decide +kernel)
  have p2 : Nat.Prime 5156902474397 := prime_of_generates 2 [(2, 2), (107, 1), (12048837557, 1)]
    (by simp only [List.forall_mem_cons, p1]; norm_num) (by decide +kernel)
  have p3 : Nat.Prime 1670836401704629 := prime_of_generates 2 [(2, 2), (3, 4), (5156902474397, 1)]
    (by simp only [List.forall_mem_cons, p2]; norm_num) (by decide +kernel)
  have p4 : Nat.Prime 639533339 := prime_of_generates 2 [(2, 1), (229, 1), (853, 1), (1637, 1)]
    (by simp only [List.forall_mem_cons]; norm_num) (by decide +kernel)
  have p5 : Nat.Prime 65865678001877903 := prime_of_generates 5 [(2, 1), (1637, 1), (83, 1), (379, 1), (639533339, 1)]
    (by simp only [List.forall_mem_cons, p4]; norm_num) (by decide +kernel)
  have p6 : Nat.Prime 13818364434197438864469338081 :=
    prime_of_generates 3 [(2, 5), (5, 1), (823, 1), (1593227, 1), (65865678001877903, 1)]
      (by simp only [List.forall_mem_cons, p5]; norm_num) (by decide +kernel)
  exact prime_of_generates 5 [(2, 28), (3, 2), (13, 1), (29, 1), (983, 1), (11003, 1), (237073, 1), (405928799, 1),
      (1670836401704629, 1), (13818364434197438864469338081, 1)]
    (by simp only [List.forall_mem_cons, prime_405928799, p3, p6]; norm_num) (by decide +kernel)

/-- The order of the BN254 base field. -/
theorem prime_baseOrder : Nat.Prime 21888242871839275222246405745257275088696311157297823662689037894645226208583 := by
  have p1 : Nat.Prime 11465965001 := prime_of_generates 3 [(2, 3), (5, 4), (7, 1), (327599, 1)]
    (by simp only [List.forall_mem_cons]; norm_num) (by decide +kernel)
  have p2 : Nat.Prime 173171039 := prime_of_generates 13 [(2, 1), (73, 1), (89, 1), (13327, 1)]
    (by simp only [List.forall_mem_cons]; norm_num) (by decide +kernel)
  have p3 : Nat.Prime 1263766531 := prime_of_generates 10 [(2, 1), (3, 1), (5, 1), (13, 1), (911, 1), (3557, 1)]
    (by simp only [List.forall_mem_cons]; norm_num) (by decide +kernel)
  have p4 : Nat.Prime 35385462869 := prime_of_generates 2 [(2, 2), (7, 1), (1263766531, 1)]
    (by simp only [List.forall_mem_cons, p3]; norm_num) (by decide +kernel)
  have p5 : Nat.Prime 2480874801745591 := prime_of_generates 6 [(2, 1), (3, 2), (5, 1), (19, 1), (41, 1), (35385462869, 1)]
    (by simp only [List.forall_mem_cons, p4]; norm_num) (by decide +kernel)
  have p6 : Nat.Prime 13427688667394608761327070753331941386769 :=
    prime_of_generates 17 [(2, 4), (3, 1), (7, 1), (11, 1), (1853641, 1), (4562087, 1), (173171039, 1), (2480874801745591, 1)]
      (by simp only [List.forall_mem_cons, p2, p5]; norm_num) (by decide +kernel)
  exact prime_of_generates 3 [(2, 1), (3, 2), (13, 1), (29, 1), (67, 1), (229, 1), (311, 1), (983, 1), (11003, 1), (405928799, 1),
      (11465965001, 1), (13427688667394608761327070753331941386769, 1)]
    (by simp only [List.forall_mem_cons, prime_405928799, p1, p6]; norm_num) (by decide +kernel)

end Lucas
