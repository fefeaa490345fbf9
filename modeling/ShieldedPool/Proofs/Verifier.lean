import Mathlib.Algebra.BigOperators.Group.List.Basic
import ShieldedPool.Field.Lucas
import ShieldedPool.Field.Curve
import ShieldedPool.Verifier

/-! What the verifier accepts: nine canonical signals and a proof that solves the Groth16 equation,
whatever the call data. -/

namespace ShieldedPool.Groth16Verifier
open Evm Exec Yul Curve

instance : Fact (Nat.Prime q.toNat) := ⟨Lucas.prime_baseOrder⟩

/-- The group of the curve `y² = x³ + 3`. -/
abbrev G1 := Point q.toNat 3

/-- The other side of the pairing, as EIP-197 writes it, with the points of the verification key. -/
structure Setting (G₂ T : Type) [AddCommGroup G₂] [AddCommGroup T] where
  twist : G₂ → List Word
  length_twist : ∀ Q, (twist Q).length = 4
  injective : Function.Injective twist
  e : G1 →+ G₂ →+ T
  beta : G₂
  gamma : G₂
  delta : G₂
  twist_beta : twist beta = [betax1, betax2, betay1, betay2]
  twist_gamma : twist gamma = [gammax1, gammax2, gammay1, gammay2]
  twist_delta : twist delta = [deltax1, deltax2, deltay1, deltay2]

variable {G₂ T : Type} [AddCommGroup G₂] [AddCommGroup T]

/-- EIP-196 and EIP-197: addition, multiplication, and the product of pairings. -/
structure Precompiles (callee : Address → Bytes → Except Bytes Bytes) (s : Setting G₂ T) : Prop where
  add : ∀ P Q : G1, callee 6 (encodeWords (words P ++ words Q)) = .ok (encodeWords (words (P + Q)))
  mul : ∀ (P : G1) (n : Word), callee 7 (encodeWords (words P ++ [n])) = .ok (encodeWords (words (n.toNat • P)))
  one : ∀ pairs : List (G1 × G₂), (pairs.map fun r => s.e r.1 r.2).sum = 0 →
    callee 8 (encodeWords (pairs.flatMap fun r => words r.1 ++ s.twist r.2)) = .ok (encodeWord 1)
  zero : ∀ pairs : List (G1 × G₂), (pairs.map fun r => s.e r.1 r.2).sum ≠ 0 →
    callee 8 (encodeWords (pairs.flatMap fun r => words r.1 ++ s.twist r.2)) = .ok (encodeWord 0)
  valid : ∀ input out, callee 8 input = .ok out →
    ∃ pairs : List (G1 × G₂), input = encodeWords (pairs.flatMap fun r => words r.1 ++ s.twist r.2)

theorem small : q.toNat < 2 ^ 256 := q.isLt

theorem three_nonzero : ¬ q.toNat ∣ 3 := by decide

theorem on_curve {x y : Word} (on : x.toNat < q.toNat ∧ y.toNat < q.toNat ∧ y.toNat ≠ 0 ∧ y.toNat ^ 2 % q.toNat = (x.toNat ^ 3 + 3) % q.toNat) :
    ∃ P : G1, words P = [x, y] := by
  obtain ⟨first, second, finite, equation⟩ := on
  obtain ⟨P, named⟩ := exists_point (b := 3) (by decide) ⟨first, second⟩ finite equation
  rw [BitVec.ofNat_toNat, BitVec.ofNat_toNat, BitVec.setWidth_eq, BitVec.setWidth_eq] at named
  exact ⟨P, named⟩

noncomputable def alpha : G1 := named [alphax, alphay]

noncomputable def point (p : Word × Word) : G1 := named [p.1, p.2]

theorem words_alpha : words alpha = [alphax, alphay] := words_named (on_curve (by decide +kernel))

theorem words_ic0 : words (point ic0) = [ic0.1, ic0.2] := words_named (on_curve (by decide +kernel))

theorem words_ics : ∀ p ∈ ics, words (point p) = [p.1, p.2] := by
  have on : (ics.all fun p => p.1.toNat < q.toNat ∧ p.2.toNat < q.toNat ∧ p.2.toNat ≠ 0 ∧
      p.2.toNat ^ 2 % q.toNat = (p.1.toNat ^ 3 + 3) % q.toNat) = true := by
    decide +kernel
  intro p member
  exact words_named (on_curve (of_decide_eq_true (List.all_eq_true.mp on p member)))

/-- `vk_x`, the public side of the equation. -/
noncomputable def publicPoint (signals : List Word) : G1 :=
  point ic0 + (List.zipWith (fun p (n : Word) => n.toNat • point p) ics signals).sum

/-- The Groth16 equation for the points that the proof's words name. The second coordinate of the
first point is read through a subtraction that wraps. -/
def Equation (s : Setting G₂ T) (proof signals : List Word) : Prop :=
  ∃ A B C, words A ++ s.twist B ++ words C = proof.modify 1 (fun y => opposite q.toNat (opposite q.toNat y)) ∧
    s.e A B = s.e alpha s.beta + s.e (publicPoint signals) s.gamma + s.e C s.delta

section
variable {env : Env} {s : Setting G₂ T} {ω : Type}

theorem leave_eq {α : Type} (w : Word) : (leave w : Program ω α) = Exec.revert (encodeWord w) := by
  funext m
  exact congrArg Except.error (Memory.load_storeWord_same m.memory 0 w)

theorem leaveIf_eq (condition : Word) : (leaveIf condition : Program ω Unit) = Exec.revertIf (condition ≠ 0) (encodeWord 0) := by
  rw [leaveIf, leave_eq]
  rfl

theorem leaveIf_one : (leaveIf (Op.iszero 1) : Program ω Unit) = pure () := by
  rw [leaveIf_eq]
  exact if_neg (by decide)

/-- A point in memory. -/
theorem loadWord_of_load {memory : Memory} {offset : Nat} {x y : Word} (stored : memory.load offset 64 = encodeWords [x, y]) :
    memory.loadWord offset = x ∧ memory.loadWord (offset + 32) = y := by
  constructor
  · have first := Memory.wordAt_load memory offset 64 0 (by decide)
    rw [stored] at first
    exact first.symm.trans (wordAt_encodeWords [x, y] 0 (by simp) [])
  · have second := Memory.wordAt_load memory offset 64 32 (by decide)
    rw [stored] at second
    exact second.symm.trans (wordAt_encodeWords [x, y] 1 (by simp) [])

/-- The memory that the verifier works on: the free memory pointer, and the point so far. -/
structure Holds (m : Machine ω) (P : G1) : Prop where
  free : m.memory.loadWord 0x40 = 0x400
  point : m.memory.load 128 64 = encodeWords (words P)

theorem words_pair (P : G1) : ∃ x y, words P = [x, y] := by
  cases P with
  | zero => exact ⟨_, _, rfl⟩
  | some x y on => exact ⟨_, _, rfl⟩

theorem g1MulAccC_ok (pre : Precompiles env.callee s) {m : Machine ω} {P G : G1} (holds : Holds m P) {x y : Word} (names : words G = [x, y])
    (n : Word) : ∃ t, g1MulAccC env 128 x y n m = .ok ((), t) ∧ Holds t (P + n.toNat • G) := by
  obtain ⟨free, point⟩ := holds
  obtain ⟨px, py, coordinates⟩ := words_pair P
  obtain ⟨qx, qy, product⟩ := words_pair (n.toNat • G)
  have multiplied := pre.mul G n
  have added := pre.add (n.toNat • G) P
  rw [names] at multiplied
  rw [product] at multiplied added
  rw [coordinates] at added point
  -- The product comes back where its factors were.
  let laid : Memory := m.memory.storeWords 1024 [x, y, n]
  let back : Memory := laid.storeWords 1024 [qx, qy]
  have factors : laid.load 1024 96 = encodeWords ([x, y] ++ [n]) := Memory.load_store_words _ _ _ rfl
  have stored : laid.store 1024 ((encodeWords [qx, qy]).take 64) = back := by
    rw [List.take_of_length_le (by simp), ← Memory.storeWords_eq_store]
  have kept : back.load 128 64 = encodeWords [px, py] := by
    rw [Memory.load_storeWords_other _ _ _ (by simp), Memory.load_storeWords_other _ _ _ (by simp), point]
  obtain ⟨first, second⟩ := loadWord_of_load kept
  let ready : Memory := back.storeWords 1088 [px, py]
  have summands : ready.load 1024 128 = encodeWords ([qx, qy] ++ [px, py]) := by
    have whole : ready = laid.storeWords 1024 ([qx, qy] ++ [px, py]) := (Memory.storeWords_append laid [qx, qy] [px, py] 1024).symm
    rw [whole]
    exact Memory.load_store_words _ _ _ rfl
  rw [← factors] at multiplied
  rw [← summands] at added
  let sum : Memory := ready.store 128 ((encodeWords (words (n.toNat • G + P))).take 64)
  refine ⟨⟨sum, encodeWords (words (n.toNat • G + P)), m.world⟩, ?_, ?_, ?_⟩
  · have pointer : (m.memory.loadWord 0x40).toNat = 1024 := by
      rw [free]
      rfl
    have laying : ((m.memory.storeWord 1024 x).storeWord (1024 + 32) y).storeWord (1024 + 64) n = laid := rfl
    simp only [g1MulAccC, mstore, mload, Exec.read_bind, Exec.update_bind, pointer, laying]
    rw [bind_ok (callPure_ok multiplied), leaveIf_one, pure_bind, stored]
    simp only [Exec.read_bind, Exec.update_bind]
    rw [Memory.loadWord_storeWord_other _ _ _ (by decide), first, second]
    have laying : (back.storeWord (1024 + 64) px).storeWord (1024 + 96) py = ready := rfl
    rw [laying, bind_ok (callPure_ok added), leaveIf_one]
    rfl
  · change sum.loadWord 0x40 = 0x400
    rw [← free]
    apply Memory.loadWord_congr
    rw [Memory.load_store_other _ _ _ (.inl (by decide)), Memory.load_storeWords_other _ _ _ (.inl (by decide)),
      Memory.load_storeWords_other _ _ _ (.inl (by decide)), Memory.load_storeWords_other _ _ _ (.inl (by decide))]
  · change sum.load 128 64 = encodeWords (words (P + n.toNat • G))
    have length : (encodeWords (words (n.toNat • G + P))).length = 64 := by simp
    have whole := Memory.load_store_same ready 128 (encodeWords (words (n.toNat • G + P)))
    rw [length] at whole
    rw [add_comm P, ← whole]
    exact congrArg (fun out => (ready.store 128 out).load 128 64) (List.take_of_length_le length.le)

/-- What the signals from call data offset `signal` on contribute. -/
noncomputable def contribution (data : Bytes) : List (Word × Word) → Nat → G1
  | [], _ => 0
  | p :: rest, signal => (wordAt data signal).toNat • point p + contribution data rest (signal + 32)

theorem combine_ok (pre : Precompiles env.callee s) (points : List (Word × Word)) (on : ∀ p ∈ points, words (point p) = [p.1, p.2])
    {m : Machine ω} {P : G1} (holds : Holds m P) (signal : Nat) :
    ∃ t, combine env 128 points signal m = .ok ((), t) ∧ Holds t (P + contribution env.data points signal) := by
  induction points generalizing m P signal with
  | nil => exact ⟨m, rfl, by rwa [contribution, add_zero]⟩
  | cons p rest ih =>
    obtain ⟨t, ran, next⟩ := g1MulAccC_ok pre holds (on p List.mem_cons_self) (wordAt env.data signal)
    obtain ⟨u, rested, last⟩ := ih (fun p member => on p (List.mem_cons_of_mem _ member)) next (signal + 32)
    refine ⟨u, ?_, ?_⟩
    · rw [combine, bind_ok ran, rested]
    · rwa [contribution, ← add_assoc]

theorem contribution_eq (data : Bytes) (points : List (Word × Word)) (signal : Nat) :
    contribution data points signal =
      (List.zipWith (fun p (n : Word) => n.toNat • point p) points
        ((List.range points.length).map fun i => wordAt data (signal + 32 * i))).sum := by
  induction points generalizing signal with
  | nil => rfl
  | cons p rest ih =>
    have later : (List.range rest.length).map (fun i => wordAt data (signal + 32 + 32 * i)) =
        (List.range rest.length).map ((fun i => wordAt data (signal + 32 * i)) ∘ Nat.succ) := by
      apply List.map_congr_left
      intro i _
      have same : signal + 32 * Nat.succ i = signal + 32 + 32 * i := by omega
      rw [Function.comp_apply, same]
    rw [contribution, ih, later, List.length_cons, List.range_succ_eq_map, List.map_cons, List.map_map, List.zipWith_cons_cons,
      List.sum_cons, Nat.mul_zero, Nat.add_zero]

theorem checkFields_eq (count signal : Nat) (m : Machine ω) :
    checkFields env count signal m =
      if ∀ i < count, wordAt env.data (signal + 32 * i) < r then .ok ((), m) else .error (encodeWord 0) := by
  induction count generalizing signal with
  | zero =>
    rw [if_pos fun i inside => absurd inside (Nat.not_lt_zero i)]
    rfl
  | succ count ih =>
    have split : (∀ i < count + 1, wordAt env.data (signal + 32 * i) < r) ↔
        wordAt env.data signal < r ∧ ∀ i < count, wordAt env.data (signal + 32 + 32 * i) < r := by
      have same (i : Nat) : signal + 32 * (i + 1) = signal + 32 + 32 * i := by omega
      constructor
      · intro all
        exact ⟨all 0 (Nat.succ_pos _), fun i inside => same i ▸ all (i + 1) (Nat.succ_lt_succ inside)⟩
      · rintro ⟨first, others⟩ i inside
        cases i with
        | zero => exact first
        | succ i => exact same i ▸ others i (Nat.lt_of_succ_lt_succ inside)
    have large : Op.iszero (Op.lt (wordAt env.data signal) r) ≠ 0 ↔ ¬ wordAt env.data signal < r :=
      (Op.iszero_lt_ne_zero _ _).trans BitVec.not_lt.symm
    rw [checkFields, checkField, leaveIf_eq, revertIf_bind]
    by_cases canonical : wordAt env.data signal < r
    · rw [if_neg fun leaves => large.mp leaves canonical, ih]
      exact if_congr (split.trans (and_iff_right canonical)).symm rfl rfl
    · rw [if_pos (large.mpr canonical), if_neg fun all => canonical (split.mp all).1]

theorem opposite_q (y : Word) : opposite q.toNat y = (q - y) % q := by
  rw [opposite, BitVec.ofNat_toNat, BitVec.setWidth_eq]

theorem words_append_iff {A C : G1} {B : G₂} {a0 a1 b0 b1 b2 b3 c0 c1 : Word} :
    words A ++ s.twist B ++ words C = [a0, a1, b0, b1, b2, b3, c0, c1] ↔
      words A = [a0, a1] ∧ s.twist B = [b0, b1, b2, b3] ∧ words C = [c0, c1] := by
  constructor
  · intro same
    have same : words A ++ s.twist B ++ words C = [a0, a1] ++ [b0, b1, b2, b3] ++ [c0, c1] := same
    obtain ⟨front, last⟩ := List.append_inj same (by simp [s.length_twist])
    obtain ⟨first, middle⟩ := List.append_inj front (length_words A)
    exact ⟨first, middle, last⟩
  · rintro ⟨first, middle, last⟩
    rw [first, middle, last]
    rfl

/-- The sum of the four pairings vanishes when the equation holds. -/
theorem sum_eq_zero_iff (A C X : G1) (B : G₂) :
    (([(-A, B), (alpha, s.beta), (X, s.gamma), (C, s.delta)] : List (G1 × G₂)).map fun r => s.e r.1 r.2).sum = 0 ↔
      s.e A B = s.e alpha s.beta + s.e X s.gamma + s.e C s.delta := by
  simp only [List.map_cons, List.map_nil, List.sum_cons, List.sum_nil, add_zero, map_neg, AddMonoidHom.neg_apply]
  rw [neg_add_eq_zero, add_assoc]

/-- What the pairing precompile is given: the proof's words and the key's around the public point. -/
def pairingWords (a0 a1 b0 b1 b2 b3 c0 c1 px py : Word) : List Word :=
  [a0, (q - a1) % q, b0, b1, b2, b3, alphax, alphay, betax1, betax2, betay1, betay2, px, py, gammax1, gammax2, gammay1, gammay2,
    c0, c1, deltax1, deltax2, deltay1, deltay2]

/-- Six words at a time name a pair. -/
theorem pair_of_words {pairs : List (G1 × G₂)} {x y u v w z : Word} {rest : List Word}
    (same : [x, y] ++ [u, v, w, z] ++ rest = pairs.flatMap fun r => words r.1 ++ s.twist r.2) :
    ∃ P Q others, pairs = (P, Q) :: others ∧ words P = [x, y] ∧ s.twist Q = [u, v, w, z] ∧
      rest = others.flatMap fun r => words r.1 ++ s.twist r.2 := by
  cases pairs with
  | nil => cases same
  | cons pair others =>
    rw [List.flatMap_cons] at same
    obtain ⟨front, last⟩ := List.append_inj same (by simp [s.length_twist])
    obtain ⟨first, second⟩ := List.append_inj front (length_words _).symm
    exact ⟨pair.1, pair.2, others, rfl, first.symm, second.symm, last⟩

/-- The pairs that the words of the pairing name. -/
theorem pairs_of_words {pairs : List (G1 × G₂)} {a0 a1 b0 b1 b2 b3 c0 c1 px py : Word} {X : G1} (names : words X = [px, py])
    (same : pairingWords a0 a1 b0 b1 b2 b3 c0 c1 px py = pairs.flatMap fun r => words r.1 ++ s.twist r.2) :
    ∃ A B C, pairs = [(-A, B), (alpha, s.beta), (X, s.gamma), (C, s.delta)] ∧
      words A = [a0, opposite q.toNat (opposite q.toNat a1)] ∧ s.twist B = [b0, b1, b2, b3] ∧ words C = [c0, c1] := by
  have unique {P Q : G1} {w : List Word} (one : words P = w) (other : words Q = w) : P = Q :=
    words_injective small.le three_nonzero (one.trans other.symm)
  obtain ⟨P, B, pairs, rfl, first, second, same⟩ := pair_of_words same
  obtain ⟨P2, Q2, pairs, rfl, alphas, betas, same⟩ := pair_of_words same
  obtain ⟨P3, Q3, pairs, rfl, third, gammas, same⟩ := pair_of_words same
  have same : [c0, c1] ++ [deltax1, deltax2, deltay1, deltay2] ++ [] = _ := same
  obtain ⟨C, Q4, pairs, rfl, fourth, deltas, same⟩ := pair_of_words same
  obtain rfl : pairs = [] := by
    cases pairs with
    | nil => rfl
    | cons pair others =>
      have length := congrArg List.length same
      simp only [List.length_nil, List.flatMap_cons, List.length_append, length_words, s.length_twist] at length
      omega
  obtain rfl := unique alphas words_alpha
  obtain rfl := unique third names
  obtain rfl := s.injective (betas.trans s.twist_beta.symm)
  obtain rfl := s.injective (gammas.trans s.twist_gamma.symm)
  obtain rfl := s.injective (deltas.trans s.twist_delta.symm)
  refine ⟨-P, B, C, ?_, ?_, second, fourth⟩
  · rw [neg_neg]
  · apply (words_neg_iff small).mp
    rw [neg_neg, first, opposite_q]

/-- The precompile answers with a truth value, or fails where that is false. -/
def Answers (answer : Except Bytes Bytes) (b : Bool) : Prop := answer = .ok (encodeWord (flag b)) ∨ b = false ∧ ∃ out, answer = .error out

theorem answers_pairing (pre : Precompiles env.callee s) (a0 a1 b0 b1 b2 b3 c0 c1 : Word) {px py : Word} {X : G1} (names : words X = [px, py]) :
    ∃ b, Answers (env.callee 8 (encodeWords (pairingWords a0 a1 b0 b1 b2 b3 c0 c1 px py))) b ∧
      (b = true ↔ ∃ A B C, words A ++ s.twist B ++ words C = [a0, opposite q.toNat (opposite q.toNat a1), b0, b1, b2, b3, c0, c1] ∧
        s.e A B = s.e alpha s.beta + s.e X s.gamma + s.e C s.delta) := by
  have flattened {A C : G1} {B : G₂} (named : words A ++ s.twist B ++ words C =
      [a0, opposite q.toNat (opposite q.toNat a1), b0, b1, b2, b3, c0, c1]) :
      pairingWords a0 a1 b0 b1 b2 b3 c0 c1 px py =
        ([(-A, B), (alpha, s.beta), (X, s.gamma), (C, s.delta)] : List (G1 × G₂)).flatMap fun r => words r.1 ++ s.twist r.2 := by
    obtain ⟨first, second, third⟩ := words_append_iff.mp named
    have negated := (words_neg_iff small).mpr first
    rw [opposite_q] at negated
    simp only [List.flatMap_cons, List.flatMap_nil, negated, second, third, names, words_alpha, s.twist_beta, s.twist_gamma, s.twist_delta]
    rfl
  cases answer : env.callee 8 (encodeWords (pairingWords a0 a1 b0 b1 b2 b3 c0 c1 px py)) with
  | error out =>
    refine ⟨false, .inr ⟨rfl, out, rfl⟩, iff_of_false Bool.false_ne_true ?_⟩
    rintro ⟨A, B, C, named, equation⟩
    have accepted := pre.one _ ((sum_eq_zero_iff A C X B).mpr equation)
    rw [← flattened named, answer] at accepted
    cases accepted
  | ok out =>
    obtain ⟨pairs, input⟩ := pre.valid _ _ answer
    obtain ⟨A, B, C, rfl, first, second, third⟩ := pairs_of_words names (encodeWords_injective input)
    rw [input] at answer
    by_cases equation : s.e A B = s.e alpha s.beta + s.e X s.gamma + s.e C s.delta
    · have accepted := pre.one _ ((sum_eq_zero_iff A C X B).mpr equation)
      obtain rfl := Except.ok.inj (answer.symm.trans accepted)
      exact ⟨true, .inl rfl, iff_of_true rfl ⟨A, B, C, words_append_iff.mpr ⟨first, second, third⟩, equation⟩⟩
    · have refused := pre.zero _ (mt (sum_eq_zero_iff A C X B).mp equation)
      obtain rfl := Except.ok.inj (answer.symm.trans refused)
      refine ⟨false, .inl rfl, iff_of_false Bool.false_ne_true ?_⟩
      rintro ⟨A', B', C', named, holds⟩
      obtain ⟨first', second', third'⟩ := words_append_iff.mp named
      obtain rfl := words_injective small.le three_nonzero (first'.trans first.symm)
      obtain rfl := s.injective (second'.trans second.symm)
      obtain rfl := words_injective small.le three_nonzero (third'.trans third.symm)
      exact equation holds

/-- The words of the pairing, in memory one after another. -/
theorem storeWords_pairingWords (memory : Memory) (a0 a1 b0 b1 b2 b3 c0 c1 px py : Word) :
    (((memory.storeWords 256 [a0, (q - a1) % q, b0, b1, b2, b3, alphax, alphay, betax1, betax2, betay1, betay2]).storeWord 640 px).storeWord
      672 py).storeWords 704 [gammax1, gammax2, gammay1, gammay2, c0, c1, deltax1, deltax2, deltay1, deltay2] =
      memory.storeWords 256 (pairingWords a0 a1 b0 b1 b2 b3 c0 c1 px py) := by
  have split : pairingWords a0 a1 b0 b1 b2 b3 c0 c1 px py =
      [a0, (q - a1) % q, b0, b1, b2, b3, alphax, alphay, betax1, betax2, betay1, betay2] ++
        (px :: py :: [gammax1, gammax2, gammay1, gammay2, c0, c1, deltax1, deltax2, deltay1, deltay2]) := rfl
  rw [split, Memory.storeWords_append]
  rfl

/-- The precompile's answer comes back over what it was given. -/
theorem answer_ok {memory : Memory} {w : List Word} (length : w.length = 24) {b : Bool} (answers : Answers (env.callee 8 (encodeWords w)) b)
    (returndata : Bytes) (world : ω) :
    ∃ u, (callPure env 8 256 768 256 0x20 >>= fun success => mload 256 >>= fun answer => pure (Op.and success answer))
        ⟨memory.storeWords 256 w, returndata, world⟩ = .ok (flag b, u) := by
  have given : (memory.storeWords 256 w).load 256 768 = encodeWords w := Memory.load_store_words _ _ _ (by rw [length])
  rw [← given] at answers
  rcases answers with answer | ⟨rfl, out, answer⟩
  · have whole : (encodeWord (flag b)).take 0x20 = encodeWord (flag b) := List.take_of_length_le (length_encodeWord _).le
    rw [bind_ok (callPure_ok answer), whole, mload, Exec.read_bind]
    change ∃ u, (pure (Op.and 1 (((memory.storeWords 256 w).storeWord 256 (flag b)).loadWord 256)) : Program ω Word) _ = .ok (flag b, u)
    rw [Memory.loadWord_storeWord_same]
    exact ⟨_, congrArg (fun v => Except.ok (v, _)) (by cases b <;> decide)⟩
  · rw [bind_ok (callPure_error answer), mload, Exec.read_bind]
    exact ⟨_, congrArg (fun v => Except.ok (v, _)) BitVec.zero_and⟩

theorem checkPairing_ok (pre : Precompiles env.callee s) {m : Machine ω} (free : m.memory.loadWord 0x40 = 0x400) (pA pB pC pubSignals : Nat) :
    ∃ t b, checkPairing env pA pB pC pubSignals 128 m = .ok (flag b, t) ∧
      (b = true ↔ ∃ A B C, words A ++ s.twist B ++ words C = [wordAt env.data pA,
          opposite q.toNat (opposite q.toNat (wordAt env.data (pA + 32))), wordAt env.data pB, wordAt env.data (pB + 32),
          wordAt env.data (pB + 64), wordAt env.data (pB + 96), wordAt env.data pC, wordAt env.data (pC + 32)] ∧
        s.e A B = s.e alpha s.beta + s.e (point ic0 + contribution env.data ics pubSignals) s.gamma + s.e C s.delta) := by
  let begun : Memory := m.memory.storeWords 128 [ic0.1, ic0.2]
  have holds : Holds { m with memory := begun } (point ic0) := by
    constructor
    · rw [← free]
      exact Memory.loadWord_congr (Memory.load_storeWords_other _ _ _ (.inl (by decide)))
    · rw [words_ic0]
      exact Memory.load_store_words _ _ _ rfl
  obtain ⟨t, combined, -, stored⟩ := combine_ok pre ics words_ics holds pubSignals
  obtain ⟨px, py, names⟩ := words_pair (point ic0 + contribution env.data ics pubSignals)
  rw [names] at stored
  obtain ⟨b, decided, equation⟩ := answers_pairing pre (wordAt env.data pA) (wordAt env.data (pA + 32)) (wordAt env.data pB)
    (wordAt env.data (pB + 32)) (wordAt env.data (pB + 64)) (wordAt env.data (pB + 96)) (wordAt env.data pC) (wordAt env.data (pC + 32)) names
  obtain ⟨front, laid⟩ : ∃ front, front = t.memory.storeWords 256 [wordAt env.data pA, (q - wordAt env.data (pA + 32)) % q,
    wordAt env.data pB, wordAt env.data (pB + 32), wordAt env.data (pB + 64), wordAt env.data (pB + 96), alphax, alphay, betax1, betax2,
    betay1, betay2] := ⟨_, rfl⟩
  have kept : front.load 128 64 = encodeWords [px, py] := by
    rw [← stored, laid]
    exact Memory.load_storeWords_other _ _ _ (.inl (by decide))
  obtain ⟨first, second⟩ := loadWord_of_load kept
  have later : (front.storeWord 640 px).loadWord 160 = py := (Memory.loadWord_storeWord_other _ _ _ (.inl (by decide))).trans second
  obtain ⟨u, ran⟩ := answer_ok rfl decided t.returndata t.world
  rw [← storeWords_pairingWords t.memory, ← laid] at ran
  refine ⟨u, b, ?_, equation⟩
  have pairing : 128 + pPairing = 256 := rfl
  have vk : 128 + pVk = 128 := rfl
  have ordinate : 128 + (pVk + 32) = 160 := rfl
  rw [checkPairing, pairing, vk, ordinate, mstores, Exec.update_bind, bind_ok combined, mstores, Exec.update_bind, ← laid, mload,
    Exec.read_bind, first, mstore, Exec.update_bind, mload, Exec.read_bind, later, mstore, Exec.update_bind, mstores, Exec.update_bind]
  exact ran

/-- The words of `_pA`, `_pB` and `_pC`. -/
def proofWords (data : Bytes) : List Word := (List.range 8).map fun i => wordAt data (4 + 32 * i)

/-- The words of `_pubSignals`. -/
def signalWords (data : Bytes) : List Word := (List.range 9).map fun i => wordAt data (260 + 32 * i)

theorem verifyProof_ok (pre : Precompiles env.callee s) {m : Machine ω} (free : m.memory.loadWord 0x40 = 0x80) :
    ∃ b, verifyProof env 4 68 196 260 m = .error (encodeWord (flag b)) ∧
      (b = true ↔ (∀ n ∈ signalWords env.data, n < r) ∧ Equation s (proofWords env.data) (signalWords env.data)) := by
  have canonical : (∀ n ∈ signalWords env.data, n < r) ↔ ∀ i < 9, wordAt env.data (260 + 32 * i) < r := by
    rw [signalWords, List.forall_mem_map]
    exact forall_congr' fun i => by rw [List.mem_range]
  have pointer : (m.memory.loadWord 0x40).toNat = 128 := by
    rw [free]
    rfl
  have next : BitVec.ofNat 256 (128 + pLastMem) = (0x400 : Word) := rfl
  have moved : (m.memory.storeWord 0x40 0x400).loadWord 0x40 = 0x400 := Memory.loadWord_storeWord_same _ _ _
  rw [canonical]
  by_cases all : ∀ i < 9, wordAt env.data (260 + 32 * i) < r
  · obtain ⟨t, b, ran, equation⟩ := checkPairing_ok (m := { m with memory := m.memory.storeWord 0x40 0x400 }) pre moved 4 68 196 260
    refine ⟨b, ?_, equation.trans ?_⟩
    · rw [verifyProof, Exec.read_bind, pointer, next, mstore, Exec.update_bind, bind_ok ((checkFields_eq 9 260 _).trans (if_pos all)),
        bind_ok ran, leave_eq]
      rfl
    · rw [contribution_eq]
      exact (and_iff_right all).symm
  · refine ⟨false, ?_, iff_of_false Bool.false_ne_true fun both => all both.1⟩
    rw [verifyProof, Exec.read_bind, pointer, next, mstore, Exec.update_bind, bind_error ((checkFields_eq 9 260 _).trans (if_neg all))]
    rfl

/-- The verifier answers every call of its function that carries all arguments, with one truth value:
whether the signals are canonical and the proof solves the equation for them. -/
theorem call_eq (pre : Precompiles env.callee s) (free : env.value = 0) (selected : wordAt env.data 0 >>> 224 = 0xc542c93b#256)
    (whole : 548 ≤ env.data.length) :
    ∃ b, call env = .ok (encodeWord (flag b)) ∧
      (b = true ↔ (∀ n ∈ signalWords env.data, n < r) ∧ Equation s (proofWords env.data) (signalWords env.data)) := by
  have passes : ¬ (env.value ≠ 0 ∨ env.data.length < 4 ∨ wordAt env.data 0 >>> 224 ≠ 0xc542c93b#256 ∨ env.data.length < 4 + 0x220) := by
    simp only [free, selected, ne_eq, not_true, false_or]
    omega
  obtain ⟨b, ran, accepts⟩ := verifyProof_ok (m := ⟨Memory.empty.storeWord 0x40 0x80, [], ()⟩) pre
    (Memory.loadWord_storeWord_same _ _ _)
  have entered : enter env (Machine.start ()) = .error (encodeWord (flag b)) := ran
  refine ⟨b, ?_, accepts⟩
  rw [call, if_neg passes, entered]

/-- Any other call reverts. -/
theorem call_error (other : env.value ≠ 0 ∨ env.data.length < 548 ∨ wordAt env.data 0 >>> 224 ≠ 0xc542c93b#256) : call env = .error [] := by
  apply if_pos
  rcases other with paid | short | unknown
  · exact .inl paid
  · exact .inr (.inr (.inr short))
  · exact .inr (.inr (.inl unknown))

end

end ShieldedPool.Groth16Verifier
