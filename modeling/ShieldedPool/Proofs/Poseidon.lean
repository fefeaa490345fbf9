import Mathlib.Data.List.Forall2
import ShieldedPool.Poseidon

/-! The emitted Poseidon computes the reference hash. Its lanes stay unreduced between
s-boxes; the invariant is that each stays below `t * P` and has the reference lane as its
remainder, and no addition on the way leaves a word. -/

namespace ShieldedPool.Proofs.Poseidon
open Evm ShieldedPool.Poseidon ShieldedPool.Poseidon.Emitted

def prime : Nat := fieldP.toNat

theorem prime_pos : 0 < prime := by decide

/-- What the record says of an addition: the lane, the reduced term, and their sum. -/
structure Tame (t : Nat) (e : Word × Word) : Prop where
  lane : e.1.toNat < t * prime
  term : e.2.toNat < prime
  sum : e.1.toNat + e.2.toNat < (t + 1) * prime

/-- The program returns `value` and makes only tame additions. -/
def Emits {α : Type} (t : Nat) (x : Program α) (value : α) : Prop :=
  ∀ log, ∃ made, x log = .ok (value, log ++ made) ∧ ∀ e ∈ made, Tame t e

section Rules
variable {α β : Type} {t : Nat}

theorem Emits.pure (value : α) : Emits t (Pure.pure value) value :=
  fun log => ⟨[], by rw [List.append_nil]; rfl, fun e member => absurd member List.not_mem_nil⟩

theorem Emits.bind {x : Program α} {f : α → Program β} {a : α} {b : β} (first : Emits t x a) (rest : Emits t (f a) b) :
    Emits t (x >>= f) b := by
  intro log
  obtain ⟨made, returned, tame⟩ := first log
  obtain ⟨more, last, others⟩ := rest (log ++ made)
  refine ⟨made ++ more, ?_, fun e member => ?_⟩
  · rw [Exec.bind_ok returned, last, List.append_assoc]
  · exact (List.mem_append.mp member).elim (tame e) (others e)

theorem Emits.add {x y : Word} (tame : Tame t (x, y)) : Emits t (add x y) (x + y) :=
  fun log => ⟨[(x, y)], rfl, fun e member => by rw [List.mem_singleton.mp member]; exact tame⟩

/-- An addition that stays below the bound does not wrap. -/
theorem Tame.toNat_add {x y : Word} (small : t ≤ 4) (tame : Tame t (x, y)) : (x + y).toNat = x.toNat + y.toNat := by
  have bound : (t + 1) * prime ≤ 5 * prime := Nat.mul_le_mul_right _ (by omega)
  have fits : 5 * prime < 2 ^ 256 := by decide
  have sum : x.toNat + y.toNat < (t + 1) * prime := tame.sum
  rw [BitVec.toNat_add, Nat.mod_eq_of_lt (by omega)]

end Rules

theorem mulmod_toNat (x y : Word) : (mulmod x y fieldP).toNat = x.toNat * y.toNat % prime := by
  have small : x.toNat * y.toNat % prime < prime := Nat.mod_lt _ prime_pos
  have bound : prime < 2 ^ 256 := by decide
  rw [mulmod, BitVec.toNat_ofNat]
  exact Nat.mod_eq_of_lt (by change x.toNat * y.toNat % prime < _; omega)

/-- The s-box, which reduces its lane on the way. -/
theorem sbox_toNat (s : Word) : (sbox s).toNat = s.toNat ^ 5 % prime := by
  have fifth : s.toNat ^ 5 = s.toNat * s.toNat * (s.toNat * s.toNat) * s.toNat := by ring
  rw [sbox, mulmod_toNat, mulmod_toNat, mulmod_toNat, ← Nat.mul_mod, Nat.mod_mul_mod, fifth]

variable (params : Params)

/-- Lane by lane, the reference state is the remainder of the emitted one. -/
def Reduces (s : List Word) (state : List Nat) : Prop := List.Forall₂ (fun w x => w.toNat % prime = x) s state

def Below (bound : Nat) (s : List Word) : Prop := ∀ w ∈ s, w.toNat < bound

variable {params} {s : List Word} {state : List Nat}

theorem head_of_reduces (reduces : Reduces s state) : (s.headD 0).toNat % prime = state.headD 0 := by
  cases reduces with
  | nil => rfl
  | cons lane rest => exact lane

theorem constant_eq {r i : Nat} (inside : r < params.roundsF + params.roundsP) (lane : i < params.t) :
    wordAt (blob params) (32 * params.t * r + 32 * i) = params.C.getD (r * params.t + i) 0 ∧
      (params.C.getD (r * params.t + i) 0).toNat < prime := by
  have bound : r * params.t + i < params.C.length := by
    rw [params.constants]
    have whole : (r + 1) * params.t ≤ (params.roundsF + params.roundsP) * params.t := Nat.mul_le_mul_right _ inside
    rw [Nat.succ_mul] at whole
    omega
  have offset : 32 * params.t * r + 32 * i = 32 * (r * params.t + i) := by ring
  have member : params.C.getD (r * params.t + i) 0 = params.C[r * params.t + i] := by
    rw [List.getD_eq_getElem?_getD, List.getElem?_eq_getElem bound, Option.getD_some]
  have read := wordAt_encodeWords params.C (r * params.t + i) bound []
  rw [List.append_nil] at read
  rw [offset, blob, read, member]
  exact ⟨rfl, params.smallC _ (List.getElem_mem bound)⟩

theorem arks_emits {r i : Nat} (small : params.t ≤ 4) (inside : r < params.roundsF + params.roundsP)
    (length : i + s.length ≤ params.t) (below : Below (params.t * prime) s) (reduces : Reduces s state) :
    ∃ s', Emits params.t (arks params (32 * params.t * r) i s) s' ∧ s'.length = s.length ∧
      Reduces s' (Reference.addConstants params r i state) := by
  induction reduces generalizing i with
  | nil => exact ⟨[], .pure _, rfl, .nil⟩
  | @cons w x s state lane rest ih =>
    rw [List.length_cons] at length
    obtain ⟨read, constant⟩ := @constant_eq params _ i inside (by omega)
    obtain ⟨s', emits, same, reduced⟩ := ih (i := i + 1) (by omega) fun v member => below v (List.mem_cons_of_mem _ member)
    have lane' : w.toNat < params.t * prime := below w List.mem_cons_self
    have tame : Tame params.t (w, params.C.getD (r * params.t + i) 0) := ⟨lane', constant, by rw [Nat.succ_mul]; exact Nat.add_lt_add lane' constant⟩
    refine ⟨(w + params.C.getD (r * params.t + i) 0) :: s', ?_, by simp [same], .cons ?_ reduced⟩
    · rw [arks, read]
      exact (Emits.add tame).bind (emits.bind (.pure _))
    · rw [tame.toNat_add small, ← lane]
      exact (Nat.mod_add_mod _ _ _).symm

theorem full_iff {r : Nat} :
    Full params r ↔ r < params.roundsF / 2 ∨ r > params.roundsF / 2 + params.roundsP - 1 := by
  have rounds := params.rounds
  rw [Full]
  omega

theorem pow5_of_reduces {w : Word} {x : Nat} (lane : w.toNat % prime = x) : (sbox w).toNat % prime = Reference.pow5 x := by
  rw [sbox_toNat, Nat.mod_mod, ← lane, Nat.pow_mod]
  rfl

theorem sboxes_reduces (r : Nat) (reduces : Reduces s state) :
    Reduces (sboxes params r s) (Reference.substitute params r state) ∧ (sboxes params r s).length = s.length := by
  cases reduces with
  | nil =>
    rw [Reference.substitute]
    split_ifs <;> exact ⟨.nil, rfl⟩
  | @cons w x s state lane rest =>
    rw [sboxes, Reference.substitute]
    by_cases full : Full params r
    · rw [if_pos full, if_pos (full_iff.mp full)]
      refine ⟨.cons (pow5_of_reduces lane) ?_, by simp⟩
      exact List.forall₂_map_left_iff.mpr (List.forall₂_map_right_iff.mpr (rest.imp fun _ _ same => pow5_of_reduces same))
    · rw [if_neg full, if_neg (full_iff.not.mp full)]
      exact ⟨.cons (pow5_of_reduces lane) rest, by simp⟩

/-- A row of terms, each reduced, summed onto what is there. -/
theorem foldlM_emits {t k : Nat} (small : t ≤ 4) (terms : List Word) (reduced : ∀ w ∈ terms, w.toNat < prime) {acc : Word}
    (bound : acc.toNat < k * prime) (room : k + terms.length ≤ t) :
    ∃ out : Word, Emits t (terms.foldlM add acc) out ∧ out.toNat = acc.toNat + (terms.map BitVec.toNat).sum ∧
      out.toNat < t * prime := by
  induction terms generalizing acc k with
  | nil =>
    refine ⟨acc, .pure _, by simp, bound.trans_le (Nat.mul_le_mul_right _ (by simpa using room))⟩
  | cons w rest ih =>
    rw [List.length_cons] at room
    have term := reduced w List.mem_cons_self
    have whole : k * prime ≤ t * prime := Nat.mul_le_mul_right _ (by omega)
    have lane : acc.toNat < t * prime := bound.trans_le whole
    have tame : Tame t (acc, w) := ⟨lane, term, by rw [Nat.succ_mul]; exact Nat.add_lt_add lane term⟩
    have sum := tame.toNat_add small
    obtain ⟨out, emits, total, fits⟩ := @ih (k + 1) (fun v member => reduced v (List.mem_cons_of_mem _ member)) (acc + w)
      (by rw [sum, Nat.succ_mul]; omega) (by omega)
    refine ⟨out, ?_, ?_, fits⟩
    · rw [List.foldlM_cons]
      exact (Emits.add tame).bind emits
    · rw [total, sum, List.map_cons, List.sum_cons]
      omega

theorem sum_emits {t : Nat} (small : t ≤ 4) (terms : List Word) (reduced : ∀ w ∈ terms, w.toNat < prime)
    (some_ : 0 < t) (room : terms.length ≤ t) :
    ∃ out : Word, Emits t (sum terms) out ∧ out.toNat = (terms.map BitVec.toNat).sum ∧ out.toNat < t * prime := by
  cases terms with
  | nil => exact ⟨0, .pure _, rfl, Nat.mul_pos some_ prime_pos⟩
  | cons first rest =>
    obtain ⟨out, emits, total, fits⟩ := @foldlM_emits t 1 small rest (fun v member => reduced v (List.mem_cons_of_mem _ member))
      first (by rw [Nat.one_mul]; exact reduced first List.mem_cons_self) (by rw [List.length_cons] at room; omega)
    exact ⟨out, emits, by rw [total, List.map_cons, List.sum_cons], fits⟩

/-- The terms of one row, and what they sum to. -/
theorem terms_mod (row : List Word) (reduces : Reduces s state) :
    ((List.zipWith (fun m x => mulmod m x fieldP) row s).map BitVec.toNat).sum % prime =
      (List.zipWith (fun m x => m.toNat * x) row state).sum % prime := by
  induction reduces generalizing row with
  | nil => simp
  | @cons w x s state lane rest ih =>
    cases row with
    | nil => rfl
    | cons m row =>
      have head : (mulmod m w fieldP).toNat % prime = m.toNat * x % prime := by
        rw [mulmod_toNat, Nat.mod_mod, ← lane, Nat.mul_mod_mod]
      rw [List.zipWith_cons_cons, List.zipWith_cons_cons, List.map_cons, List.sum_cons, List.sum_cons, Nat.add_mod, head, ih row,
        ← Nat.add_mod]

theorem mix_emits (small : params.t ≤ 4) (length : s.length = params.t) (reduces : Reduces s state) :
    ∃ s', Emits params.t (mix params s) s' ∧ s'.length = params.t ∧ Below (params.t * prime) s' ∧
      Reduces s' (Reference.mix params state) := by
  have rows (M : List (List Word)) (inside : ∀ row ∈ M, row.length = params.t) :
      ∃ s', Emits params.t (M.mapM fun row => mixRow row s) s' ∧ s'.length = M.length ∧ Below (params.t * prime) s' ∧
        Reduces s' (M.map fun row => (List.zipWith (fun m x => m.toNat * x) row state).sum % prime) := by
    induction M with
    | nil => exact ⟨[], .pure _, rfl, fun w member => absurd member List.not_mem_nil, .nil⟩
    | cons row M ih =>
      obtain ⟨s', emits, same, below, reduced⟩ := ih fun other member => inside other (List.mem_cons_of_mem _ member)
      have wide : row.length = params.t := inside row List.mem_cons_self
      obtain ⟨out, sums, total, fits⟩ := sum_emits small (List.zipWith (fun m x => mulmod m x fieldP) row s)
        (fun w member => by
          obtain ⟨i, inside, rfl⟩ := List.getElem_of_mem member
          rw [List.getElem_zipWith, mulmod_toNat]
          exact Nat.mod_lt _ prime_pos)
        params.lanes (by rw [List.length_zipWith, wide, length, Nat.min_self])
      refine ⟨out :: s', ?_, by simp [same], ?_, .cons ?_ reduced⟩
      · rw [List.mapM_cons]
        exact Emits.bind sums (emits.bind (.pure _))
      · exact fun w member => (List.mem_cons.mp member).elim (fun here => here ▸ fits) (below w)
      · rw [total]
        exact terms_mod row reduces
  obtain ⟨s', emits, same, below, reduced⟩ := rows params.M params.columns
  exact ⟨s', emits, same.trans params.rows, below, reduced⟩

theorem loop_emits (small : params.t ≤ 4) {count r : Nat} (inside : r + count ≤ params.roundsF + params.roundsP)
    (length : s.length = params.t) (below : Below (params.t * prime) s) (reduces : Reduces s state) :
    ∃ s', Emits params.t (Emitted.loop params count r (32 * params.t * r) s) s' ∧
      Reduces s' (Reference.loop params count r state) := by
  induction count generalizing r s state with
  | zero => exact ⟨s, .pure _, reduces⟩
  | succ count ih =>
    obtain ⟨added, adds, same, reduced⟩ := arks_emits (i := 0) (r := r) small (by omega) (by omega) below reduces
    obtain ⟨substituted, kept⟩ := sboxes_reduces r reduced
    obtain ⟨mixed, mixes, wide, fits, reduced⟩ := mix_emits small (by rw [kept, same, length]) substituted
    obtain ⟨last, emits, ended⟩ := ih (r := r + 1) (by omega) wide fits reduced
    refine ⟨last, ?_, ended⟩
    have next : 32 * params.t * r + 32 * params.t = 32 * params.t * (r + 1) := by ring
    rw [Emitted.loop, Emitted.round, next]
    exact (adds.bind mixes).bind emits

/-- The emitted code returns the reference hash of any words, reduced or not, and none of its
additions wraps: before each, the lane is below `t * P`, and the sum stays below `(t + 1) * P`. -/
theorem emitted_hash_exact (params : Params) (small : params.t ≤ 4) (inputs : List Word) (arity : inputs.length + 1 = params.t) :
    ∃ (out : Word) (made : Log), Emitted.hash params inputs [] = .ok (out, made) ∧
      out.toNat = Reference.poseidon params (inputs.map BitVec.toNat) ∧
      (∀ e ∈ made, e.1.toNat < params.t * fieldP.toNat ∧ e.2.toNat < fieldP.toNat ∧
        e.1.toNat + e.2.toNat < (params.t + 1) * fieldP.toNat) ∧
      (params.t + 1) * fieldP.toNat < 2 ^ 256 := by
  have first : Reduces (0 :: inputs.map (· % fieldP)) (0 :: (inputs.map BitVec.toNat).map (· % fieldP.toNat)) := by
    refine .cons rfl ?_
    rw [List.map_map, List.forall₂_map_left_iff, List.forall₂_map_right_iff]
    exact List.forall₂_same.mpr fun w _ => by
      rw [BitVec.toNat_umod]
      exact Nat.mod_mod _ _
  have entry : Below (params.t * prime) (0 :: inputs.map (· % fieldP)) := by
    have one : prime ≤ params.t * prime := Nat.le_mul_of_pos_left _ params.lanes
    intro w member
    rcases List.mem_cons.mp member with rfl | later
    · exact prime_pos.trans_le one
    · obtain ⟨x, -, rfl⟩ := List.mem_map.mp later
      rw [BitVec.toNat_umod]
      exact (Nat.mod_lt _ prime_pos).trans_le one
  obtain ⟨last, emits, reduces⟩ := @loop_emits params _ _ small (params.roundsF + params.roundsP) 0 (by omega)
    (by simpa using arity) entry first
  obtain ⟨made, returned, tame⟩ := emits []
  refine ⟨last.headD 0 % fieldP, made, ?_, ?_, fun e member => ⟨(tame e member).lane, (tame e member).term, (tame e member).sum⟩, ?_⟩
  · rw [Nat.mul_zero, List.nil_append] at returned
    rw [Emitted.hash, Exec.bind_ok returned]
    rfl
  · rw [BitVec.toNat_umod, Reference.poseidon]
    exact head_of_reduces reduces
  · have bound : (params.t + 1) * fieldP.toNat ≤ 5 * fieldP.toNat := Nat.mul_le_mul_right _ (by omega)
    exact bound.trans_lt (by decide)

/-- Three lanes whose constants are all as large as they can be. -/
def largest : Params where
  t := 3
  roundsF := 8
  roundsP := 57
  C := List.replicate 195 (fieldP - 1)
  M := List.replicate 3 (List.replicate 3 (fieldP - 1))
  lanes := by decide
  rounds := by decide
  constants := List.length_replicate
  rows := List.length_replicate
  columns row member := by rw [List.eq_of_mem_replicate member, List.length_replicate]
  smallC c member := by
    rw [List.eq_of_mem_replicate member]
    decide
  smallM row member m inside := by
    rw [List.eq_of_mem_replicate member] at inside
    rw [List.eq_of_mem_replicate inside]
    decide

theorem emitted_hash_exact_largest : ∃ (out : Word) (made : Log),
    Emitted.hash largest [BitVec.allOnes 256, fieldP] [] = .ok (out, made) ∧
      out.toNat = Reference.poseidon largest [2 ^ 256 - 1, fieldP.toNat] ∧
      (∀ e ∈ made, e.1.toNat < 3 * fieldP.toNat ∧ e.2.toNat < fieldP.toNat ∧ e.1.toNat + e.2.toNat < (3 + 1) * fieldP.toNat) ∧
      (3 + 1) * fieldP.toNat < 2 ^ 256 :=
  emitted_hash_exact largest (by decide) [BitVec.allOnes 256, fieldP] rfl

end ShieldedPool.Proofs.Poseidon
