import ShieldedPool.Proofs.Verifier

/-! Contracts that answer as EIP-196 and EIP-197 say, for any second group and any pairing: what the
verifier relies on can be had. -/

namespace ShieldedPool.Groth16Verifier
open Evm Exec Yul Curve

variable {G₂ T : Type} [AddCommGroup G₂] [AddCommGroup T]

theorem named_words (P : G1) : named (words P) = P := words_injective small.le three_nonzero (words_named ⟨P, rfl⟩)

/-- The words of a list of pairs name no other list. -/
theorem pairs_injective {s : Setting G₂ T} {pairs others : List (G1 × G₂)}
    (same : (pairs.flatMap fun r => words r.1 ++ s.twist r.2) = others.flatMap fun r => words r.1 ++ s.twist r.2) : pairs = others := by
  have some {pair : G1 × G₂} {rest : List Word} : [] ≠ words pair.1 ++ s.twist pair.2 ++ rest := by
    intro none
    have length := congrArg List.length none
    simp only [List.length_nil, List.length_append, length_words, s.length_twist] at length
    omega
  induction pairs generalizing others with
  | nil =>
    cases others with
    | nil => rfl
    | cons other others => exact absurd same some
  | cons pair pairs ih =>
    cases others with
    | nil => exact absurd same.symm some
    | cons other others =>
      rw [List.flatMap_cons, List.flatMap_cons] at same
      obtain ⟨front, rest⟩ := List.append_inj same (by simp [s.length_twist])
      obtain ⟨first, second⟩ := List.append_inj front (by simp)
      have first := words_injective small.le three_nonzero first
      rw [ih rest, Prod.ext first (s.injective second)]

section
open Classical

noncomputable def ecAdd (input : Bytes) : Except Bytes Bytes :=
  let P : G1 := named [wordAt input 0, wordAt input 32]
  let Q : G1 := named [wordAt input 64, wordAt input 96]
  if input = encodeWords (words P ++ words Q) then .ok (encodeWords (words (P + Q))) else .error []

noncomputable def ecMul (input : Bytes) : Except Bytes Bytes :=
  let P : G1 := named [wordAt input 0, wordAt input 32]
  let n := wordAt input 64
  if input = encodeWords (words P ++ [n]) then .ok (encodeWords (words (n.toNat • P))) else .error []

noncomputable def ecPairing (s : Setting G₂ T) (input : Bytes) : Except Bytes Bytes :=
  let Names (pairs : List (G1 × G₂)) := input = encodeWords (pairs.flatMap fun r => words r.1 ++ s.twist r.2)
  if ∃ pairs, Names pairs ∧ (pairs.map fun r => s.e r.1 r.2).sum = 0 then .ok (encodeWord 1)
  else if ∃ pairs, Names pairs then .ok (encodeWord 0)
  else .error []

end

noncomputable def precompiles (s : Setting G₂ T) (target : Address) : Bytes → Except Bytes Bytes :=
  if target = 6 then ecAdd else if target = 7 then ecMul else if target = 8 then ecPairing s else fun _ => .error []

theorem precompiles_ok (s : Setting G₂ T) : Precompiles (precompiles s) s := by
  have word (w : List Word) (i : Nat) (inside : i < w.length) : wordAt (encodeWords w) (32 * i) = w[i] := by
    rw [← wordAt_encodeWords w i inside [], List.append_nil]
  constructor
  · intro P Q
    change ecAdd _ = _
    obtain ⟨px, py, first⟩ := words_pair P
    obtain ⟨qx, qy, second⟩ := words_pair Q
    have input : words P ++ words Q = [px, py, qx, qy] := by
      rw [first, second]
      rfl
    have P_named : named [px, py] = P := (congrArg named first.symm).trans (named_words P)
    have Q_named : named [qx, qy] = Q := (congrArg named second.symm).trans (named_words Q)
    rw [ecAdd, input, word _ 0 (by simp), word _ 1 (by simp), word _ 2 (by simp), word _ 3 (by simp)]
    simp only [List.getElem_cons_zero, List.getElem_cons_succ, P_named, Q_named]
    exact if_pos (congrArg encodeWords input.symm)
  · intro P n
    change ecMul _ = _
    obtain ⟨px, py, first⟩ := words_pair P
    have input : words P ++ [n] = [px, py, n] := by
      rw [first]
      rfl
    have P_named : named [px, py] = P := (congrArg named first.symm).trans (named_words P)
    rw [ecMul, input, word _ 0 (by simp), word _ 1 (by simp), word _ 2 (by simp)]
    simp only [List.getElem_cons_zero, List.getElem_cons_succ, P_named]
    exact if_pos (congrArg encodeWords input.symm)
  · intro pairs vanishes
    exact if_pos ⟨pairs, rfl, vanishes⟩
  · intro pairs stays
    change ecPairing s _ = _
    rw [ecPairing, if_neg, if_pos ⟨pairs, rfl⟩]
    rintro ⟨others, same, vanishes⟩
    obtain rfl := pairs_injective (encodeWords_injective same)
    exact stays vanishes
  · intro input out answer
    change ecPairing s _ = _ at answer
    rw [ecPairing] at answer
    split at answer
    · next named => exact named.imp fun _ both => both.1
    · split at answer
      · assumption
      · cases answer

end ShieldedPool.Groth16Verifier
