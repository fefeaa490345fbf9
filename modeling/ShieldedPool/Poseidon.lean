import ShieldedPool.Interface

/-! Poseidon over the BN254 scalar field, twice: `poseidon` of poseidon_bn254.py, and the
lazily reduced Yul code that gen_poseidon_sol.py emits for PoseidonT3.sol and PoseidonT4.sol.
The emitted code keeps a record of its additions. -/

namespace ShieldedPool.Poseidon
open Evm

/-- The constants of one width, as poseidon_bn254_constants.json lists them. -/
structure Params where
  t : Nat
  roundsF : Nat
  roundsP : Nat
  C : List Word
  M : List (List Word)
  lanes : 0 < t
  rounds : 0 < roundsF / 2 + roundsP
  constants : C.length = (roundsF + roundsP) * t
  rows : M.length = t
  columns : ∀ row ∈ M, row.length = t
  smallC : ∀ c ∈ C, c < fieldP
  smallM : ∀ row ∈ M, ∀ m ∈ row, m < fieldP

variable (params : Params)

/-- Round `r` puts every lane through the s-box. -/
def Full (r : Nat) : Prop := r < params.roundsF / 2 ∨ params.roundsF / 2 + params.roundsP ≤ r

instance (r : Nat) : Decidable (Full params r) := inferInstanceAs (Decidable (_ ∨ _))

namespace Reference

/-- `[(x + C[r * t + i]) % P for i, x in enumerate(state)]`, from lane `i` on. -/
def addConstants (r : Nat) : Nat → List Nat → List Nat
  | _, [] => []
  | i, x :: rest => (x + (params.C.getD (r * params.t + i) 0).toNat) % fieldP.toNat :: addConstants r (i + 1) rest

def pow5 (x : Nat) : Nat := x ^ 5 % fieldP.toNat

def substitute (r : Nat) (state : List Nat) : List Nat :=
  if Full params r then state.map pow5
  else match state with
    | [] => []
    | x :: rest => pow5 x :: rest

/-- `[sum(M[i][j] * state[j] for j in range(t)) % P for i in range(t)]` -/
def mix (state : List Nat) : List Nat :=
  params.M.map fun row => (List.zipWith (fun m x => m.toNat * x) row state).sum % fieldP.toNat

def round (r : Nat) (state : List Nat) : List Nat := mix params (substitute params r (addConstants params r 0 state))

/-- The rounds from `r` on, `count` of them. -/
def loop : Nat → Nat → List Nat → List Nat
  | 0, _, state => state
  | count + 1, r, state => loop count (r + 1) (round params r state)

def poseidon (inputs : List Nat) : Nat :=
  (loop params (params.roundsF + params.roundsP) 0 (0 :: inputs.map (· % fieldP.toNat))).headD 0

end Reference

namespace Emitted

/-- The additions made so far. -/
abbrev Log := List (Word × Word)

abbrev Program := Exec Log

def add (x y : Word) : Program Word := do
  Exec.update fun log => log ++ [(x, y)]
  return x + y

def mulmod (x y m : Word) : Word := BitVec.ofNat 256 (x.toNat * y.toNat % m.toNat)

def blob : Bytes := encodeWords params.C

/-- `s{i} := add(s{i}, mload(add(cp, 32 * i)))`, from lane `i` on. -/
def arks (cp : Nat) : Nat → List Word → Program (List Word)
  | _, [] => return []
  | i, s :: rest => do
    let s ← add s (wordAt (blob params) (cp + 32 * i))
    let rest ← arks cp (i + 1) rest
    return s :: rest

def sbox (s : Word) : Word :=
  let n0 := mulmod s s fieldP
  mulmod (mulmod n0 n0 fieldP) s fieldP

/-- Lane 0, and the others `if or(lt(r, half), gt(r, half + rp - 1))`. -/
def sboxes (r : Nat) : List Word → List Word
  | [] => []
  | s :: rest =>
    sbox s :: if r < params.roundsF / 2 ∨ r > params.roundsF / 2 + params.roundsP - 1 then rest.map sbox else rest

/-- `add(add(first, second), third)` and so on. -/
def sum : List Word → Program Word
  | [] => return 0
  | first :: rest => rest.foldlM add first

def mixRow (row s : List Word) : Program Word := sum (List.zipWith (fun m x => mulmod m x fieldP) row s)

def mix (s : List Word) : Program (List Word) := params.M.mapM fun row => mixRow row s

def round (r cp : Nat) (s : List Word) : Program (List Word) := do
  let s ← arks params cp 0 s
  mix params (sboxes params r s)

/-- The loop from round `r` on, `count` of them, with the constants from `cp` on. -/
def loop : Nat → Nat → Nat → List Word → Program (List Word)
  | 0, _, _, s => return s
  | count + 1, r, cp, s => do
    let s ← round params r cp s
    loop count (r + 1) (cp + 32 * params.t) s

/-- `hash2` for three lanes, `hash3` for four. -/
def hash (inputs : List Word) : Program Word := do
  let s ← loop params (params.roundsF + params.roundsP) 0 0 (0 :: inputs.map (· % fieldP))
  return s.headD 0 % fieldP

end Emitted

end ShieldedPool.Poseidon
