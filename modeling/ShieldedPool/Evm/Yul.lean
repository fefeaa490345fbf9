import ShieldedPool.Evm.Exec
import ShieldedPool.Evm.Memory

/-! The Yul builtins a hand-written contract uses: word comparisons, memory, call data,
code, and calls to pure contracts. What the contract stores is left to a world `ω`. -/

namespace Evm

namespace Op

def eq (a b : Word) : Word := flag (a == b)

def lt (a b : Word) : Word := flag (a.ult b)

def gt (a b : Word) : Word := flag (b.ult a)

def iszero (a : Word) : Word := flag (a == 0)

def and (a b : Word) : Word := a &&& b

def or (a b : Word) : Word := a ||| b

/-- The mask Yul code writes out as forty `f`s. -/
def addressMask : Word := 0xffffffffffffffffffffffffffffffffffffffff#256

theorem eq_ne_zero (a b : Word) : eq a b ≠ 0 ↔ a = b := by
  rw [eq, flag_ne_zero, beq_iff_eq]

theorem lt_ne_zero (a b : Word) : lt a b ≠ 0 ↔ a < b := by
  rw [lt, flag_ne_zero, BitVec.ult_iff_lt]

theorem gt_ne_zero (a b : Word) : gt a b ≠ 0 ↔ a.toNat > b.toNat := lt_ne_zero b a

theorem iszero_ne_zero (a : Word) : iszero a ≠ 0 ↔ a = 0 := by
  rw [iszero, flag_ne_zero, beq_iff_eq]

theorem iszero_eq_ne_zero (a b : Word) : iszero (eq a b) ≠ 0 ↔ a ≠ b := by
  rw [iszero_ne_zero, Ne, ← eq_ne_zero a b, Ne, not_not]

theorem iszero_lt_ne_zero (a b : Word) : iszero (lt a b) ≠ 0 ↔ b ≤ a := by
  rw [iszero_ne_zero, ← not_iff_not, ← Ne, lt_ne_zero, BitVec.not_le]

theorem iszero_iszero_ne_zero (a : Word) : iszero (iszero a) ≠ 0 ↔ a ≠ 0 := by
  rw [iszero_ne_zero, ← not_iff_not, ← Ne, iszero_ne_zero, Ne, not_not]

theorem or_ne_zero (a b : Word) : or a b ≠ 0 ↔ a ≠ 0 ∨ b ≠ 0 := by
  rw [or, Ne, Ne, Ne, ← Decidable.not_and_iff_or_not]
  exact not_congr BitVec.or_eq_zero_iff

theorem and_flag_ne_zero (a b : Bool) : and (flag a) (flag b) ≠ 0 ↔ flag a ≠ 0 ∧ flag b ≠ 0 := by
  cases a <;> cases b <;> decide

theorem and_eq_ne_zero (a b a' b' : Word) : and (eq a b) (eq a' b') ≠ 0 ↔ a = b ∧ a' = b' := by
  rw [eq, eq, and_flag_ne_zero, ← eq, ← eq, eq_ne_zero, eq_ne_zero]

theorem and_addressMask (w : Word) : and w addressMask = Address.word (Address.ofWord w) := by
  apply BitVec.eq_of_toNat_eq
  have mask : addressMask.toNat = 2 ^ 160 - 1 := by decide
  simp only [and, BitVec.toNat_and, mask, Nat.and_two_pow_sub_one_eq_mod, Address.word, Address.ofWord,
    BitVec.toNat_setWidth]
  omega

end Op

namespace Yul

/-- Memory and return data live for one call; the world outlives it. -/
structure Machine (ω : Type) where
  memory : Memory
  returndata : Bytes
  world : ω

def Machine.start {ω : Type} (world : ω) : Machine ω := ⟨Memory.empty, [], world⟩

abbrev Program (ω α : Type) := Exec (Machine ω) α

/-- The call being served and the code around it. `callee` answers calls to contracts
that neither keep state nor call back. -/
structure Env where
  address : Address
  caller : Address
  value : Word
  data : Bytes
  code : Bytes
  number : Word
  chainId : Word
  keccak : Bytes → Word
  callee : Address → Bytes → Except Bytes Bytes

variable {ω α β : Type}

def mstore (offset : Nat) (w : Word) : Program ω Unit :=
  Exec.update fun m => { m with memory := m.memory.storeWord offset w }

def mload (offset : Nat) : Program ω Word := Exec.read fun m => m.memory.loadWord offset

def memoryRange (offset size : Nat) : Program ω Bytes := Exec.read fun m => m.memory.load offset size

/-- CALLDATACOPY, CODECOPY and RETURNDATACOPY, once the bytes to copy are known. -/
def copy (offset : Nat) (bytes : Bytes) : Program ω Unit :=
  Exec.update fun m => { m with memory := m.memory.store offset bytes }

def returndata : Program ω Bytes := Exec.read Machine.returndata

def revertRange (offset size : Nat) : Program ω α := do
  let data ← memoryRange offset size
  Exec.revert data

def keccak256 (env : Env) (offset size : Nat) : Program ω Word := do
  let data ← memoryRange offset size
  return env.keccak data

/-- `size` bytes of a byte string from `offset` on, zero padded. -/
def slice (bytes : Bytes) (offset size : Nat) : Bytes := (List.range size).map fun i => bytes.getD (offset + i) 0

/-- A call to a pure contract, which puts its answer in the return data and as much of it
as fits at `outOffset`. -/
def callPure (env : Env) (target : Word) (inOffset inSize outOffset outSize : Nat) : Program ω Word := do
  let data ← memoryRange inOffset inSize
  match env.callee (Address.ofWord target) data with
  | .ok out => do
    Exec.update fun m => { m with returndata := out, memory := m.memory.store outOffset (out.take outSize) }
    return 1
  | .error out => do
    Exec.update fun m => { m with returndata := out, memory := m.memory.store outOffset (out.take outSize) }
    return 0

theorem callPure_ok {env : Env} {target : Word} {inOffset inSize outOffset outSize : Nat} {m : Machine ω} {out : Bytes}
    (answer : env.callee (Address.ofWord target) (m.memory.load inOffset inSize) = .ok out) :
    callPure env target inOffset inSize outOffset outSize m =
      .ok (1, { m with returndata := out, memory := m.memory.store outOffset (out.take outSize) }) := by
  rw [callPure, memoryRange, Exec.read_bind, answer]
  rfl

theorem callPure_error {env : Env} {target : Word} {inOffset inSize outOffset outSize : Nat} {m : Machine ω} {out : Bytes}
    (answer : env.callee (Address.ofWord target) (m.memory.load inOffset inSize) = .error out) :
    callPure env target inOffset inSize outOffset outSize m =
      .ok (0, { m with returndata := out, memory := m.memory.store outOffset (out.take outSize) }) := by
  rw [callPure, memoryRange, Exec.read_bind, answer]
  rfl

/-- `fail(sel)`: the selector in the first four bytes of memory. -/
def fail (selector : Word) : Program ω α := do
  mstore 0x00 (selector <<< 224)
  revertRange 0x00 0x04

def failIf (selector condition : Word) : Program ω Unit := if condition ≠ 0 then fail selector else return ()

theorem fail_eq (selector : Word) : (fail selector : Program ω α) = Exec.revert (selectorBytes selector) := by
  funext m
  exact congrArg Except.error (Memory.load_storeWord_selector m.memory 0 selector)

theorem failIf_eq (selector condition : Word) :
    (failIf selector condition : Program ω Unit) = Exec.revertIf (condition ≠ 0) (selectorBytes selector) := by
  rw [failIf, fail_eq]
  rfl

theorem slice_load (bytes : Bytes) (offset size : Nat) (inside : offset + size ≤ bytes.length) :
    slice bytes offset size = (bytes.drop offset).take size := by
  apply List.ext_getElem
  · simp [slice]; omega
  · intro i first last
    have bound : i < size := by simpa [slice] using first
    have here : offset + i < bytes.length := by omega
    simp [slice, List.getD_eq_getElem?_getD, here]

@[simp] theorem length_slice (bytes : Bytes) (offset size : Nat) : (slice bytes offset size).length = size := by
  simp [slice]

theorem wordAt_slice (bytes : Bytes) (offset size start : Nat) (inside : start + 32 ≤ size) :
    wordAt (slice bytes offset size) start = wordAt bytes (offset + start) := by
  apply decodeWord_congr
  intro i bound
  have here : start + i < size := by omega
  simp [slice, List.getD_eq_getElem?_getD, here, Nat.add_assoc]

/-- The words of a slice whose length is a whole number of words. -/
theorem slice_eq_encodeWords (bytes : Bytes) (offset count : Nat) :
    slice bytes offset (32 * count) = encodeWords ((List.range count).map fun i => wordAt bytes (offset + 32 * i)) := by
  induction count with
  | zero => rfl
  | succ count ih =>
    rw [Nat.mul_succ, List.range_succ, List.map_append, encodeWords_append, ← ih]
    simp only [slice, List.range_add, List.map_append, List.map_map, List.map_cons, List.map_nil, encodeWords_cons,
      encodeWords_nil, List.append_nil, wordAt, encodeWord_decodeWord]
    congr 2
    funext i
    simp [Nat.add_assoc]

end Yul

end Evm
