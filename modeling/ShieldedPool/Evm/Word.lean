import Mathlib.Data.Nat.Init
import Mathlib.Tactic.Ring
import Mathlib.Data.List.Basic

/-! Machine words and their big-endian byte encoding. Byte strings are lists and
reads past their end give zero, as call data does. -/

namespace Evm

abbrev Byte := BitVec 8
abbrev Bytes := List Byte
abbrev Word := BitVec 256
abbrev Address := BitVec 160

/-- The number spelled big-endian by the first `n` bytes of `f`. -/
def spell (f : Nat → Byte) : Nat → Nat
  | 0 => 0
  | n + 1 => spell f n * 256 + (f n).toNat

/-- The word whose 32 bytes, most significant first, are `f 0`, ..., `f 31`. -/
def decodeWord (f : Nat → Byte) : Word := BitVec.ofNat 256 (spell f 32)

/-- Byte `i` of a word, counted from the most significant end. -/
def byteOf (w : Word) (i : Nat) : Byte := BitVec.ofNat 8 (w.toNat / 256 ^ (31 - i))

def encodeWord (w : Word) : Bytes := (List.range 32).map (byteOf w)

/-- CALLDATALOAD and its relatives: 32 bytes from `offset`, zero padded. -/
def wordAt (data : Bytes) (offset : Nat) : Word := decodeWord fun i => data.getD (offset + i) 0

/-- The truth value a comparison opcode pushes. -/
def flag (b : Bool) : Word := if b then 1 else 0

/-- `shr(224, calldataload(0))` reads a selector; this writes one back. -/
def selectorBytes (selector : Word) : Bytes := (encodeWord (selector <<< 224)).take 4

def Address.word (a : Address) : Word := a.setWidth 256

def Address.ofWord (w : Word) : Address := w.setWidth 160

@[simp] theorem flag_eq_zero (b : Bool) : flag b = 0#256 ↔ b = false := by cases b <;> decide

theorem flag_ne_zero (b : Bool) : flag b ≠ 0 ↔ b = true := by cases b <;> decide

@[simp] theorem length_encodeWord (w : Word) : (encodeWord w).length = 32 := by simp [encodeWord]

@[simp] theorem length_selectorBytes (w : Word) : (selectorBytes w).length = 4 := by simp [selectorBytes]

theorem spell_congr {f g : Nat → Byte} {n : Nat} (same : ∀ i, i < n → f i = g i) : spell f n = spell g n := by
  induction n with
  | zero => rfl
  | succ n ih =>
    simp only [spell]
    rw [ih fun i inside => same i (by omega), same n (by omega)]

theorem spell_lt (f : Nat → Byte) (n : Nat) : spell f n < 256 ^ n := by
  induction n with
  | zero => simp [spell]
  | succ n ih =>
    have last := (f n).isLt
    simp only [spell, Nat.pow_succ]
    omega

/-- Spelling out the digits of a number gives the number back. -/
theorem spell_digits (x n : Nat) :
    spell (fun i => BitVec.ofNat 8 (x / 256 ^ (n - 1 - i))) n = x % 256 ^ n := by
  induction n generalizing x with
  | zero => simp [spell, Nat.mod_one]
  | succ n ih =>
    have shifted : spell (fun i => BitVec.ofNat 8 (x / 256 ^ (n + 1 - 1 - i))) n = x / 256 % 256 ^ n := by
      rw [← ih (x / 256)]
      apply spell_congr
      intro i inside
      have exponent : n + 1 - 1 - i = (n - 1 - i) + 1 := by omega
      simp only [exponent, Nat.pow_succ', Nat.div_div_eq_div_mul]
    rw [spell, shifted, Nat.pow_succ', Nat.mod_mul]
    simp only [Nat.add_sub_cancel, Nat.sub_self, Nat.pow_zero, Nat.div_one, BitVec.toNat_ofNat]
    omega

/-- The digits of a spelled number are the bytes it was spelled from. -/
theorem digit_spell (f : Nat → Byte) (n i : Nat) (inside : i < n) :
    BitVec.ofNat 8 (spell f n / 256 ^ (n - 1 - i)) = f i := by
  induction n with
  | zero => omega
  | succ n ih =>
    have last := (f n).isLt
    by_cases here : i = n
    · subst here
      apply BitVec.eq_of_toNat_eq
      simp only [spell, Nat.add_sub_cancel, Nat.sub_self, Nat.pow_zero, Nat.div_one, BitVec.toNat_ofNat]
      omega
    · have exponent : n + 1 - 1 - i = (n - 1 - i) + 1 := by omega
      have drop : spell f (n + 1) / 256 = spell f n := by simp only [spell]; omega
      rw [exponent, Nat.pow_succ', ← Nat.div_div_eq_div_mul, drop]
      exact ih (by omega)

theorem decodeWord_congr {f g : Nat → Byte} (same : ∀ i, i < 32 → f i = g i) : decodeWord f = decodeWord g := by
  rw [decodeWord, decodeWord, spell_congr same]

@[simp] theorem decodeWord_byteOf (w : Word) : decodeWord (byteOf w) = w := by
  apply BitVec.eq_of_toNat_eq
  have digits := spell_digits w.toNat 32
  have bound := w.isLt
  simp only [decodeWord, BitVec.toNat_ofNat]
  change spell (fun i => BitVec.ofNat 8 (w.toNat / 256 ^ (32 - 1 - i))) 32 % 2 ^ 256 = w.toNat
  rw [digits]
  omega

theorem byteOf_decodeWord (f : Nat → Byte) (i : Nat) (inside : i < 32) : byteOf (decodeWord f) i = f i := by
  have bound := spell_lt f 32
  rw [← digit_spell f 32 i inside]
  simp only [byteOf, decodeWord, BitVec.toNat_ofNat]
  rw [Nat.mod_eq_of_lt (by omega)]

theorem encodeWord_decodeWord (f : Nat → Byte) : encodeWord (decodeWord f) = (List.range 32).map f := by
  apply List.map_congr_left
  intro i inside
  exact byteOf_decodeWord f i (List.mem_range.mp inside)

theorem getD_encodeWord (w : Word) (i : Nat) (inside : i < 32) : (encodeWord w).getD i 0 = byteOf w i := by
  simp [encodeWord, List.getD_eq_getElem?_getD, inside]

theorem encodeWord_injective {v w : Word} (same : encodeWord v = encodeWord w) : v = w := by
  rw [← decodeWord_byteOf v, ← decodeWord_byteOf w]
  apply decodeWord_congr
  intro i inside
  rw [← getD_encodeWord v i inside, same, getD_encodeWord w i inside]

theorem wordAt_append_right (first rest : Bytes) (offset : Nat) :
    wordAt (first ++ rest) (first.length + offset) = wordAt rest offset := by
  apply decodeWord_congr
  intro i _
  rw [List.getD_eq_getElem?_getD, List.getD_eq_getElem?_getD, List.getElem?_append_right (by omega)]
  congr 2
  omega

theorem wordAt_append_left (first rest : Bytes) (offset : Nat) (inside : offset + 32 ≤ first.length) :
    wordAt (first ++ rest) offset = wordAt first offset := by
  apply decodeWord_congr
  intro i _
  rw [List.getD_eq_getElem?_getD, List.getD_eq_getElem?_getD, List.getElem?_append_left (by omega)]

@[simp] theorem wordAt_encodeWord (w : Word) : wordAt (encodeWord w) 0 = w := by
  rw [wordAt, ← decodeWord_byteOf w]
  apply decodeWord_congr
  intro i inside
  rw [decodeWord_byteOf, Nat.zero_add, getD_encodeWord w i inside]

/-- Consecutive words, as ABI encoding lays out a static tuple. -/
def encodeWords (words : List Word) : Bytes := words.flatMap encodeWord

@[simp] theorem encodeWords_nil : encodeWords [] = [] := rfl

@[simp] theorem encodeWords_cons (w : Word) (words : List Word) :
    encodeWords (w :: words) = encodeWord w ++ encodeWords words := rfl

@[simp] theorem encodeWords_append (first rest : List Word) :
    encodeWords (first ++ rest) = encodeWords first ++ encodeWords rest := List.flatMap_append

@[simp] theorem length_encodeWords (words : List Word) : (encodeWords words).length = 32 * words.length := by
  induction words with
  | nil => rfl
  | cons w words ih => simp [ih]; omega

theorem wordAt_encodeWords (words : List Word) (i : Nat) (inside : i < words.length) (rest : Bytes) :
    wordAt (encodeWords words ++ rest) (32 * i) = words[i] := by
  induction words generalizing i with
  | nil => simp at inside
  | cons w words ih =>
    rw [encodeWords_cons, List.append_assoc]
    cases i with
    | zero => rw [Nat.mul_zero, wordAt_append_left _ _ _ (by simp), wordAt_encodeWord]; rfl
    | succ i =>
      have offset : 32 * (i + 1) = (encodeWord w).length + 32 * i := by rw [length_encodeWord]; omega
      rw [offset, wordAt_append_right]
      exact ih i (by simpa using inside)

theorem encodeWords_injective : ∀ {first second : List Word}, encodeWords first = encodeWords second → first = second
  | [], [], _ => rfl
  | [], w :: words, same | w :: words, [], same => by
    have length := congrArg List.length same
    simp only [length_encodeWords, List.length_cons, List.length_nil] at length
    omega
  | v :: first, w :: second, same => by
    obtain ⟨head, tail⟩ := List.append_inj same (by rw [length_encodeWord, length_encodeWord])
    rw [encodeWord_injective head, encodeWords_injective tail]

/-- The first bytes of a word are its leading digits. -/
theorem decodeWord_shift (f : Nat → Byte) : (decodeWord f >>> 224).toNat = spell f 4 := by
  have bound := spell_lt f 32
  have digits (n : Nat) : spell f (4 + n) / 256 ^ n = spell f 4 := by
    induction n with
    | zero => simp
    | succ n ih =>
      have last := (f (4 + n)).isLt
      rw [← ih, Nat.pow_succ', ← Nat.div_div_eq_div_mul, ← Nat.add_assoc, spell]
      congr 1
      omega
  rw [BitVec.toNat_ushiftRight, Nat.shiftRight_eq_div_pow, decodeWord, BitVec.toNat_ofNat, Nat.mod_eq_of_lt (by omega)]
  exact digits 28

/-- The selector of call data that starts with it. -/
theorem selector_selectorBytes (selector : Word) (small : selector.toNat < 2 ^ 32) (rest : Bytes) :
    wordAt (selectorBytes selector ++ rest) 0 >>> 224 = selector := by
  have same : spell (fun i => (selectorBytes selector ++ rest).getD (0 + i) 0) 4 = spell (byteOf (selector <<< 224)) 4 := by
    apply spell_congr
    intro i inside
    rw [Nat.zero_add, List.getD_eq_getElem?_getD, List.getElem?_append_left (by simpa using inside),
      ← List.getD_eq_getElem?_getD, ← getD_encodeWord _ i (by omega), selectorBytes, List.getD_eq_getElem?_getD,
      List.getElem?_take_of_lt inside, ← List.getD_eq_getElem?_getD]
  have whole : (decodeWord (byteOf (selector <<< 224)) >>> 224).toNat = selector.toNat := by
    rw [decodeWord_byteOf, BitVec.toNat_ushiftRight, BitVec.toNat_shiftLeft, Nat.shiftRight_eq_div_pow, Nat.shiftLeft_eq]
    omega
  apply BitVec.eq_of_toNat_eq
  rw [wordAt, decodeWord_shift, same, ← decodeWord_shift, whole]

theorem wordAt_selectorBytes (selector : Word) (rest : Bytes) (offset : Nat) :
    wordAt (selectorBytes selector ++ rest) (4 + offset) = wordAt rest offset := by
  have skipped := wordAt_append_right (selectorBytes selector) rest offset
  rwa [length_selectorBytes] at skipped

namespace Address

@[simp] theorem ofWord_word (a : Address) : ofWord (word a) = a := by
  simp [ofWord, word]

theorem word_lt (a : Address) : (word a).toNat < 2 ^ 160 := by
  have bound := a.isLt
  simp only [word, BitVec.toNat_setWidth]
  omega

theorem word_toNat (a : Address) : (word a).toNat = a.toNat := by
  have bound := a.isLt
  simp only [word, BitVec.toNat_setWidth]
  omega

theorem word_injective {a b : Address} (same : word a = word b) : a = b := by
  rw [← ofWord_word a, same, ofWord_word]

/-- A word names an address when its 96 high bits are clear. -/
def Clean (w : Word) : Prop := w >>> 160 = 0

instance (w : Word) : Decidable (Clean w) := inferInstanceAs (Decidable (_ = _))

theorem clean_iff (w : Word) : Clean w ↔ w.toNat < 2 ^ 160 := by
  unfold Clean
  constructor <;> intro <;> bv_omega

theorem word_clean (a : Address) : Clean (word a) := (clean_iff _).mpr (word_lt a)

theorem word_ofWord {w : Word} (clean : Clean w) : word (ofWord w) = w := by
  have bound := (clean_iff w).mp clean
  apply BitVec.eq_of_toNat_eq
  simp only [word, ofWord, BitVec.toNat_setWidth]
  omega

end Address

end Evm
