import ShieldedPool.Evm.Word

/-! Byte-addressed memory. A program may write at unaligned offsets and let
writes overlap; these rules read a range back from the writes before it. -/

namespace Evm

def Memory := Nat → Byte

namespace Memory

def empty : Memory := fun _ => 0

def store (memory : Memory) (offset : Nat) (data : Bytes) : Memory :=
  fun i => if offset ≤ i ∧ i < offset + data.length then data.getD (i - offset) 0 else memory i

def load (memory : Memory) (offset size : Nat) : Bytes := (List.range size).map fun i => memory (offset + i)

def storeWord (memory : Memory) (offset : Nat) (w : Word) : Memory := memory.store offset (encodeWord w)

def loadWord (memory : Memory) (offset : Nat) : Word := decodeWord fun i => memory (offset + i)

/-- Words written one after another, each 32 bytes above the one before. -/
def storeWords (memory : Memory) (offset : Nat) : List Word → Memory
  | [] => memory
  | w :: words => (memory.storeWord offset w).storeWords (offset + 32) words

@[simp] theorem length_load (memory : Memory) (offset size : Nat) : (memory.load offset size).length = size := by
  simp [load]

theorem load_add (memory : Memory) (offset first rest : Nat) :
    memory.load offset (first + rest) = memory.load offset first ++ memory.load (offset + first) rest := by
  simp only [load, List.range_add, List.map_append, List.map_map]
  congr 2
  funext i
  simp [Nat.add_assoc]

theorem load_congr {first second : Memory} {offset size : Nat}
    (same : ∀ i, offset ≤ i → i < offset + size → first i = second i) :
    first.load offset size = second.load offset size := by
  apply List.map_congr_left
  intro i inside
  have bound := List.mem_range.mp inside
  exact same _ (by omega) (by omega)

/-- A write is read back up to the length that was written. -/
theorem load_store_within (memory : Memory) (offset : Nat) (data : Bytes) {size : Nat} (inside : size ≤ data.length) :
    (memory.store offset data).load offset size = data.take size := by
  apply List.ext_getElem
  · simpa using inside
  · intro i first last
    have bound : i < size := by simpa using first
    have here : i < data.length := by omega
    simp [load, store, List.getD_eq_getElem?_getD, here]

@[simp] theorem load_store_same (memory : Memory) (offset : Nat) (data : Bytes) :
    (memory.store offset data).load offset data.length = data := by
  rw [load_store_within memory offset data (Nat.le_refl _), List.take_length]

theorem load_store_other (memory : Memory) (offset : Nat) (data : Bytes) {start size : Nat}
    (apart : start + size ≤ offset ∨ offset + data.length ≤ start) :
    (memory.store offset data).load start size = memory.load start size := by
  apply load_congr
  intro i low high
  simp only [store]
  rw [if_neg (by omega)]

@[simp] theorem load_storeWord_same (memory : Memory) (offset : Nat) (w : Word) :
    (memory.storeWord offset w).load offset 32 = encodeWord w := by
  have whole := load_store_same memory offset (encodeWord w)
  rwa [length_encodeWord] at whole

theorem load_storeWord_other (memory : Memory) (offset : Nat) (w : Word) {start size : Nat}
    (apart : start + size ≤ offset ∨ offset + 32 ≤ start) :
    (memory.storeWord offset w).load start size = memory.load start size :=
  load_store_other memory offset _ (by simpa using apart)

theorem load_storeWord_within (memory : Memory) (offset : Nat) (w : Word) {size : Nat} (inside : size ≤ 32) :
    (memory.storeWord offset w).load offset size = (encodeWord w).take size :=
  load_store_within memory offset _ (by simpa using inside)

/-- `mstore(offset, shl(224, selector))` leaves the selector in the first four bytes. -/
theorem load_storeWord_selector (memory : Memory) (offset : Nat) (selector : Word) :
    (memory.storeWord offset (selector <<< 224)).load offset 4 = selectorBytes selector :=
  load_storeWord_within memory offset _ (by decide)

theorem load_storeWords_other (memory : Memory) (words : List Word) (offset : Nat) {start size : Nat}
    (apart : start + size ≤ offset ∨ offset + 32 * words.length ≤ start) :
    (memory.storeWords offset words).load start size = memory.load start size := by
  induction words generalizing memory offset with
  | nil => rfl
  | cons w words ih =>
    simp only [List.length_cons] at apart
    rw [storeWords, ih _ _ (by omega), load_storeWord_other _ _ _ (by omega)]

@[simp] theorem load_storeWords (memory : Memory) (words : List Word) (offset : Nat) :
    (memory.storeWords offset words).load offset (32 * words.length) = encodeWords words := by
  induction words generalizing memory offset with
  | nil => rfl
  | cons w words ih =>
    have size : 32 * (w :: words).length = 32 + 32 * words.length := by simp only [List.length_cons]; omega
    rw [size, load_add, storeWords, ih, load_storeWords_other _ _ _ (by omega), load_storeWord_same, encodeWords_cons]

theorem store_append (memory : Memory) (offset : Nat) (first rest : Bytes) :
    memory.store offset (first ++ rest) = (memory.store offset first).store (offset + first.length) rest := by
  funext i
  simp only [store, List.length_append]
  by_cases below : i < offset + first.length
  · have later : ¬ (offset + first.length ≤ i ∧ i < offset + first.length + rest.length) := by omega
    rw [if_neg later]
    by_cases inside : offset ≤ i
    · have here : i - offset < first.length := by omega
      rw [if_pos ⟨inside, by omega⟩, if_pos ⟨inside, below⟩, List.getD_eq_getElem?_getD,
        List.getElem?_append_left here, ← List.getD_eq_getElem?_getD]
    · rw [if_neg (by omega), if_neg (by omega)]
  · have before : ¬ (offset ≤ i ∧ i < offset + first.length) := by omega
    rw [if_neg before]
    by_cases inside : i < offset + first.length + rest.length
    · rw [if_pos ⟨by omega, by omega⟩, if_pos ⟨by omega, inside⟩, List.getD_eq_getElem?_getD,
        List.getElem?_append_right (by omega), ← List.getD_eq_getElem?_getD, Nat.sub_sub]
    · rw [if_neg (by omega), if_neg (by omega)]

/-- Words written one after another are their encoding written at once. -/
theorem storeWords_eq_store (memory : Memory) (offset : Nat) (words : List Word) :
    memory.storeWords offset words = memory.store offset (encodeWords words) := by
  induction words generalizing memory offset with
  | nil =>
    funext i
    simp [storeWords, store]
  | cons w words ih => rw [storeWords, ih, encodeWords_cons, store_append, length_encodeWord]; rfl

theorem storeWords_append (memory : Memory) (first rest : List Word) (offset : Nat) :
    memory.storeWords offset (first ++ rest) = (memory.storeWords offset first).storeWords (offset + 32 * first.length) rest := by
  induction first generalizing memory offset with
  | nil => rfl
  | cons w words ih =>
    rw [List.cons_append, storeWords, ih, storeWords, List.length_cons]
    congr 1
    omega

/-- A selector and its arguments laid out as call data. -/
theorem load_call (memory : Memory) (offset : Nat) (selector : Word) (words : List Word) {size : Nat}
    (exact : size = 4 + 32 * words.length) :
    ((memory.storeWord offset (selector <<< 224)).storeWords (offset + 4) words).load offset size =
      selectorBytes selector ++ encodeWords words := by
  subst exact
  rw [load_add, load_storeWords, load_storeWords_other _ _ _ (by omega), load_storeWord_selector]

theorem loadWord_eq_wordAt (memory : Memory) (offset : Nat) : memory.loadWord offset = wordAt (memory.load offset 32) 0 := by
  apply decodeWord_congr
  intro i inside
  simp [load, List.getD_eq_getElem?_getD, inside]

/-- Memory handed over as call data reads the same words at the same places. -/
theorem wordAt_load (memory : Memory) (offset size start : Nat) (inside : start + 32 ≤ size) :
    wordAt (memory.load offset size) start = memory.loadWord (offset + start) := by
  apply decodeWord_congr
  intro i bound
  have here : start + i < size := by omega
  simp [load, List.getD_eq_getElem?_getD, here, Nat.add_assoc]

theorem loadWord_congr {first second : Memory} {offset : Nat} (same : first.load offset 32 = second.load offset 32) :
    first.loadWord offset = second.loadWord offset := by
  rw [loadWord_eq_wordAt, loadWord_eq_wordAt, same]

@[simp] theorem loadWord_storeWord_same (memory : Memory) (offset : Nat) (w : Word) :
    (memory.storeWord offset w).loadWord offset = w := by
  rw [loadWord_eq_wordAt, load_storeWord_same, wordAt_encodeWord]

theorem loadWord_storeWord_other (memory : Memory) (offset : Nat) (w : Word) {start : Nat}
    (apart : start + 32 ≤ offset ∨ offset + 32 ≤ start) :
    (memory.storeWord offset w).loadWord start = memory.loadWord start :=
  loadWord_congr (load_storeWord_other memory offset w apart)

/-- A word copied in as part of a longer write. -/
theorem loadWord_store (memory : Memory) (offset : Nat) (data : Bytes) (start : Nat) (inside : start + 32 ≤ data.length) :
    (memory.store offset data).loadWord (offset + start) = wordAt data start := by
  apply decodeWord_congr
  intro i bound
  simp only [store]
  rw [if_pos (by omega)]
  congr 1
  omega

theorem load_store_words (memory : Memory) (offset : Nat) (words : List Word) {size : Nat}
    (exact : size = 32 * words.length) : (memory.storeWords offset words).load offset size = encodeWords words := by
  subst exact
  exact load_storeWords memory words offset

end Memory

end Evm
