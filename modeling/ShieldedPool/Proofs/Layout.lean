import ShieldedPool.Monolith
import ShieldedPool.Proofs.Operations
import ShieldedPool.Proofs.FrameProof

/-! The storage and logs of ShieldedPool.yul as a picture of the Solidity pool's, and what
its helpers do to that picture. Scratch memory is invisible in it. -/

namespace ShieldedPool.Proofs.Layout
open Evm Yul PoolYul Exec Merkle
open ShieldedPool.Monolith (Loc Log World Image environment)

/-- Slots 0 to 22, and the mappings at 23, 24 and 25. -/
def storageOf (s : State) : Loc → Word
  | .slot n =>
    if n.toNat ≤ depth then s.filledSubtrees n.toNat
    else if n = 21 then BitVec.ofNat 256 s.nextIndex
    else if n = 22 then s.currentRoot
    else 0
  | .map base key =>
    if base = 23 then flag (s.isLeaf key)
    else if base = 24 ∧ Address.Clean key then s.withdrawalCredit (Address.ofWord key)
    else if base = 25 ∧ Address.Clean key then s.feeCredit (Address.ofWord key)
    else 0

/-- An event as the compiler logs it: its indexed argument as a topic, the others as data. -/
def logOf : Event → Log
  | .leafAppended cm index newRoot slot =>
    ⟨[Monolith.leafAppendedTopic, cm], encodeWords [BitVec.ofNat 256 index, newRoot, slot.setWidth 256]⟩
  | .noteSpent nf => ⟨[Monolith.noteSpentTopic, nf], []⟩
  | .withdrawn who amount => ⟨[Monolith.withdrawnTopic, who.word], encodeWord amount⟩
  | .feePaid who amount => ⟨[Monolith.feePaidTopic, who.word], encodeWord amount⟩
  | .withdrawalCredited who amount => ⟨[Monolith.withdrawalCreditedTopic, who.word], encodeWord amount⟩
  | .feeCredited who amount => ⟨[Monolith.feeCreditedTopic, who.word], encodeWord amount⟩

def worldOf (s : State) : World where
  storage := storageOf s
  logs := s.logs.map logOf
  published := s.published.map publication

def Pictures (world : World) (s : State) : Prop := world = worldOf s ∧ s.nextIndex ≤ 2 ^ depth

/-- Only scratch memory and return data have changed. -/
def Scratch (m m' : Machine World) : Prop := m'.world = m.world

/-- The world has changed by `g`. -/
def Does (g : World → World) (m m' : Machine World) : Prop := m'.world = g m.world

def put (loc : Loc) (w : Word) (world : World) : World := { world with storage := Function.update world.storage loc w }

def append (log : Log) (world : World) : World := { world with logs := world.logs ++ [log] }

theorem Scratch.trans (m m' m'' : Machine World) (first : Scratch m m') (rest : Scratch m' m'') : Scratch m m'' :=
  Eq.trans rest first

section
variable (s : State)

theorem storage_subtree {l : Nat} (inside : l ≤ depth) : storageOf s (.slot (BitVec.ofNat 256 l)) = s.filledSubtrees l := by
  have number : (BitVec.ofNat 256 l).toNat = l := by
    rw [BitVec.toNat_ofNat]
    exact Nat.mod_eq_of_lt (by change l ≤ 20 at inside; omega)
  rw [storageOf, number, if_pos inside]

theorem storage_nextIndex : storageOf s (.slot 21) = BitVec.ofNat 256 s.nextIndex := by
  rw [storageOf, if_neg (by decide), if_pos rfl]

theorem storage_currentRoot : storageOf s (.slot 22) = s.currentRoot := by
  rw [storageOf, if_neg (by decide), if_neg (by decide), if_pos rfl]

theorem storage_isLeaf (cm : Word) : storageOf s (.map 23 cm) = flag (s.isLeaf cm) := by
  rw [storageOf, if_pos rfl]

theorem storage_withdrawalCredit (a : Address) : storageOf s (.map 24 a.word) = s.withdrawalCredit a := by
  rw [storageOf, if_neg (by decide), if_pos ⟨rfl, Address.word_clean a⟩, Address.ofWord_word]

theorem storage_feeCredit (a : Address) : storageOf s (.map 25 a.word) = s.feeCredit a := by
  rw [storageOf, if_neg (by decide), if_neg fun both => absurd both.1 (by decide), if_pos ⟨rfl, Address.word_clean a⟩,
    Address.ofWord_word]

end

theorem put_eq {s t : State} {loc : Loc} {w : Word} (here : storageOf t loc = w)
    (elsewhere : ∀ other, other ≠ loc → storageOf t other = storageOf s other) (logs : t.logs = s.logs)
    (published : t.published = s.published) : put loc w (worldOf s) = worldOf t := by
  have storage : Function.update (storageOf s) loc w = storageOf t := by
    funext other
    by_cases same : other = loc
    · rw [same, Function.update_self, here]
    · rw [Function.update_of_ne same, elsewhere other same]
  rw [put, worldOf, worldOf, logs, published, storage]

section
variable (s : State)

theorem put_subtree {l : Nat} (inside : l ≤ depth) (node : Word) :
    put (.slot (BitVec.ofNat 256 l)) node (worldOf s) = worldOf (s.setFilled l node) := by
  refine put_eq ?_ ?_ rfl rfl
  · rw [storage_subtree _ inside]
    exact Function.update_self ..
  · intro other apart
    cases other with
    | map base key => rfl
    | slot n =>
      by_cases small : n.toNat ≤ depth
      · have level : n.toNat ≠ l := by
          intro same
          apply apart
          rw [← same, BitVec.ofNat_toNat, BitVec.setWidth_eq]
        rw [storageOf, storageOf, if_pos small, if_pos small]
        exact Function.update_of_ne level ..
      · rw [storageOf, storageOf, if_neg small, if_neg small]
        rfl

theorem put_nextIndex (index : Nat) :
    put (.slot 21) (BitVec.ofNat 256 index) (worldOf s) = worldOf { s with nextIndex := index } := by
  refine put_eq (storage_nextIndex _) ?_ rfl rfl
  intro other apart
  cases other with
  | map base key => rfl
  | slot n =>
    have different : ¬ n = 21 := fun same => apart (congrArg Loc.slot same)
    rw [storageOf, storageOf, if_neg different, if_neg different]

theorem put_currentRoot (root : Word) : put (.slot 22) root (worldOf s) = worldOf { s with currentRoot := root } := by
  refine put_eq (storage_currentRoot _) ?_ rfl rfl
  intro other apart
  cases other with
  | map base key => rfl
  | slot n =>
    have different : ¬ n = 22 := fun same => apart (congrArg Loc.slot same)
    rw [storageOf, storageOf, if_neg different, if_neg different]

theorem put_isLeaf (cm : Word) : put (.map 23 cm) 1 (worldOf s) = worldOf (s.setLeaf cm) := by
  refine put_eq ?_ ?_ rfl rfl
  · have present : (s.setLeaf cm).isLeaf cm = true := Function.update_self ..
    rw [storage_isLeaf, present]
    rfl
  · intro other apart
    cases other with
    | slot n => rfl
    | map base key =>
      by_cases mapping : base = 23
      · have different : key ≠ cm := fun same => apart (by rw [mapping, same])
        rw [mapping, storage_isLeaf, storage_isLeaf]
        exact congrArg flag (Function.update_of_ne different ..)
      · rw [storageOf, storageOf, if_neg mapping, if_neg mapping]
        rfl

theorem put_withdrawalCredit (a : Address) (amount : Word) :
    put (.map 24 a.word) amount (worldOf s) = worldOf (s.setWithdrawalCredit a amount) := by
  refine put_eq ?_ ?_ rfl rfl
  · rw [storage_withdrawalCredit]
    exact Function.update_self ..
  · intro other apart
    cases other with
    | slot n => rfl
    | map base key =>
      by_cases mapping : base = 24 ∧ Address.Clean key
      · have different : Address.ofWord key ≠ a := fun same => apart (by rw [mapping.1, ← same, Address.word_ofWord mapping.2])
        obtain ⟨rfl, clean⟩ := mapping
        rw [← Address.word_ofWord clean, storage_withdrawalCredit, storage_withdrawalCredit]
        exact Function.update_of_ne different ..
      · rw [storageOf, storageOf, if_neg mapping, if_neg mapping]
        rfl

theorem put_feeCredit (a : Address) (amount : Word) : put (.map 25 a.word) amount (worldOf s) = worldOf (s.setFeeCredit a amount) := by
  refine put_eq ?_ ?_ rfl rfl
  · rw [storage_feeCredit]
    exact Function.update_self ..
  · intro other apart
    cases other with
    | slot n => rfl
    | map base key =>
      by_cases mapping : base = 25 ∧ Address.Clean key
      · have different : Address.ofWord key ≠ a := fun same => apart (by rw [mapping.1, ← same, Address.word_ofWord mapping.2])
        obtain ⟨rfl, clean⟩ := mapping
        rw [← Address.word_ofWord clean, storage_feeCredit, storage_feeCredit]
        exact Function.update_of_ne different ..
      · rw [storageOf, storageOf, if_neg mapping, if_neg mapping]
        rfl

theorem append_emit (e : Event) : append (logOf e) (worldOf s) = worldOf (s.emit e) := by
  simp only [append, worldOf, State.emit, List.map_append, List.map_cons, List.map_nil]
  rfl

end

theorem mapSlot_computes (key base : Word) : Computes Scratch (Monolith.mapSlot key base) (.map base key) := by
  intro m
  refine ⟨{ m with memory := (m.memory.storeWord 0x00 key).storeWord 0x20 base }, ?_, rfl⟩
  have first : ((m.memory.storeWord 0x00 key).storeWord 0x20 base).loadWord 0x00 = key := by
    rw [Memory.loadWord_storeWord_other _ _ _ (by decide), Memory.loadWord_storeWord_same]
  have second : ((m.memory.storeWord 0x00 key).storeWord 0x20 base).loadWord 0x20 = base := Memory.loadWord_storeWord_same ..
  simp only [Monolith.mapSlot, mstore, mload, update_bind, read_bind, first, second]
  rfl

theorem immutableAt_computes {env : Env} (before after : Bytes) {a : Address} {fromEnd : Nat}
    (code : env.code = before ++ encodeWord a.word ++ after) (place : fromEnd = 32 + after.length) :
    Computes Scratch (immutableAt env fromEnd) a.word :=
  fun m => ⟨_, immutableAt_run code place m, rfl⟩

section
variable (d : Deployment) (image : Image) (c : Call)

theorem poseidonT3_computes : Computes Scratch (Monolith.poseidonT3 (environment d image c)) image.poseidonT3.word :=
  immutableAt_computes image.runtime (encodeWord image.poseidonT4.word ++ encodeWord d.verifier.word ++ encodeWord d.probe.word)
    (by simp [environment, Image.code]) (by simp)

theorem poseidonT4_computes : Computes Scratch (Monolith.poseidonT4 (environment d image c)) image.poseidonT4.word :=
  immutableAt_computes (image.runtime ++ encodeWord image.poseidonT3.word) (encodeWord d.verifier.word ++ encodeWord d.probe.word)
    (by simp [environment, Image.code]) (by simp)

theorem verifierAddr_computes : Computes Scratch (Monolith.verifierAddr (environment d image c)) d.verifier.word :=
  immutableAt_computes (image.runtime ++ encodeWord image.poseidonT3.word ++ encodeWord image.poseidonT4.word) (encodeWord d.probe.word)
    (by simp [environment, Image.code]) (by simp)

theorem probeAddr_computes : Computes Scratch (Monolith.probeAddr (environment d image c)) d.probe.word :=
  immutableAt_computes
    (image.runtime ++ encodeWord image.poseidonT3.word ++ encodeWord image.poseidonT4.word ++ encodeWord d.verifier.word) []
    (by simp [environment, Image.code]) (by simp)

end

/-- The call of a Poseidon library, once its address is known and its arguments are in memory. -/
theorem callLibrary_run (env : Env) (lib : Word) {m : Machine World} {size : Nat} {v : Word}
    (answer : env.callee (Address.ofWord lib) (m.memory.load 0x00 size) = .ok (encodeWord v)) :
    ∃ m', (do
        let ok ← callPure env lib 0x00 size 0x00 0x20
        Exec.revertIf (Op.iszero ok ≠ 0) []
        mload 0x00 : Program World Word) m = .ok (v, m') ∧ Scratch m m' := by
  have taken : (encodeWord v).take 0x20 = encodeWord v := List.take_of_length_le (by simp)
  rw [bind_ok (callPure_ok answer), bind_ok (revertIf_neg (by decide) [] _), taken]
  exact ⟨_, congrArg (fun w => Except.ok (w, _)) (Memory.loadWord_storeWord_same m.memory 0x00 v), rfl⟩

/-- The words of a call from memory. -/
theorem wordAt_call (selector : Word) (words : List Word) (i : Nat) (inside : i < words.length) :
    wordAt (selectorBytes selector ++ encodeWords words) (4 + 32 * i) = words[i] := by
  have word := wordAt_encodeWords words i inside []
  rw [List.append_nil] at word
  rw [wordAt_selectorBytes, word]

section
variable (d : Deployment) (image : Image) (c : Call)

theorem externals_hash2 (x0 x1 : Word) :
    Monolith.externals d image c image.poseidonT3 (selectorBytes Monolith.hash2Selector ++ encodeWords [x0, x1]) =
      .ok (encodeWord (d.hash2 x0 x1)) := by
  have head : (selectorBytes Monolith.hash2Selector ++ encodeWords [x0, x1]).take 4 = selectorBytes Monolith.hash2Selector :=
    List.take_left' (length_selectorBytes _)
  have first := wordAt_call Monolith.hash2Selector [x0, x1] 0 (by simp)
  have second := wordAt_call Monolith.hash2Selector [x0, x1] 1 (by simp)
  rw [Monolith.externals, if_pos ⟨rfl, head⟩]
  exact congrArg₂ (fun v w => Except.ok (encodeWord (d.hash2 v w))) first second

theorem externals_hash3 (x0 x1 x2 : Word) :
    Monolith.externals d image c image.poseidonT4 (selectorBytes Monolith.hash3Selector ++ encodeWords [x0, x1, x2]) =
      .ok (encodeWord (d.hash3 x0 x1 x2)) := by
  have head : (selectorBytes Monolith.hash3Selector ++ encodeWords [x0, x1, x2]).take 4 = selectorBytes Monolith.hash3Selector :=
    List.take_left' (length_selectorBytes _)
  have other : ¬ (image.poseidonT4 = image.poseidonT3 ∧
      (selectorBytes Monolith.hash3Selector ++ encodeWords [x0, x1, x2]).take 4 = selectorBytes Monolith.hash2Selector) := by
    rw [head]
    exact fun both => absurd both.2 (by decide)
  have first := wordAt_call Monolith.hash3Selector [x0, x1, x2] 0 (by simp)
  have second := wordAt_call Monolith.hash3Selector [x0, x1, x2] 1 (by simp)
  have third := wordAt_call Monolith.hash3Selector [x0, x1, x2] 2 (by simp)
  rw [Monolith.externals, if_neg other, if_pos ⟨rfl, head⟩]
  exact congrArg (fun w => Except.ok (encodeWord w)) (congr (congrArg₂ d.hash3 first second) third)

theorem hash2_computes (x0 x1 : Word) : Computes Scratch (Monolith.hash2 (environment d image c) x0 x1) (d.hash2 x0 x1) := by
  refine Computes.bind Scratch.trans (poseidonT3_computes d image c) ?_
  intro m
  have laid : ((m.memory.storeWord 0x00 (Monolith.hash2Selector <<< 224)).storeWords (0x00 + 4) [x0, x1]).load 0x00 0x44 =
      selectorBytes Monolith.hash2Selector ++ encodeWords [x0, x1] := Memory.load_call _ _ _ _ (by simp)
  obtain ⟨m', ran, scratch⟩ := callLibrary_run (environment d image c) image.poseidonT3.word (v := d.hash2 x0 x1)
    (m := { m with memory := (m.memory.storeWord 0x00 (Monolith.hash2Selector <<< 224)).storeWords (0x00 + 4) [x0, x1] })
    (by rw [laid, Address.ofWord_word]; exact externals_hash2 d image c x0 x1)
  exact ⟨m', ran, scratch⟩

theorem hash3_computes (x0 x1 x2 : Word) :
    Computes Scratch (Monolith.hash3 (environment d image c) x0 x1 x2) (d.hash3 x0 x1 x2) := by
  refine Computes.bind Scratch.trans (poseidonT4_computes d image c) ?_
  intro m
  have laid : ((m.memory.storeWord 0x00 (Monolith.hash3Selector <<< 224)).storeWords (0x00 + 4) [x0, x1, x2]).load 0x00 0x64 =
      selectorBytes Monolith.hash3Selector ++ encodeWords [x0, x1, x2] := Memory.load_call _ _ _ _ (by simp)
  obtain ⟨m', ran, scratch⟩ := callLibrary_run (environment d image c) image.poseidonT4.word (v := d.hash3 x0 x1 x2)
    (m := { m with memory := (m.memory.storeWord 0x00 (Monolith.hash3Selector <<< 224)).storeWords (0x00 + 4) [x0, x1, x2] })
    (by rw [laid, Address.ofWord_word]; exact externals_hash3 d image c x0 x1 x2)
  exact ⟨m', ran, scratch⟩

theorem sourceId_computes : Computes Scratch (sourceId (environment d image c)) d.sourceId :=
  fun m => ⟨_, sourceId_run _ m, rfl⟩

end

/-- The Yul machine holds the picture of the Solidity state. -/
def Tracks (m : Machine World) (s : State) : Prop := Pictures m.world s

theorem Tracks.scratch (m m' : Machine World) (s : State) (scratch : Scratch m m') (tracks : Tracks m s) : Tracks m' s := by
  rw [Tracks, scratch]
  exact tracks

/-- A write the Solidity code makes too. -/
theorem Tracks.does {g : World → World} {h : State → State} (same : ∀ s, g (worldOf s) = worldOf (h s))
    (room : ∀ s, s.nextIndex ≤ 2 ^ depth → (h s).nextIndex ≤ 2 ^ depth) (m m' : Machine World) (s : State) (does : Does g m m')
    (tracks : Tracks m s) : Tracks m' (h s) :=
  ⟨by rw [does, tracks.1, same], room s tracks.2⟩

theorem sstore_does (loc : Loc) (w : Word) : Computes (Does (put loc w)) (Monolith.sstore loc w) () := fun _ => ⟨_, rfl, rfl⟩

theorem sload_run (loc : Loc) (m : Machine World) : Monolith.sload loc m = .ok (m.world.storage loc, m) := rfl

theorem setLeaf_does (cm : Word) : Computes (Does (put (.map 23 cm) 1)) (Monolith.setLeaf cm) () := by
  intro m
  obtain ⟨m', ran, scratch⟩ := mapSlot_computes cm 23 m
  rw [Monolith.setLeaf, bind_ok ran]
  exact ⟨_, rfl, congrArg (put (.map 23 cm) 1) scratch⟩

theorem low_bit (idx : Nat) : (Op.and (BitVec.ofNat 256 idx) 1).toNat = idx % 2 := by
  rw [Op.and, BitVec.toNat_and, BitVec.toNat_ofNat]
  change (idx % 2 ^ 256) &&& 1 = idx % 2
  rw [Nat.and_one_is_mod]
  omega

theorem odd_iff (idx : Nat) : Op.eq (Op.and (BitVec.ofNat 256 idx) 1) 1 ≠ 0 ↔ idx % 2 = 1 := by
  rw [Op.eq_ne_zero, ← BitVec.toNat_inj, low_bit]
  rfl

theorem eq_one_iff (a b : Word) : Op.eq a b = 1 ↔ a = b := by
  have one (same : Bool) : flag same = 1 ↔ same = true := by cases same <;> decide
  rw [Op.eq, one, beq_iff_eq]

theorem even_iff (idx : Nat) : Op.and (BitVec.ofNat 256 idx) 1 = 0 ↔ idx % 2 = 0 := by
  rw [← BitVec.toNat_inj, low_bit]
  rfl

theorem half_word {idx : Nat} (small : idx < 2 ^ 256) : BitVec.ofNat 256 idx >>> 1 = BitVec.ofNat 256 (idx / 2) := by
  apply BitVec.eq_of_toNat_eq
  rw [BitVec.toNat_ushiftRight, BitVec.toNat_ofNat, BitVec.toNat_ofNat, Nat.shiftRight_eq_div_pow]
  omega

theorem next_word (l : Nat) : BitVec.ofNat 256 l + 1 = BitVec.ofNat 256 (l + 1) := by
  rw [BitVec.ofNat_add]
  rfl

section
variable (d : Deployment) (image : Image) (c : Call)

theorem absorb_run {filled : Nat → Word} (fuel bits idx l : Nat) (node : Word) (bound : idx < 2 ^ bits) (enough : bits ≤ fuel)
    (inside : l + bits ≤ depth) {m : Machine World}
    (stored : ∀ k, k ≤ depth → m.world.storage (.slot (BitVec.ofNat 256 k)) = filled k) :
    ∃ m', Monolith.absorb (environment d image c) fuel (BitVec.ofNat 256 idx) (BitVec.ofNat 256 l) node m =
      .ok ((BitVec.ofNat 256 (Frontier.carry d.hash2 filled fuel idx l node).1, (Frontier.carry d.hash2 filled fuel idx l node).2), m') ∧
      Scratch m m' := by
  induction fuel generalizing bits idx l node m with
  | zero => exact ⟨m, rfl, rfl⟩
  | succ fuel ih =>
    rw [Monolith.absorb, Frontier.carry]
    by_cases odd : idx % 2 = 1
    · cases bits with
      | zero => simp at bound; omega
      | succ bits =>
        have small : idx < 2 ^ 256 := bound.trans (Nat.pow_lt_pow_right (by decide) (by change l + _ ≤ 20 at inside; omega))
        obtain ⟨m1, hashed, scratch⟩ := hash2_computes d image c (filled l) node m
        obtain ⟨m2, rest, later⟩ := ih bits (idx / 2) (l + 1) (d.hash2 (filled l) node) (by rw [Nat.pow_succ] at bound; omega)
          (by omega) (by omega) (m := m1) (by rw [scratch]; exact stored)
        rw [if_pos ((odd_iff idx).mpr odd), if_pos odd, bind_ok (sload_run _ m), stored l (by omega), bind_ok hashed,
          half_word small, next_word]
        exact ⟨m2, rest, scratch.trans m m1 m2 later⟩
    · rw [if_neg fun word => odd ((odd_iff idx).mp word), if_neg odd]
      exact ⟨m, rfl, rfl⟩

theorem foldFrontier_run {filled : Nat → Word} (rounds idx l : Nat) (node : Word) (small : idx < 2 ^ 256)
    (inside : l + rounds ≤ depth) {m : Machine World}
    (stored : ∀ k, k ≤ depth → m.world.storage (.slot (BitVec.ofNat 256 k)) = filled k) :
    ∃ m', Monolith.foldFrontier (environment d image c) rounds (BitVec.ofNat 256 l) (BitVec.ofNat 256 idx) node m =
      .ok (Frontier.fold d.hash2 zeros filled rounds l idx node, m') ∧ Scratch m m' := by
  induction rounds generalizing idx l node m with
  | zero => exact ⟨m, rfl, rfl⟩
  | succ rounds ih =>
    rw [Monolith.foldFrontier, Frontier.fold]
    by_cases even : idx % 2 = 0
    · have level : (BitVec.ofNat 256 l).toNat = l := by
        rw [BitVec.toNat_ofNat]
        exact Nat.mod_eq_of_lt (by change l + _ ≤ 20 at inside; omega)
      have table : Monolith.zerosAt (BitVec.ofNat 256 l) m = .ok (zeros l, m) := by
        rw [Monolith.zerosAt, level, if_pos (by omega)]
        rfl
      obtain ⟨m1, hashed, scratch⟩ := hash2_computes d image c node (zeros l) m
      obtain ⟨m2, rest, later⟩ := ih (idx / 2) (l + 1) (d.hash2 node (zeros l)) (by omega) (by omega) (m := m1)
        (by rw [scratch]; exact stored)
      rw [if_pos ((even_iff idx).mpr even), if_pos even, bind_ok table, bind_ok hashed, half_word small, next_word]
      exact ⟨m2, rest, scratch.trans m m1 m2 later⟩
    · obtain ⟨m1, hashed, scratch⟩ := hash2_computes d image c (filled l) node m
      obtain ⟨m2, rest, later⟩ := ih (idx / 2) (l + 1) (d.hash2 (filled l) node) (by omega) (by omega) (m := m1)
        (by rw [scratch]; exact stored)
      rw [if_neg fun word => even ((even_iff idx).mp word), if_neg even, bind_ok (sload_run _ m), stored l (by omega), bind_ok hashed,
        half_word small, next_word]
      exact ⟨m2, rest, scratch.trans m m1 m2 later⟩

end

section
variable {d : Deployment} {image : Image} {c : Call} {excused : Bytes → Prop}

/-- The bound on the leaf count in front of `_insert`. -/
theorem full_iff {index : Nat} (bound : index ≤ 2 ^ depth) :
    Op.iszero (Op.lt (BitVec.ofNat 256 index) (1#256 <<< depth)) ≠ 0 ↔ 2 ^ depth ≤ index := by
  have small : index < 2 ^ 256 := bound.trans_lt (by decide)
  have capacity : (1#256 <<< depth).toNat = 2 ^ depth := by decide
  rw [Op.iszero_lt_ne_zero, BitVec.le_def, capacity, BitVec.toNat_ofNat, Nat.mod_eq_of_lt small]

theorem read_nextIndex :
    Simulates excused Tracks (fun w n => w = BitVec.ofNat 256 n ∧ n ≤ 2 ^ depth) (Monolith.sload (.slot 21)) (read State.nextIndex) :=
  .read fun m s tracks => ⟨by rw [tracks.1]; exact storage_nextIndex s, tracks.2⟩

theorem insert_simulates (cm : Word) :
    Simulates excused Tracks (fun w n => w = BitVec.ofNat 256 n) (Monolith.insert (environment d image c) cm) (insert d cm) := by
  refine .bind read_nextIndex ?_
  rintro _ index ⟨rfl, bound⟩
  rw [failIf_eq]
  refine .guard (full_iff bound) fun room => ?_
  have next : BitVec.ofNat 256 index + 1 = BitVec.ofNat 256 (index + 1) := next_word index
  rw [next]
  refine .perform (Tracks.does (fun s => put_nextIndex s (index + 1)) fun _ _ => by change index + 1 ≤ _; omega)
    (sstore_does _ _) ?_
  refine .perform (Tracks.does (fun s => put_isLeaf s cm) fun _ kept => kept) (setLeaf_does cm) ?_
  intro m s tracks
  have stored (k : Nat) (inside : k ≤ depth) : m.world.storage (.slot (BitVec.ofNat 256 k)) = s.filledSubtrees k := by
    rw [tracks.1]
    exact storage_subtree s inside
  obtain ⟨m', climbed, scratch⟩ : ∃ m', Monolith.absorb (environment d image c) 256 (BitVec.ofNat 256 index) 0 cm m =
      .ok ((BitVec.ofNat 256 (Frontier.carry d.hash2 s.filledSubtrees 256 index 0 cm).1,
        (Frontier.carry d.hash2 s.filledSubtrees 256 index 0 cm).2), m') ∧ Scratch m m' :=
    absorb_run d image c 256 depth index 0 cm (by omega) (by decide) (by decide) stored
  have again : ShieldedPool.absorb d 32 index 0 cm s = .ok (Frontier.carry d.hash2 s.filledSubtrees 32 index 0 cm, s) :=
    Proofs.absorb_run d s 32 index 0 cm depth (by omega) (by decide)
  have level := Frontier.carry_level_le d.hash2 s.filledSubtrees 32 index 0 depth cm (by omega)
  have fuel : Frontier.carry d.hash2 s.filledSubtrees 256 index 0 cm = Frontier.carry d.hash2 s.filledSubtrees 32 index 0 cm :=
    Frontier.carry_fuel s.filledSubtrees 32 224 index 0 cm (bound.trans_lt (by decide))
  rw [fuel] at climbed
  rw [bind_ok climbed, bind_ok again]
  generalize Frontier.carry d.hash2 s.filledSubtrees 32 index 0 cm = reached at level ⊢
  obtain ⟨l, node⟩ := reached
  have inside : l ≤ depth := by simpa using level
  change Agree excused Tracks _ _ ((setFilledSubtree l node >>= fun _ => pure index) s)
  rw [bind_ok (setFilledSubtree_run inside node s)]
  exact ⟨rfl, Tracks.does (fun s => put_subtree s inside node) (fun _ kept => kept) m' _ s rfl (Tracks.scratch m m' s scratch tracks)⟩

theorem computeRoot_simulates :
    Simulates excused Tracks (fun w root => w = root) (Monolith.computeRoot (environment d image c)) (computeRoot d) := by
  intro m s tracks
  have stored (k : Nat) (inside : k ≤ depth) : m.world.storage (.slot (BitVec.ofNat 256 k)) = s.filledSubtrees k := by
    rw [tracks.1]
    exact storage_subtree s inside
  have index : m.world.storage (.slot 21) = BitVec.ofNat 256 s.nextIndex := by
    rw [tracks.1]
    exact storage_nextIndex s
  have small : s.nextIndex < 2 ^ 256 := tracks.2.trans_lt (by decide)
  have full : Op.eq (BitVec.ofNat 256 s.nextIndex) (1#256 <<< depth) = 1 ↔ s.nextIndex = 2 ^ depth := by
    have capacity : (1#256 <<< depth).toNat = 2 ^ depth := by decide
    rw [eq_one_iff, ← BitVec.toNat_inj, capacity, BitVec.toNat_ofNat, Nat.mod_eq_of_lt small]
  rw [computeRoot_eq, rootOf, Monolith.computeRoot, bind_ok (sload_run _ m), index]
  by_cases last : s.nextIndex = 2 ^ depth
  · rw [if_pos (full.mpr last), if_pos last, sload_run, stored depth (le_refl depth)]
    exact ⟨rfl, tracks⟩
  · obtain ⟨m', folded, scratch⟩ := foldFrontier_run d image c depth s.nextIndex 0 0 small (by decide) stored
    rw [if_neg fun word => last (full.mp word), if_neg last]
    have folded : Monolith.foldFrontier (environment d image c) depth 0 (BitVec.ofNat 256 s.nextIndex) 0 m = _ := folded
    rw [folded]
    exact ⟨rfl, Tracks.scratch m m' s scratch tracks⟩

end

end ShieldedPool.Proofs.Layout
