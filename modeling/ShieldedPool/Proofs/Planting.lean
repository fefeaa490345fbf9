import ShieldedPool.Proofs.PoolTree

/-! The write-only frontier on its own: any leaves, inserted one after another. Every slot that
is read was written before and holds the subtree just left of the current position. -/

namespace ShieldedPool.Proofs
open Evm Exec Merkle

variable (d : Deployment)

section With
variable (fetch : Nat → Exec State Word)

def absorbWith : Nat → Nat → Nat → Word → Exec State (Nat × Word)
  | 0, _, l, node => return (l, node)
  | fuel + 1, idx, l, node =>
    if idx % 2 = 1 then do
      let left ← fetch l
      absorbWith fuel (idx / 2) (l + 1) (hashPair d left node)
    else return (l, node)

def insertWith (cm : Word) : Exec State Nat := do
  let index ← read State.nextIndex
  Error.treeFull.throwIf (2 ^ depth ≤ index)
  update fun s => { s with nextIndex := index + 1 }
  update fun s => s.setLeaf cm
  let (l, node) ← absorbWith d fetch 32 index 0 cm
  setFilledSubtree l node
  return index

def foldFrontierWith : Nat → Nat → Nat → Word → Exec State Word
  | 0, _, _, node => return node
  | rounds + 1, l, idx, node =>
    if idx % 2 = 0 then foldFrontierWith rounds (l + 1) (idx / 2) (hashPair d node (zeros l)) else do
      let left ← fetch l
      foldFrontierWith rounds (l + 1) (idx / 2) (hashPair d left node)

def computeRootWith : Exec State Word := do
  let idx ← read State.nextIndex
  if idx = 2 ^ depth then fetch depth else foldFrontierWith d fetch depth 0 idx 0

end With

theorem absorbWith_filledSubtree (fuel idx l : Nat) (node : Word) :
    absorbWith d filledSubtree fuel idx l node = absorb d fuel idx l node := by
  induction fuel generalizing idx l node with
  | zero => rfl
  | succ fuel ih => simp only [absorbWith, absorb, ih]

theorem insertWith_filledSubtree (cm : Word) : insertWith d filledSubtree cm = insert d cm := by
  simp only [insertWith, insert, absorbWith_filledSubtree]

theorem foldFrontierWith_filledSubtree (rounds l idx : Nat) (node : Word) :
    foldFrontierWith d filledSubtree rounds l idx node = foldFrontier d rounds l idx node := by
  induction rounds generalizing l idx node with
  | zero => rfl
  | succ rounds ih => simp only [foldFrontierWith, foldFrontier, ih]

theorem computeRootWith_filledSubtree : computeRootWith d filledSubtree = computeRoot d := by
  simp only [computeRootWith, computeRoot, foldFrontierWith_filledSubtree]

/-- Slot `l` was written when one of these leaves was inserted, and `node` is the completed
subtree just left of the next position. -/
def Live (leaves : List Word) (l : Nat) (node : Word) : Prop :=
  (∃ j, j < leaves.length ∧ Frontier.slotOf 32 j = l) ∧ leaves.length / 2 ^ l % 2 = 1 ∧
    node = Merkle.node d.hash2 (pad 0 leaves) l (leaves.length / 2 ^ l - 1)

instance (leaves : List Word) (l : Nat) (node : Word) : Decidable (Live d leaves l node) :=
  inferInstanceAs (Decidable (_ ∧ _))

/-- A read that fails on any slot that is not live. -/
def watched (leaves : List Word) (l : Nat) : Exec State Word := do
  let node ← filledSubtree l
  revertIf (¬ Live d leaves l node) []
  return node

/-- Insertions, some of them followed by a computation of the root. -/
def plant : List (Word × Bool) → Exec State (List (Nat × Option Word))
  | [] => return []
  | (cm, asked) :: rest => do
    let index ← insert d cm
    if asked then do
      let root ← computeRoot d
      let more ← plant rest
      return (index, some root) :: more
    else do
      let more ← plant rest
      return (index, none) :: more

/-- What a sequence returns when `leaves` are there before: the indices in order, and the root
of the tree of the leaves so far wherever it is asked for. -/
def planted (leaves : List Word) : List (Word × Bool) → List (Nat × Option Word)
  | [] => []
  | (cm, asked) :: rest =>
    (leaves.length, if asked then some (root d.hash2 0 depth (leaves ++ [cm])) else none) :: planted (leaves ++ [cm]) rest

/-- The frontier of these leaves. -/
structure Planted (s : State) (leaves : List Word) : Prop where
  count : s.nextIndex = leaves.length
  bound : leaves.length ≤ 2 ^ depth
  frontier : Frontier.Holds d.hash2 (pad 0 leaves) s.filledSubtrees s.nextIndex

variable {d} {s : State} {leaves : List Word}

theorem Planted.inserted (ok : Planted d s leaves) (cm : Word) (room : leaves.length < 2 ^ depth) :
    Planted d (inserted d s cm) (leaves ++ [cm]) where
  count := by
    change s.nextIndex + 1 = _
    rw [ok.count, List.length_append, List.length_singleton]
  bound := by
    rw [List.length_append, List.length_singleton]
    exact room
  frontier := by
    have enough : s.nextIndex < 2 ^ 32 := by
      rw [ok.count]
      exact room.trans (by decide)
    have placed : pad 0 (leaves ++ [cm]) s.nextIndex = cm := by
      rw [ok.count, pad_inside 0 _ _ (by simp)]
      simp
    have before : Frontier.Holds d.hash2 (pad 0 (leaves ++ [cm])) s.filledSubtrees s.nextIndex := by
      apply ok.frontier.congr
      intro j inside
      rw [ok.count] at inside
      rw [pad_inside 0 _ _ inside, pad_inside 0 _ _ (by rw [List.length_append]; omega), List.getElem_append_left inside]
    exact before.push placed enough

theorem Planted.rootOf (ok : Planted d s leaves) (table : ZerosTable d) : rootOf d s = root d.hash2 0 depth leaves := by
  rw [Proofs.rootOf, root]
  have bound := ok.bound
  by_cases full : s.nextIndex = 2 ^ depth
  · have frontier := ok.frontier
    rw [full] at frontier
    rw [if_pos full, Frontier.full_root frontier]
  · have count := ok.count
    rw [if_neg full, Frontier.fold_root ok.frontier _ (by omega) fun j inside => zeros_eq table (by omega)]
    intro j beyond
    exact pad_beyond 0 leaves j (by omega)

/-- Wherever a bit of the leaf count is set, the read goes through. -/
theorem Planted.watched_run {t : State} (ok : Planted d s leaves) (same : t.filledSubtrees = s.filledSubtrees) {l : Nat} (inside : l ≤ depth)
    (odd : leaves.length / 2 ^ l % 2 = 1) : watched d leaves l t = filledSubtree l t := by
  have low : l < 32 := inside.trans_lt (by decide)
  have live : Live d leaves l (t.filledSubtrees l) := by
    refine ⟨Frontier.written_of_set low odd, odd, ?_⟩
    have held := ok.frontier l (by rw [ok.count]; exact odd)
    rw [same, held, ok.count]
  rw [watched, filledSubtree_run inside, bind_ok (filledSubtree_run inside t), revertIf_bind, if_neg (not_not.mpr live)]
  rfl

theorem Planted.absorbWith_watched {t : State} (ok : Planted d s leaves) (same : t.filledSubtrees = s.filledSubtrees) (fuel l : Nat)
    (node : Word) (bits : Nat) (bound : leaves.length / 2 ^ l < 2 ^ bits) (inside : l + bits ≤ depth) :
    absorbWith d (watched d leaves) fuel (leaves.length / 2 ^ l) l node t = absorb d fuel (leaves.length / 2 ^ l) l node t := by
  induction fuel generalizing l node bits with
  | zero => rfl
  | succ fuel ih =>
    rw [absorbWith, absorb]
    by_cases odd : leaves.length / 2 ^ l % 2 = 1
    · cases bits with
      | zero =>
        rw [Nat.pow_zero, Nat.lt_one_iff] at bound
        rw [bound] at odd
        exact absurd odd (by decide)
      | succ bits =>
        have run := filledSubtree_run (l := l) (by omega) t
        rw [if_pos odd, if_pos odd, bind_ok run, bind_ok (by rw [ok.watched_run same (by omega) odd, run]),
          ← Frontier.div_two_pow_succ]
        exact ih (l + 1) _ bits (by rw [Frontier.div_two_pow_succ]; rw [Nat.pow_succ] at bound; omega) (by omega)
    · rw [if_neg odd, if_neg odd]

theorem Planted.insertWith_watched (ok : Planted d s leaves) (cm : Word) : insertWith d (watched d leaves) cm s = insert d cm s := by
  rw [insertWith, insert, read_bind, read_bind, throwIf_bind, throwIf_bind]
  by_cases full : 2 ^ depth ≤ s.nextIndex
  · rw [if_pos full, if_pos full]
  · have absorbed := ok.absorbWith_watched (t := ({ s with nextIndex := s.nextIndex + 1 } : State).setLeaf cm) rfl 32 0 cm depth
      (by rw [Nat.pow_zero, Nat.div_one, ← ok.count]; exact Nat.not_le.mp full) (by omega)
    rw [Nat.pow_zero, Nat.div_one, ← ok.count] at absorbed
    rw [if_neg full, if_neg full, update_bind, update_bind, update_bind, update_bind, bind_apply, bind_apply, absorbed]

theorem Planted.foldFrontierWith_watched (ok : Planted d s leaves) (rounds l : Nat) (node : Word) (inside : l + rounds ≤ depth) :
    foldFrontierWith d (watched d leaves) rounds l (leaves.length / 2 ^ l) node s =
      foldFrontier d rounds l (leaves.length / 2 ^ l) node s := by
  induction rounds generalizing l node with
  | zero => rfl
  | succ rounds ih =>
    rw [foldFrontierWith, foldFrontier, ← Frontier.div_two_pow_succ]
    by_cases even : leaves.length / 2 ^ l % 2 = 0
    · rw [if_pos even, if_pos even]
      exact ih (l + 1) _ (by omega)
    · have run := filledSubtree_run (l := l) (by omega) s
      rw [if_neg even, if_neg even, bind_ok run, bind_ok (by rw [ok.watched_run rfl (by omega) (by omega), run])]
      exact ih (l + 1) _ (by omega)

theorem Planted.computeRootWith_watched (ok : Planted d s leaves) : computeRootWith d (watched d leaves) s = computeRoot d s := by
  rw [computeRootWith, computeRoot, read_bind, read_bind]
  by_cases full : s.nextIndex = 2 ^ depth
  · have one : leaves.length / 2 ^ depth % 2 = 1 := by rw [← ok.count, full, Nat.div_self (Nat.two_pow_pos depth)]
    rw [if_pos full, if_pos full]
    exact ok.watched_run rfl (le_refl depth) one
  · have folded := ok.foldFrontierWith_watched depth 0 0 (by omega)
    rw [Nat.pow_zero, Nat.div_one, ← ok.count] at folded
    rw [if_neg full, if_neg full]
    exact folded

theorem Planted.insert_run (ok : Planted d s leaves) (cm : Word) (room : leaves.length < 2 ^ depth) :
    insert d cm s = .ok (leaves.length, Proofs.inserted d s cm) := by
  rw [insert_eq, if_neg (by rw [ok.count]; omega), ok.count]

/-- A sequence of insertions returns the indices in order, and the roots asked for. -/
theorem Planted.plant_run (ok : Planted d s leaves) (table : ZerosTable d) (calls : List (Word × Bool))
    (bound : leaves.length + calls.length ≤ 2 ^ depth) :
    ∃ t, plant d calls s = .ok (planted d leaves calls, t) ∧ Planted d t (leaves ++ calls.map Prod.fst) := by
  induction calls generalizing s leaves with
  | nil => exact ⟨s, rfl, by rw [List.map_nil, List.append_nil]; exact ok⟩
  | cons call rest ih =>
    obtain ⟨cm, asked⟩ := call
    rw [List.length_cons] at bound
    have next := ok.inserted cm (by omega)
    obtain ⟨t, ran, grown⟩ := ih next (by rw [List.length_append, List.length_singleton]; omega)
    refine ⟨t, ?_, by rw [List.map_cons]; simpa using grown⟩
    rw [plant, bind_ok (ok.insert_run cm (by omega)), planted]
    cases asked with
    | false => rw [if_neg Bool.noConfusion, if_neg Bool.noConfusion, bind_ok ran]; rfl
    | true => rw [if_pos rfl, if_pos rfl, bind_ok (computeRoot_eq d _), bind_ok ran, next.rootOf table]; rfl

/-- An insertion writes one slot. -/
theorem filledSubtrees_inserted (cm : Word) {l : Nat} (changed : (inserted d s cm).filledSubtrees l ≠ s.filledSubtrees l) :
    l = Frontier.slotOf 32 s.nextIndex := by
  by_contra other
  refine changed ?_
  change Frontier.push d.hash2 32 s.filledSubtrees s.nextIndex cm l = _
  rw [Frontier.push, Frontier.carry_level, Nat.zero_add, Function.update_of_ne other]

theorem slotOf_le {n : Nat} (inside : n < 2 ^ depth) : Frontier.slotOf 32 n ≤ depth := by
  have level := Frontier.carry_level_le (fun _ _ : Unit => ()) (fun _ => ()) 32 n 0 depth () inside
  rwa [Frontier.carry_level, Nat.zero_add, Nat.zero_add] at level

/-- From a pool without leaves, insertions return their indices and the recomputed root is that of
the zero-padded tree. Reads only go to slots that were written and are not stale, writes stay
within the frontier, and a full tree takes no more leaves. -/
theorem frontier_exact (table : ZerosTable d) (fresh : s.nextIndex = 0) (calls : List (Word × Bool)) (bound : calls.length ≤ 2 ^ depth) :
    ∃ t, plant d calls s = .ok (planted d [] calls, t) ∧
      computeRoot d t = .ok (root d.hash2 0 depth (calls.map Prod.fst), t) ∧
      computeRootWith d (watched d (calls.map Prod.fst)) t = computeRootWith d filledSubtree t ∧
      computeRootWith d filledSubtree t = computeRoot d t ∧
      (∀ cm, insertWith d (watched d (calls.map Prod.fst)) cm t = insertWith d filledSubtree cm t ∧
        insertWith d filledSubtree cm t = insert d cm t) ∧
      (calls.length < 2 ^ depth → ∀ cm, ∃ u, insert d cm t = .ok (calls.length, u) ∧
        ∀ l, u.filledSubtrees l ≠ t.filledSubtrees l → l = Frontier.slotOf 32 calls.length ∧ l ≤ depth) ∧
      (calls.length = 2 ^ depth → ∀ cm, insert d cm t = .error Error.treeFull.data) := by
  have first : Planted d s [] := ⟨fresh, Nat.zero_le _, by rw [fresh]; exact .zero⟩
  obtain ⟨t, ran, ok⟩ := first.plant_run table calls (by simpa using bound)
  rw [List.nil_append] at ok
  have size : (calls.map Prod.fst).length = calls.length := List.length_map _
  have count : t.nextIndex = calls.length := ok.count.trans size
  rw [computeRootWith_filledSubtree]
  refine ⟨t, ran, by rw [computeRoot_eq, ok.rootOf table], ok.computeRootWith_watched, rfl, fun cm => ?_, fun room cm => ?_, fun full cm => ?_⟩
  · rw [insertWith_filledSubtree]
    exact ⟨ok.insertWith_watched cm, rfl⟩
  · refine ⟨_, size ▸ ok.insert_run cm (by omega), fun l changed => ?_⟩
    obtain rfl := filledSubtrees_inserted cm changed
    exact ⟨by rw [count], slotOf_le (by omega)⟩
  · rw [insert_eq, if_pos (by omega)]

theorem frontier_exact_hegota :
    ∃ t, plant Hegota.deployment [(Hegota.node 0, true), (Hegota.transfer.outCm1, false)] genesis =
        .ok (planted Hegota.deployment [] [(Hegota.node 0, true), (Hegota.transfer.outCm1, false)], t) ∧
      ∀ cm, ∃ u, insert Hegota.deployment cm t = .ok (2, u) := by
  have few : 2 < 2 ^ depth := by decide
  obtain ⟨t, ran, -, -, -, -, next, -⟩ := frontier_exact hegota_zerosTable (rfl : genesis.nextIndex = 0)
    [(Hegota.node 0, true), (Hegota.transfer.outCm1, false)] few.le
  refine ⟨t, ran, fun cm => ?_⟩
  obtain ⟨u, placed, -⟩ := next few cm
  exact ⟨u, placed⟩

end ShieldedPool.Proofs
