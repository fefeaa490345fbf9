import ShieldedPool.Proofs.Jobs

/-! The indexer rebuilds the tree on chain. Its rows are rows of the padded tree, so its
root and its paths are that tree's; its dictionary reads the pool's events back in order. -/

namespace ShieldedPool.Proofs
open Evm Merkle Wallet

variable {p2 : Word → Word → Word}

/-- The nodes of a level that `_levels` computes. -/
def row (g : Nat → Word) (width : Nat) : List Word := (List.range width).map g

theorem row_succ_succ (g : Nat → Word) (width : Nat) :
    row g (width + 2) = g 0 :: g 1 :: row (fun i => g (i + 2)) width := by
  simp [row, List.range_succ_eq_map, Function.comp_def]

/-- Pairing a row up, with zeros beyond its end. -/
theorem nextLevel_row (zero : Word) (g : Nat → Word) (width : Nat) (blank : ∀ j, width ≤ j → g j = zero) :
    nextLevel p2 zero (row g width) = row (fun i => p2 (g (2 * i)) (g (2 * i + 1))) ((width + 1) / 2) := by
  induction width using Nat.twoStepInduction generalizing g with
  | zero => rfl
  | one => simp [row, nextLevel, blank]
  | more width ih _ =>
    rw [row_succ_succ, nextLevel, ih _ fun j beyond => blank (j + 2) (by omega)]
    have half : (width + 2 + 1) / 2 = (width + 1) / 2 + 1 := by omega
    rw [half, row, row, List.range_succ_eq_map, List.map_cons, List.map_map]
    rfl

/-- How many nodes of level `l` cover `n` leaves. -/
def widthAt (n : Nat) : Nat → Nat
  | 0 => n
  | l + 1 => (widthAt n l + 1) / 2

theorem widthAt_covers (n l : Nat) : n ≤ 2 ^ l * widthAt n l := by
  induction l with
  | zero => simp [widthAt]
  | succ l ih =>
    have double : widthAt n l ≤ 2 * widthAt n (l + 1) := by rw [widthAt]; omega
    calc n ≤ 2 ^ l * widthAt n l := ih
      _ ≤ 2 ^ l * (2 * widthAt n (l + 1)) := Nat.mul_le_mul_left _ double
      _ = 2 ^ (l + 1) * widthAt n (l + 1) := by ring

theorem widthAt_pos {n : Nat} (positive : 0 < n) (l : Nat) : 0 < widthAt n l := by
  induction l with
  | zero => exact positive
  | succ l ih => rw [widthAt]; omega

theorem widthAt_le {n depth : Nat} (bound : n ≤ 2 ^ depth) {l : Nat} (inside : l ≤ depth) :
    widthAt n l ≤ 2 ^ (depth - l) := by
  induction l with
  | zero => exact bound
  | succ l ih =>
    have power : 2 ^ (depth - l) = 2 * 2 ^ (depth - (l + 1)) := by
      rw [← Nat.pow_succ']
      congr 1
      omega
    have below := ih (by omega)
    rw [widthAt]
    omega

theorem widthAt_top {n depth : Nat} (positive : 0 < n) (bound : n ≤ 2 ^ depth) : widthAt n depth = 1 := by
  have high := widthAt_le bound (le_refl depth)
  have low := widthAt_pos positive depth
  rw [Nat.sub_self, Nat.pow_zero] at high
  omega

theorem zerosFrom_getD (count : Nat) (z : Word) (l : Nat) (inside : l ≤ count) :
    (zerosFrom p2 count z).getD l 0 = zeroNode p2 z l := by
  induction count generalizing z l with
  | zero =>
    obtain rfl : l = 0 := by omega
    rfl
  | succ count ih =>
    cases l with
    | zero => rfl
    | succ l =>
      rw [zerosFrom, List.getD_cons_succ, ih _ _ (by omega), zeroNode_pair]

variable (p2) in
/-- A tree as `__init__` and `append` build it. -/
def treeOf (depth : Nat) (leaves : List Word) : Tree := { Tree.init p2 depth with leaves }

theorem zeroAt_treeOf (depth : Nat) (leaves : List Word) {l : Nat} (inside : l ≤ depth) :
    (treeOf p2 depth leaves).zeroAt l = zeroNode p2 0 l := zerosFrom_getD depth 0 l inside

/-- An empty tree is computed from one empty leaf. -/
def baseWidth (leaves : List Word) : Nat := max 1 leaves.length

theorem firstRow (depth : Nat) (leaves : List Word) :
    (if (treeOf p2 depth leaves).leaves = [] then [(treeOf p2 depth leaves).zeroAt 0] else (treeOf p2 depth leaves).leaves) =
      row (pad 0 leaves) (baseWidth leaves) := by
  change (if leaves = [] then _ else leaves) = _
  cases leaves with
  | nil =>
    rw [if_pos rfl, zeroAt_treeOf depth [] (Nat.zero_le _)]
    rfl
  | cons cm rest =>
    have width : baseWidth (cm :: rest) = (cm :: rest).length := by simp [baseWidth]
    rw [if_neg (List.cons_ne_nil _ _), width]
    apply List.ext_getElem
    · simp [row]
    · intro i first last
      simp only [row, List.getElem_map, List.getElem_range]
      exact (pad_inside 0 (cm :: rest) i first).symm

theorem blank_row (leaves : List Word) (l j : Nat) (beyond : widthAt (baseWidth leaves) l ≤ j) :
    node p2 (pad 0 leaves) l j = zeroNode p2 0 l := by
  apply node_eq_zeroNode fun i outside => pad_beyond 0 leaves i outside
  calc leaves.length ≤ baseWidth leaves := Nat.le_max_right _ _
    _ ≤ 2 ^ l * widthAt (baseWidth leaves) l := widthAt_covers _ _
    _ ≤ 2 ^ l * j := Nat.mul_le_mul_left _ beyond

variable (p2) in
theorem levelsFrom_getD (depth : Nat) (leaves : List Word) (rounds l k : Nat) (inside : k ≤ rounds) (bound : l + rounds ≤ depth) :
    ((treeOf p2 depth leaves).levelsFrom p2 rounds l (row (node p2 (pad 0 leaves) l) (widthAt (baseWidth leaves) l))).getD k [] =
      row (node p2 (pad 0 leaves) (l + k)) (widthAt (baseWidth leaves) (l + k)) := by
  induction rounds generalizing l k with
  | zero =>
    obtain rfl : k = 0 := by omega
    rfl
  | succ rounds ih =>
    cases k with
    | zero => rfl
    | succ k =>
      rw [Tree.levelsFrom, List.getD_cons_succ, zeroAt_treeOf depth leaves (by omega),
        nextLevel_row _ _ _ (blank_row leaves l)]
      have step := ih (l + 1) k (by omega) (by omega)
      rw [Nat.add_right_comm, Nat.add_assoc] at step
      exact step

variable (p2) in
theorem levels_getD (depth : Nat) (leaves : List Word) {l : Nat} (inside : l ≤ depth) :
    ((treeOf p2 depth leaves).levels p2).getD l [] = row (node p2 (pad 0 leaves) l) (widthAt (baseWidth leaves) l) := by
  rw [Tree.levels, firstRow]
  have all := levelsFrom_getD p2 depth leaves depth 0 l inside (by omega)
  rwa [Nat.zero_add] at all

/-- `root()` is the root of the zero-padded tree. -/
theorem root_treeOf {depth : Nat} {leaves : List Word} (bound : leaves.length ≤ 2 ^ depth) :
    (treeOf p2 depth leaves).root p2 = root p2 0 depth leaves := by
  have top : widthAt (baseWidth leaves) depth = 1 :=
    widthAt_top (by simp [baseWidth]) (by simp [baseWidth, bound, Nat.one_le_two_pow])
  have last := levels_getD p2 depth leaves (le_refl depth)
  rw [top] at last
  change (((treeOf p2 depth leaves).levels p2).getD depth []).getD 0 0 = _
  rw [last]
  rfl

theorem sibling_eq (i : Nat) : i ^^^ 1 = if i % 2 = 1 then i - 1 else i + 1 := by
  have half : (i ^^^ 1) / 2 = i / 2 := by rw [Nat.xor_div_two]; simp
  have low : (i ^^^ 1) % 2 = 1 ↔ ¬ i % 2 = 1 := by
    rw [Nat.xor_mod_two_eq_one]
    omega
  split_ifs <;> omega

theorem authPathFrom_eq (depth : Nat) (leaves : List Word) (rounds l i : Nat) (bound : l + rounds ≤ depth) :
    (treeOf p2 depth leaves).authPathFrom ((treeOf p2 depth leaves).levels p2) rounds l i =
      authPath p2 (pad 0 leaves) rounds l i := by
  induction rounds generalizing l i with
  | zero => rfl
  | succ rounds ih =>
    have sibling : ∀ j, (if j < (row (node p2 (pad 0 leaves) l) (widthAt (baseWidth leaves) l)).length then
        (row (node p2 (pad 0 leaves) l) (widthAt (baseWidth leaves) l)).getD j 0 else zeroNode p2 0 l) =
          node p2 (pad 0 leaves) l j := by
      intro j
      by_cases present : j < widthAt (baseWidth leaves) l
      · simp [row, present, List.getD_eq_getElem?_getD]
      · rw [if_neg (by simpa [row] using present), blank_row leaves l j (by omega)]
    rw [Tree.authPathFrom, authPath, levels_getD p2 depth leaves (by omega), zeroAt_treeOf depth leaves (by omega),
      ih _ _ (by omega), sibling, sibling_eq]

/-- Folding a leaf along `auth_path` arrives at `root()`. -/
theorem climb_authPath_treeOf {depth : Nat} {leaves : List Word} (bound : leaves.length ≤ 2 ^ depth) {i : Nat}
    (inside : i < leaves.length) :
    climb p2 leaves[i] ((treeOf p2 depth leaves).authPath p2 i) = (treeOf p2 depth leaves).root p2 := by
  have folded := climb_authPath p2 (pad 0 leaves) depth 0 i
  rw [Nat.zero_add, Nat.div_eq_of_lt (inside.trans_le bound)] at folded
  have path : (treeOf p2 depth leaves).authPath p2 i = authPath p2 (pad 0 leaves) depth 0 i :=
    authPathFrom_eq depth leaves depth 0 i (by omega)
  rw [path, root_treeOf bound, root, ← folded, node, pad_inside 0 leaves i inside]

/-- One event's effect on the dictionary. -/
def assignAll (dict : List (Nat × Word)) (entries : List (Word × Nat)) : List (Nat × Word) :=
  entries.foldl (fun dict entry => assign dict entry.2 entry.1) dict

theorem readLeaves_eq (s : State) : readLeaves s.logs = assignAll [] (appended s) := by
  rw [readLeaves, assignAll, appended, List.foldl_filterMap]
  congr 1
  funext dict e
  cases e <;> rfl

/-- Indices that are all different fill the dictionary in turn. -/
theorem assignAll_eq (entries : List (Word × Nat)) (distinct : (entries.map Prod.snd).Nodup) :
    assignAll [] entries = (entries.map Prod.swap).reverse := by
  induction entries using List.reverseRecOn with
  | nil => rfl
  | append_singleton entries entry ih =>
    rw [List.map_append, List.nodup_append] at distinct
    obtain ⟨before, -, apart⟩ := distinct
    have split : assignAll [] (entries ++ [entry]) = assign (assignAll [] entries) entry.2 entry.1 := List.foldl_append
    rw [split, ih before, List.map_append, List.reverse_append, assign, List.filter_eq_self.mpr]
    · rfl
    · intro other member
      obtain ⟨earlier, inside, rfl⟩ := List.mem_map.mp (List.mem_reverse.mp member)
      have different := apart _ (List.mem_map_of_mem inside) entry.2 (by simp)
      simpa using different

theorem lookup_of_mem {dict : List (Nat × Word)} {i : Nat} {cm : Word} (distinct : (dict.map Prod.fst).Nodup)
    (member : (i, cm) ∈ dict) : dict.lookup i = some cm := by
  induction dict with
  | nil => simp at member
  | cons entry rest ih =>
    obtain ⟨j, other⟩ := entry
    rw [List.map_cons, List.nodup_cons] at distinct
    rcases List.mem_cons.mp member with here | later
    · cases here
      exact List.lookup_cons_self
    · have key : i ∈ rest.map Prod.fst := List.mem_map.mpr ⟨_, later, rfl⟩
      have different : i ≠ j := fun same => distinct.1 (same ▸ key)
      rw [List.lookup_cons, show (i == j) = false by simpa using different]
      exact ih distinct.2 later

/-- Filling a tree from a dictionary that has every index. -/
theorem fill_eq {dict : List (Nat × Word)} {leaf : Nat → Word} {depth : Nat} {before : List Word} {indices : List Nat}
    (present : ∀ i ∈ indices, dict.lookup i = some (leaf i)) (room : before.length + indices.length ≤ 2 ^ depth) :
    fill dict (treeOf p2 depth before) indices = some (treeOf p2 depth (before ++ indices.map leaf)) := by
  induction indices generalizing before with
  | nil => simp [fill]
  | cons i rest ih =>
    rw [List.length_cons] at room
    have appended : (treeOf p2 depth before).append (leaf i) = some (treeOf p2 depth (before ++ [leaf i])) :=
      if_pos (show before.length < 2 ^ depth by omega)
    rw [fill, present i (by simp), Option.bind_eq_bind, Option.bind_some, appended, Option.bind_eq_bind, Option.bind_some,
      ih (fun j member => present j (by simp [member])) (by simp; omega), List.append_assoc]
    rfl

theorem lookup_readLeaves {d : Deployment} {s : State} (ok : TreeOk d s) {i : Nat} (inside : i < s.nextIndex) :
    (readLeaves s.logs).lookup i = some (pad 0 (leavesOf s) i) := by
  have distinct : ((appended s).map Prod.snd).Nodup := by rw [ok.numbered]; exact List.nodup_range
  have count : (appended s).length = s.nextIndex := by
    rw [← List.length_map Prod.snd, ok.numbered, List.length_range]
  have bound : i < (appended s).length := by omega
  have number : (appended s)[i].2 = i := by
    have entry := List.getElem_of_eq ok.numbered (i := i) (by simpa using bound)
    simpa using entry
  have leaf : pad 0 (leavesOf s) i = (appended s)[i].1 := by
    rw [pad_inside 0 _ i (by simpa [leavesOf] using bound)]
    simp [leavesOf]
  rw [readLeaves_eq, assignAll_eq _ distinct]
  apply lookup_of_mem
  · rw [List.map_reverse, List.nodup_reverse, List.map_map]
    exact distinct
  · rw [List.mem_reverse, List.mem_map]
    exact ⟨(appended s)[i], List.getElem_mem bound, by rw [Prod.swap, number, leaf]⟩

/-- `seeded_tree` ends with the tree of all announced leaves. -/
theorem seededTree_eq {d : Deployment} {s : State} (tree : TreeOk d s) (roots : RootsOk d s) :
    seededTree d.hash2 depth s.logs s.currentRoot = some (treeOf d.hash2 depth (leavesOf s)) := by
  have distinct : ((appended s).map Prod.snd).Nodup := by rw [tree.numbered]; exact List.nodup_range
  have size : (readLeaves s.logs).length = s.nextIndex := by
    rw [readLeaves_eq, assignAll_eq _ distinct, List.length_reverse, List.length_map, ← List.length_map Prod.snd,
      tree.numbered, List.length_range]
  have bound : (leavesOf s).length ≤ 2 ^ depth := tree.grown.bound
  have all : (List.range s.nextIndex).map (pad 0 (leavesOf s)) = leavesOf s := by
    apply List.ext_getElem
    · simp [tree.grown.count]
    · intro i first last
      simp only [List.getElem_map, List.getElem_range]
      exact pad_inside 0 _ i last
  have filled : fill (readLeaves s.logs) (treeOf d.hash2 depth []) (List.range s.nextIndex) =
      some (treeOf d.hash2 depth (leavesOf s)) := by
    rw [fill_eq (fun i member => lookup_readLeaves tree (List.mem_range.mp member))
      (by simpa [tree.grown.count] using bound), all, List.nil_append]
  have root : (treeOf d.hash2 depth (leavesOf s)).root d.hash2 = s.currentRoot := by
    rw [root_treeOf bound, roots.root]
  rw [seededTree, size]
  change (fill (readLeaves s.logs) (treeOf d.hash2 depth []) (List.range s.nextIndex) >>= _) = _
  rw [filled, Option.bind_eq_bind, Option.bind_some, if_pos root]

/-- The events carry the indices below `nextIndex` in order; the tree rebuilt from them has the
pool's current root, its prefixes have the published ones, and every leaf climbs to it. -/
theorem indexer_rebuilds_tree {d : Deployment} (table : ZerosTable d) {s : State} (reachable : Reachable d s) :
    (appended s).map Prod.snd = List.range s.nextIndex ∧ s.nextIndex ≤ 2 ^ depth ∧
      ∃ tree : Tree, seededTree d.hash2 depth s.logs s.currentRoot = some tree ∧
        tree.leaves = (appended s).map Prod.fst ∧ tree.root d.hash2 = s.currentRoot ∧
        (∃ sizes : List Nat, sizes.Pairwise (· ≤ ·) ∧ (∀ n ∈ sizes, n ≤ tree.leaves.length) ∧
          s.published = sizes.map fun n => { tree with leaves := tree.leaves.take n }.root d.hash2) ∧
        ∀ i (inside : i < tree.leaves.length),
          climb d.hash2 tree.leaves[i] (tree.authPath d.hash2 i) = tree.root d.hash2 := by
  have tree := treeOk_of_reachable reachable
  have roots := rootsOk_of_reachable reachable table
  have bound : (leavesOf s).length ≤ 2 ^ depth := tree.grown.bound
  refine ⟨tree.numbered, tree.grown.count ▸ bound, treeOf d.hash2 depth (leavesOf s), seededTree_eq tree roots, rfl, ?_, ?_, ?_⟩
  · rw [root_treeOf bound, roots.root]
  · obtain ⟨sizes, sorted, inside, published⟩ := roots.published
    refine ⟨sizes, sorted, inside, published.trans (List.map_congr_left fun n member => ?_)⟩
    exact (root_treeOf (by rw [List.length_take]; omega)).symm
  · intro i inside
    exact climb_authPath_treeOf bound inside

/-- Rebuilt after the withdrawal and its payout: its leaves climb to the current root. -/
theorem indexer_rebuilds_tree_twoSpends :
    ∃ history last tree, Run (dispatcherNetwork TwoSpends.deployment Hegota.image Hegota.outside) TwoSpends.start history last ∧
      history.map Entry.shown = TwoSpends.shown ∧
      seededTree Wallet.TwoSpends.poseidon.p2 depth last.chain.pool.logs last.chain.pool.currentRoot = some tree ∧
      tree.leaves = [Wallet.TwoSpends.leaf.getD 0 0, Wallet.TwoSpends.change, Wallet.TwoSpends.leaf.getD 1 0] ∧
      ∀ i (inside : i < tree.leaves.length),
        climb Wallet.TwoSpends.poseidon.p2 tree.leaves[i] (tree.authPath Wallet.TwoSpends.poseidon.p2 i) = last.chain.pool.currentRoot := by
  obtain ⟨history, last, run, paid, shown⟩ := TwoSpends.paid
  obtain ⟨-, -, tree, seeded, leaves, rooted, -, climbs⟩ := indexer_rebuilds_tree TwoSpends.table (reachable_of_run run)
  exact ⟨history, last, tree, run, shown, seeded, leaves.trans paid.leaves, fun i inside => (climbs i inside).trans rooted⟩

end ShieldedPool.Proofs
