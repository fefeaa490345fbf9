import Mathlib.Data.Nat.Init
import Mathlib.Data.Nat.Bits
import Mathlib.Data.List.Basic
import Mathlib.Data.Set.Basic
import Mathlib.Tactic.Ring

/-! Complete binary trees over an infinite row of leaves. A node is named by its level,
counted from the leaves, and its position in that level; a finite list of leaves is a
row that is zero from some position on. -/

namespace Merkle
variable {α : Type} (hash : α → α → α)

def node (f : Nat → α) : Nat → Nat → α
  | 0, i => f i
  | l + 1, i => hash (node f l (2 * i)) (node f l (2 * i + 1))

/-- The root of an all-zero subtree. -/
def zeroNode (zero : α) : Nat → α
  | 0 => zero
  | l + 1 => hash (zeroNode zero l) (zeroNode zero l)

def pad (zero : α) (leaves : List α) : Nat → α := fun i => leaves.getD i zero

def root (zero : α) (depth : Nat) (leaves : List α) : α := node hash (pad zero leaves) depth 0

variable {hash}

theorem node_congr {f g : Nat → α} {l i : Nat} (same : ∀ j, 2 ^ l * i ≤ j → j < 2 ^ l * (i + 1) → f j = g j) :
    node hash f l i = node hash g l i := by
  induction l generalizing i with
  | zero => exact same i (by simp) (by simp)
  | succ l ih =>
    have double : 2 ^ (l + 1) * i = 2 ^ l * (2 * i) := by ring
    have next : 2 ^ (l + 1) * (i + 1) = 2 ^ l * (2 * i + 1 + 1) := by ring
    have middle : 2 ^ l * (2 * i + 1) = 2 ^ l * (2 * i) + 2 ^ l := by ring
    have last : 2 ^ l * (2 * i + 1 + 1) = 2 ^ l * (2 * i) + 2 ^ l + 2 ^ l := by ring
    rw [double, next] at same
    rw [node, node, ih fun j low high => same j low (by omega), ih fun j low high => same j (by omega) high]

/-- An empty tree over empty pairs. -/
theorem zeroNode_pair (zero : α) (l : Nat) : zeroNode hash (hash zero zero) l = zeroNode hash zero (l + 1) := by
  induction l with
  | zero => rfl
  | succ l ih =>
    rw [zeroNode, ih]
    rfl

/-- A subtree beyond the last leaf. -/
theorem node_eq_zeroNode {f : Nat → α} {zero : α} {n l i : Nat} (blank : ∀ j, n ≤ j → f j = zero) (beyond : n ≤ 2 ^ l * i) :
    node hash f l i = zeroNode hash zero l := by
  induction l generalizing i with
  | zero => exact blank i (by simpa using beyond)
  | succ l ih =>
    have double : 2 ^ (l + 1) * i = 2 ^ l * (2 * i) := by ring
    rw [double] at beyond
    have wider : 2 ^ l * (2 * i) ≤ 2 ^ l * (2 * i + 1) := Nat.mul_le_mul_left _ (Nat.le_succ _)
    rw [node, zeroNode, ih beyond, ih (beyond.trans wider)]

/-- Levels stack: the tree over the nodes of one level continues the tree below it. -/
theorem node_add (f : Nat → α) (below above i : Nat) :
    node hash f (below + above) i = node hash (fun j => node hash f below j) above i := by
  induction above generalizing i with
  | zero => rfl
  | succ above ih => rw [← Nat.add_assoc, node, node, ih, ih]

theorem pad_beyond (zero : α) (leaves : List α) (j : Nat) (beyond : leaves.length ≤ j) : pad zero leaves j = zero := by
  simp [pad, List.getD_eq_getElem?_getD, beyond]

theorem pad_inside (zero : α) (leaves : List α) (j : Nat) (inside : j < leaves.length) :
    pad zero leaves j = leaves[j] := by
  simp [pad, List.getD_eq_getElem?_getD, inside]

theorem root_nil (zero : α) (depth : Nat) : root hash zero depth [] = zeroNode hash zero depth :=
  node_eq_zeroNode (n := 0) (fun j _ => pad_beyond zero [] j (by simp)) (by simp)

/-- Fold a leaf upward. A step carries the side the node is on (`true` for the right one)
and its sibling. -/
def climb (hash : α → α → α) (x : α) : List (Bool × α) → α
  | [] => x
  | (right, sibling) :: rest => climb hash (if right then hash sibling x else hash x sibling) rest

/-- The position a path spells, least significant bit first. -/
def position : List (Bool × α) → Nat
  | [] => 0
  | (right, _) :: rest => 2 * position rest + right.toNat

/-- The steps from level `l` on, `count` of them, for the node at position `i` there. -/
def authPath (hash : α → α → α) (f : Nat → α) : Nat → Nat → Nat → List (Bool × α)
  | 0, _, _ => []
  | count + 1, l, i =>
    (i % 2 = 1, node hash f l (if i % 2 = 1 then i - 1 else i + 1)) :: authPath hash f count (l + 1) (i / 2)

@[simp] theorem length_authPath (f : Nat → α) (count l i : Nat) : (authPath hash f count l i).length = count := by
  induction count generalizing l i with
  | zero => rfl
  | succ count ih => simp [authPath, ih]

variable (hash) in
/-- Climbing an authentication path arrives at the ancestor. -/
theorem climb_authPath (f : Nat → α) (count l i : Nat) :
    climb hash (node hash f l i) (authPath hash f count l i) = node hash f (l + count) (i / 2 ^ count) := by
  induction count generalizing l i with
  | zero => simp [authPath, climb]
  | succ count ih =>
    have parent : (if i % 2 = 1 then hash (node hash f l (i - 1)) (node hash f l i)
        else hash (node hash f l i) (node hash f l (i + 1))) = node hash f (l + 1) (i / 2) := by
      rw [node]
      by_cases odd : i % 2 = 1
      · rw [if_pos odd, show 2 * (i / 2) = i - 1 by omega, show i - 1 + 1 = i by omega]
      · rw [if_neg odd, show 2 * (i / 2) = i by omega]
    have step : climb hash (node hash f l i) (authPath hash f (count + 1) l i) =
        climb hash (node hash f (l + 1) (i / 2)) (authPath hash f count (l + 1) (i / 2)) := by
      rw [← parent]
      by_cases odd : i % 2 = 1 <;> simp [authPath, climb, odd]
    rw [step, ih, Nat.div_div_eq_div_mul, ← Nat.pow_succ', Nat.add_right_comm, Nat.add_assoc]

/-- A climb carried over to another hash. -/
theorem climb_map {β : Type} {hash' : β → β → β} {g : α → β} (hom : ∀ a b, g (hash a b) = hash' (g a) (g b)) (x : α)
    (path : List (Bool × α)) : climb hash' (g x) (path.map fun step => (step.1, g step.2)) = g (climb hash x path) := by
  induction path generalizing x with
  | nil => rfl
  | cons step rest ih =>
    obtain ⟨right, sibling⟩ := step
    rw [List.map_cons, climb, climb, ← ih]
    cases right with
    | false => exact congrArg (climb hash' · _) (hom x sibling).symm
    | true => exact congrArg (climb hash' · _) (hom sibling x).symm

theorem node_map {β : Type} {hash' : β → β → β} {g : α → β} (hom : ∀ a b, g (hash a b) = hash' (g a) (g b)) (f : Nat → α) (l i : Nat) :
    node hash' (fun j => g (f j)) l i = g (node hash f l i) := by
  induction l generalizing i with
  | zero => rfl
  | succ l ih => rw [node, node, ih, ih, hom]

theorem root_map {β : Type} {hash' : β → β → β} {g : α → β} (hom : ∀ a b, g (hash a b) = hash' (g a) (g b)) (zero : α) (depth : Nat)
    (leaves : List α) : root hash' (g zero) depth (leaves.map g) = g (root hash zero depth leaves) := by
  have same : pad (g zero) (leaves.map g) = fun j => g (pad zero leaves j) := by
    funext j
    simp [pad, List.getD_eq_getElem?_getD]
  rw [root, same, node_map hom, root]

/-- No two different pairs of `S` have the same hash. -/
def CollisionFree (hash : α → α → α) (S : Set (α × α)) : Prop :=
  ∀ p ∈ S, ∀ q ∈ S, hash p.1 p.2 = hash q.1 q.2 → p = q

theorem CollisionFree.mono {S T : Set (α × α)} (free : CollisionFree hash T) (inside : S ⊆ T) : CollisionFree hash S :=
  fun p first q second => free p (inside first) q (inside second)

/-- The pairs hashed to build the subtree under a node. -/
def treePairs (hash : α → α → α) (f : Nat → α) : Nat → Nat → Set (α × α)
  | 0, _ => ∅
  | l + 1, i => insert (node hash f l (2 * i), node hash f l (2 * i + 1)) (treePairs hash f l (2 * i) ∪ treePairs hash f l (2 * i + 1))

/-- The pairs hashed on a climb. -/
def climbPairs (hash : α → α → α) (x : α) : List (Bool × α) → Set (α × α)
  | [] => ∅
  | (right, sibling) :: rest =>
    insert (if right then (sibling, x) else (x, sibling))
      (climbPairs hash (if right then hash sibling x else hash x sibling) rest)

theorem position_lt (path : List (Bool × α)) : position path < 2 ^ path.length := by
  induction path with
  | nil => exact Nat.one_pos
  | cons step rest ih =>
    have bit : step.1.toNat ≤ 1 := Bool.toNat_le step.1
    rw [position, List.length_cons, Nat.pow_succ]
    omega

/-- The subtree over the pairs of leaves. -/
theorem treePairs_level (f : Nat → α) (l i : Nat) :
    treePairs hash (fun j => node hash f 1 j) l i ⊆ treePairs hash f (l + 1) i := by
  induction l generalizing i with
  | zero => exact Set.empty_subset _
  | succ l ih =>
    rw [treePairs, treePairs, ← node_add, ← node_add, Nat.add_comm 1 l]
    exact Set.insert_subset_insert (Set.union_subset_union (ih _) (ih _))

theorem leaves_mem_treePairs (f : Nat → α) {l i j : Nat} (low : 2 ^ l * i ≤ j) (high : j < 2 ^ l * (i + 1)) :
    (f (2 * j), f (2 * j + 1)) ∈ treePairs hash f (l + 1) i := by
  induction l generalizing i with
  | zero =>
    obtain rfl : j = i := by omega
    exact Set.mem_insert _ _
  | succ l ih =>
    have double : 2 ^ (l + 1) * i = 2 ^ l * (2 * i) := by ring
    have next : 2 ^ (l + 1) * (i + 1) = 2 ^ l * (2 * i + 1 + 1) := by ring
    refine Set.mem_insert_of_mem _ ?_
    by_cases left : j < 2 ^ l * (2 * i + 1)
    · exact .inl (ih (double ▸ low) left)
    · exact .inr (ih (Nat.not_lt.mp left) (next ▸ high))

/-- A pair of the subtree is a pair of leaves or is hashed above them. -/
theorem treePairs_succ (f : Nat → α) (l i : Nat) :
    treePairs hash f (l + 1) i ⊆ Set.range (fun j => (f (2 * j), f (2 * j + 1))) ∪ treePairs hash (fun j => node hash f 1 j) l i := by
  have level (l i : Nat) : node hash f (l + 1) i = node hash (fun j => node hash f 1 j) l i := by
    rw [Nat.add_comm, node_add]
  induction l generalizing i with
  | zero =>
    rintro p (rfl | below)
    · exact .inl ⟨i, rfl⟩
    · exact below.elim False.elim False.elim
  | succ l ih =>
    rintro p (rfl | left | right)
    · rw [level, level]
      exact .inr (Set.mem_insert _ _)
    · exact (ih _ left).imp_right fun above => Set.mem_insert_of_mem _ (.inl above)
    · exact (ih _ right).imp_right fun above => Set.mem_insert_of_mem _ (.inr above)

/-- A row of leaves, two by two. -/
def pairUp (blank : α) : List α → List (α × α)
  | [] => []
  | [a] => [(a, blank)]
  | a :: b :: rest => (a, b) :: pairUp blank rest

theorem pad_pairUp (blank : α) (row : List α) (j : Nat) :
    pad (blank, blank) (pairUp blank row) j = (pad blank row (2 * j), pad blank row (2 * j + 1)) := by
  induction row using pairUp.induct generalizing j with
  | case1 => simp [pairUp, pad]
  | case2 a => cases j <;> simp [pairUp, pad, Nat.mul_succ]
  | case3 a b rest ih =>
    cases j with
    | zero => rfl
    | succ j => exact ih j

theorem node_one_pad (blank : α) (row : List α) :
    (fun j => node hash (pad blank row) 1 j) = pad (hash blank blank) ((pairUp blank row).map fun p => hash p.1 p.2) := by
  funext j
  have pair := pad_pairUp blank row j
  rw [pad, List.getD_eq_getElem?_getD] at pair
  rw [pad, List.getD_eq_getElem?_getD, List.getElem?_map]
  refine Eq.trans ?_ (Option.getD_map (fun p : α × α => hash p.1 p.2) (blank, blank) _).symm
  rw [pair]
  rfl

/-- Every pair hashed to build the tree over a row of leaves passes a test. -/
def treeAll (test : α × α → Bool) (hash : α → α → α) : Nat → α → List α → Bool
  | 0, _, _ => true
  | l + 1, blank, row =>
    test (blank, blank) && (pairUp blank row).all test &&
      treeAll test hash l (hash blank blank) ((pairUp blank row).map fun p => hash p.1 p.2)

/-- Every pair hashed on a climb passes a test. -/
def climbAll (test : α × α → Bool) (hash : α → α → α) (x : α) : List (Bool × α) → Bool
  | [] => true
  | (right, sibling) :: rest =>
    test (if right then (sibling, x) else (x, sibling)) &&
      climbAll test hash (if right then hash sibling x else hash x sibling) rest

theorem test_of_treeAll {test : α × α → Bool} {l i : Nat} {blank : α} {row : List α} (all : treeAll test hash l blank row = true) :
    ∀ p ∈ treePairs hash (pad blank row) l i, test p = true := by
  induction l generalizing blank row with
  | zero => exact fun p member => member.elim
  | succ l ih =>
    simp only [treeAll, Bool.and_eq_true, List.all_eq_true] at all
    intro p member
    rcases treePairs_succ _ l i member with ⟨j, rfl⟩ | above
    · change test (pad blank row (2 * j), pad blank row (2 * j + 1)) = true
      rw [← pad_pairUp]
      by_cases inside : j < (pairUp blank row).length
      · rw [pad_inside _ _ _ inside]
        exact all.1.2 _ (List.getElem_mem inside)
      · rw [pad_beyond _ _ _ (Nat.le_of_not_lt inside)]
        exact all.1.1
    · rw [node_one_pad] at above
      exact ih all.2 p above

theorem test_of_climbAll {test : α × α → Bool} {x : α} {path : List (Bool × α)} (all : climbAll test hash x path = true) :
    ∀ p ∈ climbPairs hash x path, test p = true := by
  induction path generalizing x with
  | nil => exact fun p member => member.elim
  | cons step rest ih =>
    obtain ⟨right, sibling⟩ := step
    rw [climbAll, Bool.and_eq_true] at all
    rintro p (rfl | above)
    · exact all.1
    · exact ih all.2 p above

/-- A path that climbs to a node of the tree starts at the leaf it spells. -/
theorem leaf_of_climb {f : Nat → α} {x : α} {path : List (Bool × α)} {k : Nat}
    (free : CollisionFree hash (climbPairs hash x path ∪ treePairs hash f path.length k))
    (reaches : climb hash x path = node hash f path.length k) :
    x = f (2 ^ path.length * k + position path) := by
  induction path generalizing x f with
  | nil => simpa [climb, node, position] using reaches
  | cons step rest ih =>
    obtain ⟨right, sibling⟩ := step
    have above : node hash f (rest.length + 1) k = node hash (fun j => node hash f 1 j) rest.length k := by
      rw [Nat.add_comm, node_add]
    have parent := ih (free.mono (Set.union_subset_union (Set.subset_insert _ _) (treePairs_level f rest.length k)))
      (by rw [← above]; exact reaches)
    let j := 2 ^ rest.length * k + position rest
    change (if right then hash sibling x else hash x sibling) = node hash f 1 j at parent
    have inside : j < 2 ^ rest.length * (k + 1) := by
      rw [Nat.mul_succ]
      exact Nat.add_lt_add_left (position_lt rest) _
    have inTree : (f (2 * j), f (2 * j + 1)) ∈ treePairs hash f (rest.length + 1) k :=
      leaves_mem_treePairs f (Nat.le_add_right _ _) inside
    have index : 2 ^ (rest.length + 1) * k + (2 * position rest + right.toNat) = 2 * j + right.toNat := by
      simp only [j]; ring
    rw [List.length_cons, position, index]
    cases right with
    | false =>
      have same := free (x, sibling) (Or.inl (Set.mem_insert _ _)) _ (Or.inr inTree) parent
      exact (Prod.ext_iff.mp same).1
    | true =>
      have same := free (sibling, x) (Or.inl (Set.mem_insert _ _)) _ (Or.inr inTree) parent
      exact (Prod.ext_iff.mp same).2

end Merkle
