import ShieldedPool.Pool
import ShieldedPool.Proofs.Effects

/-! The tree on chain. Every reachable state holds the frontier of the leaves its events
have announced, in their order, and has published roots of prefixes of them only. -/

namespace ShieldedPool.Proofs
open Evm Merkle

/-- The commitment and index a LeafAppended event carries. -/
def leafOf : Event → Option (Word × Nat)
  | .leafAppended cm index _ _ => some (cm, index)
  | _ => none

def appended (s : State) : List (Word × Nat) := s.logs.filterMap leafOf

/-- The commitments announced so far. -/
def leavesOf (s : State) : List Word := (appended s).map Prod.fst

variable (d : Deployment)

/-- The table of empty subtree roots is the one the hash gives. -/
def ZerosTable : Prop := ∀ l, l < depth → zeros (l + 1) = d.hash2 (zeros l) (zeros l)

theorem hegota_zerosTable : ZerosTable Hegota.deployment := by
  have table : ∀ l, l < depth → zeros (l + 1) = Hegota.deployment.hash2 (zeros l) (zeros l) := by decide +kernel
  exact table

theorem zeros_eq {d : Deployment} (table : ZerosTable d) {l : Nat} (inside : l ≤ depth) :
    zeros l = zeroNode d.hash2 0 l := by
  induction l with
  | zero => rfl
  | succ l ih => rw [table l inside, ih (by omega), zeroNode]

/-- The tree part of a state whose leaves are `leaves`. -/
structure Grown (s : State) (leaves : List Word) : Prop where
  count : s.nextIndex = leaves.length
  bound : leaves.length ≤ 2 ^ depth
  member : ∀ cm, s.isLeaf cm = true ↔ cm ∈ leaves
  distinct : leaves.Nodup
  frontier : Frontier.Holds d.hash2 (pad 0 leaves) s.filledSubtrees s.nextIndex

variable {d} {s : State} {leaves : List Word}

theorem Grown.inserted (grown : Grown d s leaves) {cm : Word} (fresh : ¬ s.isLeaf cm = true)
    (room : s.nextIndex < 2 ^ depth) : Grown d (inserted d s cm) (leaves ++ [cm]) where
  count := by
    change s.nextIndex + 1 = _
    rw [grown.count, List.length_append, List.length_singleton]
  bound := by
    rw [grown.count] at room
    rw [List.length_append, List.length_singleton]
    exact room
  member := by
    intro other
    change Function.update s.isLeaf cm true other = true ↔ _
    rw [List.mem_append, List.mem_singleton, ← grown.member]
    by_cases same : other = cm
    · simp [same]
    · simp [same]
  distinct := by
    rw [List.nodup_append]
    refine ⟨grown.distinct, List.nodup_singleton cm, fun a known b single => ?_⟩
    rw [List.mem_singleton] at single
    rintro rfl
    exact fresh ((grown.member cm).mpr (single ▸ known))
  frontier := by
    have placed : pad 0 (leaves ++ [cm]) s.nextIndex = cm := by
      rw [grown.count, pad_inside 0 _ _ (by simp)]
      simp
    have before : Frontier.Holds d.hash2 (pad 0 (leaves ++ [cm])) s.filledSubtrees s.nextIndex := by
      apply grown.frontier.congr
      intro j inside
      rw [grown.count] at inside
      rw [pad_inside 0 _ _ inside, pad_inside 0 _ _ (by rw [List.length_append]; omega), List.getElem_append_left inside]
    have enough : s.nextIndex < 2 ^ 32 := lt_trans room (by decide)
    exact before.push placed enough

/-- What a commitment adds to the leaves. -/
def addition (s : State) (cm : Word) : List Word := if s.isLeaf cm = true then [] else [cm]

theorem Grown.added (grown : Grown d s leaves) {cm : Word} (room : ¬ s.isLeaf cm = true → s.nextIndex < 2 ^ depth) :
    Grown d (added d s cm) (leaves ++ addition s cm) := by
  rw [Proofs.added, addition]
  by_cases known : s.isLeaf cm = true
  · rw [if_pos known, if_pos known, List.append_nil]
    exact grown
  · rw [if_neg known, if_neg known]
    exact grown.inserted known (room known)

/-- The recomputed root is the root of the whole zero-padded tree. -/
theorem Grown.rootOf (grown : Grown d s leaves) (table : ZerosTable d) : rootOf d s = root d.hash2 0 depth leaves := by
  rw [Proofs.rootOf, root]
  have bound := grown.bound
  by_cases full : s.nextIndex = 2 ^ depth
  · have frontier := grown.frontier
    rw [full] at frontier
    rw [if_pos full, Frontier.full_root frontier]
  · have count := grown.count
    rw [if_neg full, Frontier.fold_root grown.frontier _ (by omega) fun j inside => zeros_eq table (by omega)]
    intro j beyond
    exact pad_beyond 0 leaves j (by omega)

variable (d) in
/-- A published root and the number of leaves it was the root of. -/
def PublishedAs (leaves : List Word) (published : List Word) : Prop :=
  ∃ sizes : List Nat, sizes.Pairwise (· ≤ ·) ∧ (∀ n ∈ sizes, n ≤ leaves.length) ∧
    published = sizes.map fun n => root d.hash2 0 depth (leaves.take n)

theorem PublishedAs.grow {published more : List Word} (old : PublishedAs d leaves published) :
    PublishedAs d (leaves ++ more) published := by
  obtain ⟨sizes, sorted, inside, rfl⟩ := old
  refine ⟨sizes, sorted, fun n member => (inside n member).trans (by simp), ?_⟩
  apply List.map_congr_left
  intro n member
  rw [List.take_append_of_le_length (inside n member)]

theorem PublishedAs.publish {published : List Word} (old : PublishedAs d leaves published) :
    PublishedAs d leaves (published ++ [root d.hash2 0 depth leaves]) := by
  obtain ⟨sizes, sorted, inside, rfl⟩ := old
  refine ⟨sizes ++ [leaves.length], ?_, ?_, ?_⟩
  · rw [List.pairwise_append]
    refine ⟨sorted, List.pairwise_singleton _ _, fun n member last single => ?_⟩
    rw [List.mem_singleton] at single
    exact single ▸ inside n member
  · intro n member
    rcases List.mem_append.mp member with old | last
    · exact inside n old
    · rw [List.mem_singleton] at last
      exact last.le
  · rw [List.map_append, List.map_singleton, List.take_length]

variable (d) in
/-- What every reachable state satisfies: the tree is that of the announced leaves. -/
structure TreeOk (s : State) : Prop where
  grown : Grown d s (leavesOf s)
  numbered : (appended s).map Prod.snd = List.range s.nextIndex

variable (d) in
/-- The current root and every published one belong to the announced leaves. -/
structure RootsOk (s : State) : Prop where
  root : s.currentRoot = root d.hash2 0 depth (leavesOf s)
  published : PublishedAs d (leavesOf s) s.published

variable {t : State}

theorem Grown.frame (grown : Grown d s leaves) (filled : t.filledSubtrees = s.filledSubtrees)
    (index : t.nextIndex = s.nextIndex) (leaf : t.isLeaf = s.isLeaf) : Grown d t leaves where
  count := by rw [index, grown.count]
  bound := grown.bound
  member := by rw [leaf]; exact grown.member
  distinct := grown.distinct
  frontier := by rw [filled, index]; exact grown.frontier

theorem leavesOf_frame (logs : appended t = appended s) : leavesOf t = leavesOf s := by
  rw [leavesOf, logs, leavesOf]

theorem TreeOk.frame (ok : TreeOk d s) (filled : t.filledSubtrees = s.filledSubtrees) (index : t.nextIndex = s.nextIndex)
    (leaf : t.isLeaf = s.isLeaf) (logs : appended t = appended s) : TreeOk d t where
  grown := by rw [leavesOf_frame logs]; exact ok.grown.frame filled index leaf
  numbered := by rw [logs, index, ok.numbered]

theorem RootsOk.frame (ok : RootsOk d s) (current : t.currentRoot = s.currentRoot) (published : t.published = s.published)
    (logs : appended t = appended s) : RootsOk d t where
  root := by rw [current, leavesOf_frame logs, ok.root]
  published := by rw [published, leavesOf_frame logs]; exact ok.published

theorem appended_emit (s : State) (e : Event) : appended (s.emit e) = appended s ++ (leafOf e).toList := by
  rw [appended, State.emit, List.filterMap_append]
  cases leaf : leafOf e <;> simp [appended, leaf]

theorem appended_silent {e : Event} (silent : leafOf e = none) : appended (s.emit e) = appended s := by
  rw [appended_emit, silent]
  exact List.append_nil _

theorem appended_deposited (c : Call) (s : State) (cm : Word) :
    appended (deposited d c s cm) = appended s ++ [(cm, s.nextIndex)] := by
  rw [deposited, appended_emit]
  rfl

theorem leavesOf_deposited (c : Call) (s : State) (cm : Word) :
    leavesOf (deposited d c s cm) = leavesOf s ++ [cm] := by
  rw [leavesOf, appended_deposited, List.map_append, ← leavesOf]
  rfl

theorem TreeOk.deposited (ok : TreeOk d s) (c : Call) {cm : Word} (fresh : ¬ s.isLeaf cm = true)
    (room : s.nextIndex < 2 ^ depth) : TreeOk d (deposited d c s cm) where
  grown := by
    rw [leavesOf_deposited]
    exact (ok.grown.inserted fresh room).frame rfl rfl rfl
  numbered := by
    rw [appended_deposited, List.map_append, ok.numbered]
    exact List.range_succ.symm

theorem RootsOk.deposited (ok : RootsOk d s) (tree : TreeOk d s) (table : ZerosTable d) (c : Call) {cm : Word}
    (fresh : ¬ s.isLeaf cm = true) (room : s.nextIndex < 2 ^ depth) : RootsOk d (deposited d c s cm) where
  root := by
    rw [leavesOf_deposited]
    exact (tree.grown.inserted fresh room).rootOf table
  published := by
    rw [leavesOf_deposited]
    exact ok.published.grow

theorem RootsOk.publish (ok : RootsOk d s) : RootsOk d (s.publish s.currentRoot) where
  root := ok.root
  published := by
    change PublishedAs d (leavesOf s) (s.published ++ [s.currentRoot])
    rw [ok.root]
    exact ok.published.publish

theorem filterMap_leafEvents (c : Call) (s : State) (cm root : Word) :
    (leafEvents c s cm root).filterMap leafOf = (addition s cm).map fun cm => (cm, s.nextIndex) := by
  rw [leafEvents, addition]
  split_ifs <;> rfl

theorem logs_added (s : State) (cm : Word) : (added d s cm).logs = s.logs := by
  rw [added]
  split_ifs <;> rfl

theorem addition_of_known {cm : Word} (known : s.isLeaf cm = true) : addition s cm = [] := if_pos known

theorem appended_grown (c : Call) (s : State) (cm1 cm2 : Word) :
    appended (grown d c s cm1 cm2) = appended s ++ (addition s cm1).map (fun cm => (cm, s.nextIndex)) ++
      (addition (added d s cm1) cm2).map fun cm => (cm, (added d s cm1).nextIndex) := by
  have logs : (added d (added d s cm1) cm2).logs = s.logs := (logs_added _ _).trans (logs_added _ _)
  simp only [grown]
  by_cases both : s.isLeaf cm1 = true ∧ (added d s cm1).isLeaf cm2 = true
  · rw [if_pos both, addition_of_known both.1, addition_of_known both.2, appended, logs]
    simp [appended]
  · rw [if_neg both, appended]
    simp only [List.filterMap_append, filterMap_leafEvents, logs]
    rfl

theorem leavesOf_grown (c : Call) (s : State) (cm1 cm2 : Word) :
    leavesOf (grown d c s cm1 cm2) = leavesOf s ++ addition s cm1 ++ addition (added d s cm1) cm2 := by
  simp [leavesOf, appended_grown, Function.comp_def]

theorem range_addition (s : State) (cm : Word) :
    List.range s.nextIndex ++ (addition s cm).map (fun _ => s.nextIndex) = List.range (added d s cm).nextIndex := by
  rw [nextIndex_added, addition]
  by_cases known : s.isLeaf cm = true
  · rw [if_pos known, if_pos known]
    exact List.append_nil _
  · rw [if_neg known, if_neg known]
    exact List.range_succ.symm

/-- Neither insertion runs out of room. -/
theorem room_of_fits {cm1 cm2 : Word} (room : ¬ Overflows s {cm1, cm2}) :
    (¬ s.isLeaf cm1 = true → s.nextIndex < 2 ^ depth) ∧
      (¬ (added d s cm1).isLeaf cm2 = true → (added d s cm1).nextIndex < 2 ^ depth) := by
  rw [overflows_iff d, not_or] at room
  exact ⟨fun fresh => Nat.not_le.mp fun full => room.1 ⟨fresh, full⟩,
    fun fresh => Nat.not_le.mp fun full => room.2 ⟨fresh, full⟩⟩

theorem grown_fields (c : Call) (s : State) (cm1 cm2 : Word) :
    (grown d c s cm1 cm2).filledSubtrees = (added d (added d s cm1) cm2).filledSubtrees ∧
      (grown d c s cm1 cm2).nextIndex = (added d (added d s cm1) cm2).nextIndex ∧
      (grown d c s cm1 cm2).isLeaf = (added d (added d s cm1) cm2).isLeaf ∧
      (grown d c s cm1 cm2).published = s.published := by
  have published (s : State) (cm : Word) : (added d s cm).published = s.published := by
    rw [added]
    split_ifs <;> rfl
  have kept : (added d (added d s cm1) cm2).published = s.published := (published _ _).trans (published _ _)
  simp only [grown]
  split_ifs
  · exact ⟨rfl, rfl, rfl, kept⟩
  · exact ⟨rfl, rfl, rfl, kept⟩

theorem TreeOk.grow (ok : TreeOk d s) (c : Call) {cm1 cm2 : Word} (room : ¬ Overflows s {cm1, cm2}) :
    TreeOk d (Proofs.grown d c s cm1 cm2) := by
  obtain ⟨first, second⟩ := room_of_fits (d := d) room
  obtain ⟨filled, index, leaf, -⟩ := grown_fields (d := d) c s cm1 cm2
  constructor
  · rw [leavesOf_grown]
    exact ((ok.grown.added first).added second).frame filled index leaf
  · rw [appended_grown, index, ← range_addition, ← range_addition, ← ok.numbered]
    simp [Function.comp_def]

theorem RootsOk.grow (ok : RootsOk d s) (tree : TreeOk d s) (table : ZerosTable d) (c : Call) {cm1 cm2 : Word}
    (room : ¬ Overflows s {cm1, cm2}) : RootsOk d (Proofs.grown d c s cm1 cm2) := by
  obtain ⟨first, second⟩ := room_of_fits (d := d) room
  obtain ⟨-, -, -, published⟩ := grown_fields (d := d) c s cm1 cm2
  constructor
  · rw [leavesOf_grown, ← ((tree.grown.added first).added second).rootOf table, Proofs.grown]
    by_cases both : s.isLeaf cm1 = true ∧ (added d s cm1).isLeaf cm2 = true
    · have same : added d (added d s cm1) cm2 = s := by
        rw [added, if_pos both.2, added, if_pos both.1]
      simp only [if_pos both, same, tree.grown.rootOf table, ok.root]
    · simp only [if_neg both]
      rfl
  · rw [published, leavesOf_grown, List.append_assoc]
    exact ok.published.grow

theorem TreeOk.genesis : TreeOk d genesis where
  grown := ⟨rfl, by decide, fun cm => by simp [ShieldedPool.genesis, State.empty, leavesOf, appended], List.nodup_nil,
    Frontier.Holds.zero⟩
  numbered := rfl

theorem RootsOk.genesis (table : ZerosTable d) : RootsOk d genesis := by
  have empty : zeroRoot = Merkle.root d.hash2 0 depth [] := by
    rw [root_nil, ← zeros_eq table (le_refl depth)]
    rfl
  exact ⟨empty, ⟨[0], by simp, by simp, congrArg (fun r => [r]) empty⟩⟩

theorem appended_noted (s : State) (sp : Spend) : appended (noted s sp) = appended s := by
  rw [noted, appended_silent rfl, appended_silent rfl]

theorem appended_credited (s : State) (payer : Address) (fee : Word) : appended (credited d s payer fee) = appended s := by
  rw [credited]
  split_ifs
  · exact appended_silent rfl
  · rfl

theorem credited_fields (s : State) (payer : Address) (fee : Word) :
    (credited d s payer fee).filledSubtrees = s.filledSubtrees ∧ (credited d s payer fee).nextIndex = s.nextIndex ∧
      (credited d s payer fee).isLeaf = s.isLeaf ∧ (credited d s payer fee).currentRoot = s.currentRoot ∧
      (credited d s payer fee).published = s.published := by
  rw [credited]
  split_ifs <;> exact ⟨rfl, rfl, rfl, rfl, rfl⟩

theorem TreeOk.noted (ok : TreeOk d s) (sp : Spend) : TreeOk d (noted s sp) :=
  ok.frame rfl rfl rfl (appended_noted s sp)

theorem TreeOk.credited (ok : TreeOk d s) (payer : Address) (fee : Word) : TreeOk d (credited d s payer fee) :=
  have ⟨filled, index, leaf, _⟩ := credited_fields s payer fee
  ok.frame filled index leaf (appended_credited s payer fee)

theorem RootsOk.credited (ok : RootsOk d s) (payer : Address) (fee : Word) : RootsOk d (credited d s payer fee) :=
  have ⟨_, _, _, current, published⟩ := credited_fields s payer fee
  ok.frame current published (appended_credited s payer fee)

theorem TreeOk.afterSettle (ok : TreeOk d s) {c : Call} {sp : Spend} {payer : Address} (fits : Fits d c s sp payer) :
    TreeOk d (settled d c s sp payer) := by
  let t := Proofs.grown d c (Proofs.noted s sp) sp.outCm1 sp.outCm2
  have published : TreeOk d (t.publish t.currentRoot) := ((ok.noted sp).grow c fits.room).frame rfl rfl rfl rfl
  exact published.credited payer sp.fee

theorem RootsOk.afterSettle (ok : RootsOk d s) (tree : TreeOk d s) (table : ZerosTable d) {c : Call} {sp : Spend}
    {payer : Address} (fits : Fits d c s sp payer) : RootsOk d (settled d c s sp payer) :=
  have noted : RootsOk d (Proofs.noted s sp) := ok.frame rfl rfl (appended_noted s sp)
  ((noted.grow (tree.noted sp) table c fits.room).publish).credited payer sp.fee

theorem appended_withdrawn (c : Call) (s : State) (sp : Spend) (payer recipient : Address) :
    appended (withdrawn d c s sp payer recipient) = appended (settled d c s sp payer) := by
  exact appended_silent rfl

theorem TreeOk.effect (ok : TreeOk d s) {c : Call} {reply : Reply} (effect : Effect d c s reply t) : TreeOk d t := by
  cases effect with
  | shield _ _ _ _ fresh room => exact (ok.deposited c fresh room).frame rfl rfl rfl rfl
  | transfer _ _ _ _ _ _ fits => exact ok.afterSettle fits
  | withdraw _ _ _ _ _ _ fits _ => exact (ok.afterSettle fits).frame rfl rfl rfl (appended_withdrawn ..)
  | claimWithdrawal => exact ok.frame rfl rfl rfl (appended_silent rfl)
  | claimFee => exact ok.frame rfl rfl rfl (appended_silent rfl)
  | view => exact ok

theorem RootsOk.effect (ok : RootsOk d s) (tree : TreeOk d s) (table : ZerosTable d) {c : Call} {reply : Reply}
    (effect : Effect d c s reply t) : RootsOk d t := by
  cases effect with
  | shield _ _ _ _ fresh room => exact (ok.deposited tree table c fresh room).publish
  | transfer _ _ _ _ _ _ fits => exact ok.afterSettle tree table fits
  | withdraw _ _ _ _ _ _ fits _ => exact (ok.afterSettle tree table fits).frame rfl rfl (appended_withdrawn ..)
  | claimWithdrawal => exact ok.frame rfl rfl (appended_silent rfl)
  | claimFee => exact ok.frame rfl rfl (appended_silent rfl)
  | view => exact ok

theorem published_settled {c : Call} {root : Word} (published : root ∈ s.published) (sp : Spend)
    (payer : Address) : root ∈ (settled d c s sp payer).published := by
  obtain ⟨-, -, -, unchanged⟩ := grown_fields (d := d) c (noted s sp) sp.outCm1 sp.outCm2
  obtain ⟨-, -, -, -, same⟩ := credited_fields (d := d) ((grown d c (noted s sp) sp.outCm1 sp.outCm2).publish
    (grown d c (noted s sp) sp.outCm1 sp.outCm2).currentRoot) payer sp.fee
  rw [settled, same, State.publish, unchanged]
  exact List.mem_append_left _ published

/-- A published root stays published. -/
theorem published_of_effect {c : Call} {reply : Reply} {root : Word} (effect : Effect d c s reply t)
    (published : root ∈ s.published) : root ∈ t.published := by
  cases effect with
  | shield => exact List.mem_append_left _ published
  | transfer => exact published_settled published _ _
  | withdraw => exact published_settled published _ _
  | claimWithdrawal | claimFee | view => exact published

/-- A row of leaves with a commitment in it: one that is new comes last. -/
def extended (leaves : List Word) (cm : Word) : List Word := if cm ∈ leaves then leaves else leaves ++ [cm]

theorem Grown.extended (grown : Grown d s leaves) (cm : Word) : leaves ++ addition s cm = extended leaves cm := by
  rw [addition, Proofs.extended]
  by_cases known : s.isLeaf cm = true
  · rw [if_pos known, if_pos ((grown.member cm).mp known), List.append_nil]
  · rw [if_neg known, if_neg fun member => known ((grown.member cm).mpr member)]

/-- The leaves after a settlement. -/
theorem leavesOf_settled (ok : TreeOk d s) (c : Call) {sp : Spend} (payer : Address) (room : ¬ Overflows s {sp.outCm1, sp.outCm2}) :
    leavesOf (settled d c s sp payer) = extended (extended (leavesOf s) sp.outCm1) sp.outCm2 := by
  obtain ⟨first, -⟩ := room_of_fits (d := d) room
  have grown := ok.grown.frame (t := noted s sp) rfl rfl rfl
  rw [← grown.extended sp.outCm1, ← (grown.added first).extended sp.outCm2, settled, leavesOf_frame (appended_credited ..)]
  change leavesOf (Proofs.grown d c (noted s sp) sp.outCm1 sp.outCm2) = _
  rw [leavesOf_grown, leavesOf_frame (appended_noted s sp)]

/-- A call that succeeds keeps the leaves where they are. -/
theorem leaves_of_effect {c : Call} {reply : Reply} (effect : Effect d c s reply t) : leavesOf s <+: leavesOf t := by
  have settles (sp : Spend) (payer : Address) : leavesOf s <+: leavesOf (settled d c s sp payer) := by
    rw [settled, leavesOf_frame (appended_credited ..)]
    change _ <+: leavesOf (Proofs.grown d c (noted s sp) sp.outCm1 sp.outCm2)
    rw [leavesOf_grown, leavesOf_frame (appended_noted s sp), List.append_assoc]
    exact List.prefix_append _ _
  cases effect with
  | shield =>
    change _ <+: leavesOf (deposited d c s _)
    rw [leavesOf_deposited]
    exact List.prefix_append _ _
  | transfer => exact settles _ _
  | withdraw =>
    rw [leavesOf_frame (appended_withdrawn ..)]
    exact settles _ _
  | claimWithdrawal | claimFee =>
    refine ⟨[], (List.append_nil _).trans (leavesOf_frame ?_).symm⟩
    exact appended_silent rfl
  | view => exact List.prefix_rfl

theorem treeOk_of_reachable (reachable : Reachable d s) : TreeOk d s := by
  induction reachable with
  | deployed => exact .genesis
  | call _ returned ih => exact ih.effect (effect_of_call d _ returned)

theorem room_of_reachable (reachable : Reachable d s) : s.nextIndex ≤ 2 ^ depth := by
  have grown := (treeOk_of_reachable reachable).grown
  exact grown.count ▸ grown.bound

theorem rootsOk_of_reachable (reachable : Reachable d s) (table : ZerosTable d) : RootsOk d s := by
  induction reachable with
  | deployed => exact .genesis table
  | call earlier returned ih => exact ih.effect (treeOk_of_reachable earlier) table (effect_of_call d _ returned)

end ShieldedPool.Proofs
