import ShieldedPool.Proofs.Jobs
import ShieldedPool.Proofs.Witness

/-! Notes and their nullifier keys. An opening determines its commitment's secrets, so a note
has one key and a key one note, short of a collision among the hashes that two spends make. -/

namespace ShieldedPool

namespace Circuit

/-- Evaluations of Poseidon on two inputs and on three. -/
structure Queries where
  pairs : Set (Fr × Fr)
  triples : Set (Fr × Fr × Fr)

namespace Queries

def union (a b : Queries) : Queries := ⟨a.pairs ∪ b.pairs, a.triples ∪ b.triples⟩

/-- Two of the evaluations agree on different inputs. -/
def Collide (poseidon : Poseidon) (q : Queries) : Prop :=
  (∃ a ∈ q.pairs, ∃ b ∈ q.pairs, a ≠ b ∧ poseidon.two a.1 a.2 = poseidon.two b.1 b.2) ∨
    ∃ a ∈ q.triples, ∃ b ∈ q.triples, a ≠ b ∧ poseidon.three a.1 a.2.1 a.2.2 = poseidon.three b.1 b.2.1 b.2.2

/-- No two of them do. -/
structure Free (poseidon : Poseidon) (q : Queries) : Prop where
  pairs : ∀ a ∈ q.pairs, ∀ b ∈ q.pairs, poseidon.two a.1 a.2 = poseidon.two b.1 b.2 → a = b
  triples : ∀ a ∈ q.triples, ∀ b ∈ q.triples, poseidon.three a.1 a.2.1 a.2.2 = poseidon.three b.1 b.2.1 b.2.2 → a = b

theorem free_or_collide (poseidon : Poseidon) (q : Queries) : q.Free poseidon ∨ q.Collide poseidon := by
  by_cases pair : ∃ a ∈ q.pairs, ∃ b ∈ q.pairs, a ≠ b ∧ poseidon.two a.1 a.2 = poseidon.two b.1 b.2
  · exact .inr (.inl pair)
  by_cases triple : ∃ a ∈ q.triples, ∃ b ∈ q.triples, a ≠ b ∧ poseidon.three a.1 a.2.1 a.2.2 = poseidon.three b.1 b.2.1 b.2.2
  · exact .inr (.inr triple)
  refine .inl ⟨fun a first b second same => ?_, fun a first b second same => ?_⟩
  · exact by_contra fun other => pair ⟨a, first, b, second, other, same⟩
  · exact by_contra fun other => triple ⟨a, first, b, second, other, same⟩

structure Within (a b : Queries) : Prop where
  pairs : a.pairs ⊆ b.pairs
  triples : a.triples ⊆ b.triples

theorem Free.within {poseidon : Poseidon} {a b : Queries} (free : b.Free poseidon) (inside : a.Within b) : a.Free poseidon where
  pairs p first p' second := free.pairs p (inside.pairs first) p' (inside.pairs second)
  triples t first t' second := free.triples t (inside.triples first) t' (inside.triples second)

theorem Free.not_collide {poseidon : Poseidon} {q : Queries} (free : q.Free poseidon) : ¬ q.Collide poseidon := by
  rintro (⟨a, first, b, second, other, same⟩ | ⟨a, first, b, second, other, same⟩)
  · exact other (free.pairs a first b second same)
  · exact other (free.triples a first b second same)

end Queries

section
local instance two_atLeastTwo : Nat.AtLeastTwo 2 := inferInstance

local instance three_atLeastTwo : Nat.AtLeastTwo 3 := inferInstance

/-- What one input note evaluates besides its path. -/
def InputSignals.queries {depth : Nat} (n : InputSignals depth) : Queries where
  pairs := {(n.pk, n.rho), (n.domain, n.spendKey)}
  triples := {(1, n.spendKey, 0), (2, n.inner, n.value), (3, n.domainKey, n.leaf)}

/-- The evaluation that makes a commitment. -/
def opening (inner value : Fr) : Fr × Fr × Fr := (2, inner, value)

def Poseidon.commit (poseidon : Poseidon) (inner value : Fr) : Fr := poseidon.three 2 inner value

/-- All that an assignment evaluates: its notes with their paths, and its outputs. -/
def Signals.queries {depth : Nat} (poseidon : Poseidon) (s : Signals depth) : Queries where
  pairs := {p | ∃ k, p ∈ (s.note k).queries.pairs ∨ p ∈ Merkle.climbPairs poseidon.two (s.cm poseidon k) (s.path k)}
  triples := {t | ∃ k, t ∈ (s.note k).queries.triples ∨ t = opening (s.outInner k) (s.outValue k)}

/-- Every one of these passes a test. -/
def Signals.allQueries {depth : Nat} (poseidon : Poseidon) (s : Signals depth) (pair : Fr × Fr → Bool) (triple : Fr × Fr × Fr → Bool) : Bool :=
  (List.finRange 2).all fun k =>
    pair ((s.note k).pk, (s.note k).rho) && pair ((s.note k).domain, (s.note k).spendKey) &&
      Merkle.climbAll pair poseidon.two (s.cm poseidon k) (s.path k) &&
      triple (1, (s.note k).spendKey, 0) && triple (2, (s.note k).inner, (s.note k).value) && triple (3, (s.note k).domainKey, (s.note k).leaf) &&
      triple (opening (s.outInner k) (s.outValue k))

theorem Signals.test_of_allQueries {depth : Nat} {poseidon : Poseidon} {s : Signals depth} {pair : Fr × Fr → Bool} {triple : Fr × Fr × Fr → Bool}
    (all : s.allQueries poseidon pair triple = true) :
    (∀ p ∈ (s.queries poseidon).pairs, pair p = true) ∧ ∀ t ∈ (s.queries poseidon).triples, triple t = true := by
  simp only [allQueries, List.all_eq_true, Bool.and_eq_true] at all
  constructor
  · rintro p ⟨k, (rfl | rfl) | climbed⟩
    all_goals obtain ⟨⟨⟨⟨⟨⟨key, own⟩, path⟩, -⟩, -⟩, -⟩, -⟩ := all k (List.mem_finRange k)
    · exact key
    · exact own
    · exact Merkle.test_of_climbAll path p climbed
  · rintro t ⟨k, (rfl | rfl | rfl) | rfl⟩
    all_goals obtain ⟨⟨⟨⟨-, pk⟩, leaf⟩, null⟩, out⟩ := all k (List.mem_finRange k)
    · exact pk
    · exact leaf
    · exact null
    · exact out

/-- The constraints leave no choice of what is evaluated. -/
theorem queries_of_spend {depth : Nat} {poseidon : Poseidon} {s : Signals depth} (satisfied : Circuit.Spend poseidon s) :
    s.queries poseidon = (s.toInputs.signals poseidon).queries poseidon := by
  have notes (k : Fin 2) : (s.note k).queries = (s.toInputs.noteSignals poseidon k).queries := by
    have note := satisfied.note k
    have wired := satisfied.wired k
    rw [InputSignals.queries, note.leaf, note.domainKey, note.inner, note.pk, wired.spendKey, wired.rho, wired.value, wired.domain]
    rfl
  simp only [Signals.queries, notes]
  rfl

end

end Circuit

namespace Proofs
open Evm Circuit

variable {poseidon : Poseidon} {depth : Nat} {n m : InputSignals depth}

/-- A leaf determines the secrets and the value of its note. -/
theorem opening_of_leaf (first : InputNote poseidon n) (second : InputNote poseidon m)
    (free : (n.queries.union m.queries).Free poseidon) (same : n.leaf = m.leaf) :
    n.spendKey = m.spendKey ∧ n.rho = m.rho ∧ n.value = m.value := by
  rw [first.leaf, second.leaf] at same
  have leaf := free.triples (2, n.inner, n.value) (.inl (by simp [InputSignals.queries])) (2, m.inner, m.value)
    (.inr (by simp [InputSignals.queries])) same
  have inner : n.inner = m.inner := congrArg (fun q => q.2.1) leaf
  have value : n.value = m.value := congrArg (fun q => q.2.2) leaf
  rw [first.inner, second.inner] at inner
  have pair := free.pairs (n.pk, n.rho) (.inl (by simp [InputSignals.queries])) (m.pk, m.rho)
    (.inr (by simp [InputSignals.queries])) inner
  have pk : n.pk = m.pk := congrArg Prod.fst pair
  rw [first.pk, second.pk] at pk
  have key := free.triples (1, n.spendKey, 0) (.inl (by simp [InputSignals.queries])) (1, m.spendKey, 0)
    (.inr (by simp [InputSignals.queries])) pk
  exact ⟨congrArg (fun q => q.2.1) key, congrArg Prod.snd pair, value⟩

/-- A nullifier determines the domain, the spend key and the leaf. -/
theorem note_of_nullifier (first : InputNote poseidon n) (second : InputNote poseidon m)
    (free : (n.queries.union m.queries).Free poseidon) (same : n.nf = m.nf) :
    n.domain = m.domain ∧ n.spendKey = m.spendKey ∧ n.leaf = m.leaf := by
  rw [first.nf, second.nf, first.null, second.null] at same
  have outer := free.triples (3, n.domainKey, n.leaf) (.inl (by simp [InputSignals.queries])) (3, m.domainKey, m.leaf)
    (.inr (by simp [InputSignals.queries])) same
  have key : n.domainKey = m.domainKey := congrArg (fun q => q.2.1) outer
  rw [first.domainKey, second.domainKey] at key
  have pair := free.pairs (n.domain, n.spendKey) (.inl (by simp [InputSignals.queries])) (m.domain, m.spendKey)
    (.inr (by simp [InputSignals.queries])) key
  exact ⟨congrArg Prod.fst pair, congrArg Prod.snd pair, congrArg (fun q => q.2.2) outer⟩

theorem nullifier_of_note (first : InputNote poseidon n) (second : InputNote poseidon m) (domain : n.domain = m.domain)
    (key : n.spendKey = m.spendKey) (leaf : n.leaf = m.leaf) : n.nf = m.nf := by
  rw [first.nf, second.nf, first.null, second.null, first.domainKey, second.domainKey, domain, key, leaf]

/-- The nonce key of one of a tuple's inputs. -/
def keyOf (sp : ShieldedPool.Spend) (k : Fin 2) : Word := if k.val = 0 then sp.nf1 else sp.nf2

/-- An assignment that the proof of a tuple may have been made from. -/
structure Opens (poseidon : Poseidon) (sp : ShieldedPool.Spend) (s : Signals ShieldedPool.depth) : Prop where
  satisfied : Circuit.Spend poseidon s
  publics : s.publics = sp.signals.map felt

/-- Frame 0 of the pool approves `tx`, whose last frame settles `sp`. -/
def Accepts (d : Deployment) (image : Dispatcher.Image) (tx : FrameTx) (sp : ShieldedPool.Spend) : Prop :=
  ∃ auth index earlier scope f, index < tx.frames.length ∧ Dispatcher.authorize d image auth (tx.opcodes index earlier) = .ok scope ∧
    tx.frames.getLast? = some f ∧ sp = ShieldedPool.Spend.decode f.data 4

variable {d : Deployment} {image : Dispatcher.Image} {tx : FrameTx} {sp : ShieldedPool.Spend} {s : Signals ShieldedPool.depth}

theorem Job.Spends.accepts {outside : Outside d.self} {chain : Chain State} {j : Job} (spends : j.Spends d image outside chain) :
    Accepts d image j.tx j.spend := by
  have last := getLast_of_approved spends.approved
  have nonempty : 0 < j.tx.frames.length := by
    rw [lastIndex] at last
    have inside := (List.getElem?_eq_some_iff.mp last).1
    omega
  rw [lastIndex, ← List.getLast?_eq_getElem?] at last
  exact ⟨⟨0, 0, [], 0, none, fun _ => false⟩, 0, none, j.scope, j.frame, nonempty, dispatcher_authorize_ok.mpr spends.ready.authorized, last,
    spends.approved.spend⟩

theorem approved_of_accepts (accepts : Accepts d image tx sp) : ∃ scope f, Approved d tx scope f sp := by
  obtain ⟨auth, index, earlier, scope, f, inside, authorized, last, rfl⟩ := accepts
  obtain ⟨-, g, sp, approved⟩ := approved_of_granted inside (dispatcher_authorize_ok.mp authorized)
  rw [List.getLast?_eq_getElem?] at last
  obtain rfl : g = f := Option.some.inj ((getLast_of_approved approved).symm.trans last)
  exact ⟨scope, g, approved.spend ▸ approved⟩

/-- The public signals, one by one. -/
structure Exposes (sp : ShieldedPool.Spend) (s : Signals ShieldedPool.depth) : Prop where
  nf1 : s.nf1 = felt sp.nf1
  nf2 : s.nf2 = felt sp.nf2
  outCm1 : s.outCm1 = felt sp.outCm1
  outCm2 : s.outCm2 = felt sp.outCm2
  root : s.root = felt sp.root
  domain : s.domain = felt sp.domain
  publicAmount : s.publicAmount = felt sp.publicAmount
  fee : s.fee = felt sp.fee

theorem Opens.exposes (opens : Opens poseidon sp s) : Exposes sp s := by
  have publics := opens.publics
  simp only [Signals.publics, ShieldedPool.Spend.signals, List.map_cons, List.map_nil, List.cons.injEq] at publics
  obtain ⟨nf1, nf2, outCm1, outCm2, root, domain, publicAmount, fee, -⟩ := publics
  exact ⟨nf1, nf2, outCm1, outCm2, root, domain, publicAmount, fee⟩

theorem felt_injective {a b : Word} (first : a < fieldP) (second : b < fieldP) (same : felt a = felt b) : a = b := by
  apply BitVec.eq_of_toNat_eq
  rw [← val_felt first, ← val_felt second, same]

section Table
variable (pairs : List ((Word × Word) × Word)) (triples : List ((Word × Word × Word) × Word))

/-- Words with an answer in a table. -/
def answersPair (p : Fr × Fr) : Bool := (pairs.lookup (BitVec.ofNat 256 p.1.val, BitVec.ofNat 256 p.2.val)).isSome

def answersTriple (t : Fr × Fr × Fr) : Bool :=
  (triples.lookup (BitVec.ofNat 256 t.1.val, BitVec.ofNat 256 t.2.1.val, BitVec.ofNat 256 t.2.2.val)).isSome

/-- All that the tables answer. -/
def tabled : Queries where
  pairs := {p | answersPair pairs p = true}
  triples := {t | answersTriple triples t = true}

/-- The answers of a table are different elements of the field. -/
structure Injective {κ : Type} (table : List (κ × Word)) : Prop where
  distinct : (table.map Prod.snd).Nodup
  canonical : table.all (fun row => decide (row.2 < fieldP)) = true

variable {pairs triples}

theorem mem_of_lookup {κ : Type} [BEq κ] [LawfulBEq κ] {table : List (κ × Word)} {key : κ} {w : Word} (found : table.lookup key = some w) :
    (key, w) ∈ table := by
  obtain ⟨before, after, rfl, -⟩ := List.lookup_eq_some_iff.mp found
  simp

theorem Injective.lookup {κ : Type} [BEq κ] [LawfulBEq κ] {table : List (κ × Word)} (injective : Injective table) {a b : κ}
    (first : (table.lookup a).isSome) (second : (table.lookup b).isSome)
    (same : (((table.lookup a).getD 0).toNat : Fr) = ((table.lookup b).getD 0).toNat) : a = b := by
  obtain ⟨v, found⟩ := Option.isSome_iff_exists.mp first
  obtain ⟨w, found'⟩ := Option.isSome_iff_exists.mp second
  have canonical {key : κ} {u : Word} (listed : (key, u) ∈ table) : u < fieldP :=
    of_decide_eq_true (List.all_eq_true.mp injective.canonical _ listed)
  rw [found, found'] at same
  obtain rfl : v = w := felt_injective (canonical (mem_of_lookup found)) (canonical (mem_of_lookup found')) same
  exact (Prod.mk.inj (List.inj_on_of_nodup_map injective.distinct (mem_of_lookup found) (mem_of_lookup found') rfl)).1

theorem word_injective {x y : Fr} (same : BitVec.ofNat 256 x.val = BitVec.ofNat 256 y.val) : x = y := by
  rw [← felt_word x, same, felt_word]

/-- No two of them have the same answer. -/
theorem tabled_free (left : Injective pairs) (right : Injective triples) : (tabled pairs triples).Free (.ofTable pairs triples) where
  pairs a first b second same := by
    have keys : (BitVec.ofNat 256 a.1.val, BitVec.ofNat 256 a.2.val) = (BitVec.ofNat 256 b.1.val, BitVec.ofNat 256 b.2.val) :=
      left.lookup first second same
    obtain ⟨x, y⟩ := Prod.mk.inj keys
    exact Prod.ext (word_injective x) (word_injective y)
  triples a first b second same := by
    have keys : (BitVec.ofNat 256 a.1.val, BitVec.ofNat 256 a.2.1.val, BitVec.ofNat 256 a.2.2.val) =
        (BitVec.ofNat 256 b.1.val, BitVec.ofNat 256 b.2.1.val, BitVec.ofNat 256 b.2.2.val) := right.lookup first second same
    obtain ⟨x, rest⟩ := Prod.mk.inj keys
    obtain ⟨y, z⟩ := Prod.mk.inj rest
    exact Prod.ext (word_injective x) (Prod.ext (word_injective y) (word_injective z))

/-- An assignment that looks everything up in the tables. -/
theorem within_tabled {depth : Nat} {s : Signals depth}
    (all : s.allQueries (.ofTable pairs triples) (answersPair pairs) (answersTriple triples) = true) :
    (s.queries (.ofTable pairs triples)).Within (tabled pairs triples) :=
  ⟨(Signals.test_of_allQueries all).1, (Signals.test_of_allQueries all).2⟩

end Table

theorem felt_keyOf (opens : Opens poseidon sp s) (k : Fin 2) : (s.note k).nf = felt (keyOf sp k) := by
  have exposes := opens.exposes
  fin_cases k
  · exact opens.satisfied.nf1.symm.trans exposes.nf1
  · exact opens.satisfied.nf2.symm.trans exposes.nf2

theorem domain_of_note (opens : Opens poseidon sp s) (k : Fin 2) : (s.note k).domain = felt sp.domain :=
  (opens.satisfied.wired k).domain.trans opens.exposes.domain

section Accepted
variable {scope : Word} {f : Frame}

theorem keyOf_canonical (approved : Approved d tx scope f sp) (k : Fin 2) : keyOf sp k < fieldP := by
  have canonical := approved.proven.valid.canonical
  rw [keyOf]
  split_ifs
  · exact canonical.2.1
  · exact canonical.2.2.1

/-- Every nullifier of the tuple is a nonce key of the transaction. -/
theorem keyOf_mem (approved : Approved d tx scope f sp) (k : Fin 2) : keyOf sp k ∈ tx.nonceKeys := by
  rw [approved.keys, keyOf, ShieldedPool.Spend.lo, ShieldedPool.Spend.hi]
  split_ifs <;> simp

/-- A key that has been consumed cannot pay for another transaction. -/
theorem refused_of_consumed {σ : Type} (approved : Approved d tx scope f sp) {chain : Chain σ} {key : Word} (mine : key ∈ tx.nonceKeys)
    (consumed : key ∈ chain.consumed) (who : Address) : chain.approvePayment d.self tx who = none :=
  if_neg fun all => all.2.2.2 approved.sender approved.nonceSeq key mine consumed

end Accepted

theorem consumed_of_paid {σ : Type} {chain : Chain σ} {key : Word} (paid : tx ∈ chain.paid) (mine : key ∈ tx.nonceKeys) :
    key ∈ chain.consumed := List.mem_flatMap.mpr ⟨tx, paid, mine⟩

section Pair
variable {tx1 tx2 : FrameTx} {sp1 sp2 : ShieldedPool.Spend} {s1 s2 : Signals ShieldedPool.depth} {k1 k2 : Fin 2}

theorem key_of_same_note {scope1 scope2 : Word} {f1 f2 : Frame} (approved1 : Approved d tx1 scope1 f1 sp1)
    (approved2 : Approved d tx2 scope2 f2 sp2) (opens1 : Opens poseidon sp1 s1) (opens2 : Opens poseidon sp2 s2)
    (free : ((s1.note k1).queries.union (s2.note k2).queries).Free poseidon)
    (same : s1.cm poseidon k1 = s2.cm poseidon k2) : keyOf sp1 k1 = keyOf sp2 k2 := by
  have first := opens1.satisfied.note k1
  have second := opens2.satisfied.note k2
  have leaf : (s1.note k1).leaf = (s2.note k2).leaf := by
    rw [leaf_of_spend opens1.satisfied, leaf_of_spend opens2.satisfied, same]
  have domain : (s1.note k1).domain = (s2.note k2).domain := by
    rw [domain_of_note opens1, domain_of_note opens2, approved1.proven.valid.domain, approved2.proven.valid.domain]
  obtain ⟨key, -⟩ := opening_of_leaf first second free leaf
  have nf := nullifier_of_note first second domain key leaf
  rw [felt_keyOf opens1, felt_keyOf opens2] at nf
  exact felt_injective (keyOf_canonical approved1 k1) (keyOf_canonical approved2 k2) nf

theorem note_of_same_key (opens1 : Opens poseidon sp1 s1) (opens2 : Opens poseidon sp2 s2)
    (free : ((s1.note k1).queries.union (s2.note k2).queries).Free poseidon) (same : keyOf sp1 k1 = keyOf sp2 k2) :
    felt sp1.domain = felt sp2.domain ∧ s1.cm poseidon k1 = s2.cm poseidon k2 := by
  have nf : (s1.note k1).nf = (s2.note k2).nf := by
    rw [felt_keyOf opens1, felt_keyOf opens2, same]
  obtain ⟨domain, -, leaf⟩ := note_of_nullifier (opens1.satisfied.note k1) (opens2.satisfied.note k2) free nf
  rw [domain_of_note opens1, domain_of_note opens2] at domain
  rw [leaf_of_spend opens1.satisfied, leaf_of_spend opens2.satisfied] at leaf
  exact ⟨domain, leaf⟩

end Pair

/-- The inputs of one tuple open different leaves. -/
theorem inputs_apart {scope : Word} {f : Frame} (approved : Approved d tx scope f sp) (opens : Opens poseidon sp s)
    (free : ((s.note 0).queries.union (s.note 1).queries).Free poseidon) : s.cm poseidon 0 ≠ s.cm poseidon 1 := by
  intro same
  have key := key_of_same_note approved approved opens opens free same
  apply different_of_spend opens.satisfied
  rw [opens.exposes.nf1, opens.exposes.nf2]
  exact congrArg felt key

/-- Leaves are pairwise distinct. Whatever assignments are behind two accepted tuples, inputs that
open the same leaf show the same nonce key, so the second is refused once the first is paid for, and
inputs that open different leaves show different ones; a tuple's own inputs open different leaves;
and in a pool with another domain a note has another key and the tuple is not accepted. All of this
unless the two notes' own hashes collide. -/
theorem notes_match_keys :
    (∀ s, Reachable d s → (leavesOf s).Nodup ∧ ∀ cm, s.isLeaf cm = true ↔ cm ∈ leavesOf s) ∧
    (∀ tx1 tx2 sp1 sp2 s1 s2, Accepts d image tx1 sp1 → Accepts d image tx2 sp2 → Opens poseidon sp1 s1 → Opens poseidon sp2 s2 →
      ∀ k1 k2,
        (s1.cm poseidon k1 = s2.cm poseidon k2 →
          keyOf sp1 k1 = keyOf sp2 k2 ∧ (∀ chain : Chain State, tx1 ∈ chain.paid →
            keyOf sp2 k2 ∈ tx2.nonceKeys ∧ keyOf sp2 k2 ∈ chain.consumed ∧ ∀ who, chain.approvePayment d.self tx2 who = none) ∨
          ((s1.note k1).queries.union (s2.note k2).queries).Collide poseidon) ∧
        (s1.cm poseidon k1 ≠ s2.cm poseidon k2 →
          keyOf sp1 k1 ≠ keyOf sp2 k2 ∨ ((s1.note k1).queries.union (s2.note k2).queries).Collide poseidon)) ∧
    (∀ tx sp s, Accepts d image tx sp → Opens poseidon sp s →
      s.cm poseidon 0 ≠ s.cm poseidon 1 ∨ ((s.note 0).queries.union (s.note 1).queries).Collide poseidon) ∧
    ∀ (d' : Deployment) image', d.domain ≠ d'.domain →
      (∀ tx1 tx2 sp1 sp2 s1 s2, Accepts d image tx1 sp1 → Accepts d' image' tx2 sp2 → Opens poseidon sp1 s1 → Opens poseidon sp2 s2 →
        ∀ k1 k2, s1.inSpendKey k1 = s2.inSpendKey k2 → s1.inRho k1 = s2.inRho k2 → s1.inValue k1 = s2.inValue k2 →
          keyOf sp1 k1 ≠ keyOf sp2 k2 ∨ ((s1.note k1).queries.union (s2.note k2).queries).Collide poseidon) ∧
      ∀ tx1 tx2 sp, Accepts d image tx1 sp → ¬ Accepts d' image' tx2 sp := by
  refine ⟨fun s reachable => ?_, fun tx1 tx2 sp1 sp2 s1 s2 accepts1 accepts2 opens1 opens2 k1 k2 => ⟨fun same => ?_, fun other => ?_⟩,
    fun tx sp s accepts opens => ?_, fun d' image' apart => ⟨?_, fun tx1 tx2 sp accepts1 accepts2 => ?_⟩⟩
  · have grown := (treeOk_of_reachable reachable).grown
    exact ⟨grown.distinct, grown.member⟩
  · rcases Queries.free_or_collide poseidon ((s1.note k1).queries.union (s2.note k2).queries) with free | collide
    · obtain ⟨_, _, approved1⟩ := approved_of_accepts accepts1
      obtain ⟨_, _, approved2⟩ := approved_of_accepts accepts2
      have key := key_of_same_note approved1 approved2 opens1 opens2 free same
      refine .inl ⟨key, fun chain paid => ?_⟩
      have consumed : keyOf sp2 k2 ∈ chain.consumed := consumed_of_paid paid (key ▸ keyOf_mem approved1 k1)
      exact ⟨keyOf_mem approved2 k2, consumed, refused_of_consumed approved2 (keyOf_mem approved2 k2) consumed⟩
    · exact .inr collide
  · rcases Queries.free_or_collide poseidon ((s1.note k1).queries.union (s2.note k2).queries) with free | collide
    · exact .inl fun key => other (note_of_same_key opens1 opens2 free key).2
    · exact .inr collide
  · obtain ⟨_, _, approved⟩ := approved_of_accepts accepts
    exact (Queries.free_or_collide poseidon _).imp (inputs_apart approved opens) id
  · intro tx1 tx2 sp1 sp2 s1 s2 accepts1 accepts2 opens1 opens2 k1 k2 _ _ _
    rcases Queries.free_or_collide poseidon ((s1.note k1).queries.union (s2.note k2).queries) with free | collide
    · obtain ⟨_, _, approved1⟩ := approved_of_accepts accepts1
      obtain ⟨_, _, approved2⟩ := approved_of_accepts accepts2
      have valid1 := approved1.proven.valid
      have valid2 := approved2.proven.valid
      refine .inl fun key => apart ?_
      have domain := felt_injective valid1.canonical.2.2.2.2.2.1 valid2.canonical.2.2.2.2.2.1 (note_of_same_key opens1 opens2 free key).1
      rw [← valid1.domain, domain, valid2.domain]
    · exact .inr collide
  · obtain ⟨_, _, approved1⟩ := approved_of_accepts accepts1
    obtain ⟨_, _, approved2⟩ := approved_of_accepts accepts2
    exact apart (approved1.proven.valid.domain.symm.trans approved2.proven.valid.domain)

end Proofs

namespace Proofs.TwoSpends
open Evm Circuit Wallet.TwoSpends

def withdrawalInputs : Inputs ShieldedPool.depth where
  root := felt withdrawal.root
  domain := felt withdrawal.domain
  inSpendKey _ := felt spendKey
  inRho k := felt (rho.getD k 0)
  inValue k := if k.val = 0 then felt value else 0
  inSiblings k l := if k.val = 0 then felt (zeros l) else 0
  inBits _ _ := 0
  outInner k := felt (inner.getD (2 - k) 0)
  outValue k := if k.val = 0 then 10000000000000000 else 0
  publicAmount := felt withdrawal.publicAmount
  fee := felt withdrawal.fee
  ctx := felt withdrawal.ctx

def transferInputs : Inputs ShieldedPool.depth :=
  { withdrawalInputs with
    root := felt zeroRoot
    inRho := fun k => felt (rho.getD (k + 2) 0)
    inValue := fun _ => 0
    inSiblings := fun _ _ => 0
    outInner := fun _ => felt (inner.getD 1 0)
    outValue := fun _ => 0
    publicAmount := 0
    fee := 0
    ctx := 0 }

theorem withdrawal_opens : Opens poseidon withdrawal (withdrawalInputs.signals poseidon) where
  satisfied := spend_of_inputs (fun _ _ => .inl rfl) (by decide +kernel) (by decide +kernel) (by decide +kernel) (by decide +kernel)
    (by decide +kernel) (by decide +kernel) (by decide +kernel)
  publics := by decide +kernel

theorem transfer_opens : Opens poseidon transfer (transferInputs.signals poseidon) where
  satisfied := spend_of_inputs (fun _ _ => .inl rfl) (by decide +kernel) (by decide +kernel) (by decide +kernel) (by decide +kernel)
    (by decide +kernel) (by decide +kernel) (by decide +kernel)
  publics := by decide +kernel

theorem injective_pairs : Injective pairs where
  distinct := by decide +kernel
  canonical := by decide +kernel

theorem injective_triples : Injective triples where
  distinct := by decide +kernel
  canonical := by decide +kernel

theorem free : (tabled pairs triples).Free poseidon := tabled_free injective_pairs injective_triples

theorem withdrawal_within : ((withdrawalInputs.signals poseidon).queries poseidon).Within (tabled pairs triples) := by
  apply within_tabled
  decide +kernel

theorem transfer_within : ((transferInputs.signals poseidon).queries poseidon).Within (tabled pairs triples) := by
  apply within_tabled
  decide +kernel

theorem notes_differ : ∀ k1 k2, withdrawalInputs.cm poseidon k1 ≠ transferInputs.cm poseidon k2 := by decide +kernel

/-- Any two of the notes that the two spends open. -/
theorem notes_free {s1 s2 : Signals ShieldedPool.depth} (first : (s1.queries poseidon).Within (tabled pairs triples))
    (second : (s2.queries poseidon).Within (tabled pairs triples)) (k1 k2 : Fin 2) :
    ¬ ((s1.note k1).queries.union (s2.note k2).queries).Collide poseidon := by
  apply Queries.Free.not_collide
  refine free.within ⟨?_, ?_⟩
  · rintro p (one | two)
    · exact first.pairs ⟨k1, .inl one⟩
    · exact second.pairs ⟨k2, .inl two⟩
  · rintro t (one | two)
    · exact first.triples ⟨k1, .inl one⟩
    · exact second.triples ⟨k2, .inl two⟩

end Proofs.TwoSpends

namespace Proofs
open Circuit Wallet.TwoSpends

/-- The two spends open four notes with four keys, the withdrawal is refused once it has been paid
for, and a pool with another domain does not take it. -/
theorem notes_match_keys_twoSpends :
    (∀ k1 k2, keyOf TwoSpends.withdrawal k1 ≠ keyOf TwoSpends.transfer k2) ∧
      TwoSpends.withdrawalInputs.cm poseidon 0 ≠ TwoSpends.withdrawalInputs.cm poseidon 1 ∧
      (∀ chain : Chain State, TwoSpends.withdrawalJob.tx ∈ chain.paid →
        ∀ who, chain.approvePayment TwoSpends.deployment.self TwoSpends.withdrawalJob.tx who = none) ∧
      ∀ tx, ¬ Accepts { TwoSpends.deployment with keccak := fun _ => 0 } Hegota.image tx TwoSpends.withdrawal := by
  obtain ⟨-, pairwise, own, elsewhere⟩ := @notes_match_keys poseidon TwoSpends.deployment Hegota.image
  have withdraws := TwoSpends.withdrawal_spends.accepts
  have transfers := TwoSpends.transfer_spends.accepts
  refine ⟨fun k1 k2 => ?_, ?_, fun chain paid who => ?_, ?_⟩
  · have apart := (pairwise _ _ _ _ _ _ withdraws transfers TwoSpends.withdrawal_opens TwoSpends.transfer_opens k1 k2).2
    exact (apart (TwoSpends.notes_differ k1 k2)).resolve_right
      (TwoSpends.notes_free TwoSpends.withdrawal_within TwoSpends.transfer_within k1 k2)
  · exact (own _ _ _ withdraws TwoSpends.withdrawal_opens).resolve_right
      (TwoSpends.notes_free TwoSpends.withdrawal_within TwoSpends.withdrawal_within 0 1)
  · have again := (pairwise _ _ _ _ _ _ withdraws withdraws TwoSpends.withdrawal_opens TwoSpends.withdrawal_opens 0 0).1 rfl
    obtain ⟨-, refused⟩ := again.resolve_right (TwoSpends.notes_free TwoSpends.withdrawal_within TwoSpends.withdrawal_within 0 0)
    exact (refused chain paid).2.2 who
  · have domains : TwoSpends.deployment.domain ≠ Deployment.domain { TwoSpends.deployment with keccak := fun _ => 0 } := by decide +kernel
    exact fun tx => (elsewhere _ Hegota.image domains).2 _ tx _ withdraws

end Proofs

end ShieldedPool
