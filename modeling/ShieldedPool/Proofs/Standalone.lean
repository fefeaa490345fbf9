import ShieldedPool.Proofs.Lifting
import ShieldedPool.Proofs.Panic
import ShieldedPool.Proofs.Twin

/-! The hand-written Yul pool on the chain. Where the Solidity settlement panics on a credit
and the Yul code goes on, a solvent pool never gets, so the two pools go through the same runs. -/

namespace ShieldedPool.Proofs
open Evm Yul Exec Circuit
open ShieldedPool.Monolith (World Image environment)
open ShieldedPool.Proofs.Layout (worldOf)

variable {d : Deployment} {image : Image} {c : Call} {s : State}

/-- A call of the Yul pool with data is the call of the Solidity settlement, with the same reply or revert data and the
picture of the same storage, logs and publications. Only where a settlement that `_spend` lets
through overflows a credit does the Solidity code panic and the Yul code go on. -/
theorem standalone_answers_alike (image : Image) (reachable : Reachable d s) (_nonempty : c.data ≠ []) (ordinary : Twin.Ordinary c)
    (plain : ¬ ReadsSender c) :
    Monolith.call d image c (worldOf s) = (Logic.call d c s).map (Prod.map id worldOf) ∨
      Logic.call d c s = .error arithmeticPanic ∧
        ∃ payer, Authenticated d c (Spend.decode c.data 4) payer ∧ ¬ CreditsFit d s (Spend.decode c.data 4) payer := by
  by_cases panics : Logic.call d c s = .error arithmeticPanic
  · exact .inr ⟨panics, excess_of_panic panics⟩
  · exact .inl (Twin.call_mirrors ordinary plain (room_of_reachable reachable) panics)

/-- A call outside a frame transaction. -/
theorem ordinary_of_idle (data : c.data.length < 2 ^ 256) (number : c.number.toNat < 2 ^ 64) (idle : c.probe = none) : Twin.Ordinary c :=
  ⟨data, number, fun _ answer => absurd (idle.symm.trans answer) nofun, fun _ answer => absurd (idle.symm.trans answer) nofun⟩

/-- The deposit of the recorded run. -/
theorem standalone_answers_alike_hegota :
    Monolith.call Hegota.deployment ⟨[], 0xa1#160, 0xa2#160⟩ hegotaDeposit (worldOf genesis) =
      .ok (.returned (encodeWord 0), worldOf (depositedIn Hegota.deployment hegotaDeposit genesis Hegota.inner)) := by
  have returned : Logic.call Hegota.deployment hegotaDeposit genesis =
      .ok (.returned (encodeWord 0), depositedIn Hegota.deployment hegotaDeposit genesis Hegota.inner) := by
    rw [← Dispatcher.call_eq Hegota.deployment Hegota.image]
    exact deposit_returns rfl hegota_depositable fun _ => rfl
  have ordinary : Twin.Ordinary hegotaDeposit := ordinary_of_idle (by decide) (by decide) rfl
  have plain : ¬ ReadsSender hegotaDeposit := by
    rintro ⟨-, selects⟩
    exact absurd selects (by decide)
  rcases standalone_answers_alike ⟨[], 0xa1#160, 0xa2#160⟩ .deployed (by decide) ordinary plain with same | ⟨panics, -⟩
  · rw [same, returned]
    rfl
  · rw [returned] at panics
    cases panics

/-- The data of an empty call that reverts, which the two pools choose differently. -/
def silent : Bytes → Bytes := fun _ => []

/-- What the two pools are compared on: calldata and block numbers as they occur, and no call of
the getter that only the Yul pool has. -/
def Tame (shown : Observation) : Prop :=
  ∀ c result, shown = .called c result → c.data.length < 2 ^ 256 ∧ c.number.toNat < 2 ^ 64 ∧ ¬ ReadsSender c

theorem mapError_silent {α : Type} {x y : Except Bytes α} (same : ∀ a, x = .ok a ↔ y = .ok a) : x.mapError silent = y.mapError silent := by
  cases x with
  | ok a => rw [(same a).mp rfl]
  | error data =>
    cases y with
    | ok a => exact absurd ((same a).mpr rfl) nofun
    | error other => rfl

theorem resume_alike : Dispatcher.resume = Monolith.resume := by
  funext accepted
  rw [Dispatcher.resume_eq]
  cases accepted <;> rfl

theorem recordedRoot_publication (root : Word) : Monolith.recordedRoot (publication root) = some root := by
  have pair : publication root = encodeWords [salt, root] := by simp [publication]
  have first := wordAt_encodeWords [salt, root] 0 (by simp) []
  have second := wordAt_encodeWords [salt, root] 1 (by simp) []
  rw [List.append_nil] at first second
  have size : (encodeWords [salt, root]).length = 64 := by simp
  rw [pair, Monolith.recordedRoot, if_pos ⟨size, first⟩]
  exact congrArg some second

variable {proxy : Dispatcher.Image}

theorem keeps_pools (d : Deployment) (proxy : Dispatcher.Image) (image : Image) :
    Keeps worldOf silent (Dispatcher.poolCode d proxy) (Monolith.poolCode d image) where
  resume := resume_alike
  authorize c o s := by
    apply mapError_silent
    intro scope
    exact dispatcher_authorize_ok.trans Monolith.authorize_ok.symm
  published s := by
    have roots : (s.published.map publication).filterMap Monolith.recordedRoot = s.published := by
      have each : Monolith.recordedRoot ∘ publication = some := by
        funext root
        rw [Function.comp_apply, recordedRoot_publication]
      rw [List.filterMap_map, each, List.filterMap_some]
    exact roots.symm

theorem clean_reportAt (tx : FrameTx) (index : Nat) (payer : Option Address) : Address.Clean (reportAt tx index payer).settleTarget := by
  rw [reportAt]
  cases tx.frames[index]? with
  | none => exact show Address.Clean 0 by decide
  | some f => exact Address.word_clean f.target

/-- The opcodes show the frame index as a word. -/
theorem opcodes_wrap (tx : FrameTx) (index : Nat) (payer : Option Address) :
    tx.opcodes (BitVec.ofNat 256 index).toNat payer = tx.opcodes index payer := by
  have params : tx.txParam (BitVec.ofNat 256 index).toNat payer = tx.txParam index payer := by
    funext param
    simp only [FrameTx.txParam, BitVec.ofNat_toNat, BitVec.setWidth_eq]
  rw [FrameTx.opcodes, params]
  rfl

theorem call_alike (proxy : Dispatcher.Image) (image : Image) (ordinary : Twin.Ordinary c) (plain : ¬ ReadsSender c) (room : s.nextIndex ≤ 2 ^ depth)
    (calm : Dispatcher.call d proxy c s ≠ .error arithmeticPanic) :
    ((Dispatcher.poolCode d proxy).call c s).map (Prod.map id worldOf) = (Monolith.poolCode d image).call c (worldOf s) := by
  have same : Dispatcher.call d proxy c s = Logic.call d c s := congrFun (Dispatcher.call_eq d proxy c) s
  rw [same] at calm
  exact (congrArg (Except.map (Prod.map id worldOf)) same).trans (Twin.call_mirrors ordinary plain room calm).symm

/-- EnvelopeProbe answers with eleven words, and an address in the ninth of them. -/
theorem reply_opcodes {σ : Type} (l : Ledger σ) {ret : Bytes} (answer : EnvelopeProbe.reply l.opcodes = some ret) :
    ret.length = 352 ∧ Address.Clean (Facts.decode ret).settleTarget := by
  rw [Ledger.opcodes] at answer
  cases tx : l.tx with
  | none =>
    rw [tx] at answer
    cases answer
  | some p =>
    rw [tx] at answer
    have answered : EnvelopeProbe.reply (p.tx.opcodes p.index l.chain.payer) = some ret := answer
    rw [← opcodes_wrap, reply_reportAt p.tx (BitVec.isLt _)] at answered
    rw [← Option.some.inj answered]
    refine ⟨by rw [length_encodeWords]; rfl, ?_⟩
    rw [wordsOf, decode_facts]
    exact clean_reportAt p.tx _ l.chain.payer

theorem ordinary_of_step {σ : Type} {net : Network σ} {l l' : Ledger σ} {result : Except Bytes Reply}
    (step : Step net l (.called c result) l') (tame : Tame (.called c result)) : Twin.Ordinary c := by
  obtain ⟨data, number, -⟩ := tame c result rfl
  have probed {ret : Bytes} (answer : c.probe = some ret) : ret.length = 352 ∧ Address.Clean (Facts.decode ret).settleTarget := by
    cases step with
    | call => exact reply_opcodes l answer
    | frameCall => exact reply_opcodes _ answer
  refine ⟨data, number, fun ret answer => ?_, fun ret answer => (probed answer).2⟩
  rw [(probed answer).1]
  decide

/-- The entries of a run of the Yul pool, each with the entry of the Solidity pool it is a picture of. -/
abbrev Pictured (mirrored : List (Entry State)) (history : List (Entry World)) : Prop :=
  List.Forall₂ (Entry.Shows worldOf silent) mirrored history

theorem related_of_mem {α β : Type} {R : α → β → Prop} {xs : List α} {ys : List β} (related : List.Forall₂ R xs ys) {x : α} (member : x ∈ xs) :
    ∃ y ∈ ys, R x y := by
  induction related with
  | nil => cases member
  | cons head rest ih =>
    rcases List.mem_cons.mp member with rfl | later
    · exact ⟨_, List.mem_cons_self, head⟩
    · obtain ⟨y, inside, same⟩ := ih later
      exact ⟨y, List.mem_cons_of_mem _ inside, same⟩

theorem Pictured.mirror {mirrored : List (Entry State)} {history : List (Entry World)} (pictured : Pictured mirrored history)
    {shadow : Entry World} (member : shadow ∈ history) : ∃ e ∈ mirrored, Entry.Shows worldOf silent e shadow := by
  have turned : List.Forall₂ (flip (Entry.Shows worldOf silent)) history mirrored := List.Forall₂.flip pictured
  exact related_of_mem turned member

/-- Only what a frame's approval has shown may differ. -/
theorem eq_of_redact {shown shown' : Observation} (same : shown.redact silent = shown'.redact silent)
    (other : ∀ frame result, shown ≠ .authorized frame result) : shown = shown' := by
  cases shown with
  | authorized frame result => exact absurd rfl (other frame result)
  | _ => cases shown' <;> first | exact same | cases same

theorem begun_of_redact {shown shown' : Observation} (same : shown.redact silent = shown'.redact silent) {tx : FrameTx}
    (begun : shown = .begun tx) : shown' = .begun tx := by
  subst begun
  exact (eq_of_redact same nofun).symm

theorem tame_of_redact {shown shown' : Observation} (same : shown.redact silent = shown'.redact silent) (tame : Tame shown') : Tame shown := by
  intro c result called
  subst called
  exact tame c result (eq_of_redact same nofun).symm

theorem proved_of_pictured {mirrored : List (Entry State)} {history : List (Entry World)} (pictured : Pictured mirrored history) {tx : FrameTx}
    (proved : Proved d mirrored tx) : Proved d history tx := by
  obtain ⟨verified, e, member, begun⟩ := proved
  obtain ⟨shadow, inside, shows⟩ := related_of_mem pictured member
  exact ⟨verified, shadow, inside, begun_of_redact shows.shown begun⟩

/-- The leaf that a log of the Yul pool announces. -/
def leafIn (log : Monolith.Log) : Option Word :=
  match log.topics with
  | [topic, cm] => if topic = Monolith.leafAppendedTopic then some cm else none
  | _ => none

theorem leafIn_logOf (e : Event) : leafIn (Layout.logOf e) = (leafOf e).map Prod.fst := by
  cases e with
  | _ => rfl

theorem leaves_of_shows {e : Entry State} {shadow : Entry World} (shows : e.Shows worldOf silent shadow) :
    shadow.reached.chain.pool.logs.filterMap leafIn = leavesOf e.reached.chain.pool := by
  have pool : worldOf e.reached.chain.pool = shadow.reached.chain.pool := congrArg (fun l => l.chain.pool) shows.reached
  have each : leafIn ∘ Layout.logOf = fun e => (leafOf e).map Prod.fst := funext leafIn_logOf
  rw [← pool, worldOf, List.filterMap_map, each, leavesOf, appended, List.map_filterMap]

section
variable {poseidon : Poseidon} {extract : ShieldedPool.Spend → Signals ShieldedPool.depth} {q : Queries} {outside : Outside d.self}

/-- On a safe ledger the two pools answer the calls that steps make alike. -/
theorem call_of_safe {l : Ledger State} (safe : Safe poseidon extract q d proxy outside l) (ordinary : Twin.Ordinary c) (plain : ¬ ReadsSender c)
    (steps : Dispatcher.call d proxy c l.chain.pool = .error arithmeticPanic →
      ∃ result l', Step (dispatcherNetwork d proxy outside) l (.called c result) l') :
    ((Dispatcher.poolCode d proxy).call c l.chain.pool).map (Prod.map id worldOf) = (Monolith.poolCode d image).call c (worldOf l.chain.pool) := by
  have reachable := (safe.solvent.kept _ .current).sound.reachable
  refine call_alike proxy image ordinary plain (room_of_reachable reachable) fun panics => ?_
  obtain ⟨result, l', step⟩ := steps panics
  rw [Dispatcher.call_eq] at panics
  obtain ⟨payer, authenticated, excess⟩ := excess_of_panic panics
  exact excess (fits_of_solvent safe.staged safe.solvent safe.vetted safe.small step authenticated)

/-- The mirror of a run, up to where its hashes fail it if they do. -/
theorem mirrored_of_run (proxy : Dispatcher.Image) (hashes : Hashes d poseidon) {eth : Address → Nat} (words : ∀ a, eth a < 2 ^ 256)
    {history : List (Entry World)} {last : Ledger World} (run : Run (monolithNetwork d image outside) (monolithLaunch (worldOf genesis) eth) history last)
    (tame : ∀ e ∈ history, Tame e.shown) (extracts : ∀ tx, Proved d history tx → Opens poseidon tx.tuple (extract tx.tuple)) :
    ∃ mirrored reached, Run (dispatcherNetwork d proxy outside) (launch eth) mirrored reached ∧
      ((∃ before after, history = before ++ after ∧ Pictured mirrored before) ∧ Broken poseidon (runQueries poseidon extract d mirrored) ∨
        Pictured mirrored history ∧ reached.map worldOf = last) := by
  induction run with
  | start => exact ⟨[], launch eth, .start, .inr ⟨.nil, rfl⟩⟩
  | @step history middle shown last earlier step ih =>
    have within (tx : FrameTx) (proved : Proved d history tx) : Proved d (history ++ [⟨shown, last⟩]) tx := by
      obtain ⟨verified, e, member, begun⟩ := proved
      exact ⟨verified, e, List.mem_append_left _ member, begun⟩
    obtain ⟨mirrored, reached, run, ⟨⟨before, after, rfl, pictured⟩, broken⟩ | ⟨pictured, rfl⟩⟩ :=
      ih (fun e member => tame e (List.mem_append_left _ member)) fun tx proved => extracts tx (within tx proved)
    · exact ⟨mirrored, reached, run, .inl ⟨⟨before, _, List.append_assoc _ _ _, pictured⟩, broken⟩⟩
    rcases safe_of_run hashes words run fun tx proved => extracts tx (within tx (proved_of_pictured pictured proved)) with broken | safe
    · exact ⟨mirrored, reached, run, .inl ⟨⟨history, _, rfl, pictured⟩, broken⟩⟩
    have own : Tame shown := tame _ (List.mem_append_right _ (List.mem_singleton_self _))
    obtain ⟨shown', reached', taken, alike, rfl⟩ := step_keeps (keeps_pools d proxy image) (fun c result called => by
      subst called
      exact call_of_safe safe (ordinary_of_step step own) (own c result rfl).2.2 fun panics => ⟨_, reverts_of_step step panics⟩) step
    exact ⟨_, reached', run.step taken, .inr ⟨List.rel_append pictured (.cons ⟨alike, rfl⟩ .nil), rfl⟩⟩

/-- The pictures of a run, unless its hashes fail it. -/
theorem pictures_of_run (image : Image) (hashes : Hashes d poseidon) {eth : Address → Nat} (words : ∀ a, eth a < 2 ^ 256)
    {history : List (Entry State)} {last : Ledger State} (run : Run (dispatcherNetwork d proxy outside) (launch eth) history last)
    (tame : ∀ e ∈ history, Tame e.shown) (extracts : ∀ tx, Proved d history tx → Opens poseidon tx.tuple (extract tx.tuple)) :
    (∃ before after, history = before ++ after ∧ Broken poseidon (runQueries poseidon extract d before)) ∨
      ∃ pictures, Run (monolithNetwork d image outside) (monolithLaunch (worldOf genesis) eth) pictures (last.map worldOf) ∧
        Pictured history pictures := by
  induction run with
  | start => exact .inr ⟨[], .start, .nil⟩
  | @step history middle shown last earlier step ih =>
    have within (tx : FrameTx) (proved : Proved d history tx) : Proved d (history ++ [⟨shown, last⟩]) tx := by
      obtain ⟨verified, e, member, begun⟩ := proved
      exact ⟨verified, e, List.mem_append_left _ member, begun⟩
    rcases ih (fun e member => tame e (List.mem_append_left _ member)) fun tx proved => extracts tx (within tx proved) with
      ⟨before, after, rfl, broken⟩ | ⟨pictures, run, pictured⟩
    · exact .inl ⟨before, _, List.append_assoc _ _ _, broken⟩
    rcases safe_of_run hashes words earlier fun tx proved => extracts tx (within tx proved) with broken | safe
    · exact .inl ⟨history, _, rfl, broken⟩
    have own : Tame shown := tame _ (List.mem_append_right _ (List.mem_singleton_self _))
    obtain ⟨shown', taken, alike⟩ := step_shadow (keeps_pools d proxy image) (fun c result called => by
      subst called
      exact call_of_safe safe (ordinary_of_step step own) (own c result rfl).2.2 fun _ => ⟨result, last, step⟩) step
    exact .inr ⟨_, run.step taken, List.rel_append pictured (.cons ⟨alike, rfl⟩ .nil)⟩

/-- The constructor of the Yul pool leaves the picture of what the dispatcher's leaves. -/
theorem world_of_construct {built : Call} {m : Machine World} (deployed : Monolith.construct built (Machine.start World.blank) = .ok ((), m)) :
    m.world = worldOf genesis := by
  have blank : World.blank = worldOf .empty := by
    have storage : (fun _ => 0) = Layout.storageOf .empty := by
      funext loc
      cases loc <;> rw [Layout.storageOf] <;> split_ifs <;> rfl
    rw [World.blank, storage]
    rfl
  have seeded := Layout.put_currentRoot .empty zeroRoot
  have written : (Memory.empty.storeWords 0x00 [0, zeroRoot]).load 0x00 0x40 = publication zeroRoot := by
    rw [Memory.load_store_words _ _ _ (by simp), publication]
    simp [salt]
  have ran : Monolith.construct built (Machine.start World.blank) = (failIf Error.rootPublishFailed.selector
      (Op.iszero (flag (built.publishes ((Memory.empty.storeWords 0x00 [0, zeroRoot]).load 0x00 0x40)))) : Program World Unit)
      { memory := Memory.empty.storeWords 0x00 [0, zeroRoot]
        returndata := []
        world := if built.publishes ((Memory.empty.storeWords 0x00 [0, zeroRoot]).load 0x00 0x40) then
          { Layout.put (.slot 22) zeroRoot World.blank with
            published := [] ++ [(Memory.empty.storeWords 0x00 [0, zeroRoot]).load 0x00 0x40] }
          else Layout.put (.slot 22) zeroRoot World.blank } := rfl
  rw [ran, written, blank, seeded, failIf_eq, revertIf_eq_ok] at deployed
  obtain ⟨taken, rfl⟩ := deployed
  cases published : built.publishes (publication zeroRoot) with
  | false =>
    rw [published] at taken
    exact absurd (by decide) taken
  | true => rfl

/-- Every run of the Yul pool from its constructor is, entry by entry, the picture of a run of the Solidity
pool, and the credits in its storage together with the leaves that are not spent are covered by its
ETH. This holds up to where two hashes evaluated on the way collide or a commitment is zero. -/
theorem standalone_refines_dispatcher (proxy : Dispatcher.Image) (hashes : Hashes d poseidon) {built : Call} {m : Machine World}
    (deployed : Monolith.construct built (Machine.start World.blank) = .ok ((), m)) {eth : Address → Nat} (words : ∀ a, eth a < 2 ^ 256)
    {history : List (Entry World)} {last : Ledger World}
    (run : Run (monolithNetwork d image outside) (monolithLaunch m.world eth) history last) (tame : ∀ e ∈ history, Tame e.shown)
    (extracts : ∀ tx, Proved d history tx → Opens poseidon tx.tuple (extract tx.tuple)) :
    ∃ mirrored reached, Run (dispatcherNetwork d proxy outside) (launch eth) mirrored reached ∧
      ((∃ before after, history = before ++ after ∧ Pictured mirrored before) ∧ Broken poseidon (runQueries poseidon extract d mirrored) ∨
        Pictured mirrored history ∧ reached.map worldOf = last ∧
          ∃ value : Word → Nat,
            (∀ cm inner v, opening inner v ∈ (runQueries poseidon extract d mirrored).triples → felt cm = poseidon.commit inner v →
              value cm = v.val) ∧
            total (fun a => last.chain.pool.storage (.map 24 a.word)) + total (fun a => last.chain.pool.storage (.map 25 a.word)) +
              unspent poseidon extract value reached.chain ≤ last.chain.eth d.self) := by
  rw [world_of_construct deployed] at run
  obtain ⟨mirrored, reached, again, failed | ⟨pictured, rfl⟩⟩ := mirrored_of_run proxy hashes words run tame extracts
  · exact ⟨mirrored, reached, again, .inl failed⟩
  rcases safe_of_run hashes words again fun tx proved => extracts tx (proved_of_pictured pictured proved) with broken | safe
  · exact ⟨mirrored, reached, again, .inl ⟨⟨history, [], (List.append_nil _).symm, pictured⟩, broken⟩⟩
  have backed := (safe.solvent.kept _ .current).less (Nat.zero_le _)
  refine ⟨mirrored, reached, again, .inr ⟨pictured, rfl, noteValue poseidon _, fun cm inner v evaluated leaf =>
    noteValue_eq safe.free evaluated leaf, ?_⟩⟩
  have withdrawals : (fun a => (worldOf reached.chain.pool).storage (.map 24 (Address.word a))) = reached.chain.pool.withdrawalCredit :=
    funext fun a => Layout.storage_withdrawalCredit reached.chain.pool a
  have fees : (fun a => (worldOf reached.chain.pool).storage (.map 25 (Address.word a))) = reached.chain.pool.feeCredit :=
    funext fun a => Layout.storage_feeCredit reached.chain.pool a
  have covered := backed.all
  rw [owed, ← withdrawals, ← fees] at covered
  exact covered

/-- Every run of the Solidity pool has its picture, too. -/
theorem standalone_follows_dispatcher (image : Image) (hashes : Hashes d poseidon) {built : Call} {m : Machine World}
    (deployed : Monolith.construct built (Machine.start World.blank) = .ok ((), m)) {eth : Address → Nat} (words : ∀ a, eth a < 2 ^ 256)
    {history : List (Entry State)} {last : Ledger State}
    (run : Run (dispatcherNetwork d proxy outside) (launch eth) history last) (tame : ∀ e ∈ history, Tame e.shown)
    (extracts : ∀ tx, Proved d history tx → Opens poseidon tx.tuple (extract tx.tuple)) :
    (∃ before after, history = before ++ after ∧ Broken poseidon (runQueries poseidon extract d before)) ∨
      ∃ pictures, Run (monolithNetwork d image outside) (monolithLaunch m.world eth) pictures (last.map worldOf) ∧ Pictured history pictures := by
  rw [world_of_construct deployed]
  exact pictures_of_run image hashes words run tame extracts

end

end ShieldedPool.Proofs

namespace ShieldedPool.Proofs.TwoSpends
open Evm Yul Circuit Wallet.TwoSpends
open ShieldedPool.Monolith (World Image)
open ShieldedPool.Proofs.Layout (worldOf)

def yul : Image := ⟨[], 0xa1#160, 0xa2#160⟩

def built : Call := ⟨0xbb#160, 0, [], 0, none, Hegota.block.publishes⟩

theorem constructed : ∃ m, Monolith.construct built (Machine.start World.blank) = .ok ((), m) := ⟨_, rfl⟩

theorem tame_called {c : Call} {result : Except Bytes Reply} (data : c.data.length < 2 ^ 256) (number : c.number.toNat < 2 ^ 64)
    (selects : wordAt c.data 0 >>> 224 ≠ Reference.poolSenderSelector) : Tame (.called c result) := by
  intro c result same
  cases same
  exact ⟨data, number, fun reads => selects reads.2⟩

theorem tame_shown {o : Observation} (member : o ∈ shown) : Tame o := by
  rw [shown, script, if_pos rfl] at member
  simp only [List.cons_append, List.nil_append, List.mem_cons, List.not_mem_nil, or_false] at member
  have other {shown : Observation} (quiet : ∀ c result, shown ≠ .called c result) : Tame shown :=
    fun c result called => absurd called (quiet c result)
  rcases member with rfl | rfl | rfl | rfl | rfl | rfl | rfl
  · exact tame_called (by decide) (by decide) (by decide)
  · exact other fun _ _ => Observation.noConfusion
  · exact other fun _ _ => Observation.noConfusion
  · have short : settlement.data.length < 2 ^ 64 := withdrawalJob.frame.short
    exact tame_called (short.trans (by decide)) (by decide) (by decide)
  · exact other fun _ _ => Observation.noConfusion
  · exact tame_called (by decide) (by decide) (by decide)
  · exact other fun _ _ => Observation.noConfusion

theorem usual_of_redact {shown shown' : Observation} (same : shown.redact silent = shown'.redact silent) (usual : Usual shown') : Usual shown := by
  by_cases authorized : ∃ frame result, shown = .authorized frame result
  · obtain ⟨frame, result, rfl⟩ := authorized
    exact usual_other trivial (fun _ => Observation.noConfusion) fun _ _ => Observation.noConfusion
  · rw [eq_of_redact same fun frame result shows => authorized ⟨frame, result, shows⟩]
    exact usual

/-- What an entry of the Yul pool's run is like. -/
structure Ordinary (e : Entry World) : Prop where
  usual : Usual e.shown
  tame : Tame e.shown
  grown : e.reached.chain.pool.logs.filterMap leafIn <+: [leaf.getD 0 0, change, leaf.getD 1 0]

/-- The deposit, the withdrawal and its payout on the Yul pool. -/
theorem pictures : ∃ history last, Run (monolithNetwork deployment yul Hegota.outside) (monolithLaunch (worldOf genesis) fun _ => 10 ^ 18) history last ∧
    (∀ e ∈ history, Ordinary e) ∧ Proved deployment history withdrawalJob.tx ∧ last.chain.eth 0xcc = 1050000000000000000 := by
  obtain ⟨mirrored, reached, run, paid, recorded⟩ := paid
  have listed (e : Entry State) (member : e ∈ mirrored) : e.shown ∈ shown := recorded ▸ List.mem_map_of_mem member
  have usual (e : Entry State) (member : e ∈ mirrored) : Usual e.shown := usual_shown (listed e member)
  have words (a : Address) : 10 ^ 18 < 2 ^ 256 := by decide
  obtain ⟨-, visited⟩ := leaves_of_run run fun e member => (usual e member).forward
  rcases pictures_of_run yul hashes words run (fun e member => tame_shown (listed e member)) (extracts usual) with
    ⟨before, after, rfl, broken⟩ | ⟨history, again, pictured⟩
  · refine absurd broken (not_broken_of_usual (fun e member => usual e (List.mem_append_left _ member)) List.mem_cons_self fun e member => ?_)
    exact paid.leaves ▸ visited e (List.mem_append_left _ member)
  refine ⟨history, _, again, fun shadow member => ?_, ?_, paid.balance⟩
  · obtain ⟨e, inside, shows⟩ := pictured.mirror member
    refine ⟨usual_of_redact shows.shown.symm (usual e inside), tame_of_redact shows.shown.symm (tame_shown (listed e inside)), ?_⟩
    rw [leaves_of_shows shows, ← paid.leaves]
    exact visited e inside
  · apply proved_of_pictured pictured
    apply proved
    rw [recorded]
    exact List.mem_cons_of_mem _ List.mem_cons_self

theorem not_broken_of_pictured {mirrored : List (Entry State)} {history : List (Entry World)} (pictured : Pictured mirrored history)
    (ordinary : ∀ e ∈ history, Ordinary e) : ¬ Broken poseidon (runQueries poseidon assignment deployment mirrored) := by
  refine not_broken_of_usual (fun e member => ?_) List.mem_cons_self fun e member => ?_
  · obtain ⟨shadow, inside, shows⟩ := related_of_mem pictured member
    exact usual_of_redact shows.shown (ordinary shadow inside).usual
  · obtain ⟨shadow, inside, shows⟩ := related_of_mem pictured member
    exact leaves_of_shows shows ▸ (ordinary shadow inside).grown

end ShieldedPool.Proofs.TwoSpends

namespace ShieldedPool.Proofs
open Evm Yul Circuit Wallet.TwoSpends
open ShieldedPool.Monolith (World)
open ShieldedPool.Proofs.Layout (worldOf)

/-- The Yul pool's run mirrored, with the change at what it was made with. -/
theorem standalone_refines_dispatcher_twoSpends :
    ∃ m history last mirrored reached, Monolith.construct TwoSpends.built (Machine.start World.blank) = .ok ((), m) ∧
      Run (monolithNetwork TwoSpends.deployment TwoSpends.yul Hegota.outside) (monolithLaunch m.world fun _ => 10 ^ 18) history last ∧
      last.chain.eth 0xcc = 1050000000000000000 ∧
      Run (dispatcherNetwork TwoSpends.deployment Hegota.image Hegota.outside) TwoSpends.start mirrored reached ∧
      Pictured mirrored history ∧ reached.map worldOf = last ∧ ∃ value : Word → Nat, value change = 10000000000000000 ∧
        total (fun a => last.chain.pool.storage (.map 24 a.word)) + total (fun a => last.chain.pool.storage (.map 25 a.word)) +
          unspent poseidon TwoSpends.assignment value reached.chain ≤ last.chain.eth Hegota.address := by
  obtain ⟨m, constructed⟩ := TwoSpends.constructed
  obtain ⟨history, last, run, ordinary, proved, balance⟩ := TwoSpends.pictures
  rw [← world_of_construct constructed] at run
  obtain ⟨mirrored, reached, again, ⟨⟨before, after, rfl, pictured⟩, broken⟩ | ⟨pictured, same, value, fixed, covered⟩⟩ :=
    standalone_refines_dispatcher Hegota.image TwoSpends.hashes constructed (fun _ => by decide) run (fun e member => (ordinary e member).tame)
      (TwoSpends.extracts fun e member => (ordinary e member).usual)
  · exact absurd broken (TwoSpends.not_broken_of_pictured pictured fun e member => ordinary e (List.mem_append_left _ member))
  obtain ⟨verified, shadow, inside, begun⟩ := proved
  obtain ⟨e, member, shows⟩ := pictured.mirror inside
  have begins : Proved TwoSpends.deployment mirrored TwoSpends.withdrawalJob.tx :=
    ⟨verified, e, member, begun_of_redact shows.shown.symm begun⟩
  exact ⟨m, history, last, mirrored, reached, constructed, run, balance, again, pictured, same, value,
    TwoSpends.value_change begins fixed, covered⟩

theorem standalone_follows_dispatcher_twoSpends :
    ∃ m history last pictures, Monolith.construct TwoSpends.built (Machine.start World.blank) = .ok ((), m) ∧
      Run (dispatcherNetwork TwoSpends.deployment Hegota.image Hegota.outside) TwoSpends.start history last ∧
      history.map Entry.shown = TwoSpends.shown ∧
      Run (monolithNetwork TwoSpends.deployment TwoSpends.yul Hegota.outside) (monolithLaunch m.world fun _ => 10 ^ 18) pictures
        (last.map worldOf) ∧
      Pictured history pictures := by
  obtain ⟨m, constructed⟩ := TwoSpends.constructed
  obtain ⟨history, last, run, paid, shown⟩ := TwoSpends.paid
  have listed (e : Entry State) (member : e ∈ history) : e.shown ∈ TwoSpends.shown := shown ▸ List.mem_map_of_mem member
  have usual (e : Entry State) (member : e ∈ history) : TwoSpends.Usual e.shown := TwoSpends.usual_shown (listed e member)
  obtain ⟨-, visited⟩ := leaves_of_run run fun e member => (usual e member).forward
  rcases standalone_follows_dispatcher TwoSpends.yul TwoSpends.hashes constructed (fun _ => by decide) run
    (fun e member => TwoSpends.tame_shown (listed e member)) (TwoSpends.extracts usual) with
    ⟨before, after, rfl, broken⟩ | ⟨pictures, again, pictured⟩
  · refine absurd broken (TwoSpends.not_broken_of_usual (fun e member => usual e (List.mem_append_left _ member)) List.mem_cons_self fun e member => ?_)
    exact paid.leaves ▸ visited e (List.mem_append_left _ member)
  · exact ⟨m, history, last, pictures, constructed, run, shown, again, pictured⟩

end ShieldedPool.Proofs
