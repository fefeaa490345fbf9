import ShieldedPool.Ledger

/-! Runs of the chain around any pool. The chains a ledger can go on from or back to come
from one another by a few changes; what these preserve holds throughout a run. -/

namespace ShieldedPool.Proofs
open Evm

variable {σ : Type} {net : Network σ}

def Pending.undo : Pending σ → Chain σ
  | .payout undo _ => undo
  | .scope undo => undo

/-- The chains a ledger can go on from, or back to while its transaction lasts. -/
inductive Kept (l : Ledger σ) : Chain σ → Prop
  | current : Kept l l.chain
  | undo {q} (member : q ∈ l.stack) : Kept l (Pending.undo q)
  | start {p ch} (tx : l.tx = some p) (started : p.start = some ch) : Kept l ch

/-- Who makes a call of the pool: an account of its own accord, or the frame that comes next. -/
inductive CalledBy (net : Network σ) (l : Ledger σ) (c : Call) : Prop
  | account (acts : net.acts c.caller) (other : c.caller ≠ net.self)
  | frame {p : Progress σ} {f : Frame} (tx : l.tx = some p) (due : p.Due f) (mode : f.mode ≠ .verify)
      (permitted : f.mode = .sender → l.chain.approved = true) (caller : c.caller = net.callerOf p.tx f)

/-- The new chains a step can lead to. -/
inductive Change (net : Network σ) (l : Ledger σ) (shown : Observation) : Chain σ → Prop
  | called {o outermost c result chain pending} (caller : CalledBy net l c)
      (called : Called net o outermost l.chain c result chain pending) (same : shown = .called c result) : Change net l shown chain
  | moved {src dst amount} (acts : net.acts src) (other : src ≠ net.self) (funds : Chain.CanMove l.chain.eth src dst amount) :
      Change net l shown { l.chain with eth := Chain.move l.chain.eth src dst amount }
  | rewarded {dst amount} (room : l.chain.eth dst + amount < 2 ^ 256) :
      Change net l shown { l.chain with eth := Function.update l.chain.eth dst (l.chain.eth dst + amount) }
  | begun (idle : l.tx = none) : Change net l shown { l.chain with approved := false, payer := none }
  | approved {p : Progress σ} {who scope ch} (tx : l.tx = some p) (inside : p.index < p.tx.frames.length)
      (effect : l.chain.approve net.self p.tx who scope = some ch)
      (authority : who ≠ net.self ∧ shown = .approved who scope ∧ (∃ data, net.approves who l.opcodes data scope) ∨
        who = net.self ∧ ∃ frame c, shown = .authorized frame (.ok scope) ∧ net.code.authorize c l.opcodes l.chain.pool = .ok scope) :
      Change net l shown ch
  | sent {p : Progress σ} {f : Frame} (tx : l.tx = some p) (due : p.Due f) (mode : f.mode = .sender)
      (permitted : l.chain.approved = true) (target : f.target ≠ net.self)
      (funds : Chain.CanMove l.chain.eth p.tx.sender f.target f.value.toNat) :
      Change net l shown { l.chain with eth := Chain.move l.chain.eth p.tx.sender f.target f.value.toNat }
  | refunded {payer refund} (room : l.chain.eth payer + refund < 2 ^ 256) :
      Change net l shown { l.chain with
        eth := Function.update l.chain.eth payer (l.chain.eth payer + refund), approved := false, payer := none }

theorem inside_of_frame {p : Progress σ} {f : Frame} (frame : p.frame = some f) : p.index < p.tx.frames.length :=
  (List.getElem?_eq_some_iff.mp frame).1

/-- A pending call goes back to the chain it was made on. -/
theorem undo_of_called {o : Opcodes} {outermost : Bool} {chain chain' : Chain σ} {c : Call} {result : Except Bytes Reply}
    {pending : List (Pending σ)} (called : Called net o outermost chain c result chain' pending) {q : Pending σ} (member : q ∈ pending) :
    Pending.undo q = chain := by
  cases called with
  | paying =>
    rw [List.mem_singleton] at member
    rw [member]
    rfl
  | _ => cases member

theorem kept_of_next {chain : Chain σ} {p : Progress σ} {ch : Chain σ} (kept : Kept ⟨chain, [], some p.next⟩ ch) : ch = chain := by
  cases kept with
  | current => rfl
  | undo member => cases member
  | start tx started =>
    cases tx
    cases started

private theorem Kept.of_tail {l : Ledger σ} {q : Pending σ} {rest : List (Pending σ)} {chain : Chain σ} {tx : Option (Progress σ)}
    {ch : Chain σ} (top : l.stack = q :: rest) (same : ∀ p u, tx = some p → p.start = some u → ∃ p', l.tx = some p' ∧ p'.start = some u)
    (kept : Kept ⟨chain, rest, tx⟩ ch) : ch = chain ∨ Kept l ch := by
  cases kept with
  | current => exact .inl rfl
  | undo member => exact .inr (.undo (by rw [top]; exact List.mem_cons_of_mem _ member))
  | start current started =>
    obtain ⟨p', before, began⟩ := same _ _ current started
    exact .inr (.start before began)

/-- Where the chains after a step come from. -/
theorem kept_of_step {l l' : Ledger σ} {shown : Observation} (step : Step net l shown l') {ch : Chain σ} (kept : Kept l' ch) :
    Kept l ch ∨ Change net l shown ch ∨ l'.tx = none ∧ ∃ p, l.tx = some p ∧ ch = p.before := by
  have finished (outermost : Bool) (p : Progress σ) (u : Chain σ)
      (current : (if outermost then l.tx.map Progress.next else l.tx) = some p) (started : p.start = some u) :
      ∃ p', l.tx = some p' ∧ p'.start = some u := by
    cases outermost with
    | true =>
      obtain ⟨p', -, rfl⟩ := Option.map_eq_some_iff.mp current
      cases started
    | false => exact ⟨p, current, started⟩
  cases step with
  | call active acts other nonempty called =>
    cases kept with
    | current => exact .inr (.inl (.called (.account acts other) called rfl))
    | undo member =>
      rcases List.mem_append.mp member with new | old
      · rw [undo_of_called called new]
        exact .inl .current
      · exact .inl (.undo old)
    | start tx started => exact .inl (.start tx started)
  | touch => exact .inl kept
  | accept top => exact .inl ((Kept.of_tail top (finished _) kept).elim (fun same => same ▸ .current) id)
  | refuse top =>
    rcases Kept.of_tail top (finished _) kept with rfl | old
    · exact .inl (.undo (q := .payout ch _) (by rw [top]; exact List.mem_cons_self))
    · exact .inl old
  | enter =>
    cases kept with
    | current => exact .inl .current
    | undo member =>
      rcases List.mem_cons.mp member with rfl | old
      · exact .inl .current
      · exact .inl (.undo old)
    | start tx started => exact .inl (.start tx started)
  | leave top =>
    exact .inl ((Kept.of_tail top (fun p u tx started => ⟨p, tx, started⟩) kept).elim (fun same => same ▸ .current) id)
  | undo top =>
    rcases Kept.of_tail top (fun p u tx started => ⟨p, tx, started⟩) kept with rfl | old
    · exact .inl (.undo (q := .scope ch) (by rw [top]; exact List.mem_cons_self))
    · exact .inl old
  | move active acts other funds =>
    cases kept with
    | current => exact .inr (.inl (.moved acts other funds))
    | undo member => exact .inl (.undo member)
    | start tx started => exact .inl (.start tx started)
  | reward room =>
    cases kept with
    | current => exact .inr (.inl (.rewarded room))
    | undo member => exact .inl (.undo member)
    | start tx started => exact .inl (.start tx started)
  | begin admissible =>
    cases kept with
    | current => exact .inr (.inl (.begun rfl))
    | undo member => cases member
    | start tx started =>
      cases tx
      cases started
  | authorize due target empty verify ran effect =>
    obtain rfl := kept_of_next kept
    exact .inr (.inl (.approved rfl (inside_of_frame due.2) effect (.inr ⟨rfl, _, _, rfl, ran⟩)))
  | unauthorized =>
    obtain rfl := kept_of_next kept
    exact .inl .current
  | @frameCall _ _ _ _ _ _ pending due target nonempty mode permitted called =>
    cases kept with
    | current => exact .inr (.inl (.called (.frame rfl due mode permitted rfl) called rfl))
    | undo member =>
      rw [undo_of_called called member]
      exact .inl .current
    | start tx started =>
      cases tx
      cases pending with
      | nil => cases started
      | cons first rest =>
        cases started
        exact .inl .current
  | frameExhausted =>
    obtain rfl := kept_of_next kept
    exact .inl .current
  | @frameStart chain p f due target permitted funds =>
    cases kept with
    | current =>
      change _ ∨ Change net _ _ (if f.mode = .sender then _ else chain) ∨ _
      by_cases sends : f.mode = .sender
      · rw [if_pos sends]
        exact .inr (.inl (.sent rfl due sends (permitted sends) target (funds sends)))
      · refine .inl ?_
        change Kept _ (if f.mode = .sender then _ else chain)
        rw [if_neg sends]
        exact .current
    | undo member => cases member
    | start tx started =>
      cases tx
      cases started
      exact .inl .current
  | approve current running target approves effect =>
    cases kept with
    | current => exact .inr (.inl (.approved current (inside_of_frame running.2) effect (.inl ⟨target, rfl, _, approves⟩)))
    | undo member => exact .inl (.undo member)
    | start tx started => exact .inl (.start tx started)
  | frameEnd =>
    obtain rfl := kept_of_next kept
    exact .inl .current
  | frameRevert running =>
    obtain rfl := kept_of_next kept
    exact .inl (.start rfl running.1)
  | abort =>
    cases kept with
    | current => exact .inr (.inr ⟨rfl, _, rfl, rfl⟩)
    | undo member => cases member
    | start tx => cases tx
  | finish complete closed paid bound room =>
    cases kept with
    | current => exact .inr (.inl (.refunded room))
    | undo member => cases member
    | start tx => cases tx

/-- A transaction stays the same until it ends, and remembers the chain it began on. -/
theorem before_of_step {l l' : Ledger σ} {shown : Observation} (step : Step net l shown l') {p' : Progress σ} (tx : l'.tx = some p') :
    (∃ p, l.tx = some p ∧ p'.tx = p.tx ∧ p'.before = p.before) ∨
      ∃ chain, l = ⟨chain, [], none⟩ ∧ Admissible net chain p'.tx ∧ shown = .begun p'.tx ∧
        l' = ⟨{ chain with approved := false, payer := none }, [], some ⟨p'.tx, 0, chain, none⟩⟩ ∧ p'.before = chain := by
  have finished {outermost : Bool} (current : (if outermost then l.tx.map Progress.next else l.tx) = some p') :
      ∃ p, l.tx = some p ∧ p'.tx = p.tx ∧ p'.before = p.before := by
    cases outermost with
    | true =>
      obtain ⟨p, same, rfl⟩ := Option.map_eq_some_iff.mp current
      exact ⟨p, same, rfl, rfl⟩
    | false => exact ⟨p', current, rfl, rfl⟩
  cases step with
  | call | touch | enter | leave | undo | move | reward | approve => exact .inl ⟨p', tx, rfl, rfl⟩
  | accept => exact .inl (finished tx)
  | refuse => exact .inl (finished tx)
  | begin admissible =>
    cases tx
    exact .inr ⟨_, rfl, admissible, rfl, rfl, rfl⟩
  | @frameCall _ _ _ _ _ _ pending =>
    cases tx
    cases pending <;> exact .inl ⟨_, rfl, rfl, rfl⟩
  | authorize | unauthorized | frameExhausted | frameStart | frameEnd | frameRevert =>
    cases tx
    exact .inl ⟨_, rfl, rfl, rfl⟩
  | abort | finish => cases tx

/-- A property of chains holds wherever a ledger can go from here. -/
def Throughout (P : Chain σ → Prop) (l : Ledger σ) : Prop :=
  (∀ ch, Kept l ch → P ch) ∧ ∀ p, l.tx = some p → P p.before

theorem Throughout.step {P : Chain σ → Prop} {l l' : Ledger σ} {shown : Observation} (kept : Throughout P l)
    (changes : ∀ ch, Change net l shown ch → P ch) (step : Step net l shown l') : Throughout P l' := by
  constructor
  · intro ch after
    rcases kept_of_step step after with old | new | ⟨-, p, tx, rfl⟩
    · exact kept.1 ch old
    · exact changes ch new
    · exact kept.2 p tx
  · intro p' tx
    rcases before_of_step step tx with ⟨p, earlier, -, same⟩ | ⟨chain, rfl, -, -, -, same⟩
    · exact same ▸ kept.2 p earlier
    · exact same ▸ kept.1 _ .current

/-- What every step preserves holds after every run. -/
theorem invariant_of_run {P : Ledger σ → Prop} {first l : Ledger σ} {history : List (Entry σ)} (run : Run net first history l)
    (start : P first) (step : ∀ l shown l', P l → Step net l shown l' → P l') : P l := by
  induction run with
  | start => exact start
  | step _ taken ih => exact step _ _ _ ih taken

/-- The step that made an entry, between the runs before and after it. -/
theorem step_of_run {first last : Ledger σ} {history before after : List (Entry σ)} {e : Entry σ} (run : Run net first history last)
    (split : history = before ++ e :: after) :
    ∃ l, Run net first before l ∧ Step net l e.shown e.reached ∧ Run net e.reached after last := by
  induction run generalizing after with
  | start => simp at split
  | @step earlier l shown reached run taken ih =>
    rcases List.eq_nil_or_concat after with rfl | ⟨rest, x, rfl⟩
    · obtain ⟨rfl, same⟩ := List.append_inj' split rfl
      cases same
      exact ⟨l, run, taken, .start⟩
    · rw [List.concat_eq_append, ← List.cons_append, ← List.append_assoc] at split
      obtain ⟨prefixed, same⟩ := List.append_inj' split rfl
      cases same
      obtain ⟨m, earlier, middle, later⟩ := ih prefixed
      exact ⟨m, earlier, middle, List.concat_eq_append ▸ later.step taken⟩

theorem run_nil {first last : Ledger σ} (run : Run net first [] last) : last = first := by
  generalize none : ([] : List (Entry σ)) = history at run
  cases run with
  | start => rfl
  | step => simp at none

theorem run_cons {first last : Ledger σ} {e : Entry σ} {rest : List (Entry σ)} (run : Run net first (e :: rest) last) :
    Step net first e.shown e.reached ∧ Run net e.reached rest last := by
  obtain ⟨l, none, step, later⟩ := step_of_run run (List.nil_append _).symm
  obtain rfl := run_nil none
  exact ⟨step, later⟩

/-- Runs from one ledger to the next make one run. -/
theorem run_append {first middle last : Ledger σ} {earlier later : List (Entry σ)} (run : Run net first earlier middle)
    (rest : Run net middle later last) : Run net first (earlier ++ later) last := by
  induction rest with
  | start => rwa [List.append_nil]
  | step _ taken ih =>
    rw [← List.append_assoc]
    exact ih.step taken

theorem run_split {first last : Ledger σ} {earlier later : List (Entry σ)} (run : Run net first (earlier ++ later) last) :
    ∃ middle, Run net first earlier middle ∧ Run net middle later last := by
  induction earlier generalizing first with
  | nil => exact ⟨first, .start, run⟩
  | cons e rest ih =>
    obtain ⟨step, onwards⟩ := run_cons run
    obtain ⟨middle, before, after⟩ := ih onwards
    have begins : Run net first [e] e.reached := Run.start.step step
    exact ⟨middle, run_append begins before, after⟩

/-- While a transaction lasts, no other begins. -/
theorem within_of_step {l l' : Ledger σ} {shown : Observation} (step : Step net l shown l') (open_ : l.tx ≠ none)
    (lasts : ¬ shown.Ends) : l'.tx ≠ none ∧ ∀ other, shown ≠ .begun other := by
  cases step with
  | begin => exact absurd rfl open_
  | abort | finish => exact absurd trivial lasts
  | @accept _ _ outermost | @refuse _ _ outermost =>
    refine ⟨?_, nofun⟩
    cases outermost with
    | true => exact fun closed => open_ (Option.map_eq_none_iff.mp closed)
    | false => exact open_
  | frameCall => exact ⟨nofun, fun _ same => by cases same⟩
  | authorize | unauthorized | frameExhausted | frameStart | frameEnd | frameRevert => exact ⟨nofun, nofun⟩
  | _ => exact ⟨open_, nofun⟩

theorem within_of_run {first l : Ledger σ} {history : List (Entry σ)} (run : Run net first history l) (open_ : first.tx ≠ none)
    (lasts : ∀ e ∈ history, ¬ e.shown.Ends) : l.tx ≠ none ∧ ∀ e ∈ history, ∀ other, e.shown ≠ .begun other := by
  induction run with
  | start => exact ⟨open_, fun e member => absurd member List.not_mem_nil⟩
  | @step history l shown l' run taken ih =>
    obtain ⟨still, none⟩ := ih fun e member => lasts e (List.mem_append_left _ member)
    have lasting : ¬ shown.Ends := lasts ⟨shown, l'⟩ (List.mem_append_right _ (List.mem_singleton_self _))
    obtain ⟨after, other⟩ := within_of_step taken still lasting
    refine ⟨after, fun e member => ?_⟩
    rcases List.mem_append.mp member with old | new
    · exact none e old
    · rw [List.mem_singleton.mp new]
      exact other

end ShieldedPool.Proofs
