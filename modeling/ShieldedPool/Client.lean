import Mathlib.Logic.Basic

/-! Client programs: they put one request after another to an outside party and return or
raise. What a client does is read off the conversation it has with a sequence of answers. -/

/-- A program that asks, gets an answer, and carries on with it. -/
inductive Client (ρ β ε α : Type) where
  | done (value : α)
  | raised (error : ε)
  | ask (request : ρ) (next : β → Client ρ β ε α)

namespace Client

variable {ρ β ε α γ : Type}

def bind : Client ρ β ε α → (α → Client ρ β ε γ) → Client ρ β ε γ
  | done value, f => f value
  | raised error, _ => raised error
  | ask request next, f => ask request fun answer => (next answer).bind f

instance : Monad (Client ρ β ε) where
  pure := done
  bind := bind

def call (request : ρ) : Client ρ β ε β := ask request done

def ofExcept : Except ε α → Client ρ β ε α
  | .ok value => done value
  | .error error => raised error

instance : MonadLift (Except ε) (Client ρ β ε) := ⟨ofExcept⟩

/-- The answers left once `count` of them are used. -/
def later (answers : Nat → β) (count : Nat) : Nat → β := fun i => answers (i + count)

/-- The requests a client makes, each with the answer it got, and how it ends. -/
def talk : Client ρ β ε α → (Nat → β) → List (ρ × β) × Except ε α
  | done value, _ => ([], .ok value)
  | raised error, _ => ([], .error error)
  | ask request next, answers =>
    let rest := (next (answers 0)).talk (later answers 1)
    ((request, answers 0) :: rest.1, rest.2)

/-- Every request a client can make, whatever the answers, is of this kind. -/
def Asks (kind : ρ → Prop) (client : Client ρ β ε α) : Prop := ∀ answers, ∀ entry ∈ (client.talk answers).1, kind entry.1

variable {answers : Nat → β} {kind : ρ → Prop}

@[simp] theorem later_zero (answers : Nat → β) : later answers 0 = answers := rfl

theorem later_later (answers : Nat → β) (first second : Nat) :
    later (later answers first) second = later answers (second + first) := by
  funext i
  simp only [later, Nat.add_assoc]

@[simp] theorem talk_pure (value : α) : (pure value : Client ρ β ε α).talk answers = ([], .ok value) := rfl

@[simp] theorem talk_raised (error : ε) : (raised error : Client ρ β ε α).talk answers = ([], .error error) := rfl

theorem ask_bind (request : ρ) (next : β → Client ρ β ε α) (f : α → Client ρ β ε γ) :
    ask request next >>= f = ask request fun answer => next answer >>= f := rfl

theorem bind_done (client : Client ρ β ε α) : client.bind done = client := by
  induction client with
  | done | raised => rfl
  | ask request next ih => exact congrArg (ask request) (funext ih)

theorem bind_bind {δ : Type} (client : Client ρ β ε α) (f : α → Client ρ β ε γ) (g : γ → Client ρ β ε δ) :
    (client.bind f).bind g = client.bind fun value => (f value).bind g := by
  induction client with
  | done | raised => rfl
  | ask request next ih => exact congrArg (ask request) (funext ih)

instance : LawfulMonad (Client ρ β ε) := .mk' _ bind_done (fun _ _ => rfl) bind_bind

/-- A client that raised never gets to what follows it. -/
theorem talk_bind_error {client : Client ρ β ε α} {log : List (ρ × β)} {error : ε} (f : α → Client ρ β ε γ)
    (ended : client.talk answers = (log, .error error)) : (client >>= f).talk answers = (log, .error error) := by
  induction client generalizing answers log with
  | done value => cases ended
  | raised same =>
    cases ended
    rfl
  | ask request next ih =>
    cases rest : (next (answers 0)).talk (later answers 1) with
    | mk tail out =>
      rw [talk, rest] at ended
      cases ended
      rw [ask_bind, talk, ih (answers 0) rest]

/-- After a client that returned, the rest goes on with the answers that are left. -/
theorem talk_bind_ok {client : Client ρ β ε α} {log : List (ρ × β)} {value : α} (f : α → Client ρ β ε γ)
    (ended : client.talk answers = (log, .ok value)) :
    (client >>= f).talk answers =
      (log ++ ((f value).talk (later answers log.length)).1, ((f value).talk (later answers log.length)).2) := by
  induction client generalizing answers log with
  | done same =>
    cases ended
    rfl
  | raised error => cases ended
  | ask request next ih =>
    cases rest : (next (answers 0)).talk (later answers 1) with
    | mk tail out =>
      rw [talk, rest] at ended
      cases ended
      rw [ask_bind, talk, ih (answers 0) rest, later_later]
      rfl

/-- What a sequence of two clients did: the first raised, or it returned and the second followed. -/
theorem talk_bind_cases {client : Client ρ β ε α} {f : α → Client ρ β ε γ} {log : List (ρ × β)} {out : Except ε γ}
    (ended : (client >>= f).talk answers = (log, out)) :
    (∃ error, client.talk answers = (log, .error error) ∧ out = .error error) ∨
      ∃ first value rest, client.talk answers = (first, .ok value) ∧
        (f value).talk (later answers first.length) = (rest, out) ∧ log = first ++ rest := by
  cases begun : client.talk answers with
  | mk first result =>
    cases result with
    | error error =>
      rw [talk_bind_error f begun] at ended
      cases ended
      exact .inl ⟨error, rfl, rfl⟩
    | ok value =>
      rw [talk_bind_ok f begun] at ended
      cases ended
      exact .inr ⟨first, value, _, rfl, rfl, rfl⟩

theorem talk_bind_eq_ok {client : Client ρ β ε α} {f : α → Client ρ β ε γ} {log : List (ρ × β)} {value : γ} :
    (client >>= f).talk answers = (log, .ok value) ↔ ∃ first a rest, client.talk answers = (first, .ok a) ∧
      (f a).talk (later answers first.length) = (rest, .ok value) ∧ log = first ++ rest := by
  constructor
  · intro ended
    rcases talk_bind_cases ended with ⟨error, -, raised⟩ | ⟨first, a, rest, begun, followed, same⟩
    · cases raised
    · exact ⟨first, a, rest, begun, followed, same⟩
  · rintro ⟨first, a, rest, begun, followed, rfl⟩
    rw [talk_bind_ok f begun, followed]

theorem talk_ofExcept (result : Except ε α) : (ofExcept result : Client ρ β ε α).talk answers = ([], result) := by
  cases result <;> rfl

theorem talk_lift_bind_eq_ok {x : Except ε α} {f : α → Client ρ β ε γ} {log : List (ρ × β)} {value : γ} :
    ((liftM x : Client ρ β ε α) >>= f).talk answers = (log, .ok value) ↔
      ∃ a, x = .ok a ∧ (f a).talk answers = (log, .ok value) := by
  cases x with
  | error error =>
    constructor
    · intro ended
      cases ended
    · rintro ⟨a, none, -⟩
      cases none
  | ok a =>
    constructor
    · intro ended
      exact ⟨a, rfl, ended⟩
    · rintro ⟨_, same, ended⟩
      cases same
      exact ended

/-- The client returns this value once it has this many answers. -/
def Yields (client : Client ρ β ε α) (answers : Nat → β) (count : Nat) (value : α) : Prop :=
  ∃ log, client.talk answers = (log, .ok value) ∧ log.length = count

theorem Yields.pure (value : α) : Yields (Pure.pure value : Client ρ β ε α) answers 0 value := ⟨[], rfl, rfl⟩

theorem Yields.lift {x : Except ε α} {value : α} (same : x = .ok value) :
    Yields (liftM x : Client ρ β ε α) answers 0 value := by
  subst same
  exact ⟨[], rfl, rfl⟩

theorem Yields.bind {client : Client ρ β ε α} {f : α → Client ρ β ε γ} {first second : Nat} {a : α} {value : γ}
    (begun : client.Yields answers first a) (followed : (f a).Yields (later answers first) second value) :
    (client >>= f).Yields answers (first + second) value := by
  obtain ⟨log, ended, rfl⟩ := begun
  obtain ⟨rest, last, rfl⟩ := followed
  exact ⟨log ++ rest, by rw [talk_bind_ok f ended, last], List.length_append⟩

theorem Asks.pure (value : α) : Asks kind (Pure.pure value : Client ρ β ε α) := fun _ _ member => nomatch member

theorem Asks.raised (error : ε) : Asks kind (Client.raised error : Client ρ β ε α) := fun _ _ member => nomatch member

theorem Asks.ofExcept (result : Except ε α) : Asks kind (Client.ofExcept result : Client ρ β ε α) := by
  intro answers entry member
  rw [talk_ofExcept] at member
  cases member

theorem Asks.call {request : ρ} (of : kind request) : Asks kind (Client.call request : Client ρ β ε β) := by
  intro answers entry member
  obtain rfl := List.mem_singleton.mp member
  exact of

/-- What follows a client need be of the kind only for the values it can return. -/
theorem Asks.bind_returned {client : Client ρ β ε α} {f : α → Client ρ β ε γ} (first : Asks kind client)
    (rest : ∀ answers log value, client.talk answers = (log, .ok value) → Asks kind (f value)) : Asks kind (client >>= f) := by
  intro answers entry member
  cases ended : (client >>= f).talk answers with
  | mk log out =>
    rw [ended] at member
    rcases talk_bind_cases ended with ⟨error, begun, -⟩ | ⟨before, value, after, begun, followed, rfl⟩
    · exact first answers entry (begun ▸ member)
    · rcases List.mem_append.mp member with early | late
      · exact first answers entry (begun ▸ early)
      · exact rest answers before value begun _ entry (by rw [followed]; exact late)

theorem Asks.bind {client : Client ρ β ε α} {f : α → Client ρ β ε γ} (first : Asks kind client)
    (rest : ∀ value, Asks kind (f value)) : Asks kind (client >>= f) :=
  first.bind_returned fun _ _ value _ => rest value

theorem Asks.lift_bind {x : Except ε α} {f : α → Client ρ β ε γ} (rest : ∀ value, x = .ok value → Asks kind (f value)) :
    Asks kind ((liftM x : Client ρ β ε α) >>= f) := by
  cases x with
  | error error => exact Asks.raised error
  | ok value => exact rest value rfl

theorem Asks.mono {other : ρ → Prop} {client : Client ρ β ε α} (asks : Asks kind client) (weaker : ∀ r, kind r → other r) :
    Asks other client := fun answers entry member => weaker _ (asks answers entry member)

end Client
