import ShieldedPool.Evm.Word

/-! Stateful execution that returns or reverts with data, and the simulation
between two such programs. A revert discards the state, so the two programs must
agree on the revert data and keep their states related only when they return. -/

namespace Evm

abbrev Exec (σ α : Type) := StateT σ (Except Bytes) α

namespace Exec
variable {σ τ α β γ δ : Type}

def revert (data : Bytes) : Exec σ α := fun _ => .error data

def revertIf (condition : Prop) [Decidable condition] (data : Bytes) : Exec σ Unit :=
  if condition then revert data else pure ()

/-- A conditional step of a program. -/
def when (condition : Prop) [Decidable condition] (x : Exec σ Unit) : Exec σ Unit := if condition then x else pure ()

/-- Read part of the state. -/
def read (f : σ → α) : Exec σ α := fun s => .ok (f s, s)

def update (f : σ → σ) : Exec σ Unit := fun s => .ok ((), f s)

@[simp] theorem pure_apply (a : α) (s : σ) : (pure a : Exec σ α) s = .ok (a, s) := rfl

@[simp] theorem revert_apply (data : Bytes) (s : σ) : (revert data : Exec σ α) s = .error data := rfl

@[simp] theorem read_apply (f : σ → α) (s : σ) : read f s = .ok (f s, s) := rfl

@[simp] theorem update_apply (f : σ → σ) (s : σ) : update f s = .ok ((), f s) := rfl

theorem bind_apply (x : Exec σ α) (f : α → Exec σ β) (s : σ) :
    (x >>= f) s = match x s with
      | .ok (a, t) => f a t
      | .error data => .error data := by
  change (x s >>= fun p => f p.1 p.2) = _
  cases x s <;> rfl

@[simp] theorem bind_ok {x : Exec σ α} {f : α → Exec σ β} {s t : σ} {a : α} (returned : x s = .ok (a, t)) :
    (x >>= f) s = f a t := by
  rw [bind_apply, returned]

theorem bind_error {x : Exec σ α} {f : α → Exec σ β} {s : σ} {data : Bytes} (reverted : x s = .error data) :
    (x >>= f) s = .error data := by
  rw [bind_apply, reverted]

/-- The only way a sequence returns is that both of its parts do. -/
theorem bind_eq_ok {x : Exec σ α} {f : α → Exec σ β} {s u : σ} {b : β} :
    (x >>= f) s = .ok (b, u) ↔ ∃ a t, x s = .ok (a, t) ∧ f a t = .ok (b, u) := by
  rw [bind_apply]
  constructor
  · intro returned
    cases first : x s with
    | error data => rw [first] at returned; cases returned
    | ok pair => rw [first] at returned; exact ⟨pair.1, pair.2, rfl, returned⟩
  · rintro ⟨a, t, first, rest⟩
    rw [first]
    exact rest

theorem bind_eq_error {x : Exec σ α} {f : α → Exec σ β} {s : σ} {data : Bytes} :
    (x >>= f) s = .error data ↔ x s = .error data ∨ ∃ a t, x s = .ok (a, t) ∧ f a t = .error data := by
  rw [bind_apply]
  cases first : x s with
  | error other => simp
  | ok pair => exact ⟨fun late => .inr ⟨pair.1, pair.2, rfl, late⟩, fun | .inr ⟨_, _, rfl, late⟩ => late⟩

@[simp] theorem revertIf_pos {condition : Prop} [Decidable condition] (holds : condition) (data : Bytes) (s : σ) :
    revertIf condition data s = .error data := by
  rw [revertIf, if_pos holds]; rfl

@[simp] theorem revertIf_neg {condition : Prop} [Decidable condition] (fails : ¬ condition) (data : Bytes) (s : σ) :
    revertIf condition data s = .ok ((), s) := by
  rw [revertIf, if_neg fails]; rfl

theorem revertIf_eq_ok {condition : Prop} [Decidable condition] {data : Bytes} {s t : σ} :
    revertIf condition data s = .ok ((), t) ↔ ¬ condition ∧ t = s := by
  by_cases holds : condition
  · simp [holds]
  · simp [holds, eq_comm]

/-- A guard in front of a program: the guard fails, or the program runs. -/
theorem revertIf_bind (condition : Prop) [Decidable condition] (data : Bytes) (rest : Unit → Exec σ α) (s : σ) :
    (revertIf condition data >>= rest) s = if condition then .error data else rest () s := by
  by_cases holds : condition
  · rw [if_pos holds, bind_error (revertIf_pos holds data s)]
  · rw [if_neg holds, bind_ok (revertIf_neg holds data s)]

@[simp] theorem read_bind (f : σ → α) (rest : α → Exec σ β) (s : σ) : (read f >>= rest) s = rest (f s) s := rfl

@[simp] theorem update_bind (f : σ → σ) (rest : Unit → Exec σ β) (s : σ) :
    (update f >>= rest) s = rest () (f s) := rfl

@[simp] theorem revert_bind (data : Bytes) (rest : α → Exec σ β) : (revert data >>= rest) = revert data := rfl

/-- The program never reverts with this data. -/
def Spares (data : Bytes) (x : Exec σ α) : Prop := ∀ s, x s ≠ .error data

namespace Spares
variable {data : Bytes}

theorem pure (a : α) : Spares data (Pure.pure a : Exec σ α) := fun _ => nofun

theorem read (f : σ → α) : Spares data (Exec.read f) := fun _ => nofun

theorem update (f : σ → σ) : Spares data (Exec.update f) := fun _ => nofun

theorem bind {x : Exec σ α} {f : α → Exec σ β} (first : Spares data x) (rest : ∀ a, Spares data (f a)) : Spares data (x >>= f) := by
  intro s threw
  rcases bind_eq_error.mp threw with early | ⟨a, t, -, late⟩
  · exact first s early
  · exact rest a t late

theorem revertIf {condition : Prop} [Decidable condition] {other : Bytes} (differs : other ≠ data) :
    Spares data (Exec.revertIf condition other : Exec σ Unit) := by
  intro s threw
  by_cases holds : condition
  · rw [revertIf_pos holds] at threw
    exact differs (Except.error.inj threw)
  · rw [revertIf_neg holds] at threw
    cases threw

/-- A check in front of a program. -/
theorem guard {condition : Prop} [Decidable condition] {other : Bytes} {x : Exec σ α} (differs : other ≠ data) (rest : Spares data x) :
    Spares data (Exec.revertIf condition other >>= fun _ => x) :=
  bind (revertIf differs) fun _ => rest

end Spares

/-- What two runs from related states must agree on. Where the second one gives up with an
`excused` error, the first is free. -/
def Agree (excused : Bytes → Prop) (states : σ → τ → Prop) (values : α → β → Prop) :
    Except Bytes (α × σ) → Except Bytes (β × τ) → Prop
  | .ok (a, s), .ok (b, t) => values a b ∧ states s t
  | .error first, .error second => first = second ∨ excused second
  | .ok _, .error second => excused second
  | .error _, .ok _ => False

def Simulates (excused : Bytes → Prop) (states : σ → τ → Prop) (values : α → β → Prop) (x : Exec σ α) (y : Exec τ β) : Prop :=
  ∀ s t, states s t → Agree excused states values (x s) (y t)

/-- The program returns `value`, touching nothing but what `scratch` allows. -/
def Computes (scratch : σ → σ → Prop) (x : Exec σ α) (value : α) : Prop :=
  ∀ s, ∃ t, x s = .ok (value, t) ∧ scratch s t

theorem Computes.pure {scratch : σ → σ → Prop} (same : ∀ s, scratch s s) (value : α) :
    Computes scratch (Pure.pure value : Exec σ α) value :=
  fun s => ⟨s, rfl, same s⟩

theorem Computes.update {scratch : σ → σ → Prop} {f : σ → σ} (allowed : ∀ s, scratch s (f s)) :
    Computes scratch (Exec.update f) () :=
  fun s => ⟨f s, rfl, allowed s⟩

theorem Computes.bind {scratch : σ → σ → Prop} (compose : ∀ s t u, scratch s t → scratch t u → scratch s u) {x : Exec σ α}
    {f : α → Exec σ β} {a : α} {b : β} (first : Computes scratch x a) (rest : Computes scratch (f a) b) :
    Computes scratch (x >>= f) b := by
  intro s
  obtain ⟨t, before, touched⟩ := first s
  obtain ⟨u, after, later⟩ := rest t
  exact ⟨u, (bind_ok before).trans after, compose s t u touched later⟩

namespace Simulates
variable {excused : Bytes → Prop} {states : σ → τ → Prop}

theorem pure {values : α → β → Prop} {a : α} {b : β} (related : values a b) :
    Simulates excused states values (Pure.pure a) (Pure.pure b) :=
  fun _ _ kept => ⟨related, kept⟩

theorem revert {values : α → β → Prop} (data : Bytes) :
    Simulates excused states values (Exec.revert data) (Exec.revert data) :=
  fun _ _ _ => .inl rfl

/-- An excused end needs nothing of the other program. -/
theorem excuse {values : α → β → Prop} {data : Bytes} (excuses : excused data) (result : Except Bytes (α × σ)) :
    Agree excused states values result (.error data) := by
  cases result with
  | error first => exact .inr excuses
  | ok pair => exact excuses

theorem bind {values : α → β → Prop} {results : γ → δ → Prop} {x : Exec σ α} {y : Exec τ β}
    {f : α → Exec σ γ} {g : β → Exec τ δ} (first : Simulates excused states values x y)
    (rest : ∀ a b, values a b → Simulates excused states results (f a) (g b)) :
    Simulates excused states results (x >>= f) (y >>= g) := by
  intro s t kept
  have agreed := first s t kept
  rw [bind_apply y]
  cases right : y t with
  | error other =>
    rw [right] at agreed
    cases left : x s with
    | error data =>
      rw [left] at agreed
      rw [bind_error left]
      exact agreed
    | ok pair =>
      rw [left] at agreed
      exact excuse agreed _
  | ok other =>
    rw [right] at agreed
    cases left : x s with
    | error data => rw [left] at agreed; exact agreed.elim
    | ok pair =>
      rw [left] at agreed
      rw [bind_ok left]
      exact rest _ _ agreed.1 _ _ agreed.2

theorem read {values : α → β → Prop} {f : σ → α} {g : τ → β}
    (related : ∀ s t, states s t → values (f s) (g t)) :
    Simulates excused states values (Exec.read f) (Exec.read g) :=
  fun s t kept => ⟨related s t kept, kept⟩

theorem revertIf {first second : Prop} [Decidable first] [Decidable second] (same : first ↔ second) (data : Bytes) :
    Simulates excused states (fun _ _ => True) (Exec.revertIf first data) (Exec.revertIf second data) := by
  intro s t kept
  by_cases holds : first
  · rw [revertIf_pos holds, revertIf_pos (same.mp holds)]
    exact .inl rfl
  · rw [revertIf_neg holds, revertIf_neg (fun other => holds (same.mpr other))]
    exact ⟨trivial, kept⟩

/-- A check in front of two programs, which may rely on it. -/
theorem guard {values : α → β → Prop} {first second : Prop} [Decidable first] [Decidable second] {x : Exec σ α} {y : Exec τ β}
    {data : Bytes} (same : first ↔ second) (rest : ¬ second → Simulates excused states values x y) :
    Simulates excused states values (Exec.revertIf first data >>= fun _ => x) (Exec.revertIf second data >>= fun _ => y) := by
  intro s t kept
  rw [revertIf_bind, revertIf_bind]
  by_cases holds : second
  · rw [if_pos holds, if_pos (same.mpr holds)]
    exact .inl rfl
  · rw [if_neg holds, if_neg fun other => holds (same.mp other)]
    exact rest holds s t kept

theorem ite {values : α → β → Prop} {first second : Prop} [Decidable first] [Decidable second]
    {x x' : Exec σ α} {y y' : Exec τ β} (same : first ↔ second)
    (yes : second → Simulates excused states values x y) (no : ¬ second → Simulates excused states values x' y') :
    Simulates excused states values (if first then x else x') (if second then y else y') := by
  by_cases holds : second
  · rw [if_pos holds, if_pos (same.mpr holds)]
    exact yes holds
  · rw [if_neg holds, if_neg (fun other => holds (same.mp other))]
    exact no holds

/-- A computation on scratch state alone is invisible to the other program. -/
theorem left {scratch : σ → σ → Prop} {results : β → γ → Prop} {x : Exec σ α} {value : α} {f : α → Exec σ β} {y : Exec τ γ}
    (frame : ∀ s s' t, scratch s s' → states s t → states s' t) (computed : Computes scratch x value)
    (rest : Simulates excused states results (f value) y) : Simulates excused states results (x >>= f) y := by
  intro s t kept
  obtain ⟨s', returned, touched⟩ := computed s
  rw [bind_ok returned]
  exact rest s' t (frame s s' t touched kept)

/-- A step of the first program that the second one makes at once. -/
theorem perform {step : σ → σ → Prop} {results : β → δ → Prop} {x : Exec σ α} {value : α} {f : α → Exec σ β} {g : τ → τ}
    {y : Unit → Exec τ δ} (frame : ∀ s s' t, step s s' → states s t → states s' (g t)) (computed : Computes step x value)
    (rest : Simulates excused states results (f value) (y ())) :
    Simulates excused states results (x >>= f) (Exec.update g >>= y) := by
  intro s t kept
  obtain ⟨s', returned, touched⟩ := computed s
  rw [bind_ok returned, update_bind]
  exact rest s' (g t) (frame s s' t touched kept)

end Simulates

/-- The values a program can return, whatever state it starts in. -/
structure Returns (x : Exec σ α) (result : α → Prop) : Prop where
  iff : ∀ s a, (∃ t, x s = .ok (a, t)) ↔ result a

namespace Returns

theorem congr {x : Exec σ α} {result other : α → Prop} (returns : Returns x result) (same : ∀ a, result a ↔ other a) :
    Returns x other :=
  ⟨fun s a => (returns.iff s a).trans (same a)⟩

theorem pure (value : α) : Returns (Pure.pure value : Exec σ α) fun a => a = value := by
  refine ⟨fun s a => ?_⟩
  constructor
  · rintro ⟨t, returned⟩
    cases returned
    rfl
  · rintro rfl
    exact ⟨s, rfl⟩

theorem revert (data : Bytes) : Returns (Exec.revert data : Exec σ α) fun _ => False := by
  refine ⟨fun s a => ?_⟩
  constructor
  · rintro ⟨t, returned⟩
    cases returned
  · exact False.elim

theorem revertIf (condition : Prop) [Decidable condition] (data : Bytes) :
    Returns (Exec.revertIf condition data : Exec σ Unit) fun _ => ¬ condition := by
  refine ⟨fun s _ => ?_⟩
  constructor
  · rintro ⟨t, returned⟩
    exact (revertIf_eq_ok.mp returned).1
  · intro fails
    exact ⟨s, revertIf_neg fails data s⟩

theorem bind {x : Exec σ α} {f : α → Exec σ β} {result : α → Prop} {results : α → β → Prop} (first : Returns x result)
    (rest : ∀ a, Returns (f a) (results a)) : Returns (x >>= f) fun b => ∃ a, result a ∧ results a b := by
  refine ⟨fun s b => ?_⟩
  constructor
  · rintro ⟨u, returned⟩
    obtain ⟨a, t, before, after⟩ := bind_eq_ok.mp returned
    exact ⟨a, (first.iff s a).mp ⟨t, before⟩, ((rest a).iff t b).mp ⟨u, after⟩⟩
  · rintro ⟨a, allowed, last⟩
    obtain ⟨t, before⟩ := (first.iff s a).mpr allowed
    obtain ⟨u, after⟩ := ((rest a).iff t b).mpr last
    exact ⟨u, bind_eq_ok.mpr ⟨a, t, before, after⟩⟩

/-- A check in front of a program. -/
theorem guard {x : Exec σ Unit} {y : Exec σ β} {condition : Prop} {r : β → Prop}
    (first : Returns x fun _ => condition) (rest : Returns y r) :
    Returns (x >>= fun _ => y) fun b => condition ∧ r b :=
  (first.bind fun _ => rest).congr fun _ => ⟨fun ⟨_, checked, last⟩ => ⟨checked, last⟩, fun ⟨checked, last⟩ => ⟨(), checked, last⟩⟩

/-- A computation whose value is known. -/
theorem value {x : Exec σ α} {f : α → Exec σ β} {known : α} {result : β → Prop} (first : Returns x fun a => a = known)
    (rest : Returns (f known) result) : Returns (x >>= f) result := by
  refine ⟨fun s b => ?_⟩
  constructor
  · rintro ⟨u, returned⟩
    obtain ⟨a, t, before, after⟩ := bind_eq_ok.mp returned
    obtain rfl := (first.iff s a).mp ⟨t, before⟩
    exact (rest.iff t b).mp ⟨u, after⟩
  · intro allowed
    obtain ⟨t, before⟩ := (first.iff s known).mpr rfl
    obtain ⟨u, after⟩ := (rest.iff t b).mpr allowed
    exact ⟨u, bind_eq_ok.mpr ⟨known, t, before, after⟩⟩

theorem ite {condition : Prop} [Decidable condition] {x y : Exec σ α} {yes no : α → Prop} (first : Returns x yes)
    (second : Returns y no) : Returns (if condition then x else y) fun a => if condition then yes a else no a := by
  by_cases holds : condition
  · simpa only [if_pos holds] using first
  · simpa only [if_neg holds] using second

end Returns

/-- The program returns or reverts as `verdict` says, whatever state it starts in. -/
structure Decides (x : Exec σ α) (verdict : Except Bytes α) : Prop where
  run : ∀ s, (x s).map Prod.fst = verdict

/-- A check: an error with the given data, or nothing. -/
def reject (condition : Prop) [Decidable condition] (data : Bytes) : Except Bytes Unit :=
  if condition then .error data else .ok ()

theorem reject_congr {p q : Prop} [Decidable p] [Decidable q] (same : p ↔ q) (data : Bytes) : reject p data = reject q data := by
  simp only [reject, same]

theorem reject_pos {p : Prop} [Decidable p] (holds : p) (data : Bytes) (rest : Unit → Except Bytes α) :
    (reject p data >>= rest) = .error data := by
  rw [reject, if_pos holds]
  rfl

theorem reject_neg {p : Prop} [Decidable p] (fails : ¬ p) (data : Bytes) (rest : Unit → Except Bytes α) :
    (reject p data >>= rest) = rest () := by
  rw [reject, if_neg fails]
  rfl

theorem reject_bind_ok {p : Prop} [Decidable p] {data : Bytes} {rest : Unit → Except Bytes α} {a : α} :
    (reject p data >>= rest) = .ok a ↔ ¬ p ∧ rest () = .ok a := by
  by_cases holds : p
  · rw [reject_pos holds]
    exact iff_of_false nofun fun both => both.1 holds
  · rw [reject_neg holds]
    exact (and_iff_right holds).symm

/-- Two checks with one error are one check. -/
theorem reject_or (p q : Prop) [Decidable p] [Decidable q] (data : Bytes) (rest : Unit → Except Bytes α) :
    (reject p data >>= fun _ => reject q data >>= rest) = reject (p ∨ q) data >>= rest := by
  by_cases first : p
  · rw [reject_pos first, reject_pos (Or.inl first)]
  · rw [reject_neg first, reject_congr (or_iff_right first).symm]

theorem reject_or_last (p q : Prop) [Decidable p] [Decidable q] (data : Bytes) :
    (reject p data >>= fun _ => reject q data) = reject (p ∨ q) data := by
  by_cases first : p
  · rw [reject_pos first, reject, if_pos (Or.inl first)]
  · rw [reject_neg first, reject_congr (or_iff_right first).symm]

/-- Two checks are one whose error depends on which of them fails. -/
theorem reject_orElse (p q : Prop) [Decidable p] [Decidable q] (first second : Bytes) :
    (reject p first >>= fun _ => reject q second) = reject (p ∨ q) (if p then first else second) := by
  by_cases fails : p
  · rw [reject_pos fails, if_pos fails, reject, if_pos (Or.inl fails)]
  · rw [reject_neg fails, if_neg fails, reject_congr (or_iff_right fails).symm]

namespace Decides

theorem pure (value : α) : Decides (Pure.pure value : Exec σ α) (.ok value) := ⟨fun _ => rfl⟩

theorem update (f : σ → σ) : Decides (Exec.update f) (.ok ()) := ⟨fun _ => rfl⟩

theorem revert (data : Bytes) : Decides (Exec.revert data : Exec σ α) (.error data) := ⟨fun _ => rfl⟩

theorem revertIf (condition : Prop) [Decidable condition] (data : Bytes) :
    Decides (Exec.revertIf condition data : Exec σ Unit) (reject condition data) := by
  refine ⟨fun s => ?_⟩
  by_cases holds : condition
  · rw [revertIf_pos holds, reject, if_pos holds]
    rfl
  · rw [revertIf_neg holds, reject, if_neg holds]
    rfl

theorem bind {x : Exec σ α} {f : α → Exec σ β} {verdict : Except Bytes α} {verdicts : α → Except Bytes β}
    (first : Decides x verdict) (rest : ∀ a, Decides (f a) (verdicts a)) : Decides (x >>= f) (verdict >>= verdicts) := by
  refine ⟨fun s => ?_⟩
  have begun := first.run s
  rw [bind_apply]
  cases ran : x s with
  | error data =>
    rw [ran] at begun
    rw [← begun]
    rfl
  | ok pair =>
    rw [ran] at begun
    rw [← begun]
    exact (rest pair.1).run pair.2

/-- A check in front of a program. -/
theorem guard {x : Exec σ Unit} {y : Exec σ β} {check : Except Bytes Unit} {verdict : Except Bytes β} (first : Decides x check)
    (rest : Decides y verdict) : Decides (x >>= fun _ => y) (check >>= fun _ => verdict) := first.bind fun _ => rest

/-- The rest only has to be known where the check passes. -/
theorem guard_of {x : Exec σ Unit} {y : Exec σ β} {check : Except Bytes Unit} {verdict : Except Bytes β} (first : Decides x check)
    (rest : check = .ok () → Decides y verdict) : Decides (x >>= fun _ => y) (check >>= fun _ => verdict) := by
  cases check with
  | ok _ => exact first.guard (rest rfl)
  | error data =>
    refine ⟨fun s => ?_⟩
    have begun := first.run s
    rw [bind_apply]
    cases ran : x s with
    | error other =>
      rw [ran] at begun
      cases begun
      rfl
    | ok pair =>
      rw [ran] at begun
      cases begun

/-- A program that reverts decides everything that begins with it. -/
theorem stops {x : Exec σ α} {f : α → Exec σ β} {data : Bytes} (first : Decides x (.error data)) (s : σ) : (x >>= f) s = .error data := by
  have begun := first.run s
  rw [bind_apply]
  cases ran : x s with
  | error other =>
    rw [ran] at begun
    cases begun
    rfl
  | ok pair =>
    rw [ran] at begun
    cases begun

theorem fails {x : Exec σ α} {f : α → Exec σ β} {data : Bytes} (first : Decides x (.error data)) : Decides (x >>= f) (.error data) := by
  refine ⟨fun s => ?_⟩
  rw [first.stops s]
  rfl

/-- A computation whose value is known. -/
theorem value {x : Exec σ α} {f : α → Exec σ β} {known : α} {verdict : Except Bytes β} (first : Decides x (.ok known))
    (rest : Decides (f known) verdict) : Decides (x >>= f) verdict := by
  refine ⟨fun s => ?_⟩
  have begun := first.run s
  rw [bind_apply]
  cases ran : x s with
  | error data =>
    rw [ran] at begun
    cases begun
  | ok pair =>
    rw [ran] at begun
    obtain rfl : pair.1 = known := Except.ok.inj begun
    exact rest.run pair.2

theorem of_returns {x : Exec σ α} {known : α} (returns : Returns x fun a => a = known) : Decides x (.ok known) := by
  refine ⟨fun s => ?_⟩
  obtain ⟨t, returned⟩ := (returns.iff s known).mpr rfl
  rw [returned]
  rfl

theorem returns_iff {x : Exec σ α} {verdict : Except Bytes α} (decides : Decides x verdict) (s : σ) (a : α) :
    (∃ t, x s = .ok (a, t)) ↔ verdict = .ok a := by
  rw [← decides.run s]
  cases x s with
  | error data => exact iff_of_false nofun nofun
  | ok pair =>
    constructor
    · rintro ⟨t, same⟩
      rw [same]
      rfl
    · intro same
      obtain rfl := Except.ok.inj same
      exact ⟨pair.2, rfl⟩

theorem congr {x : Exec σ α} {verdict other : Except Bytes α} (decides : Decides x verdict) (same : verdict = other) :
    Decides x other := same ▸ decides

end Decides

end Exec

end Evm
