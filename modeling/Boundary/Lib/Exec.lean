/-
Programs with a state and exceptions (`EStateM`), as Python runs them: the
state a failed program leaves is the state it failed in.

`attempt` is `try: ... except Exception: pass`, `onError` undoes something
on the way out of a failure, and `ensuring` is `try: ... finally: ...`.
`onCell` is a program that touches one entry of a table only; a loop over
distinct entries then acts on each by itself (`forM_onCell_ok`,
`forM_onCell_error`, `forM_attempt_onCell`). `Traced` keeps, beside the state,
the calls a program has made of the code it is given. `ReadOnly` and
`FailsClean` say which runs leave the state they started in, and `Rounds` what
each round of a loop that collects results does (`mapM_rounds`).
-/
import Boundary.Lib.Runs
import Mathlib.Logic.Function.Basic
import Mathlib.Data.List.Nodup

namespace Exec

variable {ε σ τ α β : Type}

/-! ## Exceptions -/

/-- The state a program leaves, however it ends. -/
def after (x : EStateM ε σ α) (s : σ) : σ :=
  match x s with
  | .ok _ s' => s'
  | .error _ s' => s'

/-- Run, and let an exception go. -/
def attempt (x : EStateM ε σ α) : EStateM ε σ Unit := fun s => .ok () (after x s)

/-- Run; on an exception run `undo` and let the exception go on. -/
def onError (x : EStateM ε σ α) (undo : EStateM ε σ Unit) : EStateM ε σ α := fun s =>
  match x s with
  | .ok a s' => .ok a s'
  | .error e s' => .error e (after undo s')

/-- Run, then run `last`, which is told whether there was an exception; an
exception of `last` replaces the one of the program. -/
def ensuring (x : EStateM ε σ α) (last : Bool → EStateM ε σ Unit) : EStateM ε σ α := fun s =>
  match x s with
  | .ok a s' =>
    match last false s' with
    | .ok _ s'' => .ok a s''
    | .error e s'' => .error e s''
  | .error e s' =>
    match last true s' with
    | .ok _ s'' => .error e s''
    | .error e' s'' => .error e' s''

@[simp] theorem pure_run (a : α) (s : σ) : (pure a : EStateM ε σ α) s = .ok a s := rfl

theorem bind_run (x : EStateM ε σ α) (f : α → EStateM ε σ β) (s : σ) :
    (x >>= f) s = match x s with
      | .ok a s' => f a s'
      | .error e s' => .error e s' := rfl

theorem map_run (g : α → β) (x : EStateM ε σ α) (s : σ) :
    (g <$> x) s = match x s with
      | .ok a s' => .ok (g a) s'
      | .error e s' => .error e s' := by
  simp only [Functor.map, EStateM.map]
  cases x s <;> rfl

@[simp] theorem attempt_run (x : EStateM ε σ α) (s : σ) : attempt x s = .ok () (after x s) := rfl

theorem bind_ok_iff {x : EStateM ε σ α} {f : α → EStateM ε σ β} {s s'' : σ} {b : β} :
    (x >>= f) s = .ok b s'' ↔ ∃ a s', x s = .ok a s' ∧ f a s' = .ok b s'' := by
  rw [bind_run]
  cases x s <;> simp

theorem bind_error_iff {x : EStateM ε σ α} {f : α → EStateM ε σ β} {s s'' : σ} {e : ε} :
    (x >>= f) s = .error e s'' ↔
      x s = .error e s'' ∨ ∃ a s', x s = .ok a s' ∧ f a s' = .error e s'' := by
  rw [bind_run]
  cases x s <;> simp

theorem onError_ok_iff {x : EStateM ε σ α} {undo : EStateM ε σ Unit} {s s' : σ} {a : α} :
    onError x undo s = .ok a s' ↔ x s = .ok a s' := by
  unfold onError
  cases x s <;> simp

theorem onError_error_iff {x : EStateM ε σ α} {undo : EStateM ε σ Unit} {s s' : σ} {e : ε} :
    onError x undo s = .error e s' ↔ ∃ s₁, x s = .error e s₁ ∧ s' = after undo s₁ := by
  unfold onError
  cases x s with
  | ok a s₁ => simp
  | error e' s₁ =>
    simp only [EStateM.Result.error.injEq]
    constructor
    · rintro ⟨rfl, rfl⟩
      exact ⟨s₁, ⟨rfl, rfl⟩, rfl⟩
    · rintro ⟨_, ⟨rfl, rfl⟩, rfl⟩
      exact ⟨rfl, rfl⟩

theorem ofExcept_ok_run (a : α) (s : σ) : (ofExcept (.ok a) : EStateM ε σ α) s = .ok a s := rfl

theorem ofExcept_ok_iff {x : Except ε α} {s s' : σ} {a : α} :
    (ofExcept x : EStateM ε σ α) s = .ok a s' ↔ x = .ok a ∧ s' = s := by
  cases x with
  | ok b =>
    have hrun : (ofExcept (.ok b) : EStateM ε σ α) s = .ok b s := rfl
    simp [hrun, eq_comm]
  | error e =>
    have hrun : (ofExcept (.error e) : EStateM ε σ α) s = .error e s := rfl
    simp [hrun]

theorem throw_run (e : ε) (s : σ) : (throw e : EStateM ε σ α) s = .error e s := rfl

theorem tryCatch_run (x : EStateM ε σ α) (handle : ε → EStateM ε σ α) (s : σ) :
    tryCatch x handle s = match x s with
      | .ok a s' => .ok a s'
      | .error e s' => handle e s' := by
  simp only [tryCatch, tryCatchThe, MonadExceptOf.tryCatch, EStateM.tryCatch]
  cases x s <;> rfl

/-- Run; what is one of `those` exceptions is handled, and another goes on. -/
def catching (those : ε → Bool) (x : EStateM ε σ α) (handle : ε → EStateM ε σ α) : EStateM ε σ α :=
  tryCatch x fun e => if those e then handle e else throw e

theorem catching_run (those : ε → Bool) (x : EStateM ε σ α) (handle : ε → EStateM ε σ α) (s : σ) :
    catching those x handle s = match x s with
      | .ok a s' => .ok a s'
      | .error e s' => if those e then handle e s' else .error e s' := by
  rw [catching, tryCatch_run]
  cases x s with
  | ok a s' => rfl
  | error e s' =>
    simp only
    split <;> rfl

/-! ## Programs on a part of the state -/

/-- A program on a part of the state, run on the whole. -/
def zoom (get : σ → τ) (put : τ → σ → σ) (x : EStateM ε τ α) : EStateM ε σ α := fun s =>
  match x (get s) with
  | .ok a t => .ok a (put t s)
  | .error e t => .error e (put t s)

theorem zoom_ok_iff {get : σ → τ} {put : τ → σ → σ} {x : EStateM ε τ α} {s s' : σ} {a : α} :
    zoom get put x s = .ok a s' ↔ ∃ t, x (get s) = .ok a t ∧ s' = put t s := by
  unfold zoom
  cases x (get s) with
  | ok b t =>
    simp only [EStateM.Result.ok.injEq]
    constructor
    · rintro ⟨rfl, rfl⟩
      exact ⟨t, ⟨rfl, rfl⟩, rfl⟩
    · rintro ⟨_, ⟨rfl, rfl⟩, rfl⟩
      exact ⟨rfl, rfl⟩
  | error e t => simp

theorem zoom_error_iff {get : σ → τ} {put : τ → σ → σ} {x : EStateM ε τ α} {s s' : σ} {e : ε} :
    zoom get put x s = .error e s' ↔ ∃ t, x (get s) = .error e t ∧ s' = put t s := by
  unfold zoom
  cases x (get s) with
  | ok b t => simp
  | error e' t =>
    simp only [EStateM.Result.error.injEq]
    constructor
    · rintro ⟨rfl, rfl⟩
      exact ⟨t, ⟨rfl, rfl⟩, rfl⟩
    · rintro ⟨_, ⟨rfl, rfl⟩, rfl⟩
      exact ⟨rfl, rfl⟩

theorem after_zoom (get : σ → τ) (put : τ → σ → σ) (x : EStateM ε τ α) (s : σ) :
    after (zoom get put x) s = put (after x (get s)) s := by
  unfold after zoom
  cases x (get s) <;> rfl

/-! ## Recorded calls -/

/-- A state, and the calls made so far. -/
structure Traced (σ τ : Type) where
  state : σ
  calls : List τ := []

/-- A program that makes no call. -/
def lift (x : EStateM ε σ α) : EStateM ε (Traced σ τ) α :=
  zoom Traced.state (fun s traced => { traced with state := s }) x

/-- Call `x`, recording `call` of the state it is called in. -/
def called (call : σ → τ) (x : EStateM ε σ α) : EStateM ε (Traced σ τ) α := fun s =>
  lift x { s with calls := s.calls ++ [call s.state] }

/-- Call `x`, recording of the call what it starts in and what comes of it. -/
def observed (call : σ → EStateM.Result ε σ α → τ) (x : EStateM ε σ α) : EStateM ε (Traced σ τ) α := fun s =>
  lift x { s with calls := s.calls ++ [call s.state (x s.state)] }

theorem lift_ok_iff {x : EStateM ε σ α} {s s' : Traced σ τ} {a : α} :
    lift x s = .ok a s' ↔ ∃ t, x s.state = .ok a t ∧ s' = { s with state := t } := zoom_ok_iff

theorem lift_error_iff {x : EStateM ε σ α} {s s' : Traced σ τ} {e : ε} :
    lift x s = .error e s' ↔ ∃ t, x s.state = .error e t ∧ s' = { s with state := t } := zoom_error_iff

theorem lift_bind (x : EStateM ε σ α) (f : α → EStateM ε σ β) :
    (lift (x >>= f) : EStateM ε (Traced σ τ) β) = lift x >>= fun a => lift (f a) := by
  funext s
  simp only [lift, zoom, bind_run]
  cases x s.state <;> rfl

theorem lift_ensuring (x : EStateM ε σ α) (last : Bool → EStateM ε σ Unit) :
    (lift (ensuring x last) : EStateM ε (Traced σ τ) α) = ensuring (lift x) fun failed => lift (last failed) := by
  funext s
  simp only [lift, zoom, ensuring]
  cases x s.state with
  | ok a t =>
    simp only
    cases last false t <;> rfl
  | error e t =>
    simp only
    cases last true t <;> rfl

theorem lift_tryCatch (x : EStateM ε σ α) (handle : ε → EStateM ε σ α) :
    (lift (tryCatch x handle) : EStateM ε (Traced σ τ) α) = tryCatch (lift x) fun e => lift (handle e) := by
  funext s
  rw [tryCatch_run]
  simp only [lift, zoom, tryCatch_run]
  cases x s.state with
  | ok a t => rfl
  | error e t => rfl

theorem after_lift (x : EStateM ε σ α) (s : Traced σ τ) : after (lift x) s = { s with state := after x s.state } :=
  after_zoom _ _ _ _

theorem after_called (call : σ → τ) (x : EStateM ε σ α) (s : Traced σ τ) :
    after (called call x) s = ⟨after x s.state, s.calls ++ [call s.state]⟩ :=
  after_zoom _ _ _ _

theorem after_observed (call : σ → EStateM.Result ε σ α → τ) (x : EStateM ε σ α) (s : Traced σ τ) :
    after (observed call x) s = ⟨after x s.state, s.calls ++ [call s.state (x s.state)]⟩ :=
  after_zoom _ _ _ _

/-- A run with nothing to fail on. -/
theorem exists_of_isOk {r : EStateM.Result ε σ Unit}
    (h : (match r with | .ok _ _ => true | .error _ _ => false) = true) : ∃ s, r = .ok () s := by
  cases r with
  | ok u s => exact ⟨s, rfl⟩
  | error e s => cases h

/-- A run that something stops. -/
theorem exists_of_isError {r : EStateM.Result ε σ Unit}
    (h : (match r with | .ok _ _ => true | .error _ _ => false) = false) : ∃ e s, r = .error e s := by
  cases r with
  | ok u s => cases h
  | error e s => exact ⟨e, s, rfl⟩

theorem after_of_ok {x : EStateM ε σ α} {s s' : σ} {a : α} (h : x s = .ok a s') : after x s = s' := by
  rw [after, h]

theorem after_of_error {x : EStateM ε σ α} {s s' : σ} {e : ε} (h : x s = .error e s') : after x s = s' := by
  rw [after, h]

theorem after_map (g : α → β) (x : EStateM ε σ α) (s : σ) : after (g <$> x) s = after x s := by
  unfold after
  rw [map_run]
  cases x s <;> rfl

theorem after_bind (x : EStateM ε σ α) (f : α → EStateM ε σ β) (s : σ) :
    after (x >>= f) s = match x s with
      | .ok a s' => after (f a) s'
      | .error _ s' => s' := by
  rw [after, bind_run]
  cases x s <;> rfl

theorem ensuring_ok {x : EStateM ε σ α} {last : Bool → EStateM ε σ Unit} {s s'' : σ} {a : α}
    (h : ensuring x last s = .ok a s'') : ∃ s', x s = .ok a s' ∧ last false s' = .ok () s'' := by
  unfold ensuring at h
  cases hx : x s with
  | ok b s' =>
    simp only [hx] at h
    split at h <;> cases h
    next hlast => exact ⟨s', rfl, hlast⟩
  | error e s' =>
    simp only [hx] at h
    split at h <;> cases h

theorem ensuring_of_ok {x : EStateM ε σ α} {last : Bool → EStateM ε σ Unit} {s s' s'' : σ} {a : α}
    (hx : x s = .ok a s') (hlast : last false s' = .ok () s'') : ensuring x last s = .ok a s'' := by
  unfold ensuring
  rw [hx]
  simp only [hlast]

theorem ensuring_of_error {x : EStateM ε σ α} {last : Bool → EStateM ε σ Unit} {s s' s'' : σ} {e : ε}
    (hx : x s = .error e s') (hlast : last true s' = .ok () s'') : ensuring x last s = .error e s'' := by
  unfold ensuring
  rw [hx]
  simp only [hlast]

/-- What runs last runs whatever happened. -/
theorem after_ensuring (x : EStateM ε σ α) (last : Bool → EStateM ε σ Unit) (s : σ) :
    ∃ failed, after (ensuring x last) s = after (last failed) (after x s) := by
  unfold after ensuring
  cases x s with
  | ok a s' =>
    refine ⟨false, ?_⟩
    simp only
    cases last false s' <;> rfl
  | error e s' =>
    refine ⟨true, ?_⟩
    simp only
    cases last true s' <;> rfl

/-! ## What a program returns or raises in -/

/-- From a state in `pre` a run returns as `post` says, or raises in `fails`. -/
def Triple (pre : σ → Prop) (x : EStateM ε σ α) (post : α → σ → Prop) (fails : σ → Prop) : Prop :=
  ∀ s, pre s → (∀ a s', x s = .ok a s' → post a s') ∧ ∀ e s', x s = .error e s' → fails s'

theorem Triple.pure {pre fails : σ → Prop} (a : α) : Triple pre (pure a : EStateM ε σ α) (fun _ => pre) fails := by
  intro s hpre
  refine ⟨fun b s' h => ?_, fun e s' h => ?_⟩ <;> cases h
  exact hpre

theorem Triple.bind {pre fails : σ → Prop} {post : α → σ → Prop} {post' : β → σ → Prop} {x : EStateM ε σ α}
    {f : α → EStateM ε σ β} (hx : Triple pre x post fails) (hf : ∀ a, Triple (post a) (f a) post' fails) :
    Triple pre (x >>= f) post' fails := by
  intro s hpre
  refine ⟨fun b s' h => ?_, fun e s' h => ?_⟩
  · obtain ⟨a, s₁, hx', hf'⟩ := bind_ok_iff.mp h
    exact (hf a s₁ ((hx s hpre).1 a s₁ hx')).1 b s' hf'
  · rcases bind_error_iff.mp h with hx' | ⟨a, s₁, hx', hf'⟩
    · exact (hx s hpre).2 e s' hx'
    · exact (hf a s₁ ((hx s hpre).1 a s₁ hx')).2 e s' hf'

/-- Whatever came of the run. -/
theorem Triple.after {pre fails : σ → Prop} {post : α → σ → Prop} {x : EStateM ε σ α} (hx : Triple pre x post fails)
    (hpost : ∀ a s, post a s → fails s) {s : σ} (hpre : pre s) : fails (after x s) := by
  unfold Exec.after
  cases hr : x s with
  | ok a s' => exact hpost a s' ((hx s hpre).1 a s' hr)
  | error e s' => exact (hx s hpre).2 e s' hr

/-! ## Programs seen on a part of the state -/

/-- What a program does to the part `proj` of the state is what `y` does, up
to `g` of what they return. -/
def Projects (proj : σ → τ) (g : α → β) (x : EStateM ε σ α) (y : EStateM ε τ β) : Prop :=
  ∀ s, y (proj s) = match x s with
    | .ok a s' => .ok (g a) (proj s')
    | .error e s' => .error e (proj s')

theorem Projects.pure (proj : σ → τ) (g : α → β) (a : α) :
    Projects proj g (pure a : EStateM ε σ α) (pure (g a) : EStateM ε τ β) := fun _ => rfl

theorem Projects.bind {γ δ : Type} {proj : σ → τ} {g : α → β} {g' : γ → δ} {x : EStateM ε σ α} {y : EStateM ε τ β}
    {f : α → EStateM ε σ γ} {f' : β → EStateM ε τ δ} (hx : Projects proj g x y)
    (hf : ∀ a, Projects proj g' (f a) (f' (g a))) : Projects proj g' (x >>= f) (y >>= f') := by
  intro s
  rw [bind_run, bind_run, hx s]
  cases x s with
  | ok a s' => exact hf a s'
  | error e s' => rfl

theorem Projects.ensuring {proj : σ → τ} {g : α → β} {x : EStateM ε σ α} {y : EStateM ε τ β}
    {last : Bool → EStateM ε σ Unit} {last' : Bool → EStateM ε τ Unit} (hx : Projects proj g x y)
    (hlast : ∀ failed, Projects proj id (last failed) (last' failed)) :
    Projects proj g (ensuring x last) (ensuring y last') := by
  intro s
  unfold Exec.ensuring
  rw [hx s]
  cases x s with
  | ok a s' =>
    simp only
    rw [hlast false s']
    cases last false s' <;> rfl
  | error e s' =>
    simp only
    rw [hlast true s']
    cases last true s' <;> rfl

/-- An exception that is turned into a value. -/
theorem Projects.tryCatch {proj : σ → τ} {g : α → β} {x : EStateM ε σ α} {y : EStateM ε τ β}
    {handle : ε → EStateM ε σ α} {handle' : ε → EStateM ε τ β} (hx : Projects proj g x y)
    (hhandle : ∀ e, Projects proj g (handle e) (handle' e)) :
    Projects proj g (tryCatch x handle) (tryCatch y handle') := by
  intro s
  rw [tryCatch_run, tryCatch_run, hx s]
  cases x s with
  | ok a s' => rfl
  | error e s' => exact hhandle e s'

/-- A program on that part alone. -/
theorem Projects.zoom {get : σ → τ} {put : τ → σ → σ} (hget : ∀ t s, get (put t s) = t) (x : EStateM ε τ α) :
    Projects get id (zoom get put x) x := by
  intro s
  unfold Exec.zoom
  cases x (get s) <;> simp [hget]

/-! ## Programs that leave the state -/

/-- Every run leaves the state it started in. -/
def ReadOnly (x : EStateM ε σ α) : Prop := ∀ s, after x s = s

/-- A run that ends with an exception leaves the state it started in. -/
def FailsClean (x : EStateM ε σ α) : Prop := ∀ s e s', x s = .error e s' → s' = s

theorem ReadOnly.failsClean {x : EStateM ε σ α} (h : ReadOnly x) : FailsClean x := by
  intro s e s' hx
  rw [← after_of_error hx]
  exact h s

theorem ReadOnly.pure (a : α) : ReadOnly (pure a : EStateM ε σ α) := fun _ => rfl

theorem ReadOnly.throw (e : ε) : ReadOnly (throw e : EStateM ε σ α) := fun _ => rfl

theorem ReadOnly.ofExcept (x : Except ε α) : ReadOnly (ofExcept x : EStateM ε σ α) := by
  intro s
  cases x <;> rfl

theorem ReadOnly.bind {x : EStateM ε σ α} {f : α → EStateM ε σ β} (hx : ReadOnly x) (hf : ∀ a, ReadOnly (f a)) :
    ReadOnly (x >>= f) := by
  intro s
  rw [after_bind]
  cases hr : x s with
  | error e s' =>
    rw [← after_of_error hr]
    exact hx s
  | ok a s' =>
    have hs : s' = s := (after_of_ok hr).symm.trans (hx s)
    rw [hs]
    exact hf a s

theorem ReadOnly.zoom {get : σ → τ} {put : τ → σ → σ} {x : EStateM ε τ α} (hput : ∀ s, put (get s) s = s)
    (hx : ReadOnly x) : ReadOnly (zoom get put x) := by
  intro s
  rw [after_zoom, hx, hput]

/-- Reading first, a program fails as cleanly as what follows. -/
theorem FailsClean.bind {x : EStateM ε σ α} {f : α → EStateM ε σ β} (hx : ReadOnly x) (hf : ∀ a, FailsClean (f a)) :
    FailsClean (x >>= f) := by
  intro s e s' h
  rcases bind_error_iff.mp h with h | ⟨a, s₁, h₁, h₂⟩
  · exact hx.failsClean s e s' h
  · have hs : s₁ = s := (after_of_ok h₁).symm.trans (hx s)
    rw [← hs]
    exact hf a s₁ e s' h₂

theorem FailsClean.bind_pure {x : EStateM ε σ α} (g : α → β) (hx : FailsClean x) :
    FailsClean (x >>= fun a => Pure.pure (g a)) := by
  intro s e s' h
  rcases bind_error_iff.mp h with h | ⟨a, s₁, -, h⟩
  · exact hx s e s' h
  · cases h

theorem FailsClean.tryCatch {x : EStateM ε σ α} {handle : ε → EStateM ε σ α} (hx : FailsClean x)
    (hhandle : ∀ e, FailsClean (handle e)) : FailsClean (tryCatch x handle) := by
  intro s e s' h
  rw [tryCatch_run] at h
  cases hr : x s with
  | ok a s₁ =>
    rw [hr] at h
    cases h
  | error e₁ s₁ =>
    rw [hr] at h
    obtain rfl := hx s e₁ s₁ hr
    exact hhandle e₁ _ e s' h

/-! ## Programs on one entry of a table -/

section Cells

variable {ι κ : Type} [DecidableEq ι]

/-- A program on the entry `i` of a table. -/
def onCell (i : ι) (f : κ → Except ε α × κ) : EStateM ε (ι → κ) α := fun t =>
  match f (t i) with
  | (.ok a, c) => .ok a (Function.update t i c)
  | (.error e, c) => .error e (Function.update t i c)

variable {i : ι} {f : ι → κ → Except ε α × κ} {t t' : ι → κ} {e : ε} {is : List ι}

theorem onCell_ok_iff {f : κ → Except ε α × κ} {a : α} :
    onCell i f t = .ok a t' ↔ f (t i) = (.ok a, t' i) ∧ ∀ j, j ≠ i → t' j = t j := by
  unfold onCell
  generalize f (t i) = r
  obtain ⟨r, c⟩ := r
  cases r with
  | error e => simp
  | ok b =>
    simp only [EStateM.Result.ok.injEq, Prod.mk.injEq, Except.ok.injEq]
    constructor
    · rintro ⟨rfl, rfl⟩
      exact ⟨⟨rfl, by simp⟩, fun j hj => by simp [hj]⟩
    · rintro ⟨⟨rfl, rfl⟩, hrest⟩
      refine ⟨rfl, funext fun j => ?_⟩
      by_cases hj : j = i
      · subst hj; simp
      · simp [hj, hrest j hj]

theorem onCell_error_iff {f : κ → Except ε α × κ} :
    onCell i f t = .error e t' ↔ f (t i) = (.error e, t' i) ∧ ∀ j, j ≠ i → t' j = t j := by
  unfold onCell
  generalize f (t i) = r
  obtain ⟨r, c⟩ := r
  cases r with
  | ok b => simp
  | error e' =>
    simp only [EStateM.Result.error.injEq, Prod.mk.injEq, Except.error.injEq]
    constructor
    · rintro ⟨rfl, rfl⟩
      exact ⟨⟨rfl, by simp⟩, fun j hj => by simp [hj]⟩
    · rintro ⟨⟨rfl, rfl⟩, hrest⟩
      refine ⟨rfl, funext fun j => ?_⟩
      by_cases hj : j = i
      · subst hj; simp
      · simp [hj, hrest j hj]

theorem after_onCell (f : κ → Except ε α × κ) (t : ι → κ) :
    after (onCell i f) t = Function.update t i (f (t i)).2 := by
  unfold after onCell
  generalize f (t i) = r
  obtain ⟨r, c⟩ := r
  cases r <;> rfl

/-- A loop that ends without an exception ran on each of its entries and on
no other. -/
theorem forM_onCell_ok {f : ι → κ → Except ε Unit × κ} :
    ∀ {is : List ι} {t t' : ι → κ}, is.Nodup → forM is (fun i => onCell i (f i)) t = .ok () t' →
      (∀ i ∈ is, f i (t i) = (.ok (), t' i)) ∧ ∀ j, j ∉ is → t' j = t j
  | [], t, t', _, h => by
    simp only [List.forM_nil, pure_run, EStateM.Result.ok.injEq, true_and] at h
    subst h
    simp
  | i :: is, t, t', hn, h => by
    rw [List.nodup_cons] at hn
    rw [List.forM_cons, bind_ok_iff] at h
    obtain ⟨_, t₁, h₁, h₂⟩ := h
    rw [onCell_ok_iff] at h₁
    obtain ⟨hin, hout⟩ := forM_onCell_ok hn.2 h₂
    refine ⟨fun j hj => ?_, fun j hj => ?_⟩
    · rcases List.mem_cons.mp hj with rfl | hj
      · rw [hout j hn.1]
        exact h₁.1
      · have hne : j ≠ i := fun he => hn.1 (he ▸ hj)
        rw [← h₁.2 j hne]
        exact hin j hj
    · rw [List.mem_cons, not_or] at hj
      rw [hout j hj.2, h₁.2 j hj.1]

/-- A loop that ends with an exception ran on the entries before the one
that raised it, on that one, and on no other. -/
theorem forM_onCell_error {f : ι → κ → Except ε Unit × κ} :
    ∀ {is : List ι} {t t' : ι → κ}, is.Nodup → forM is (fun i => onCell i (f i)) t = .error e t' →
      ∃ pre i post, is = pre ++ i :: post ∧ (∀ j ∈ pre, f j (t j) = (.ok (), t' j)) ∧
        f i (t i) = (.error e, t' i) ∧ ∀ j, j ∉ pre → j ≠ i → t' j = t j
  | [], t, t', _, h => by simp at h
  | i :: is, t, t', hn, h => by
    rw [List.nodup_cons] at hn
    rw [List.forM_cons, bind_error_iff] at h
    rcases h with h | ⟨_, t₁, h₁, h₂⟩
    · rw [onCell_error_iff] at h
      exact ⟨[], i, is, rfl, by simp, h.1, fun j _ hj => h.2 j hj⟩
    · rw [onCell_ok_iff] at h₁
      obtain ⟨pre, j, post, rfl, hpre, hraise, hout⟩ := forM_onCell_error hn.2 h₂
      simp only [List.mem_append, List.mem_cons, not_or] at hn
      obtain ⟨⟨hipre, hij, -⟩, -⟩ := hn
      refine ⟨i :: pre, j, post, rfl, fun k hk => ?_, ?_, fun k hk hkj => ?_⟩
      · rcases List.mem_cons.mp hk with rfl | hk
        · rw [hout k hipre hij]
          exact h₁.1
        · have hne : k ≠ i := fun he => hipre (he ▸ hk)
          rw [← h₁.2 k hne]
          exact hpre k hk
      · rw [← h₁.2 j (Ne.symm hij)]
        exact hraise
      · rw [List.mem_cons, not_or] at hk
        rw [hout k hk.2 hkj, h₁.2 k hk.1]

/-- A loop that lets exceptions go runs on each of its entries. -/
theorem forM_attempt_onCell {f : ι → κ → Except ε α × κ} :
    ∀ {is : List ι} (t : ι → κ), is.Nodup →
      forM is (fun i => attempt (onCell i (f i))) t =
        .ok () fun j => if j ∈ is then (f j (t j)).2 else t j
  | [], t, _ => by simp
  | i :: is, t, hn => by
    rw [List.nodup_cons] at hn
    rw [List.forM_cons, bind_run, attempt_run]
    simp only [after_onCell]
    rw [forM_attempt_onCell _ hn.2]
    congr 1
    funext j
    by_cases hj : j = i
    · subst hj
      simp [hn.1]
    · simp [hj, Function.update_of_ne]

end Cells

/-! ## Loops that collect results -/

section Rounds

variable {ι : Type}

/-- What each round of a loop starts in, takes, makes and leaves. -/
inductive Rounds (round : σ → ι → α → σ → Prop) : σ → List ι → List α → σ → Prop
  | nil (s : σ) : Rounds round s [] [] s
  | cons {s s₁ s₂ : σ} {i : ι} {is : List ι} {a : α} {as : List α} :
      round s i a s₁ → Rounds round s₁ is as s₂ → Rounds round s (i :: is) (a :: as) s₂

variable {x : ι → EStateM ε σ α} {round : σ → ι → α → σ → Prop} {ok : σ → ι → Prop}

/-- A loop all of whose rounds can be made where it comes to them. -/
theorem mapM_rounds (hok : ∀ s i, ok s i → ∃ a s', x i s = .ok a s' ∧ round s i a s') :
    ∀ {is : List ι} {s : σ}, Runs.Allowed (fun s i => after (x i) s) ok is s →
      ∃ as s', is.mapM x s = .ok as s' ∧ Rounds round s is as s'
  | [], s, _ => ⟨[], s, rfl, .nil s⟩
  | i :: is, s, ⟨hi, hall⟩ => by
    obtain ⟨a, s₁, hx, hround⟩ := hok s i hi
    simp only [after_of_ok hx] at hall
    obtain ⟨as, s₂, hmap, hrounds⟩ := mapM_rounds hok hall
    rw [List.mapM_cons]
    exact ⟨a :: as, s₂, bind_ok_iff.mpr ⟨a, s₁, hx, bind_ok_iff.mpr ⟨as, s₂, hmap, rfl⟩⟩, .cons hround hrounds⟩

/-- A loop that came to its end. -/
theorem allowed_of_mapM_ok (hraise : ∀ s i, ¬ ok s i → ∃ e s', x i s = .error e s') :
    ∀ {is : List ι} {s s' : σ} {as : List α}, is.mapM x s = .ok as s' → Runs.Allowed (fun s i => after (x i) s) ok is s
  | [], _, _, _, _ => trivial
  | i :: is, s, s', as, h => by
    rw [List.mapM_cons] at h
    obtain ⟨a, s₁, hx, h⟩ := bind_ok_iff.mp h
    obtain ⟨as', s₂, hmap, -⟩ := bind_ok_iff.mp h
    refine ⟨?_, ?_⟩
    · by_contra hn
      obtain ⟨e, s₃, hx'⟩ := hraise s i hn
      rw [hx] at hx'
      cases hx'
    · simp only [after_of_ok hx]
      exact allowed_of_mapM_ok hraise hmap

/-- What every round keeps, a loop that came to its end keeps. -/
theorem mapM_keeps (inv : σ → Prop) (hkeeps : ∀ s i a s', x i s = .ok a s' → inv s → inv s') :
    ∀ {is : List ι} {s s' : σ} {as : List α}, is.mapM x s = .ok as s' → inv s → inv s'
  | [], s, s', as, h, hs => by
    cases h
    exact hs
  | i :: is, s, s', as, h, hs => by
    rw [List.mapM_cons] at h
    obtain ⟨a, s₁, hx, h⟩ := bind_ok_iff.mp h
    obtain ⟨as', s₂, hmap, hpure⟩ := bind_ok_iff.mp h
    cases hpure
    exact mapM_keeps inv hkeeps hmap (hkeeps s i a s₁ hx hs)

end Rounds

/-! ## Lists collected under exceptions -/

section Extending

variable {ε α β : Type}

theorem except_bind_ok_iff {x : Except ε α} {f : α → Except ε β} {b : β} :
    (x >>= f) = .ok b ↔ ∃ a, x = .ok a ∧ f a = .ok b := by
  cases x <;> simp [bind, Except.bind]

theorem except_exists_of_isOk {x : Except ε α} (h : x.isOk = true) : ∃ a, x = .ok a := by
  cases x with
  | ok a => exact ⟨a, rfl⟩
  | error e => cases h

/-- `found.extend(f(x))`, for each `x`. -/
def extendEach (f : α → Except ε (List β)) : List α → Except ε (List β)
  | [] => .ok []
  | x :: xs => do
    let found ← f x
    let rest ← extendEach f xs
    return found ++ rest

variable {f : α → Except ε (List β)} {xs ys : List α} {out : List β}

theorem extendEach_cons_ok_iff {x : α} :
    extendEach f (x :: xs) = .ok out ↔
      ∃ found rest, f x = .ok found ∧ extendEach f xs = .ok rest ∧ out = found ++ rest := by
  simp only [extendEach, except_bind_ok_iff]
  constructor
  · rintro ⟨found, hfound, rest, hrest, h⟩
    exact ⟨found, rest, hfound, hrest, (Except.ok.inj h).symm⟩
  · rintro ⟨found, rest, hfound, hrest, rfl⟩
    exact ⟨found, hfound, rest, hrest, rfl⟩

theorem extendEach_append_ok_iff :
    extendEach f (xs ++ ys) = .ok out ↔
      ∃ found rest, extendEach f xs = .ok found ∧ extendEach f ys = .ok rest ∧ out = found ++ rest := by
  induction xs generalizing out with
  | nil => simp [extendEach]
  | cons x xs ih =>
    rw [List.cons_append, extendEach_cons_ok_iff]
    constructor
    · rintro ⟨found, rest, hfound, hrest, rfl⟩
      obtain ⟨found', rest', hfound', hrest', rfl⟩ := ih.mp hrest
      exact ⟨found ++ found', rest', extendEach_cons_ok_iff.mpr ⟨found, found', hfound, hfound', rfl⟩, hrest',
        (List.append_assoc ..).symm⟩
    · rintro ⟨found, rest, hfound, hrest, rfl⟩
      obtain ⟨found', rest', hfound', hrest', rfl⟩ := extendEach_cons_ok_iff.mp hfound
      exact ⟨found', rest' ++ rest, hfound', ih.mpr ⟨rest', rest, hrest', hrest, rfl⟩, List.append_assoc ..⟩

theorem extendEach_map {γ : Type} (g : γ → α) (zs : List γ) : extendEach f (zs.map g) = extendEach (f ∘ g) zs := by
  induction zs with
  | nil => rfl
  | cons z zs ih =>
    rw [List.map_cons, extendEach, ih]
    rfl

/-- The loop returns where every turn of it does. -/
theorem extendEach_returns_iff : (∃ out, extendEach f xs = .ok out) ↔ ∀ x ∈ xs, ∃ found, f x = .ok found := by
  induction xs with
  | nil => simp [extendEach]
  | cons x xs ih =>
    rw [List.forall_mem_cons, ← ih]
    constructor
    · rintro ⟨out, h⟩
      obtain ⟨found, rest, hfound, hrest, -⟩ := extendEach_cons_ok_iff.mp h
      exact ⟨⟨found, hfound⟩, rest, hrest⟩
    · rintro ⟨⟨found, hfound⟩, rest, hrest⟩
      exact ⟨found ++ rest, extendEach_cons_ok_iff.mpr ⟨found, rest, hfound, hrest, rfl⟩⟩

/-- What a turn found is there in the end. -/
theorem mem_of_extendEach {x : α} (h : extendEach f xs = .ok out) (hx : x ∈ xs) :
    ∃ found, f x = .ok found ∧ found ⊆ out := by
  induction xs generalizing out with
  | nil => exact absurd hx List.not_mem_nil
  | cons y ys ih =>
    obtain ⟨found, rest, hfound, hrest, rfl⟩ := extendEach_cons_ok_iff.mp h
    rcases List.mem_cons.mp hx with rfl | hy
    · exact ⟨found, hfound, List.subset_append_left ..⟩
    · obtain ⟨found', hfound', hsub⟩ := ih hrest hy
      exact ⟨found', hfound', List.subset_append_of_subset_right _ hsub⟩

/-- What is kept of the whole, from what is kept of each turn. -/
theorem filter_extendEach {p : β → Bool} {g : α → List β} (h : extendEach f xs = .ok out)
    (hkept : ∀ x ∈ xs, ∀ found, f x = .ok found → found.filter p = g x) : out.filter p = xs.flatMap g := by
  induction xs generalizing out with
  | nil =>
    cases h
    rfl
  | cons x xs ih =>
    obtain ⟨found, rest, hfound, hrest, rfl⟩ := extendEach_cons_ok_iff.mp h
    rw [List.forall_mem_cons] at hkept
    rw [List.filter_append, hkept.1 found hfound, ih hrest hkept.2, List.flatMap_cons]

end Extending

end Exec
