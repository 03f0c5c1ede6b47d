/-
Runs of a machine whose steps are taken under a condition, and the one
induction over them; and of machines whose steps may fail.
-/
import Mathlib.Init

namespace Runs

variable {κ α : Type}

/-- `Reaches step ok c c'`: steps that each meet `ok`, in the configuration
they are taken in, lead from `c` to `c'`. -/
inductive Reaches (step : κ → α → κ) (ok : κ → α → Prop) (c : κ) : κ → Prop
  | refl : Reaches step ok c c
  | step {c' : κ} (a : α) : Reaches step ok c c' → ok c' a → Reaches step ok c (step c' a)

variable {step : κ → α → κ} {ok : κ → α → Prop} {c c' c'' : κ}

/-- What holds at the start and is kept by every allowed step holds in every
configuration reached. -/
theorem Reaches.invariant (h : Reaches step ok c c') (I : κ → Prop) (start : I c)
    (keep : ∀ c a, I c → ok c a → I (step c a)) : I c' := by
  induction h with
  | refl => exact start
  | step a _ hok ih => exact keep _ a ih hok

theorem Reaches.trans (h₁ : Reaches step ok c c') (h₂ : Reaches step ok c' c'') : Reaches step ok c c'' := by
  induction h₂ with
  | refl => exact h₁
  | step a _ ha ih => exact .step a ih ha

/-- Every step of the list is allowed where it is taken. -/
def Allowed (step : κ → α → κ) (ok : κ → α → Prop) : List α → κ → Prop
  | [], _ => True
  | a :: as, c => ok c a ∧ Allowed step ok as (step c a)

def decideAllowed [∀ c a, Decidable (ok c a)] : ∀ (as : List α) (c : κ), Decidable (Allowed step ok as c)
  | [], _ => .isTrue trivial
  | a :: as, c =>
    have := decideAllowed as (step c a)
    inferInstanceAs (Decidable (ok c a ∧ Allowed step ok as (step c a)))

instance [∀ c a, Decidable (ok c a)] (as : List α) (c : κ) : Decidable (Allowed step ok as c) :=
  decideAllowed as c

theorem Reaches.of_allowed : ∀ {as : List α} {c : κ}, Allowed step ok as c → Reaches step ok c (as.foldl step c)
  | [], _, _ => .refl
  | a :: _, _, ⟨ha, has⟩ => (Reaches.step a .refl ha).trans (Reaches.of_allowed has)

/-! ## Machines whose steps fail -/

section

variable {σ τ : Type} {f : σ → α → Option σ} {g : τ → α → Option τ} {s s' t : σ} {x : α} {xs : List α}

theorem foldlM_cons_some_iff :
    (x :: xs).foldlM f s = .some s' ↔ ∃ s₁, f s x = .some s₁ ∧ xs.foldlM f s₁ = .some s' := by
  rw [List.foldlM_cons]
  exact Option.bind_eq_some_iff

theorem foldlM_append_some {ys : List α} {s₁ : σ} (h : xs.foldlM f s = .some s₁) (h' : ys.foldlM f s₁ = .some s') :
    (xs ++ ys).foldlM f s = .some s' := by
  rw [List.foldlM_append, h]
  exact h'

/-- Where a step of a machine fails or is, seen through a map, a step of another,
so is a run. -/
theorem map_foldlM {view : σ → τ} (hstep : ∀ s x, (f s x).map view = g (view s) x) (s : σ) (xs : List α) :
    (xs.foldlM f s).map view = xs.foldlM g (view s) := by
  induction xs generalizing s with
  | nil => rfl
  | cons x xs ih =>
    rw [List.foldlM_cons, List.foldlM_cons, ← hstep s x]
    cases f s x with
    | none => rfl
    | some s' => exact ih s'

/-- What every step keeps, a run keeps. -/
theorem foldlM_keeps {R : σ → σ → Prop} (hrefl : ∀ s, R s s) (htrans : ∀ {s s' s''}, R s s' → R s' s'' → R s s'')
    (hstep : ∀ {s x s'}, f s x = .some s' → R s s') (h : xs.foldlM f s = .some s') : R s s' := by
  induction xs generalizing s with
  | nil =>
    cases h
    exact hrefl _
  | cons x xs ih =>
    obtain ⟨s₁, hx, hxs⟩ := foldlM_cons_some_iff.mp h
    exact htrans (hstep hx) (ih hxs)

/-- Every step of a run is taken under a condition. -/
def Along (f : σ → α → Option σ) (ok : σ → α → Prop) : σ → List α → Prop
  | _, [] => True
  | s, x :: xs => ok s x ∧ ∀ s', f s x = .some s' → Along f ok s' xs

/-- Where each step is undone by its inverse, from whatever is related to what it
leaves, the inverses in the other order undo the run. -/
theorem undo_foldlM {ok : σ → α → Prop} {R : σ → σ → Prop} {inverse : α → α}
    (hstep : ∀ {s x s' t}, ok s x → f s x = .some s' → R s' t → ∃ t', f t (inverse x) = .some t' ∧ R s t')
    (halong : Along f ok s xs) (h : xs.foldlM f s = .some s') (hrel : R s' t) :
    ∃ t', (xs.reverse.map inverse).foldlM f t = .some t' ∧ R s t' := by
  induction xs generalizing s with
  | nil =>
    cases h
    exact ⟨t, rfl, hrel⟩
  | cons x xs ih =>
    obtain ⟨s₁, hx, hxs⟩ := foldlM_cons_some_iff.mp h
    obtain ⟨t₁, hrest, hrel₁⟩ := ih (halong.2 s₁ hx) hxs
    obtain ⟨t', hinverse, hrel'⟩ := hstep halong.1 hx hrel₁
    refine ⟨t', ?_, hrel'⟩
    rw [List.reverse_cons, List.map_append]
    exact foldlM_append_some hrest (foldlM_cons_some_iff.mpr ⟨t', hinverse, rfl⟩)

end

end Runs
