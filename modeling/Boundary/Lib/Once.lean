/-
Saying each item once. What was said is remembered up to a bound, and at the
bound all of it is forgotten.
-/
import Mathlib.Data.List.Nodup
import Mathlib.Data.List.Perm.Subperm

namespace Once

structure State (α : Type) where
  remembered : List α := []
  said : List α := []

section

variable {α : Type} [DecidableEq α] (bound : Nat)

/-- What is remembered is not said again. -/
def say (s : State α) (x : α) : State α :=
  if x ∈ s.remembered then s
  else
    { remembered := (if bound ≤ s.remembered.length then [] else s.remembered) ++ [x]
      said := s.said ++ [x] }

def sayAll (s : State α) (xs : List α) : State α := xs.foldl (say bound) s

/-- What was said was said in rounds of as many items as the bound, none twice in
a round; what is remembered is the round that is not over. -/
structure InRounds (s : State α) : Prop where
  rounds : ∃ rounds : List (List α), s.said = rounds.flatten ++ s.remembered ∧
    ∀ round ∈ rounds, round.Nodup ∧ round.length = bound
  nodup : s.remembered.Nodup
  length : s.remembered.length ≤ bound

variable {bound} {s : State α} {xs few : List α} {x : α}

omit [DecidableEq α] in
theorem InRounds.start : InRounds bound ({} : State α) :=
  ⟨⟨[], rfl, fun _ h => absurd h List.not_mem_nil⟩, List.nodup_nil, Nat.zero_le _⟩

theorem InRounds.say (hbound : 0 < bound) (h : InRounds bound s) (x : α) : InRounds bound (say bound s x) := by
  unfold Once.say
  split
  · exact h
  next hnew =>
    obtain ⟨rounds, hsaid, hrounds⟩ := h.rounds
    split
    next hfull =>
      -- The round is over, and `x` begins the next.
      refine ⟨⟨rounds ++ [s.remembered], ?_, fun round hround => ?_⟩, List.nodup_singleton x, hbound⟩
      · simp [hsaid]
      · rcases List.mem_append.mp hround with hround | hround
        · exact hrounds round hround
        · rw [List.mem_singleton.mp hround]
          exact ⟨h.nodup, Nat.le_antisymm h.length hfull⟩
    next hroom =>
      refine ⟨⟨rounds, ?_, hrounds⟩, ?_, ?_⟩
      · simp [hsaid]
      · rw [← List.concat_eq_append]
        exact .concat hnew h.nodup
      · rw [List.length_append, List.length_singleton]
        omega

theorem InRounds.sayAll (hbound : 0 < bound) (h : InRounds bound s) (xs : List α) :
    InRounds bound (sayAll bound s xs) := by
  induction xs generalizing s with
  | nil => exact h
  | cons x xs ih => exact ih (h.say hbound x)

omit [DecidableEq α] in
theorem InRounds.remembered_said (h : InRounds bound s) (hx : x ∈ s.remembered) : x ∈ s.said := by
  obtain ⟨rounds, hsaid, -⟩ := h.rounds
  rw [hsaid]
  exact List.mem_append_right _ hx

theorem mem_said_say (h : InRounds bound s) {y : α} : y ∈ (Once.say bound s x).said ↔ y ∈ s.said ∨ y = x := by
  unfold Once.say
  split
  next hknown =>
    refine ⟨.inl, fun hy => hy.elim id ?_⟩
    rintro rfl
    exact h.remembered_said hknown
  next => simp

theorem mem_said_sayAll (hbound : 0 < bound) (h : InRounds bound s) :
    x ∈ (Once.sayAll bound s xs).said ↔ x ∈ s.said ∨ x ∈ xs := by
  induction xs generalizing s with
  | nil => simp [Once.sayAll]
  | cons y xs ih =>
    rw [Once.sayAll, List.foldl_cons, ← Once.sayAll, ih (h.say hbound y), mem_said_say h, List.mem_cons, or_assoc]

/-- Of no more items than the bound, none is forgotten. -/
theorem said_eq_remembered (hfew : few.length ≤ bound) (hxs : ∀ x ∈ xs, x ∈ few) (hnodup : s.remembered.Nodup)
    (hsub : s.remembered ⊆ few) (hsaid : s.said = s.remembered) :
    (Once.sayAll bound s xs).said = (Once.sayAll bound s xs).remembered := by
  induction xs generalizing s with
  | nil => exact hsaid
  | cons x xs ih =>
    rw [Once.sayAll, List.foldl_cons, ← Once.sayAll]
    have hrest : ∀ y ∈ xs, y ∈ few := fun y hy => hxs y (List.mem_cons_of_mem _ hy)
    by_cases hknown : x ∈ s.remembered
    · rw [Once.say, if_pos hknown]
      exact ih hrest hnodup hsub hsaid
    · have hmore : (s.remembered ++ [x]).Nodup := by
        rw [← List.concat_eq_append]
        exact .concat hknown hnodup
      have hinside : s.remembered ++ [x] ⊆ few :=
        List.append_subset.mpr ⟨hsub, List.cons_subset.mpr ⟨hxs x List.mem_cons_self, List.nil_subset _⟩⟩
      have hlength := (List.subperm_of_subset hmore hinside).length_le
      rw [List.length_append, List.length_singleton] at hlength
      rw [Once.say, if_neg hknown, if_neg (by omega)]
      exact ih hrest hmore hinside (by rw [hsaid])

end

end Once
