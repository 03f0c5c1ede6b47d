/-
Names of one namespace replaced one after another: each replacement gives up a
name in use and takes another, which must be free by then. Whether a sequence
goes through is read off its names and those in use at the start.
-/
import Mathlib.Data.List.Nodup
import Mathlib.Data.Set.Insert

namespace Renaming

variable {κ : Type}

structure Swap (κ : Type) where
  old : κ
  new : κ

/-- The names in use afterwards. -/
def Swap.result (s : Swap κ) (used : Set κ) : Set κ := insert s.new (used \ {s.old})

/-- Each swap gives up a name in use and takes one that is not. -/
def Clear : List (Swap κ) → Set κ → Prop
  | [], _ => True
  | s :: swaps, used => s.old ∈ used ∧ s.new ∉ used \ {s.old} ∧ Clear swaps (s.result used)

/-- A name in use at the start is taken only when it has been given up. -/
def InTurn (swaps : List (Swap κ)) (used : Set κ) : Prop :=
  ∀ done s rest, swaps = done ++ s :: rest → s.new ∈ used → s.new ∈ (done ++ [s]).map Swap.old

variable {s : Swap κ} {swaps : List (Swap κ)} {used : Set κ}

theorem inTurn_cons : InTurn (s :: swaps) used ↔
    (s.new ∈ used → s.new = s.old) ∧ InTurn swaps (used \ {s.old}) := by
  constructor
  · intro h
    refine ⟨fun hnew => by simpa using h [] s swaps rfl hnew, fun done s' rest hsplit hnew => ?_⟩
    have hmem := h (s :: done) s' rest (by rw [hsplit, List.cons_append]) hnew.1
    rw [List.cons_append, List.map_cons, List.mem_cons] at hmem
    exact hmem.resolve_left hnew.2
  · rintro ⟨hfirst, hrest⟩ done s' rest hsplit hnew
    cases done with
    | nil =>
      obtain ⟨rfl, rfl⟩ := List.cons.inj hsplit
      simpa using hfirst hnew
    | cons s'' done =>
      obtain ⟨rfl, htail⟩ := List.cons.inj hsplit
      rw [List.cons_append, List.map_cons, List.mem_cons]
      by_cases hold : s'.new = s.old
      · exact .inl hold
      · exact .inr (hrest done s' rest htail ⟨hnew, hold⟩)

/-- The same of a list that swaps are made of. -/
theorem inTurn_map {α : Type} {f : α → Swap κ} {as : List α} : InTurn (as.map f) used ↔
    ∀ done a rest, as = done ++ a :: rest → (f a).new ∈ used → (f a).new ∈ (done ++ [a]).map fun a => (f a).old := by
  constructor
  · intro h done a rest hsplit hnew
    have hold := h (done.map f) (f a) (rest.map f) (by rw [hsplit, List.map_append, List.map_cons]) hnew
    simpa [Function.comp_def] using hold
  · intro h done s rest hsplit hnew
    obtain ⟨done', tail, hall, rfl, htail⟩ := List.map_eq_append_iff.mp hsplit
    obtain ⟨a, rest', rfl, rfl, rfl⟩ := List.map_eq_cons_iff.mp htail
    simpa [Function.comp_def] using h done' a rest' hall hnew

/-- A name that no swap takes may come to be in use. -/
theorem inTurn_insert {name : κ} (h : ∀ s ∈ swaps, s.new ≠ name) :
    InTurn swaps (insert name used) ↔ InTurn swaps used := by
  refine forall₃_congr fun done s rest => imp_congr_right fun hsplit => imp_congr_left ?_
  have hs : s ∈ swaps := by simp [hsplit]
  exact Set.mem_insert_iff.trans (or_iff_right (h s hs))

/-- Names given up once each are replaced without collision if and only if no
name is taken twice, and none before it is given up. -/
theorem clear_iff (hnodup : (swaps.map Swap.old).Nodup) (hused : ∀ s ∈ swaps, s.old ∈ used) :
    Clear swaps used ↔ (swaps.map Swap.new).Nodup ∧ InTurn swaps used := by
  induction swaps generalizing used with
  | nil => simp [Clear, InTurn]
  | cons s swaps ih =>
    rw [List.map_cons, List.nodup_cons] at hnodup
    rw [List.forall_mem_cons] at hused
    -- what is to be given up later is still in use
    have hlater : ∀ s' ∈ swaps, s'.old ∈ used \ {s.old} := fun s' hs' =>
      ⟨hused.2 s' hs', fun heq => hnodup.1 (heq ▸ List.mem_map_of_mem hs')⟩
    have hstep : Clear swaps (s.result used) ↔ (swaps.map Swap.new).Nodup ∧ InTurn swaps (s.result used) :=
      ih hnodup.2 fun s' hs' => .inr (hlater s' hs')
    have hfirst : s.new ∉ used \ {s.old} ↔ (s.new ∈ used → s.new = s.old) := by
      rw [Set.mem_sdiff, Set.mem_singleton_iff, not_and, not_not]
    rw [Clear, hstep, hfirst, inTurn_cons, List.map_cons, List.nodup_cons]
    constructor
    · rintro ⟨-, hfree, hnodup', hturn⟩
      have htaken : s.new ∉ swaps.map Swap.new := by
        intro hmem
        obtain ⟨s', hs', heq⟩ := List.mem_map.mp hmem
        obtain ⟨done, rest, hsplit⟩ := List.append_of_mem hs'
        -- a name taken twice would have been given up in between
        have hold := hturn done s' rest hsplit (.inl heq)
        have hsub : (done ++ [s']).map Swap.old ⊆ swaps.map Swap.old := by
          rw [hsplit]
          exact List.map_subset _ (by simp)
        obtain ⟨s'', hs'', heq'⟩ := List.mem_map.mp (hsub hold)
        have hmem := hlater s'' hs''
        rw [heq', heq] at hmem
        exact hmem.2 (hfree hmem.1)
      have hne : ∀ s' ∈ swaps, s'.new ≠ s.new := fun s' hs' heq => htaken (heq ▸ List.mem_map_of_mem hs')
      exact ⟨⟨htaken, hnodup'⟩, hfree, (inTurn_insert hne).mp hturn⟩
    · rintro ⟨⟨htaken, hnodup'⟩, hfree, hturn⟩
      have hne : ∀ s' ∈ swaps, s'.new ≠ s.new := fun s' hs' heq => htaken (heq ▸ List.mem_map_of_mem hs')
      exact ⟨hused.1, hfree, hnodup', (inTurn_insert hne).mpr hturn⟩

end Renaming
