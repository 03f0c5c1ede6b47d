/-
Uniqueness over rows with NULLs, as SQL has it: two rows conflict on a key when
they agree on its columns, and a NULL agrees with a NULL only where the key says
nulls are not distinct.
-/
import Mathlib.Data.List.Pairwise

namespace Sql

variable {κ δ : Type}

/-- What each column of a row holds; `none` is NULL. -/
abbrev Tuple (κ δ : Type) := κ → Option δ

structure UniqueKey (κ : Type) where
  columns : List κ
  nullsNotDistinct : Bool := false
deriving DecidableEq

/-- The rows hold the same on the columns, NULL with NULL. -/
def Agree (columns : List κ) (r r' : Tuple κ δ) : Prop := ∀ c ∈ columns, r c = r' c

def HasNull (columns : List κ) (r : Tuple κ δ) : Prop := ∃ c ∈ columns, r c = .none

/-- The key forbids the two rows. -/
def UniqueKey.Conflict (key : UniqueKey κ) (r r' : Tuple κ δ) : Prop :=
  Agree key.columns r r' ∧ (key.nullsNotDistinct = true ∨ ¬ HasNull key.columns r)

def UniqueKey.Admits (key : UniqueKey κ) (rows : List (Tuple κ δ)) : Prop :=
  rows.Pairwise fun r r' => ¬ key.Conflict r r'

instance [DecidableEq δ] (columns : List κ) (r r' : Tuple κ δ) : Decidable (Agree columns r r') :=
  inferInstanceAs (Decidable (∀ c ∈ columns, r c = r' c))

instance (columns : List κ) (r : Tuple κ δ) : Decidable (HasNull columns r) :=
  decidable_of_iff (columns.any (fun c => (r c).isNone) = true) (by simp [HasNull])

instance [DecidableEq δ] (key : UniqueKey κ) (r r' : Tuple κ δ) : Decidable (key.Conflict r r') :=
  inferInstanceAs (Decidable (_ ∧ _))

instance [DecidableEq δ] (key : UniqueKey κ) (rows : List (Tuple κ δ)) : Decidable (key.Admits rows) :=
  inferInstanceAs (Decidable (rows.Pairwise _))

variable {columns : List κ} {key : UniqueKey κ} {r r' : Tuple κ δ} {rows : List (Tuple κ δ)}

theorem Agree.hasNull_iff (h : Agree columns r r') : HasNull columns r ↔ HasNull columns r' := by
  constructor
  · rintro ⟨c, hc, hnull⟩
    exact ⟨c, hc, (h c hc).symm.trans hnull⟩
  · rintro ⟨c, hc, hnull⟩
    exact ⟨c, hc, (h c hc).trans hnull⟩

/-- Rows that differ on a column of the key do not conflict. -/
theorem UniqueKey.not_conflict_of_ne {c : κ} (hc : c ∈ key.columns) (hne : r c ≠ r' c) : ¬ key.Conflict r r' :=
  fun h => hne (h.1 c hc)

theorem agree_cons {c : κ} : Agree (c :: columns) r r' ↔ r c = r' c ∧ Agree columns r r' := by
  simp [Agree]

theorem hasNull_cons {c : κ} : HasNull (c :: columns) r ↔ r c = .none ∨ HasNull columns r := by
  simp [HasNull]

/-- Rows that share a value in a further column conflict where they did
without it. -/
theorem UniqueKey.conflict_cons {c : κ} {v : δ} {nullsNotDistinct : Bool} (hr : r c = .some v) (hr' : r' c = .some v) :
    (UniqueKey.mk (c :: columns) nullsNotDistinct).Conflict r r' ↔
      (UniqueKey.mk columns nullsNotDistinct).Conflict r r' := by
  simp [Conflict, agree_cons, hasNull_cons, hr, hr']

/-- With nulls distinct, rows conflict when they agree and hold no NULL. -/
theorem UniqueKey.conflict_distinct_iff :
    (UniqueKey.mk columns false).Conflict r r' ↔ Agree columns r r' ∧ ¬ HasNull columns r := by
  simp [Conflict]

/-- Nulls that are not distinct only add conflicts. -/
theorem UniqueKey.Admits.distinct (h : key.Admits rows) : (UniqueKey.mk key.columns false).Admits rows := by
  refine List.Pairwise.imp (fun hno hconflict => hno ?_) h
  exact ⟨hconflict.1, .inr (conflict_distinct_iff.mp hconflict).2⟩

/-- A key admits what it would with nulls distinct, less the rows that agree with
a NULL where it says they are not. -/
theorem UniqueKey.admits_iff :
    key.Admits rows ↔ (UniqueKey.mk key.columns false).Admits rows ∧ (key.nullsNotDistinct = true →
      rows.Pairwise fun r r' => ¬ (Agree key.columns r r' ∧ HasNull key.columns r)) := by
  constructor
  · intro h
    refine ⟨h.distinct, fun hnulls => h.imp fun hno hmatch => hno ⟨hmatch.1, .inl hnulls⟩⟩
  · rintro ⟨hdistinct, hmatch⟩
    cases hnulls : key.nullsNotDistinct with
    | false =>
      rw [← hnulls] at hdistinct
      exact hdistinct
    | true =>
      refine hdistinct.imp₂ (fun r r' hno hmatch hconflict => ?_) (hmatch hnulls)
      by_cases hnull : HasNull key.columns r
      · exact hmatch ⟨hconflict.1, hnull⟩
      · exact hno (conflict_distinct_iff.mpr ⟨hconflict.1, hnull⟩)

/-- A further column in which all rows hold the same value adds nothing. -/
theorem UniqueKey.admits_cons {c : κ} {v : δ} {nullsNotDistinct : Bool} (hrows : ∀ r ∈ rows, r c = .some v) :
    (UniqueKey.mk (c :: columns) nullsNotDistinct).Admits rows ↔ (UniqueKey.mk columns nullsNotDistinct).Admits rows :=
  List.Pairwise.iff_of_mem fun hr hr' => not_congr (conflict_cons (hrows _ hr) (hrows _ hr'))

/-- With nulls distinct, a further column only takes conflicts away. -/
theorem UniqueKey.Admits.cons {c : κ} (h : (UniqueKey.mk columns false).Admits rows) :
    (UniqueKey.mk (c :: columns) false).Admits rows := by
  refine List.Pairwise.imp (fun hno hconflict => hno ?_) h
  rw [conflict_distinct_iff, agree_cons, hasNull_cons, not_or] at hconflict
  exact conflict_distinct_iff.mpr ⟨hconflict.1.2, hconflict.2.2⟩

/-- What rows hold elsewhere does not matter. -/
theorem UniqueKey.Admits.map {f : Tuple κ δ → Tuple κ δ} (h : key.Admits rows) (hf : ∀ r, Agree key.columns (f r) r) :
    key.Admits (rows.map f) := by
  refine List.pairwise_map.mpr (List.Pairwise.imp (fun {r r'} hno hconflict => hno ?_) h)
  exact ⟨fun c hc => ((hf r c hc).symm.trans (hconflict.1 c hc)).trans (hf r' c hc),
    hconflict.2.imp id fun hnull => (hf r).hasNull_iff.not.mp hnull⟩

end Sql
