/-
Marking what is not marked yet, a set at a time. Whether an item is marked is
asked of the item it is read as, which may be another; so marking in parts, in
some order and with repetitions, need not mark what marking at once does.
-/
import Mathlib.Data.Set.Basic

namespace Marking

variable {α : Type*} (reads : α → Option α)

/-- Nothing marked is read of the item. -/
def Unmarked (marked : Set α) (x : α) : Prop := ∀ y, reads x = .some y → y ∉ marked

/-- Mark the items of a set of which nothing marked is read. -/
def mark (covered marked : Set α) : Set α := {x | x ∈ marked ∨ x ∈ covered ∧ Unmarked reads marked x}

def markAll : List (Set α) → Set α → Set α
  | [], marked => marked
  | covered :: covers, marked => markAll covers (mark reads covered marked)

/-- What one of the sets covers. -/
def union (covers : List (Set α)) : Set α := {x | ∃ covered ∈ covers, x ∈ covered}

/-- A set that has `y` comes before every one that has `x`. -/
def Before (y x : α) : List (Set α) → Prop
  | [] => False
  | covered :: covers => x ∉ covered ∧ (y ∈ covered ∨ Before y x covers)

variable {reads} {covered marked : Set α} {covers : List (Set α)} {x y : α}

theorem not_before_self : ¬ Before x x covers := by
  induction covers with
  | nil => exact id
  | cons covered covers ih =>
    rintro ⟨hx, hmem | hbefore⟩
    · exact hx hmem
    · exact ih hbefore

theorem mem_union_cons : x ∈ union (covered :: covers) ↔ x ∈ covered ∨ x ∈ union covers := by
  simp [union]

/-- An item that is read as itself is marked by the first set that has it. -/
theorem mem_mark_self (hself : reads x = .some x) : x ∈ mark reads covered marked ↔ x ∈ marked ∨ x ∈ covered := by
  constructor
  · exact Or.imp_right And.left
  · intro h
    by_cases hmarked : x ∈ marked
    · exact .inl hmarked
    · refine .inr ⟨h.resolve_left hmarked, fun y hy => ?_⟩
      rw [hself, Option.some.injEq] at hy
      exact hy ▸ hmarked

section

variable (hself : ∀ x y, reads x = .some y → reads y = .some y)

include hself

/-- An item is marked in the end when it was, or is covered before what it is
read as is marked. -/
theorem mem_markAll_iff : x ∈ markAll reads covers marked ↔
    x ∈ marked ∨ x ∈ union covers ∧ ∀ y, reads x = .some y → y ∉ marked ∧ ¬ Before y x covers := by
  induction covers generalizing marked with
  | nil => simp [markAll, union]
  | cons covered covers ih =>
    rw [markAll, ih, mem_union_cons]
    by_cases hmarked : x ∈ marked
    · exact iff_of_true (.inl (.inl hmarked)) (.inl hmarked)
    by_cases hx : x ∈ covered
    · -- this set has the item, and no later one tells
      have hbefore : ∀ y, ¬ Before y x (covered :: covers) := fun y hy => hy.1 hx
      constructor
      · rintro ((h | ⟨-, hunmarked⟩) | ⟨-, hunmarked⟩)
        · exact absurd h hmarked
        · exact .inr ⟨.inl hx, fun y hy => ⟨hunmarked y hy, hbefore y⟩⟩
        · exact .inr ⟨.inl hx, fun y hy => ⟨fun hmem => (hunmarked y hy).1 (.inl hmem), hbefore y⟩⟩
      · rintro (h | ⟨-, hunmarked⟩)
        · exact absurd h hmarked
        · exact .inl (.inr ⟨hx, fun y hy => (hunmarked y hy).1⟩)
    · have hrest : x ∉ mark reads covered marked := by
        rintro (h | ⟨h, -⟩)
        · exact hmarked h
        · exact hx h
      have hread : ∀ y, reads x = .some y →
          (y ∉ mark reads covered marked ∧ ¬ Before y x covers ↔ y ∉ marked ∧ ¬ Before y x (covered :: covers)) := by
        intro y hy
        rw [mem_mark_self (hself x y hy), Before, not_or, not_and, not_or]
        exact ⟨fun h => ⟨h.1.1, fun _ => ⟨h.1.2, h.2⟩⟩, fun h => ⟨⟨h.1, (h.2 hx).1⟩, (h.2 hx).2⟩⟩
      rw [or_iff_right hrest, or_iff_right hmarked, or_iff_right hx]
      exact and_congr_right fun _ => forall_congr' fun y => imp_congr_right (hread y)

theorem mem_markAll_self (hx : reads x = .some x) : x ∈ markAll reads covers marked ↔ x ∈ marked ∨ x ∈ union covers := by
  rw [mem_markAll_iff hself]
  constructor
  · exact Or.imp_right And.left
  · intro h
    by_cases hmarked : x ∈ marked
    · exact .inl hmarked
    · refine .inr ⟨h.resolve_left hmarked, fun y hy => ?_⟩
      rw [hx, Option.some.injEq] at hy
      exact hy ▸ ⟨hmarked, not_before_self⟩

/-- Marking in parts marks what marking at once does, exactly when no item is
read as one that is marked before its own turn. -/
theorem markAll_eq_mark_iff : markAll reads covers marked = mark reads (union covers) marked ↔
    ∀ x ∈ union covers, x ∉ marked → ∀ y, reads x = .some y → y ∉ marked → ¬ Before y x covers := by
  rw [Set.ext_iff]
  constructor
  · intro hsame x hcovered hx y hread hy hbefore
    have hmem : x ∈ mark reads (union covers) marked := by
      refine .inr ⟨hcovered, fun z hz => ?_⟩
      obtain rfl := Option.some.inj (hz.symm.trans hread)
      exact hy
    rcases (mem_markAll_iff hself).mp ((hsame x).mpr hmem) with h | ⟨-, h⟩
    · exact hx h
    · exact (h y hread).2 hbefore
  · intro hnot x
    rw [mem_markAll_iff hself]
    by_cases hx : x ∈ marked
    · exact iff_of_true (.inl hx) (.inl hx)
    constructor
    · rintro (h | ⟨hcovered, h⟩)
      · exact .inl h
      · exact .inr ⟨hcovered, fun y hy => (h y hy).1⟩
    · rintro (h | ⟨hcovered, h⟩)
      · exact .inl h
      · exact .inr ⟨hcovered, fun y hy => ⟨h y hy, hnot x hcovered hx y hy (h y hy)⟩⟩

/-- In the end something marked is read of an item when it is read as one that
was marked, or is covered. -/
theorem not_unmarked_iff : ¬ Unmarked reads (markAll reads covers marked) x ↔
    ∃ y, reads x = .some y ∧ (y ∈ marked ∨ y ∈ union covers) := by
  unfold Unmarked
  push Not
  refine exists_congr fun y => and_congr_right fun hread => ?_
  exact mem_markAll_self hself (hself x y hread)

end

end Marking
