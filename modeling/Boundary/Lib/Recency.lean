/-
Lists whose elements go in the order they are stamped, those stamped alike in
the order they are listed; and when that order is the one they were used in.
-/
import Mathlib.Data.List.MinMax
import Mathlib.Data.List.Nodup

namespace Recency

variable {α τ : Type} [LinearOrder τ] {stamp : α → τ} {use : α → Nat} {l l' : List α} {x y m : α}

/-- `x` goes before `y`. -/
def GoesFirst (stamp : α → τ) (l : List α) (x y : α) : Prop := stamp x < stamp y ∨ stamp x = stamp y ∧ [x, y].Sublist l

/-- The first to go. -/
def first (stamp : α → τ) (l : List α) : Option α := l.argmin stamp

/-- What goes first was used first. -/
def InOrder (stamp : α → τ) (use : α → Nat) (l : List α) : Prop :=
  ∀ x ∈ l, ∀ y ∈ l, GoesFirst stamp l x y → use x < use y

/-! ## Pairs of a list -/

theorem pair_sublist_or (hx : x ∈ l) (hy : y ∈ l) (hne : x ≠ y) : [x, y].Sublist l ∨ [y, x].Sublist l := by
  obtain ⟨pre, post, rfl⟩ := List.append_of_mem hx
  rcases List.mem_append.mp hy with hpre | hpost
  · exact .inr ((List.singleton_sublist.mpr hpre).append (List.singleton_sublist.mpr (List.mem_cons_self ..)))
  · have hmem : y ∈ post := (List.mem_cons.mp hpost).resolve_left (Ne.symm hne)
    exact .inl ((List.cons_sublist_cons.mpr (List.singleton_sublist.mpr hmem)).trans (List.sublist_append_right _ _))

/-- In a list with no element twice, of a pair one is listed first. -/
theorem not_pair_sublist (hnodup : l.Nodup) (h : [x, y].Sublist l) : ¬ [y, x].Sublist l := by
  induction l with
  | nil => cases h
  | cons z l ih =>
    rw [List.nodup_cons] at hnodup
    intro h'
    cases h with
    | cons _ h =>
      cases h' with
      | cons _ h' => exact ih hnodup.2 h h'
      | cons_cons _ _ => exact hnodup.1 (h.subset (by simp))
    | cons_cons _ h =>
      cases h' with
      | cons _ h' => exact hnodup.1 (h'.subset (by simp))
      | cons_cons _ _ => exact hnodup.1 (h.subset (by simp))

/-! ## The order -/

theorem GoesFirst.ne (hnodup : l.Nodup) (h : GoesFirst stamp l x y) : x ≠ y := by
  rintro rfl
  rcases h with h | ⟨-, h⟩
  · exact lt_irrefl _ h
  · exact not_pair_sublist hnodup h h

theorem GoesFirst.stamp_le (h : GoesFirst stamp l x y) : stamp x ≤ stamp y := h.elim le_of_lt fun h => le_of_eq h.1

theorem goesFirst_or (hx : x ∈ l) (hy : y ∈ l) (hne : x ≠ y) : GoesFirst stamp l x y ∨ GoesFirst stamp l y x := by
  rcases lt_trichotomy (stamp x) (stamp y) with hlt | heq | hlt
  · exact .inl (.inl hlt)
  · exact (pair_sublist_or hx hy hne).imp (fun h => .inr ⟨heq, h⟩) fun h => .inr ⟨heq.symm, h⟩
  · exact .inr (.inl hlt)

theorem GoesFirst.asymm (hnodup : l.Nodup) (h : GoesFirst stamp l x y) : ¬ GoesFirst stamp l y x := by
  intro h'
  rcases h with h | ⟨heq, h⟩
  · exact absurd h'.stamp_le (not_le_of_gt h)
  · rcases h' with h' | ⟨-, h'⟩
    · exact absurd heq h'.ne'
    · exact not_pair_sublist hnodup h h'

theorem GoesFirst.mono (hsub : l.Sublist l') (h : GoesFirst stamp l x y) : GoesFirst stamp l' x y :=
  h.imp id fun h => ⟨h.1, h.2.trans hsub⟩

/-- What is left of a list goes in the order it went. -/
theorem GoesFirst.of_sublist (hnodup : l'.Nodup) (hsub : l.Sublist l') (hx : x ∈ l) (hy : y ∈ l)
    (h : GoesFirst stamp l' x y) : GoesFirst stamp l x y :=
  (goesFirst_or hx hy (h.ne hnodup)).resolve_right fun h' => h.asymm hnodup (h'.mono hsub)

/-! ## The first to go -/

/-- The elements before it are stamped later, those after it no earlier. -/
theorem first_split (h : first stamp l = .some m) :
    ∃ pre post, l = pre ++ m :: post ∧ (∀ x ∈ pre, stamp m < stamp x) ∧ ∀ x ∈ post, stamp m ≤ stamp x := by
  unfold first at h
  induction l with
  | nil => cases h
  | cons y l ih =>
    rw [List.argmin_cons] at h
    cases hmin : l.argmin stamp with
    | none =>
      rw [hmin] at h
      cases h
      rw [List.argmin_eq_none.mp hmin]
      exact ⟨[], [], by simp⟩
    | some c =>
      rw [hmin] at h
      simp only at h
      split at h <;> cases h
      next hlt =>
        obtain ⟨pre, post, rfl, hpre, hpost⟩ := ih hmin
        exact ⟨y :: pre, post, rfl, List.forall_mem_cons.mpr ⟨hlt, hpre⟩, hpost⟩
      next hle =>
        exact ⟨[], l, rfl, by simp, fun x hx => (le_of_not_gt hle).trans (List.le_of_mem_argmin hx hmin)⟩

theorem mem_of_first (h : first stamp l = .some m) : m ∈ l := List.argmin_mem h

theorem goesFirst_of_first (h : first stamp l = .some m) (hx : x ∈ l) (hne : x ≠ m) : GoesFirst stamp l m x := by
  obtain ⟨pre, post, rfl, hpre, hpost⟩ := first_split h
  rcases List.mem_append.mp hx with hx | hx
  · exact .inl (hpre x hx)
  · have hx := (List.mem_cons.mp hx).resolve_left hne
    refine (lt_or_eq_of_le (hpost x hx)).imp id fun heq => ⟨heq, ?_⟩
    exact (List.cons_sublist_cons.mpr (List.singleton_sublist.mpr hx)).trans (List.sublist_append_right _ _)

/-- In order, the first to go is the one used first. -/
theorem InOrder.first_le (h : InOrder stamp use l) (hfirst : first stamp l = .some m) (hx : x ∈ l) : use m ≤ use x := by
  by_cases hne : x = m
  · rw [hne]
  · exact le_of_lt (h m (mem_of_first hfirst) x hx (goesFirst_of_first hfirst hx hne))

/-! ## What keeps the order -/

theorem InOrder.sublist (h : InOrder stamp use l') (hsub : l.Sublist l') : InOrder stamp use l :=
  fun x hx y hy hfirst => h x (hsub.subset hx) y (hsub.subset hy) (hfirst.mono hsub)

theorem InOrder.congr {use' : α → Nat} (h : InOrder stamp use l) (huse : ∀ x ∈ l, use' x = use x) :
    InOrder stamp use' l := by
  intro x hx y hy hfirst
  rw [huse x hx, huse y hy]
  exact h x hx y hy hfirst

/-- To use what was used last. -/
theorem InOrder.use_again {use' : α → Nat} (hnodup : l.Nodup) (h : InOrder stamp use l)
    (hlast : ∀ x ∈ l, use x ≤ use m) (hagain : ∀ x ∈ l, use x < use' m) (hothers : ∀ x ∈ l, x ≠ m → use' x = use x) :
    InOrder stamp use' l := by
  intro x hx y hy hfirst
  have hne : x ≠ y := hfirst.ne hnodup
  have hused : use x < use y := h x hx y hy hfirst
  by_cases hy' : y = m
  · rw [hothers x hx (hy' ▸ hne), hy']
    exact hagain x hx
  · by_cases hx' : x = m
    · rw [hx'] at hused
      exact absurd (hlast y hy) (not_le_of_gt hused)
    · rw [hothers x hx hx', hothers y hy hy']
      exact hused

/-- To put an element in, stamped and used after the others. -/
theorem InOrder.insert {pre post : List α} (hnodup : (pre ++ m :: post).Nodup) (h : InOrder stamp use (pre ++ post))
    (hpre : ∀ x ∈ pre, stamp x ≤ stamp m) (hpost : ∀ x ∈ post, stamp x < stamp m)
    (hused : ∀ x ∈ pre ++ post, use x < use m) : InOrder stamp use (pre ++ m :: post) := by
  have hsub : (pre ++ post).Sublist (pre ++ m :: post) := List.Sublist.append_left (List.sublist_cons_self m post) pre
  have hmem : ∀ x ∈ pre ++ m :: post, x = m ∨ x ∈ pre ++ post :=
    fun x hx => List.mem_cons.mp (List.perm_middle.mem_iff.mp hx)
  have hfirst : ∀ x ∈ pre ++ post, GoesFirst stamp (pre ++ m :: post) x m := by
    intro x hx
    rcases List.mem_append.mp hx with hx | hx
    · refine (lt_or_eq_of_le (hpre x hx)).imp id fun heq => ⟨heq, ?_⟩
      exact (List.singleton_sublist.mpr hx).append (List.singleton_sublist.mpr (List.mem_cons_self ..))
    · exact .inl (hpost x hx)
  intro x hx y hy hxy
  rcases hmem y hy with rfl | hy'
  · exact hused x ((hmem x hx).resolve_left (hxy.ne hnodup))
  · rcases hmem x hx with rfl | hx'
    · exact absurd hxy ((hfirst y hy').asymm hnodup)
    · exact h x hx' y hy' (hxy.of_sublist hnodup hsub hx' hy')

end Recency
