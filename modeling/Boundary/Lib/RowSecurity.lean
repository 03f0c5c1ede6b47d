/-
A table that a session sees and writes through a guard, as row security has it.

Where the guard lets the session see and write exactly the rows it owns, and a
row it owns conflicts with another's in no key but one that is drawn from a
sequence, the table is to the session the table of its own rows alone
(`exec_owned`, `run_owned`), so that no run tells two tables with the same own
rows apart (`run_eq_of_owned_eq`) or touches another's rows (`run_others`).
-/
import Mathlib.Data.List.Pairwise

namespace Sql

variable {ρ : Type}

/-! ## Guarded tables -/

/-- What a session may see and write, and what the table admits. -/
structure Guard (ρ : Type) where
  visible : ρ → Bool
  writable : ρ → Bool
  valid : ρ → Bool
  conflict : ρ → ρ → Bool

/-- The rows of a table, and how many values of its sequence were drawn. -/
structure Heap (ρ : Type) where
  rows : List ρ
  drawn : Nat

/-- Statements, which may read all that is visible when they start. -/
inductive Dml (ρ : Type) where
  | select (which : List ρ → ρ → Bool)
  /-- A row is made with the value drawn for it. -/
  | insert (made : List ρ → List (Nat → ρ))
  | update (which : List ρ → ρ → Bool) (set : List ρ → ρ → ρ)
  | delete (which : List ρ → ρ → Bool)

inductive Outcome (ρ : Type) where
  | rows (rs : List ρ)
  | affected (n : Nat)
  | denied
  | invalid
  | duplicate

namespace Guard

variable (g : Guard ρ)

/-- Why a row is not written beside others, in the order of the checks. -/
def refusal (others : List ρ) (r : ρ) : Option (Outcome ρ) :=
  if g.writable r = false then .some .denied
  else if g.valid r = false then .some .invalid
  else if others.any (g.conflict r) then .some .duplicate
  else .none

/-- Rows are inserted one after the other, each with a value of the sequence. -/
def insertAll : List (Nat → ρ) → Heap ρ → Option (Outcome ρ) × Heap ρ
  | [], h => (.none, h)
  | make :: made, h =>
    match g.refusal h.rows (make h.drawn) with
    | .some outcome => (.some outcome, { h with drawn := h.drawn + 1 })
    | .none => insertAll made ⟨h.rows ++ [make h.drawn], h.drawn + 1⟩

/-- Rows are updated one after the other; those before have been. -/
def updateAll (which : ρ → Bool) (set : ρ → ρ) : List ρ → List ρ → Nat → Except (Outcome ρ) (List ρ × Nat)
  | before, [], n => .ok (before, n)
  | before, r :: todo, n =>
    if g.visible r && which r then
      match g.refusal (before ++ todo) (set r) with
      | .some outcome => .error outcome
      | .none => updateAll which set (before ++ [set r]) todo (n + 1)
    else updateAll which set (before ++ [r]) todo n

def view (h : Heap ρ) : List ρ := h.rows.filter g.visible

/-- A statement that fails leaves the rows, but not the sequence, as they were. -/
def exec : Dml ρ → Heap ρ → Outcome ρ × Heap ρ
  | .select which, h => (.rows ((g.view h).filter (which (g.view h))), h)
  | .insert made, h =>
    match g.insertAll (made (g.view h)) h with
    | (.none, h') => (.affected (made (g.view h)).length, h')
    | (.some outcome, h') => (outcome, { h with drawn := h'.drawn })
  | .update which set, h =>
    match g.updateAll (which (g.view h)) (set (g.view h)) [] h.rows 0 with
    | .ok (rows, n) => (.affected n, { h with rows })
    | .error outcome => (outcome, h)
  | .delete which, h =>
    (.affected ((g.view h).countP (which (g.view h))),
      { h with rows := h.rows.filter fun r => !(g.visible r && which (g.view h) r) })

def run : List (Dml ρ) → Heap ρ → List (Outcome ρ) × Heap ρ
  | [], h => ([], h)
  | stmt :: stmts, h =>
    let r := g.exec stmt h
    let rest := run stmts r.2
    (r.1 :: rest.1, rest.2)

end Guard

/-! ## Ownership -/

/-- The rows of a heap that are owned. -/
def Heap.owned (own : ρ → Bool) (h : Heap ρ) : Heap ρ := { h with rows := h.rows.filter own }

/-- The session sees and writes its own rows, and shares with others no key but
`keyed`. -/
structure Owned (g : Guard ρ) (own : ρ → Bool) (keyed : ρ → ρ → Prop) : Prop where
  visible : ∀ r, g.visible r = own r
  writable : ∀ r, g.writable r = own r
  conflict : ∀ r r', own r = true → own r' = false → g.conflict r r' = true → keyed r r'

/-- No two rows have the same key, and no row has one the sequence is still to
give; `from_ n r` says that the key of `r` is the `n`th. -/
structure KeysDrawn (keyed : ρ → ρ → Prop) (from_ : Nat → ρ → Prop) (h : Heap ρ) : Prop where
  distinct : h.rows.Pairwise fun r r' => ¬ keyed r r' ∧ ¬ keyed r' r
  ahead : ∀ r ∈ h.rows, ∀ n, h.drawn ≤ n → ¬ from_ n r

/-- The key of the row made with the `n`th value is the `n`th and no other. -/
def TakesKey (keyed : ρ → ρ → Prop) (from_ : Nat → ρ → Prop) (make : Nat → ρ) : Prop :=
  ∀ n, (∀ r, keyed (make n) r ∨ keyed r (make n) → from_ n r) ∧ ∀ n', from_ n' (make n) → n' = n

/-- `r'` has no key but that of `r`. -/
def KeepsKey (keyed : ρ → ρ → Prop) (from_ : Nat → ρ → Prop) (r r' : ρ) : Prop :=
  (∀ s, keyed r' s → keyed r s) ∧ (∀ s, keyed s r' → keyed s r) ∧ ∀ n, from_ n r' → from_ n r

/-- The statement takes its keys from the sequence and changes none. -/
def Dml.LeavesKeys (keyed : ρ → ρ → Prop) (from_ : Nat → ρ → Prop) : Dml ρ → Prop
  | select _ | delete _ => True
  | insert made => ∀ view, ∀ make ∈ made view, TakesKey keyed from_ make
  | update _ set => ∀ view r, KeepsKey keyed from_ r (set view r)

variable {g : Guard ρ} {own : ρ → Bool} {keyed : ρ → ρ → Prop} {from_ : Nat → ρ → Prop} {h h' : Heap ρ}

theorem KeysDrawn.mono (hkeys : KeysDrawn keyed from_ h) {n : Nat} (hn : h.drawn ≤ n) :
    KeysDrawn keyed from_ { h with drawn := n } :=
  ⟨hkeys.distinct, fun r hr m hm => hkeys.ahead r hr m (Nat.le_trans hn hm)⟩

theorem KeysDrawn.sublist (hkeys : KeysDrawn keyed from_ h) {rows : List ρ} (hrows : rows.Sublist h.rows) :
    KeysDrawn keyed from_ { h with rows } :=
  ⟨hkeys.distinct.sublist hrows, fun r hr => hkeys.ahead r (hrows.subset hr)⟩

/-- A row made with the next value has a key of its own. -/
theorem KeysDrawn.append (hkeys : KeysDrawn keyed from_ h) {make : Nat → ρ} (hmake : TakesKey keyed from_ make) :
    KeysDrawn keyed from_ ⟨h.rows ++ [make h.drawn], h.drawn + 1⟩ := by
  constructor
  · refine List.pairwise_append.mpr ⟨hkeys.distinct, List.pairwise_singleton _ _, fun r hr r' hr' => ?_⟩
    rw [List.mem_singleton.mp hr']
    exact ⟨fun hsame => hkeys.ahead r hr _ (Nat.le_refl _) ((hmake _).1 r (.inr hsame)),
      fun hsame => hkeys.ahead r hr _ (Nat.le_refl _) ((hmake _).1 r (.inl hsame))⟩
  · intro r hr n hn
    rcases List.mem_append.mp hr with hr | hr
    · exact hkeys.ahead r hr n (Nat.le_of_succ_le hn)
    · rw [List.mem_singleton.mp hr]
      intro hfrom
      have heq := (hmake _).2 n hfrom
      simp only at hn
      omega

/-- A row that keeps its key may take the place of the one it was. -/
theorem KeysDrawn.replace {before todo : List ρ} {n : Nat} {r r' : ρ}
    (hkeys : KeysDrawn keyed from_ ⟨before ++ r :: todo, n⟩) (hset : KeepsKey keyed from_ r r') :
    KeysDrawn keyed from_ ⟨before ++ r' :: todo, n⟩ := by
  obtain ⟨hbefore, htodo, hacross⟩ := List.pairwise_append.mp hkeys.distinct
  obtain ⟨hfirst, htodo⟩ := List.pairwise_cons.mp htodo
  constructor
  · refine List.pairwise_append.mpr ⟨hbefore, List.pairwise_cons.mpr ⟨fun s hs => ?_, htodo⟩, fun s hs s' hs' => ?_⟩
    · exact ⟨fun hsame => (hfirst s hs).1 (hset.1 s hsame), fun hsame => (hfirst s hs).2 (hset.2.1 s hsame)⟩
    · rcases List.mem_cons.mp hs' with rfl | hs'
      · have hold := hacross s hs r (List.mem_cons_self ..)
        exact ⟨fun hsame => hold.1 (hset.2.1 s hsame), fun hsame => hold.2 (hset.1 s hsame)⟩
      · exact hacross s hs s' (List.mem_cons_of_mem _ hs')
  · intro s hs m hm hfrom
    rcases List.mem_append.mp hs with hs | hs
    · exact hkeys.ahead s (List.mem_append_left _ hs) m hm hfrom
    · rcases List.mem_cons.mp hs with rfl | hs
      · exact hkeys.ahead r (by simp) m hm (hset.2.2 m hfrom)
      · exact hkeys.ahead s (List.mem_append_right _ (List.mem_cons_of_mem _ hs)) m hm hfrom

/-! ## A statement sees the owned rows alone -/

/-- Whether a row is refused depends on the owned rows alone, where no other has
its key. -/
theorem refusal_owned (hown : Owned g own keyed) {others : List ρ} {r : ρ}
    (hothers : ∀ r' ∈ others, own r' = false → ¬ keyed r r') :
    g.refusal (others.filter own) r = g.refusal others r := by
  unfold Guard.refusal
  by_cases hwritable : g.writable r = false
  · rw [if_pos hwritable, if_pos hwritable]
  rw [if_neg hwritable, if_neg hwritable]
  have hr : own r = true := by rw [← hown.writable r]; simpa using hwritable
  have hany : (others.filter own).any (g.conflict r) = others.any (g.conflict r) := by
    rw [Bool.eq_iff_iff, List.any_eq_true, List.any_eq_true]
    constructor
    · rintro ⟨r', hr', hconflict⟩
      exact ⟨r', (List.mem_filter.mp hr').1, hconflict⟩
    · rintro ⟨r', hr', hconflict⟩
      cases hown' : own r' with
      | true => exact ⟨r', List.mem_filter.mpr ⟨hr', hown'⟩, hconflict⟩
      | false => exact absurd (hown.conflict r r' hr hown' hconflict) (hothers r' hr' hown')
  rw [hany]

/-- A row that was written is owned. -/
theorem own_of_written (hown : Owned g own keyed) {others : List ρ} {r : ρ} (h : g.refusal others r = .none) :
    own r = true := by
  unfold Guard.refusal at h
  by_cases hwritable : g.writable r = false
  · rw [if_pos hwritable] at h
    cases h
  · rw [← hown.writable r]
    simpa using hwritable

theorem insertAll_owned (hown : Owned g own keyed) {made : List (Nat → ρ)} (hkeys : KeysDrawn keyed from_ h)
    (hmade : ∀ make ∈ made, TakesKey keyed from_ make) :
    g.insertAll made (h.owned own) = ((g.insertAll made h).1, (g.insertAll made h).2.owned own) ∧
      KeysDrawn keyed from_ (g.insertAll made h).2 ∧ h.drawn ≤ (g.insertAll made h).2.drawn ∧
      (g.insertAll made h).2.rows.filter (!own ·) = h.rows.filter (!own ·) := by
  induction made generalizing h with
  | nil => exact ⟨rfl, hkeys, Nat.le_refl _, rfl⟩
  | cons make made ih =>
    have hmake := hmade make (List.mem_cons_self ..)
    have hsame : g.refusal (h.owned own).rows (make h.drawn) = g.refusal h.rows (make h.drawn) :=
      refusal_owned hown fun r' hr' _ hkeyed => hkeys.ahead r' hr' _ (Nat.le_refl _) ((hmake _).1 r' (.inl hkeyed))
    unfold Guard.insertAll
    simp only [Heap.owned] at hsame ⊢
    rw [hsame]
    cases hrefusal : g.refusal h.rows (make h.drawn) with
    | some outcome => exact ⟨rfl, hkeys.mono (Nat.le_succ _), Nat.le_succ _, rfl⟩
    | none =>
      have hnew := own_of_written hown hrefusal
      obtain ⟨hproject, hkeys', hdrawn, hothers⟩ := ih (hkeys.append hmake) fun make' hmake' =>
        hmade make' (List.mem_cons_of_mem _ hmake')
      simp only [Heap.owned, List.filter_append, List.filter_cons_of_pos hnew, List.filter_nil] at hproject
      refine ⟨hproject, hkeys', Nat.le_of_succ_le hdrawn, hothers.trans ?_⟩
      simp [List.filter_append, hnew]

theorem updateAll_owned (hown : Owned g own keyed) (which : ρ → Bool) {set : ρ → ρ} (before todo : List ρ)
    (n : Nat) {k : Nat} (hkeys : KeysDrawn keyed from_ ⟨before ++ todo, k⟩) (hset : ∀ r, KeepsKey keyed from_ r (set r)) :
    g.updateAll which set (before.filter own) (todo.filter own) n =
        (g.updateAll which set before todo n).map (fun r => (r.1.filter own, r.2)) ∧
      ∀ rows m, g.updateAll which set before todo n = .ok (rows, m) →
        KeysDrawn keyed from_ ⟨rows, k⟩ ∧ rows.filter (!own ·) = (before ++ todo).filter (!own ·) := by
  induction todo generalizing before n with
  | nil =>
    refine ⟨rfl, fun rows m hrows => ?_⟩
    cases hrows
    rw [List.append_nil] at hkeys ⊢
    exact ⟨hkeys, rfl⟩
  | cons r todo ih =>
    have hstay : ∀ r', own r' = own r → (KeysDrawn keyed from_ ⟨before ++ r' :: todo, k⟩) → ∀ m,
        g.updateAll which set (before.filter own ++ [r'].filter own) (todo.filter own) m =
            (g.updateAll which set (before ++ [r']) todo m).map (fun r => (r.1.filter own, r.2)) ∧
          ∀ rows l, g.updateAll which set (before ++ [r']) todo m = .ok (rows, l) →
            KeysDrawn keyed from_ ⟨rows, k⟩ ∧ rows.filter (!own ·) = (before ++ r' :: todo).filter (!own ·) := by
      intro r' _ hkeys' m
      rw [← List.filter_append]
      have happend : before ++ r' :: todo = before ++ [r'] ++ todo := by simp
      rw [happend] at hkeys' ⊢
      exact ih _ _ hkeys'
    by_cases hvisible : own r = true
    · rw [List.filter_cons_of_pos hvisible]
      unfold Guard.updateAll
      rw [hown.visible r, hvisible, Bool.true_and]
      by_cases hwhich : which r = true
      · simp only [if_pos hwhich]
        -- no other row has the key, which the row keeps
        have hothers : ∀ r' ∈ before ++ todo, own r' = false → ¬ keyed (set r) r' := by
          intro r' hr' _ hkeyed
          have hold := (hset r).1 r' hkeyed
          obtain ⟨-, htodo, hacross⟩ := List.pairwise_append.mp hkeys.distinct
          rcases List.mem_append.mp hr' with hr' | hr'
          · exact (hacross r' hr' r (List.mem_cons_self ..)).2 hold
          · exact ((List.pairwise_cons.mp htodo).1 r' hr').1 hold
        rw [← List.filter_append, refusal_owned hown hothers]
        cases hrefusal : g.refusal (before ++ todo) (set r) with
        | some outcome => exact ⟨rfl, fun rows m hrows => by cases hrows⟩
        | none =>
          have hnew := own_of_written hown hrefusal
          have hnext := hstay (set r) (hnew.trans hvisible.symm) (hkeys.replace (hset r)) (n + 1)
          rw [List.filter_cons_of_pos hnew, List.filter_nil] at hnext
          refine ⟨hnext.1, fun rows m hrows => ?_⟩
          obtain ⟨hkeys', hrest⟩ := hnext.2 rows m hrows
          refine ⟨hkeys', hrest.trans ?_⟩
          simp [List.filter_append, hnew, hvisible]
      · simp only [if_neg hwhich]
        have hnext := hstay r rfl hkeys n
        rw [List.filter_cons_of_pos hvisible, List.filter_nil] at hnext
        exact hnext
    · have hfalse : own r = false := by simpa using hvisible
      rw [List.filter_cons_of_neg hvisible]
      have hnext := hstay r rfl hkeys n
      rw [List.filter_cons_of_neg hvisible, List.filter_nil, List.append_nil] at hnext
      have hskip : g.updateAll which set before (r :: todo) n = g.updateAll which set (before ++ [r]) todo n := by
        rw [Guard.updateAll, hown.visible r, hfalse, Bool.false_and]
        simp
      rw [hskip]
      exact hnext

/-- All that is visible is owned. -/
theorem view_owned (hown : Owned g own keyed) : g.view (h.owned own) = g.view h := by
  have hvisible : g.visible = own := funext hown.visible
  simp only [Guard.view, Heap.owned, hvisible, List.filter_filter, Bool.and_self]

theorem exec_owned (hown : Owned g own keyed) {stmt : Dml ρ} (hkeys : KeysDrawn keyed from_ h)
    (hstmt : stmt.LeavesKeys keyed from_) :
    g.exec stmt (h.owned own) = ((g.exec stmt h).1, (g.exec stmt h).2.owned own) ∧
      KeysDrawn keyed from_ (g.exec stmt h).2 ∧ (g.exec stmt h).2.rows.filter (!own ·) = h.rows.filter (!own ·) := by
  have hview : g.view (h.owned own) = g.view h := view_owned hown
  cases stmt with
  | select which =>
    refine ⟨?_, hkeys, rfl⟩
    simp only [Guard.exec, hview]
  | insert made =>
    obtain ⟨hproject, hkeys', hdrawn, hothers⟩ := insertAll_owned hown hkeys (hstmt (g.view h))
    simp only [Guard.exec, hview]
    rw [hproject]
    generalize g.insertAll (made (g.view h)) h = inserted at hkeys' hdrawn hothers ⊢
    obtain ⟨outcome, h'⟩ := inserted
    cases outcome with
    | none => exact ⟨rfl, hkeys', hothers⟩
    | some outcome => exact ⟨rfl, hkeys.mono hdrawn, rfl⟩
  | update which set =>
    obtain ⟨hproject, hkeeps⟩ :=
      updateAll_owned hown (which (g.view h)) [] h.rows 0 hkeys (hstmt (g.view h))
    simp only [Guard.exec, hview]
    rw [List.filter_nil] at hproject
    simp only [Heap.owned] at hproject ⊢
    rw [hproject]
    cases hupdate : g.updateAll (which (g.view h)) (set (g.view h)) [] h.rows 0 with
    | error outcome => exact ⟨rfl, hkeys, rfl⟩
    | ok r =>
      obtain ⟨rows, n⟩ := r
      obtain ⟨hkeys', hothers⟩ := hkeeps rows n hupdate
      exact ⟨rfl, hkeys', hothers⟩
  | delete which =>
    refine ⟨?_, hkeys.sublist List.filter_sublist, ?_⟩
    · simp only [Guard.exec, hview]
      simp only [Heap.owned, List.filter_filter, Bool.and_comm]
    · simp only [Guard.exec, List.filter_filter, hown.visible]
      exact List.filter_congr fun r _ => by cases own r <;> simp

/-! ## Runs -/

theorem run_owned (hown : Owned g own keyed) {stmts : List (Dml ρ)} (hkeys : KeysDrawn keyed from_ h)
    (hstmts : ∀ stmt ∈ stmts, stmt.LeavesKeys keyed from_) :
    g.run stmts (h.owned own) = ((g.run stmts h).1, (g.run stmts h).2.owned own) := by
  induction stmts generalizing h with
  | nil => rfl
  | cons stmt stmts ih =>
    obtain ⟨hproject, hkeys', -⟩ := exec_owned hown hkeys (hstmts stmt (List.mem_cons_self ..))
    unfold Guard.run
    rw [hproject]
    simp only [ih hkeys' fun stmt' hstmt' => hstmts stmt' (List.mem_cons_of_mem _ hstmt')]

/-- No run touches a row that is not owned, or leaves a new one. -/
theorem run_others (hown : Owned g own keyed) {stmts : List (Dml ρ)} (hkeys : KeysDrawn keyed from_ h)
    (hstmts : ∀ stmt ∈ stmts, stmt.LeavesKeys keyed from_) :
    (g.run stmts h).2.rows.filter (!own ·) = h.rows.filter (!own ·) := by
  induction stmts generalizing h with
  | nil => rfl
  | cons stmt stmts ih =>
    obtain ⟨-, hkeys', hothers⟩ := exec_owned hown hkeys (hstmts stmt (List.mem_cons_self ..))
    unfold Guard.run
    exact (ih hkeys' fun stmt' hstmt' => hstmts stmt' (List.mem_cons_of_mem _ hstmt')).trans hothers

/-- No run tells apart two heaps whose owned rows are the same. -/
theorem run_eq_of_owned_eq (hown : Owned g own keyed) {stmts : List (Dml ρ)} (hkeys : KeysDrawn keyed from_ h)
    (hkeys' : KeysDrawn keyed from_ h') (hstmts : ∀ stmt ∈ stmts, stmt.LeavesKeys keyed from_)
    (hsame : h.owned own = h'.owned own) :
    (g.run stmts h).1 = (g.run stmts h').1 ∧ (g.run stmts h).2.owned own = (g.run stmts h').2.owned own := by
  have hrun := run_owned hown hkeys hstmts
  rw [hsame, run_owned hown hkeys' hstmts] at hrun
  exact ⟨(congrArg Prod.fst hrun).symm, (congrArg Prod.snd hrun).symm⟩

/-! ## What a guard keeps out, whatever the keys -/

/-- The session sees and writes owned rows alone, and perhaps not all of them. -/
structure Within (g : Guard ρ) (own : ρ → Bool) : Prop where
  visible : ∀ r, g.visible r = true → own r = true
  writable : ∀ r, g.writable r = true → own r = true

theorem Within.of_refusal (hown : Within g own) {others : List ρ} {r : ρ} (h : g.refusal others r = .none) :
    own r = true := by
  refine hown.writable r ?_
  by_contra hno
  rw [Guard.refusal, if_pos (by simpa using hno)] at h
  cases h

theorem insertAll_within (hown : Within g own) : ∀ (made : List (Nat → ρ)) (h : Heap ρ),
    (g.insertAll made h).2.rows.filter (!own ·) = h.rows.filter (!own ·)
  | [], _ => rfl
  | make :: made, h => by
    unfold Guard.insertAll
    cases hrefusal : g.refusal h.rows (make h.drawn) with
    | some outcome => rfl
    | none =>
      simp only
      rw [insertAll_within hown, List.filter_append]
      simp [hown.of_refusal hrefusal]

theorem updateAll_within (hown : Within g own) {which : ρ → Bool} {set : ρ → ρ} : ∀ {before todo : List ρ} {n : Nat}
    {rows : List ρ} {m : Nat}, g.updateAll which set before todo n = .ok (rows, m) →
    rows.filter (!own ·) = (before ++ todo).filter (!own ·)
  | before, [], n, rows, m, h => by
    cases h
    rw [List.append_nil]
  | before, r :: todo, n, rows, m, h => by
    unfold Guard.updateAll at h
    split at h
    · next htakes =>
      rw [Bool.and_eq_true] at htakes
      cases hrefusal : g.refusal (before ++ todo) (set r) with
      | some outcome =>
        rw [hrefusal] at h
        cases h
      | none =>
        rw [hrefusal] at h
        rw [updateAll_within hown h]
        simp [List.filter_append, hown.of_refusal hrefusal, hown.visible r htakes.1]
    · rw [updateAll_within hown h]
      simp [List.filter_append]

/-- The statement was not refused. -/
def Outcome.inOrder : Outcome ρ → Bool
  | .rows _ => true
  | .affected _ => true
  | _ => false

/-- The rows a statement answers with. -/
def Outcome.read : Outcome ρ → List ρ
  | .rows rs => rs
  | _ => []

theorem Outcome.read_of_refused {outcome : Outcome ρ} (h : outcome.inOrder = false) : outcome.read = [] := by
  cases outcome with
  | rows rs => cases h
  | _ => rfl

theorem Guard.refusal_inOrder {others : List ρ} {r : ρ} {outcome : Outcome ρ}
    (h : g.refusal others r = .some outcome) : outcome.inOrder = false := by
  unfold Guard.refusal at h
  split at h
  · cases h; rfl
  split at h
  · cases h; rfl
  split at h
  · cases h; rfl
  · cases h

theorem Guard.insertAll_inOrder : ∀ {made : List (Nat → ρ)} {h : Heap ρ} {outcome : Outcome ρ},
    (g.insertAll made h).1 = .some outcome → outcome.inOrder = false
  | [], _, _, hnone => by cases hnone
  | make :: made, h, outcome, hsome => by
    unfold Guard.insertAll at hsome
    split at hsome
    · next hrefusal =>
      cases hsome
      exact Guard.refusal_inOrder hrefusal
    · exact Guard.insertAll_inOrder hsome

theorem Guard.updateAll_inOrder {which : ρ → Bool} {set : ρ → ρ} : ∀ {before todo : List ρ} {n : Nat}
    {outcome : Outcome ρ}, g.updateAll which set before todo n = .error outcome → outcome.inOrder = false
  | before, [], n, outcome, h => by cases h
  | before, r :: todo, n, outcome, h => by
    unfold Guard.updateAll at h
    split at h
    · split at h
      · next hrefusal =>
        cases h
        exact Guard.refusal_inOrder hrefusal
      · exact Guard.updateAll_inOrder h
    · exact Guard.updateAll_inOrder h

/-- A statement reads owned rows alone, and leaves the others as they were. -/
theorem exec_within (hown : Within g own) (stmt : Dml ρ) (h : Heap ρ) :
    (∀ r ∈ (g.exec stmt h).1.read, own r = true) ∧
      (g.exec stmt h).2.rows.filter (!own ·) = h.rows.filter (!own ·) := by
  have hnothing : ∀ {outcome : Outcome ρ}, outcome.read = [] → ∀ r ∈ outcome.read, own r = true := by
    intro outcome hnil r hr
    rw [hnil] at hr
    cases hr
  cases stmt with
  | select which =>
    refine ⟨fun r hr => ?_, rfl⟩
    obtain ⟨hview, -⟩ := List.mem_filter.mp hr
    exact hown.visible r (List.mem_filter.mp hview).2
  | insert made =>
    have hrows := insertAll_within hown (made (g.view h)) h
    simp only [Guard.exec]
    generalize hinsert : g.insertAll (made (g.view h)) h = inserted at hrows
    obtain ⟨outcome, h'⟩ := inserted
    cases outcome with
    | none => exact ⟨hnothing rfl, hrows⟩
    | some outcome => exact ⟨hnothing (Outcome.read_of_refused (Guard.insertAll_inOrder (by rw [hinsert]))), rfl⟩
  | update which set =>
    simp only [Guard.exec]
    cases hupdate : g.updateAll (which (g.view h)) (set (g.view h)) [] h.rows 0 with
    | error outcome => exact ⟨hnothing (Outcome.read_of_refused (Guard.updateAll_inOrder hupdate)), rfl⟩
    | ok r => exact ⟨hnothing rfl, updateAll_within hown hupdate⟩
  | delete which =>
    refine ⟨hnothing rfl, ?_⟩
    simp only [Guard.exec, List.filter_filter]
    refine List.filter_congr fun r _ => ?_
    cases hv : g.visible r with
    | false => simp
    | true => simp [hown.visible r hv]

/-! ## What an insert adds -/

theorem mem_insertAll {r : ρ} : ∀ {made : List (Nat → ρ)} {h : Heap ρ},
    r ∈ (g.insertAll made h).2.rows → r ∈ h.rows ∨ ∃ make ∈ made, ∃ n, r = make n
  | [], _, hr => .inl hr
  | make :: made, h, hr => by
    unfold Guard.insertAll at hr
    split at hr
    · exact .inl hr
    · rcases mem_insertAll hr with hrow | ⟨make', hmake', n, rfl⟩
      · rcases List.mem_append.mp hrow with hrow | hrow
        · exact .inl hrow
        · exact .inr ⟨make, List.mem_cons_self, h.drawn, List.mem_singleton.mp hrow⟩
      · exact .inr ⟨make', List.mem_cons_of_mem _ hmake', n, rfl⟩

/-- Rows that may all be written are not denied. -/
theorem insertAll_not_denied : ∀ {made : List (Nat → ρ)} {h : Heap ρ},
    (∀ make ∈ made, ∀ n, g.writable (make n) = true) → (g.insertAll made h).1 ≠ .some .denied
  | [], _, _ => nofun
  | make :: made, h, hmade => by
    unfold Guard.insertAll
    cases hrefusal : g.refusal h.rows (make h.drawn) with
    | some outcome =>
      unfold Guard.refusal at hrefusal
      rw [hmade make List.mem_cons_self, if_neg (by simp)] at hrefusal
      intro hdenied
      cases hdenied
      split at hrefusal
      · cases hrefusal
      split at hrefusal
      · cases hrefusal
      · cases hrefusal
    | none => exact insertAll_not_denied fun make' hmake' => hmade make' (List.mem_cons_of_mem _ hmake')

/-- A row that is refused wherever it comes is refused at the first. -/
theorem insertAll_refused {made : List (Nat → ρ)} {h : Heap ρ} (hne : made ≠ [])
    (hrefused : ∀ make ∈ made, ∀ n others, g.refusal others (make n) ≠ .none) :
    ∃ outcome, (g.insertAll made h).1 = .some outcome := by
  cases made with
  | nil => exact absurd rfl hne
  | cons make made =>
    unfold Guard.insertAll
    cases hrefusal : g.refusal h.rows (make h.drawn) with
    | some outcome => exact ⟨outcome, rfl⟩
    | none => exact absurd hrefusal (hrefused make List.mem_cons_self _ _)

/-- An insert goes through whole, or is refused and leaves the rows. -/
theorem exec_insert (made : List ρ → List (Nat → ρ)) (h : Heap ρ) :
    (g.insertAll (made (g.view h)) h).1 = .none ∧
        g.exec (.insert made) h = (.affected (made (g.view h)).length, (g.insertAll (made (g.view h)) h).2) ∨
      ∃ outcome, (g.insertAll (made (g.view h)) h).1 = .some outcome ∧ (g.exec (.insert made) h).1 = outcome ∧
        (g.exec (.insert made) h).2.rows = h.rows := by
  unfold Guard.exec
  simp only
  generalize g.insertAll (made (g.view h)) h = inserted
  obtain ⟨outcome, h'⟩ := inserted
  cases outcome with
  | none => exact .inl ⟨rfl, rfl⟩
  | some outcome => exact .inr ⟨outcome, rfl, rfl, rfl⟩

end Sql
