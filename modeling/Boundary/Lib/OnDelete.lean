/-
Deleting rows with what refers to them, as an object mapper does it: rows are
collected over the relations that cascade, a row that is protected refuses, and
so does one that is restricted and not collected; what else refers is set to
NULL, to a default or to a value. It acts on the rows it sees. The database then
refuses to leave a reference with nothing to refer to.

Whatever is deleted, the rows left are rows there were, but for columns that are
set (`Shrinks`). And however often the rows are deleted that lookups lead from
to a value, what does not go with such rows over relations that cascade is left,
but for columns that are set because they refer to what goes (`Schema.Spares`).
-/
import Boundary.Lib.Uniqueness
import Mathlib.Algebra.GroupWithZero.Nat

namespace Sql

variable {τ κ δ : Type}

/-! ## Schemas -/

/-- What becomes of a row that refers to one that is deleted. -/
inductive OnDelete (δ : Type) where
  | cascade
  | protect
  | restrict
  | setNull
  | setDefault (value : Option δ)
  | set (value : Option δ)
  | doNothing
deriving DecidableEq

/-- What the column that refers is set to, if it is. -/
def OnDelete.sets : OnDelete δ → Option (Option δ)
  | .setNull => .some .none
  | .setDefault value => .some value
  | .set value => .some value
  | .cascade | .protect | .restrict | .doNothing => .none

/-- A column of one table that holds a key of another's rows. -/
structure Relation (τ κ δ : Type) where
  source : τ
  column : κ
  target : τ
  key : κ
  onDelete : OnDelete δ := .cascade
  /-- The row referred to is a part of the row that refers, and goes with it. -/
  parentLink : Bool := false
  /-- The database checks the reference. -/
  enforced : Bool := true
  /-- The rows it is a relation of: of a generic one, those with its content
  type, as the column of others holds keys of other tables. -/
  applies : Tuple κ δ → Bool := fun _ => true

/-- The rows of each table. -/
abbrev Contents (τ κ δ : Type) := τ → List (Tuple κ δ)

structure Schema (τ κ δ : Type) where
  primaryKey : τ → κ
  relations : List (Relation τ κ δ)
  /-- What else the database checks, at once: uniqueness, for one. -/
  accepts : Contents τ κ δ → Bool := fun _ => true

/-- Rows, each with its table. -/
abbrev Collected (τ κ δ : Type) := List (τ × Tuple κ δ)

/-- What refuses a deletion. -/
inductive DeleteRefusal where
  | protected_
  | restricted
  | integrity
deriving DecidableEq

/-- The joins of a query, to the column it compares. -/
inductive Lookup (τ κ : Type) where
  | column (name : κ)
  /-- Join the rows of `table` whose `key` the row's column holds. -/
  | through (name : κ) (table : τ) (key : κ) (rest : Lookup τ κ)

section

variable [DecidableEq δ]

/-- How many joined rows a row gives that hold the value. -/
def Lookup.count (rows : Contents τ κ δ) (value : δ) : Lookup τ κ → Tuple κ δ → Nat
  | .column name, r => if r name = .some value then 1 else 0
  | .through name table key rest, r =>
    ((rows table).map fun r' => if r name ≠ .none ∧ r name = r' key then rest.count rows value r' else 0).sum

/-- The row `r` refers to `r'`. -/
def Relation.refers (rel : Relation τ κ δ) (r r' : Tuple κ δ) : Bool :=
  rel.applies r && (r rel.column).isSome && decide (r rel.column = r' rel.key)

variable [DecidableEq τ]

/-- The row refers to one that is collected. -/
def Relation.refersInto (rel : Relation τ κ δ) (found : Collected τ κ δ) (r : Tuple κ δ) : Bool :=
  found.any fun p => p.1 = rel.target && rel.refers r p.2

/-- What a relation adds to what is collected. -/
def Relation.grown (rel : Relation τ κ δ) (rows : Contents τ κ δ) (found : Collected τ κ δ) : Collected τ κ δ :=
  (if rel.onDelete = .cascade then ((rows rel.source).filter (rel.refersInto found)).map (rel.source, ·) else []) ++
    if rel.parentLink then
      ((rows rel.target).filter fun r' => found.any fun p => p.1 = rel.source && rel.refers p.2 r').map (rel.target, ·)
    else []

namespace Schema

variable (schema : Schema τ κ δ)

/-- The row, by its primary key, is collected. -/
def isCollected (found : Collected τ κ δ) (t : τ) (r : Tuple κ δ) : Bool :=
  found.any fun p => p.1 = t && p.2 (schema.primaryKey t) = r (schema.primaryKey t)

def grow (rows : Contents τ κ δ) (found : Collected τ κ δ) : Collected τ κ δ :=
  found ++ (schema.relations.flatMap fun rel => rel.grown rows found).filter fun p => !schema.isCollected found p.1 p.2

def collectFor (rows : Contents τ κ δ) : Nat → Collected τ κ δ → Collected τ κ δ
  | 0, found => found
  | n + 1, found => collectFor rows n (schema.grow rows found)

/-- What is deleted with the rows: each round but the last collects one more. -/
def collect (rows : Contents τ κ δ) (start : Collected τ κ δ) : Collected τ κ δ :=
  schema.collectFor rows
    (schema.relations.map fun rel => (rows rel.source).length + (rows rel.target).length).sum start

variable [DecidableEq κ]

/-- What a column is set to that refers to what is collected. -/
def setTo (found : Collected τ κ δ) (t : τ) (r : Tuple κ δ) (column : κ) : Option (Option δ) :=
  schema.relations.findSome? fun rel =>
    if rel.source = t && rel.column = column && rel.refersInto found r then rel.onDelete.sets else .none

/-- A row, with the columns set that refer to what is collected. -/
def updated (found : Collected τ κ δ) (t : τ) (r : Tuple κ δ) : Tuple κ δ := fun column =>
  (schema.setTo found t r column).getD (r column)

/-- A reference is left with nothing to refer to: what it referred to is gone, or
it was set so. -/
def dangles (rows after : Contents τ κ δ) : Bool :=
  schema.relations.any fun rel => rel.enforced && (after rel.source).any fun r =>
    rel.applies r && (r rel.column).isSome && !(after rel.target).any (rel.refers r) &&
      ((rows rel.target).any (rel.refers r) || !(rows rel.source).any fun r' =>
        r' (schema.primaryKey rel.source) = r (schema.primaryKey rel.source) && r' rel.column = r rel.column)

/-- What the database makes of a change. References are checked when it is
committed with it, unless that is deferred to the end of a transaction around it. -/
def settle (deferred : Bool) (rows after : Contents τ κ δ) : Except DeleteRefusal (Contents τ κ δ) :=
  if !schema.accepts after || !deferred && schema.dangles rows after then .error .integrity else .ok after

/-- Delete the rows of `start`, of which, as of all others, only what is visible
is read or changed. -/
def delete (deferred : Bool) (visible : τ → Tuple κ δ → Bool) (rows : Contents τ κ δ) (start : Collected τ κ δ) :
    Except DeleteRefusal (Contents τ κ δ) :=
  let seen : Contents τ κ δ := fun t => (rows t).filter (visible t)
  let found := schema.collect seen start
  if schema.relations.any fun rel => rel.onDelete = .protect && (seen rel.source).any (rel.refersInto found) then
    .error .protected_
  else if schema.relations.any fun rel => rel.onDelete = .restrict &&
      (seen rel.source).any fun r => rel.refersInto found r && !schema.isCollected found rel.source r then
    .error .restricted
  else schema.settle deferred rows fun t =>
    ((rows t).filter fun r => !(visible t r && schema.isCollected found t r)).map fun r =>
      if visible t r then schema.updated found t r else r

/-- `DELETE FROM t WHERE which`. -/
def erase (deferred : Bool) (rows : Contents τ κ δ) (t : τ) (which : Tuple κ δ → Bool) :
    Except DeleteRefusal (Contents τ κ δ) :=
  schema.settle deferred rows (Function.update rows t ((rows t).filter fun r => !which r))

end Schema

end

/-! ## What a deletion leaves -/

namespace Schema

variable (schema : Schema τ κ δ)

/-- A deletion may set the column so. -/
def Sets (t : τ) (c : κ) (v : Option δ) : Prop :=
  ∃ rel ∈ schema.relations, rel.source = t ∧ rel.column = c ∧ rel.onDelete.sets = .some v

/-- No deletion sets the column, unless to NULL. -/
def Fixed (t : τ) (c : κ) : Prop := ∀ v, ¬ schema.Sets t c (.some v)

/-- A row that holds what the other does, but for columns that are set. -/
def Varies (t : τ) (r' r : Tuple κ δ) : Prop := ∀ c, r' c = r c ∨ schema.Sets t c (r' c)

/-- Every row left is a row there was, but for columns that are set. -/
def Shrinks (rows rows' : Contents τ κ δ) : Prop := ∀ t, ∀ r' ∈ rows' t, ∃ r ∈ rows t, schema.Varies t r' r

/-- No column that is set is a primary key. -/
def KeepsKeys : Prop := ∀ rel ∈ schema.relations, rel.onDelete.sets.isSome → rel.column ≠ schema.primaryKey rel.source

end Schema

/-- No deletion sets the columns that the lookup, of a row of the table, reads. -/
def Lookup.Fixed (schema : Schema τ κ δ) : Lookup τ κ → τ → Prop
  | .column name, t => schema.Fixed t name
  | .through name table key rest, t => schema.Fixed t name ∧ schema.Fixed table key ∧ rest.Fixed schema table

variable {schema : Schema τ κ δ} {rows rows' rows'' after : Contents τ κ δ} {start : Collected τ κ δ} {deferred : Bool}
  {visible : τ → Tuple κ δ → Bool} {t : τ}

theorem Schema.Varies.refl (r : Tuple κ δ) : schema.Varies t r r := fun _ => .inl rfl

theorem Schema.Varies.trans {r r' r'' : Tuple κ δ} (h : schema.Varies t r' r) (h' : schema.Varies t r'' r') :
    schema.Varies t r'' r := by
  intro c
  rcases h' c with hc | hc
  · rw [hc]
    exact h c
  · exact .inr hc

/-- What a row holds in a column that is not set it held before. -/
theorem Schema.Varies.eq_of_some {r r' : Tuple κ δ} {c : κ} {v : δ} (h : schema.Varies t r' r) (hfixed : schema.Fixed t c)
    (hv : r' c = .some v) : r c = .some v := by
  rcases h c with hc | hc
  · exact hc ▸ hv
  · exact absurd (hv ▸ hc) (hfixed v)

theorem Schema.Shrinks.refl (rows : Contents τ κ δ) : schema.Shrinks rows rows := fun _ r hr => ⟨r, hr, .refl r⟩

theorem Schema.Shrinks.trans (h : schema.Shrinks rows rows') (h' : schema.Shrinks rows' rows'') :
    schema.Shrinks rows rows'' := by
  intro t r'' hr''
  obtain ⟨r', hr', hvaries'⟩ := h' t r'' hr''
  obtain ⟨r, hr, hvaries⟩ := h t r' hr'
  exact ⟨r, hr, hvaries.trans hvaries'⟩

/-- A row that a lookup leads from to a value did so before rows were deleted, if
what the lookup reads is not set. -/
theorem Lookup.count_pos_of_shrinks [DecidableEq δ] {value : δ} (h : schema.Shrinks rows rows') :
    ∀ (lookup : Lookup τ κ) {t : τ} {r r' : Tuple κ δ}, lookup.Fixed schema t → schema.Varies t r' r →
      0 < lookup.count rows' value r' → 0 < lookup.count rows value r
  | .column name, t, r, r', hfixed, hvaries, hcount => by
    unfold Lookup.count at hcount ⊢
    split at hcount
    · next hname =>
      rw [if_pos (hvaries.eq_of_some hfixed hname)]
      exact hcount
    · cases hcount
  | .through name table key rest, t, r, r', hfixed, hvaries, hcount => by
    unfold Lookup.count at hcount ⊢
    obtain ⟨hname, hkey, hrest⟩ := hfixed
    obtain ⟨n, hn, hpos⟩ := List.sum_pos_iff_exists_pos_nat.mp hcount
    obtain ⟨joined', hjoined', rfl⟩ := List.mem_map.mp hn
    split at hpos
    · next hjoins =>
      obtain ⟨joined, hjoined, hvaries'⟩ := h table joined' hjoined'
      have hbefore := Lookup.count_pos_of_shrinks h rest hrest hvaries' hpos
      obtain ⟨v, hv⟩ := Option.ne_none_iff_exists'.mp hjoins.1
      have hr : r name = .some v := hvaries.eq_of_some hname hv
      have hjoin : joined key = .some v := hvaries'.eq_of_some hkey (hjoins.2 ▸ hv)
      refine List.sum_pos_iff_exists_pos_nat.mpr ⟨_, List.mem_map_of_mem hjoined, ?_⟩
      rw [if_pos ⟨by rw [hr]; exact Option.some_ne_none v, hr.trans hjoin.symm⟩]
      exact hbefore
    · cases hpos

variable [DecidableEq δ]

theorem Schema.settle_ok (h : schema.settle deferred rows after = .ok rows') : rows' = after := by
  unfold settle at h
  split at h
  · cases h
  · exact (Except.ok.inj h).symm

variable [DecidableEq τ]

/-- What was to be deleted is collected. -/
theorem Schema.mem_collect {p : τ × Tuple κ δ} (hp : p ∈ start) : p ∈ schema.collect rows start := by
  unfold collect
  generalize (schema.relations.map fun rel => (rows rel.source).length + (rows rel.target).length).sum = n
  induction n generalizing start with
  | zero => exact hp
  | succ n ih =>
    unfold collectFor
    exact ih (List.mem_append_left _ hp)

theorem Schema.erase_ok {which : Tuple κ δ → Bool} (h : schema.erase deferred rows t which = .ok after) :
    after = Function.update rows t ((rows t).filter fun r => !which r) := settle_ok h

theorem Schema.mem_of_erase {t' : τ} {which : Tuple κ δ → Bool} (h : schema.erase deferred rows t which = .ok after)
    {r : Tuple κ δ} (hr : r ∈ after t') : r ∈ rows t' := by
  rw [erase_ok h] at hr
  by_cases ht : t' = t
  · subst ht
    rw [Function.update_self] at hr
    exact (List.mem_filter.mp hr).1
  · rwa [Function.update_of_ne ht] at hr

theorem Schema.shrinks_of_erase {which : Tuple κ δ → Bool} (h : schema.erase deferred rows t which = .ok after) :
    schema.Shrinks rows after := fun _ r hr => ⟨r, mem_of_erase h hr, .refl r⟩

section

variable [DecidableEq κ]

/-- What sets a column is a reference to a row that is collected. -/
theorem Schema.updated_cases (schema : Schema τ κ δ) (found : Collected τ κ δ) (t : τ) (r : Tuple κ δ) (c : κ) :
    schema.updated found t r c = r c ∨ ∃ rel ∈ schema.relations, rel.source = t ∧ rel.column = c ∧
      rel.onDelete.sets = .some (schema.updated found t r c) ∧ ∃ p ∈ found, p.1 = rel.target ∧
        rel.refers r p.2 = true := by
  unfold updated
  cases hset : schema.setTo found t r c with
  | none => exact .inl rfl
  | some v =>
    refine .inr ?_
    obtain ⟨rel, hrel, hsets⟩ := List.exists_of_findSome?_eq_some hset
    split at hsets
    · next hcond =>
      simp only [Bool.and_eq_true, decide_eq_true_eq] at hcond
      obtain ⟨⟨hsource, hcolumn⟩, hinto⟩ := hcond
      obtain ⟨p, hp, hrefers⟩ := List.any_eq_true.mp hinto
      simp only [Bool.and_eq_true, decide_eq_true_eq] at hrefers
      exact ⟨rel, hrel, hsource, hcolumn, hsets, p, hp, hrefers⟩
    · cases hsets

theorem Schema.varies_updated (found : Collected τ κ δ) (t : τ) (r : Tuple κ δ) :
    schema.Varies t (schema.updated found t r) r := by
  intro c
  refine (schema.updated_cases found t r c).imp_right ?_
  rintro ⟨rel, hrel, hsource, hcolumn, hsets, -⟩
  exact ⟨rel, hrel, hsource, hcolumn, hsets⟩

theorem Schema.delete_ok (h : schema.delete deferred visible rows start = .ok after) (t : τ) :
    let found := schema.collect (fun t => (rows t).filter (visible t)) start
    after t = ((rows t).filter fun r => !(visible t r && schema.isCollected found t r)).map fun r =>
      if visible t r then schema.updated found t r else r := by
  unfold delete at h
  simp only at h
  split at h
  · cases h
  · split at h
    · cases h
    · rw [settle_ok h]

/-- Each row left is one there was that was not to be deleted, or was not seen. -/
theorem Schema.mem_of_delete (h : schema.delete deferred visible rows start = .ok after) {r' : Tuple κ δ}
    (hr' : r' ∈ after t) : ∃ r ∈ rows t, schema.Varies t r' r ∧ (visible t r = true → (t, r) ∉ start) := by
  rw [delete_ok h] at hr'
  obtain ⟨r, hr, rfl⟩ := List.mem_map.mp hr'
  obtain ⟨hr, hleft⟩ := List.mem_filter.mp hr
  refine ⟨r, hr, ?_, fun hvisible hstart => ?_⟩
  · split
    · exact varies_updated _ t r
    · exact .refl r
  · have hcollected : schema.isCollected (schema.collect (fun t => (rows t).filter (visible t)) start) t r = true :=
      List.any_eq_true.mpr ⟨(t, r), mem_collect hstart, by simp⟩
    rw [hvisible, hcollected] at hleft
    cases hleft

theorem Schema.shrinks_of_delete (h : schema.delete deferred visible rows start = .ok after) :
    schema.Shrinks rows after := by
  intro t r' hr'
  obtain ⟨r, hr, hvaries, -⟩ := mem_of_delete h hr'
  exact ⟨r, hr, hvaries⟩

/-- A table of which nothing is seen stays as it is. -/
theorem Schema.delete_hidden (h : schema.delete deferred visible rows start = .ok after)
    (hhidden : ∀ r ∈ rows t, visible t r = false) : after t = rows t := by
  rw [delete_ok h, List.filter_eq_self.mpr fun r hr => by simp [hhidden r hr]]
  refine (List.map_congr_left fun r hr => ?_).trans (List.map_id (rows t))
  rw [hhidden r hr]
  rfl

end

/-! ## What deletions spare -/

namespace Schema

section

variable (schema : Schema τ κ δ) (rows : Contents τ κ δ) (starts : τ → Lookup τ κ → Prop) (value : δ)

mutual

/-- What may go when rows are deleted that lookups lead from to the value: such
rows, what refers to a row that goes over a relation that cascades, and its
parents, as they are or come to be. -/
inductive Reached : τ → Tuple κ δ → Prop
  | start {t : τ} {r : Tuple κ δ} {lookup : Lookup τ κ} (hstart : starts t lookup) (hr : r ∈ rows t)
      (h : Leads t r lookup) : Reached t r
  | cascade {rel : Relation τ κ δ} {r r' s s' : Tuple κ δ} (hrel : rel ∈ schema.relations)
      (hcascade : rel.onDelete = .cascade) (hr : r ∈ rows rel.source) (hr' : ∀ c, Holds rel.source r c (r' c))
      (hs : s ∈ rows rel.target) (hs' : ∀ c, Holds rel.target s c (s' c)) (hrefers : rel.refers r' s' = true)
      (h : Reached rel.target s) : Reached rel.source r
  | parent {rel : Relation τ κ δ} {r r' s s' : Tuple κ δ} (hrel : rel ∈ schema.relations)
      (hparent : rel.parentLink = true) (hr : r ∈ rows rel.source) (hr' : ∀ c, Holds rel.source r c (r' c))
      (hs : s ∈ rows rel.target) (hs' : ∀ c, Holds rel.target s c (s' c)) (hrefers : rel.refers r' s' = true)
      (h : Reached rel.source r) : Reached rel.target s
  /-- Rows are told apart by their primary keys. -/
  | sameKey {t : τ} {r s : Tuple κ δ} {key : Option δ} (hr : r ∈ rows t) (hs : s ∈ rows t)
      (hr' : Holds t r (schema.primaryKey t) key) (hs' : Holds t s (schema.primaryKey t) key)
      (h : Reached t s) : Reached t r

/-- What a column of a row may hold after such deletions: what it held, or what
it is set to because it refers to a row that goes. -/
inductive Holds : τ → Tuple κ δ → κ → Option δ → Prop
  | kept (t : τ) (r : Tuple κ δ) (c : κ) : Holds t r c (r c)
  | set {rel : Relation τ κ δ} {r r' s s' : Tuple κ δ} {v : Option δ} (hrel : rel ∈ schema.relations)
      (hsets : rel.onDelete.sets = .some v) (hr' : ∀ c, Holds rel.source r c (r' c)) (hs : s ∈ rows rel.target)
      (hs' : ∀ c, Holds rel.target s c (s' c)) (hrefers : rel.refers r' s' = true)
      (h : Reached rel.target s) : Holds rel.source r rel.column v

/-- The lookup leads from the row to the value, as rows are or come to be. -/
inductive Leads : τ → Tuple κ δ → Lookup τ κ → Prop
  | column {t : τ} {r : Tuple κ δ} {name : κ} (h : Holds t r name (.some value)) : Leads t r (.column name)
  | through {t table : τ} {r r' : Tuple κ δ} {name key : κ} {v : δ} {rest : Lookup τ κ} (hr' : r' ∈ rows table)
      (hname : Holds t r name (.some v)) (hkey : Holds table r' key (.some v)) (h : Leads table r' rest) :
      Leads t r (.through name table key rest)

end

/-- What a row may be after such deletions. -/
def Becomes (t : τ) (r r' : Tuple κ δ) : Prop := ∀ c, Holds schema rows starts value t r c (r' c)

/-- A row that comes from one that goes. -/
def Doomed (t : τ) (r' : Tuple κ δ) : Prop :=
  ∃ r ∈ rows t, schema.Becomes rows starts value t r r' ∧ schema.Reached rows starts value t r

/-- Every row left comes from one there was, and what does not go is left. -/
structure Spares (rows' : Contents τ κ δ) : Prop where
  descends : ∀ t, ∀ r' ∈ rows' t, ∃ r ∈ rows t, schema.Becomes rows starts value t r r'
  spared : ∀ t, ∀ r ∈ rows t, ¬ schema.Reached rows starts value t r →
    ∃ r' ∈ rows' t, schema.Becomes rows starts value t r r'

end

variable {starts : τ → Lookup τ κ → Prop} {value : δ} {seen : Contents τ κ δ} {found : Collected τ κ δ}

omit [DecidableEq τ] in
theorem Becomes.refl (r : Tuple κ δ) : schema.Becomes rows starts value t r r := .kept t r

omit [DecidableEq τ] in
theorem Holds.eq_or_sets {r : Tuple κ δ} {c : κ} {v : Option δ} (h : schema.Holds rows starts value t r c v) :
    v = r c ∨ schema.Sets t c v := by
  cases h with
  | kept => exact .inl rfl
  | set hrel hsets => exact .inr ⟨_, hrel, rfl, rfl, hsets⟩

omit [DecidableEq τ] in
/-- A row keeps its primary key, if no deletion sets it. -/
theorem Holds.key_eq {r : Tuple κ δ} {v : Option δ} (h : schema.Holds rows starts value t r (schema.primaryKey t) v)
    (hkeys : schema.KeepsKeys) : v = r (schema.primaryKey t) := by
  rcases h.eq_or_sets with hsame | ⟨rel, hrel, rfl, hcolumn, hsets⟩
  · exact hsame
  · exact absurd hcolumn (hkeys rel hrel (by rw [hsets]; rfl))

omit [DecidableEq τ] in
/-- No row of a table goes that is not deleted itself, has no reference that
cascades and is no other row's parent. -/
theorem Reached.elsewhere {u : τ} {r : Tuple κ δ} (h : schema.Reached rows starts value u r)
    (hstarts : ∀ lookup, ¬ starts t lookup)
    (hcascade : ∀ rel ∈ schema.relations, rel.onDelete = .cascade → rel.source ≠ t)
    (hparent : ∀ rel ∈ schema.relations, rel.parentLink = true → rel.target ≠ t) : u ≠ t := by
  refine Reached.rec (motive_1 := fun u _ _ => u ≠ t) (motive_2 := fun _ _ _ _ _ => True)
    (motive_3 := fun _ _ _ _ => True) ?start ?cascade ?parent ?sameKey ?kept ?set ?column ?through h
  case start => exact fun hstart _ _ _ ht => hstarts _ (ht ▸ hstart)
  case cascade => exact fun hrel hc _ _ _ _ _ _ _ _ _ => hcascade _ hrel hc
  case parent => exact fun hrel hp _ _ _ _ _ _ _ _ _ => hparent _ hrel hp
  case sameKey => exact fun _ _ _ _ _ _ _ ht => ht
  all_goals intros; trivial

omit [DecidableEq τ] in
theorem Spares.refl (rows : Contents τ κ δ) : schema.Spares rows starts value rows :=
  ⟨fun _ r hr => ⟨r, hr, .refl r⟩, fun _ r hr _ => ⟨r, hr, .refl r⟩⟩

omit [DecidableEq τ] in
/-- What a lookup finds in what is left, it leads from to the value. -/
theorem Spares.leads (h : schema.Spares rows starts value rows') (hseen : ∀ t, ∀ r ∈ seen t, r ∈ rows' t) :
    ∀ (lookup : Lookup τ κ) {t : τ} {r r' : Tuple κ δ}, schema.Becomes rows starts value t r r' →
      0 < lookup.count seen value r' → schema.Leads rows starts value t r lookup
  | .column name, t, r, r', hbecomes, hcount => by
    unfold Lookup.count at hcount
    split at hcount
    · next hname => exact .column (hname ▸ hbecomes name)
    · cases hcount
  | .through name table key rest, t, r, r', hbecomes, hcount => by
    unfold Lookup.count at hcount
    obtain ⟨n, hn, hpos⟩ := List.sum_pos_iff_exists_pos_nat.mp hcount
    obtain ⟨joined', hjoined', rfl⟩ := List.mem_map.mp hn
    split at hpos
    · next hjoins =>
      obtain ⟨joined, hjoined, hbecomes'⟩ := h.descends table joined' (hseen table joined' hjoined')
      obtain ⟨v, hv⟩ := Option.ne_none_iff_exists'.mp hjoins.1
      have hkey : joined' key = .some v := hjoins.2 ▸ hv
      exact .through hjoined (hv ▸ hbecomes name) (hkey ▸ hbecomes' key) (Spares.leads h hseen rest hbecomes' hpos)
    · cases hpos

/-- What is collected with rows that go goes. -/
theorem Spares.doomed_of_mem_collect (hspares : schema.Spares rows starts value rows')
    (hstart : ∀ p ∈ start, schema.Doomed rows starts value p.1 p.2) (hseen : ∀ t, ∀ r ∈ seen t, r ∈ rows' t)
    {p : τ × Tuple κ δ} (hp : p ∈ schema.collect seen start) : schema.Doomed rows starts value p.1 p.2 := by
  unfold collect at hp
  generalize (schema.relations.map fun rel => (seen rel.source).length + (seen rel.target).length).sum = n at hp
  suffices hall : ∀ found : Collected τ κ δ, (∀ p ∈ found, schema.Doomed rows starts value p.1 p.2) →
      ∀ p ∈ schema.collectFor seen n found, schema.Doomed rows starts value p.1 p.2 from hall start hstart p hp
  clear hp
  induction n with
  | zero => exact fun found hfound => hfound
  | succ n ih =>
    intro found hfound
    unfold collectFor
    refine ih _ fun q hq => ?_
    rcases List.mem_append.mp hq with hq | hq
    · exact hfound q hq
    -- A round adds what refers to a row found, and its parents.
    obtain ⟨rel, hrel, hgrown⟩ := List.mem_flatMap.mp (List.mem_filter.mp hq).1
    unfold Relation.grown at hgrown
    rcases List.mem_append.mp hgrown with hq | hq
    · split at hq
      · next hcascade =>
        obtain ⟨r', hr', rfl⟩ := List.mem_map.mp hq
        obtain ⟨hr', hinto⟩ := List.mem_filter.mp hr'
        obtain ⟨p, hp, hinto⟩ := List.any_eq_true.mp hinto
        simp only [Bool.and_eq_true, decide_eq_true_eq] at hinto
        obtain ⟨htarget, hrefers⟩ := hinto
        obtain ⟨s, hs, hs', hreached⟩ := hfound p hp
        obtain ⟨r, hr, hbecomes⟩ := hspares.descends _ r' (hseen _ r' hr')
        rw [htarget] at hs hs' hreached
        exact ⟨r, hr, hbecomes, .cascade hrel hcascade hr hbecomes hs hs' hrefers hreached⟩
      · cases hq
    · split at hq
      · next hparent =>
        obtain ⟨s', hs', rfl⟩ := List.mem_map.mp hq
        obtain ⟨hs', hinto⟩ := List.mem_filter.mp hs'
        obtain ⟨p, hp, hinto⟩ := List.any_eq_true.mp hinto
        simp only [Bool.and_eq_true, decide_eq_true_eq] at hinto
        obtain ⟨hsource, hrefers⟩ := hinto
        obtain ⟨r, hr, hr', hreached⟩ := hfound p hp
        obtain ⟨s, hs, hbecomes⟩ := hspares.descends _ s' (hseen _ s' hs')
        rw [hsource] at hr hr' hreached
        exact ⟨s, hs, hbecomes, .parent hrel hparent hr hr' hs hbecomes hrefers hreached⟩
      · cases hq

/-- A row becomes what it is once its columns are set that refer to rows that go. -/
theorem Becomes.updated [DecidableEq κ] {r r' : Tuple κ δ} (h : schema.Becomes rows starts value t r r')
    (hfound : ∀ p ∈ found, schema.Doomed rows starts value p.1 p.2) :
    schema.Becomes rows starts value t r (schema.updated found t r') := by
  intro c
  rcases schema.updated_cases found t r' c with hsame | ⟨rel, hrel, rfl, rfl, hsets, p, hp, htarget, hrefers⟩
  · rw [hsame]
    exact h c
  · obtain ⟨s, hs, hs', hreached⟩ := hfound p hp
    rw [htarget] at hs hs' hreached
    exact .set hrel hsets h hs hs' hrefers hreached

/-- A deletion of rows that go spares the others. -/
theorem Spares.delete [DecidableEq κ] {rows₀ : Contents τ κ δ} (hspares : schema.Spares rows₀ starts value rows)
    (hstart : ∀ p ∈ start, schema.Doomed rows₀ starts value p.1 p.2)
    (h : schema.delete deferred visible rows start = .ok after) : schema.Spares rows₀ starts value after := by
  have hdoomed : ∀ p ∈ schema.collect (fun t => (rows t).filter (visible t)) start,
      schema.Doomed rows₀ starts value p.1 p.2 := fun p hp =>
    hspares.doomed_of_mem_collect hstart (fun t r hr => (List.mem_filter.mp hr).1) hp
  have hbecomes : ∀ {t r r'}, schema.Becomes rows₀ starts value t r r' → schema.Becomes rows₀ starts value t r
      (if visible t r' then schema.updated (schema.collect (fun t => (rows t).filter (visible t)) start) t r' else r') :=
    fun hr => by
      split
      · exact hr.updated hdoomed
      · exact hr
  refine ⟨fun t r'' hr'' => ?_, fun t r hr hnot => ?_⟩
  · rw [delete_ok h] at hr''
    obtain ⟨r', hr', rfl⟩ := List.mem_map.mp hr''
    obtain ⟨r, hr, hrow⟩ := hspares.descends t r' (List.mem_filter.mp hr').1
    exact ⟨r, hr, hbecomes hrow⟩
  · obtain ⟨r', hr', hrow⟩ := hspares.spared t r hr hnot
    have hleft : schema.isCollected (schema.collect (fun t => (rows t).filter (visible t)) start) t r' = false := by
      rw [isCollected, List.any_eq_false]
      intro p hp hsame
      simp only [Bool.and_eq_true, decide_eq_true_eq] at hsame
      obtain ⟨rfl, hkey⟩ := hsame
      obtain ⟨s, hs, hs', hreached⟩ := hdoomed p hp
      exact hnot (.sameKey hr hs (hrow _) (hkey ▸ hs' _) hreached)
    refine ⟨_, ?_, hbecomes hrow⟩
    rw [delete_ok h]
    exact List.mem_map.mpr ⟨r', List.mem_filter.mpr ⟨hr', by simp [hleft]⟩, rfl⟩

theorem Spares.erase {rows₀ : Contents τ κ δ} {which : Tuple κ δ → Bool}
    (hspares : schema.Spares rows₀ starts value rows)
    (hstart : ∀ r ∈ rows t, which r = true → schema.Doomed rows₀ starts value t r)
    (h : schema.erase deferred rows t which = .ok after) : schema.Spares rows₀ starts value after := by
  refine ⟨fun t' r' hr' => hspares.descends t' r' (mem_of_erase h hr'), fun t' r hr hnot => ?_⟩
  obtain ⟨r', hr', hbecomes⟩ := hspares.spared t' r hr hnot
  refine ⟨r', ?_, hbecomes⟩
  rw [erase_ok h]
  by_cases ht : t' = t
  · subst ht
    rw [Function.update_self]
    refine List.mem_filter.mpr ⟨hr', ?_⟩
    rw [Bool.not_eq_true', Bool.eq_false_iff]
    intro hwhich
    obtain ⟨s, hs, hs', hreached⟩ := hstart r' hr' hwhich
    exact hnot (.sameKey hr hs (hbecomes _) (hs' _) hreached)
  · rw [Function.update_of_ne ht]
    exact hr'

end Schema

end Sql
