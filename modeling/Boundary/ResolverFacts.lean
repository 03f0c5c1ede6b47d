/-
What the cache operations and the lookups of the resolvers do: one lemma an
operation, over the entries it leaves.
-/
import Boundary.Resolvers

namespace Boundary

open Exec

variable {φ ν : Type} {conf : ResolverSettings ν} {cache cache' : TenantCache φ} {key : String}
  {tenant row : TenantRow φ} {now ts : Int}

/-! ## The cache -/

/-- A read finds an entry or none, and at most removes one. -/
theorem cacheGet_spec (conf : ResolverSettings ν) (now : Int) (key : String) (cache : TenantCache φ) :
    ∃ found cache', cacheGet conf now key cache = .ok found cache' ∧
      (∀ tenant, found = .some tenant → ∃ ts, (key, tenant, ts) ∈ cache.entries) ∧
      ∀ e ∈ cache'.entries, e ∈ cache.entries := by
  unfold cacheGet
  cases hfind : cache.get? key with
  | none => exact ⟨_, _, rfl, (fun _ h => by cases h), fun e he => he⟩
  | some entry =>
    obtain ⟨tenant, ts⟩ := entry
    have hmem := OrderedDict.get?_eq_some_iff.mp hfind
    simp only
    split
    · exact ⟨_, _, rfl, (fun _ h => by cases h), fun e he => (OrderedDict.mem_erase.mp he).1⟩
    · refine ⟨_, _, rfl, fun t ht => ?_, fun e he => he⟩
      cases ht
      exact ⟨ts, hmem⟩

/-- A write leaves the new entry and old ones, or raises and leaves all. -/
theorem cacheSet_spec (conf : ResolverSettings ν) (now : Int) (key : String) (tenant : TenantRow φ)
    (cache : TenantCache φ) :
    (∃ e, cacheSet conf now key tenant cache = .error e cache) ∨
      ∃ cache', cacheSet conf now key tenant cache = .ok () cache' ∧ cache'.get? key = .some (tenant, now) ∧
        ∀ e ∈ cache'.entries, e = (key, tenant, now) ∨ e ∈ cache.entries := by
  unfold cacheSet
  split
  · cases cache.minKey Prod.snd with
    | none => exact .inl ⟨_, rfl⟩
    | some oldest =>
      refine .inr ⟨_, rfl, OrderedDict.get?_put_self, fun e he => ?_⟩
      rcases OrderedDict.mem_of_mem_put he with he | he
      · exact .inl he
      · exact .inr (OrderedDict.mem_erase.mp he).1
  · exact .inr ⟨_, rfl, OrderedDict.get?_put_self, fun e he => OrderedDict.mem_of_mem_put he⟩

/-- A write of the cache raises when it keeps no entries and has none. -/
theorem cacheSet_raises_iff :
    (∃ e, cacheSet conf now key tenant cache = .error e cache) ↔ conf.cacheSize = 0 ∧ cache.entries = [] := by
  constructor
  · rintro ⟨e, h⟩
    unfold cacheSet at h
    split at h
    next hfull =>
      cases hmin : cache.minKey Prod.snd with
      | some oldest =>
        rw [hmin] at h
        cases h
      | none =>
        have hempty : cache.entries = [] := by simpa [OrderedDict.minKey, List.argmin_eq_none] using hmin
        have hsize := hfull.1
        rw [OrderedDict.size, hempty, List.length_nil] at hsize
        exact ⟨Nat.le_zero.mp hsize, hempty⟩
    · cases h
  · rintro ⟨hsize, hempty⟩
    have hget : cache.get? key = .none := by simp [OrderedDict.get?, hempty]
    have hmin : cache.minKey (Prod.snd : TenantRow φ × Int → Int) = .none := by simp [OrderedDict.minKey, hempty]
    refine ⟨.other "ValueError", ?_⟩
    unfold cacheSet
    rw [if_pos ⟨by simp [hsize], by simp [hget]⟩, hmin]

/-- With room for one entry, a write of the cache succeeds. -/
theorem cacheSet_ok (hsize : 1 ≤ conf.cacheSize) (now : Int) (key : String) (tenant : TenantRow φ)
    (cache : TenantCache φ) :
    ∃ cache', cacheSet conf now key tenant cache = .ok () cache' := by
  rcases cacheSet_spec conf now key tenant cache with hraises | ⟨cache', hset, -⟩
  · have hnone := (cacheSet_raises_iff.mp hraises).1
    omega
  · exact ⟨cache', hset⟩

theorem mem_cacheInvalidate {pk : PrimaryKey} {e : String × TenantRow φ × Int} :
    e ∈ (after (cacheInvalidate pk) cache).entries ↔ e ∈ cache.entries ∧ e.2.1.pk ≠ pk := by
  have hrun : after (cacheInvalidate pk) cache = cache.filter fun _ e => e.1.pk ≠ pk := rfl
  rw [hrun, OrderedDict.mem_filter, decide_eq_true_iff]

/-- A fresh entry is read. -/
theorem cacheGet_fresh (hget : cache.get? key = .some (tenant, ts)) (hfresh : now - ts ≤ conf.cacheTtl) :
    cacheGet conf now key cache = .ok (.some tenant) cache := by
  unfold cacheGet
  rw [hget]
  exact if_neg (by omega)

/-! ## Lookups -/

theorem exceptIn_ok_iff {α : Type} {caught : List LookupError} {x handler : Except LookupError α} {a : α} :
    exceptIn caught x handler = .ok a ↔ x = .ok a ∨ ∃ e ∈ caught, x = .error e ∧ handler = .ok a := by
  unfold exceptIn
  cases x with
  | ok b => simp
  | error e =>
    by_cases h : e ∈ caught
    · simp [h]
    · simp only [if_neg h, reduceCtorEq, false_or, false_iff, not_exists, not_and]
      rintro e' he' heq -
      simp only [Except.error.injEq] at heq
      exact h (heq ▸ he')

theorem map_ok_iff {α β : Type} {f : α → β} {x : Except LookupError α} {b : β} :
    f <$> x = .ok b ↔ ∃ a, x = .ok a ∧ f a = b := by
  cases x <;> simp [Functor.map, Except.map]

theorem some_map_ok_iff {x : Except LookupError (TenantRow φ)} : Option.some <$> x = .ok (.some row) ↔ x = .ok row := by
  simp [map_ok_iff]

/-- A lookup that finds its row does not reach the handler. -/
theorem exceptIn_found {caught : List LookupError} {x : Except LookupError (TenantRow φ)}
    {handler : Except LookupError (Option (TenantRow φ))} (h : x = .ok row) :
    exceptIn caught (Option.some <$> x) handler = .ok (.some row) :=
  exceptIn_ok_iff.mpr (.inl (some_map_ok_iff.mpr h))

theorem getPk_ok_iff {table : TenantTable φ} {value : PkValue ν} :
    getPk conf table value = .ok row ↔ ∃ pk, conf.readKey value = .ok pk ∧ row ∈ table.rows ∧ row.pk = pk := by
  unfold getPk
  cases conf.readKey value with
  | error e => simp [bind, Except.bind]
  | ok pk =>
    have hbind : (Except.ok pk >>= table.getByPk) = table.getByPk pk := rfl
    rw [hbind, TenantTable.getByPk_eq_ok_iff]
    constructor
    · exact fun h => ⟨pk, rfl, h⟩
    · rintro ⟨_, hpk, h⟩
      cases hpk
      exact h

theorem getUuid_ok_iff {table : TenantTable φ} {value : String} :
    getUuid conf table value = .ok row ↔
      ∃ u, conf.uuid value = .some u ∧ getPk conf table (.uuid u) = .ok row := by
  unfold getUuid
  cases conf.uuid value <;> simp

/-- The row a lookup loads is one of the table's. -/
theorem mem_of_load {table : TenantTable φ} {lookup : Lookup ν} (h : lookup.load conf table = .ok (.some row)) :
    row ∈ table.rows := by
  have hpk {value : PkValue ν} (h : getPk conf table value = .ok row) : row ∈ table.rows :=
    let ⟨_, _, hmem, _⟩ := getPk_ok_iff.mp h
    hmem
  have hslug {slug : String} (h : table.getBySlug slug = .ok row) : row ∈ table.rows :=
    (TenantTable.getBySlug_eq_ok_iff.mp h).1
  cases lookup with
  | subdomain slug =>
    rcases exceptIn_ok_iff.mp h with h | ⟨_, _, _, h⟩
    · exact hslug (some_map_ok_iff.mp h)
    · cases h
  | session tenantId =>
    rcases exceptIn_ok_iff.mp h with h | ⟨_, _, _, h⟩
    · exact hpk (some_map_ok_iff.mp h)
    · cases h
  | header value =>
    rcases exceptIn_ok_iff.mp h with h | ⟨_, _, _, h⟩
    · obtain ⟨u, _, h⟩ := getUuid_ok_iff.mp (some_map_ok_iff.mp h)
      exact hpk h
    rcases exceptIn_ok_iff.mp h with h | ⟨_, _, _, h⟩
    · exact hpk (some_map_ok_iff.mp h)
    rcases exceptIn_ok_iff.mp h with h | ⟨_, _, _, h⟩
    · exact hslug (some_map_ok_iff.mp h)
    · cases h

end Boundary
