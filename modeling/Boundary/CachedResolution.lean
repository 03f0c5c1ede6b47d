/-
Sequential histories of tenant writes and resolves, and whether each resolve
answers as it would with an empty cache. A write runs the signal receiver, which
invalidates the tenant. A tenant instance is its row, and whether its `pk`
compares equal to the row's: an instance made with the text of a key keeps the
text.
-/
import Boundary.ResolverFacts
import Boundary.Lib.Runs

namespace Boundary

open Exec

variable {φ ν : Type}

/-- What a resolve returns or raises. -/
def answer {α : Type} (x : Cached φ α) (cache : TenantCache φ) : Except Exc α :=
  match x cache with
  | .ok a _ => .ok a
  | .error e _ => .error e

/-- A resolve answers what it would with an empty cache. -/
def CachingResolver.AnswersAsUncached (conf : ResolverSettings ν) (table : TenantTable φ) (cache : TenantCache φ)
    (resolver : CachingResolver) (request : HttpRequest ν) (clock : Int × Int) : Prop :=
  answer (resolver.resolve conf table clock request) cache = answer (resolver.resolve conf table clock request) {}

structure Resolution (φ : Type) where
  table : TenantTable φ
  cache : TenantCache φ := {}

inductive Operation (φ ν : Type) where
  /-- `instance.save()`, which also creates. -/
  | save (row : TenantRow φ) (pkEqual : Bool)
  | delete (pk : PrimaryKey) (pkEqual : Bool)
  | resolve (resolver : CachingResolver) (request : HttpRequest ν) (clock : Int × Int)

/-- The key `pk=uuid.UUID(value)` denotes. -/
def uuidKey (conf : ResolverSettings ν) (value : String) : Except LookupError PrimaryKey :=
  match conf.uuid value with
  | .some value => conf.readKey (.uuid value)
  | .none => .error .valueError

/-- A tenant with the key `pk` is looked up for this before the tenant that is
cached for it. -/
def Lookup.PrecededBy (conf : ResolverSettings ν) (pk cached : PrimaryKey) : Lookup ν → Prop
  | header value =>
    uuidKey conf value = .ok pk ∨ conf.readKey (.text value) = .ok pk ∧ uuidKey conf value ≠ .ok cached
  | _ => False

namespace Resolution

/-- The receiver, for an instance of the tenant `pk`. -/
def invalidate (cache : TenantCache φ) (pk : PrimaryKey) (pkEqual : Bool) : TenantCache φ :=
  if pkEqual then after (cacheInvalidate pk) cache else cache

def save (c : Resolution φ) (row : TenantRow φ) (pkEqual : Bool) : Resolution φ :=
  match c.table.save row with
  | .ok table => ⟨table, invalidate c.cache row.pk pkEqual⟩
  | .error _ => c

def delete (c : Resolution φ) (pk : PrimaryKey) (pkEqual : Bool) : Resolution φ :=
  ⟨c.table.delete pk, invalidate c.cache pk pkEqual⟩

def step (conf : ResolverSettings ν) (c : Resolution φ) : Operation φ ν → Resolution φ
  | .save row pkEqual => c.save row pkEqual
  | .delete pk pkEqual => c.delete pk pkEqual
  | .resolve resolver request clock => { c with cache := after (resolver.resolve conf c.table clock request) c.cache }

/-- A tenant that is created does not come before one that is cached. -/
def CreatesBehind (conf : ResolverSettings ν) (c : Resolution φ) (pk : PrimaryKey) : Prop :=
  (∀ row ∈ c.table.rows, row.pk ≠ pk) → ∀ e ∈ c.cache.entries, ∀ lookup : Lookup ν, lookup.key conf = e.1 →
    ¬ lookup.PrecededBy conf pk e.2.1.pk

/-- The receiver finds the tenant's entries, or there are none. -/
def Invalidates (c : Resolution φ) (pk : PrimaryKey) (pkEqual : Bool) : Prop :=
  pkEqual = true ∨ ∀ e ∈ c.cache.entries, e.2.1.pk ≠ pk

/-- The session value names the tenant cached under its text. -/
def NamesCached (conf : ResolverSettings ν) (c : Resolution φ) (tenantId : ν) : Prop :=
  ∀ tenant ts, c.cache.get? ((Lookup.session tenantId).key conf) = .some (tenant, ts) →
    conf.readKey (.session tenantId) = .ok tenant.pk

/-- The condition on a step. -/
def Unambiguous (conf : ResolverSettings ν) (c : Resolution φ) : Operation φ ν → Prop
  | .save row pkEqual => c.Invalidates row.pk pkEqual ∧ c.CreatesBehind conf row.pk
  | .delete pk pkEqual => c.Invalidates pk pkEqual
  | .resolve resolver request _ => ∀ tenantId, resolver.lookup conf request = .some (.session tenantId) →
      c.NamesCached conf tenantId

end Resolution

/-! ## Lookups after a write -/

section

variable {conf : ResolverSettings ν} {table table' : TenantTable φ} {row : TenantRow φ}

theorem getUuid_eq (conf : ResolverSettings ν) (table : TenantTable φ) (value : String) :
    getUuid conf table value = uuidKey conf value >>= table.getByPk := by
  unfold getUuid uuidKey getPk
  cases conf.uuid value <;> rfl

theorem keyed_ok_iff {key : Except LookupError PrimaryKey} :
    (key >>= table.getByPk) = .ok row ↔ key = .ok row.pk ∧ row ∈ table.rows := by
  cases key with
  | error e => simp [bind, Except.bind]
  | ok pk =>
    have hbind : (Except.ok pk >>= table.getByPk) = table.getByPk pk := rfl
    rw [hbind, TenantTable.getByPk_eq_ok_iff, Except.ok.injEq]
    constructor
    · rintro ⟨hmem, rfl⟩
      exact ⟨rfl, hmem⟩
    · rintro ⟨rfl, hmem⟩
      exact ⟨hmem, rfl⟩

/-- A key that found nothing still finds nothing when no row with that key has
come. -/
theorem keyed_error_kept {key : Except LookupError PrimaryKey} {e : LookupError}
    (h : (key >>= table.getByPk) = .error e)
    (hrows : ∀ r ∈ table'.rows, key = .ok r.pk → ∃ r' ∈ table.rows, r'.pk = r.pk) :
    (key >>= table'.getByPk) = .error e := by
  cases key with
  | error e' => exact h
  | ok pk =>
    have hbind (t : TenantTable φ) : (Except.ok pk >>= t.getByPk) = t.getByPk pk := rfl
    rw [hbind] at h ⊢
    obtain rfl := TenantTable.getByPk_error h
    rw [TenantTable.getByPk_eq_error_iff] at h ⊢
    rintro r hr rfl
    obtain ⟨r', hr', hpk⟩ := hrows r hr rfl
    exact h r' hr' hpk

theorem map_error_iff {α β : Type} {f : α → β} {x : Except LookupError α} {e : LookupError} :
    f <$> x = .error e ↔ x = .error e := by
  cases x <;> simp [Functor.map, Except.map]

/-- What a lookup loaded it still loads, while the row is there and no row has
come that precedes it. -/
theorem Lookup.load_kept {lookup : Lookup ν} (h : lookup.load conf table = .ok (.some row)) (hrow : row ∈ table'.rows)
    (hnew : ∀ r ∈ table'.rows, (∃ r' ∈ table.rows, r'.pk = r.pk) ∨ ¬ lookup.PrecededBy conf r.pk row.pk) :
    lookup.load conf table' = .ok (.some row) := by
  have hslug {slug : String} (h : table.getBySlug slug = .ok row) : table'.getBySlug slug = .ok row :=
    TenantTable.getBySlug_eq_ok_iff.mpr ⟨hrow, (TenantTable.getBySlug_eq_ok_iff.mp h).2⟩
  have hkey {key : Except LookupError PrimaryKey} (h : (key >>= table.getByPk) = .ok row) :
      (key >>= table'.getByPk) = .ok row :=
    keyed_ok_iff.mpr ⟨(keyed_ok_iff.mp h).1, hrow⟩
  cases lookup with
  | subdomain slug =>
    rcases exceptIn_ok_iff.mp h with h | ⟨_, _, _, h⟩
    · exact exceptIn_found (hslug (some_map_ok_iff.mp h))
    · cases h
  | session tenantId =>
    rcases exceptIn_ok_iff.mp h with h | ⟨_, _, _, h⟩
    · exact exceptIn_found (hkey (some_map_ok_iff.mp h))
    · cases h
  | header value =>
    simp only [load, getUuid_eq] at h ⊢
    rcases exceptIn_ok_iff.mp h with h | ⟨e, he, hmiss, h⟩
    · exact exceptIn_found (hkey (some_map_ok_iff.mp h))
    have huuid : (uuidKey conf value >>= table'.getByPk) = .error e := by
      refine keyed_error_kept (map_error_iff.mp hmiss) fun r hr hkey => ?_
      exact (hnew r hr).resolve_right fun hnot => hnot (.inl hkey)
    refine exceptIn_ok_iff.mpr (.inr ⟨e, he, map_error_iff.mpr huuid, ?_⟩)
    rcases exceptIn_ok_iff.mp h with h | ⟨e', he', hmiss', h⟩
    · exact exceptIn_found (hkey (some_map_ok_iff.mp h))
    have huuid' : uuidKey conf value ≠ .ok row.pk := by
      intro hok
      rw [keyed_ok_iff.mpr ⟨hok, hrow⟩] at huuid
      cases huuid
    have htext : (conf.readKey (.text value) >>= table'.getByPk) = .error e' := by
      refine keyed_error_kept (map_error_iff.mp hmiss') fun r hr hkey => ?_
      exact (hnew r hr).resolve_right fun hnot => hnot (.inr ⟨hkey, huuid'⟩)
    refine exceptIn_ok_iff.mpr (.inr ⟨e', he', map_error_iff.mpr htext, ?_⟩)
    rcases exceptIn_ok_iff.mp h with h | ⟨_, _, _, h⟩
    · exact exceptIn_found (hslug (some_map_ok_iff.mp h))
    · cases h

/-- Of the lookups cached under one key, those that are not of a session are
the same. -/
theorem Lookup.eq_of_key_eq {lookup lookup' : Lookup ν} (h : lookup.key conf = lookup'.key conf) :
    lookup = lookup' ∨ ∃ v v', lookup = .session v ∧ lookup' = .session v' ∧ conf.str v = conf.str v' := by
  have hchars := congrArg String.toList h
  cases lookup <;> cases lookup' <;> simp [key] at hchars
  case subdomain.subdomain slug slug' => exact .inl (congrArg subdomain (String.toList_inj.mp hchars))
  case header.header value value' => exact .inl (congrArg header (String.toList_inj.mp hchars))
  case session.session v v' => exact .inr ⟨v, v', rfl, rfl, String.toList_inj.mp hchars⟩

/-! ## The invariant -/

/-- Every tenant in the cache is the one that a lookup cached under its key
loads. -/
structure Current (conf : ResolverSettings ν) (c : Resolution φ) : Prop where
  loads : ∀ e ∈ c.cache.entries, ∃ lookup : Lookup ν, lookup.key conf = e.1 ∧
    lookup.load conf c.table = .ok (.some e.2.1)

variable {c : Resolution φ}

theorem Current.start (table : TenantTable φ) : Current conf (⟨table, {}⟩ : Resolution φ) :=
  ⟨fun _ he => absurd he List.not_mem_nil⟩

theorem mem_of_invalidate {pk : PrimaryKey} {pkEqual : Bool} {e : String × TenantRow φ × Int}
    (h : c.Invalidates pk pkEqual) (he : e ∈ (Resolution.invalidate c.cache pk pkEqual).entries) :
    e ∈ c.cache.entries ∧ e.2.1.pk ≠ pk := by
  unfold Resolution.invalidate at he
  split at he
  · exact mem_cacheInvalidate.mp he
  next hne => exact ⟨he, h.resolve_left hne e he⟩

/-- A write of the tenant `pk`, whose entries are then invalidated. -/
theorem Current.write {pk : PrimaryKey} {pkEqual : Bool} (h : Current conf c)
    (hkept : ∀ r ∈ c.table.rows, r.pk ≠ pk → r ∈ table'.rows)
    (hcome : ∀ r ∈ table'.rows, r.pk = pk ∨ r ∈ c.table.rows) (hinvalidates : c.Invalidates pk pkEqual)
    (hbehind : (∃ r ∈ table'.rows, r.pk = pk) → c.CreatesBehind conf pk) :
    Current conf (⟨table', Resolution.invalidate c.cache pk pkEqual⟩ : Resolution φ) := by
  refine ⟨fun e he => ?_⟩
  obtain ⟨hold, hne⟩ := mem_of_invalidate hinvalidates he
  obtain ⟨lookup, hkey, hload⟩ := h.loads e hold
  refine ⟨lookup, hkey, Lookup.load_kept hload (hkept _ (mem_of_load hload) hne) fun r hr => ?_⟩
  rcases hcome r hr with rfl | hr
  · by_cases hrow : ∃ row ∈ c.table.rows, row.pk = r.pk
    · exact .inl hrow
    · exact .inr (hbehind ⟨r, hr, rfl⟩ (fun row hmem hpk => hrow ⟨row, hmem, hpk⟩) e hold lookup hkey)
  · exact .inl ⟨r, hr, rfl⟩

theorem Current.save {pkEqual : Bool} (h : Current conf c) (hinvalidates : c.Invalidates row.pk pkEqual)
    (hbehind : c.CreatesBehind conf row.pk) : Current conf (c.save row pkEqual) := by
  unfold Resolution.save
  cases hsave : c.table.save row with
  | error e => exact h
  | ok table =>
    refine h.write (fun r hr hne => (TenantTable.mem_save hsave).mpr (.inr ⟨hr, hne⟩)) (fun r hr => ?_) hinvalidates
      fun _ => hbehind
    rcases (TenantTable.mem_save hsave).mp hr with rfl | ⟨hold, -⟩
    · exact .inl rfl
    · exact .inr hold

theorem Current.delete {pk : PrimaryKey} {pkEqual : Bool} (h : Current conf c) (hinvalidates : c.Invalidates pk pkEqual) :
    Current conf (c.delete pk pkEqual) := by
  refine h.write (fun r hr hne => TenantTable.mem_delete.mpr ⟨hr, hne⟩)
    (fun r hr => .inr (TenantTable.mem_delete.mp hr).1) hinvalidates fun ⟨r, hr, hpk⟩ => ?_
  exact absurd hpk (TenantTable.mem_delete.mp hr).2

/-- What a lookup reads from the cache it would load. -/
theorem Current.load_of_cached {lookup : Lookup ν} {tenant : TenantRow φ} {ts : Int} (h : Current conf c)
    (hget : c.cache.get? (lookup.key conf) = .some (tenant, ts))
    (hnames : ∀ tenantId, lookup = .session tenantId → c.NamesCached conf tenantId) :
    lookup.load conf c.table = .ok (.some tenant) := by
  obtain ⟨lookup', hkey, hload⟩ := h.loads _ (OrderedDict.get?_eq_some_iff.mp hget)
  rcases Lookup.eq_of_key_eq hkey with rfl | ⟨v', v, rfl, rfl, hstr⟩
  · exact hload
  · have hread := hnames v rfl tenant ts hget
    exact exceptIn_found (getPk_ok_iff.mpr ⟨tenant.pk, hread, mem_of_load hload, rfl⟩)

/-! ## Resolves -/

theorem answer_store {cache : TenantCache φ} {now : Int} {lookup : Lookup ν}
    {loaded : Except LookupError (Option (TenantRow φ))} (hsize : 1 ≤ conf.cacheSize) :
    answer (lookup.store conf now loaded) cache = loaded.mapError LookupError.exc := by
  match loaded with
  | .error e => rfl
  | .ok .none => rfl
  | .ok (.some tenant) =>
    obtain ⟨cache', hset⟩ := cacheSet_ok hsize now (lookup.key conf) tenant cache
    simp only [answer, Lookup.store, bind_run, hset]
    rfl

/-- A resolve answers what it would load, when what is cached is what it would
load. -/
theorem answer_resolve {cache : TenantCache φ} {clock : Int × Int} {lookup : Lookup ν} (hsize : 1 ≤ conf.cacheSize)
    (hcached : ∀ tenant ts, cache.get? (lookup.key conf) = .some (tenant, ts) →
      lookup.load conf table = .ok (.some tenant)) :
    answer (lookup.resolve conf table clock) cache = (lookup.load conf table).mapError LookupError.exc := by
  obtain ⟨found, cache', hget, hfound, -⟩ := cacheGet_spec conf clock.1 (lookup.key conf) cache
  cases found with
  | none =>
    have hrun : answer (lookup.resolve conf table clock) cache =
        answer (lookup.store conf clock.2 (lookup.load conf table)) cache' := by
      simp only [answer, Lookup.resolve, bind_run, hget]
    rw [hrun, answer_store hsize]
  | some tenant =>
    obtain ⟨ts, hmem⟩ := hfound tenant rfl
    have hload := hcached tenant ts (OrderedDict.get?_eq_some_iff.mpr hmem)
    simp only [answer, Lookup.resolve, bind_run, hget, hload]
    rfl

/-- The entries a resolve leaves are old ones, and one with what it loaded. -/
theorem mem_after_resolve {cache : TenantCache φ} {clock : Int × Int} {lookup : Lookup ν}
    {e : String × TenantRow φ × Int} (he : e ∈ (after (lookup.resolve conf table clock) cache).entries) :
    e ∈ cache.entries ∨ e.1 = lookup.key conf ∧ lookup.load conf table = .ok (.some e.2.1) := by
  obtain ⟨found, cache', hget, -, hsub⟩ := cacheGet_spec conf clock.1 (lookup.key conf) cache
  unfold Lookup.resolve at he
  rw [after_bind, hget] at he
  cases found with
  | some tenant => exact .inl (hsub e he)
  | none =>
    simp only at he
    cases hload : lookup.load conf table with
    | error err =>
      rw [hload] at he
      exact .inl (hsub e he)
    | ok loaded =>
      cases loaded with
      | none =>
        rw [hload] at he
        exact .inl (hsub e he)
      | some tenant =>
        rw [hload, Lookup.store, after_bind] at he
        rcases cacheSet_spec conf clock.2 (lookup.key conf) tenant cache' with ⟨err, hset⟩ | ⟨cache'', hset, -, hsub'⟩
        · rw [hset] at he
          exact .inl (hsub e he)
        · rw [hset] at he
          rcases hsub' e he with rfl | he
          · exact .inr ⟨rfl, rfl⟩
          · exact .inl (hsub e he)

theorem Current.resolve {resolver : CachingResolver} {request : HttpRequest ν} {clock : Int × Int} (h : Current conf c) :
    Current conf { c with cache := after (resolver.resolve conf c.table clock request) c.cache } := by
  unfold CachingResolver.resolve
  cases resolver.lookup conf request with
  | none => exact h
  | some lookup =>
    refine ⟨fun e he => ?_⟩
    rcases mem_after_resolve he with he | ⟨hkey, hload⟩
    · exact h.loads e he
    · exact ⟨lookup, hkey.symm, hload⟩

theorem Current.step {op : Operation φ ν} (h : Current conf c) (hop : c.Unambiguous conf op) :
    Current conf (c.step conf op) := by
  cases op with
  | save row pkEqual => exact h.save hop.1 hop.2
  | delete pk pkEqual => exact h.delete hop
  | resolve resolver request clock => exact h.resolve

theorem Current.answersAsUncached {resolver : CachingResolver} {request : HttpRequest ν} {clock : Int × Int}
    (h : Current conf c) (hsize : 1 ≤ conf.cacheSize)
    (hop : c.Unambiguous conf (.resolve resolver request clock)) :
    resolver.AnswersAsUncached conf c.table c.cache request clock := by
  unfold CachingResolver.AnswersAsUncached CachingResolver.resolve
  unfold Resolution.Unambiguous at hop
  cases hlookup : resolver.lookup conf request with
  | none => rfl
  | some lookup =>
    have hnames : ∀ tenantId, lookup = .session tenantId → c.NamesCached conf tenantId := by
      rintro tenantId rfl
      exact hop tenantId hlookup
    simp only
    rw [answer_resolve hsize fun tenant ts hget => h.load_of_cached hget hnames,
      answer_resolve hsize fun tenant ts hget => by cases hget]

/-- In every sequential history in which no tenant is created that a cached
header value denotes by its key before the tenant cached for it, no session
value is resolved under whose text a tenant with another key is cached, and no
cached tenant is written through an instance whose `pk` is not equal to its key,
each resolve answers as it would with an empty cache. -/
theorem answersAsUncached_of_run {resolver : CachingResolver} {request : HttpRequest ν} {clock : Int × Int}
    (hsize : 1 ≤ conf.cacheSize)
    (hrun : Runs.Reaches (Resolution.step conf) (Resolution.Unambiguous conf) ⟨table, {}⟩ c)
    (hop : c.Unambiguous conf (.resolve resolver request clock)) :
    resolver.AnswersAsUncached conf c.table c.cache request clock :=
  (hrun.invariant (Current conf) (.start table) fun _ _ h hop => h.step hop).answersAsUncached hsize hop

/-! ## The condition fails -/

/-- A tenant that comes before the one a lookup loaded is loaded in its place. -/
theorem Lookup.load_preceded {lookup : Lookup ν} {tenant : TenantRow φ}
    (hload : lookup.load conf table = .ok (.some tenant)) (hrow : row ∈ table'.rows)
    (hcome : ∀ r ∈ table'.rows, r = row ∨ r ∈ table.rows) (hpreceded : lookup.PrecededBy conf row.pk tenant.pk) :
    lookup.load conf table' = .ok (.some row) := by
  have hfound {key : Except LookupError PrimaryKey} (h : key = .ok row.pk) : (key >>= table'.getByPk) = .ok row :=
    keyed_ok_iff.mpr ⟨h, hrow⟩
  cases lookup with
  | subdomain slug => exact absurd hpreceded id
  | session tenantId => exact absurd hpreceded id
  | header value =>
    simp only [load, getUuid_eq] at hload ⊢
    by_cases huuid : uuidKey conf value = .ok row.pk
    · exact exceptIn_found (hfound huuid)
    obtain ⟨htext, hcached⟩ := hpreceded.resolve_left huuid
    rcases exceptIn_ok_iff.mp hload with h | ⟨e, he, hmiss, -⟩
    · exact absurd (keyed_ok_iff.mp (some_map_ok_iff.mp h)).1 hcached
    have hmiss' : (uuidKey conf value >>= table'.getByPk) = .error e := by
      refine keyed_error_kept (map_error_iff.mp hmiss) fun r hr hkey => ?_
      rcases hcome r hr with rfl | hr
      · exact absurd hkey huuid
      · exact ⟨r, hr, rfl⟩
    refine exceptIn_ok_iff.mpr (.inr ⟨e, he, map_error_iff.mpr hmiss', ?_⟩)
    exact exceptIn_found (hfound htext)

/-- A resolve that finds a fresh entry answers as uncached when the entry's
tenant is what it would load, and only then. -/
theorem answersAsUncached_of_fresh {resolver : CachingResolver} {request : HttpRequest ν} {clock : Int × Int}
    {lookup : Lookup ν} {tenant : TenantRow φ} {ts : Int} (hsize : 1 ≤ conf.cacheSize)
    (hlookup : resolver.lookup conf request = .some lookup)
    (hget : c.cache.get? (lookup.key conf) = .some (tenant, ts)) (hfresh : clock.1 - ts ≤ conf.cacheTtl) :
    resolver.AnswersAsUncached conf c.table c.cache request clock ↔
      lookup.load conf c.table = .ok (.some tenant) := by
  unfold CachingResolver.AnswersAsUncached CachingResolver.resolve
  simp only [hlookup]
  have hcached : answer (lookup.resolve conf c.table clock) c.cache = .ok (.some tenant) := by
    simp only [answer, Lookup.resolve, bind_run, cacheGet_fresh hget hfresh]
    rfl
  rw [hcached, answer_resolve hsize fun _ _ h => by cases h]
  cases lookup.load conf c.table with
  | error e => simp [Except.mapError]
  | ok found => simp [Except.mapError, eq_comm]

/-- A session value that names another tenant than the one cached under its
text is answered with that one. -/
theorem session_answered_wrong {resolver : CachingResolver} {request : HttpRequest ν} {clock : Int × Int} {tenantId : ν}
    {tenant : TenantRow φ} {ts : Int} (hsize : 1 ≤ conf.cacheSize)
    (hlookup : resolver.lookup conf request = .some (.session tenantId))
    (hget : c.cache.get? ((Lookup.session tenantId).key conf) = .some (tenant, ts))
    (hfresh : clock.1 - ts ≤ conf.cacheTtl) (hother : conf.readKey (.session tenantId) ≠ .ok tenant.pk) :
    ¬ resolver.AnswersAsUncached conf c.table c.cache request clock := by
  rw [answersAsUncached_of_fresh hsize hlookup hget hfresh]
  intro hload
  rcases exceptIn_ok_iff.mp hload with h | ⟨_, _, _, h⟩
  · obtain ⟨pk, hkey, -, rfl⟩ := getPk_ok_iff.mp (some_map_ok_iff.mp h)
    exact hother hkey
  · cases h

/-- A tenant that is cached as it no longer is in the table is answered wrong. -/
theorem unsaved_answered_wrong {resolver : CachingResolver} {request : HttpRequest ν} {clock : Int × Int}
    {lookup : Lookup ν} {tenant : TenantRow φ} {ts : Int} (hsize : 1 ≤ conf.cacheSize)
    (hlookup : resolver.lookup conf request = .some lookup)
    (hget : c.cache.get? (lookup.key conf) = .some (tenant, ts)) (hfresh : clock.1 - ts ≤ conf.cacheTtl)
    (hgone : tenant ∉ c.table.rows) : ¬ resolver.AnswersAsUncached conf c.table c.cache request clock := by
  rw [answersAsUncached_of_fresh hsize hlookup hget hfresh]
  exact fun hload => hgone (mem_of_load hload)

/-- After a tenant is created that comes before a cached one, the entry
answers wrong while it is fresh. -/
theorem created_answered_wrong {resolver : CachingResolver} {request : HttpRequest ν} {clock : Int × Int}
    {pkEqual : Bool} {lookup : Lookup ν} {tenant : TenantRow φ} {ts : Int} (hsize : 1 ≤ conf.cacheSize)
    (hlookup : resolver.lookup conf request = .some lookup)
    (hload : lookup.load conf c.table = .ok (.some tenant)) (hsave : c.table.save row = .ok table')
    (hnew : ∀ r ∈ c.table.rows, r.pk ≠ row.pk) (hpreceded : lookup.PrecededBy conf row.pk tenant.pk)
    (hget : (c.save row pkEqual).cache.get? (lookup.key conf) = .some (tenant, ts))
    (hfresh : clock.1 - ts ≤ conf.cacheTtl) :
    ¬ resolver.AnswersAsUncached conf (c.save row pkEqual).table (c.save row pkEqual).cache request clock := by
  have htable : (c.save row pkEqual).table = table' := by
    unfold Resolution.save
    rw [hsave]
  have hne := hnew tenant (mem_of_load hload)
  rw [answersAsUncached_of_fresh hsize hlookup hget hfresh, htable,
    Lookup.load_preceded hload ((TenantTable.mem_save hsave).mpr (.inl rfl))
      (fun r hr => ((TenantTable.mem_save hsave).mp hr).imp id And.left) hpreceded]
  rintro ⟨⟩
  exact hne rfl

end

/-! ## Integer keys of one digit -/

namespace OneDigit

/-- The key a text of one digit denotes. -/
def readDigit (value : String) : Except LookupError PrimaryKey :=
  match value.toList with
  | [c] => if c.isDigit then .ok (.int (c.toNat - 48)) else .error .valueError
  | _ => .error .valueError

def conf : ResolverSettings String where
  uuid _ := .none
  readKey
    | .uuid _ => .error .overflowError
    | .text value => readDigit value
    | .session value => readDigit value
  truthy value := value ≠ ""
  str value := value

def withHeader (value : String) : HttpRequest String where
  meta_ name := if name = "HTTP_X_TENANT_ID" then .some value else .none

def first : TenantRow Unit := ⟨.int 1, "2", ()⟩

def second : TenantRow Unit := ⟨.int 2, "deli", ()⟩

/-- The first tenant is resolved by its slug, then the second is created. -/
def createdAfter : List (Operation Unit String) :=
  [.save first true, .resolve .header (withHeader "2") (0, 0), .save second true]

def third : TenantRow Unit := ⟨.int 3, "cafe", ()⟩

/-- The header "2" denotes the key of neither tenant. -/
def thirdCreatedAfter : List (Operation Unit String) :=
  [.save first true, .resolve .header (withHeader "2") (0, 0), .save third true]

def ranTo (operations : List (Operation Unit String)) : Resolution Unit := operations.foldl (Resolution.step conf) ⟨{}, {}⟩

theorem answersAsUncached_thirdCreatedAfter :
    CachingResolver.header.AnswersAsUncached conf (ranTo thirdCreatedAfter).table (ranTo thirdCreatedAfter).cache
      (withHeader "2") (1, 1) := by
  have hrun : Runs.Allowed (Resolution.step conf) (Resolution.Unambiguous conf) thirdCreatedAfter ⟨{}, {}⟩ := by
    refine ⟨⟨.inl rfl, fun _ e he => absurd he List.not_mem_nil⟩, (fun _ h => by cases h),
      ⟨.inl rfl, fun _ e he lookup hkey hprecedes => ?_⟩, trivial⟩
    obtain rfl : e = ("header:2", first, 0) := List.mem_singleton.mp he
    have hsame : lookup.key conf = (Lookup.header "2").key conf := hkey
    rcases Lookup.eq_of_key_eq hsame with rfl | ⟨_, _, _, h, _⟩
    · rcases hprecedes with h | ⟨h, -⟩ <;> cases h
    · cases h
  exact answersAsUncached_of_run (by decide) (.of_allowed hrun) (fun _ h => by cases h)

/-- The header "2" still resolves the first tenant, where an empty cache
resolves the second. -/
theorem createdAfter_breaks_answersAsUncached :
    ¬ ∀ (conf : ResolverSettings String) (table : TenantTable Unit) (c : Resolution Unit) (resolver : CachingResolver)
      (request : HttpRequest String) (clock : Int × Int), 1 ≤ conf.cacheSize →
      Runs.Reaches (Resolution.step conf) (fun _ _ => True) ⟨table, {}⟩ c →
      resolver.AnswersAsUncached conf c.table c.cache request clock := by
  intro hclaim
  have hrun : Runs.Allowed (Resolution.step conf) (fun _ _ => True) createdAfter ⟨{}, {}⟩ := by decide
  have hsame := hclaim conf {} (ranTo createdAfter) .header (withHeader "2") (1, 1) (by decide) (.of_allowed hrun)
  have hcached : answer (CachingResolver.header.resolve conf (ranTo createdAfter).table (1, 1) (withHeader "2"))
      (ranTo createdAfter).cache = .ok (.some first) := rfl
  have huncached : answer (CachingResolver.header.resolve conf (ranTo createdAfter).table (1, 1) (withHeader "2")) {} =
      .ok (.some second) := rfl
  cases hcached.symm.trans (hsame.trans huncached)

end OneDigit

end Boundary
