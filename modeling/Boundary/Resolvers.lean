/-
`boundary.resolvers`: the resolver cache, and the resolvers that read the
tenant table through it.

The tenant table keeps its primary keys and the field `BOUNDARY_SUBDOMAIN_FIELD`
names unique. What Django makes of a value passed as `pk`, and Python of one
passed to `uuid.UUID`, are the settings' `readKey` and `uuid`: any functions.
Times are readings of `time.monotonic()`, in the clock's ticks. Logging is left
out.
-/
import Boundary.Database
import Boundary.Lib.OrderedDict
import Mathlib.Data.List.DropRight

namespace Boundary

/-! ## The tenant table -/

/-- A row of the tenant table; `slug` is the field `BOUNDARY_SUBDOMAIN_FIELD`
names, `fields` what its other fields hold. -/
structure TenantRow (φ : Type) where
  pk : PrimaryKey
  slug : String
  fields : φ

structure TenantTable (φ : Type) where
  rows : List (TenantRow φ) := []
  pks : (rows.map TenantRow.pk).Nodup := by simp
  slugs : (rows.map TenantRow.slug).Nodup := by simp

/-- What a lookup raises. -/
inductive LookupError where
  | doesNotExist
  | valueError
  | typeError
  | validationError
  | overflowError
deriving DecidableEq

def LookupError.exc : LookupError → Exc
  | doesNotExist => .other "DoesNotExist"
  | valueError => .other "ValueError"
  | typeError => .other "TypeError"
  | validationError => .other "ValidationError"
  | overflowError => .other "OverflowError"

namespace TenantTable

variable {φ : Type}

/-- `objects.get(pk=...)`, of a value that denotes the key `pk`. -/
def getByPk (table : TenantTable φ) (pk : PrimaryKey) : Except LookupError (TenantRow φ) :=
  match table.rows.find? (·.pk = pk) with
  | .some row => .ok row
  | .none => .error .doesNotExist

/-- `objects.get(slug=slug)`. -/
def getBySlug (table : TenantTable φ) (slug : String) : Except LookupError (TenantRow φ) :=
  match table.rows.find? (·.slug = slug) with
  | .some row => .ok row
  | .none => .error .doesNotExist

/-- No other row has the slug. -/
def admits (table : TenantTable φ) (row : TenantRow φ) : Prop := ∀ r ∈ table.rows, r.pk ≠ row.pk → r.slug ≠ row.slug

instance (table : TenantTable φ) (row : TenantRow φ) : Decidable (table.admits row) :=
  inferInstanceAs (Decidable (∀ r ∈ table.rows, r.pk ≠ row.pk → r.slug ≠ row.slug))

/-- The rows with another key. -/
def others (table : TenantTable φ) (pk : PrimaryKey) : List (TenantRow φ) := table.rows.filter fun r => r.pk ≠ pk

theorem mem_others {table : TenantTable φ} {pk : PrimaryKey} {r : TenantRow φ} :
    r ∈ table.others pk ↔ r ∈ table.rows ∧ r.pk ≠ pk := by
  rw [others, List.mem_filter, decide_eq_true_iff]

/-- A row is inserted, or the one with its key is updated. -/
def put (table : TenantTable φ) (row : TenantRow φ) (h : table.admits row) : TenantTable φ where
  rows := table.others row.pk ++ [row]
  pks := by
    rw [List.map_append, List.nodup_append]
    refine ⟨table.pks.sublist (List.filter_sublist.map _), by simp, fun a ha b hb => ?_⟩
    obtain ⟨r, hr, rfl⟩ := List.mem_map.mp ha
    rw [List.map_singleton, List.mem_singleton] at hb
    rw [hb]
    exact (mem_others.mp hr).2
  slugs := by
    rw [List.map_append, List.nodup_append]
    refine ⟨table.slugs.sublist (List.filter_sublist.map _), by simp, fun a ha b hb => ?_⟩
    obtain ⟨r, hr, rfl⟩ := List.mem_map.mp ha
    rw [List.map_singleton, List.mem_singleton] at hb
    rw [hb]
    exact h r (mem_others.mp hr).1 (mem_others.mp hr).2

/-- `instance.save()`; `IntegrityError` when another row has the slug. -/
def save (table : TenantTable φ) (row : TenantRow φ) : Except Exc (TenantTable φ) :=
  if h : table.admits row then .ok (table.put row h) else .error .integrityError

/-- `instance.delete()`. -/
def delete (table : TenantTable φ) (pk : PrimaryKey) : TenantTable φ where
  rows := table.others pk
  pks := table.pks.sublist (List.filter_sublist.map _)
  slugs := table.slugs.sublist (List.filter_sublist.map _)

variable {table table' : TenantTable φ} {row r : TenantRow φ} {pk : PrimaryKey} {slug : String}

theorem getByPk_eq_ok_iff : table.getByPk pk = .ok row ↔ row ∈ table.rows ∧ row.pk = pk := by
  unfold getByPk
  cases hfind : table.rows.find? (·.pk = pk) with
  | none =>
    rw [List.find?_eq_none] at hfind
    simp only [reduceCtorEq, false_iff, not_and]
    intro hmem hpk
    exact hfind row hmem (by simpa using hpk)
  | some r =>
    have hpk : r.pk = pk := by simpa using List.find?_some hfind
    have hmem : r ∈ table.rows := List.mem_of_find?_eq_some hfind
    simp only [Except.ok.injEq]
    constructor
    · rintro rfl
      exact ⟨hmem, hpk⟩
    · rintro ⟨hrow, hrowpk⟩
      exact List.inj_on_of_nodup_map table.pks hmem hrow (hpk.trans hrowpk.symm)

theorem getBySlug_eq_ok_iff : table.getBySlug slug = .ok row ↔ row ∈ table.rows ∧ row.slug = slug := by
  unfold getBySlug
  cases hfind : table.rows.find? (·.slug = slug) with
  | none =>
    rw [List.find?_eq_none] at hfind
    simp only [reduceCtorEq, false_iff, not_and]
    intro hmem hslug
    exact hfind row hmem (by simpa using hslug)
  | some r =>
    have hslug : r.slug = slug := by simpa using List.find?_some hfind
    have hmem : r ∈ table.rows := List.mem_of_find?_eq_some hfind
    simp only [Except.ok.injEq]
    constructor
    · rintro rfl
      exact ⟨hmem, hslug⟩
    · rintro ⟨hrow, hrowslug⟩
      exact List.inj_on_of_nodup_map table.slugs hmem hrow (hslug.trans hrowslug.symm)

theorem getByPk_error {e : LookupError} (h : table.getByPk pk = .error e) : e = .doesNotExist := by
  unfold getByPk at h
  split at h <;> cases h
  rfl

theorem getBySlug_error {e : LookupError} (h : table.getBySlug slug = .error e) : e = .doesNotExist := by
  unfold getBySlug at h
  split at h <;> cases h
  rfl

theorem getByPk_eq_error_iff : table.getByPk pk = .error .doesNotExist ↔ ∀ r ∈ table.rows, r.pk ≠ pk := by
  unfold getByPk
  cases hfind : table.rows.find? (·.pk = pk) with
  | none =>
    rw [List.find?_eq_none] at hfind
    simpa using hfind
  | some r =>
    simp only [reduceCtorEq, false_iff, not_forall]
    exact ⟨r, List.mem_of_find?_eq_some hfind, by simpa using List.find?_some hfind⟩

theorem mem_save (h : table.save row = .ok table') : r ∈ table'.rows ↔ r = row ∨ r ∈ table.rows ∧ r.pk ≠ row.pk := by
  unfold save at h
  split at h <;> cases h
  rw [put, List.mem_append, mem_others, List.mem_singleton, or_comm]

theorem mem_delete : r ∈ (table.delete pk).rows ↔ r ∈ table.rows ∧ r.pk ≠ pk := mem_others

end TenantTable

/-! ## The cache -/

/-- A value passed to the ORM as `pk`; `ν` are the values a session holds. -/
inductive PkValue (ν : Type) where
  | uuid (value : BitVec 128)
  | text (value : String)
  | session (value : ν)

/-- The settings the resolvers read, and what they leave to Python and to
Django. -/
structure ResolverSettings (ν : Type) where
  cacheSize : Nat := 1000
  cacheTtl : Int := 60
  subdomainParentDomain : Option (List String) := .none
  headerName : String := "X-Tenant-ID"
  sessionKey : String := "boundary_tenant_id"
  /-- `uuid.UUID(value)`; `none` is a `ValueError`. -/
  uuid : String → Option (BitVec 128)
  /-- The key a value passed as `pk` denotes, or what its conversion raises. -/
  readKey : PkValue ν → Except LookupError PrimaryKey
  /-- `bool(value)` and `str(value)` of a session's value. -/
  truthy : ν → Bool
  str : ν → String

/-- `_cache`: the tenant cached under a key, and when. -/
abbrev TenantCache (φ : Type) := OrderedDict String (TenantRow φ × Int)

/-- What runs on the cache. -/
abbrev Cached (φ : Type) := EStateM Exc (TenantCache φ)

section

variable {φ ν : Type}

/-- `_cache_get`, at the time `now`. -/
def cacheGet (conf : ResolverSettings ν) (now : Int) (key : String) : Cached φ (Option (TenantRow φ)) := fun cache =>
  match cache.get? key with
  | .none => .ok .none cache
  | .some (tenant, ts) => if now - ts > conf.cacheTtl then .ok .none (cache.erase key) else .ok (.some tenant) cache

/-- `_cache_set`. With no entry to evict, `min` raises. -/
def cacheSet (conf : ResolverSettings ν) (now : Int) (key : String) (tenant : TenantRow φ) : Cached φ Unit := fun cache =>
  if cache.size ≥ conf.cacheSize ∧ (cache.get? key).isNone then
    match cache.minKey Prod.snd with
    | .none => .error (.other "ValueError") cache
    | .some oldest => .ok () ((cache.erase oldest).put key (tenant, now))
  else .ok () (cache.put key (tenant, now))

/-- `_cache_invalidate`, of a tenant with this key. -/
def cacheInvalidate (pk : PrimaryKey) : Cached φ Unit := fun cache => .ok () (cache.filter fun _ e => e.1.pk ≠ pk)

/-- `_cache_clear`. -/
def cacheClear : Cached φ Unit := fun _ => .ok () ⟨[], List.nodup_nil⟩

/-! ## Lookups -/

/-- `try: x except caught: handler`. -/
def exceptIn {α : Type} (caught : List LookupError) (x handler : Except LookupError α) : Except LookupError α :=
  match x with
  | .ok a => .ok a
  | .error e => if e ∈ caught then handler else .error e

/-- `TenantModel.objects.get(pk=value)`. -/
def getPk (conf : ResolverSettings ν) (table : TenantTable φ) (value : PkValue ν) : Except LookupError (TenantRow φ) :=
  conf.readKey value >>= table.getByPk

/-- `TenantModel.objects.get(pk=uuid.UUID(value))`. -/
def getUuid (conf : ResolverSettings ν) (table : TenantTable φ) (value : String) : Except LookupError (TenantRow φ) :=
  match conf.uuid value with
  | .some value => getPk conf table (.uuid value)
  | .none => .error .valueError

/-- What a resolver looks up: the key it caches under, and what it asks the
database for. -/
inductive Lookup (ν : Type) where
  | subdomain (slug : String)
  | header (value : String)
  | session (tenantId : ν)

namespace Lookup

def key (conf : ResolverSettings ν) : Lookup ν → String
  | subdomain slug => "subdomain:" ++ slug
  | header value => "header:" ++ value
  | session tenantId => "session:" ++ conf.str tenantId

/-- The database half; `none` is a `return None`. -/
def load (conf : ResolverSettings ν) (table : TenantTable φ) : Lookup ν → Except LookupError (Option (TenantRow φ))
  | subdomain slug => exceptIn [.doesNotExist] (.some <$> table.getBySlug slug) (.ok .none)
  | header value =>
    exceptIn [.valueError, .doesNotExist] (.some <$> getUuid conf table value) <|
      exceptIn [.doesNotExist, .valueError, .typeError] (.some <$> getPk conf table (.text value)) <|
        exceptIn [.doesNotExist] (.some <$> table.getBySlug value) (.ok .none)
  | session tenantId => exceptIn [.doesNotExist, .valueError] (.some <$> getPk conf table (.session tenantId)) (.ok .none)

/-- The end of a resolve that missed the cache: cache what was loaded. -/
def store (conf : ResolverSettings ν) (now : Int) (lookup : Lookup ν) :
    Except LookupError (Option (TenantRow φ)) → Cached φ (Option (TenantRow φ))
  | .error e => throw e.exc
  | .ok .none => pure .none
  | .ok (.some tenant) => do
    cacheSet conf now (lookup.key conf) tenant
    pure (.some tenant)

/-- What the resolvers share: read the cache, or load and store. `clock` are
the times of the two. -/
def resolve (conf : ResolverSettings ν) (table : TenantTable φ) (clock : Int × Int) (lookup : Lookup ν) :
    Cached φ (Option (TenantRow φ)) := do
  match ← cacheGet conf clock.1 (lookup.key conf) with
  | .some tenant => pure (.some tenant)
  | .none => lookup.store conf clock.2 (lookup.load conf table)

end Lookup

/-! ## Requests -/

/-- What the resolvers read of a request. -/
structure HttpRequest (ν : Type) where
  /-- `request.get_host()`. -/
  host : String := ""
  /-- `request.META`. -/
  meta_ : String → Option String := fun _ => .none
  /-- `request.session`. -/
  session : Option (String → Option ν) := .none

/-- `s.split(c)`. -/
def splitOnChar (c : Char) (s : String) : List String := (s.toList.splitOn c).map String.ofList

/-- `host.split(":")[0].rstrip(".").lower()`; `get_host()` accepts ASCII only. -/
def normalHost (host : String) : String :=
  String.ofList (((host.toList.takeWhile (· ≠ ':')).rdropWhile (· = '.')).map Char.toLower)

/-- `_slug_for_configured_parent`. -/
def slugForConfiguredParent (host : String) : List String → Option String
  | [] => .none
  | parent :: parents =>
    let hostLabels := splitOnChar '.' host
    let parentLabels := splitOnChar '.' (String.ofList (parent.toList.map Char.toLower))
    if hostLabels.length = parentLabels.length + 1 ∧ hostLabels.tail = parentLabels then hostLabels.head?
    else slugForConfiguredParent host parents

namespace SubdomainResolver

/-- The slug a host names. -/
def slug (conf : ResolverSettings ν) (host : String) : Option String :=
  let host := normalHost host
  let labels := splitOnChar '.' host
  if labels.any (· = "") then .none
  else
    match conf.subdomainParentDomain with
    | .some parents => slugForConfiguredParent host parents
    | .none => if labels.length < 3 then .none else labels.head?

def lookup (conf : ResolverSettings ν) (request : HttpRequest ν) : Option (Lookup ν) :=
  (slug conf request.host).map .subdomain

end SubdomainResolver

namespace HeaderResolver

def metaKey (conf : ResolverSettings ν) : String :=
  "HTTP_" ++ String.ofList ((conf.headerName.toList.map Char.toUpper).map fun c => if c = '-' then '_' else c)

def lookup (conf : ResolverSettings ν) (request : HttpRequest ν) : Option (Lookup ν) :=
  ((request.meta_ (metaKey conf)).filter (· ≠ "")).map .header

end HeaderResolver

namespace SessionResolver

def lookup (conf : ResolverSettings ν) (request : HttpRequest ν) : Option (Lookup ν) :=
  request.session.bind fun session => ((session conf.sessionKey).filter conf.truthy).map .session

end SessionResolver

/-- The resolvers that cache. -/
inductive CachingResolver where
  | subdomain
  | header
  | session

namespace CachingResolver

/-- What the resolver looks up for the request, if the request has it. -/
def lookup (conf : ResolverSettings ν) : CachingResolver → HttpRequest ν → Option (Lookup ν)
  | subdomain => SubdomainResolver.lookup conf
  | header => HeaderResolver.lookup conf
  | session => SessionResolver.lookup conf

/-- `resolve(request)`. -/
def resolve (conf : ResolverSettings ν) (table : TenantTable φ) (clock : Int × Int) (resolver : CachingResolver)
    (request : HttpRequest ν) : Cached φ (Option (TenantRow φ)) :=
  match resolver.lookup conf request with
  | .none => pure .none
  | .some lookup => lookup.resolve conf table clock

end CachingResolver

end

end Boundary
