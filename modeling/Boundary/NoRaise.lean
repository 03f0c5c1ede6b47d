/-
The contract of `BaseResolver.resolve`, that it returns a tenant or `None` and
raises nothing, and the requests on which the built-in resolvers keep it.

What the payload of a token decodes to is any function's result: `none` where
`base64` or `json` raise, which the resolver catches. A value found in one is
passed to `get(pk=...)` as a session's is.
-/
import Boundary.LookupOrder

namespace Boundary

open Exec

/-- What `json.loads` returns: a `dict`, as its `get`, or a value of a type
that has no `get`. -/
inductive Payload (ν : Type) where
  | object (get : String → Option ν)
  | other

structure JwtSettings (ν : Type) where
  jwtClaim : String := "tenant_id"
  /-- `json.loads(base64.urlsafe_b64decode(segment))`; `none` where it raises. -/
  loads : String → Option (Payload ν)

/-- A request, with what upstream code set as its `boundary_tenant`. -/
structure ResolverRequest (φ ν : Type) extends HttpRequest ν where
  boundaryTenant : Option (TenantRow φ) := .none

variable {φ ν : Type}

namespace JWTClaimResolver

/-- `segment + "=" * (4 - len(segment) % 4)`. -/
def padded (segment : String) : String :=
  segment ++ String.ofList (List.replicate (4 - segment.length % 4) '=')

/-- The payload of the bearer token, if the request has one that decodes. -/
def payload (jwt : JwtSettings ν) (request : HttpRequest ν) : Option (Payload ν) :=
  let authHeader := ((request.meta_ "HTTP_AUTHORIZATION").getD "").toList
  if "Bearer ".toList.isPrefixOf authHeader then
    match splitOnChar '.' (String.ofList (authHeader.drop 7)) with
    | [_, segment, _] => jwt.loads (padded segment)
    | _ => .none
  else .none

def resolve (conf : ResolverSettings ν) (jwt : JwtSettings ν) (table : TenantTable φ) (request : HttpRequest ν) :
    Except Exc (Option (TenantRow φ)) :=
  match payload jwt request with
  | .none => .ok .none
  | .some .other => .error (.other "AttributeError")
  | .some (.object get) =>
    match (get jwt.jwtClaim).filter conf.truthy with
    | .none => .ok .none
    | .some tenantId =>
      (exceptIn [.doesNotExist, .valueError] (.some <$> getPk conf table (.session tenantId)) (.ok .none)).mapError
        LookupError.exc

end JWTClaimResolver

/-- The classes `boundary.resolvers` defines. -/
inductive BuiltinResolver where
  | caching (resolver : CachingResolver)
  | jwtClaim
  | explicit

/-- `resolve(request)`. -/
def BuiltinResolver.resolve (conf : ResolverSettings ν) (jwt : JwtSettings ν) (table : TenantTable φ) (clock : Int × Int)
    (request : ResolverRequest φ ν) : BuiltinResolver → Cached φ (Option (TenantRow φ))
  | caching resolver => resolver.resolve conf table clock request.toHttpRequest
  | jwtClaim => ofExcept (JWTClaimResolver.resolve conf jwt table request.toHttpRequest)
  | explicit => pure request.boundaryTenant

/-! ## What a lookup can raise -/

/-- The lookup raises what its `except` clauses do not name. -/
def Lookup.Refused (conf : ResolverSettings ν) (table : TenantTable φ) : Lookup ν → Prop
  | subdomain _ => False
  | session value => ∃ e, conf.readKey (.session value) = .error e ∧ e ∉ [LookupError.doesNotExist, .valueError]
  | header value =>
    (∃ e, uuidKey conf value = .error e ∧ e ∉ [LookupError.valueError, .doesNotExist]) ∨
      (∀ row ∈ table.rows, uuidKey conf value ≠ .ok row.pk) ∧
      (∀ e, uuidKey conf value = .error e → e ∈ [LookupError.valueError, .doesNotExist]) ∧
      ∃ e, conf.readKey (.text value) = .error e ∧ e ∉ [LookupError.doesNotExist, .valueError, .typeError]

/-- The table has a tenant by a key, or the slug, that is looked up. -/
def Lookup.Finds (conf : ResolverSettings ν) (table : TenantTable φ) : Lookup ν → Prop
  | subdomain slug => ∃ row ∈ table.rows, row.slug = slug
  | session value => ∃ row ∈ table.rows, conf.readKey (.session value) = .ok row.pk
  | header value => ∃ row ∈ table.rows,
      uuidKey conf value = .ok row.pk ∨ conf.readKey (.text value) = .ok row.pk ∨ row.slug = value

/-- No entry under the key is fresh. -/
def Missed (conf : ResolverSettings ν) (cache : TenantCache φ) (now : Int) (key : String) : Prop :=
  ∀ tenant ts, cache.get? key = .some (tenant, ts) → ¬ now - ts ≤ conf.cacheTtl

/-- The cache keeps no entries, and holds none to evict. -/
def NoRoom (conf : ResolverSettings ν) (cache : TenantCache φ) (key : String) : Prop :=
  conf.cacheSize = 0 ∧ ∀ e ∈ cache.entries, e.1 = key

/-- What a request holds that no resolver chokes on. -/
structure Tame (conf : ResolverSettings ν) (jwt : JwtSettings ν) (table : TenantTable φ) (cache : TenantCache φ)
    (now : Int) (request : HttpRequest ν) : Prop where
  lookups : ∀ (resolver : CachingResolver) lookup, resolver.lookup conf request = .some lookup →
    Missed conf cache now (lookup.key conf) →
    ¬ lookup.Refused conf table ∧ (NoRoom conf cache (lookup.key conf) → ¬ lookup.Finds conf table)
  payload : ∀ payload, JWTClaimResolver.payload jwt request = .some payload →
    ∃ get, payload = .object get ∧ ∀ tenantId, get jwt.jwtClaim = .some tenantId → conf.truthy tenantId = true →
      ∀ e, conf.readKey (.session tenantId) = .error e → e ∈ [LookupError.doesNotExist, .valueError]

section

variable {conf : ResolverSettings ν} {jwt : JwtSettings ν} {table : TenantTable φ} {cache : TenantCache φ}
  {lookup : Lookup ν}

theorem exceptIn_error_iff {α : Type} {caught : List LookupError} {x handler : Except LookupError α} {e : LookupError} :
    exceptIn caught x handler = .error e ↔
      x = .error e ∧ e ∉ caught ∨ ∃ e' ∈ caught, x = .error e' ∧ handler = .error e := by
  unfold exceptIn
  cases x with
  | ok a => simp
  | error e' =>
    by_cases h : e' ∈ caught
    · simp only [if_pos h, Except.error.injEq]
      constructor
      · exact fun hrun => .inr ⟨e', h, rfl, hrun⟩
      · rintro (⟨rfl, hnot⟩ | ⟨_, _, rfl, hrun⟩)
        · exact absurd h hnot
        · exact hrun
    · simp only [if_neg h, Except.error.injEq]
      constructor
      · rintro rfl
        exact .inl ⟨rfl, h⟩
      · rintro (⟨rfl, -⟩ | ⟨_, hin, rfl, -⟩)
        · rfl
        · exact absurd hin h

theorem some_map_ne_none {x : Except LookupError (TenantRow φ)} : (Option.some <$> x) ≠ .ok .none := by
  cases x <;> simp [Functor.map, Except.map]

theorem keyed_error_iff {key : Except LookupError PrimaryKey} {e : LookupError} :
    (key >>= table.getByPk) = .error e ↔
      key = .error e ∨ ∃ pk, key = .ok pk ∧ (∀ r ∈ table.rows, r.pk ≠ pk) ∧ e = .doesNotExist := by
  cases key with
  | error e' => simp [bind, Except.bind]
  | ok pk =>
    have hbind : ((Except.ok pk : Except LookupError PrimaryKey) >>= table.getByPk) = table.getByPk pk := rfl
    rw [hbind]
    constructor
    · intro h
      obtain rfl := TenantTable.getByPk_error h
      exact .inr ⟨pk, rfl, TenantTable.getByPk_eq_error_iff.mp h, rfl⟩
    · rintro (h | ⟨pk', h, hnone, rfl⟩)
      · cases h
      · cases h
        exact TenantTable.getByPk_eq_error_iff.mpr hnone

/-- A key lookup goes on to the next one when no row has the key, and an
unsuitable value raises what is caught. -/
theorem keyed_caught_iff {key : Except LookupError PrimaryKey} {caught : List LookupError}
    (hmissing : LookupError.doesNotExist ∈ caught) :
    (∃ e ∈ caught, (key >>= table.getByPk) = .error e) ↔
      (∀ row ∈ table.rows, key ≠ .ok row.pk) ∧ ∀ e, key = .error e → e ∈ caught := by
  simp only [keyed_error_iff]
  constructor
  · rintro ⟨e, he, rfl | ⟨pk, rfl, hnone, -⟩⟩
    · exact ⟨fun _ _ => by simp, fun e' h => by cases h; exact he⟩
    · exact ⟨fun row hrow h => hnone row hrow (Except.ok.inj h).symm, fun e' h => by cases h⟩
  · rintro ⟨hnone, hcaught⟩
    cases key with
    | error e => exact ⟨e, hcaught e rfl, .inl rfl⟩
    | ok pk => exact ⟨_, hmissing, .inr ⟨pk, rfl, fun r hr h => hnone r hr (by rw [h]), rfl⟩⟩

/-- A key lookup raises past its `except` what reading the key raises. -/
theorem keyed_uncaught_iff {key : Except LookupError PrimaryKey} {caught : List LookupError} {e : LookupError}
    (hmissing : LookupError.doesNotExist ∈ caught) :
    (key >>= table.getByPk) = .error e ∧ e ∉ caught ↔ key = .error e ∧ e ∉ caught := by
  refine and_congr_left fun he => ?_
  rw [keyed_error_iff]
  constructor
  · rintro (h | ⟨_, _, _, rfl⟩)
    · exact h
    · exact absurd hmissing he
  · exact .inl

theorem slug_never_raises {slug : String} {e : LookupError} :
    exceptIn [.doesNotExist] (Option.some <$> table.getBySlug slug) (.ok .none) ≠ .error e := by
  intro h
  rw [exceptIn_error_iff] at h
  rcases h with ⟨hslug, hnot⟩ | ⟨_, _, _, h⟩
  · rw [TenantTable.getBySlug_error (map_error_iff.mp hslug)] at hnot
    exact hnot (List.mem_singleton.mpr rfl)
  · cases h

theorem session_raises_iff {value : PkValue ν} {e : LookupError} :
    exceptIn [.doesNotExist, .valueError] (Option.some <$> getPk conf table value) (.ok .none) = .error e ↔
      conf.readKey value = .error e ∧ e ∉ [LookupError.doesNotExist, .valueError] := by
  rw [exceptIn_error_iff, map_error_iff, getPk, keyed_uncaught_iff (by simp)]
  simp

/-- A lookup raises when it is refused. -/
theorem load_raises_iff : (∃ e, lookup.load conf table = .error e) ↔ lookup.Refused conf table := by
  cases lookup with
  | subdomain slug =>
    refine iff_of_false ?_ id
    intro h
    obtain ⟨e, h⟩ := h
    exact slug_never_raises h
  | session value => exact exists_congr fun e => session_raises_iff
  | header value =>
    have hrest : (∃ e, exceptIn [.doesNotExist, .valueError, .typeError] (Option.some <$> getPk conf table (.text value))
          (exceptIn [.doesNotExist] (Option.some <$> table.getBySlug value) (.ok .none)) = .error e) ↔
        ∃ e, conf.readKey (.text value) = .error e ∧ e ∉ [LookupError.doesNotExist, .valueError, .typeError] := by
      refine exists_congr fun e => ?_
      rw [exceptIn_error_iff, map_error_iff, getPk, keyed_uncaught_iff (by simp)]
      refine or_iff_left fun h => ?_
      obtain ⟨_, _, _, h⟩ := h
      exact slug_never_raises h
    simp only [Lookup.load, Lookup.Refused]
    rw [← and_assoc, ← hrest, ← keyed_caught_iff (by simp)]
    have huuid {e : LookupError} :
        Option.some <$> getUuid conf table value = .error e ↔ (uuidKey conf value >>= table.getByPk) = .error e := by
      rw [map_error_iff, getUuid_eq]
    constructor
    · rintro ⟨e, h⟩
      rcases exceptIn_error_iff.mp h with ⟨hraised, he⟩ | ⟨e', he', hmiss, h⟩
      · exact .inl ⟨e, (keyed_uncaught_iff (by simp)).mp ⟨huuid.mp hraised, he⟩⟩
      · exact .inr ⟨⟨e', he', huuid.mp hmiss⟩, e, h⟩
    · rintro (⟨e, h⟩ | ⟨⟨e', he', hmiss⟩, e, h⟩)
      · obtain ⟨hraised, he⟩ := (keyed_uncaught_iff (by simp)).mpr h
        exact ⟨e, exceptIn_error_iff.mpr (.inl ⟨huuid.mpr hraised, he⟩)⟩
      · exact ⟨e, exceptIn_error_iff.mpr (.inr ⟨e', he', huuid.mpr hmiss, h⟩)⟩

/-- A lookup that loads nothing has gone through all it tries. -/
theorem load_none_finds (h : lookup.load conf table = .ok .none) : ¬ lookup.Finds conf table := by
  have hmiss {key : Except LookupError PrimaryKey} {e : LookupError} (h : (key >>= table.getByPk) = .error e) :
      ∀ row ∈ table.rows, key ≠ .ok row.pk := by
    intro row hrow hkey
    rw [keyed_ok_iff.mpr ⟨hkey, hrow⟩] at h
    cases h
  cases lookup with
  | subdomain slug =>
    rintro ⟨row, hrow, hslug⟩
    rw [Lookup.load, TenantTable.getBySlug_eq_ok_iff.mpr ⟨hrow, hslug⟩] at h
    cases h
  | session value =>
    rcases exceptIn_ok_iff.mp h with h | ⟨e, _, hkey, _⟩
    · exact absurd h some_map_ne_none
    · rintro ⟨row, hrow, hread⟩
      exact hmiss (map_error_iff.mp hkey) row hrow hread
  | header value =>
    rcases exceptIn_ok_iff.mp h with h | ⟨e, _, huuid, h⟩
    · exact absurd h some_map_ne_none
    rcases exceptIn_ok_iff.mp h with h | ⟨e', _, htext, h⟩
    · exact absurd h some_map_ne_none
    rw [map_error_iff, getUuid_eq] at huuid
    rintro ⟨row, hrow, hread | hread | hslug⟩
    · exact hmiss huuid row hrow hread
    · exact hmiss (map_error_iff.mp htext) row hrow hread
    · rw [TenantTable.getBySlug_eq_ok_iff.mpr ⟨hrow, hslug⟩] at h
      cases h

theorem finds_of_load {row : TenantRow φ} (h : lookup.load conf table = .ok (.some row)) : lookup.Finds conf table := by
  have hkeyed {key : Except LookupError PrimaryKey} (h : Option.some <$> (key >>= table.getByPk) = .ok (.some row)) :
      row ∈ table.rows ∧ key = .ok row.pk :=
    (keyed_ok_iff.mp (some_map_ok_iff.mp h)).symm
  have hslug {slug : String} (h : Option.some <$> table.getBySlug slug = .ok (.some row)) :
      row ∈ table.rows ∧ row.slug = slug :=
    TenantTable.getBySlug_eq_ok_iff.mp (some_map_ok_iff.mp h)
  cases lookup with
  | subdomain slug =>
    rcases exceptIn_ok_iff.mp h with h | ⟨_, _, _, h⟩
    · exact ⟨row, hslug h⟩
    · cases h
  | session value =>
    rcases exceptIn_ok_iff.mp h with h | ⟨_, _, _, h⟩
    · exact ⟨row, hkeyed h⟩
    · cases h
  | header value =>
    rcases exceptIn_ok_iff.mp h with h | ⟨_, _, _, h⟩
    · rw [getUuid_eq] at h
      exact ⟨row, (hkeyed h).1, .inl (hkeyed h).2⟩
    rcases exceptIn_ok_iff.mp h with h | ⟨_, _, _, h⟩
    · exact ⟨row, (hkeyed h).1, .inr (.inl (hkeyed h).2)⟩
    rcases exceptIn_ok_iff.mp h with h | ⟨_, _, _, h⟩
    · exact ⟨row, (hslug h).1, .inr (.inr (hslug h).2)⟩
    · cases h

/-! ## Resolves -/

/-- A read that misses leaves no entry under its key. -/
theorem cacheGet_missed {now : Int} {key : String} (h : Missed conf cache now key) :
    ∃ cache', cacheGet conf now key cache = .ok .none cache' ∧
      ∀ e, e ∈ cache'.entries ↔ e ∈ cache.entries ∧ e.1 ≠ key := by
  unfold cacheGet
  cases hget : cache.get? key with
  | none =>
    refine ⟨cache, rfl, fun e => ⟨fun he => ⟨he, ?_⟩, And.left⟩⟩
    rintro rfl
    rw [OrderedDict.get?_eq_some_iff.mpr he] at hget
    cases hget
  | some entry =>
    obtain ⟨tenant, ts⟩ := entry
    have hstale := h tenant ts hget
    exact ⟨cache.erase key, if_pos (by omega), fun e => OrderedDict.mem_erase⟩

/-- A resolve that looks something up does not raise, if and only if a fresh
entry answers it, or the lookup is not refused and what it finds can be kept. -/
theorem resolve_returns_iff {clock : Int × Int} :
    (∃ found, answer (lookup.resolve conf table clock) cache = .ok found) ↔
      (Missed conf cache clock.1 (lookup.key conf) →
        ¬ lookup.Refused conf table ∧ (NoRoom conf cache (lookup.key conf) → ¬ lookup.Finds conf table)) := by
  by_cases hmissed : Missed conf cache clock.1 (lookup.key conf)
  · obtain ⟨cache', hget, hmem⟩ := cacheGet_missed hmissed
    have hroom : NoRoom conf cache (lookup.key conf) ↔ conf.cacheSize = 0 ∧ cache'.entries = [] := by
      refine and_congr_right fun _ => ?_
      simp only [List.eq_nil_iff_forall_not_mem, hmem, not_and, not_not]
    have hrun : answer (lookup.resolve conf table clock) cache =
        answer (lookup.store conf clock.2 (lookup.load conf table)) cache' := by
      simp only [answer, Lookup.resolve, bind_run, hget]
    rw [hrun, ← load_raises_iff, hroom]
    simp only [hmissed, true_imp_iff]
    cases hload : lookup.load conf table with
    | error e =>
      constructor
      · rintro ⟨found, h⟩
        cases h
      · exact fun h => absurd ⟨e, rfl⟩ h.1
    | ok loaded =>
      have hno : ¬ ∃ e, (Except.ok loaded : Except LookupError (Option (TenantRow φ))) = .error e := by simp
      simp only [hno, not_false_eq_true, true_and]
      cases loaded with
      | none => exact ⟨fun _ _ => load_none_finds hload, fun _ => ⟨.none, rfl⟩⟩
      | some row =>
        simp only [finds_of_load hload, not_true_eq_false, imp_false]
        have hraises : (∃ e, cacheSet conf clock.2 (lookup.key conf) row cache' = .error e cache') ↔
            conf.cacheSize = 0 ∧ cache'.entries = [] := cacheSet_raises_iff
        rw [← hraises]
        rcases cacheSet_spec conf clock.2 (lookup.key conf) row cache' with ⟨e, hset⟩ | ⟨cache'', hset, -⟩
        · simp [answer, Lookup.store, bind_run, hset]
        · simp [answer, Lookup.store, bind_run, hset]
  · simp only [hmissed, false_imp_iff, iff_true]
    simp only [Missed, not_forall, not_not] at hmissed
    obtain ⟨tenant, ts, hget, hfresh⟩ := hmissed
    refine ⟨.some tenant, ?_⟩
    simp only [answer, Lookup.resolve, bind_run, cacheGet_fresh hget hfresh]
    rfl

/-- The token's resolver does not raise, if and only if the payload is an
object whose claim the key field reads, or refuses with what is caught. -/
theorem jwt_returns_iff {request : HttpRequest ν} :
    (∃ found, JWTClaimResolver.resolve conf jwt table request = .ok found) ↔
      ∀ payload, JWTClaimResolver.payload jwt request = .some payload →
        ∃ get, payload = .object get ∧ ∀ tenantId, get jwt.jwtClaim = .some tenantId → conf.truthy tenantId = true →
          ∀ e, conf.readKey (.session tenantId) = .error e → e ∈ [LookupError.doesNotExist, .valueError] := by
  unfold JWTClaimResolver.resolve
  cases JWTClaimResolver.payload jwt request with
  | none => exact ⟨fun _ _ h => (by cases h), fun _ => ⟨.none, rfl⟩⟩
  | some payload =>
    simp only [Option.some.injEq, forall_eq']
    cases payload with
    | other => simp
    | object get =>
      simp only [Payload.object.injEq, exists_eq_left']
      cases hclaim : (get jwt.jwtClaim).filter conf.truthy with
      | none =>
        refine iff_of_true ⟨.none, rfl⟩ fun tenantId hget htruthy => ?_
        simp [hget, htruthy] at hclaim
      | some tenantId =>
        obtain ⟨hget, htruthy⟩ := Option.filter_eq_some_iff.mp hclaim
        have heach : (∀ tenantId', get jwt.jwtClaim = .some tenantId' → conf.truthy tenantId' = true →
              ∀ e, conf.readKey (.session tenantId') = .error e → e ∈ [LookupError.doesNotExist, .valueError]) ↔
            ∀ e, conf.readKey (.session tenantId) = .error e → e ∈ [LookupError.doesNotExist, .valueError] := by
          simp [hget, htruthy]
        rw [heach]
        cases hrun : exceptIn [.doesNotExist, .valueError] (Option.some <$> getPk conf table (.session tenantId))
            (.ok .none) with
        | ok found =>
          refine iff_of_true ⟨found, by simp only [hrun]; rfl⟩ fun e hread => ?_
          by_contra hnot
          rw [session_raises_iff.mpr ⟨hread, hnot⟩] at hrun
          cases hrun
        | error e =>
          obtain ⟨hread, hnot⟩ := session_raises_iff.mp hrun
          refine iff_of_false ?_ fun hall => hnot (hall e hread)
          rintro ⟨found, h⟩
          simp only [hrun, Except.mapError, reduceCtorEq] at h

theorem answer_ofExcept {α : Type} (x : Except Exc α) : answer (ofExcept x : Cached φ α) cache = x := by
  cases x <;> rfl

end

/-- Every built-in resolver returns a tenant or `None`, if and only if what the
request holds is tame. -/
theorem builtins_return_iff (conf : ResolverSettings ν) (jwt : JwtSettings ν) (table : TenantTable φ)
    (cache : TenantCache φ) (clock : Int × Int) (request : ResolverRequest φ ν) :
    (∀ resolver : BuiltinResolver, ∃ found, answer (resolver.resolve conf jwt table clock request) cache = .ok found) ↔
      Tame conf jwt table cache clock.1 request.toHttpRequest := by
  have hcaching : ∀ resolver : CachingResolver,
      (∃ found, answer ((BuiltinResolver.caching resolver).resolve conf jwt table clock request) cache = .ok found) ↔
        ∀ lookup, resolver.lookup conf request.toHttpRequest = .some lookup →
          Missed conf cache clock.1 (lookup.key conf) →
          ¬ lookup.Refused conf table ∧ (NoRoom conf cache (lookup.key conf) → ¬ lookup.Finds conf table) := by
    intro resolver
    simp only [BuiltinResolver.resolve, CachingResolver.resolve]
    cases resolver.lookup conf request.toHttpRequest with
    | none => exact iff_of_true ⟨.none, rfl⟩ fun _ h => by cases h
    | some lookup =>
      simp only [Option.some.injEq, forall_eq']
      exact resolve_returns_iff
  have hjwt : (∃ found, answer (BuiltinResolver.jwtClaim.resolve conf jwt table clock request) cache = .ok found) ↔
      ∃ found, JWTClaimResolver.resolve conf jwt table request.toHttpRequest = .ok found := by
    simp only [BuiltinResolver.resolve, answer_ofExcept]
  constructor
  · intro h
    exact ⟨fun resolver => (hcaching resolver).mp (h (.caching resolver)), jwt_returns_iff.mp (hjwt.mp (h .jwtClaim))⟩
  · intro h resolver
    cases resolver with
    | caching resolver => exact (hcaching resolver).mpr (h.lookups resolver)
    | jwtClaim => exact hjwt.mpr (jwt_returns_iff.mpr h.payload)
    | explicit => exact ⟨request.boundaryTenant, rfl⟩

/-! ## A token whose payload is a list -/

namespace Tokens

def listPayload : JwtSettings String where
  loads segment := if segment = "W10=" then .some .other else .none

def bearer : ResolverRequest Unit String where
  meta_ name := if name = "HTTP_AUTHORIZATION" then .some "Bearer e30.W10.sig" else .none

/-- `payload.get` of a list raises `AttributeError`. -/
theorem list_raises :
    ¬ ∀ (conf : ResolverSettings String) (jwt : JwtSettings String) (table : TenantTable Unit) (cache : TenantCache Unit)
        (clock : Int × Int) (request : ResolverRequest Unit String) (resolver : BuiltinResolver),
        IntegerKey conf ∨ UuidKey conf →
        ∃ found, answer (resolver.resolve conf jwt table clock request) cache = .ok found := by
  intro hclaim
  obtain ⟨found, hfound⟩ := hclaim Identifiers.integerKeys listPayload {} {} (0, 0) bearer .jwtClaim
    (.inl Identifiers.integerKeys_integerKey)
  have hraised :
      JWTClaimResolver.resolve Identifiers.integerKeys listPayload ({} : TenantTable Unit) bearer.toHttpRequest =
      .error (.other "AttributeError") := by
    have hpayload : JWTClaimResolver.payload listPayload bearer.toHttpRequest = .some .other := by rfl
    simp only [JWTClaimResolver.resolve, hpayload]
  rw [BuiltinResolver.resolve, answer_ofExcept, hraised] at hfound
  cases hfound

end Tokens

end Boundary
