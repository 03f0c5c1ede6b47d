/-
`boundary_provision`, and the lookups that are to find the tenant afterwards:
the caching resolvers, a Celery worker, and the management commands.

Every alias has its own tenant table. The command picks the alias of the new
row by the region it is given; a lookup leaves the alias to the router, which
knows no tenant yet. The command takes any slug; the subdomain of a host is a
label in lower case. `provisioned_found_iff` says when the two meet.

What `TenantModel(**kwargs)` makes of its arguments, the key a table assigns and
`json.loads` are the environment's: any functions. The post-provision hook may
raise; it leaves the tenant tables to the command. `slug` is the field
`BOUNDARY_SUBDOMAIN_FIELD` names, as it does by default.
-/
import Mathlib.Data.Bool.AllAny
import Boundary.HostGrammar
import Boundary.Routing
import Boundary.Scopes

namespace Boundary

open Exec

/-! ## The command -/

/-- An instance of the tenant model that has not been saved; `pk` is `None`
where the database assigns the key. -/
structure NewTenant (φ : Type) where
  pk : Option PrimaryKey
  slug : String
  fields : φ

/-- The tenant model; `κ` are the values of its keyword arguments. -/
structure TenantClass (φ κ : Type) where
  /-- `models.is_tenant_model`. -/
  isTenantModel : Bool := false
  /-- A `str` among the values. -/
  text : String → κ
  /-- `TenantModel(**kwargs)`. -/
  init : (String → Option κ) → Except Exc (NewTenant φ)
  /-- The primary key has a default, and an instance being added is inserted. -/
  pkHasDefault : Bool := false
  /-- The key a table assigns next. -/
  assign : TenantTable φ → PrimaryKey
  /-- `getattr(tenant, BOUNDARY_REGION_FIELD, None)`. -/
  region : φ → Option String
  isActive : φ → Bool

structure ProvisionOptions where
  name : String
  slug : String
  region : String := ""
  extraFields : String := "\x7b\x7d"

/-- The tenant model, and what the command leaves to Python and to others. -/
structure ProvisionEnv (φ κ : Type) where
  model : TenantClass φ κ
  /-- `RegionalRouter` is in `DATABASE_ROUTERS`. -/
  routed : Bool := true
  /-- `json.loads`, of an object; or the text of its `JSONDecodeError`. -/
  loads : String → Except String (String → Option κ)
  /-- `repr`, of a string or of `None`. -/
  repr : Option String → String
  /-- `BOUNDARY_POST_PROVISION_HOOK`: what it raises. -/
  postProvisionHook : Option (TenantRow φ → Option Exc) := .none

/-- The tenant tables of the aliases. -/
abbrev TenantTables (φ : Type) := Alias → TenantTable φ

section

variable {φ κ ν : Type} (env : ProvisionEnv φ κ) (st : Settings)

/-- The alias of a query on the tenant model. -/
def ProvisionEnv.routedTo (v : ContextVars) (tenants : TenantRef → Tenant) : Alias :=
  if env.routed then RegionalRouter.route st env.model.isTenantModel v tenants else "default"

/-- `kwargs`, updated with the extra fields. -/
def ProvisionEnv.kwargs (options : ProvisionOptions) (extra : String → Option κ) : String → Option κ :=
  let kwargs := Function.update (Function.update (fun _ => .none) "name" (.some (env.model.text options.name)))
    "slug" (.some (env.model.text options.slug))
  let kwargs :=
    if options.region ≠ "" then Function.update kwargs "region" (.some (env.model.text options.region)) else kwargs
  fun field => (extra field).or (kwargs field)

/-- `save(force_insert=forceInsert)` on a table: an instance with a key of its
own is updated where the table has it, unless it is to be inserted. -/
def TenantClass.saveTo (model : TenantClass φ κ) (forceInsert : Bool) (tenant : NewTenant φ) (table : TenantTable φ) :
    Except Exc (TenantRow φ) × TenantTable φ :=
  let row : TenantRow φ := ⟨tenant.pk.getD (model.assign table), tenant.slug, tenant.fields⟩
  if (forceInsert ∨ model.pkHasDefault ∨ tenant.pk.isNone) ∧ row.pk ∈ table.rows.map TenantRow.pk then
    (.error .integrityError, table)
  else
    match table.save row with
    | .ok table => (.ok row, table)
    | .error e => (.error e, table)

/-- `save(using=using_)`. -/
def saveUsing (using_ : Alias) (forceInsert : Bool) (tenant : NewTenant φ) :
    EStateM Exc (TenantTables φ) (TenantRow φ) :=
  if (st.databases using_).isNone then throw (.other "ConnectionDoesNotExist")
  else onCell using_ (env.model.saveTo forceInsert tenant)

/-- The row is written straight to the region's database. -/
def ProvisionEnv.regional (options : ProvisionOptions) : Bool := options.region ≠ "" && st.regions.getD [] ≠ []

/-- The new row, on the alias of its region or where the router has it. -/
def saveProvisioned (v : ContextVars) (tenants : TenantRef → Tenant) (options : ProvisionOptions)
    (tenant : NewTenant φ) : EStateM Exc (TenantTables φ) (TenantRow φ) :=
  if ProvisionEnv.regional st options then
    match requireRegion st env.repr ((tenant.pk.map PrimaryKey.str).getD "None") (env.model.region tenant.fields) with
    | .ok alias_ => saveUsing env st alias_ false tenant
    | .error _ => throw (.other ("CommandError: Region " ++ env.repr (.some options.region) ++
        " is not in BOUNDARY_REGIONS (" ++ formatList env.repr (st.regions.getD []).mergeSort ++ ")."))
  else saveUsing env st (env.routedTo st v tenants) true tenant

/-- `handle`. -/
def provision (v : ContextVars) (tenants : TenantRef → Tenant) (options : ProvisionOptions) :
    EStateM Exc (TenantTables φ) (TenantRow φ) :=
  match env.loads options.extraFields with
  | .error e => throw (.other ("CommandError: Invalid JSON in --extra-fields: " ++ e))
  | .ok extra => do
    let tenant ← ofExcept (env.model.init (env.kwargs options extra))
    let row ← saveProvisioned env st v tenants options tenant
    match env.postProvisionHook.bind (· row) with
    | .some e => throw e
    | .none => pure row

/-- The alias the command writes on. -/
def provisionedOn (v : ContextVars) (tenants : TenantRef → Tenant) (options : ProvisionOptions) : Option Alias :=
  match env.loads options.extraFields with
  | .error _ => .none
  | .ok extra =>
    match env.model.init (env.kwargs options extra) with
    | .error _ => .none
    | .ok tenant =>
      if ProvisionEnv.regional st options then env.model.region tenant.fields else .some (env.routedTo st v tenants)

/-! ## Lookups of a tenant -/

/-- `_resolve_tenant` of `boundary_run` and of `boundary_deprovision`. -/
def resolveIdentifier (conf : ResolverSettings ν) (table : TenantTable φ) (identifier : String) :
    Except Exc (TenantRow φ) :=
  match exceptIn [.doesNotExist, .valueError, .typeError] (getPk conf table (.text identifier))
      (table.getBySlug identifier) with
  | .ok row => .ok row
  | .error .doesNotExist => .error (.other ("CommandError: Tenant not found: " ++ identifier))
  | .error e => .error e.exc

/-- The tenant `_restore_tenant_context` sets. -/
def taskTenant (conf : ResolverSettings ν) (table : TenantTable φ) (tenantId : String) : Except Exc (TenantRow φ) :=
  match getPk conf table (.text tenantId) with
  | .ok row => .ok row
  | .error .doesNotExist => .error (.tenantNotFoundError
      ("Tenant " ++ tenantId ++ " no longer exists. Configure dead-letter routing for this task."))
  | .error e => .error e.exc

/-- The options of `boundary_run_all` that select tenants; `exclude` as keys. -/
structure RunAllOptions where
  region : Option String := .none
  exclude : List PrimaryKey := []

/-- `tenant_pks`, which `boundary_run_all` runs its command for. -/
def runAllPks (model : TenantClass φ κ) (options : RunAllOptions) (table : TenantTable φ) : List PrimaryKey :=
  let rows := table.rows.filter fun row => model.isActive row.fields
  let rows :=
    match options.region with
    | .none | .some "" => rows
    | .some region => rows.filter fun row => decide (model.region row.fields = Option.some region)
  (rows.filter fun row => row.pk ∉ options.exclude).map TenantRow.pk

/-! ## What is to be found -/

/-- `get_host` accepts the host, which names no port. -/
def HostAccepted (host : String) : Prop := ∀ c ∈ host.toList, c.isAlphanum ∨ c = '.' ∨ c = '-'

/-- The tenants have their hosts under the domain: one of the configured
parents, or any domain of two labels where none is configured. -/
structure Serves (conf : ResolverSettings ν) (domain : String) : Prop where
  accepted : HostAccepted domain
  labels : [] ∉ (lowered domain.toList).splitOn '.'
  parent : match conf.subdomainParentDomain with
    | .some parents => ∃ parent ∈ parents, lowered parent.toList = lowered domain.toList
    | .none => 2 ≤ ((lowered domain.toList).splitOn '.').length

/-- The tenant's host under a domain. -/
def hostOf (row : TenantRow φ) (domain : String) : String := row.slug ++ "." ++ domain

/-- Every lookup finds the tenant, in the table they all go to: the resolvers
from a request for its host under the domain, or with its key in the header or
in the session. -/
structure Found (conf : ResolverSettings ν) (model : TenantClass φ κ) (cache : TenantCache φ) (clock : Int × Int)
    (domain : String) (table : TenantTable φ) (row : TenantRow φ) : Prop where
  host : HostAccepted (hostOf row domain)
  subdomain : ∀ request : HttpRequest ν, request.host = hostOf row domain →
    answer (CachingResolver.subdomain.resolve conf table clock request) cache = .ok (.some row)
  header : ∀ request : HttpRequest ν, request.meta_ (HeaderResolver.metaKey conf) = .some row.pk.str →
    answer (CachingResolver.header.resolve conf table clock request) cache = .ok (.some row)
  held : ∃ value, conf.readKey (.session value) = .ok row.pk
  session : ∀ (request : HttpRequest ν) session value, request.session = .some session →
    session conf.sessionKey = .some value → conf.readKey (.session value) = .ok row.pk →
      answer (CachingResolver.session.resolve conf table clock request) cache = .ok (.some row)
  task : taskTenant conf table row.pk.str = .ok row
  commandByPk : resolveIdentifier conf table row.pk.str = .ok row
  commandBySlug : resolveIdentifier conf table row.slug = .ok row
  runAll : model.isActive row.fields = true → row.pk ∈ runAllPks model {} table

/-- The slug is a label of a host, in lower case. -/
def IsHostLabel (slug : String) : Prop := slug ≠ "" ∧ ∀ c ∈ slug.toList, c.isLower ∨ c.isDigit ∨ c = '-'

/-- No value a session holds for the key counts as no value. -/
def SessionKeyTruthy (conf : ResolverSettings ν) (pk : PrimaryKey) : Prop :=
  ∀ value, conf.readKey (.session value) = .ok pk → conf.truthy value = true

/-- The lookup is for this tenant: by its slug, or by its key. -/
def Lookup.IsFor (conf : ResolverSettings ν) (row : TenantRow φ) : Lookup ν → Prop
  | subdomain slug => slug = row.slug
  | header value => value = row.pk.str
  | session value => conf.readKey (.session value) = .ok row.pk

/-- No other tenant is cached for a lookup of this one. -/
def Unshadowed (conf : ResolverSettings ν) (cache : TenantCache φ) (clock : Int × Int) (row : TenantRow φ) : Prop :=
  ∀ lookup : Lookup ν, lookup.IsFor conf row → ∀ tenant ts, cache.get? (lookup.key conf) = .some (tenant, ts) →
    clock.1 - ts ≤ conf.cacheTtl → tenant = row

/-- A tenant is cached for its own slug only. -/
def SlugsCached (cache : TenantCache φ) : Prop :=
  ∀ e ∈ cache.entries, ∀ slug, e.1 = "subdomain:" ++ slug → e.2.1.slug = slug

/-- As a key, the slug is no other tenant's, and it is one or is refused in a way
the commands go on from. -/
def SlugIsNoKey (conf : ResolverSettings ν) (table : TenantTable φ) (row : TenantRow φ) : Prop :=
  match conf.readKey (.text row.slug) with
  | .ok pk => ∀ r ∈ table.rows, r.pk = pk → r.pk = row.pk
  | .error e => e ∈ [.doesNotExist, .valueError, .typeError]

/-- The text of a key is read as the key, by `uuid.UUID` and Django's
conversions, and a session can hold it. -/
structure ReadsBack (conf : ResolverSettings ν) (pk : PrimaryKey) : Prop where
  text : conf.readKey (.text pk.str) = .ok pk
  uuid : uuidKey conf pk.str = .ok pk ∨ uuidKey conf pk.str = .error .valueError
  session : ∃ value, conf.readKey (.session value) = .ok pk

end

/-! ## The command, and its row -/

section

variable {φ κ ν : Type} {env : ProvisionEnv φ κ} {st : Settings} {v : ContextVars} {tenants : TenantRef → Tenant}
  {options : ProvisionOptions} {tables tables' : TenantTables φ} {table table' : TenantTable φ} {row r : TenantRow φ}
  {conf : ResolverSettings ν} {cache : TenantCache φ} {clock : Int × Int}

theorem requireRegion_ok {repr : Option String → String} {pk : String} {region : Option String} {a : Alias}
    (h : requireRegion st repr pk region = .ok a) : region = .some a := by
  unfold requireRegion at h
  split at h
  · cases h
  · cases h
  split at h
  · cases h
  split at h
  · cases h
  · cases h
    rfl

theorem TenantClass.saveTo_ok {model : TenantClass φ κ} {forceInsert : Bool} {tenant : NewTenant φ}
    (h : model.saveTo forceInsert tenant table = (.ok row, table')) : table.save row = .ok table' := by
  unfold TenantClass.saveTo at h
  simp only at h
  split at h
  · cases h
  split at h
  · next hsave =>
    cases h
    exact hsave
  · cases h

theorem saveUsing_ok {a : Alias} {forceInsert : Bool} {tenant : NewTenant φ}
    (h : saveUsing env st a forceInsert tenant tables = .ok row tables') :
    (tables a).save row = .ok (tables' a) ∧ ∀ b, b ≠ a → tables' b = tables b := by
  unfold saveUsing at h
  split at h
  · cases h
  rw [onCell_ok_iff] at h
  exact ⟨TenantClass.saveTo_ok h.1, h.2⟩

/-- The command saves its row on one alias. -/
theorem provision_ok (h : provision env st v tenants options tables = .ok row tables') :
    ∃ a, provisionedOn env st v tenants options = .some a ∧ (tables a).save row = .ok (tables' a) ∧
      ∀ b, b ≠ a → tables' b = tables b := by
  unfold provision at h
  unfold provisionedOn
  cases hloads : env.loads options.extraFields with
  | error e =>
    rw [hloads] at h
    cases h
  | ok extra =>
    rw [hloads] at h
    obtain ⟨tenant, tables₀, hof, hrest⟩ := bind_ok_iff.mp h
    obtain ⟨hinit, rfl⟩ := ofExcept_ok_iff.mp hof
    obtain ⟨saved, tables₁, hsaved, hhook⟩ := bind_ok_iff.mp hrest
    have hdone : saved = row ∧ tables₁ = tables' := by
      cases hraises : env.postProvisionHook.bind (· saved) with
      | some e =>
        simp only [hraises] at hhook
        cases hhook
      | none =>
        simp only [hraises] at hhook
        cases hhook
        exact ⟨rfl, rfl⟩
    obtain ⟨rfl, rfl⟩ := hdone
    simp only [hinit]
    unfold saveProvisioned at hsaved
    cases hregional : ProvisionEnv.regional st options with
    | false =>
      simp only [hregional, Bool.false_eq_true, if_false] at hsaved ⊢
      exact ⟨_, rfl, saveUsing_ok hsaved⟩
    | true =>
      simp only [hregional, if_true] at hsaved ⊢
      cases hregion : requireRegion st env.repr ((tenant.pk.map PrimaryKey.str).getD "None")
          (env.model.region tenant.fields) with
      | ok a =>
        simp only [hregion] at hsaved
        exact ⟨a, requireRegion_ok hregion, saveUsing_ok hsaved⟩
      | error e =>
        simp only [hregion] at hsaved
        cases hsaved

/-- With no tenant active and no region pinned, a query goes to `default`. -/
theorem routedTo_idle (htenant : v.currentTenant = .none) (hregion : v.regionOverride = .none) :
    env.routedTo st v tenants = "default" := by
  unfold ProvisionEnv.routedTo RegionalRouter.route
  split
  · split
    · rfl
    · rfl
    · rw [hregion]
      simp only [RegionalRouter.route.routeTenant, htenant]
      split <;> rfl
  · rfl

/-! ## The host of a slug -/

theorem toLower_eq_self_iff {c : Char} : c.toLower = c ↔ c.isUpper = false := by
  unfold Char.toLower Char.isUpper
  split
  · next hupper =>
    simp only [Char.ext_iff, ge_iff_le, UInt32.le_iff_toNat_le, ← UInt32.toNat_inj, UInt32.toNat_add] at hupper ⊢
    simp at hupper ⊢
    omega
  · next hupper => simp only [hupper, decide_false]

theorem toLower_eq_dot_iff {c : Char} : c.toLower = '.' ↔ c = '.' := by
  unfold Char.toLower
  split
  · next hupper =>
    simp only [Char.ext_iff, ge_iff_le, UInt32.le_iff_toNat_le, ← UInt32.toNat_inj, UInt32.toNat_add] at hupper ⊢
    simp at hupper ⊢
    omega
  · rfl

theorem isUpper_eq_false {c : Char} (h : c.isLower ∨ c.isDigit) : c.isUpper = false := by
  unfold Char.isLower Char.isDigit at h
  unfold Char.isUpper
  simp only [UInt32.le_iff_toNat_le, Bool.and_eq_true, decide_eq_true_eq, decide_eq_false_iff_not, ge_iff_le] at h ⊢
  simp at h ⊢
  omega

theorem isAlphanum_eq (c : Char) : c.isAlphanum = (c.isUpper || c.isLower || c.isDigit) := rfl

theorem dot_mem_lowered_iff {host : List Char} : '.' ∈ lowered host ↔ '.' ∈ host := by
  simp [lowered, toLower_eq_dot_iff]

theorem lowered_eq_self_iff {host : List Char} : lowered host = host ↔ ∀ c ∈ host, c.isUpper = false := by
  simp only [← toLower_eq_self_iff]
  have hmap : lowered host = host.map id ↔ ∀ c ∈ host, c.toLower = id c := List.map_inj_left
  rwa [List.map_id] at hmap

/-- Of what `get_host` accepts, the labels in lower case are what lowering keeps
and splitting does not break. -/
theorem isHostLabel_iff {slug : String} (haccepted : HostAccepted slug) :
    IsHostLabel slug ↔ slug.toList ≠ [] ∧ '.' ∉ slug.toList ∧ lowered slug.toList = slug.toList := by
  rw [lowered_eq_self_iff, IsHostLabel, Ne, Ne, String.toList_eq_nil_iff]
  refine and_congr_right fun _ => ?_
  constructor
  · intro hlabel
    refine ⟨fun hdot => absurd (hlabel _ hdot) (by decide), fun c hc => ?_⟩
    rcases hlabel c hc with hlower | hdigit | rfl
    · exact isUpper_eq_false (.inl hlower)
    · exact isUpper_eq_false (.inr hdigit)
    · rfl
  · rintro ⟨hdot, hlowered⟩ c hc
    rcases haccepted c hc with halphanum | rfl | rfl
    · simp only [isAlphanum_eq, hlowered c hc, Bool.false_or, Bool.or_eq_true] at halphanum
      exact halphanum.elim .inl fun hdigit => .inr (.inl hdigit)
    · exact absurd hc hdot
    · exact .inr (.inr rfl)

theorem IsHostLabel.accepted {slug : String} (h : IsHostLabel slug) : HostAccepted slug := by
  intro c hc
  rcases h.2 c hc with hlower | hdigit | rfl
  · exact .inl (by simp [isAlphanum_eq, hlower])
  · exact .inl (by simp [isAlphanum_eq, hdigit])
  · exact .inr (.inr rfl)

theorem toList_hostOf (row : TenantRow φ) (domain : String) :
    (hostOf row domain).toList = row.slug.toList ++ '.' :: domain.toList := by
  simp [hostOf]

theorem hostAccepted_hostOf_iff {domain : String} (hdomain : HostAccepted domain) :
    HostAccepted (hostOf row domain) ↔ HostAccepted row.slug := by
  unfold HostAccepted at *
  rw [toList_hostOf]
  constructor
  · exact fun h c hc => h c (List.mem_append_left _ hc)
  · intro h c hc
    rcases List.mem_append.mp hc with hc | hc
    · exact h c hc
    · rcases List.mem_cons.mp hc with rfl | hc
      · exact .inr (.inl rfl)
      · exact hdomain c hc

/-- The resolver only lowers a host under a domain that is served. -/
theorem normal_hostOf {domain : String} (hdomain : Serves conf domain) (haccepted : HostAccepted (hostOf row domain)) :
    lowered ((withoutPort (hostOf row domain)).rdropWhile (· = '.')) =
      lowered row.slug.toList ++ '.' :: lowered domain.toList := by
  have hport : withoutPort (hostOf row domain) = (hostOf row domain).toList := by
    refine List.takeWhile_eq_self_iff.mpr fun c hc => ?_
    simp only [decide_eq_true_eq]
    rintro rfl
    exact absurd (haccepted _ hc) (by decide)
  rw [hport, toList_hostOf]
  have hlabels := hdomain.labels
  rcases List.eq_nil_or_concat' domain.toList with hempty | ⟨init, c, hconcat⟩
  · rw [hempty] at hlabels
    exact absurd (List.mem_singleton_self _) hlabels
  · have hlast : c ≠ '.' := by
      rintro rfl
      rw [hconcat, lowered, List.map_append] at hlabels
      exact hlabels (nil_mem_splitOn_concat _ _)
    have hkept : (row.slug.toList ++ '.' :: domain.toList).rdropWhile (· = '.') =
        row.slug.toList ++ '.' :: domain.toList := by
      rw [hconcat, ← List.cons_append, ← List.append_assoc, List.rdropWhile_concat_neg _ _ _ (by simpa using hlast)]
    rw [hkept]
    simp [lowered]

theorem splitOn_label {label rest : List Char} (hdot : '.' ∉ label) :
    (label ++ '.' :: rest).splitOn '.' = label :: rest.splitOn '.' := splitOn_eq_cons_iff.mpr ⟨hdot, rfl⟩

/-- Of the tenant's host, the slug is looked up when it is a label in lower
case, and only then. -/
theorem lookup_hostOf_iff {domain : String} {request : HttpRequest ν} (hdomain : Serves conf domain)
    (haccepted : HostAccepted (hostOf row domain)) (hhost : request.host = hostOf row domain) :
    CachingResolver.subdomain.lookup conf request = .some (.subdomain row.slug) ↔ IsHostLabel row.slug := by
  rw [lookup_eq_some_iff, hhost, normal_hostOf hdomain haccepted,
    isHostLabel_iff ((hostAccepted_hostOf_iff hdomain.accepted).mp haccepted)]
  unfold HostNames
  constructor
  · rintro ⟨hlabels, hnames⟩
    have hlabel : '.' ∉ row.slug.toList ∧ lowered row.slug.toList = row.slug.toList := by
      cases hparents : conf.subdomainParentDomain with
      | some parents =>
        rw [hparents] at hnames
        obtain ⟨hdot, parent, -, hparent⟩ := hnames
        exact ⟨hdot, (List.append_inj hparent (by simp [lowered])).1⟩
      | none =>
        rw [hparents] at hnames
        have hfirst := hnames.2
        have hdot : '.' ∉ row.slug.toList := not_mem_of_splitOn '.' _ _ (List.mem_of_mem_head? hfirst)
        rw [splitOn_label (mt dot_mem_lowered_iff.mp hdot), List.head?_cons, Option.some.injEq] at hfirst
        exact ⟨hdot, hfirst⟩
    refine ⟨fun hempty => ?_, hlabel⟩
    rw [hlabel.2, hempty, splitOn_label List.not_mem_nil] at hlabels
    exact hlabels List.mem_cons_self
  · rintro ⟨hne, hdot, hlowered⟩
    rw [hlowered, splitOn_label hdot]
    refine ⟨?_, ?_⟩
    · rw [List.mem_cons, not_or]
      exact ⟨Ne.symm hne, hdomain.labels⟩
    · have hparent := hdomain.parent
      cases hparents : conf.subdomainParentDomain with
      | some parents =>
        rw [hparents] at hparent
        obtain ⟨parent, hmem, hsame⟩ := hparent
        exact ⟨hdot, parent, hmem, by rw [hsame]⟩
      | none =>
        rw [hparents] at hparent
        exact ⟨by simpa using hparent, rfl⟩

/-! ## The cached slugs -/

theorem SlugsCached.empty : SlugsCached ({} : TenantCache φ) := fun _ he => absurd he List.not_mem_nil

theorem slug_of_load {slug : String} (h : (Lookup.subdomain slug : Lookup ν).load conf table = .ok (.some row)) :
    row.slug = slug := by
  rcases exceptIn_ok_iff.mp h with h | ⟨_, _, _, h⟩
  · exact (TenantTable.getBySlug_eq_ok_iff.mp (some_map_ok_iff.mp h)).2
  · cases h

/-- Every operation of a history of writes and resolves keeps the slugs that
are cached. -/
theorem SlugsCached.step {c : Resolution φ} {op : Operation φ ν} (h : SlugsCached c.cache) :
    SlugsCached (c.step conf op).cache := by
  have hinvalidate (pk : PrimaryKey) (pkEqual : Bool) : SlugsCached (Resolution.invalidate c.cache pk pkEqual) := by
    intro e he
    unfold Resolution.invalidate at he
    split at he
    · exact h e (mem_cacheInvalidate.mp he).1
    · exact h e he
  cases op with
  | save row pkEqual =>
    unfold Resolution.step Resolution.save
    simp only
    split
    · exact hinvalidate _ _
    · exact h
  | delete pk pkEqual => exact hinvalidate pk pkEqual
  | resolve resolver request clock =>
    unfold Resolution.step CachingResolver.resolve
    simp only
    cases resolver.lookup conf request with
    | none => exact h
    | some lookup =>
      intro e he slug hslug
      rcases mem_after_resolve he with he | ⟨hkey, hload⟩
      · exact h e he slug hslug
      · have hsame : lookup.key conf = (Lookup.subdomain slug).key conf := hkey.symm.trans hslug
        rcases Lookup.eq_of_key_eq hsame with rfl | ⟨_, _, _, hsession, _⟩
        · exact slug_of_load hload
        · cases hsession

/-- In every history that starts with an empty cache, a tenant is cached for its
own slug only. -/
theorem slugsCached_of_run {allowed : Resolution φ → Operation φ ν → Prop} {c : Resolution φ}
    (hrun : Runs.Reaches (Resolution.step conf) allowed ⟨table, {}⟩ c) : SlugsCached c.cache :=
  hrun.invariant (fun c => SlugsCached c.cache) .empty fun _ _ h _ => h.step

/-- What is answered for a slug has it. -/
theorem slug_of_answer {slug : String} (hsize : 1 ≤ conf.cacheSize) (hcached : SlugsCached cache)
    (h : answer ((Lookup.subdomain slug).resolve conf table clock) cache = .ok (.some row)) : row.slug = slug := by
  obtain ⟨found, cache', hget, hfound, -⟩ := cacheGet_spec conf clock.1 ((Lookup.subdomain slug).key conf) cache
  cases found with
  | some tenant =>
    have hanswer : answer ((Lookup.subdomain slug).resolve conf table clock) cache = .ok (.some tenant) := by
      simp only [answer, Lookup.resolve, bind_run, hget]
      rfl
    cases hanswer.symm.trans h
    obtain ⟨ts, hmem⟩ := hfound row rfl
    exact hcached _ hmem slug rfl
  | none =>
    have hanswer : answer ((Lookup.subdomain slug).resolve conf table clock) cache =
        answer ((Lookup.subdomain slug).store conf clock.2 ((Lookup.subdomain slug).load conf table)) cache' := by
      simp only [answer, Lookup.resolve, bind_run, hget]
    rw [hanswer, answer_store hsize] at h
    cases hload : (Lookup.subdomain slug : Lookup ν).load conf table with
    | error e =>
      rw [hload] at h
      cases h
    | ok loaded =>
      rw [hload] at h
      cases h
      exact slug_of_load hload

/-! ## What the resolvers look up -/

theorem lookup_of_answer {resolver : CachingResolver} {request : HttpRequest ν}
    (h : answer (resolver.resolve conf table clock request) cache = .ok (.some row)) :
    ∃ lookup, resolver.lookup conf request = .some lookup ∧
      answer (lookup.resolve conf table clock) cache = .ok (.some row) := by
  unfold CachingResolver.resolve at h
  cases hlookup : resolver.lookup conf request with
  | none =>
    rw [hlookup] at h
    cases h
  | some lookup =>
    rw [hlookup] at h
    exact ⟨lookup, rfl, h⟩

theorem subdomain_of_lookup {request : HttpRequest ν} {lookup : Lookup ν}
    (h : CachingResolver.subdomain.lookup conf request = .some lookup) : ∃ slug, lookup = .subdomain slug := by
  rw [CachingResolver.lookup, SubdomainResolver.lookup, Option.map_eq_some_iff] at h
  obtain ⟨slug, -, rfl⟩ := h
  exact ⟨slug, rfl⟩

theorem lookup_header {request : HttpRequest ν}
    (h : request.meta_ (HeaderResolver.metaKey conf) = .some row.pk.str) :
    CachingResolver.header.lookup conf request = .some (.header row.pk.str) := by
  simp [CachingResolver.lookup, HeaderResolver.lookup, h, PrimaryKey.str_ne_empty]

theorem lookup_session {request : HttpRequest ν} {session : String → Option ν} {value : ν}
    (hsession : request.session = .some session) (hvalue : session conf.sessionKey = .some value) :
    CachingResolver.session.lookup conf request = if conf.truthy value then .some (.session value) else .none := by
  simp only [CachingResolver.lookup, SessionResolver.lookup, hsession, hvalue, Option.bind_some, Option.filter_some]
  split <;> rfl

/-! ## Lookups in a table that has the row -/

theorem mem_of_resolveIdentifier {identifier : String} (h : resolveIdentifier conf table identifier = .ok row) :
    row ∈ table.rows := by
  unfold resolveIdentifier at h
  split at h
  · next found hfound =>
    cases h
    rcases exceptIn_ok_iff.mp hfound with hpk | ⟨_, _, _, hslug⟩
    · obtain ⟨_, _, hmem, _⟩ := getPk_ok_iff.mp hpk
      exact hmem
    · exact (TenantTable.getBySlug_eq_ok_iff.mp hslug).1
  · cases h
  · cases h

theorem getPk_of_mem {value : PkValue ν} (hmem : row ∈ table.rows) (hread : conf.readKey value = .ok row.pk) :
    getPk conf table value = .ok row :=
  getPk_ok_iff.mpr ⟨row.pk, hread, hmem, rfl⟩

/-- A lookup for a tenant of the table loads it. -/
theorem Lookup.IsFor.load {lookup : Lookup ν} (h : lookup.IsFor conf row) (hmem : row ∈ table.rows)
    (hreads : ReadsBack conf row.pk) : lookup.load conf table = .ok (.some row) := by
  cases lookup with
  | subdomain slug =>
    have hslug : table.getBySlug slug = .ok row := TenantTable.getBySlug_eq_ok_iff.mpr ⟨hmem, h.symm⟩
    exact exceptIn_found hslug
  | session value =>
    exact exceptIn_found (getPk_of_mem hmem h)
  | header value =>
    have hvalue : value = row.pk.str := h
    subst hvalue
    simp only [Lookup.load, getUuid_eq]
    rcases hreads.uuid with huuid | huuid
    · rw [huuid]
      exact exceptIn_found (keyed_ok_iff.mpr ⟨rfl, hmem⟩)
    · rw [huuid]
      refine exceptIn_ok_iff.mpr (.inr ⟨.valueError, List.mem_cons_self, rfl, ?_⟩)
      exact exceptIn_found (getPk_of_mem hmem hreads.text)

/-- Of a table with the row, a lookup answers with it unless another tenant is
cached. -/
theorem answer_of_mem {lookup : Lookup ν} (hsize : 1 ≤ conf.cacheSize)
    (hload : lookup.load conf table = .ok (.some row)) :
    answer (lookup.resolve conf table clock) cache = .ok (.some row) ↔
      ∀ tenant ts, cache.get? (lookup.key conf) = .some (tenant, ts) → clock.1 - ts ≤ conf.cacheTtl → tenant = row := by
  cases hget : cache.get? (lookup.key conf) with
  | none =>
    rw [answer_resolve hsize (fun tenant ts hcached => by rw [hget] at hcached; cases hcached), hload]
    simp [Except.mapError]
  | some entry =>
    obtain ⟨tenant, ts⟩ := entry
    by_cases hfresh : clock.1 - ts ≤ conf.cacheTtl
    · have hcached : answer (lookup.resolve conf table clock) cache = .ok (.some tenant) := by
        simp only [answer, Lookup.resolve, bind_run, cacheGet_fresh hget hfresh]
        rfl
      rw [hcached]
      constructor
      · intro hrow tenant' ts' hentry _
        cases hentry
        cases hrow
        rfl
      · intro hrow
        rw [hrow tenant ts rfl hfresh]
    · have hstale : cacheGet conf clock.1 (lookup.key conf) cache = .ok .none (cache.erase (lookup.key conf)) := by
        unfold cacheGet
        rw [hget]
        exact if_pos (by omega)
      have hanswer : answer (lookup.resolve conf table clock) cache =
          answer (lookup.store conf clock.2 (lookup.load conf table)) (cache.erase (lookup.key conf)) := by
        simp only [answer, Lookup.resolve, bind_run, hstale]
      rw [hanswer, answer_store hsize, hload]
      simp only [Except.mapError, true_iff]
      intro tenant' ts' hentry hfresh'
      cases hentry
      exact absurd hfresh' hfresh

/-- The lookup by slug tries it as a key first. -/
theorem resolveIdentifier_slug (hmem : row ∈ table.rows) :
    resolveIdentifier conf table row.slug = .ok row ↔ SlugIsNoKey conf table row := by
  have hslug : table.getBySlug row.slug = .ok row := TenantTable.getBySlug_eq_ok_iff.mpr ⟨hmem, rfl⟩
  unfold resolveIdentifier SlugIsNoKey getPk
  rw [hslug]
  cases conf.readKey (.text row.slug) with
  | error e =>
    have hbind : (Except.error e >>= table.getByPk) = .error e := rfl
    rw [hbind]
    by_cases he : e ∈ [LookupError.doesNotExist, .valueError, .typeError]
    · simp [exceptIn, he]
    · simp only [exceptIn, if_neg he]
      cases e <;> simp at he ⊢
  | ok pk =>
    have hbind : (Except.ok pk >>= table.getByPk) = table.getByPk pk := rfl
    rw [hbind]
    cases hfound : table.getByPk pk with
    | error e =>
      obtain rfl := TenantTable.getByPk_error hfound
      have hnone := TenantTable.getByPk_eq_error_iff.mp hfound
      simp only [exceptIn, List.mem_cons, true_or, if_true, true_iff]
      exact fun r hr hpk => absurd hpk (hnone r hr)
    | ok found =>
      obtain ⟨hin, hpk⟩ := TenantTable.getByPk_eq_ok_iff.mp hfound
      simp only [exceptIn, Except.ok.injEq]
      constructor
      · rintro rfl r _ hr
        exact hr.trans hpk.symm
      · intro hsame
        exact List.inj_on_of_nodup_map table.pks hin hmem (hsame found hin hpk)

/-- A tenant that is found by its host has a label for its slug. -/
theorem isHostLabel_of_found {model : TenantClass φ κ} {domain : String} (hsize : 1 ≤ conf.cacheSize)
    (hcached : SlugsCached cache) (hdomain : Serves conf domain)
    (h : Found conf model cache clock domain table row) :
    IsHostLabel row.slug ∧ answer ((Lookup.subdomain row.slug).resolve conf table clock) cache = .ok (.some row) := by
  obtain ⟨request, hhost⟩ : ∃ request : HttpRequest ν, request.host = hostOf row domain :=
    ⟨{ host := hostOf row domain }, rfl⟩
  obtain ⟨lookup, hlookup, hanswer⟩ := lookup_of_answer (h.subdomain request hhost)
  obtain ⟨slug, rfl⟩ := subdomain_of_lookup hlookup
  obtain rfl := slug_of_answer hsize hcached hanswer
  exact ⟨(lookup_hostOf_iff hdomain h.host hhost).mp hlookup, hanswer⟩

theorem header_of_found {model : TenantClass φ κ} {domain : String}
    (h : Found conf model cache clock domain table row) :
    answer ((Lookup.header row.pk.str).resolve conf table clock) cache = .ok (.some row) := by
  obtain ⟨lookup, hlookup, hanswer⟩ := lookup_of_answer (h.header { meta_ := fun _ => .some row.pk.str } rfl)
  rw [lookup_header rfl] at hlookup
  cases hlookup
  exact hanswer

theorem truthy_of_found {model : TenantClass φ κ} {domain : String} {value : ν}
    (h : Found conf model cache clock domain table row) (hread : conf.readKey (.session value) = .ok row.pk) :
    conf.truthy value = true ∧ answer ((Lookup.session value).resolve conf table clock) cache = .ok (.some row) := by
  have hholds : (fun _ => .some value : String → Option ν) conf.sessionKey = .some value := rfl
  obtain ⟨lookup, hlookup, hanswer⟩ :=
    lookup_of_answer (h.session { session := .some fun _ => .some value } _ value rfl hholds hread)
  rw [lookup_session rfl hholds] at hlookup
  split at hlookup
  · next htruthy =>
    cases hlookup
    exact ⟨htruthy, hanswer⟩
  · cases hlookup

/-- The row is in the table: then every lookup finds it, when its slug and its
key can be asked for, but for another tenant in the cache or behind its slug. -/
theorem found_iff_of_mem {model : TenantClass φ κ} {domain : String} (hsize : 1 ≤ conf.cacheSize)
    (hcached : SlugsCached cache) (hdomain : Serves conf domain) (hreads : ReadsBack conf row.pk)
    (hmem : row ∈ table.rows) :
    Found conf model cache clock domain table row ↔
      IsHostLabel row.slug ∧ SessionKeyTruthy conf row.pk ∧ Unshadowed conf cache clock row ∧
        SlugIsNoKey conf table row := by
  have hanswer {lookup : Lookup ν} (hfor : lookup.IsFor conf row) :
      answer (lookup.resolve conf table clock) cache = .ok (.some row) ↔ ∀ tenant ts,
        cache.get? (lookup.key conf) = .some (tenant, ts) → clock.1 - ts ≤ conf.cacheTtl → tenant = row :=
    answer_of_mem hsize (hfor.load hmem hreads)
  constructor
  · intro h
    obtain ⟨hlabel, hslug⟩ := isHostLabel_of_found hsize hcached hdomain h
    refine ⟨hlabel, fun value hread => (truthy_of_found h hread).1, fun lookup hfor => ?_,
      (resolveIdentifier_slug hmem).mp h.commandBySlug⟩
    rw [← hanswer hfor]
    cases lookup with
    | subdomain slug =>
      obtain rfl : slug = row.slug := hfor
      exact hslug
    | header value =>
      obtain rfl : value = row.pk.str := hfor
      exact header_of_found h
    | session value => exact (truthy_of_found h hfor).2
  · rintro ⟨hlabel, htruthy, hunshadowed, hslug⟩
    have hfound {lookup : Lookup ν} (hfor : lookup.IsFor conf row) :
        answer (lookup.resolve conf table clock) cache = .ok (.some row) :=
      (hanswer hfor).mpr (hunshadowed lookup hfor)
    have haccepted := (hostAccepted_hostOf_iff hdomain.accepted).mpr hlabel.accepted
    have hpk := getPk_of_mem hmem hreads.text
    refine ⟨haccepted, fun request hhost => ?_, fun request hheader => ?_, hreads.session,
      fun request session value hsession hvalue hread => ?_, ?_, ?_, (resolveIdentifier_slug hmem).mpr hslug,
      fun hactive => ?_⟩
    · have hfor : (Lookup.subdomain row.slug : Lookup ν).IsFor conf row := rfl
      rw [CachingResolver.resolve, (lookup_hostOf_iff hdomain haccepted hhost).mpr hlabel]
      exact hfound hfor
    · have hfor : (Lookup.header row.pk.str : Lookup ν).IsFor conf row := rfl
      rw [CachingResolver.resolve, lookup_header hheader]
      exact hfound hfor
    · have hfor : (Lookup.session value).IsFor conf row := hread
      rw [CachingResolver.resolve, lookup_session hsession hvalue, if_pos (htruthy value hread)]
      exact hfound hfor
    · unfold taskTenant
      rw [hpk]
    · unfold resolveIdentifier
      rw [hpk]
      rfl
    · have hkept : row ∈ (table.rows.filter fun row => model.isActive row.fields).filter
          fun row => row.pk ∉ ([] : List PrimaryKey) := by
        simp [hmem, hactive]
      exact List.mem_map_of_mem hkept

/-- Another table's row shadows the slug no more than before. -/
theorem slugIsNoKey_congr (h : ∀ r, r.pk ≠ row.pk → (r ∈ table'.rows ↔ r ∈ table.rows)) :
    SlugIsNoKey conf table' row ↔ SlugIsNoKey conf table row := by
  unfold SlugIsNoKey
  cases conf.readKey (.text row.slug) with
  | error e => rfl
  | ok pk =>
    constructor
    · intro hsame r hr hpk
      by_contra hne
      exact hne (hsame r ((h r hne).mpr hr) hpk)
    · intro hsame r hr hpk
      by_contra hne
      exact hne (hsame r ((h r hne).mp hr) hpk)

/-- A provisioned tenant is found by every lookup exactly when it was written
where the lookups go, or was there already; its slug is a label of a host in
lower case; no session's value for its key counts as none; no other tenant is
cached for it; and its slug does not pass for a key. -/
theorem provisioned_found_iff {domain : String} (v' : ContextVars) (tenants' : TenantRef → Tenant)
    (hsize : 1 ≤ conf.cacheSize) (hcached : SlugsCached cache) (hdomain : Serves conf domain)
    (hreads : ReadsBack conf row.pk) (hok : provision env st v tenants options tables = .ok row tables') :
    Found conf env.model cache clock domain (tables' (env.routedTo st v' tenants')) row ↔
      (provisionedOn env st v tenants options = .some (env.routedTo st v' tenants') ∨
        row ∈ (tables (env.routedTo st v' tenants')).rows) ∧
      IsHostLabel row.slug ∧ SessionKeyTruthy conf row.pk ∧ Unshadowed conf cache clock row ∧
        SlugIsNoKey conf (tables (env.routedTo st v' tenants')) row := by
  obtain ⟨a, hwritten, hsave, helsewhere⟩ := provision_ok hok
  rw [hwritten, Option.some.injEq]
  by_cases ha : a = env.routedTo st v' tenants'
  · rw [← ha]
    have hmem : row ∈ (tables' a).rows := (TenantTable.mem_save hsave).mpr (.inl rfl)
    have hothers : ∀ r, r.pk ≠ row.pk → (r ∈ (tables' a).rows ↔ r ∈ (tables a).rows) := fun r hne => by
      rw [TenantTable.mem_save hsave]
      constructor
      · rintro (rfl | ⟨hr, -⟩)
        · exact absurd rfl hne
        · exact hr
      · exact fun hr => .inr ⟨hr, hne⟩
    rw [found_iff_of_mem hsize hcached hdomain hreads hmem, slugIsNoKey_congr hothers]
    simp
  · rw [helsewhere _ (Ne.symm ha)]
    by_cases hmem : row ∈ (tables (env.routedTo st v' tenants')).rows
    · rw [found_iff_of_mem hsize hcached hdomain hreads hmem]
      simp [hmem]
    · simp only [ha, hmem, or_self, false_and, iff_false]
      exact fun h => hmem (mem_of_resolveIdentifier h.commandByPk)

/-- The worker sets the tenant it finds. -/
theorem restoreTenantContext_found {ref : TenantRow φ → TenantRef} {headers : Headers} {tenantId : String}
    (hheader : headers headerTenantId = .some tenantId) (hne : tenantId ≠ "")
    (hfound : taskTenant conf table tenantId = .ok row) :
    restoreTenantContext st (fun tenantId => (taskTenant conf table tenantId).toOption.map ref) headers = (do
      query st false
      let token ← TenantContext.set st (.some (ref row)) "default"
      pure (.some token)) := by
  unfold restoreTenantContext
  simp only [hheader, if_neg hne, hfound, Except.toOption, Option.map_some]

end

/-! ## A tenant provisioned in a region -/

namespace TwoRegions

/-- The region is kept in a field of its own; keys are numbered from 1. -/
def organisation : TenantClass String String where
  text value := value
  init kwargs := .ok ⟨.none, (kwargs "slug").getD "", (kwargs "region").getD ""⟩
  assign table := .int (table.rows.length + 1)
  region fields := .some fields
  isActive _ := true

def provisioning : ProvisionEnv String String where
  model := organisation
  loads _ := .ok fun _ => .none
  repr value := value.getD "None"

def deli : ProvisionOptions where
  name := "Deli"
  slug := "deli"

def noTenants : TenantTables String := fun _ => {}

/-- With no parent domain configured, tenants have their hosts under this one. -/
theorem serves_example : Serves OneDigit.conf "example.com" where
  accepted := List.all_iff_forall_prop.mp rfl
  labels := by decide
  parent := show 2 ≤ ((lowered "example.com".toList).splitOn '.').length by decide

/-- Without a region the row is on `default`, and found. -/
theorem provisioned_found_iff_deli : ∃ row stored,
    provision provisioning settings {} tenants deli noTenants = .ok row stored ∧
      (Found OneDigit.conf organisation {} (0, 0) "example.com" (stored "default") row ↔
        (provisionedOn provisioning settings {} tenants deli = .some "default" ∨ row ∈ (noTenants "default").rows) ∧
        IsHostLabel row.slug ∧ SessionKeyTruthy OneDigit.conf row.pk ∧ Unshadowed OneDigit.conf {} (0, 0) row ∧
          SlugIsNoKey OneDigit.conf (noTenants "default") row) ∧
      Found OneDigit.conf organisation {} (0, 0) "example.com" (stored "default") row := by
  have hok : provision provisioning settings {} tenants deli noTenants =
      .ok ⟨.int 1, "deli", ""⟩ _ := rfl
  have hreads : ReadsBack OneDigit.conf (.int 1) := ⟨rfl, .inr rfl, "1", rfl⟩
  have hlabel : IsHostLabel "deli" := ⟨nofun, List.all_iff_forall_prop.mp rfl⟩
  have htruthy : SessionKeyTruthy OneDigit.conf (.int 1) := by
    intro value hread
    refine decide_eq_true fun hempty => ?_
    subst hempty
    cases hread
  have hslug : SlugIsNoKey OneDigit.conf (noTenants "default") ⟨.int 1, "deli", ""⟩ :=
    List.mem_cons_of_mem _ List.mem_cons_self
  refine ⟨_, _, hok, provisioned_found_iff {} tenants (by decide) .empty serves_example hreads hok, ?_⟩
  refine (provisioned_found_iff {} tenants (by decide) .empty serves_example hreads hok).mpr
    ⟨.inl rfl, hlabel, htruthy, fun _ _ _ _ hget => ?_, hslug⟩
  cases hget

/-- In a region it is there, and no lookup finds it. -/
theorem regional_not_found : ∃ row stored,
    provision provisioning settings {} tenants { deli with region := "eu" } noTenants = .ok row stored ∧
      row ∈ (stored "eu").rows ∧
      ¬ Found OneDigit.conf organisation {} (0, 0) "example.com"
        (stored (provisioning.routedTo settings {} tenants)) row := by
  have hok : provision provisioning settings {} tenants { deli with region := "eu" } noTenants =
      .ok ⟨.int 1, "deli", "eu"⟩ _ := rfl
  refine ⟨_, _, hok, List.mem_singleton_self _, fun hfound => ?_⟩
  exact absurd (mem_of_resolveIdentifier hfound.commandByPk) List.not_mem_nil

end TwoRegions

end Boundary
