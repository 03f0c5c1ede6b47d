/-
`boundary.checks`: the configuration and the database, as the startup check
reads them, and what it reports.

The database does not change while the check runs. What a query raises, what a
dotted path imports and what an exception prints are parameters.
-/
import Boundary.AdoptionChecks
import Boundary.RunAll

namespace Boundary

open Exec

/-! ## Messages -/

inductive Level where
  | warning
  | error
deriving DecidableEq

/-- `django.core.checks.CheckMessage`. -/
structure CheckMessage where
  level : Level
  msg : String
  hint : Option String
  id : String
deriving DecidableEq

def CheckError.toMessage (e : CheckError) : CheckMessage := ⟨.error, e.msg, .some e.hint, e.id⟩

/-! ## What the check reads -/

def importError : Exc := .other "ImportError"
def attributeError : Exc := .other "AttributeError"
def lookupError : Exc := .other "LookupError"
def valueError : Exc := .other "ValueError"
/-- What `issubclass` raises of what is no class. -/
def notAClass : Exc := .other "TypeError: issubclass() arg 1 must be a class"
def improperlyConfigured : Exc := .other "ImproperlyConfigured"
def interfaceError : Exc := .other "InterfaceError"

/-- What a dotted path names: a class, by the names of its `__mro__`, or
another object. -/
inductive Imported where
  | cls (mro : List String)
  | object
deriving DecidableEq

/-- `isinstance(x, type) and issubclass(x, name)`. -/
def Imported.subclassOf (name : String) : Imported → Bool
  | cls mro => name ∈ mro
  | object => false

/-- An entry of `DATABASE_ROUTERS`: a dotted path, or a router of a class. -/
inductive RouterEntry where
  | path (dotted : String)
  | instance_ (mro : List String)

/-- `django.conf.settings`, as far as the check reads it. -/
structure CheckSettings where
  debug : Bool := false
  boundaryTenantModel : Option String := .none
  icvTenantModel : Option String := .none
  resolvers : List String := ["boundary.resolvers.SubdomainResolver"]
  middleware : List String := []
  strictMode : Bool := true
  setDbSessionVar : Bool := true
  installedApps : List String := []
  /-- The keys of `BOUNDARY_REGIONS`. -/
  regions : Option (List String) := .none
  databaseRouters : List RouterEntry := []
  /-- `BOUNDARY_SUBDOMAIN_PARENT_DOMAIN` is true in a condition. -/
  subdomainParentDomain : Bool := false
  tenantApps : List String := []
  adoptExclude : List String := []

structure CheckEnv (δ : Type) extends Server δ where
  settings : CheckSettings
  /-- `import_string`. -/
  importString : String → Except Exc Imported
  /-- The live registry, auto-created models included. -/
  apps : Apps
  /-- `apps.get_models()`. -/
  installed : List AppModel
  /-- `boundary.models.has_tenant_column`. -/
  hasTenantColumn : AppModel → Bool
  /-- The database type that the default connection gives a model's primary key. -/
  pkDbType : AppModel → String
  /-- `connection.vendor`, of the default connection. -/
  vendor : Vendor
  catalogue : Catalogue δ
  /-- What the probe of `pg_class` for a table raises, or its cursor. -/
  probeFails : String → Option Exc := fun _ => .none
  /-- What a query of `_check_one_adopted_table` raises. -/
  adoptedFails : String → Option Exc := fun _ => .none
  /-- `SELECT rolsuper, rolbypassrls FROM pg_roles WHERE rolname = current_user`. -/
  role : Except Exc (Option (Bool × Bool))
  /-- `str(exc)`. -/
  str : Exc → String

/-- `_CONNECTION_UNAVAILABLE_ERRORS`. -/
def connectionUnavailable (e : Exc) : Bool := e ∈ [.operationalError, interfaceError]

/-- `a or b`, of settings that hold a text. -/
def orSetting (a b : Option String) : Option String :=
  match a with
  | .none | .some "" => b.filter (· ≠ "")
  | .some text => .some text

/-- `BOUNDARY_TENANT_MODEL`, or its fallback. -/
def CheckSettings.tenantModelString (s : CheckSettings) : Option String :=
  orSetting s.boundaryTenantModel s.icvTenantModel

/-- `apps.get_model("app_label.ModelName")`. -/
def Apps.getModelNamed (apps : Apps) (dotted : String) : Except Exc AppModel :=
  match dotted.toList.splitOn '.' with
  | [appLabel, name] =>
    match apps.getModel (String.ofList appLabel) (String.ofList name) with
    | .none => .error lookupError
    | .some m => .ok m
  | _ => .error valueError

section

variable {δ : Type} (env : CheckEnv δ)

/-- `get_tenant_model`. -/
def CheckEnv.getTenantModel : Except Exc AppModel :=
  match env.settings.tenantModelString with
  | .none => .error improperlyConfigured
  | .some dotted => env.apps.getModelNamed dotted

/-- `import_string`, where an `ImportError` is caught. -/
def CheckEnv.imported? (path : String) : Except Exc (Option Imported) :=
  match env.importString path with
  | .ok x => .ok (.some x)
  | .error e => if e = importError then .ok .none else .error e

/-! ## The settings -/

/-- `_check_tenant_model`. -/
def checkTenantModel : Except Exc (List CheckMessage) :=
  match env.settings.tenantModelString with
  | .none => .ok [⟨.error, "Neither BOUNDARY_TENANT_MODEL nor ICV_TENANT_MODEL is set.",
      .some ("Add BOUNDARY_TENANT_MODEL = 'app_label.ModelName' to settings, or " ++
        "ICV_TENANT_MODEL = 'app_label.ModelName' if another ecosystem package " ++
        "(e.g. icv-identity) already sets it (ADR-025 T2)."), "boundary.E001"⟩]
  | .some dotted =>
    let sourceSetting :=
      if (env.settings.boundaryTenantModel.filter (· ≠ "")).isSome then "BOUNDARY_TENANT_MODEL" else "ICV_TENANT_MODEL"
    match env.apps.getModelNamed dotted with
    | .ok _ => .ok []
    | .error e =>
      if e = lookupError then
        .ok [⟨.error, sourceSetting ++ " = '" ++ dotted ++ "' does not refer to an installed model.",
          .some "Check the app_label.ModelName format and ensure the app is in INSTALLED_APPS.", "boundary.E001"⟩]
      else .error e

/-- `_check_resolvers`. -/
def checkResolvers : Except Exc (List CheckMessage) :=
  extendEach (fun path => do
    match ← env.imported? path with
    | .some _ => return []
    | .none =>
      return [⟨.error, "Resolver class '" ++ path ++ "' cannot be imported.",
        .some "Check the dotted path in BOUNDARY_RESOLVERS.", "boundary.E003"⟩]) env.settings.resolvers

def tenantMiddleware : String := "boundary.middleware.TenantMiddleware"

/-- `_EXTERNAL_TENANT_CONTEXT_MIDDLEWARE`. -/
def externalTenantContextMiddleware : List String :=
  ["icv_tenants.middleware.TenantContextMiddleware", "icv_identity.tenants.middleware.TenantContextMiddleware"]

/-- `entry.endswith(path)`. -/
def endsWith (entry path : String) : Bool := path.toList <:+ entry.toList

/-- `_has_external_tenant_context_middleware`. -/
def hasExternalTenantContextMiddleware (middleware : List String) : Bool :=
  middleware.any fun entry => externalTenantContextMiddleware.any (endsWith entry)

/-- The loop of `_check_middleware`: an entry is `TenantMiddleware`, or imports
as a subclass of it. -/
def CheckEnv.resolvesTenant : List String → Except Exc Bool
  | [] => .ok false
  | entry :: entries =>
    if entry = tenantMiddleware then .ok true
    else
      match env.importString entry with
      | .error e => if e = importError ∨ e = attributeError then CheckEnv.resolvesTenant entries else .error e
      | .ok x => if x.subclassOf tenantMiddleware then .ok true else CheckEnv.resolvesTenant entries

/-- `_check_middleware`. -/
def checkMiddleware : Except Exc (List CheckMessage) :=
  if hasExternalTenantContextMiddleware env.settings.middleware then .ok []
  else do
    if ← env.resolvesTenant env.settings.middleware then return []
    else
      return [⟨.error, "boundary.middleware.TenantMiddleware is not in MIDDLEWARE.",
        .some ("Add 'boundary.middleware.TenantMiddleware' (or a subclass of it) to MIDDLEWARE before " ++
          "SessionMiddleware. If icv-tenants is installed and its TenantContextMiddleware is mounted, it already " ++
          "owns authorised tenant resolution (ADR-118) and boundary needs no middleware of its own. The legacy " ++
          "icv-identity TenantContextMiddleware remains supported during migration."), "boundary.E004"⟩]

/-- `_check_strict_mode`. -/
def checkStrictMode : List CheckMessage :=
  if env.settings.strictMode then []
  else
    [⟨.warning, "BOUNDARY_STRICT_MODE is False. Queries without an active tenant context will not raise an error.",
      .some "Set BOUNDARY_STRICT_MODE = True for development safety.", "boundary.W001"⟩]

/-- `_POSTURE_SETTINGS`, with the values. -/
def postureSettings : List (String × String × Bool) :=
  [("BOUNDARY_STRICT_MODE",
      "a queryset executed with no active tenant context returns every tenant's rows instead of raising, which is a " ++
        "cross-tenant read that nothing logs", env.settings.strictMode),
    ("BOUNDARY_SET_DB_SESSION_VAR",
      "nothing writes the database session variable every Row Level Security policy reads, so a deployment carrying " ++
        "live policies has them all evaluating against an empty tenant", env.settings.setDbSessionVar)]

/-- `_check_production_posture`. -/
def checkProductionPosture : List CheckMessage :=
  if env.settings.debug then []
  else
    ((postureSettings env).filter fun (_, _, on) => !on).map fun (settingName, consequence, _) =>
      ⟨.error, settingName ++ " is False with DEBUG = False. With it off, " ++ consequence ++ ".",
        .some ("Set " ++ settingName ++ " = True (the default). This check fires wherever DEBUG is False, including " ++
          "under the test runner, where DEBUG is False, so a test settings module that disables the flag fails " ++
          "test-database creation. A deliberately ORM-only deployment, or a test suite that means it, records the " ++
          "choice by adding 'boundary.E008' to SILENCED_SYSTEM_CHECKS in the settings module that disables the " ++
          "flag, which for a test-only posture is the test settings module rather than the production one."),
        "boundary.E008"⟩

/-- `_check_external_double_resolve`. -/
def checkExternalDoubleResolve : List CheckMessage :=
  let middleware := env.settings.middleware
  let resolverCount := (if middleware.any fun entry => endsWith entry tenantMiddleware then 1 else 0) +
    externalTenantContextMiddleware.countP fun path => middleware.any fun entry => endsWith entry path
  if resolverCount < 2 then []
  else
    [⟨.warning, "Multiple known tenant-resolution middlewares are in MIDDLEWARE. This double-resolves the tenant on " ++
        "every request.",
      .some ("When icv-tenants is present it owns authorised tenant resolution and bridges into boundary. Remove " ++
        "boundary.middleware.TenantMiddleware and let the external middleware resolve and bridge, or run " ++
        "boundary-only without external tenant middleware. The legacy icv-identity middleware remains supported " ++
        "during migration (ADR-118)."), "boundary.W002"⟩]

/-- The resolvers configured that import as a subclass of one of `names`. -/
def CheckEnv.resolversOf (names : List String) : List String → Except Exc (List String)
  | [] => .ok []
  | path :: paths => do
    match ← env.imported? path with
    | .none => CheckEnv.resolversOf names paths
    | .some .object => throw notAClass
    | .some (.cls mro) =>
      let rest ← CheckEnv.resolversOf names paths
      return if names.any fun name => name ∈ mro then path :: rest else rest

/-- `_check_client_controlled_resolver_without_membership_check`. -/
def checkClientControlledResolver : Except Exc (List CheckMessage) :=
  if "django.contrib.auth" ∉ env.settings.installedApps then .ok []
  else do
    let clientControlled ← env.resolversOf ["boundary.resolvers.HeaderResolver", "boundary.resolvers.JWTClaimResolver"]
      env.settings.resolvers
    if clientControlled.isEmpty then return []
    else
      return [⟨.warning, "A client-controlled resolver (" ++ ", ".intercalate clientControlled ++
          ") is configured in BOUNDARY_RESOLVERS alongside django.contrib.auth. The tenant is taken directly from a " ++
          "value the client supplies (a header or an unverified JWT claim), so any authenticated caller can name " ++
          "any tenant. boundary resolves tenancy; it does not check that the authenticated principal is a member of " ++
          "the resolved tenant.",
        .some ("Add a check, after TenantMiddleware and your authentication middleware, that the authenticated user " ++
          "is a member of request.tenant, and return 403 otherwise. See " ++
          "docs/how-to/choose-and-order-resolvers.md#enforce-membership-after-resolution. If icv-identity is " ++
          "installed, its own middleware provides this per ADR-025 T1 and you should not hand-roll it. If you have " ++
          "already handled membership elsewhere, silence boundary.W006 in SILENCED_SYSTEM_CHECKS."),
        "boundary.W006"⟩]

def regionalRouter : String := "boundary.routing.RegionalRouter"

/-- The loop of `_check_regional_router_configured`. -/
def CheckEnv.routesRegionally : List RouterEntry → Except Exc Bool
  | [] => .ok false
  | .instance_ mro :: entries => if regionalRouter ∈ mro then .ok true else CheckEnv.routesRegionally entries
  | .path dotted :: entries => do
    match ← env.imported? dotted with
    | .none => CheckEnv.routesRegionally entries
    | .some x => if x.subclassOf regionalRouter then return true else CheckEnv.routesRegionally entries

/-- `_check_regional_router_configured`. -/
def checkRegionalRouter : Except Exc (List CheckMessage) :=
  if (env.settings.regions.getD []).isEmpty then .ok []
  else do
    if ← env.routesRegionally env.settings.databaseRouters then return []
    else
      return [⟨.error, "BOUNDARY_REGIONS is configured but 'boundary.routing.RegionalRouter' is not present in " ++
          "DATABASE_ROUTERS.",
        .some ("Add 'boundary.routing.RegionalRouter' to DATABASE_ROUTERS. Without it, every query silently stays " ++
          "on the 'default' database alias regardless of a tenant's configured region: see " ++
          "docs/how-to/deploy-multi-region.md#common-pitfalls."), "boundary.E005"⟩]

/-- `_check_subdomain_resolver_without_parent_domain`. -/
def checkSubdomainResolver : Except Exc (List CheckMessage) :=
  if env.settings.subdomainParentDomain then .ok []
  else do
    let unconstrained ← env.resolversOf ["boundary.resolvers.SubdomainResolver"] env.settings.resolvers
    if unconstrained.isEmpty then return []
    else
      return [⟨.warning, "SubdomainResolver (" ++ ", ".intercalate unconstrained ++ ") is configured in " ++
          "BOUNDARY_RESOLVERS without BOUNDARY_SUBDOMAIN_PARENT_DOMAIN. It resolves the first label of ANY host " ++
          "with three or more labels, including a foreign host outside your own domain whose first label happens to " ++
          "match a tenant slug.",
        .some ("Set BOUNDARY_SUBDOMAIN_PARENT_DOMAIN to your deployment's own parent domain (or a list of them) so " ++
          "SubdomainResolver only resolves a host that is exactly <slug>.<your-domain>. See " ++
          "docs/how-to/choose-and-order-resolvers.md#constrain-subdomainresolver-to-your-own-domain. If every host " ++
          "this deployment serves is already guaranteed to be your own (ALLOWED_HOSTS is a closed list with no " ++
          "customer-owned custom domains), silence boundary.W008 in SILENCED_SYSTEM_CHECKS."), "boundary.W008"⟩]

/-! ## The adopted set -/

/-- What adoption reads, where the tenant model is `tenant`. -/
def CheckEnv.adoption (tenant : AppModel) : AdoptionSettings where
  adoptExclude := env.settings.adoptExclude
  tenantModel := env.settings.tenantModelString.getD ""
  tenantAppLabel := tenant.appLabel
  tenantName := tenant.name
  pkDbType := env.pkDbType tenant

/-- The loop of `expected_adopted_models`, over the apps admitted. -/
def CheckEnv.adoptedOf : List AppModel → List String → Except Exc (List AppModel)
  | models, [] => .ok models
  | models, appLabel :: appLabels => do
    let tenant ← env.getTenantModel
    CheckEnv.adoptedOf ((adoptedModels (env.adoption tenant) env.apps appLabel env.apps []).foldl
      (fun models m => if models.any (·.label = m.label) then models else models ++ [m]) models) appLabels

/-- The entries of `BOUNDARY_TENANT_APPS` that `expected_adopted_apps` does not
refuse. -/
def CheckEnv.listedApps : List String := env.settings.tenantApps.filter fun appLabel =>
  (refusalReason appLabel env.apps).isNone

/-- `expected_adopted_models`. -/
def CheckEnv.expectedAdoptedModels : Except Exc (List AppModel) := env.adoptedOf [] env.listedApps

/-- `_expected_adopted_tables`. -/
def CheckEnv.expectedAdoptedTables : Except Exc (List AppModel) :=
  match env.expectedAdoptedModels with
  | .ok models => .ok models
  | .error e => if e = improperlyConfigured then .ok [] else .error e

/-! ## Row-level security -/

/-- The column-bearing models. -/
def CheckEnv.columnBearing : List AppModel :=
  env.installed.filter fun m => m.isTenantModel && !m.isAbstract && env.hasTenantColumn m

/-- The models whose table was not seen. -/
def unseen : List String → List AppModel → List AppModel
  | _, [] => []
  | seen, m :: models => if m.dbTable ∈ seen then unseen seen models else m :: unseen (m.dbTable :: seen) models

/-- `f` of each model that `_rls_probe_targets` yields, and of whether it is
adopted. -/
def CheckEnv.eachTarget (f : Bool → AppModel → Except Exc (List CheckMessage)) : Except Exc (List CheckMessage) := do
  let bearing ← extendEach (f false) env.columnBearing
  let expected ← env.expectedAdoptedTables
  let adopted ← extendEach (f true) (unseen (env.columnBearing.map AppModel.dbTable) expected)
  return bearing ++ adopted

/-- The row of `pg_class` for a table: row security enabled, and forced. -/
def CheckEnv.probe (table : String) : Except Exc (Option (Bool × Bool)) :=
  match env.probeFails table with
  | .some e => .error e
  | .none => .ok ((regclassTable env.toServer env.catalogue table).map fun t => (t.rowSecurity, t.forceRowSecurity))

/-- What is reported of a row; nothing where there is none, or no connection. -/
def CheckEnv.probing (m : AppModel) (report : Bool → Bool → List CheckMessage) (undetermined : Exc → CheckMessage) :
    Except Exc (List CheckMessage) :=
  match env.probe m.dbTable with
  | .ok .none => .ok []
  | .ok (.some (enabled, forced)) => .ok (report enabled forced)
  | .error e =>
    if connectionUnavailable e then .ok []
    else if e.isException then .ok [undetermined e]
    else .error e

/-- `boundary.E006` of a table. -/
def rlsDisabled (adopted : Bool) (m : AppModel) : CheckMessage :=
  if adopted then
    ⟨.error, tableOf m.dbTable m.name ++ " is an adopted table that does not have Row Level Security enabled and " ++
        "forced.",
      .some ("Re-apply the AdoptTenantApp('" ++ m.appLabel ++ "') migration, which enables and forces RLS as part " ++
        "of adopting the table. An adopted table has no ORM layer behind it, so RLS is the only thing isolating it. " ++
        "See BR-RLS-011."), "boundary.E006"⟩
  else
    ⟨.error, tableOf m.dbTable m.name ++ " does not have Row Level Security enabled and forced. Run EnableRLS " ++
        "migration operation.", .none, "boundary.E006"⟩

/-- `_check_rls_enabled`. -/
def checkRlsEnabled : Except Exc (List CheckMessage) :=
  if env.vendor ≠ .postgresql then .ok []
  else if env.settings.tenantModelString.isNone then .ok []
  else env.eachTarget fun adopted m =>
    env.probing m (fun enabled forced => if enabled && forced then [] else [rlsDisabled adopted m]) fun e =>
      ⟨.warning, "Could not determine Row Level Security state for table '" ++ m.dbTable ++ "' (model " ++ m.name ++
          "): " ++ env.str e,
        .some ("The database connection is available but the query against pg_class failed, so boundary.E006 could " ++
          "not verify this table. Check the connecting role has SELECT on pg_class, and investigate the underlying " ++
          "error before treating the absence of boundary.E006 as a pass."), "boundary.W007"⟩

/-- `boundary.W009` of a table. -/
def sessionVarDisabled (adopted : Bool) (m : AppModel) : CheckMessage :=
  if adopted then
    ⟨.warning, "BOUNDARY_SET_DB_SESSION_VAR is False but adopted table '" ++ m.dbTable ++ "' (model " ++ m.name ++
        ") has Row Level Security enabled and forced. RLS depends on the session variable this setting disables " ++
        "writing, so tenant isolation on this table is not actually enforced.",
      .some ("Set BOUNDARY_SET_DB_SESSION_VAR = True (the default). An adopted table has no ORM filtering behind " ++
        "it, so disabling the session variable leaves it with no isolation at all. Reverse the AdoptTenantApp('" ++
        m.appLabel ++ "') migration, or remove '" ++ m.appLabel ++ "' from BOUNDARY_TENANT_APPS, if the opt-out is " ++
        "intentional. See the BOUNDARY_SET_DB_SESSION_VAR entry in README.md."), "boundary.W009"⟩
  else
    ⟨.warning, "BOUNDARY_SET_DB_SESSION_VAR is False but table '" ++ m.dbTable ++ "' (model " ++ m.name ++
        ") has Row Level Security enabled and forced. RLS depends on the session variable this setting disables " ++
        "writing, so tenant isolation on this table is not actually enforced.",
      .some ("Set BOUNDARY_SET_DB_SESSION_VAR = True (the default), or remove RLS from this table if the opt-out is " ++
        "intentional. See the BOUNDARY_SET_DB_SESSION_VAR entry in README.md."), "boundary.W009"⟩

/-- `_check_db_session_var_disabled_with_rls_enabled`. -/
def checkSessionVarDisabled : Except Exc (List CheckMessage) :=
  if env.settings.setDbSessionVar then .ok []
  else if env.vendor ≠ .postgresql then .ok []
  else if env.settings.tenantModelString.isNone then .ok []
  else env.eachTarget fun adopted m =>
    env.probing m (fun enabled forced => if enabled && forced then [sessionVarDisabled adopted m] else []) fun e =>
      ⟨.warning, "Could not determine Row Level Security state for table '" ++ m.dbTable ++ "' (model " ++ m.name ++
          ") while checking BOUNDARY_SET_DB_SESSION_VAR: " ++ env.str e,
        .some ("The database connection is available but the query against pg_class failed, so boundary.W009 could " ++
          "not verify this table."), "boundary.W007"⟩

/-- `_check_rls_bypassable`. -/
def checkRlsBypassable : Except Exc (List CheckMessage) :=
  if env.vendor ≠ .postgresql then .ok []
  else
    match env.role with
    | .error e =>
      if connectionUnavailable e then .ok []
      else if e.isException then
        .ok [⟨.warning, "Could not determine whether the database connection role bypasses Row Level Security: " ++
            env.str e,
          .some ("The database connection is available but the query against pg_roles failed, so boundary.W003 " ++
            "could not verify the connecting role. Check the connecting role has SELECT on pg_roles, and " ++
            "investigate the underlying error before treating the absence of boundary.W003 as a pass."),
          "boundary.W007"⟩]
      else .error e
    | .ok .none => .ok []
    | .ok (.some (rolsuper, rolbypassrls)) =>
      if !(rolsuper || rolbypassrls) then .ok []
      else
        .ok [⟨.warning, "The database connection role bypasses Row Level Security, so RLS policies will not be " ++
            "enforced for this connection: tenant-isolation tests will pass without testing anything. Connect as a " ++
            "role without SUPERUSER or BYPASSRLS. If this role is deliberate (initial provisioning, some managed " ++
            "deployments), silence boundary.W003 in SILENCED_SYSTEM_CHECKS.",
          .some ("PostgreSQL exempts superuser and BYPASSRLS roles from every RLS policy, even FORCE ROW LEVEL " ++
            "SECURITY tables. See docs/explanation/isolation-layers.md#important-limits-of-rls."), "boundary.W003"⟩]

/-! ## The adopted tables -/

def appRefused (appLabel refusal : String) : CheckError :=
  e007 ("BOUNDARY_TENANT_APPS lists '" ++ appLabel ++ "', which cannot be adopted: " ++ refusal ++ ".")
    ("Remove the app label from BOUNDARY_TENANT_APPS. An app that is global by construction cannot be " ++
      "tenant-scoped, and an app label that is not installed adopts nothing. See BR-RLS-016.")

/-- `entry.split(".", 1)[0]`. -/
def entryApp (entry : String) : String := String.ofList (entry.toList.takeWhile (· ≠ '.'))

/-- What is reported of an entry of `BOUNDARY_ADOPT_EXCLUDE`. -/
def excludeErrors (tenantLabel : Option String) (listedApps : List String) (entry : String) : List CheckError :=
  if .some entry = tenantLabel then
    [e007 ("BOUNDARY_ADOPT_EXCLUDE names '" ++ entry ++ "', which is the configured tenant model.")
      ("The tenant model is never in an adopted set, so excluding it changes nothing. Remove the entry. If the " ++
        "intent was to leave the tenant model's app unadopted, remove that app label from BOUNDARY_TENANT_APPS " ++
        "instead. See BR-RLS-016.")]
  else if entryApp entry ∈ listedApps then []
  else
    [e007 ("BOUNDARY_ADOPT_EXCLUDE names '" ++ entry ++ "', whose app '" ++ entryApp entry ++
        "' is not in BOUNDARY_TENANT_APPS, so the entry excludes nothing.")
      ("Add '" ++ entryApp entry ++ "' to BOUNDARY_TENANT_APPS if that app was meant to be adopted, or remove the " ++
        "entry from BOUNDARY_ADOPT_EXCLUDE. An exclusion only has an effect on an app that is being adopted.")]

/-- `tenant_model_label()`, where a tenant model that is unset or not installed is
caught. -/
def CheckEnv.tenantLabel? : Except Exc (Option String) :=
  match env.getTenantModel with
  | .ok tenant => .ok (.some tenant.label)
  | .error e => if e = improperlyConfigured ∨ e = lookupError then .ok .none else .error e

/-- `_check_adopted_settings`. -/
def checkAdoptedSettings : Except Exc (List CheckError) :=
  let refused := env.settings.tenantApps.filterMap fun appLabel =>
    (refusalReason appLabel env.apps).map (appRefused appLabel)
  if env.settings.adoptExclude.isEmpty then .ok refused
  else do
    let tenantLabel ← env.tenantLabel?
    return refused ++ env.settings.adoptExclude.flatMap (excludeErrors tenantLabel env.listedApps)

/-- The loop of `_check_adopted_tables`. -/
def checkExpected (expectedType : String) : List AppModel → Except Exc (List CheckMessage) :=
  extendEach fun m =>
    match env.adoptedFails m.dbTable with
    | .none =>
      .ok ((checkOneAdoptedTable env.toServer env.catalogue m expectedType).map CheckError.toMessage)
    | .some e =>
      if connectionUnavailable e then .ok []
      else if e.isException then
        .ok [⟨.warning, "Could not determine the adopted-table state for table '" ++ m.dbTable ++ "' (model " ++
            m.label ++ "): " ++ env.str e,
          .some ("The database connection is available but a query against the PostgreSQL catalogue failed, so " ++
            "boundary.E007 could not verify this adopted table. Check the connecting role has SELECT on pg_class, " ++
            "pg_attribute, pg_policy, pg_constraint and pg_index, and investigate the underlying error before " ++
            "treating the absence of boundary.E007 as a pass."), "boundary.W007"⟩]
      else .error e

/-- `_check_adopted_tables`. -/
def checkAdoptedTables : Except Exc (List CheckMessage) := do
  let settings := (← checkAdoptedSettings env).map CheckError.toMessage
  if env.vendor ≠ .postgresql then return settings
  else if env.settings.tenantModelString.isNone then return settings
  else
    let expected ← env.expectedAdoptedTables
    if expected.isEmpty then return settings
    else
      match env.getTenantModel with
      | .error e => if e = improperlyConfigured ∨ e = lookupError then return settings else throw e
      | .ok tenant =>
        return settings ++ (← checkExpected env (detectTenantPgType (env.adoption tenant)) expected)

/-- `check_boundary_configuration`. -/
def checkBoundaryConfiguration : Except Exc (List CheckMessage) := do
  let tenantModel ← checkTenantModel env
  let resolvers ← checkResolvers env
  let middleware ← checkMiddleware env
  let rlsEnabled ← checkRlsEnabled env
  let rlsBypassable ← checkRlsBypassable env
  let clientControlled ← checkClientControlledResolver env
  let router ← checkRegionalRouter env
  let subdomain ← checkSubdomainResolver env
  let sessionVar ← checkSessionVarDisabled env
  let adopted ← checkAdoptedTables env
  return tenantModel ++ resolvers ++ middleware ++ checkStrictMode env ++ checkProductionPosture env ++ rlsEnabled ++
    checkExternalDoubleResolve env ++ rlsBypassable ++ clientControlled ++ router ++ subdomain ++ sessionVar ++ adopted

end

end Boundary
