/-
`boundary.adoption`: the models an app's adoption covers; and `AdoptTenantApp`
of `boundary.migrations_ops`, which validates every table first and then
executes its statements.

Reads of the catalogue are functions of it; what a schema editor executes
changes it and is traced. Django's own constraint names are any functions.
-/
import Boundary.Catalogue
import Boundary.Lib.Exec
import Mathlib.Data.List.DropRight

namespace Boundary

open Exec

/-! ## Models -/

/-- A field of a model: its column, and whether its column is unique. -/
structure ModelField where
  name : String
  column : String
  unique : Bool := false
  primaryKey : Bool := false

/-- A `UniqueConstraint` of `Meta.constraints`, and which of its keywords are
given. -/
structure UniqueDeclaration where
  fields : List ModelField
  condition : Bool := false
  expressions : Bool := false
  deferrable : Bool := false
  included : Bool := false
  opclasses : Bool := false

/-- What the operations read of a model's `_meta`. -/
structure AppModel where
  appLabel : String
  name : String
  dbTable : String
  isAbstract : Bool := false
  isProxy : Bool := false
  /-- `boundary.models.is_tenant_model`, of a live model. -/
  isTenantModel : Bool := false
  localFields : List ModelField := []
  uniqueTogether : List (List ModelField) := []
  constraints : List UniqueDeclaration := []
  /-- For each of `get_fields()`, the label of its `remote_field.through`, and
  whether that is auto-created. -/
  remoteThroughs : List (Option (String × Bool)) := []

/-- `model_label`. -/
def AppModel.label (m : AppModel) : String := m.appLabel ++ "." ++ m.name

/-- A registry of apps, live or of a migration state: the models of each app
installed, auto-created ones included. -/
structure Apps where
  models : String → Option (List AppModel)

/-- `apps.get_model`. -/
def Apps.getModel (apps : Apps) (appLabel name : String) : Option AppModel :=
  (apps.models appLabel).bind (List.find? (·.name.toList.map Char.toLower = name.toList.map Char.toLower))

/-! ## The deny-list -/

def deniedApps : List String := ["contenttypes", "sessions", "sites"]

def deniedModels : List String := ["auth.Permission", "admin.LogEntry"]

def deniedTables : List String := ["django_migrations"]

/-- `refusal_reason`. -/
def refusalReason (appLabel : String) (apps : Apps) : Option String :=
  if appLabel ∈ deniedApps then
    .some ("app '" ++ appLabel ++ "' is global by construction and cannot be tenant-scoped: " ++
      "scoping it breaks Django's own bootstrap or request handling before any tenant is resolved")
  else if (apps.models appLabel).isNone then .some ("app '" ++ appLabel ++ "' is not installed")
  else .none

/-- `refusal_reason_for_model`. -/
def refusalReasonForModel (m : AppModel) (tenantLabel : String) : Option String :=
  if m.label ∈ deniedModels then
    .some ("model '" ++ m.label ++ "' is global by construction and cannot be tenant-scoped")
  else if m.dbTable ∈ deniedTables then
    .some ("table '" ++ m.dbTable ++ "' (model '" ++ m.label ++
      "') is global by construction and cannot be tenant-scoped")
  else if m.label = tenantLabel then
    .some ("model '" ++ m.label ++ "' is the configured tenant model and is global by construction: " ++
      "scoping it makes the tenant row unreachable when no tenant is yet active, " ++
      "which is every resolution attempt")
  else .none

/-! ## The adopted set -/

/-- What adoption reads of the settings and of the tenant model. -/
structure AdoptionSettings where
  adoptExclude : List String := []
  dbSessionVar : String := "app.current_tenant_id"
  adminFlagVar : String := "app.boundary_admin"
  functionLeakproof : Bool := false
  /-- The setting `BOUNDARY_TENANT_MODEL`, and the tenant model it names. -/
  tenantModel : String
  tenantAppLabel : String
  tenantName : String
  /-- The name and the class of its primary key, and the database type the
  default connection gives it. -/
  pkName : String := "id"
  pkClass : String := "UUIDField"
  pkDbType : String := "uuid"

/-- `tenant_model_label()`. -/
def AdoptionSettings.tenantLabel (conf : AdoptionSettings) : String := conf.tenantAppLabel ++ "." ++ conf.tenantName

/-- `_tenant_through_labels`. -/
def tenantThroughLabels (conf : AdoptionSettings) (apps : Apps) : List String :=
  match apps.getModel conf.tenantAppLabel conf.tenantName with
  | .none => []
  | .some tenant => tenant.remoteThroughs.filterMap fun through =>
      through.bind fun (label, autoCreated) => if autoCreated then .some label else .none

/-- `_is_already_scoped`, asked of the live registry. -/
def isAlreadyScoped (live : Apps) (m : AppModel) : Bool :=
  match live.getModel m.appLabel m.name with
  | .none => false
  | .some model => model.isTenantModel

/-- `adopted_models`, of an app that is installed. -/
def adoptedModels (conf : AdoptionSettings) (live : Apps) (appLabel : String) (apps : Apps) (exclude : List String) :
    List AppModel :=
  ((apps.models appLabel).getD []).filter fun m =>
    !(m.isAbstract || m.isProxy) && m.label ∉ conf.adoptExclude ++ exclude &&
      !(m.label = conf.tenantLabel || m.label ∈ tenantThroughLabels conf apps) &&
      !(m.label ∈ deniedModels || m.dbTable ∈ deniedTables) && !isAlreadyScoped live m

/-- `_historical_unique_column_sets`, as columns. -/
def historicalUniqueColumnSets (m : AppModel) : List (List String) :=
  ((m.localFields.filter fun f => f.unique && !f.primaryKey).map fun f => [f.column]) ++
    m.uniqueTogether.map (·.map ModelField.column) ++
    (m.constraints.filter fun c =>
        !c.fields.isEmpty && !(c.condition || c.expressions || c.deferrable || c.included || c.opclasses)).map
      (·.fields.map ModelField.column)

/-! ## The operation -/

/-- Whether a schema editor executes what it is given, or collects it, as
`sqlmigrate`'s does. -/
inductive SchemaEditor where
  | live
  | collecting

/-- What an operation runs in. -/
structure AdoptionEnv (δ : Type) extends Server δ where
  conf : AdoptionSettings
  /-- The live registry. -/
  apps : Apps
  editor : SchemaEditor := .live
  dbAlias : Alias := "default"
  vendor : Vendor := .postgresql
  /-- `router.allow_migrate_model` on the alias. -/
  allowMigrateModel : AppModel → Bool := fun _ => true
  /-- `schema_compat.index_name`. -/
  indexName : String → List String → String → String
  /-- The name `schema_compat.unique_sql` gives a constraint. -/
  uniqueName : String → List String → String

inductive AdoptionError where
  /-- `AdoptionRefusedError`. -/
  | refused (message : String)
  | raised (e : Exc)
deriving DecidableEq

/-- A database under migration: its catalogue, the statements executed and the
statements collected. -/
structure Migration (δ : Type) where
  catalogue : Catalogue δ
  executed : List (Statement δ) := []
  collected : List (Statement δ) := []

abbrev Adopting (δ : Type) := EStateM AdoptionError (Migration δ)

section

variable {δ : Type}

/-- `cursor.execute`, of a statement that writes; the result is
`cursor.rowcount`. -/
def cursorExecute [DecidableEq δ] (env : AdoptionEnv δ) (s : Statement δ) : Adopting δ Nat := fun m =>
  match s.exec env.toServer m.catalogue with
  | .ok (catalogue, affected) => .ok affected { m with catalogue, executed := m.executed ++ [s] }
  | .error e => .error (.raised e) m

/-- `schema_editor.execute`. -/
def schemaExecute [DecidableEq δ] (env : AdoptionEnv δ) (s : Statement δ) : Adopting δ Unit :=
  match env.editor with
  | .live => do
    let _ ← cursorExecute env s
    pure ()
  | .collecting => fun m => .ok () { m with collected := m.collected ++ [s] }

/-- A read of the catalogue. -/
def reading {α : Type} (read : Catalogue δ → Except AdoptionError α) : Adopting δ α := fun m =>
  match read m.catalogue with
  | .ok a => .ok a m
  | .error e => .error e m

/-- `_PG_TYPE_MAP`. -/
def pgTypeMap : String → Option String
  | "uuid" => .some "uuid"
  | "integer" | "bigint" | "serial" | "bigserial" => .some "bigint"
  | _ => .none

/-- `detect_tenant_pg_type`. -/
def detectTenantPgType (conf : AdoptionSettings) : String := (pgTypeMap conf.pkDbType).getD "bigint"

/-- `s.strip().lower()`. -/
def normalType (s : String) : String :=
  String.ofList (((s.toList.dropWhile Char.isWhitespace).rdropWhile Char.isWhitespace).map Char.toLower)

/-- `_pg_types_match`. -/
def pgTypesMatch (found expected : String) : Bool := normalType found = normalType expected

/-- `composite_constraint_name`. -/
def compositeConstraintName (env : AdoptionEnv δ) (table originalName : String) (columns : List String) : String :=
  let suffixed := originalName ++ "_tenant"
  if suffixed.length ≤ 63 then suffixed else env.indexName table columns "_tenant"

/-- `create_tenant_id_helper`. -/
def createTenantIdHelper [DecidableEq δ] (env : AdoptionEnv δ) (pgType : String) : Adopting δ Unit :=
  schemaExecute env (.createHelper ⟨pgType, env.conf.dbSessionVar, env.conf.functionLeakproof⟩)

/-- `boundary_tenant_isolation`. -/
def tenantIsolation (table tenantColumn : String) : Policy :=
  ⟨"boundary_tenant_isolation", table, .isCurrentTenantId tenantColumn, .some (.isCurrentTenantId tenantColumn)⟩

/-- `boundary_admin_bypass`. -/
def adminBypassPolicy (adminFlagVar table : String) : Policy :=
  ⟨"boundary_admin_bypass", table, .settingIs adminFlagVar "true", .none⟩

/-- `create_tenant_policies`. -/
def createTenantPolicies [DecidableEq δ] (env : AdoptionEnv δ) (table tenantColumn : String) : Adopting δ Unit := do
  schemaExecute env (.createPolicy (tenantIsolation table tenantColumn))
  schemaExecute env (.createPolicy (adminBypassPolicy env.conf.adminFlagVar table))

/-- `_AdoptionPlan`. -/
structure AdoptionPlan where
  table : String
  label : String
  pgType : String
  existingRows : Nat
  rewrites : List (String × List String)

structure AdoptTenantApp (δ : Type) where
  appLabel : String
  exclude : List String := []
  backfillTenant : Option δ := .none

end

namespace AdoptTenantApp

variable {δ : Type}

def cannotAdoptTable (table label : String) : String :=
  "AdoptTenantApp cannot adopt table '" ++ table ++ "' (model '" ++ label ++ "'): "

def writeByHand : String := "Exclude this model, or write the rewrite by hand in your own migration."

/-- The loop over `unique_indexes` of `_plan_unique_rewrites`. -/
def refuseUniqueIndexes (table label : String) : List UniqueIndexRow → Except AdoptionError Unit
  | [] => .ok ()
  | index :: indexes =>
    if index.primary || index.constraint.isSome then refuseUniqueIndexes table label indexes
    else if index.partial_ then
      .error (.refused (cannotAdoptTable table label ++ "unique index '" ++ index.name ++
        "' is partial (it carries a WHERE predicate), and boundary cannot safely re-express that predicate " ++
        "against the added tenant_id column. " ++ writeByHand))
    else if index.expression then
      .error (.refused (cannotAdoptTable table label ++ "unique index '" ++ index.name ++
        "' is an expression index, which boundary cannot rewrite. " ++ writeByHand))
    else
      .error (.refused (cannotAdoptTable table label ++ "unique index '" ++ index.name ++
        "' is a bare unique index backing no constraint, so replacing it with a composite UNIQUE constraint " ++
        "would not be an equivalent rewrite. " ++ writeByHand))

/-- The loop over `unique_constraints` of `_plan_unique_rewrites`. -/
def rewriteConstraints (table label : String) :
    List UniqueConstraintRow → Except AdoptionError (List (String × List String))
  | [] => .ok []
  | constraint :: constraints =>
    if constraint.deferrable then
      .error (.refused (cannotAdoptTable table label ++ "unique constraint '" ++ constraint.name ++
        "' is deferrable, and boundary cannot reproduce a deferrable composite replacement. " ++ writeByHand))
    else if constraint.fkTargeted then
      .error (.refused (cannotAdoptTable table label ++ "unique constraint '" ++ constraint.name ++
        "' is targeted by a foreign key (a ForeignKey(to_field=...) elsewhere references it). Dropping it would " ++
        "invalidate that referencing constraint and the composite replacement cannot satisfy it. " ++ writeByHand))
    else (rewriteConstraints table label constraints).map fun rewrites =>
      (constraint.name, "tenant_id" :: constraint.columns) :: rewrites

/-- `_plan_unique_rewrites`. -/
def planUniqueRewrites (server : Server δ) (cat : Catalogue δ) (table label : String) :
    Except AdoptionError (List (String × List String)) := do
  refuseUniqueIndexes table label (uniqueIndexes server cat table)
  rewriteConstraints table label (uniqueConstraints server cat table)

/-- The row-count probe of `_validate_table`, and its refusal. -/
def probeRows (op : AdoptTenantApp δ) (cat : Catalogue δ) (table label : String) : Except AdoptionError Nat :=
  match rowCount cat table with
  | .error e => .error (.raised e)
  | .ok existingRows =>
    if existingRows ≠ 0 ∧ op.backfillTenant.isNone then
      .error (.refused ("AdoptTenantApp refuses to adopt table '" ++ table ++ "' (model '" ++ label ++ "'): it holds " ++
        toString existingRows ++ " row(s) and no backfill_tenant was given. Adding the column with its default " ++
        "would stamp every existing row with whichever tenant was current at migration time, which during " ++
        "migrate is normally none. Pass backfill_tenant=<tenant pk> to assign them deliberately, or exclude " ++
        "this model."))
    else .ok existingRows

/-- `_validate_table`; `none` for a table that is adopted already. -/
def validateTable (op : AdoptTenantApp δ) (env : AdoptionEnv δ) (pgType : String) (m : AppModel) (cat : Catalogue δ) :
    Except AdoptionError (Option AdoptionPlan) :=
  match columnType env.toServer cat m.dbTable "tenant_id" with
  | .some existing =>
    if pgTypesMatch existing pgType then .ok .none
    else
      .error (.refused (cannotAdoptTable m.dbTable m.label ++ "it already carries a tenant_id column of type '" ++
        existing ++ "', but the configured tenant model's primary key derives type '" ++ pgType ++
        "'. Boundary cannot tell its own column from one the adopted app declares, so it refuses rather than guess."))
  | .none =>
    match refusalReasonForModel m env.conf.tenantLabel with
    | .some refusal => .error (.refused ("AdoptTenantApp cannot adopt: " ++ refusal))
    | .none => do
      let existingRows ← op.probeRows cat m.dbTable m.label
      let rewrites ← planUniqueRewrites env.toServer cat m.dbTable m.label
      pure (.some ⟨m.dbTable, m.label, pgType, existingRows, rewrites⟩)

/-- The first pass: a plan for each table that is not adopted yet. -/
def validateTables (op : AdoptTenantApp δ) (env : AdoptionEnv δ) (pgType : String) (cat : Catalogue δ) :
    List AppModel → Except AdoptionError (List AdoptionPlan)
  | [] => .ok []
  | m :: models => do
    let plan ← op.validateTable env pgType m cat
    let plans ← op.validateTables env pgType cat models
    pure (plan.toList ++ plans)

/-- The column `_add_tenant_column` leaves. -/
def tenantColumn (pgType : String) : Column := ⟨"tenant_id", pgType, true, .some .currentTenantId⟩

/-- `_refuse_empty_set`. -/
def refuseEmptySet (op : AdoptTenantApp δ) (env : AdoptionEnv δ) (apps : Apps) : AdoptionError :=
  let reasons := (((apps.models op.appLabel).getD []).filter fun m => !(m.isAbstract || m.isProxy)).filterMap
    (refusalReasonForModel · env.conf.tenantLabel)
  let message := "AdoptTenantApp cannot adopt app '" ++ op.appLabel ++ "': it has no adoptable model. "
  if reasons.isEmpty then
    .refused (message ++ "Every concrete model is excluded, already tenant-scoped, or the app has none.")
  else .refused (message ++ "; ".intercalate reasons)

/-- `_require_postgresql`. -/
def requirePostgresql (op : AdoptTenantApp δ) (env : AdoptionEnv δ) : Except AdoptionError Unit :=
  match env.vendor with
  | .postgresql => .ok ()
  | .other vendor =>
    .error (.refused ("AdoptTenantApp cannot adopt app '" ++ op.appLabel ++ "' on database alias '" ++ env.dbAlias ++
      "': its backend vendor is '" ++ vendor ++ "', and adoption is PostgreSQL Row Level Security, which no other " ++
      "backend has. Keep this alias off the adoption migration's graph with a router's allow_migrate(), or run " ++
      "the migration against PostgreSQL."))

/-- `_tenant_pg_type`. -/
def tenantPgType (op : AdoptTenantApp δ) (conf : AdoptionSettings) : Except AdoptionError String :=
  match pgTypeMap conf.pkDbType with
  | .some pgType => .ok pgType
  | .none =>
    .error (.refused ("AdoptTenantApp cannot adopt app '" ++ op.appLabel ++ "': the configured tenant model '" ++
      conf.tenantModel ++ "' has primary key '" ++ conf.pkName ++ "' of type '" ++ conf.pkClass ++
      "', whose database type '" ++ conf.pkDbType ++ "' maps to neither uuid nor bigint. Adoption creates the " ++
      "tenant_id column itself, so it refuses rather than guess a type: a wrong one is invisible to the ORM and " ++
      "surfaces only as empty reads and NOT NULL violations. Give the tenant model a UUID or integer primary " ++
      "key, or scope these tables with a declared tenant field instead."))

/-- The derived set, less what the router keeps off the alias. -/
def admitted (op : AdoptTenantApp δ) (env : AdoptionEnv δ) (apps : Apps) : List AppModel :=
  (adoptedModels env.conf env.apps op.appLabel apps op.exclude).filter env.allowMigrateModel

section

variable [DecidableEq δ]

/-- The backfill of `_add_tenant_column`. A backfill of `None`, which the probe
has refused, would leave every row NULL. -/
def backfill (op : AdoptTenantApp δ) (env : AdoptionEnv δ) (plan : AdoptionPlan) : Adopting δ Nat :=
  match op.backfillTenant with
  | .some tenant => cursorExecute env (.updateAll plan.table "tenant_id" tenant)
  | .none => pure plan.existingRows

/-- `_add_tenant_column`. -/
def addTenantColumn (op : AdoptTenantApp δ) (env : AdoptionEnv δ) (plan : AdoptionPlan) : Adopting δ Unit := do
  if plan.existingRows = 0 then
    schemaExecute env (.addColumn plan.table (tenantColumn plan.pgType))
  else
    schemaExecute env (.addColumn plan.table ⟨"tenant_id", plan.pgType, false, .none⟩)
    let updated ← op.backfill env plan
    if updated = plan.existingRows then
      schemaExecute env (.setNotNull plan.table "tenant_id")
      schemaExecute env (.setDefault plan.table "tenant_id" .currentTenantId)
    else
      throw (.refused ("AdoptTenantApp aborted on table '" ++ plan.table ++ "' (model '" ++ plan.label ++
        "'): the backfill UPDATE affected " ++ toString updated ++ " row(s) but the row-count probe read " ++
        toString plan.existingRows ++ ". Some rows' tenant assignment would not be the one the migration " ++
        "declares, so the operation refuses rather than proceed."))

/-- `_apply_unique_rewrites`. -/
def applyUniqueRewrites (env : AdoptionEnv δ) (table : String) : List (String × List String) → Adopting δ Unit
  | [] => pure ()
  | (name, columns) :: rewrites => do
    schemaExecute env (.dropConstraint table name)
    schemaExecute env (.addUnique table (compositeConstraintName env table name columns) columns)
    applyUniqueRewrites env table rewrites

/-- `_adopt_table`. -/
def adoptTable (op : AdoptTenantApp δ) (env : AdoptionEnv δ) (plan : AdoptionPlan) : Adopting δ Unit := do
  op.addTenantColumn env plan
  applyUniqueRewrites env plan.table plan.rewrites
  schemaExecute env (.rowSecurity plan.table true)
  schemaExecute env (.forceRowSecurity plan.table true)
  createTenantPolicies env plan.table "tenant_id"

/-- The second pass. -/
def adoptTables (op : AdoptTenantApp δ) (env : AdoptionEnv δ) : List AdoptionPlan → Adopting δ Unit
  | [] => pure ()
  | plan :: plans => do
    op.adoptTable env plan
    op.adoptTables env plans

/-- The helper is created once for the whole operation. -/
def createHelperOnce (env : AdoptionEnv δ) (pgType : String) (plans : List AdoptionPlan) : Adopting δ Unit :=
  if plans.isEmpty then pure ()
  else createTenantIdHelper env pgType

/-- The two passes of `database_forwards`, over the admitted models. -/
def planThenApply (op : AdoptTenantApp δ) (env : AdoptionEnv δ) (models : List AppModel) : Adopting δ Unit := do
  reading fun _ => op.requirePostgresql env
  let pgType ← reading fun _ => op.tenantPgType env.conf
  let plans ← reading fun cat => op.validateTables env pgType cat models
  createHelperOnce env pgType plans
  op.adoptTables env plans

/-- `database_forwards`; `apps` are `to_state.apps`. -/
def databaseForwards (op : AdoptTenantApp δ) (env : AdoptionEnv δ) (apps : Apps) : Adopting δ Unit :=
  match refusalReason op.appLabel apps with
  | .some refusal => throw (.refused ("AdoptTenantApp cannot adopt: " ++ refusal))
  | .none =>
    if (adoptedModels env.conf env.apps op.appLabel apps op.exclude).isEmpty then throw (op.refuseEmptySet env apps)
    else if (op.admitted env apps).isEmpty then pure ()
    else op.planThenApply env (op.admitted env apps)

/-! ## Backwards -/

/-- `_restore_unique_constraints`, once the live constraints are read. -/
def restoreUniqueConstraints (env : AdoptionEnv δ) (table : String) (live : List UniqueConstraintRow) :
    List (List String) → Adopting δ Unit
  | [] => pure ()
  | columns :: columnSets => do
    match live.find? (·.columns = "tenant_id" :: columns) with
    | .none => pure ()
    | .some constraint => do
      schemaExecute env (.dropConstraint table constraint.name)
      schemaExecute env (.addUnique table (env.uniqueName table columns) columns)
    restoreUniqueConstraints env table live columnSets

/-- `_unadopt_table`. -/
def unadoptTable (env : AdoptionEnv δ) (m : AppModel) : Adopting δ Unit := do
  match ← reading fun cat => .ok (columnType env.toServer cat m.dbTable "tenant_id") with
  | .none => pure ()
  | .some _ => do
    schemaExecute env (.dropPolicyIfExists m.dbTable "boundary_tenant_isolation")
    schemaExecute env (.dropPolicyIfExists m.dbTable "boundary_admin_bypass")
    schemaExecute env (.rowSecurity m.dbTable false)
    schemaExecute env (.forceRowSecurity m.dbTable false)
    let live ← reading fun cat => .ok (uniqueConstraints env.toServer cat m.dbTable)
    restoreUniqueConstraints env m.dbTable live (historicalUniqueColumnSets m)
    schemaExecute env (.dropColumn m.dbTable "tenant_id")

def unadoptTables (env : AdoptionEnv δ) : List AppModel → Adopting δ Unit
  | [] => pure ()
  | m :: models => do
    unadoptTable env m
    unadoptTables env models

/-- `database_backwards`; `apps` are `from_state.apps`. -/
def databaseBackwards (op : AdoptTenantApp δ) (env : AdoptionEnv δ) (apps : Apps) : Adopting δ Unit := do
  if (apps.models op.appLabel).isNone then throw (.raised (.other "LookupError"))
  else if (op.admitted env apps).isEmpty then pure ()
  else
    reading fun _ => op.requirePostgresql env
    unadoptTables env (op.admitted env apps)

end

end AdoptTenantApp

end Boundary
