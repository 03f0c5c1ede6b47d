/-
`boundary_deprovision`: what it counts, exports and deletes of a tenant, through
the ORM where a model is tenant-scoped and by raw SQL inside `admin_bypass()`
where its table is adopted.

A statement is executed on a connection and reads the settings in force there,
which decide what row security shows of the tables on its alias. Each deletion
is committed by itself, unless a transaction is open. How Django resolves a
lookup, renders a tenant and finds one are parameters, and so is what a default
or a callable of `on_delete` sets.
-/
import Boundary.RowLevelSecurity
import Boundary.Routing
import Boundary.Lib.OnDelete

namespace Boundary

open Exec

variable {δ : Type}

/-! ## Lookups -/

/-- The joins a tenant lookup makes, to the column that holds the tenant. -/
abbrev TenantLookup := Sql.Lookup String String

/-- The rows of each table of a database. -/
def Catalogue.contents (cat : Catalogue δ) : Sql.Contents String String δ := fun name =>
  ((cat.tables name).map Table.rows).getD []

def Catalogue.withContents (cat : Catalogue δ) (rows : Sql.Contents String String δ) : Catalogue δ :=
  { cat with tables := fun name => (cat.tables name).map fun t => { t with rows := rows name } }

/-! ## The command's environment -/

/-- A line of the export: `_model`, `_pk`, `_adopted` and the row's columns. -/
structure ExportLine (δ : Type) where
  model : AppModel
  adopted : Bool
  row : SqlRow δ

structure Deployment (δ : Type) where
  world : World
  databases : Alias → Catalogue δ
  /-- `self.stdout`. -/
  output : List String := []
  files : String → Option (List (ExportLine δ)) := fun _ => .none

abbrev Commanding (δ : Type) := EStateM Exc (Deployment δ)

structure DeprovisionEnv (δ : Type) where
  settings : Settings
  conf : AdoptionSettings
  adminFlagVar : settings.adminFlagVar = conf.adminFlagVar := by rfl
  dbSessionVar : settings.dbSessionVar = conf.dbSessionVar := by rfl
  /-- `BOUNDARY_TENANT_APPS`. -/
  tenantApps : List String := []
  /-- The live registry, auto-created models included. -/
  apps : Apps
  /-- `apps.get_models()`. -/
  installed : List AppModel
  /-- What a model's `get_tenant_lookup(model) or "tenant"` resolves to. -/
  lookup : AppModel → TenantLookup
  tenantTable : String
  schema : Sql.Schema String String δ
  /-- The role connected with, its settings apart. -/
  role : Alias → SqlSession δ
  /-- A primary key, as the database holds it. -/
  key : PrimaryKey → δ
  /-- `str(tenant)`. -/
  str : Tenant → String
  /-- `TenantModel.objects.get(pk=...)` and `get(slug=...)`; `none` does not
  exist. -/
  getByPk : String → Except Exc (Option TenantRef)
  getBySlug : String → Except Exc (Option TenantRef)
  /-- `BOUNDARY_PRE_DEPROVISION_HOOK`. -/
  preDeprovisionHook : TenantRef → (Alias → Catalogue δ) → Except Exc (Alias → Catalogue δ) := fun _ dbs => .ok dbs
  /-- What a receiver of `admin_bypass_activated` raises. -/
  receiver : Option Exc := .none
  /-- What is typed at the prompt. -/
  answer : String := ""

structure DeprovisionOptions where
  tenant : String
  exportTo : Option String := .none
  dryRun : Bool := false
  yes : Bool := false

/-- `expected_adopted_models`, less the models whose label was seen. -/
def expectedAdoptedModels (env : DeprovisionEnv δ) : List AppModel :=
  (env.tenantApps.filter fun appLabel => (refusalReason appLabel env.apps).isNone).foldl
    (fun models appLabel => (adoptedModels env.conf env.apps appLabel env.apps []).foldl
      (fun models m => if models.any (·.label = m.label) then models else models ++ [m]) models) []

/-- `_adopted_table_set`. -/
def adoptedTableSet (env : DeprovisionEnv δ) : List String := (expectedAdoptedModels env).map AppModel.dbTable

/-- The models the scoped branches go over. -/
def scopedModels (env : DeprovisionEnv δ) : List AppModel :=
  env.installed.filter fun m => m.isTenantModel && !m.isAbstract

section

variable [DecidableEq δ]

/-! ## Statements -/

def onWorld {α : Type} (x : M α) : Commanding δ α := zoom Deployment.world (fun w d => { d with world := w }) x

/-- `router.db_for_read(model)`, or `db_for_write`. -/
def routed (env : DeprovisionEnv δ) (isTenantModel : Bool) : Commanding δ Alias := fun d =>
  .ok (RegionalRouter.route env.settings isTenantModel d.world.contextVars d.world.tenants) d

/-- `connection.in_atomic_block`: the checks of foreign keys wait for its end. -/
def inTransaction (a : Alias) : Commanding δ Bool := fun d => .ok (d.world.connections a).inAtomicBlock d

/-- The role, with the settings in force. -/
def DeprovisionEnv.session (env : DeprovisionEnv δ) (a : Alias) (vars : SessionVars) : SqlSession δ :=
  { env.role a with currentSetting := fun name => .some (vars name) }

/-- A row of a table that is there, to the session. -/
def seesRow (s : SqlSession δ) (cat : Catalogue δ) (name : String) (r : SqlRow δ) : Bool :=
  match cat.tables name with
  | .some t => (s.guard cat name t).visible r
  | .none => false

/-- What the session sees of each table. -/
def seen (s : SqlSession δ) (cat : Catalogue δ) : Sql.Contents String String δ := fun name =>
  (cat.contents name).filter (seesRow s cat name)

/-- Statements on an alias, which read and change its database in the settings
in force. -/
def onDatabase {α : Type} (env : DeprovisionEnv δ) (a : Alias)
    (act : SqlSession δ → Catalogue δ → Except Exc (α × Catalogue δ)) : Commanding δ α := do
  if (env.settings.databases a).isNone then throw (.other "ConnectionDoesNotExist")
  let vars ← onWorld (db (onCell a (·.execute id)))
  fun d =>
    match act (env.session a vars) (d.databases a) with
    | .ok (x, cat) => .ok x { d with databases := Function.update d.databases a cat }
    | .error e => .error e d

/-- `with admin_bypass(using=a): ...`. -/
def withAdminBypass {α : Type} (env : DeprovisionEnv δ) (a : Alias) (body : Commanding δ α) : Commanding δ α := do
  let scope ← onWorld (adminBypassEnter env.settings a env.receiver)
  ensuring body fun failed => onWorld (adminBypassExit env.settings a scope failed)

/-- The exception a refused deletion raises. -/
def refusedDelete : Sql.DeleteRefusal → Exc
  | .protected_ => .other "ProtectedError"
  | .restricted => .other "RestrictedError"
  | .integrity => .integrityError

/-- What an ORM query needs of the model's table. -/
def requireTable (cat : Catalogue δ) (m : AppModel) : Except Exc Unit :=
  if (cat.tables m.dbTable).isNone then .error programmingError else .ok ()

/-- What `WHERE tenant_id = ...` needs of the table. -/
def requireTenantId (cat : Catalogue δ) (m : AppModel) : Except Exc Unit :=
  match cat.tables m.dbTable with
  | .none => .error programmingError
  | .some t => if (t.column? "tenant_id").isNone then .error programmingError else .ok ()

def write (line : String) : Commanding δ Unit := fun d => .ok () { d with output := d.output ++ [line] }

/-! ## Collecting -/

variable (env : DeprovisionEnv δ) (tenant : TenantRef)

/-- `tenant.pk`, as the database holds it. -/
def tenantKey : Commanding δ δ := fun d => .ok (env.key (d.world.tenants tenant).pk) d

/-- The rows an ORM query for a tenant gives, each as often as it is joined. -/
def scopedRows (s : SqlSession δ) (cat : Catalogue δ) (m : AppModel) (key : δ) : List (SqlRow δ) :=
  (seen s cat m.dbTable).flatMap fun r => List.replicate ((env.lookup m).count (seen s cat) key r) r

/-- The rows a raw query for a tenant gives. -/
def adoptedRows (s : SqlSession δ) (cat : Catalogue δ) (m : AppModel) (key : δ) : List (SqlRow δ) :=
  (seen s cat m.dbTable).filter fun r => r "tenant_id" = .some key

/-- `model.unscoped.filter(...)`, read. -/
def queryScoped (m : AppModel) : Commanding δ (List (SqlRow δ)) := do
  let key ← tenantKey env tenant
  let a ← routed env m.isTenantModel
  onDatabase env a fun s cat => do
    requireTable cat m
    pure (scopedRows env s cat m key, cat)

/-- The raw `SELECT` of an adopted table. -/
def queryAdopted (m : AppModel) (a : Alias) : Commanding δ (List (SqlRow δ)) := do
  let key ← tenantKey env tenant
  onDatabase env a fun s cat => do
    requireTenantId cat m
    pure (adoptedRows s cat m key, cat)

/-- `model.unscoped.filter(...).count()`. -/
def countScopedRows (m : AppModel) : Commanding δ Nat := do
  let rows ← queryScoped env tenant m
  pure rows.length

/-- `_count_adopted_rows`. -/
def countAdoptedRows (m : AppModel) : Commanding δ Nat := do
  let a ← routed env m.isTenantModel
  let rows ← withAdminBypass env a (queryAdopted env tenant m a)
  pure rows.length

/-- One of the two loops of `_collect_affected`. -/
def collectCounts (count : AppModel → Commanding δ Nat) : List AppModel → Commanding δ (List (AppModel × Nat))
  | [] => pure []
  | m :: models => do
    let n ← count m
    let rest ← collectCounts count models
    pure (if n > 0 then (m, n) :: rest else rest)

/-- `_collect_affected`. -/
def collectAffected : Commanding δ (List (AppModel × Nat)) := do
  let result ← collectCounts (countScopedRows env tenant) (scopedModels env)
  let adopted ← collectCounts (countAdoptedRows env tenant) (expectedAdoptedModels env)
  pure (result ++ adopted)

/-- `_describe`. -/
def describe (m : AppModel) : String :=
  if m.dbTable ∈ adoptedTableSet env then m.label ++ " (adopted table " ++ m.dbTable ++ ")" else m.name

def writeCounts : List (AppModel × Nat) → Commanding δ Unit
  | [] => pure ()
  | (m, n) :: affected => do
    write ("  " ++ describe env m ++ ": " ++ toString n ++ " rows")
    writeCounts affected

/-! ## Exporting -/

/-- `f.write(...)`, of each line. -/
def appendLines (path : String) (lines : List (ExportLine δ)) : Commanding δ Unit := fun d =>
  .ok () { d with files := Function.update d.files path (.some ((d.files path).getD [] ++ lines)) }

/-- `open(path, "w")`. -/
def openFile (path : String) : Commanding δ Unit := fun d =>
  .ok () { d with files := Function.update d.files path (.some []) }

def exportScopedRows (path : String) (m : AppModel) : Commanding δ Unit := do
  let rows ← queryScoped env tenant m
  appendLines path (rows.map (⟨m, false, ·⟩))

/-- `_export_adopted_rows`: only psycopg's connections have named cursors. -/
def exportAdoptedRows (path : String) (m : AppModel) : Commanding δ Unit := do
  let a ← routed env m.isTenantModel
  let rows ← withAdminBypass env a do
    if !isPostgresql env.settings a then throw (.other "TypeError")
    queryAdopted env tenant m a
  appendLines path (rows.map (⟨m, true, ·⟩))

/-- A loop over models. -/
def eachModel (body : AppModel → Commanding δ Unit) : List AppModel → Commanding δ Unit
  | [] => pure ()
  | m :: models => do
    body m
    eachModel body models

/-- `_export`. -/
def exportData (path : String) : Commanding δ Unit := do
  openFile path
  eachModel (exportScopedRows env tenant path) (scopedModels env)
  eachModel (exportAdoptedRows env tenant path) (expectedAdoptedModels env)
  write ("Exported to " ++ path)

/-! ## Deleting -/

/-- A deletion, by the ORM or by a raw statement, and its commit. -/
def deleting (s : SqlSession δ) (cat : Catalogue δ)
    (delete : (String → SqlRow δ → Bool) → Sql.Contents String String δ →
      Except Sql.DeleteRefusal (Sql.Contents String String δ)) : Except Exc (Unit × Catalogue δ) :=
  match delete (seesRow s cat) cat.contents with
  | .ok rows => .ok ((), cat.withContents rows)
  | .error refusal => .error (refusedDelete refusal)

/-- `model.unscoped.filter(...).delete()`. -/
def deleteScopedRows (m : AppModel) : Commanding δ Unit := do
  let key ← tenantKey env tenant
  let a ← routed env m.isTenantModel
  let deferred ← inTransaction a
  onDatabase env a fun s cat => do
    requireTable cat m
    deleting s cat fun visible rows =>
      env.schema.delete deferred visible rows ((scopedRows env s cat m key).map (m.dbTable, ·))

/-- `_delete_adopted_rows`. -/
def deleteAdoptedRows (m : AppModel) : Commanding δ Unit := do
  let key ← tenantKey env tenant
  let a ← routed env m.isTenantModel
  let deferred ← inTransaction a
  withAdminBypass env a <| onDatabase env a fun s cat => do
    requireTenantId cat m
    deleting s cat fun visible rows =>
      env.schema.erase deferred rows m.dbTable fun r => visible m.dbTable r && r "tenant_id" = .some key

/-- The loop of `handle` that deletes. -/
def deleteAffected : List (AppModel × Nat) → Commanding δ Unit
  | [] => pure ()
  | (m, _) :: affected => do
    if m.dbTable ∈ adoptedTableSet env then deleteAdoptedRows env tenant m
    else deleteScopedRows env tenant m
    deleteAffected affected

/-- `tenant.delete()`. -/
def deleteTenant : Commanding δ Unit := do
  let key ← tenantKey env tenant
  let a ← routed env false
  let deferred ← inTransaction a
  onDatabase env a fun s cat =>
    deleting s cat fun visible rows => env.schema.delete deferred visible rows
      (((rows env.tenantTable).filter fun r => r (env.schema.primaryKey env.tenantTable) = .some key).map
        (env.tenantTable, ·))

/-! ## The command -/

/-- `_resolve_tenant`. -/
def resolveTenantOption (identifier : String) : Commanding δ TenantRef := do
  let a ← routed env false
  let bySlug : Commanding δ TenantRef := do
    onDatabase env a fun _ cat => .ok ((), cat)
    match env.getBySlug identifier with
    | .ok (.some tenant) => pure tenant
    | .ok .none => throw (.other ("CommandError: Tenant not found: " ++ identifier))
    | .error e => throw e
  onDatabase env a fun _ cat => .ok ((), cat)
  match env.getByPk identifier with
  | .ok (.some tenant) => pure tenant
  | .ok .none => bySlug
  | .error e => if e = .other "ValueError" ∨ e = .other "TypeError" then bySlug else throw e

def runHook : Commanding δ Unit := fun d =>
  match env.preDeprovisionHook tenant d.databases with
  | .ok databases => .ok () { d with databases }
  | .error e => .error e d

/-- `str(tenant)`, now. -/
def tenantStr : Commanding δ String := fun d => .ok (env.str (d.world.tenants tenant)) d

/-- The prompt; whether it was answered with 'yes'. -/
def confirm (affected : List (AppModel × Nat)) : Commanding δ Bool := do
  write ("About to delete tenant: " ++ (← tenantStr env tenant))
  writeCounts env affected
  if env.answer = "yes" then pure true
  else
    write "Aborted."
    pure false

/-- `if options["export"]: ...`. -/
def exportIfAsked (options : DeprovisionOptions) : Commanding δ Unit :=
  match options.exportTo with
  | .none => pure ()
  | .some path => if path = "" then pure () else exportData env tenant path

/-- The end of `handle`, once it is confirmed. Django sets `tenant.pk` to
`None`. -/
def exportThenDelete (options : DeprovisionOptions) (affected : List (AppModel × Nat)) : Commanding δ Unit := do
  exportIfAsked env tenant options
  deleteAffected env tenant affected
  deleteTenant env tenant
  write "Tenant None deleted."

/-- `handle`, of the tenant resolved. -/
def deprovision (options : DeprovisionOptions) : Commanding δ Unit := do
  runHook env tenant
  let affected ← collectAffected env tenant
  if options.dryRun then
    write ("[DRY RUN] Would delete tenant: " ++ (← tenantStr env tenant))
    writeCounts env affected
  else
    let confirmed ← if options.yes then pure true else confirm env tenant affected
    if confirmed then exportThenDelete env tenant options affected

/-- `handle`. -/
def handleDeprovision (options : DeprovisionOptions) : Commanding δ Unit := do
  let tenant ← resolveTenantOption env options.tenant
  deprovision env tenant options

end

end Boundary
