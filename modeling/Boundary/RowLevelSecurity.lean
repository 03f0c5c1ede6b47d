/-
`EnableRLS`, `CreateTenantPolicy` and `DropTenantPolicy` of
`boundary.migrations_ops`; and what a session then sees and writes of a table.

A table is open to a session as PostgreSQL has it: permissive policies are
or-ed, a policy's `USING` is its check where it has no other, and NULL denies.
What the server makes of a text (a cast, a condition, a default) is any
function.
-/
import Boundary.Adoption
import Boundary.Lib.RowSecurity

namespace Boundary

open Exec

variable {δ : Type}

/-! ## The operations -/

/-- What an operation on a model that declares its tenant field runs in. -/
structure RlsEnv (δ : Type) extends AdoptionEnv δ where
  /-- Of a model's relation field, the database type that the default connection
  gives the primary key related to. -/
  relatedPkDbType : AppModel → String → Option String

/-- `self.app_label or app_label`. -/
def targetAppLabel (override : Option String) (appLabel : String) : String :=
  match override with
  | .none => appLabel
  | .some label => if label = "" then appLabel else label

/-- The line `_postgresql_or_logged_noop` logs. -/
def skippingOperation (env : RlsEnv δ) (operation vendor : String) (m : AppModel) : String :=
  "Skipping " ++ operation ++ " on " ++ m.label ++ ": alias '" ++ env.dbAlias ++ "' has vendor '" ++ vendor ++
    "', which has no Row Level Security. The model keeps its ORM-layer tenant filtering; " ++
    "the RLS layer applies on PostgreSQL."

/-- The two gates, `_router_allows` and then `_postgresql_or_logged_noop`; the
lines logged. -/
def gated (env : RlsEnv δ) (operation : String) (m : AppModel) (act : Adopting δ (List String)) :
    Adopting δ (List String) :=
  if env.allowMigrateModel m = false then pure []
  else
    match env.vendor with
    | .postgresql => act
    | .other vendor => pure [skippingOperation env operation vendor m]

/-- `apps.get_model(self.app_label or app_label, self.model_name)`. -/
def resolving {α : Type} (apps : Apps) (override : Option String) (appLabel modelName : String)
    (act : AppModel → Adopting δ α) : Adopting δ α :=
  match apps.getModel (targetAppLabel override appLabel) modelName with
  | .none => throw (.raised (.other "LookupError"))
  | .some m => act m

structure EnableRLS where
  modelName : String
  appLabel : Option String := .none

structure CreateTenantPolicy where
  modelName : String
  tenantColumn : String := "tenant_id"
  appLabel : Option String := .none

structure DropTenantPolicy where
  modelName : String
  tenantColumn : String := "tenant_id"
  appLabel : Option String := .none

section

variable [DecidableEq δ]

def dropBoundaryPolicies (env : RlsEnv δ) (table : String) : Adopting δ Unit := do
  schemaExecute env.toAdoptionEnv (.dropPolicyIfExists table "boundary_tenant_isolation")
  schemaExecute env.toAdoptionEnv (.dropPolicyIfExists table "boundary_admin_bypass")

/-- `EnableRLS.database_forwards`; `apps` are `to_state.apps`. -/
def EnableRLS.databaseForwards (op : EnableRLS) (env : RlsEnv δ) (appLabel : String) (apps : Apps) :
    Adopting δ (List String) :=
  resolving apps op.appLabel appLabel op.modelName fun m => gated env "EnableRLS" m do
    schemaExecute env.toAdoptionEnv (.rowSecurity m.dbTable true)
    schemaExecute env.toAdoptionEnv (.forceRowSecurity m.dbTable true)
    pure []

/-- `EnableRLS.database_backwards`; `apps` are `from_state.apps`. -/
def EnableRLS.databaseBackwards (op : EnableRLS) (env : RlsEnv δ) (appLabel : String) (apps : Apps) :
    Adopting δ (List String) :=
  resolving apps op.appLabel appLabel op.modelName fun m => gated env "EnableRLS" m do
    dropBoundaryPolicies env m.dbTable
    schemaExecute env.toAdoptionEnv (.rowSecurity m.dbTable false)
    schemaExecute env.toAdoptionEnv (.forceRowSecurity m.dbTable false)
    pure []

/-- `s.removesuffix("_id")`. -/
def removeIdSuffix (s : String) : String :=
  if "_id".toList <:+ s.toList then String.ofList (s.toList.take (s.toList.length - 3)) else s

/-- `_detect_tenant_column_type`. -/
def CreateTenantPolicy.detectTenantColumnType (op : CreateTenantPolicy) (env : RlsEnv δ) (m : AppModel) :
    Except AdoptionError String :=
  match env.relatedPkDbType m (removeIdSuffix op.tenantColumn) with
  | .none => .error (.raised (.other "FieldDoesNotExist"))
  | .some dbType => .ok ((pgTypeMap dbType).getD "bigint")

/-- `CreateTenantPolicy.database_forwards`; `apps` are `to_state.apps`. -/
def CreateTenantPolicy.databaseForwards (op : CreateTenantPolicy) (env : RlsEnv δ) (appLabel : String) (apps : Apps) :
    Adopting δ (List String) :=
  resolving apps op.appLabel appLabel op.modelName fun m => gated env "CreateTenantPolicy" m do
    let pgType ← reading fun _ => op.detectTenantColumnType env m
    createTenantIdHelper env.toAdoptionEnv pgType
    createTenantPolicies env.toAdoptionEnv m.dbTable op.tenantColumn
    pure []

/-- `CreateTenantPolicy.database_backwards`; `apps` are `from_state.apps`. -/
def CreateTenantPolicy.databaseBackwards (op : CreateTenantPolicy) (env : RlsEnv δ) (appLabel : String)
    (apps : Apps) : Adopting δ (List String) :=
  resolving apps op.appLabel appLabel op.modelName fun m => gated env "CreateTenantPolicy" m do
    dropBoundaryPolicies env m.dbTable
    pure []

/-- `DropTenantPolicy.database_forwards`; `apps` are `to_state.apps`. -/
def DropTenantPolicy.databaseForwards (op : DropTenantPolicy) (env : RlsEnv δ) (appLabel : String) (apps : Apps) :
    Adopting δ (List String) :=
  resolving apps op.appLabel appLabel op.modelName fun m => gated env "DropTenantPolicy" m do
    dropBoundaryPolicies env m.dbTable
    pure []

/-- `DropTenantPolicy.database_backwards`; the apps are those of `from_state` and `to_state`. -/
def DropTenantPolicy.databaseBackwards (op : DropTenantPolicy) (env : RlsEnv δ) (appLabel : String)
    (fromApps toApps : Apps) : Adopting δ (List String) :=
  resolving fromApps op.appLabel appLabel op.modelName fun m => gated env "DropTenantPolicy" m do
    CreateTenantPolicy.databaseForwards ⟨op.modelName, op.tenantColumn, op.appLabel⟩ env appLabel toApps

end

/-! ## Sessions -/

abbrev SqlRow (δ : Type) := Sql.Tuple String δ

/-- A session, and what the server makes for it of what a text or a name says. -/
structure SqlSession (δ : Type) where
  /-- `current_setting(name, TRUE)`. -/
  currentSetting : String → Option String
  /-- The role is a superuser, or has `BYPASSRLS`. -/
  bypassRls : Bool := false
  /-- The role owns the tables. -/
  owner : Bool := false
  /-- `text::type`, which may raise. -/
  cast : String → String → Option δ
  /-- A condition, of a row; it may be NULL. -/
  condition : String → SqlRow δ → Option Bool
  /-- A default. -/
  value : String → Option δ
  /-- The keys of an index that are expressions, by their place. -/
  indexKey : String → Nat → SqlRow δ → Option δ
  /-- Whether a row meets the condition of an index, if it has one. -/
  covers : String → SqlRow δ → Bool
  /-- Whether a row meets a table's check constraints. -/
  checks : String → SqlRow δ → Bool

namespace SqlSession

variable (s : SqlSession δ) (cat : Catalogue δ) (table : String)

/-- `boundary_current_tenant_id()`: of a cast that raises, NULL. -/
def currentTenantId : Option δ :=
  cat.helper.bind fun helper => (s.currentSetting helper.sessionVar).bind fun setting =>
    if setting = "" then .none else s.cast helper.returns setting

/-- The truth of an expression in a row, which may be NULL. -/
def truth [DecidableEq δ] (r : SqlRow δ) : SqlExpr → Option Bool
  | .isCurrentTenantId column =>
    (r column).bind fun tenant => (s.currentTenantId cat).map fun current => decide (tenant = current)
  | .settingIs setting value => (s.currentSetting setting).map fun current => decide (current = value)
  | .currentTenantId => .none
  | .text sql => s.condition sql r

/-- What a column holds in a row that is inserted without it. -/
def defaultValue (c : Column) : Option δ :=
  match c.default with
  | .some .currentTenantId => s.currentTenantId cat
  | .some (.text sql) => s.value sql
  | _ => .none

/-- Whether the role is subject to the table's policies. -/
def subject (t : Table δ) : Bool := t.rowSecurity && !s.bypassRls && (t.forceRowSecurity || !s.owner)

/-- What a unique index holds of a row. -/
def indexTuple (i : UniqueIndex) (r : SqlRow δ) : Sql.Tuple Nat δ := fun place =>
  match i.keys[place]? with
  | .some (.some column) => r column
  | _ => s.indexKey i.name place r

def indexConflict (i : UniqueIndex) (r r' : SqlRow δ) : Prop :=
  s.covers i.name r = true ∧ s.covers i.name r' = true ∧
    (Sql.UniqueKey.mk (List.range i.keys.length) i.nullsNotDistinct).Conflict (s.indexTuple i r) (s.indexTuple i r')

instance [DecidableEq δ] (i : UniqueIndex) (r r' : SqlRow δ) : Decidable (s.indexConflict i r r') :=
  inferInstanceAs (Decidable (_ ∧ _ ∧ _))

/-- A table, open to the session. -/
def guard [DecidableEq δ] (t : Table δ) : Sql.Guard (SqlRow δ) where
  visible r := !s.subject t || (cat.policiesOf table).any fun p => s.truth cat r p.using_ = .some true
  writable r := !s.subject t ||
    (cat.policiesOf table).any fun p => s.truth cat r (p.withCheck.getD p.using_) = .some true
  valid r := (t.columns.all fun c => !c.notNull || (r c.name).isSome) && s.checks table r
  conflict r r' := ((cat.constraintsOf table).any fun c => decide (c.key.Conflict r r')) ||
    (cat.indexesOf table).any fun i => decide (s.indexConflict i r r')

end SqlSession

/-! ## Statements -/

/-- A column filled from a sequence. -/
structure Serial (δ : Type) where
  column : String
  value : Nat → δ
  injective : Function.Injective value

/-- What a statement gives for columns. -/
abbrev Given (δ : Type) := List (String × Option δ)

inductive RowStatement (δ : Type) where
  | select (where_ : List (SqlRow δ) → SqlRow δ → Bool)
  | insert (values : List (SqlRow δ) → List (Given δ))
  | update (where_ : List (SqlRow δ) → SqlRow δ → Bool) (set : List (SqlRow δ) → SqlRow δ → Given δ)
  | delete (where_ : List (SqlRow δ) → SqlRow δ → Bool)

section

variable (s : SqlSession δ) (cat : Catalogue δ) (t : Table δ) (serial : Serial δ)

/-- A row inserted with the `n`th value of the sequence. -/
def insertedRow (given : Given δ) (n : Nat) : SqlRow δ := fun column =>
  match t.column? column with
  | .none => .none
  | .some c =>
    match given.lookup column with
    | .some v => v
    | .none => if column = serial.column then .some (serial.value n) else s.defaultValue cat c

def updatedRow (given : Given δ) (r : SqlRow δ) : SqlRow δ := fun column => (given.lookup column).getD (r column)

def RowStatement.toDml : RowStatement δ → Sql.Dml (SqlRow δ)
  | select where_ => .select where_
  | insert values => .insert fun view => (values view).map (insertedRow s cat t serial)
  | update where_ set => .update where_ fun view r => updatedRow (set view r) r
  | delete where_ => .delete where_

/-- A sequence of statements on a table; their results, and what is left. -/
def runStatements [DecidableEq δ] (table : String) (stmts : List (RowStatement δ)) (h : Sql.Heap (SqlRow δ)) :
    List (Sql.Outcome (SqlRow δ)) × Sql.Heap (SqlRow δ) :=
  (s.guard cat table t).run (stmts.map (RowStatement.toDml s cat t serial)) h

end

end Boundary
