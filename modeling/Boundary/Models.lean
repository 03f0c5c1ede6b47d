/-
`boundary.models`: the rows of a tenant-scoped model, and the writes of its
managers that look a row up first.

What Django does between the manager and the database (`QuerySet`, `Model`)
is modelled where the manager relies on it: the parameters of a create are
the lookup updated by the defaults, an update assigns every entry of the
defaults. How other keywords filter, how keys are read and which constraints
the table has belong to the model class and are arbitrary.
-/
import Boundary.Context
import Mathlib.Data.List.AList

namespace Boundary

open Exec

/-- A value passed to the ORM. -/
inductive Value where
  /-- `None`. -/
  | null
  | tenant (t : TenantRef)
  | key (pk : PrimaryKey)
  | text (value : String)
deriving DecidableEq

/-- A `dict` of keyword arguments. -/
abbrev Dict := AList fun _ : String => Value

/-- A `dict` object, by identity. -/
abbrev DictRef := Nat

/-- A row; `tenant` is its tenant column, when its model has one. -/
structure Row where
  pk : PrimaryKey
  tenant : Option PrimaryKey
  columns : Dict

/-- A row in memory; `tenantId` is the attribute `<fk_field>_id`. -/
structure Instance where
  pk : Option PrimaryKey := .none
  tenantId : Value := .null
  columns : Dict := ∅
  skipAutoPopulate : Bool := false

def Instance.ofRow (row : Row) : Instance where
  pk := .some row.pk
  tenantId := match row.tenant with
    | .none => .null
    | .some pk => .key pk
  columns := row.columns

def hasDoubleUnderscore : List Char → Bool
  | [] => false
  | c :: cs => (c == '_' && cs.head? == .some '_') || hasDoubleUnderscore cs

/-- `LOOKUP_SEP in name`. -/
def hasLookupSep (name : String) : Bool := hasDoubleUnderscore name.toList

/-- A model class, as the managers see it. -/
structure ModelClass where
  name : String
  boundaryTenantPath : Option String := .none
  boundaryFkField : Option String := .none
  /-- Django's check of field names: no `__` in one, and no `_` at its end. -/
  fkFieldChecked : ∀ fk ∈ boundaryFkField, hasLookupSep fk = false ∧ hasLookupSep (fk ++ "_id") = false
  pkField : String := "id"
  /-- The name is a field's, or a property's with a setter. -/
  hasField : String → Bool
  /-- What a keyword of a lookup keeps, the tenant column's apart. -/
  keyword : String → Value → Except Exc (Row → Bool)
  /-- How its primary key, and the tenant model's, are read from a value. -/
  readKey : Value → Option PrimaryKey
  readTenantKey : String → Option PrimaryKey
  /-- The primary key the database gives a new row. -/
  nextKey : List Row → PrimaryKey
  /-- The table accepts the row beside the others. -/
  constraints : List Row → Row → Bool

namespace ModelClass

variable (m : ModelClass)

def hasTenantColumn : Bool :=
  match m.boundaryTenantPath with
  | .none | .some "" => m.boundaryFkField.isSome
  | .some _ => false

def getTenantLookup : Option String :=
  match m.boundaryTenantPath with
  | .none | .some "" => m.boundaryFkField
  | .some path => .some path

/-- `getattr(self.model, "_boundary_fk_field", "tenant")`. -/
def fkField : String := m.boundaryFkField.getD "tenant"

def fkIdField : String := m.fkField ++ "_id"

def isFk (name : String) : Bool := m.hasTenantColumn && name == m.fkField

def isFkId (name : String) : Bool := m.hasTenantColumn && name == m.fkIdField

end ModelClass

/-- What the calls work on: the world of the task, the `dict` objects its
code holds, and the table of the model. -/
structure Store where
  world : World
  dicts : DictRef → Dict
  rows : List Row

abbrev Orm := EStateM Exc Store

def context (x : M α) : Orm α := zoom Store.world (fun w s => { s with world := w }) x

def tenantsNow : Orm (TenantRef → Tenant) := fun s => .ok s.world.tenants s

/-! ## Instances -/

section

variable (st : Settings) (m : ModelClass) (tenants : TenantRef → Tenant)

def setattr (obj : Instance) (name : String) (value : Value) : Except Exc Instance :=
  if m.isFk name then
    match value with
    | .null => .ok { obj with tenantId := .null }
    | .tenant t => .ok { obj with tenantId := .key (tenants t).pk }
    -- `Cannot assign ...: must be a ... instance.`
    | _ => .error (.other "ValueError")
  else if m.isFkId name then .ok { obj with tenantId := value }
  else if name = "pk" ∨ name = m.pkField then
    match value with
    | .null => .ok { obj with pk := .none }
    | value =>
      match m.readKey value with
      | .some pk => .ok { obj with pk := .some pk }
      | .none => .error (.other "ValueError")
  else .ok { obj with columns := obj.columns.insert name value }

def setattrs (obj : Instance) (entries : List (Sigma fun _ : String => Value)) : Except Exc Instance :=
  entries.foldlM (fun obj e => setattr m tenants obj e.1 e.2) obj

/-- `Model(**kwargs)`. A foreign key is set by its name when that is given;
its `_id` form is then left over, and set after every field. -/
def instantiate (kwargs : Dict) : Except Exc Instance :=
  match kwargs.lookup m.fkIdField with
  | .none => setattrs m tenants {} kwargs.entries
  | .some value => do
    let obj ← setattrs m tenants {} (kwargs.erase m.fkIdField).entries
    setattr m tenants obj m.fkIdField value

/-- The tenant column of an instance, as it is sent to the database. -/
def prepTenantId : Value → Except Exc (Option PrimaryKey)
  | .null => .ok .none
  | .key pk => .ok (.some pk)
  | .text value =>
    match m.readTenantKey value with
    | .some pk => .ok (.some pk)
    | .none => .error (.other "ValueError")
  | .tenant _ => .error (.other "TypeError")

def insertRow (row : Row) : Orm Row := fun s =>
  if s.rows.any (·.pk == row.pk) || !m.constraints s.rows row then .error .integrityError s
  else .ok row { s with rows := s.rows ++ [row] }

def updateRow (row : Row) : Orm Row := fun s =>
  if !m.constraints (s.rows.filter (·.pk != row.pk)) row then .error .integrityError s
  else .ok row { s with rows := s.rows.map fun r => if r.pk = row.pk then row else r }

/-- `INSERT`, or `UPDATE` of the row with that primary key. The instances
saved here were read just before, so that to write `update_fields` alone and
to write every column are the same. -/
def writeRow (obj : Instance) (tenant : Option PrimaryKey) (forceInsert : Bool) : Orm Row := fun s =>
  match obj.pk with
  | .none => insertRow m { pk := m.nextKey s.rows, tenant, columns := obj.columns } s
  | .some pk =>
    if forceInsert || !s.rows.any (·.pk == pk) then insertRow m { pk, tenant, columns := obj.columns } s
    else updateRow m { pk, tenant, columns := obj.columns } s

/-- `models.Model.save`. -/
def baseSave (obj : Instance) (forceInsert : Bool) : Orm Row := do
  let tenant ← ofExcept (prepTenantId m obj.tenantId)
  writeRow m obj tenant forceInsert

/-- `save` of the tenant mixins. -/
def save (obj : Instance) (forceInsert : Bool) : Orm Row := do
  if m.hasTenantColumn && obj.tenantId == .null && !obj.skipAutoPopulate then
    let tenant ← context (TenantContext.require st)
    let tenants ← tenantsNow
    let obj ← ofExcept (setattr m tenants obj m.fkField (.tenant tenant))
    baseSave m obj forceInsert
  else baseSave m obj forceInsert

end

/-! ## Query sets -/

/-- A query set, as the rows it keeps. -/
abbrev QuerySet := Row → Bool

section

variable (st : Settings) (m : ModelClass) (tenants : TenantRef → Tenant)

def filterKeyword (name : String) (value : Value) : Except Exc QuerySet :=
  if m.isFk name || m.isFkId name then
    match value with
    | .tenant t => .ok fun row => row.tenant == .some (tenants t).pk
    | value =>
      match prepTenantId m value with
      | .ok pk => .ok fun row => row.tenant == pk
      | .error e => .error e
  else m.keyword name value

/-- `filter(**kwargs)` of a query set, evaluated on the rows. -/
def matching (rows : List Row) : QuerySet → List (Sigma fun _ : String => Value) → Except Exc (List Row)
  | qs, [] => .ok (rows.filter qs)
  | qs, e :: es =>
    match filterKeyword m tenants e.1 e.2 with
    | .ok keep => matching rows (fun row => qs row && keep row) es
    | .error err => .error err

/-- `get(**kwargs)`; `none` is `DoesNotExist`. -/
def QuerySet.get (qs : QuerySet) (kwargs : Dict) : Orm (Option Row) := fun s =>
  match matching m s.world.tenants s.rows qs kwargs.entries with
  | .ok [] => .ok .none s
  | .ok [row] => .ok (.some row) s
  | .ok _ => .error (.other "MultipleObjectsReturned") s
  | .error e => .error e s

def withoutLookups (kwargs : Dict) : Dict where
  entries := kwargs.entries.filter fun e => !hasLookupSep e.1
  nodupKeys := kwargs.nodupKeys.sublist List.filter_sublist

/-- `_extract_model_params`: the lookup, updated by the defaults. -/
def extractModelParams (defaults kwargs : Dict) : Except Exc Dict :=
  let params := defaults ∪ withoutLookups kwargs
  if params.keys.all m.hasField then .ok params else .error (.other "FieldError")

def QuerySet.create (params : Dict) : Orm Row := do
  let tenants ← tenantsNow
  let obj ← ofExcept (instantiate m tenants params)
  save st m obj true

def QuerySet.getOrCreate (qs : QuerySet) (defaults : Option Dict) (kwargs : Dict) : Orm (Row × Bool) := do
  match ← qs.get m kwargs with
  | .some row => pure (row, false)
  | .none =>
    let params ← ofExcept (extractModelParams m (defaults.getD ∅) kwargs)
    tryCatch (do
      let row ← QuerySet.create st m params
      pure (row, true)) fun e =>
        if e = .integrityError then do
          match ← qs.get m kwargs with
          | .some row => pure (row, false)
          | .none => throw e
        else throw e

/-- The transaction around it has nothing to take back: it writes last. -/
def QuerySet.updateOrCreate (qs : QuerySet) (defaults createDefaults : Option Dict) (kwargs : Dict) :
    Orm (Row × Bool) := do
  let updateDefaults := defaults.getD ∅
  let createDefaults := createDefaults.getD updateDefaults
  let (row, created) ← qs.getOrCreate st m (.some createDefaults) kwargs
  if created then pure (row, created)
  else
    let tenants ← tenantsNow
    let obj ← ofExcept (setattrs m tenants (.ofRow row) updateDefaults.entries)
    let row ← save st m obj false
    pure (row, false)

/-! ## The manager -/

namespace TenantManager

def getQueryset : Orm QuerySet := do
  match ← context TenantContext.get with
  | .some tenant =>
    let tenants ← tenantsNow
    ofExcept (filterKeyword m tenants (m.getTenantLookup.getD "tenant") (.tenant tenant))
  | .none =>
    if st.strictMode then
      throw <| .tenantNotSetError <|
        "Query on " ++ m.name ++ " attempted with no active " ++ st.tenantLabel ++ ". Set a " ++
          st.tenantLabel ++ " via TenantContext.using() or TenantMiddleware."
    else pure fun _ => true

/-- What is injected into one dictionary. -/
def inject (tenant : TenantRef) (d : Dict) : Dict :=
  if m.fkField ∉ d ∧ m.fkIdField ∉ d then d.insert m.fkField (.tenant tenant) else d

/-- Injection into one of the dictionaries of defaults, the caller's object. -/
def injectInto (tenant : TenantRef) : Option DictRef → Orm Unit
  | .none => pure ()
  | .some d => fun s => .ok () { s with dicts := Function.update s.dicts d (inject m tenant (s.dicts d)) }

/-- The keyword arguments are the call's own `dict`. -/
def injectTenantKwargs (lookup : Dict) (defaultsDicts : List (Option DictRef)) : Orm Dict :=
  if !m.hasTenantColumn then pure lookup
  else do
    let tenant ← context (TenantContext.require st)
    forM defaultsDicts (injectInto m tenant)
    pure (inject m tenant lookup)

/-- What a dictionary passed by reference holds now. -/
def contents (d : Option DictRef) : Orm (Option Dict) := fun s => .ok (d.map s.dicts) s

def getOrCreate (defaults : Option DictRef) (kwargs : Dict) : Orm (Row × Bool) := do
  let kwargs ← injectTenantKwargs st m kwargs [defaults]
  let qs ← getQueryset st m
  let defaults ← contents defaults
  qs.getOrCreate st m defaults kwargs

def updateOrCreate (defaults createDefaults : Option DictRef) (kwargs : Dict) : Orm (Row × Bool) := do
  let kwargs ← injectTenantKwargs st m kwargs [defaults, createDefaults]
  let qs ← getQueryset st m
  let defaults ← contents defaults
  let createDefaults ← contents createDefaults
  qs.updateOrCreate st m defaults createDefaults kwargs

end TenantManager

end

end Boundary
