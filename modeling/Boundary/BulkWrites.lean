/-
`boundary.models`: the bulk writes of the managers, over whatever iterable of
instances the caller passes.

Django turns what it is passed into a list before it writes; `bulk_create`
inserts the instances with a primary key first, `bulk_update` writes one
`UPDATE`, and either is taken back as a whole. Neither calls `save`. What the
table accepts and which names are fields belong to the model class; the
options of `bulk_create` (conflicts, batches) are left out.
-/
import Boundary.Models

namespace Boundary

open Exec

/-- What is passed for `objs`: a container, or an iterator, which gives its
items to one loop only. -/
structure Objs where
  items : List Instance
  oneShot : Bool := false

/-- What it gives to the next loop, once a loop over it has left its items as
`items`. -/
def Objs.next (objs : Objs) (items : List Instance) : List Instance := if objs.oneShot then [] else items

/-- `transaction.atomic()` around writes to the table. -/
def atomically {α : Type} (x : Orm α) : Orm α := fun s =>
  onError x (fun s' => .ok () { s' with rows := s.rows }) s

/-! ## Query sets -/

section

variable (st : Settings) (m : ModelClass)

/-- One instance of a bulk insert. -/
def insertInstance (obj : Instance) : Orm Row := baseSave m obj true

def QuerySet.bulkCreate (objs : List Instance) : Orm (List Row) :=
  atomically do
    let withPk ← (objs.filter (·.pk.isSome)).mapM (insertInstance m)
    let withoutPk ← (objs.filter (·.pk.isNone)).mapM (insertInstance m)
    pure (withPk ++ withoutPk)

/-- `UPDATE`: each row `f` has a new version of is written, if the table
accepts it beside the others. -/
def updateFrom (f : Row → Option Row) (done : List Row) : List Row → Option (List Row)
  | [] => .some done
  | row :: rows =>
    match f row with
    | .none => updateFrom f (done ++ [row]) rows
    | .some row' => if m.constraints (done ++ rows) row' then updateFrom f (done ++ [row']) rows else .none

def updateRows (f : Row → Option Row) : Orm Nat := fun s =>
  match updateFrom m f [] s.rows with
  | .some rows => .ok (s.rows.countP fun row => (f row).isSome) { s with rows }
  | .none => .error .integrityError s

def isTenantField (name : String) : Bool := m.isFk name || m.isFkId name

/-- A field of a row, as an instance has it. -/
def assignField (obj : Instance) (tenant : Option PrimaryKey) (row : Row) (field : String) : Row :=
  if isTenantField m field then { row with tenant }
  else
    match obj.columns.lookup field with
    | .some value => { row with columns := row.columns.insert field value }
    | .none => { row with columns := row.columns.erase field }

def assignFields (fields : List String) (obj : Instance) (tenant : Option PrimaryKey) (row : Row) : Row :=
  fields.foldl (assignField m obj tenant) row

/-- The tenant column of an instance, when it is among the fields written. -/
def prepFields (fields : List String) (obj : Instance) : Except Exc (Instance × Option PrimaryKey) :=
  if fields.any (isTenantField m) then (prepTenantId m obj.tenantId).map (obj, ·) else .ok (obj, .none)

/-- `Case(When(pk=obj.pk, then=...), ...)` over the rows kept: the first
instance with a row's primary key gives its fields. -/
def updated (qs : QuerySet) (fields : List String) (objs : List (Instance × Option PrimaryKey)) (row : Row) : Option Row :=
  if qs row then
    (objs.find? fun obj => obj.1.pk == .some row.pk).map fun obj => assignFields m fields obj.1 obj.2 row
  else .none

/-- `checkFields` is what `_meta.get_field` and the tests of the fields it
finds make of their names. -/
def QuerySet.bulkUpdate (checkFields : List String → Except Exc Unit) (qs : QuerySet) (objs : List Instance)
    (fields : List String) : Orm Nat :=
  -- `Field names must be given to bulk_update().`
  if fields = [] then throw (.other "ValueError")
  -- `All bulk_update() objects must have a primary key set.`
  else if objs.any (·.pk.isNone) then throw (.other "ValueError")
  else do
    ofExcept (checkFields fields)
    if objs = [] then pure 0
    else do
      let objs ← ofExcept (objs.mapM (prepFields m fields))
      updateRows m (updated m qs fields objs)

/-! ## The managers -/

namespace TenantManager

/-- The body of `bulk_create`'s loop. -/
def stamp (tenants : TenantRef → Tenant) (tenant : TenantRef) (obj : Instance) : Except Exc Instance :=
  if obj.tenantId = .null then setattr m tenants obj m.fkField (.tenant tenant) else .ok obj

/-- `super().bulk_create`, of the query set `get_queryset` returns. -/
def superBulkCreate (objs : List Instance) : Orm (List Row) := do
  let _ ← getQueryset st m
  QuerySet.bulkCreate m objs

def superBulkUpdate (checkFields : List String → Except Exc Unit) (objs : List Instance) (fields : List String) :
    Orm Nat := do
  let qs ← getQueryset st m
  qs.bulkUpdate m checkFields objs fields

def bulkCreate (objs : Objs) : Orm (List Row) :=
  if !m.hasTenantColumn then superBulkCreate st m objs.items
  else do
    let tenant ← context (TenantContext.require st)
    let tenants ← tenantsNow
    let items ← ofExcept (objs.items.mapM (stamp m tenants tenant))
    superBulkCreate st m (objs.next items)

/-- `str` is how a text is made of an attribute. -/
def crossTenant (str : Value → String) (tenant : Tenant) (obj : Instance) : Exc :=
  .other <| "ValueError: " ++ m.name ++ " (pk=" ++ str (obj.pk.elim .null .key) ++ ") belongs to " ++
    st.tenantLabel ++ " " ++ str obj.tenantId ++ ", not the active " ++ st.tenantLabel ++ " " ++
    str (.key tenant.pk) ++ ". Cross-" ++ st.tenantLabel ++ " bulk_update is not allowed."

/-- The loop of `bulk_update`. -/
def checkTenants (str : Value → String) (tenant : Tenant) : List Instance → Except Exc Unit
  | [] => .ok ()
  | obj :: objs =>
    if obj.tenantId ≠ .key tenant.pk then .error (crossTenant st m str tenant obj) else checkTenants str tenant objs

def bulkUpdate (str : Value → String) (checkFields : List String → Except Exc Unit) (objs : Objs) (fields : List String) :
    Orm Nat :=
  if !m.hasTenantColumn then superBulkUpdate st m checkFields objs.items fields
  else do
    let tenant ← context (TenantContext.require st)
    let tenants ← tenantsNow
    ofExcept (checkTenants st m str (tenants tenant) objs.items)
    superBulkUpdate st m checkFields (objs.next objs.items) fields

/-- `abulk_create`, which Django's manager copies from the query set: it calls
the query set's own `bulk_create`. -/
def abulkCreate (objs : List Instance) : Orm (List Row) := superBulkCreate st m objs

def abulkUpdate (checkFields : List String → Except Exc Unit) (objs : List Instance) (fields : List String) : Orm Nat :=
  superBulkUpdate st m checkFields objs fields

/-- `objects.all()`. -/
def all : Orm QuerySet := getQueryset st m

end TenantManager

namespace UnscopedManager

/-- The query set keeps every row. -/
def bulkCreate (objs : Objs) : Orm (List Row) :=
  QuerySet.bulkCreate m (objs.next (objs.items.map ({ · with skipAutoPopulate := true })))

end UnscopedManager

end

end Boundary
