/-
The PostgreSQL catalogue as the migration operations change it and as the
introspection helpers of `boundary.adoption` read it.

A quoted table name in a statement is the table's name; a name passed to
`to_regclass` is read as the server reads an unquoted one. Other columns'
types, check constraints, foreign keys (but for the unique constraints they
target) and privileges are left out, and so is the server's refusal to give a
function another return type.
-/
import Boundary.Database
import Boundary.Lib.Uniqueness
import Mathlib.Data.List.Sort

namespace Boundary

/-! ## Tables -/

/-- The SQL expressions boundary writes, and any other by its text. -/
inductive SqlExpr where
  /-- `boundary_current_tenant_id()`. -/
  | currentTenantId
  /-- `column = boundary_current_tenant_id()`. -/
  | isCurrentTenantId (column : String)
  /-- `current_setting(setting, TRUE) = value`. -/
  | settingIs (setting value : String)
  | text (sql : String)
deriving DecidableEq

structure Column where
  name : String
  type : String
  notNull : Bool := false
  default : Option SqlExpr := .none
deriving DecidableEq

/-- A table, but for its constraints, indexes and policies; `δ` are the values
other than NULL. -/
structure Table (δ : Type) where
  columns : List Column
  rows : List (Sql.Tuple String δ) := []
  rowSecurity : Bool := false
  forceRowSecurity : Bool := false

def Table.column? {δ : Type} (t : Table δ) (name : String) : Option Column := t.columns.find? (·.name = name)

/-- A row of `pg_constraint` with `contype = 'u'`. -/
structure UniqueConstraint where
  name : String
  table : String
  columns : List String
  included : List String := []
  deferrable : Bool := false
  nullsNotDistinct : Bool := false
  /-- A foreign key targets it. -/
  fkTargeted : Bool := false
deriving DecidableEq

def UniqueConstraint.key (c : UniqueConstraint) : Sql.UniqueKey String := ⟨c.columns, c.nullsNotDistinct⟩

/-- A row of `pg_index` with `indisunique` that backs no unique constraint: a
primary key's, or a bare one. A key that is an expression has no name. -/
structure UniqueIndex where
  name : String
  table : String
  keys : List (Option String)
  included : List String := []
  primary : Bool := false
  partial_ : Bool := false
  nullsNotDistinct : Bool := false
deriving DecidableEq

structure Policy where
  name : String
  table : String
  using_ : SqlExpr
  withCheck : Option SqlExpr := .none
deriving DecidableEq

/-- `boundary_current_tenant_id()`, as it was last created. -/
structure TenantIdHelper where
  returns : String
  sessionVar : String
  leakproof : Bool
deriving DecidableEq

structure Catalogue (δ : Type) where
  tables : String → Option (Table δ)
  constraints : List UniqueConstraint := []
  indexes : List UniqueIndex := []
  policies : List Policy := []
  helper : Option TenantIdHelper := .none
  /-- The schema's other relations. -/
  relations : List String := []
  names : (constraints.map UniqueConstraint.name).Nodup := by simp

/-- What is outside the catalogue. -/
structure Server (δ : Type) where
  /-- The relation of the search path that `to_regclass` takes a text to name. -/
  regclass : String → Option String
  regclass_self : ∀ {text name : String}, regclass text = .some name → regclass name = .some name
  /-- What the helper returns to the session that migrates. -/
  currentTenant : Option δ := .none
  /-- Whether values of the two types can be compared. -/
  comparable : String → String → Bool := fun type type' => type = type'

/-- What a failing statement raises: it names nothing there is, or something
there is already; or a constraint is violated; or something depends on what it
drops. -/
def programmingError : Exc := .other "ProgrammingError"

def dependentObjects : Exc := .other "InternalError"

namespace Catalogue

variable {δ : Type}

def constraintsOf (cat : Catalogue δ) (table : String) : List UniqueConstraint :=
  cat.constraints.filter (·.table = table)

def indexesOf (cat : Catalogue δ) (table : String) : List UniqueIndex := cat.indexes.filter (·.table = table)

def policiesOf (cat : Catalogue δ) (table : String) : List Policy := cat.policies.filter (·.table = table)

/-- Whether a relation of the schema has the name. -/
def nameInUse (cat : Catalogue δ) (name : String) : Bool :=
  (cat.tables name).isSome || cat.constraints.any (·.name = name) || cat.indexes.any (·.name = name) ||
    cat.relations.contains name

/-! ## Statements -/

section

variable (cat : Catalogue δ) (table : String)

/-- `ALTER TABLE "table" ...`, where what follows says what becomes of the table. -/
def alterTable (alter : Table δ → Except Exc (Table δ)) : Except Exc (Catalogue δ) :=
  match cat.tables table with
  | .none => .error programmingError
  | .some t => (alter t).map fun t' => { cat with tables := Function.update cat.tables table (.some t') }

/-- `ADD COLUMN`. The default is evaluated once, for all rows. -/
def addColumn (server : Server δ) (column : Column) : Except Exc (Catalogue δ) :=
  cat.alterTable table fun t =>
    let value := if column.default = .some .currentTenantId then server.currentTenant else .none
    if (t.column? column.name).isSome then .error programmingError
    else if column.notNull ∧ t.rows ≠ [] ∧ value.isNone then .error .integrityError
    else .ok { t with
      columns := t.columns ++ [column]
      rows := t.rows.map (Function.update · column.name value) }

/-- `ALTER COLUMN`. -/
def alterColumn (column : String) (alter : Column → Column) : Except Exc (Catalogue δ) :=
  cat.alterTable table fun t =>
    if (t.column? column).isNone then .error programmingError
    else .ok { t with columns := t.columns.map fun c => if c.name = column then alter c else c }

/-- `ALTER COLUMN ... SET NOT NULL`. -/
def setNotNull (column : String) : Except Exc (Catalogue δ) :=
  match cat.tables table with
  | .none => .error programmingError
  | .some t =>
    if t.rows.any fun r => (r column).isNone then .error .integrityError
    else cat.alterColumn table column fun c => { c with notNull := true }

/-- `ALTER COLUMN ... SET DEFAULT ...`. -/
def setDefault (column : String) (default : SqlExpr) : Except Exc (Catalogue δ) :=
  cat.alterColumn table column fun c => { c with default := .some default }

/-- `DROP COLUMN`, with the constraints and indexes that involve the column. -/
def dropColumn (column : String) : Except Exc (Catalogue δ) :=
  if (cat.policiesOf table).any fun p => p.using_ = .isCurrentTenantId column then .error dependentObjects
  else
    (cat.alterTable table fun t =>
      if (t.column? column).isNone then .error programmingError
      else .ok { t with columns := t.columns.filter (·.name ≠ column) }).map fun cat' =>
    { cat' with
      constraints := cat'.constraints.filter fun c => ¬ (c.table = table ∧ column ∈ c.columns ++ c.included)
      indexes := cat'.indexes.filter fun i => ¬ (i.table = table ∧ column ∈ i.keys.filterMap id ++ i.included)
      names := cat'.names.sublist (List.filter_sublist.map _) }

/-- `DROP CONSTRAINT`, of a unique constraint. -/
def dropConstraint (name : String) : Except Exc (Catalogue δ) :=
  match cat.constraints.find? fun c => c.table = table ∧ c.name = name with
  | .none => .error programmingError
  | .some c =>
    if c.fkTargeted then .error dependentObjects
    else .ok { cat with
      constraints := cat.constraints.filter fun c => c.name ≠ name
      names := cat.names.sublist (List.filter_sublist.map _) }

/-- The first 63 bytes of a name, in whole characters: what the server keeps of
an identifier. -/
def clipChars : Nat → List Char → List Char
  | _, [] => []
  | left, c :: cs => if c.utf8Size ≤ left then c :: clipChars (left - c.utf8Size) cs else []

def clip (name : String) : String := String.ofList (clipChars 63 name.toList)

/-- `ADD CONSTRAINT "name" UNIQUE (columns)`. -/
def addUnique [DecidableEq δ] (name : String) (columns : List String) : Except Exc (Catalogue δ) :=
  match cat.tables table with
  | .none => .error programmingError
  | .some t =>
    if hused : cat.nameInUse (clip name) = true then .error programmingError
    else if columns.any fun c => (t.column? c).isNone then .error programmingError
    else if (Sql.UniqueKey.mk columns false).Admits t.rows then
      .ok { cat with
        constraints := cat.constraints ++ [{ name := clip name, table, columns }]
        names := by
          have hfresh : ∀ c ∈ cat.constraints, c.name ≠ clip name := by simp_all [nameInUse]
          rw [List.map_append, List.map_singleton, List.nodup_append]
          refine ⟨cat.names, List.nodup_singleton _, fun a ha b hb => ?_⟩
          obtain ⟨c, hc, rfl⟩ := List.mem_map.mp ha
          rw [List.mem_singleton.mp hb]
          exact hfresh c hc }
    else .error .integrityError

/-- `UPDATE "table" SET column = value`, and the rows it affects. -/
def updateAll [DecidableEq δ] (column : String) (value : δ) : Except Exc (Catalogue δ × Nat) :=
  match cat.tables table with
  | .none => .error programmingError
  | .some t =>
    let rows := t.rows.map (Function.update · column (.some value))
    if (t.column? column).isNone then .error programmingError
    else if (cat.constraintsOf table).all fun c => decide (c.key.Admits rows) then
      .ok ({ cat with tables := Function.update cat.tables table (.some { t with rows }) }, t.rows.length)
    else .error .integrityError

/-- Whether an expression over a table's columns names what there is, and
compares what can be compared. -/
def wellTyped (server : Server δ) (t : Table δ) : SqlExpr → Bool
  | .currentTenantId => cat.helper.isSome
  | .isCurrentTenantId column =>
    (t.column? column).any fun c => cat.helper.any fun helper => server.comparable c.type helper.returns
  | .settingIs _ _ | .text _ => true

/-- `CREATE POLICY`. -/
def createPolicy (server : Server δ) (policy : Policy) : Except Exc (Catalogue δ) :=
  match cat.tables policy.table with
  | .none => .error programmingError
  | .some t =>
    if (cat.policiesOf policy.table).any (·.name = policy.name) then .error programmingError
    else if cat.wellTyped server t policy.using_ && policy.withCheck.all (cat.wellTyped server t) then
      .ok { cat with policies := cat.policies ++ [policy] }
    else .error programmingError

/-- `DROP POLICY IF EXISTS`; of a table that is not there, the server only
gives a notice. -/
def dropPolicyIfExists (name : String) : Catalogue δ :=
  { cat with policies := cat.policies.filter fun p => ¬ (p.table = table ∧ p.name = name) }

end

end Catalogue

/-- The statements the operations execute. -/
inductive Statement (δ : Type) where
  /-- `CREATE OR REPLACE FUNCTION boundary_current_tenant_id()`. -/
  | createHelper (helper : TenantIdHelper)
  | addColumn (table : String) (column : Column)
  | updateAll (table column : String) (value : δ)
  | setNotNull (table column : String)
  | setDefault (table column : String) (default : SqlExpr)
  | dropColumn (table column : String)
  | dropConstraint (table name : String)
  | addUnique (table name : String) (columns : List String)
  | rowSecurity (table : String) (enable : Bool)
  | forceRowSecurity (table : String) (force : Bool)
  | createPolicy (policy : Policy)
  | dropPolicyIfExists (table name : String)
deriving DecidableEq

namespace Statement

variable {δ : Type}

/-- The table a statement changes. -/
def table? : Statement δ → Option String
  | createHelper _ => .none
  | addColumn table _ | updateAll table _ _ | setNotNull table _ | setDefault table _ _ | dropColumn table _
  | dropConstraint table _ | addUnique table _ _ | rowSecurity table _ | forceRowSecurity table _
  | dropPolicyIfExists table _ => .some table
  | createPolicy policy => .some policy.table

/-- Whether the statement writes rows. -/
def isUpdateOf (table : String) : Statement δ → Bool
  | updateAll t _ _ => t = table
  | _ => false

/-- `ENABLE` or `FORCE ROW LEVEL SECURITY`. -/
def isSecurityOf (table : String) : Statement δ → Bool
  | rowSecurity t true | forceRowSecurity t true => t = table
  | _ => false

/-- Execute a statement; the number is the rows an `UPDATE` affects. -/
def exec [DecidableEq δ] (server : Server δ) (cat : Catalogue δ) : Statement δ → Except Exc (Catalogue δ × Nat)
  | createHelper helper => .ok ({ cat with helper := .some helper }, 0)
  | addColumn table column => (cat.addColumn table server column).map (·, 0)
  | updateAll table column value => cat.updateAll table column value
  | setNotNull table column => (cat.setNotNull table column).map (·, 0)
  | setDefault table column default => (cat.setDefault table column default).map (·, 0)
  | dropColumn table column => (cat.dropColumn table column).map (·, 0)
  | dropConstraint table name => (cat.dropConstraint table name).map (·, 0)
  | addUnique table name columns => (cat.addUnique table name columns).map (·, 0)
  | rowSecurity table enable => (cat.alterTable table fun t => .ok { t with rowSecurity := enable }).map (·, 0)
  | forceRowSecurity table force => (cat.alterTable table fun t => .ok { t with forceRowSecurity := force }).map (·, 0)
  | createPolicy policy => (cat.createPolicy server policy).map (·, 0)
  | dropPolicyIfExists table name => .ok (cat.dropPolicyIfExists table name, 0)

end Statement

/-! ## Introspection -/

/-- What `unique_constraints` reads of a constraint. -/
structure UniqueConstraintRow where
  name : String
  columns : List String
  deferrable : Bool
  fkTargeted : Bool
deriving DecidableEq

/-- What `unique_indexes` reads of an index. -/
structure UniqueIndexRow where
  name : String
  columns : List String
  primary : Bool
  partial_ : Bool
  expression : Bool
  constraint : Option String
deriving DecidableEq

def UniqueConstraint.row (c : UniqueConstraint) : UniqueConstraintRow := ⟨c.name, c.columns, c.deferrable, c.fkTargeted⟩

def UniqueConstraint.indexRow (c : UniqueConstraint) : UniqueIndexRow :=
  ⟨c.name, c.columns ++ c.included, false, false, false, .some c.name⟩

def UniqueIndex.row (i : UniqueIndex) : UniqueIndexRow :=
  ⟨i.name, i.keys.filterMap id ++ i.included, i.primary, i.partial_, i.keys.any Option.isNone,
    if i.primary then .some i.name else .none⟩

section

variable {δ : Type} (server : Server δ) (cat : Catalogue δ) (table : String)

/-- The table `to_regclass` finds. -/
def regclassTable : Option (Table δ) := (server.regclass table).bind cat.tables

/-- `column_type`. -/
def columnType (column : String) : Option String :=
  (regclassTable server cat table).bind fun t => (t.column? column).map Column.type

/-- `row_count`. -/
def rowCount : Except Exc Nat :=
  match cat.tables table with
  | .none => .error programmingError
  | .some t => .ok t.rows.length

/-- `unique_constraints`, in the order of their names. -/
def uniqueConstraints : List UniqueConstraintRow :=
  match server.regclass table with
  | .none => []
  | .some name => ((cat.constraintsOf name).map UniqueConstraint.row).insertionSort fun c c' => c.name ≤ c'.name

/-- `unique_indexes`, in the order of their names. -/
def uniqueIndexes : List UniqueIndexRow :=
  match server.regclass table with
  | .none => []
  | .some name =>
    ((cat.indexesOf name).map UniqueIndex.row ++ (cat.constraintsOf name).map UniqueConstraint.indexRow).insertionSort
      fun i i' => i.name ≤ i'.name

/-- `policy_names`. -/
def policyNames : List String :=
  match server.regclass table with
  | .none => []
  | .some name => (cat.policiesOf name).map Policy.name

end

end Boundary
