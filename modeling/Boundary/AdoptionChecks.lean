/-
`boundary.E007` of `boundary.checks`: what it reports of one table that is
expected to be adopted.
-/
import Boundary.Adoption
import Boundary.CatalogueFacts

namespace Boundary

structure CheckError where
  msg : String
  hint : String
  id : String
deriving DecidableEq

def e007 (msg hint : String) : CheckError := ⟨msg, hint, "boundary.E007"⟩

/-- `Table '...' (model ...)`. -/
def tableOf (table label : String) : String := "Table '" ++ table ++ "' (model " ++ label ++ ")"

/-- `str(b)`. -/
def pyBool (b : Bool) : String := if b then "True" else "False"

/-- `', '.join(columns) or 'an expression'`. -/
def columnsText (columns : List String) : String :=
  if (", ".intercalate columns) = "" then "an expression" else ", ".intercalate columns

/-- What is reported of a unique form, a `constraint` or an `index`. -/
def uniqueFormError (m : AppModel) (form name : String) (columns : List String) : CheckError :=
  e007
    (tableOf m.dbTable m.label ++ " is an adopted table whose unique " ++ form ++ " '" ++ name ++ "' on (" ++
      columnsText columns ++ ") does not lead with tenant_id, so the value it constrains is unique across every " ++
      "tenant rather than within one.")
    ("Re-apply the AdoptTenantApp('" ++ m.appLabel ++ "') migration, which rewrites each unique form to lead with " ++
      "tenant_id. An upstream migration that dropped and recreated this " ++ form ++ " restored cross-tenant " ++
      "uniqueness with no other signal. See BR-RLS-012.")

def leadsWithTenantId (columns : List String) : Bool := columns.head? = .some "tenant_id"

section

variable {δ : Type} (server : Server δ) (cat : Catalogue δ) (m : AppModel)

/-- `_check_adopted_unique_forms`. -/
def checkAdoptedUniqueForms : List CheckError :=
  let constraints := uniqueConstraints server cat m.dbTable
  (constraints.filter fun c => !leadsWithTenantId c.columns).map
    (fun c => uniqueFormError m "constraint" c.name c.columns) ++
    ((uniqueIndexes server cat m.dbTable).filter fun i =>
        !i.primary && !(i.constraint.any fun name => name ∈ constraints.map UniqueConstraintRow.name) &&
          !leadsWithTenantId i.columns).map
      fun i => uniqueFormError m "index" i.name i.columns

/-- Condition 1. -/
def checkTenantColumn (expectedType : String) : List CheckError :=
  match columnType server cat m.dbTable "tenant_id" with
  | .none =>
    [e007 (tableOf m.dbTable m.label ++ " is expected to be adopted but has no tenant_id column.")
      ("Add a migration in your own app applying AdoptTenantApp('" ++ m.appLabel ++ "'). An adoption migration " ++
        "skips a table that is already adopted, so a second one adopts only what is new. See BR-RLS-017.")]
  | .some foundType =>
    if pgTypesMatch foundType expectedType then []
    else
      [e007
        (tableOf m.dbTable m.label ++ " has a tenant_id column of type '" ++ foundType ++
          "', but the configured tenant model's primary key derives type '" ++ expectedType ++ "'.")
        ("A tenant_id column of the wrong type cannot hold the tenant primary keys the isolation policy compares " ++
          "against. Reverse and re-apply the AdoptTenantApp migration for this app, or reconcile the tenant " ++
          "model's primary key type. See BR-RLS-011.")]

/-- Condition 2. -/
def checkRowSecurity (t : Table δ) : List CheckError :=
  if t.rowSecurity && t.forceRowSecurity then []
  else
    [e007
      (tableOf m.dbTable m.label ++ " is an adopted table without Row Level Security enabled and forced " ++
        "(relrowsecurity=" ++ pyBool t.rowSecurity ++ ", relforcerowsecurity=" ++ pyBool t.forceRowSecurity ++ ").")
      ("Re-apply the AdoptTenantApp('" ++ m.appLabel ++ "') migration, which enables and forces RLS as part of " ++
        "adopting the table. Without FORCE, the table owner is exempt from every policy on it. See BR-RLS-002.")]

/-- Conditions 3 and 4: a policy, and the rule it comes from. -/
def checkPolicy (policy rule : String) : List CheckError :=
  if policy ∈ policyNames server cat m.dbTable then []
  else
    [e007 (tableOf m.dbTable m.label ++ " is an adopted table missing the '" ++ policy ++ "' policy.")
      ("Re-apply the AdoptTenantApp('" ++ m.appLabel ++ "') migration, which creates both boundary policies as " ++
        "part of adopting the table. See " ++ rule ++ ".")]

/-- `_check_one_adopted_table`. A table that is not there is not reported. -/
def checkOneAdoptedTable (expectedType : String) : List CheckError :=
  match regclassTable server cat m.dbTable with
  | .none => []
  | .some t =>
    checkTenantColumn server cat m expectedType ++ checkRowSecurity m t ++
      checkPolicy server cat m "boundary_tenant_isolation" "BR-RLS-008" ++
      checkPolicy server cat m "boundary_admin_bypass" "BR-RLS-003" ++ checkAdoptedUniqueForms server cat m

end

/-! ## What the check reads -/

section

variable {δ : Type} {server : Server δ} {cat cat' : Catalogue δ} {m : AppModel} {expectedType read : String}

theorem regclassTable_eq (hreg : server.regclass m.dbTable = .some read) :
    regclassTable server cat m.dbTable = cat.tables read := by
  rw [regclassTable, hreg]
  rfl

/-- The check reads one table. -/
theorem checkOneAdoptedTable_congr (hreg : server.regclass m.dbTable = .some read)
    (hview : cat.view read = cat'.view read) :
    checkOneAdoptedTable server cat m expectedType = checkOneAdoptedTable server cat' m expectedType := by
  have htables : cat.tables read = cat'.tables read := congrArg TableView.table hview
  have hconstraints : cat.constraintsOf read = cat'.constraintsOf read := congrArg TableView.constraints hview
  have hindexes : cat.indexesOf read = cat'.indexesOf read := congrArg TableView.indexes hview
  have hpolicies : cat.policiesOf read = cat'.policiesOf read := congrArg TableView.policies hview
  simp only [checkOneAdoptedTable, checkTenantColumn, checkPolicy, checkAdoptedUniqueForms, columnType, regclassTable,
    policyNames, uniqueConstraints, uniqueIndexes, hreg, Option.bind_some, htables, hconstraints, hindexes, hpolicies]

/-- Nothing is reported of a text that names no table. -/
theorem checkOneAdoptedTable_absent (hnone : regclassTable server cat m.dbTable = .none) :
    checkOneAdoptedTable server cat m expectedType = [] := by
  rw [checkOneAdoptedTable, hnone]

/-- A table without the column is reported. -/
theorem column_of_check_eq_nil {t : Table δ} (hreg : server.regclass m.dbTable = .some read)
    (ht : cat.tables read = .some t) (hcheck : checkOneAdoptedTable server cat m expectedType = []) :
    (t.column? "tenant_id").isSome = true := by
  simp only [checkOneAdoptedTable, regclassTable_eq hreg, ht, List.append_eq_nil_iff] at hcheck
  obtain ⟨⟨⟨⟨hcolumn, -⟩, -⟩, -⟩, -⟩ := hcheck
  unfold checkTenantColumn at hcolumn
  cases htype : columnType server cat m.dbTable "tenant_id" with
  | none =>
    rw [htype] at hcolumn
    cases hcolumn
  | some type =>
    rw [columnType, regclassTable_eq hreg, ht, Option.bind_some, Option.map_eq_some_iff] at htype
    obtain ⟨c, hc, -⟩ := htype
    rw [hc]
    rfl

/-- No form is reported where each that is read, the primary key's apart, lists
`tenant_id` first. An index that backs a constraint is reported through it. -/
theorem checkAdoptedUniqueForms_eq_nil_iff :
    checkAdoptedUniqueForms server cat m = [] ↔ ∀ name, server.regclass m.dbTable = .some name →
      (∀ c ∈ cat.constraintsOf name, leadsWithTenantId c.columns = true) ∧
        ∀ i ∈ cat.indexesOf name, i.primary = false → leadsWithTenantId i.row.columns = true := by
  simp only [checkAdoptedUniqueForms, List.append_eq_nil_iff, List.map_eq_nil_iff, List.filter_eq_nil_iff]
  cases hreg : server.regclass m.dbTable with
  | none => simp [uniqueConstraints, uniqueIndexes, hreg]
  | some name =>
    have hrow : ∀ c, c ∈ uniqueConstraints server cat m.dbTable ↔ ∃ c' ∈ cat.constraintsOf name, c'.row = c := by
      intro c
      rw [uniqueConstraints, hreg, List.mem_insertionSort, List.mem_map]
    have hindexRow : ∀ i, i ∈ uniqueIndexes server cat m.dbTable ↔
        (∃ i' ∈ cat.indexesOf name, i'.row = i) ∨ ∃ c ∈ cat.constraintsOf name, c.indexRow = i := by
      intro i
      rw [uniqueIndexes, hreg, List.mem_insertionSort, List.mem_append, List.mem_map, List.mem_map]
    constructor
    · rintro ⟨hconstraints, hindexes⟩ name' hname
      obtain rfl := Option.some.inj hname
      refine ⟨fun c hc => ?_, fun i hi hbare => ?_⟩
      · simpa [UniqueConstraint.row] using hconstraints c.row ((hrow _).mpr ⟨c, hc, rfl⟩)
      · simpa [UniqueIndex.row, hbare] using hindexes i.row ((hindexRow _).mpr (.inl ⟨i, hi, rfl⟩))
    · intro hforms
      obtain ⟨hconstraints, hindexes⟩ := hforms name rfl
      refine ⟨fun c hc => ?_, fun i hi => ?_⟩
      · obtain ⟨c', hc', rfl⟩ := (hrow c).mp hc
        simpa [UniqueConstraint.row] using hconstraints c' hc'
      · rcases (hindexRow i).mp hi with ⟨i', hi', rfl⟩ | ⟨c', hc', rfl⟩
        · cases hprimary : i'.primary with
          | true => simp [UniqueIndex.row, hprimary]
          | false => simp [hindexes i' hi' hprimary]
        · have hbacked : c'.name ∈ (uniqueConstraints server cat m.dbTable).map UniqueConstraintRow.name :=
            List.mem_map.mpr ⟨c'.row, (hrow _).mpr ⟨c', hc', rfl⟩, rfl⟩
          simp only [UniqueConstraint.indexRow, Option.any_some, hbacked, decide_true, Bool.not_true, Bool.and_false,
            Bool.false_and, Bool.false_eq_true, not_false_iff]

/-- What a table must be for nothing to be reported. -/
structure Unreported (cat : Catalogue δ) (expectedType table : String) (t : Table δ) : Prop where
  column : ∃ c, t.column? "tenant_id" = .some c ∧ pgTypesMatch c.type expectedType = true
  security : t.rowSecurity = true ∧ t.forceRowSecurity = true
  isolation : "boundary_tenant_isolation" ∈ (cat.policiesOf table).map Policy.name
  bypass : "boundary_admin_bypass" ∈ (cat.policiesOf table).map Policy.name
  constraints : ∀ c ∈ cat.constraintsOf table, leadsWithTenantId c.columns = true
  indexes : ∀ i ∈ cat.indexesOf table, i.primary = true

theorem checkOneAdoptedTable_eq_nil {t : Table δ} (hreg : server.regclass m.dbTable = .some read)
    (ht : cat.tables read = .some t) (h : Unreported cat expectedType read t) :
    checkOneAdoptedTable server cat m expectedType = [] := by
  obtain ⟨c, hc, hmatch⟩ := h.column
  have hcolumn : checkTenantColumn server cat m expectedType = [] := by
    rw [checkTenantColumn, columnType, regclassTable_eq hreg, ht, Option.bind_some, hc, Option.map_some]
    exact if_pos hmatch
  have hsecurity : checkRowSecurity m t = [] := by
    rw [checkRowSecurity, h.security.1, h.security.2]
    rfl
  have hpolicy {policy rule : String} (hmem : policy ∈ (cat.policiesOf read).map Policy.name) :
      checkPolicy server cat m policy rule = [] := by
    rw [checkPolicy, policyNames, hreg]
    exact if_pos hmem
  have hforms : checkAdoptedUniqueForms server cat m = [] := by
    refine checkAdoptedUniqueForms_eq_nil_iff.mpr fun name hname => ?_
    obtain rfl := Option.some.inj (hreg.symm.trans hname)
    exact ⟨h.constraints, fun i hi hbare => by simp [h.indexes i hi] at hbare⟩
  simp only [checkOneAdoptedTable, regclassTable_eq hreg, ht, hcolumn, hsecurity, hpolicy h.isolation, hpolicy h.bypass,
    hforms, List.append_nil]

end

end Boundary
