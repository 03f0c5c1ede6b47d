/-
What condition 5 of `boundary.E007` says of a table of which it reports
nothing: whether each unique index but the primary key's has `tenant_id` among
its keys, so that rows of different tenants do not conflict on it.

The check reads a projection: of an index its plain columns, those of its keys
and then those it only includes; the keys that are expressions leave no trace.
And it reads the table `to_regclass` takes the name for.
-/
import Boundary.AdoptionChecks
import Boundary.AdoptionFacts
import Boundary.RowLevelSecurity

namespace Boundary

variable {δ : Type}

/-! ## Soundness -/

/-- The unique forms of the table, but its primary key, have `tenant_id` among
their keys. -/
structure KeyedByTenant (cat : Catalogue δ) (table : String) : Prop where
  constraints : ∀ c ∈ cat.constraintsOf table, "tenant_id" ∈ c.columns
  indexes : ∀ i ∈ cat.indexesOf table, i.primary = false → .some "tenant_id" ∈ i.keys

/-- Rows of different tenants conflict on none of them, in any session. -/
def ApartByTenant (cat : Catalogue δ) (table : String) : Prop :=
  ∀ (s : SqlSession δ) (r r' : SqlRow δ), r "tenant_id" ≠ r' "tenant_id" →
    (∀ c ∈ cat.constraintsOf table, ¬ c.key.Conflict r r') ∧
      ∀ i ∈ cat.indexesOf table, i.primary = false → ¬ s.indexConflict i r r'

/-- Where nothing is reported, every form is keyed by the tenant. -/
def UniqueFormsSound (server : Server δ) (cat : Catalogue δ) (m : AppModel) : Prop :=
  checkAdoptedUniqueForms server cat m = [] → KeyedByTenant cat m.dbTable ∧ ApartByTenant cat m.dbTable

/-! ## The condition -/

/-- The keys are all expressions, and `tenant_id` is the first column that is
included. -/
def UniqueIndex.OnlyIncludesTenant (i : UniqueIndex) : Prop :=
  (∀ key ∈ i.keys, key = .none) ∧ i.included.head? = .some "tenant_id"

/-- A form of the table has another column as the first of its plain ones, or
has none. -/
def LeadsOtherwise (cat : Catalogue δ) (table : String) : Prop :=
  (∃ c ∈ cat.constraintsOf table, c.columns.head? ≠ .some "tenant_id") ∨
    ∃ i ∈ cat.indexesOf table, i.primary = false ∧ (i.keys.filterMap id ++ i.included).head? ≠ .some "tenant_id"

/-- Of a table that is read as itself no index only includes the tenant, if none
leads otherwise; of a table that another is read for, the forms of either decide. -/
def ReadsKeys (server : Server δ) (cat : Catalogue δ) (table : String) : Prop :=
  (∃ name, server.regclass table = .some name ∧ LeadsOtherwise cat name) ∨
    if server.regclass table = .some table then ∀ i ∈ cat.indexesOf table, i.primary = false → ¬ i.OnlyIncludesTenant
    else KeyedByTenant cat table

variable {server : Server δ} {cat : Catalogue δ} {m : AppModel} {table : String}

/-! ## Projections -/

/-- What the projection lists first is a key, unless no key is a column. -/
theorem mem_keys_of_leads {i : UniqueIndex} (hleads : (i.keys.filterMap id ++ i.included).head? = .some "tenant_id") :
    .some "tenant_id" ∈ i.keys ∨ i.OnlyIncludesTenant := by
  cases hkeys : i.keys.filterMap id with
  | nil =>
    rw [hkeys, List.nil_append] at hleads
    exact .inr ⟨List.filterMap_eq_nil_iff.mp hkeys, hleads⟩
  | cons column columns =>
    rw [hkeys] at hleads
    obtain rfl : column = "tenant_id" := Option.some.inj hleads
    have hmem : "tenant_id" ∈ i.keys.filterMap id := by
      rw [hkeys]
      exact List.mem_cons_self ..
    obtain ⟨key, hkey, hsome⟩ := List.mem_filterMap.mp hmem
    obtain rfl : key = .some "tenant_id" := hsome
    exact .inl hkey

theorem UniqueIndex.OnlyIncludesTenant.not_mem {i : UniqueIndex} (h : i.OnlyIncludesTenant) :
    .some "tenant_id" ∉ i.keys := fun hmem => by
  cases h.1 _ hmem

/-- Rows that differ in a key conflict on none of the forms. -/
theorem KeyedByTenant.apart (h : KeyedByTenant cat table) : ApartByTenant cat table := by
  intro s r r' hne
  refine ⟨fun c hc => ?_, fun i hi hbare hconflict => ?_⟩
  · exact Sql.UniqueKey.not_conflict_of_ne (h.constraints c hc) hne
  · obtain ⟨place, hplace, hkey⟩ := List.getElem_of_mem (h.indexes i hi hbare)
    have htuple : ∀ row, s.indexTuple i row place = row "tenant_id" := by
      intro row
      unfold SqlSession.indexTuple
      rw [List.getElem?_eq_getElem hplace, hkey]
    refine Sql.UniqueKey.not_conflict_of_ne (c := place) (List.mem_range.mpr hplace) ?_ hconflict.2.2
    rw [htuple, htuple]
    exact hne

/-! ## What is reported -/

/-- Nothing is reported where no form of the table that is read leads otherwise. -/
theorem checkAdoptedUniqueForms_eq_nil_iff_leads :
    checkAdoptedUniqueForms server cat m = [] ↔
      ∀ name, server.regclass m.dbTable = .some name → ¬ LeadsOtherwise cat name := by
  rw [checkAdoptedUniqueForms_eq_nil_iff]
  have hleads : ∀ columns, leadsWithTenantId columns = true ↔ columns.head? = .some "tenant_id" := by
    simp [leadsWithTenantId]
  refine forall₂_congr fun name _ => ?_
  simp only [LeadsOtherwise, hleads, not_or, not_exists, not_and, not_not]
  exact Iff.rfl

/-- Where no form leads otherwise, those that lack the key only include the tenant. -/
theorem keyedByTenant_iff (hleads : ¬ LeadsOtherwise cat table) :
    KeyedByTenant cat table ↔ ∀ i ∈ cat.indexesOf table, i.primary = false → ¬ i.OnlyIncludesTenant := by
  unfold LeadsOtherwise at hleads
  simp only [not_or, not_exists, not_and, not_not] at hleads
  obtain ⟨hconstraints, hindexes⟩ := hleads
  constructor
  · intro hkeyed i hi hbare honly
    exact honly.not_mem (hkeyed.indexes i hi hbare)
  · intro hnone
    refine ⟨fun c hc => List.mem_of_head? (hconstraints c hc), fun i hi hbare => ?_⟩
    exact (mem_keys_of_leads (hindexes i hi hbare)).resolve_right (hnone i hi hbare)

/-- The check is sound of a table where its projection shows the keys. -/
theorem uniqueFormsSound_iff (server : Server δ) (cat : Catalogue δ) (m : AppModel) :
    UniqueFormsSound server cat m ↔ ReadsKeys server cat m.dbTable := by
  unfold UniqueFormsSound ReadsKeys
  rw [checkAdoptedUniqueForms_eq_nil_iff_leads]
  by_cases hother : ∃ name, server.regclass m.dbTable = .some name ∧ LeadsOtherwise cat name
  · obtain ⟨name, hname, hleads⟩ := hother
    exact iff_of_true (fun hnone => absurd hleads (hnone name hname)) (.inl ⟨name, hname, hleads⟩)
  · have hnone : ∀ name, server.regclass m.dbTable = .some name → ¬ LeadsOtherwise cat name := by
      intro name hname hleads
      exact hother ⟨name, hname, hleads⟩
    have hkeyed : KeyedByTenant cat m.dbTable ∧ ApartByTenant cat m.dbTable ↔ KeyedByTenant cat m.dbTable :=
      and_iff_left_of_imp KeyedByTenant.apart
    rw [or_iff_right hother, hkeyed, imp_iff_right hnone]
    split
    next hself => exact keyedByTenant_iff (hnone _ hself)
    · exact Iff.rfl

/-! ## Widgets -/

namespace Widgets

/-- `CREATE UNIQUE INDEX ... ON shop_widget (lower(sku)) INCLUDE (tenant_id)`. -/
def lowerSku : UniqueIndex where
  name := "shop_widget_lower_sku"
  table := "shop_widget"
  keys := [.none]
  included := ["tenant_id"]

def widgetsTable : Table Nat where
  columns := [⟨"sku", "text", false, .none⟩, ⟨"tenant_id", "bigint", true, .some .currentTenantId⟩]

def lowerIndexed : Catalogue Nat where
  tables name := if name = "shop_widget" then .some widgetsTable else .none
  constraints := []
  indexes := [lowerSku]
  names := List.nodup_nil

/-- The same of a table whose name is folded when it is looked up. -/
def mixedCase : Catalogue Nat where
  tables name := if name = "Widget" then .some widgetsTable else .none
  constraints := []
  indexes := [⟨"Widget_sku", "Widget", [.some "sku"], [], false, false, false⟩]
  names := List.nodup_nil

/-- A session to which `lower(sku)` is the `sku`. -/
def lowerSession : SqlSession Nat where
  currentSetting _ := .none
  cast _ _ := .none
  condition _ _ := .none
  value _ := .none
  indexKey _ _ r := r "sku"
  covers _ _ := true
  checks _ _ := true

/-- A widget of the tenant. -/
def skuOf (tenant : Nat) : SqlRow Nat := fun column =>
  if column = "sku" then .some 7 else if column = "tenant_id" then .some tenant else .none

/-- Nothing is reported of an index that only includes the tenant, on which rows
of two tenants conflict; nor of a table that is not found. -/
theorem uniqueFormsSound_fails :
    (checkAdoptedUniqueForms (AdoptTenantApp.serverOf ["shop_widget"]) lowerIndexed
      (AdoptTenantApp.shopWidget "shop_widget") = [] ∧
      lowerSku ∈ lowerIndexed.indexesOf "shop_widget" ∧ skuOf 1 "tenant_id" ≠ skuOf 2 "tenant_id" ∧
      lowerSession.indexConflict lowerSku (skuOf 1) (skuOf 2) ∧
      ¬ UniqueFormsSound (AdoptTenantApp.serverOf ["shop_widget"]) lowerIndexed
        (AdoptTenantApp.shopWidget "shop_widget")) ∧
    ¬ UniqueFormsSound (AdoptTenantApp.serverOf ["Widget"]) mixedCase (AdoptTenantApp.shopWidget "Widget") := by
  have hcheck : checkAdoptedUniqueForms (AdoptTenantApp.serverOf ["shop_widget"]) lowerIndexed
      (AdoptTenantApp.shopWidget "shop_widget") = [] := by decide +kernel
  have hmixed : checkAdoptedUniqueForms (AdoptTenantApp.serverOf ["Widget"]) mixedCase
      (AdoptTenantApp.shopWidget "Widget") = [] := by decide +kernel
  refine ⟨⟨hcheck, by decide +kernel, by decide, by decide +kernel, fun hsound => ?_⟩, fun hsound => ?_⟩
  · exact absurd ((hsound hcheck).1.indexes lowerSku (by decide +kernel) rfl) (by decide)
  · exact absurd ((hsound hmixed).1.indexes ⟨"Widget_sku", "Widget", [.some "sku"], [], false, false, false⟩
      (by decide +kernel) rfl) (by decide)

end Widgets

end Boundary
