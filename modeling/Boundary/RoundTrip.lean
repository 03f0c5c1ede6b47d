/-
Adoption and its reversal are a round trip for tables whose unique constraints
are those their models declare, unless two of a model's declarations are of the
same columns: the reversal drops one composite for both.
-/
import Boundary.PlanThenApply
import Boundary.Reversal

namespace Boundary

open Exec

namespace AdoptTenantApp

variable {δ : Type}

/-- A table without the column whose unique constraints are those its model
declares; and what a server keeps of any table. -/
structure Declared (cat : Catalogue δ) (model : AppModel) : Prop where
  lacks : LacksTenantId cat model.dbTable
  unique : ((cat.constraintsOf model.dbTable).map UniqueConstraint.columns).Perm (historicalUniqueColumnSets model)
  /-- The rows satisfy the constraints, which are of columns of the table. -/
  admits : ∀ t, cat.tables model.dbTable = .some t → ∀ c ∈ cat.constraintsOf model.dbTable, c.key.Admits t.rows
  columns : ∀ t, cat.tables model.dbTable = .some t → ∀ c ∈ cat.constraintsOf model.dbTable,
    ∀ column ∈ c.columns ++ c.included, (t.column? column).isSome = true
  policies : ∀ p ∈ cat.policiesOf model.dbTable, p.using_ ≠ .isCurrentTenantId "tenant_id"

/-- The names the schema editor generates are unique. -/
structure FreshNames (env : AdoptionEnv δ) (cat : Catalogue δ) (models : List AppModel) : Prop where
  free : ∀ model ∈ models, ∀ columns ∈ historicalUniqueColumnSets model,
    cat.nameInUse (Catalogue.clip (env.uniqueName model.dbTable columns)) = false
  distinct : ∀ model ∈ models, ∀ model' ∈ models, ∀ columns ∈ historicalUniqueColumnSets model,
    ∀ columns' ∈ historicalUniqueColumnSets model',
      Catalogue.clip (env.uniqueName model.dbTable columns) = Catalogue.clip (env.uniqueName model'.dbTable columns') →
        model.dbTable = model'.dbTable ∧ columns = columns'

/-- A table that is as it was, but for the names of its constraints. -/
structure Restored (before after : Catalogue δ) (table : String) : Prop where
  column : ∃ t, after.tables table = .some t ∧ t.column? "tenant_id" = .none ∧ t.rowSecurity = false ∧
    t.forceRowSecurity = false
  policies : ∀ p ∈ after.policiesOf table, p.name ≠ "boundary_tenant_isolation" ∧ p.name ≠ "boundary_admin_bypass"
  unique : ((after.constraintsOf table).map UniqueConstraint.columns).Perm
    ((before.constraintsOf table).map UniqueConstraint.columns)

/-- The reversal completes, restores every table, and has nothing left to do. -/
def RoundTrips [DecidableEq δ] (op : AdoptTenantApp δ) (env : AdoptionEnv δ) (apps : Apps) (m m' : Migration δ) : Prop :=
  ∃ m'', op.databaseBackwards env apps m' = .ok () m'' ∧
    (∀ model ∈ op.admitted env apps, Restored m.catalogue m''.catalogue model.dbTable) ∧
    op.databaseBackwards env apps m'' = .ok () m''

/-- Each table is read as itself and is declared no column set twice; or it is
read as a table whose turn comes later. -/
def ReversibleInTurn (env : AdoptionEnv δ) : List AppModel → Prop
  | [] => True
  | model :: models =>
    ((env.regclass model.dbTable = .some model.dbTable ∧ (historicalUniqueColumnSets model).Nodup) ∨
      ∃ read ∈ models.map AppModel.dbTable, env.regclass model.dbTable = .some read) ∧
    ReversibleInTurn env models

variable {op : AdoptTenantApp δ} {env : AdoptionEnv δ} {apps : Apps} {models : List AppModel}
  {m m' : Migration δ} {plans : List AdoptionPlan} {plan : AdoptionPlan} {model : AppModel} {cat cat' : Catalogue δ}

theorem Restored.congr {before after after' : Catalogue δ} {table : String} (h : Restored before after table)
    (hview : after'.view table = after.view table) : Restored before after' table := by
  obtain ⟨t, ht, hcolumn⟩ := h.column
  refine ⟨⟨t, (tables_of_view hview).trans ht, hcolumn⟩, ?_, ?_⟩
  · rw [policiesOf_of_view hview]
    exact h.policies
  · rw [constraintsOf_of_view hview]
    exact h.unique

theorem not_hasTenantId {table : String} (h : LacksTenantId cat table) : ¬ HasTenantId cat table := by
  obtain ⟨t, ht, hnone⟩ := h
  rintro ⟨t', ht', hsome⟩
  obtain rfl := Option.some.inj (ht.symm.trans ht')
  rw [hnone] at hsome
  cases hsome

/-! ## The forward run -/

/-- Nothing is read of a table that is read as itself or as one of the set. -/
theorem columnType_of_inTurn (hdeclared : ∀ model ∈ models, LacksTenantId cat model.dbTable)
    (hturn : ReversibleInTurn env models) :
    ∀ model ∈ models, columnType env.toServer cat model.dbTable "tenant_id" = .none := by
  induction models with
  | nil => simp
  | cons first models ih =>
    intro model hmodel
    rcases List.mem_cons.mp hmodel with rfl | hmodel
    · obtain ⟨read, hread, hlacks⟩ : ∃ read, env.regclass model.dbTable = .some read ∧ LacksTenantId cat read := by
        rcases hturn.1 with ⟨hself, -⟩ | ⟨read, hmem, hread⟩
        · exact ⟨_, hself, hdeclared model (List.mem_cons_self ..)⟩
        · obtain ⟨model', hmodel', rfl⟩ := List.mem_map.mp hmem
          exact ⟨_, hread, hdeclared model' (List.mem_cons_of_mem _ hmodel')⟩
      rw [Option.eq_none_iff_forall_ne_some]
      intro type htype
      exact not_hasTenantId hlacks ((columnType_eq_some_iff hread).mp ⟨type, htype⟩)
    · exact ih (fun model hmodel => hdeclared model (List.mem_cons_of_mem _ hmodel)) hturn.2 model hmodel

section

variable (hrun : op.Completed env models m m' plans)
  (hnone : ∀ model ∈ models, columnType env.toServer m.catalogue model.dbTable "tenant_id" = .none)

include hrun hnone

/-- Every table then has a plan, and the tables are distinct. -/
theorem Completed.plans_tables : plans.map AdoptionPlan.table = models.map AppModel.dbTable := by
  rw [hrun.tables, List.filter_eq_self.mpr]
  intro model hmodel
  simp [hnone model hmodel]

theorem Completed.nodup_tables : (models.map AppModel.dbTable).Nodup := by
  rw [← hrun.plans_tables hnone]
  exact hrun.nodup

theorem Completed.plan_of_model (hmodel : model ∈ models) : ∃ plan ∈ plans, plan.table = model.dbTable := by
  refine List.mem_map.mp ?_
  rw [hrun.plans_tables hnone]
  exact List.mem_map_of_mem hmodel

theorem Completed.hasTenantId (hmodel : model ∈ models) : HasTenantId m'.catalogue model.dbTable := by
  obtain ⟨plan, hplan, htable⟩ := hrun.plan_of_model hnone hmodel
  obtain ⟨t, ht, hnot, hown, hview⟩ := hrun.adopted plan hplan
  rw [← htable]
  exact hasTenantId_of_adoptedView hview

end

/-! ## One table's turn -/

section

variable {table : String} {columnSets : List (List String)} {rs : List Replacement} {t : Table δ}

theorem mem_replacements {live : List UniqueConstraintRow} {r : Replacement}
    (hr : r ∈ replacements env table live columnSets) :
    ∃ columns ∈ columnSets, ∃ row, live.find? (·.columns = "tenant_id" :: columns) = .some row ∧
      r = ⟨row.name, env.uniqueName table columns, columns⟩ := by
  obtain ⟨columns, hcolumns, hr⟩ := List.mem_filterMap.mp hr
  obtain ⟨row, hrow, rfl⟩ := Option.map_eq_some_iff.mp hr
  exact ⟨columns, hcolumns, row, hrow, rfl⟩

/-- What is found of a column set is a constraint of the table. -/
theorem find_live (hself : env.regclass table = .some table) {columns : List String} {row : UniqueConstraintRow}
    (hfind : (uniqueConstraints env.toServer cat table).find? (·.columns = "tenant_id" :: columns) = .some row) :
    ∃ c ∈ cat.constraintsOf table, c.row = row ∧ c.columns = "tenant_id" :: columns := by
  have hmem := List.mem_of_find?_eq_some hfind
  rw [uniqueConstraints, hself, List.mem_insertionSort] at hmem
  obtain ⟨c, hc, rfl⟩ := List.mem_map.mp hmem
  have hcolumns : c.row.columns = "tenant_id" :: columns := by simpa using List.find?_some hfind
  exact ⟨c, hc, rfl, hcolumns⟩

/-- A composite that is there is found. -/
theorem find_composite (hself : env.regclass table = .some table) {columns : List String}
    (hthere : ∃ c ∈ cat.constraintsOf table, c.columns = "tenant_id" :: columns) :
    ∃ row, (uniqueConstraints env.toServer cat table).find? (·.columns = "tenant_id" :: columns) = .some row := by
  obtain ⟨c, hc, hcolumns⟩ := hthere
  refine Option.isSome_iff_exists.mp (List.find?_isSome.mpr ⟨c.row, ?_, decide_eq_true hcolumns⟩)
  rw [uniqueConstraints, hself, List.mem_insertionSort]
  exact List.mem_map_of_mem hc

/-- Where there is a composite of every column set, each is found. -/
theorem replacements_columns (hself : env.regclass table = .some table)
    (hthere : ∀ columns ∈ columnSets, ∃ c ∈ cat.constraintsOf table, c.columns = "tenant_id" :: columns) :
    (replacements env table (uniqueConstraints env.toServer cat table) columnSets).map Replacement.columns =
      columnSets := by
  induction columnSets with
  | nil => rfl
  | cons columns columnSets ih =>
    obtain ⟨row, hrow⟩ := find_composite hself (hthere columns (List.mem_cons_self ..))
    have hrest := ih fun columns' hmem => hthere columns' (List.mem_cons_of_mem _ hmem)
    unfold replacements at hrest ⊢
    rw [List.filterMap_cons, hrow, Option.map_some]
    simp only [List.map_cons, hrest]

/-- Distinct column sets find constraints of distinct names. -/
theorem nodup_found (hself : env.regclass table = .some table) (hnodup : columnSets.Nodup) :
    ((replacements env table (uniqueConstraints env.toServer cat table) columnSets).map Replacement.dropped).Nodup := by
  unfold replacements
  rw [List.map_filterMap]
  refine hnodup.filterMap fun columns columns' name hname hname' => ?_
  simp only [Option.map_map, Option.mem_def, Option.map_eq_some_iff, Function.comp_apply] at hname hname'
  obtain ⟨row, hfind, rfl⟩ := hname
  obtain ⟨row', hfind', hsame⟩ := hname'
  obtain ⟨c, hc, rfl, hcolumns⟩ := find_live hself hfind
  obtain ⟨c', hc', rfl, hcolumns'⟩ := find_live hself hfind'
  obtain rfl := List.inj_on_of_nodup_map cat.names (mem_constraintsOf.mp hc).1 (mem_constraintsOf.mp hc').1 hsame.symm
  exact List.tail_eq_of_cons_eq (hcolumns.symm.trans hcolumns')

/-- The composites of a table that was adopted may each be replaced. -/
theorem replaceable_of_self (hself : env.regclass table = .some table) (hnodup : columnSets.Nodup)
    (htargeted : ∀ c ∈ cat.constraintsOf table, c.fkTargeted = false)
    (hthere : ∀ columns ∈ columnSets, ∃ c ∈ cat.constraintsOf table, c.columns = "tenant_id" :: columns)
    (hfree : ∀ columns ∈ columnSets, cat.nameInUse (Catalogue.clip (env.uniqueName table columns)) = false)
    (hdistinct : ∀ columns ∈ columnSets, ∀ columns' ∈ columnSets,
      Catalogue.clip (env.uniqueName table columns) = Catalogue.clip (env.uniqueName table columns') → columns = columns')
    (hcolumns : ∀ columns ∈ columnSets, ∀ column ∈ columns, (t.column? column).isSome = true)
    (hadmits : ∀ columns ∈ columnSets, (Sql.UniqueKey.mk columns false).Admits t.rows) :
    Replaceable cat table t (replacements env table (uniqueConstraints env.toServer cat table) columnSets) where
  dropped := nodup_found hself hnodup
  there r hr := by
    obtain ⟨columns, -, row, hfind, rfl⟩ := mem_replacements hr
    obtain ⟨c, hc, rfl, -⟩ := find_live hself hfind
    exact ⟨c, hc, rfl, htargeted c hc⟩
  added := by
    have hnames : (replacements env table (uniqueConstraints env.toServer cat table) columnSets).map
        (fun r => Catalogue.clip r.added) = columnSets.map fun columns =>
          Catalogue.clip (env.uniqueName table columns) := by
      conv_rhs => rw [← replacements_columns hself hthere, List.map_map]
      refine List.map_congr_left fun r hr => ?_
      obtain ⟨columns, -, row, -, rfl⟩ := mem_replacements hr
      rfl
    rw [hnames]
    exact hnodup.map_on hdistinct
  free r hr := by
    obtain ⟨columns, hmem, row, -, rfl⟩ := mem_replacements hr
    exact hfree columns hmem
  columns r hr := by
    obtain ⟨columns, hmem, row, -, rfl⟩ := mem_replacements hr
    exact hcolumns columns hmem
  admits r hr := by
    obtain ⟨columns, hmem, row, -, rfl⟩ := mem_replacements hr
    exact hadmits columns hmem

/-- The composites go with the column, and what replaced them stays. -/
theorem unadoptedView_composites (hcomposites : ∀ c ∈ cat.constraintsOf table, "tenant_id" ∈ c.columns)
    (hcolumns : ∀ r ∈ rs, "tenant_id" ∉ r.columns) :
    (unadoptedView cat table t rs).constraints.map UniqueConstraint.columns = rs.map Replacement.columns := by
  have hgone : ((cat.constraintsOf table).filter (·.name ∉ rs.map Replacement.dropped)).filter
      (fun c => "tenant_id" ∉ c.columns ++ c.included) = [] := by
    rw [List.filter_eq_nil_iff]
    intro c hc
    simp [hcomposites c (List.mem_of_mem_filter hc)]
  have hkept : (rs.map (Replacement.constraint table)).filter (fun c => "tenant_id" ∉ c.columns ++ c.included) =
      rs.map (Replacement.constraint table) := by
    rw [List.filter_eq_self]
    intro c hc
    obtain ⟨r, hr, rfl⟩ := List.mem_map.mp hc
    simp [Replacement.constraint, hcolumns r hr]
  simp only [unadoptedView]
  rw [List.filter_append, hgone, hkept, List.nil_append, List.map_map]
  rfl

/-- Constraints that were not replaced are as they were. -/
theorem unadoptedView_originals
    (hcolumns : ∀ c ∈ cat.constraintsOf table, "tenant_id" ∉ c.columns ++ c.included) :
    (unadoptedView cat table t []).constraints = cat.constraintsOf table := by
  simp only [unadoptedView, List.map_nil, List.append_nil]
  rw [List.filter_eq_self.mpr, List.filter_eq_self.mpr]
  · intro c _
    simp
  · intro c hc
    simpa using hcolumns c (List.mem_of_mem_filter hc)

/-- A table whose view a reversal left is restored, when its constraints are. -/
theorem restored_of_unadoptedView {before : Catalogue δ} (hview : cat'.view table = unadoptedView cat table t rs)
    (hunique : ((unadoptedView cat table t rs).constraints.map UniqueConstraint.columns).Perm
      ((before.constraintsOf table).map UniqueConstraint.columns)) : Restored before cat' table where
  column := ⟨_, tables_of_view hview, unadopted_column? t, rfl, rfl⟩
  policies p hp := by
    rw [policiesOf_of_view hview] at hp
    simpa using (List.mem_filter.mp hp).2
  unique := by
    rw [constraintsOf_of_view hview]
    exact hunique

end

/-- A declared table's constraints are of columns other than the tenant's. -/
theorem Declared.tenant_id_not_mem (h : Declared cat model) :
    ∀ c ∈ cat.constraintsOf model.dbTable, "tenant_id" ∉ c.columns ++ c.included := by
  intro c hc hmem
  obtain ⟨t, ht, hlacks⟩ := h.lacks
  have hsome := h.columns t ht c hc _ hmem
  rw [hlacks] at hsome
  cases hsome

theorem Declared.constraint_of (h : Declared cat model) {columns : List String}
    (hcolumns : columns ∈ historicalUniqueColumnSets model) :
    ∃ c ∈ cat.constraintsOf model.dbTable, c.columns = columns :=
  List.mem_map.mp (h.unique.mem_iff.mpr hcolumns)

theorem mem_otherPolicies {p : Policy} {policies : List Policy} {flag table : String}
    (hp : p ∈ otherPolicies (policies ++ [tenantIsolation table "tenant_id", adminBypassPolicy flag table])) :
    p ∈ policies := by
  obtain ⟨hmem, hname⟩ := List.mem_filter.mp hp
  simp only [List.mem_append, List.mem_cons, List.not_mem_nil, or_false] at hmem
  rcases hmem with hmem | rfl | rfl
  · exact hmem
  · simp [tenantIsolation] at hname
  · simp [adminBypassPolicy] at hname

/-- A turn that restores its table, changes no other and takes no name but of
the columns declared. -/
structure Turn [DecidableEq δ] (env : AdoptionEnv δ) (before : Catalogue δ) (model : AppModel) (s s' : Migration δ) :
    Prop where
  run : unadoptTable env model s = .ok () s'
  elsewhere : ∀ name, name ≠ model.dbTable → s'.catalogue.view name = s.catalogue.view name
  restored : Restored before s'.catalogue model.dbTable
  names : ∀ name, s'.catalogue.nameInUse name = true → s.catalogue.nameInUse name = true ∨
    ∃ columns ∈ historicalUniqueColumnSets model, Catalogue.clip (env.uniqueName model.dbTable columns) = name

/-- The composites of a table that is adopted are of the declared sets. -/
theorem composites_columns {s : Migration δ} (hrun : op.Completed env models m m' plans)
    (hnone : ∀ model ∈ models, columnType env.toServer m.catalogue model.dbTable "tenant_id" = .none)
    (hmodel : model ∈ models) (hdeclared : Declared m.catalogue model)
    (hsame : s.catalogue.view model.dbTable = m'.catalogue.view model.dbTable)
    (hself : env.regclass model.dbTable = .some model.dbTable) :
    ((s.catalogue.constraintsOf model.dbTable).map UniqueConstraint.columns).Perm
      ((historicalUniqueColumnSets model).map ("tenant_id" :: ·)) := by
  obtain ⟨plan, hplan, htable⟩ := hrun.plan_of_model hnone hmodel
  have hforwards := hrun.unique_of_self hplan (htable ▸ hself)
  rw [htable] at hforwards
  rw [constraintsOf_of_view hsame]
  refine hforwards.trans ?_
  have hdeclaredSets := hdeclared.unique.map ("tenant_id" :: ·)
  rw [List.map_map] at hdeclaredSets
  exact hdeclaredSets

section

variable [DecidableEq δ] {s : Migration δ} (hlive : env.editor = .live) (hrun : op.Completed env models m m' plans)
  (hnone : ∀ model ∈ models, columnType env.toServer m.catalogue model.dbTable "tenant_id" = .none)
  (hmodel : model ∈ models) (hdeclared : Declared m.catalogue model)
  (hsame : s.catalogue.view model.dbTable = m'.catalogue.view model.dbTable)

include hlive hrun hnone hmodel hdeclared hsame

/-- A table that is adopted has its turn, when what is read of it has its column
and what is found of it may be replaced. -/
theorem turn_of_replaceable {read : String} {rs : List Replacement} (hread : env.regclass model.dbTable = .some read)
    (hthere : HasTenantId s.catalogue read)
    (hrs : replacements env model.dbTable (uniqueConstraints env.toServer s.catalogue model.dbTable)
      (historicalUniqueColumnSets model) = rs)
    (hreplaceable : ∀ t, m.catalogue.tables model.dbTable = .some t →
      ∀ t', s.catalogue.tables model.dbTable = .some t' → t'.rows = t.rows.map op.stamp →
        (∀ column, (t.column? column).isSome = true → (t'.column? column).isSome = true) →
        Replaceable s.catalogue model.dbTable t' rs)
    (hunique : ∀ t, ((unadoptedView s.catalogue model.dbTable t rs).constraints.map UniqueConstraint.columns).Perm
      ((m.catalogue.constraintsOf model.dbTable).map UniqueConstraint.columns)) :
    ∃ s', Turn env m.catalogue model s s' := by
  obtain ⟨plan, hplan, htable⟩ := hrun.plan_of_model hnone hmodel
  obtain ⟨t, ht, hlacks, hown, hview⟩ := hrun.adopted plan hplan
  obtain ⟨t', ht', hcolumn⟩ : HasTenantId s.catalogue model.dbTable :=
    (hasTenantId_congr hsame).mpr (hrun.hasTenantId hnone hmodel)
  rw [htable] at ht
  have hadopted : s.catalogue.view model.dbTable = op.adoptedView env m.catalogue plan t := by
    rw [hsame, ← htable]
    exact hview
  obtain rfl := Option.some.inj (ht'.symm.trans (tables_of_view hadopted))
  obtain ⟨type, htype⟩ := (columnType_eq_some_iff hread).mpr hthere
  have hcolumns : ∀ column, (t.column? column).isSome = true →
      (Table.column? (op.withTenantColumn plan.pgType t) column).isSome = true := by
    intro column hsome
    rw [Table.column?, withTenantColumn, List.find?_append]
    simp only [Table.column?] at hsome
    simp [hsome]
  have hpolicies : ∀ p ∈ otherPolicies (s.catalogue.policiesOf model.dbTable),
      p.using_ ≠ .isCurrentTenantId "tenant_id" := by
    intro p hp
    rw [policiesOf_of_view hadopted] at hp
    have hmem := mem_otherPolicies hp
    rw [htable] at hmem
    exact hdeclared.policies p hmem
  obtain ⟨s', hs', hleaves, hnames⟩ := unadoptTable_succeeds hlive htype ht' hcolumn hpolicies hrs
    (hreplaceable t ht _ ht' rfl hcolumns)
  refine ⟨s', hs', hleaves.elsewhere, restored_of_unadoptedView hleaves.here (hunique _), fun name hname => ?_⟩
  rcases hnames name hname with hname | ⟨r, hr, hname⟩
  · exact .inl hname
  · rw [← hrs] at hr
    obtain ⟨columns, hcolumns, row, -, rfl⟩ := mem_replacements hr
    exact .inr ⟨columns, hcolumns, hname⟩

/-- The turn of a table that is read as itself. -/
theorem turn_self (hself : env.regclass model.dbTable = .some model.dbTable)
    (hnodup : (historicalUniqueColumnSets model).Nodup)
    (hfree : ∀ columns ∈ historicalUniqueColumnSets model,
      s.catalogue.nameInUse (Catalogue.clip (env.uniqueName model.dbTable columns)) = false)
    (hdistinct : ∀ columns ∈ historicalUniqueColumnSets model, ∀ columns' ∈ historicalUniqueColumnSets model,
      Catalogue.clip (env.uniqueName model.dbTable columns) = Catalogue.clip (env.uniqueName model.dbTable columns') →
        columns = columns') :
    ∃ s', Turn env m.catalogue model s s' := by
  obtain ⟨plan, hplan, htable⟩ := hrun.plan_of_model hnone hmodel
  have hselfPlan : env.regclass plan.table = .some plan.table := htable ▸ hself
  -- the composites, and the declared sets they are of
  have hcomposites : s.catalogue.constraintsOf model.dbTable = plan.rewrites.map (composite env plan.table) := by
    rw [constraintsOf_of_view hsame, ← htable]
    exact hrun.constraints_of_self hplan hselfPlan
  have hsets := composites_columns hrun hnone hmodel hdeclared hsame hself
  have hthere : ∀ columns ∈ historicalUniqueColumnSets model,
      ∃ c ∈ s.catalogue.constraintsOf model.dbTable, c.columns = "tenant_id" :: columns := fun columns hcolumns =>
    List.mem_map.mp (hsets.mem_iff.mpr (List.mem_map_of_mem hcolumns))
  have htargeted : ∀ c ∈ s.catalogue.constraintsOf model.dbTable, c.fkTargeted = false := by
    intro c hc
    rw [hcomposites] at hc
    obtain ⟨rewrite, -, rfl⟩ := List.mem_map.mp hc
    rfl
  have hwithout : ∀ columns ∈ historicalUniqueColumnSets model, "tenant_id" ∉ columns := by
    intro columns hcolumns
    obtain ⟨c, hc, rfl⟩ := hdeclared.constraint_of hcolumns
    exact fun hmem => hdeclared.tenant_id_not_mem c hc (List.mem_append_left _ hmem)
  refine turn_of_replaceable hlive hrun hnone hmodel hdeclared hsame hself
    ((hasTenantId_congr hsame).mpr (hrun.hasTenantId hnone hmodel)) rfl ?_ fun t => ?_
  · intro t ht t' ht' hrows hkept
    refine replaceable_of_self hself hnodup htargeted hthere hfree hdistinct ?_ ?_
    · intro columns hcolumns column hmem
      obtain ⟨c, hc, rfl⟩ := hdeclared.constraint_of hcolumns
      exact hkept column (hdeclared.columns t ht c hc column (List.mem_append_left _ hmem))
    · intro columns hcolumns
      obtain ⟨c, hc, rfl⟩ := hdeclared.constraint_of hcolumns
      rw [hrows]
      refine (hdeclared.admits t ht c hc).distinct.map fun r column hcolumn => ?_
      exact stamp_of_ne fun heq => hwithout _ hcolumns (heq ▸ hcolumn)
  · rw [unadoptedView_composites, replacements_columns hself hthere]
    · exact hdeclared.unique.symm
    · intro c hc
      obtain ⟨columns, -, hcolumns⟩ := List.mem_map.mp (hsets.mem_iff.mp (List.mem_map_of_mem hc))
      rw [← hcolumns]
      exact List.mem_cons_self ..
    · intro r hr
      obtain ⟨columns, hcolumns, row, -, rfl⟩ := mem_replacements hr
      exact hwithout columns hcolumns

/-- The turn of a table that is read as another that is adopted still: it had
nothing to rewrite, and nothing is found of it. -/
theorem turn_later {read : String} (hread : env.regclass model.dbTable = .some read) (hne : read ≠ model.dbTable)
    (hmem : read ∈ models.map AppModel.dbTable) (hreadSame : s.catalogue.view read = m'.catalogue.view read) :
    ∃ s', Turn env m.catalogue model s s' := by
  obtain ⟨plan, hplan, htable⟩ := hrun.plan_of_model hnone hmodel
  obtain ⟨t, ht, hlacks, hown, hview⟩ := hrun.adopted plan hplan
  obtain ⟨-, -, hplanned⟩ := hrun.planned plan hplan
  obtain ⟨other, hother, rfl⟩ := List.mem_map.mp hmem
  obtain ⟨plan', hplan', htable'⟩ := hrun.plan_of_model hnone hother
  have hnil : plan.rewrites = [] := by
    refine hown.resolve_left fun hself => hne ?_
    rw [htable] at hself
    exact Option.some.inj (hread.symm.trans hself)
  have hunread : uniqueConstraints env.toServer m.catalogue model.dbTable = [] := by
    have hrewrites := hplanned.rewrites
    rw [hnil, htable] at hrewrites
    exact List.map_eq_nil_iff.mp hrewrites.symm
  -- the table that is read has no unique constraint, before or after
  have hselfOther : env.regclass other.dbTable = .some other.dbTable := env.regclass_self hread
  have hlive₁ : uniqueConstraints env.toServer s.catalogue model.dbTable = [] := by
    have hconstraints : s.catalogue.constraintsOf other.dbTable = [] := by
      rw [constraintsOf_of_view hreadSame, ← htable']
      refine (hrun.constraints_of_self hplan' (htable' ▸ hselfOther)).trans ?_
      have hrewrites' := (hrun.planned plan' hplan').2.2.rewrites
      have hsameRead : uniqueConstraints env.toServer m.catalogue plan'.table =
          uniqueConstraints env.toServer m.catalogue model.dbTable := by
        rw [htable', uniqueConstraints, uniqueConstraints, hselfOther, hread]
      rw [hrewrites', hsameRead, hunread]
      rfl
    rw [uniqueConstraints, hread]
    simp only [hconstraints]
    rfl
  have hrs : replacements env model.dbTable (uniqueConstraints env.toServer s.catalogue model.dbTable)
      (historicalUniqueColumnSets model) = [] := by
    rw [hlive₁]
    simp [replacements]
  have hconstraints : s.catalogue.constraintsOf model.dbTable = m.catalogue.constraintsOf model.dbTable := by
    rw [constraintsOf_of_view hsame, ← htable, hview]
    simp [adoptedView, hnil]
  refine turn_of_replaceable hlive hrun hnone hmodel hdeclared hsame hread
    ((hasTenantId_congr hreadSame).mpr (hrun.hasTenantId hnone hother)) hrs ?_ fun t => ?_
  · intro t ht t' ht' hrows hkept
    exact ⟨by simp, by simp, by simp, by simp, by simp, by simp⟩
  · rw [unadoptedView_originals (hconstraints ▸ hdeclared.tenant_id_not_mem), hconstraints]

end

/-! ## The whole reversal -/

section

variable [DecidableEq δ] {s s' : Migration δ} {todo : List AppModel}

variable (hlive : env.editor = .live) (hrun : op.Completed env models m m' plans)
  (hnone : ∀ model ∈ models, columnType env.toServer m.catalogue model.dbTable "tenant_id" = .none)
  (hdeclared : ∀ model ∈ models, Declared m.catalogue model) (hnames : FreshNames env m'.catalogue models)

include hlive hrun hnone hdeclared hnames

/-- Every turn is taken, whatever the turns before it left of their tables. -/
theorem unadoptTables_restores (hsub : ∀ model ∈ todo, model ∈ models) (hturn : ReversibleInTurn env todo)
    (hnodup : (todo.map AppModel.dbTable).Nodup)
    (hsame : ∀ model ∈ todo, s.catalogue.view model.dbTable = m'.catalogue.view model.dbTable)
    (hfree : ∀ model ∈ todo, ∀ columns ∈ historicalUniqueColumnSets model,
      s.catalogue.nameInUse (Catalogue.clip (env.uniqueName model.dbTable columns)) = false) :
    ∃ s', unadoptTables env todo s = .ok () s' ∧
      ∀ model ∈ todo, Restored m.catalogue s'.catalogue model.dbTable := by
  induction todo generalizing s with
  | nil => exact ⟨s, rfl, by simp⟩
  | cons model todo ih =>
    have hfirst : model ∈ model :: todo := List.mem_cons_self ..
    have hmodel := hsub model hfirst
    rw [List.map_cons, List.nodup_cons] at hnodup
    obtain ⟨s₁, hs₁⟩ : ∃ s₁, Turn env m.catalogue model s s₁ := by
      rcases hturn.1 with ⟨hself, hsets⟩ | ⟨read, hmem, hread⟩
      · exact turn_self hlive hrun hnone hmodel (hdeclared model hmodel) (hsame model hfirst) hself hsets
          (hfree model hfirst) fun columns hcolumns columns' hcolumns' hclip =>
            (hnames.distinct model hmodel model hmodel columns hcolumns columns' hcolumns' hclip).2
      · obtain ⟨other, hother, rfl⟩ := List.mem_map.mp hmem
        have hne : other.dbTable ≠ model.dbTable := fun heq => hnodup.1 (heq ▸ hmem)
        exact turn_later hlive hrun hnone hmodel (hdeclared model hmodel) (hsame model hfirst) hread hne
          (List.mem_map_of_mem (hsub other (List.mem_cons_of_mem _ hother))) (hsame other (List.mem_cons_of_mem _ hother))
    have hother : ∀ other ∈ todo, other.dbTable ≠ model.dbTable :=
      fun other hmem heq => hnodup.1 (heq ▸ List.mem_map_of_mem hmem)
    obtain ⟨s', hs', hrestored⟩ := ih (fun other hmem => hsub other (List.mem_cons_of_mem _ hmem)) hturn.2 hnodup.2
      (fun other hmem => (hs₁.elsewhere _ (hother other hmem)).trans (hsame other (List.mem_cons_of_mem _ hmem)))
      (fun other hmem columns hcolumns => by
        by_contra huse
        rcases hs₁.names _ (by simpa using huse) with huse | ⟨columns', hcolumns', hclip⟩
        · rw [hfree other (List.mem_cons_of_mem _ hmem) columns hcolumns] at huse
          cases huse
        · exact hother other hmem (hnames.distinct model hmodel other (hsub other (List.mem_cons_of_mem _ hmem))
            columns' hcolumns' columns hcolumns hclip).1.symm)
    refine ⟨s', unadoptTables_cons.mpr ⟨s₁, hs₁.run, hs'⟩, fun other hmem => ?_⟩
    rcases List.mem_cons.mp hmem with rfl | hmem
    · exact hs₁.restored.congr (unadoptTables_elsewhere hlive hs' hnodup.1)
    · exact hrestored other hmem

/-- A turn that was taken of a table read as itself found each declared set once. -/
theorem nodup_of_turn (hmodel : model ∈ models) (hself : env.regclass model.dbTable = .some model.dbTable)
    (hsame : s.catalogue.view model.dbTable = m'.catalogue.view model.dbTable)
    (h : unadoptTable env model s = .ok () s') : (historicalUniqueColumnSets model).Nodup := by
  obtain ⟨type, hread⟩ := (columnType_eq_some_iff hself).mpr
    ((hasTenantId_congr hsame).mpr (hrun.hasTenantId hnone hmodel))
  have hsets := composites_columns hrun hnone hmodel (hdeclared model hmodel) hsame hself
  obtain ⟨hexec, -, -⟩ := (unadoptTable_ok_iff hlive hread).mp h
  obtain ⟨cat₁, -, hexec⟩ := execAll_append_ok_iff.mp hexec
  obtain ⟨cat₂, hrestore, -⟩ := execAll_append_ok_iff.mp hexec
  have hdropped := nodup_dropped hrestore fun r hr r' hr' hclip => by
    obtain ⟨columns, hcolumns, row, -, rfl⟩ := mem_replacements hr
    obtain ⟨columns', -, row', hfind', rfl⟩ := mem_replacements hr'
    obtain ⟨c, hc, rfl, -⟩ := find_live hself hfind'
    rw [constraintsOf_of_view hsame] at hc
    exact not_mem_of_not_nameInUse (hnames.free model hmodel columns hcolumns) (mem_constraintsOf.mp hc).1 hclip.symm
  rw [List.nodup_iff_sublist]
  intro columns htwice
  -- both find the same composite
  have hfound := ((htwice.filterMap fun columns => ((uniqueConstraints env.toServer s.catalogue model.dbTable).find?
    (·.columns = "tenant_id" :: columns)).map fun c =>
      Replacement.mk c.name (env.uniqueName model.dbTable columns) columns).map Replacement.dropped)
  obtain ⟨row, hrow⟩ := find_composite hself
    (List.mem_map.mp (hsets.mem_iff.mpr (List.mem_map_of_mem (htwice.subset (List.mem_cons_self ..)))))
  simp only [List.filterMap_cons, hrow, Option.map_some, List.filterMap_nil, List.map_cons, List.map_nil] at hfound
  exact List.nodup_iff_sublist.mp hdropped row.name hfound

/-- A run in which every table loses its column took every turn. -/
theorem reversibleInTurn_of_run (hsub : ∀ model ∈ todo, model ∈ models) (hnodup : (todo.map AppModel.dbTable).Nodup)
    (hsame : ∀ model ∈ todo, s.catalogue.view model.dbTable = m'.catalogue.view model.dbTable)
    (hdone : ∀ model ∈ models, model.dbTable ∉ todo.map AppModel.dbTable →
      env.regclass model.dbTable = .some model.dbTable → ¬ HasTenantId s.catalogue model.dbTable)
    (houtside : ∀ name, name ∉ models.map AppModel.dbTable → s.catalogue.view name = m'.catalogue.view name)
    (h : unadoptTables env todo s = .ok () s')
    (hlost : ∀ model ∈ todo, ¬ HasTenantId s'.catalogue model.dbTable) : ReversibleInTurn env todo := by
  induction todo generalizing s with
  | nil => trivial
  | cons model todo ih =>
    have hfirst : model ∈ model :: todo := List.mem_cons_self ..
    have hmodel := hsub model hfirst
    rw [List.map_cons, List.nodup_cons] at hnodup
    obtain ⟨s₁, hs₁, hs'⟩ := unadoptTables_cons.mp h
    have hhas : HasTenantId s.catalogue model.dbTable :=
      (hasTenantId_congr (hsame model hfirst)).mpr (hrun.hasTenantId hnone hmodel)
    obtain ⟨type, hread⟩ : ∃ type, columnType env.toServer s.catalogue model.dbTable "tenant_id" = .some type := by
      by_contra hunread
      have habsent : columnType env.toServer s.catalogue model.dbTable "tenant_id" = .none :=
        Option.eq_none_iff_forall_ne_some.mpr fun type htype => hunread ⟨type, htype⟩
      rw [unadoptTable_absent habsent] at hs₁
      cases hs₁
      exact hlost model hfirst ((hasTenantId_congr (unadoptTables_elsewhere hlive hs' hnodup.1)).mpr hhas)
    have hlater : ∀ other ∈ todo, other.dbTable ≠ model.dbTable :=
      fun other hmem heq => hnodup.1 (heq ▸ List.mem_map_of_mem hmem)
    refine ⟨?_, ih (fun other hmem => hsub other (List.mem_cons_of_mem _ hmem)) hnodup.2 ?_ ?_ ?_ hs'
      fun other hmem => hlost other (List.mem_cons_of_mem _ hmem)⟩
    · cases hreg : env.regclass model.dbTable with
      | none =>
        rw [columnType_of_unread hreg] at hread
        cases hread
      | some read =>
        have hthere := (columnType_eq_some_iff hreg).mp ⟨type, hread⟩
        by_cases hself : read = model.dbTable
        · subst hself
          exact .inl ⟨rfl, nodup_of_turn hlive hrun hnone hdeclared hnames hmodel hreg (hsame model hfirst) hs₁⟩
        · refine .inr ⟨read, ?_, rfl⟩
          by_contra hnot
          -- what is read has had its turn, or is none of the set's
          by_cases hset : read ∈ models.map AppModel.dbTable
          · obtain ⟨other, hother, rfl⟩ := List.mem_map.mp hset
            refine hdone other hother ?_ (env.regclass_self hreg) hthere
            rw [List.map_cons, List.mem_cons, not_or]
            exact ⟨hself, hnot⟩
          · have hbefore : HasTenantId m.catalogue read :=
              (hasTenantId_congr ((houtside read hset).trans (hrun.outside hset))).mp hthere
            obtain ⟨type', htype'⟩ := (columnType_eq_some_iff hreg).mpr hbefore
            rw [hnone model hmodel] at htype'
            cases htype'
    · intro other hmem
      exact (unadoptTable_elsewhere hlive hs₁ (hlater other hmem)).trans (hsame other (List.mem_cons_of_mem _ hmem))
    · intro other hother hnot hself
      by_cases heq : other.dbTable = model.dbTable
      · rw [heq]
        exact (unadoptTable_ok hlive hread hs₁).2
      · rw [hasTenantId_congr (unadoptTable_elsewhere hlive hs₁ heq)]
        refine hdone other hother ?_ hself
        rw [List.map_cons, List.mem_cons, not_or]
        exact ⟨heq, hnot⟩
    · intro name hname
      have hne : name ≠ model.dbTable := fun heq => hname (heq ▸ List.mem_map_of_mem hmodel)
      exact (unadoptTable_elsewhere hlive hs₁ hne).trans (houtside name hname)

end

section

variable [DecidableEq δ] {s s' : Migration δ} {todo : List AppModel}

/-- A table that lacks its column, and is read as one that has it and keeps it,
cannot have its turn. -/
theorem unadoptTables_fails {read : String} (hlive : env.editor = .live) (h : unadoptTables env todo s = .ok () s')
    (hmodel : model ∈ todo) (hlacks : ¬ HasTenantId s.catalogue model.dbTable)
    (hread : env.regclass model.dbTable = .some read) (hthere : HasTenantId s.catalogue read)
    (hkept : read ∉ todo.map AppModel.dbTable) : False := by
  induction todo generalizing s with
  | nil => cases hmodel
  | cons first todo ih =>
    obtain ⟨s₁, hs₁, hs'⟩ := unadoptTables_cons.mp h
    rw [List.map_cons, List.mem_cons, not_or] at hkept
    by_cases heq : model.dbTable = first.dbTable
    · obtain ⟨type, htype⟩ := (columnType_eq_some_iff hread).mpr hthere
      rw [heq] at htype hlacks
      exact hlacks (unadoptTable_ok hlive htype hs₁).1
    · have hmem : model ∈ todo := (List.mem_cons.mp hmodel).resolve_left fun h => heq (h ▸ rfl)
      refine ih hs' hmem ?_ ?_ hkept.2
      · rw [hasTenantId_congr (unadoptTable_elsewhere hlive hs₁ heq)]
        exact hlacks
      · rw [hasTenantId_congr (unadoptTable_elsewhere hlive hs₁ hkept.1)]
        exact hthere

/-- Every table of a reversal that completes was one that forwards adopted. -/
theorem unread_of_run (hlive : env.editor = .live) (hrun : op.Completed env models m m' plans)
    (hlacks : ∀ model ∈ models, LacksTenantId m.catalogue model.dbTable)
    (h : unadoptTables env models m' = .ok () s') :
    ∀ model ∈ models, columnType env.toServer m.catalogue model.dbTable "tenant_id" = .none := by
  intro model hmodel
  rw [Option.eq_none_iff_forall_ne_some]
  intro type htype
  cases hreg : env.regclass model.dbTable with
  | none =>
    rw [columnType_of_unread hreg] at htype
    cases htype
  | some read =>
    have hthere := (columnType_eq_some_iff hreg).mp ⟨type, htype⟩
    have hout : read ∉ models.map AppModel.dbTable := by
      intro hmem
      obtain ⟨other, hother, rfl⟩ := List.mem_map.mp hmem
      exact not_hasTenantId (hlacks other hother) hthere
    have hunplanned : model.dbTable ∉ plans.map AdoptionPlan.table := by
      rw [hrun.tables]
      intro hmem
      obtain ⟨other, hother, htable⟩ := List.mem_map.mp hmem
      have hisNone := (List.mem_filter.mp hother).2
      rw [htable, htype] at hisNone
      cases hisNone
    refine unadoptTables_fails hlive h hmodel ?_ hreg ((hasTenantId_congr (hrun.outside hout)).mpr hthere) hout
    rw [hasTenantId_congr (hrun.elsewhere _ hunplanned)]
    exact not_hasTenantId (hlacks model hmodel)

/-- Where forwards completed, the gates of backwards are open. -/
theorem databaseBackwards_run (h : op.databaseForwards env apps m = .ok () m') (s : Migration δ) :
    op.databaseBackwards env apps s = unadoptTables env (op.admitted env apps) s := by
  unfold databaseForwards at h
  unfold databaseBackwards
  cases hrefusal : refusalReason op.appLabel apps with
  | some refusal =>
    rw [hrefusal] at h
    cases h
  | none =>
    rw [hrefusal] at h
    have hinstalled : ¬ (apps.models op.appLabel).isNone = true := by
      intro hnone
      unfold refusalReason at hrefusal
      split at hrefusal
      · cases hrefusal
      · cases hrefusal
    by_cases hempty : (adoptedModels env.conf env.apps op.appLabel apps op.exclude).isEmpty = true
    · simp only [if_pos hempty] at h
      cases h
    by_cases hnone : (op.admitted env apps).isEmpty = true
    · rw [if_neg hinstalled, if_pos hnone, List.isEmpty_iff.mp hnone]
      rfl
    · simp only [if_neg hempty, if_neg hnone] at h
      obtain ⟨_, m₁, hvendor, -⟩ := bind_ok_iff.mp h
      rw [if_neg hinstalled, if_neg hnone, bind_run, reading, (reading_ok_iff.mp hvendor).1]

end

/-- Where the tables of the set lack their column and have the unique constraints
they are declared, adoption and its reversal are a round trip exactly when each
table is read as itself and declared no column set twice, or is read as one
that is reversed later. -/
theorem databaseForwards_roundTrips [DecidableEq δ] (hlive : env.editor = .live)
    (h : op.databaseForwards env apps m = .ok () m')
    (hdeclared : ∀ model ∈ op.admitted env apps, Declared m.catalogue model)
    (hnames : FreshNames env m'.catalogue (op.admitted env apps)) :
    op.RoundTrips env apps m m' ↔ ReversibleInTurn env (op.admitted env apps) := by
  obtain ⟨plans, hrun⟩ := databaseForwards_completed hlive h
  have hlacks : ∀ model ∈ op.admitted env apps, LacksTenantId m.catalogue model.dbTable :=
    fun model hmodel => (hdeclared model hmodel).lacks
  unfold RoundTrips
  simp only [databaseBackwards_run h]
  constructor
  · rintro ⟨m'', hback, hrestored, -⟩
    have hnone := unread_of_run hlive hrun hlacks hback
    refine reversibleInTurn_of_run hlive hrun hnone hdeclared hnames (fun _ => id) (hrun.nodup_tables hnone)
      (fun _ _ => rfl) (fun model hmodel hnot _ => absurd (List.mem_map_of_mem hmodel) hnot) (fun _ _ => rfl) hback
      fun model hmodel => not_hasTenantId ?_
    obtain ⟨t, ht, hcolumn, -⟩ := (hrestored model hmodel).column
    exact ⟨t, ht, hcolumn⟩
  · intro hturn
    have hnone := columnType_of_inTurn hlacks hturn
    obtain ⟨m'', hback, hrestored⟩ := unadoptTables_restores hlive hrun hnone hdeclared hnames (fun _ => id) hturn
      (hrun.nodup_tables hnone) (fun _ _ => rfl) hnames.free
    refine ⟨m'', hback, hrestored, unadoptTables_absent (columnType_of_inTurn (fun model hmodel => ?_) hturn)⟩
    obtain ⟨t, ht, hcolumn, -⟩ := (hrestored model hmodel).column
    exact ⟨t, ht, hcolumn⟩

theorem declared_shop : Declared (shopOf "shop_widget").catalogue (shopWidget "shop_widget") where
  lacks := ⟨_, rfl, by decide +kernel⟩
  unique := by decide +kernel
  admits t ht := by
    obtain rfl := Option.some.inj ht
    decide +kernel
  columns t ht := by
    obtain rfl := Option.some.inj ht
    decide +kernel
  policies := by decide +kernel

theorem databaseForwards_roundTrips_shop :
    ∃ m', adoptShop.databaseForwards (shopEnv (shopWidget "shop_widget")) (shopApps (shopWidget "shop_widget"))
        (shopOf "shop_widget") = .ok () m' ∧
      adoptShop.RoundTrips (shopEnv (shopWidget "shop_widget")) (shopApps (shopWidget "shop_widget"))
        (shopOf "shop_widget") m' := by
  obtain ⟨m', hrun⟩ : ∃ m', adoptShop.databaseForwards (shopEnv (shopWidget "shop_widget"))
      (shopApps (shopWidget "shop_widget")) (shopOf "shop_widget") = .ok () m' := exists_of_isOk (by decide +kernel)
  refine ⟨m', hrun, (databaseForwards_roundTrips rfl hrun (fun model hmodel => ?_) ⟨fun model hmodel => ?_,
    fun model hmodel model' hmodel' => ?_⟩).mpr ?_⟩
  · obtain rfl := admitted_shop hmodel
    exact declared_shop
  · obtain rfl := admitted_shop hmodel
    rw [← after_of_ok hrun]
    decide +kernel
  · obtain rfl := admitted_shop hmodel
    obtain rfl := admitted_shop hmodel'
    decide +kernel
  · have hadmitted : adoptShop.admitted (shopEnv (shopWidget "shop_widget")) (shopApps (shopWidget "shop_widget")) =
        [shopWidget "shop_widget"] := rfl
    rw [hadmitted]
    exact ⟨.inl (by decide +kernel), trivial⟩

/-- A model whose `sku` is unique twice: by its field, and by a constraint. -/
def doubleWidget : AppModel :=
  { shopWidget "shop_widget" with constraints := [{ fields := [⟨"sku", "sku", true, false⟩] }] }

def doubleShop : Migration Nat where
  catalogue :=
    { (shopOf "shop_widget").catalogue with
      constraints := [{ name := "shop_widget_sku_key", table := "shop_widget", columns := ["sku"] },
        { name := "widget_sku", table := "shop_widget", columns := ["sku"] }]
      names := by decide +kernel }

/-- The reversal finds the same composite for both, and drops it twice. -/
theorem databaseForwards_roundTrips_double :
    Declared doubleShop.catalogue doubleWidget ∧
      ∃ m', adoptShop.databaseForwards (shopEnv doubleWidget) (shopApps doubleWidget) doubleShop = .ok () m' ∧
        FreshNames (shopEnv doubleWidget) m'.catalogue
          (adoptShop.admitted (shopEnv doubleWidget) (shopApps doubleWidget)) ∧
        ¬ adoptShop.RoundTrips (shopEnv doubleWidget) (shopApps doubleWidget) doubleShop m' := by
  refine ⟨⟨⟨_, rfl, by decide +kernel⟩, by decide +kernel, fun t ht => ?_, fun t ht => ?_, by decide +kernel⟩, ?_⟩
  · obtain rfl := Option.some.inj ht
    decide +kernel
  · obtain rfl := Option.some.inj ht
    decide +kernel
  · obtain ⟨m', hrun⟩ : ∃ m', adoptShop.databaseForwards (shopEnv doubleWidget) (shopApps doubleWidget) doubleShop =
        .ok () m' := exists_of_isOk (by decide +kernel)
    refine ⟨m', hrun, ⟨fun model hmodel => ?_, fun model hmodel model' hmodel' => ?_⟩, ?_⟩
    · obtain rfl := admitted_shop hmodel
      rw [← after_of_ok hrun]
      decide +kernel
    · obtain rfl := admitted_shop hmodel
      obtain rfl := admitted_shop hmodel'
      decide +kernel
    · obtain ⟨e, s, hraises⟩ : ∃ e s, adoptShop.databaseBackwards (shopEnv doubleWidget) (shopApps doubleWidget)
          (after (adoptShop.databaseForwards (shopEnv doubleWidget) (shopApps doubleWidget)) doubleShop) = .error e s :=
        exists_of_isError (by decide +kernel)
      rintro ⟨m'', hback, -⟩
      rw [← after_of_ok hrun, hraises] at hback
      cases hback

end AdoptTenantApp

end Boundary
