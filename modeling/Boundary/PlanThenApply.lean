/-
`AdoptTenantApp` forwards plans, then applies: a refusal leaves the database as
it was, and a run that completes leaves every table of the set adopted, but for
one whose name `to_regclass` reads as another.
-/
import Boundary.AdoptionFacts
import Boundary.AdoptionChecks

namespace Boundary

open Exec

namespace AdoptTenantApp

variable {δ : Type}

/-- A table that is there, without the column. -/
def LacksTenantId (cat : Catalogue δ) (table : String) : Prop :=
  ∃ t, cat.tables table = .some t ∧ t.column? "tenant_id" = .none

/-- A table that was adopted. -/
structure Adopted (op : AdoptTenantApp δ) (env : AdoptionEnv δ) (before after : Catalogue δ) (table : String) : Prop where
  column : ∃ t t', before.tables table = .some t ∧ after.tables table = .some t' ∧
    t'.columns = t.columns ++ [tenantColumn (detectTenantPgType env.conf)] ∧ t'.rows = t.rows.map op.stamp ∧
    (t.rows ≠ [] → op.backfillTenant.isSome = true) ∧ t'.rowSecurity = true ∧ t'.forceRowSecurity = true
  policies : tenantIsolation table "tenant_id" ∈ after.policiesOf table ∧
    adminBypassPolicy env.conf.adminFlagVar table ∈ after.policiesOf table
  unique : ((after.constraintsOf table).map UniqueConstraint.columns).Perm
    ((before.constraintsOf table).map fun c => "tenant_id" :: c.columns)
  bare : ∀ i ∈ after.indexesOf table, i.primary = true

/-- No statement of the script secures the table before another backfills it. -/
def SecuresLast (table : String) (script : List (Statement δ)) : Prop :=
  script.Pairwise fun s s' => ¬ (s.isSecurityOf table = true ∧ s'.isUpdateOf table = true)

/-- What forwards does when it completes. -/
structure AppliedAsPlanned (op : AdoptTenantApp δ) (env : AdoptionEnv δ) (models : List AppModel)
    (m m' : Migration δ) : Prop where
  adopted : ∀ model ∈ models, LacksTenantId m.catalogue model.dbTable →
    op.Adopted env m.catalogue m'.catalogue model.dbTable ∧
      checkOneAdoptedTable env.toServer m'.catalogue model (detectTenantPgType env.conf) = []
  kept : ∀ model ∈ models, ∀ t c, m.catalogue.tables model.dbTable = .some t → t.column? "tenant_id" = .some c →
    pgTypesMatch c.type (detectTenantPgType env.conf) = true →
    m'.catalogue.view model.dbTable = m.catalogue.view model.dbTable
  outside : ∀ name, name ∉ models.map AppModel.dbTable → m'.catalogue.view name = m.catalogue.view name
  script : ∃ script, m'.executed = m.executed ++ script ∧
    (∀ model ∈ models, SecuresLast model.dbTable script) ∧
    -- the helper is created once, ahead of every table, or there was none to adopt
    ((∃ model ∈ models, LacksTenantId m.catalogue model.dbTable) →
      ∃ rest, script =
          .createHelper ⟨detectTenantPgType env.conf, env.conf.dbSessionVar, env.conf.functionLeakproof⟩ :: rest ∧
        ∀ s ∈ rest, s.table?.isSome = true) ∧
    ((∀ model ∈ models, ¬ LacksTenantId m.catalogue model.dbTable) → script = [])

/-- The table is read as itself; or what is read in its place is no table, or
one of the set's that lacks the column too, and there is nothing to rewrite. -/
def ReadAsItself (env : AdoptionEnv δ) (cat : Catalogue δ) (models : List AppModel) (table : String) : Prop :=
  LacksTenantId cat table → env.regclass table = .some table ∨
    (cat.constraintsOf table = [] ∧ (∀ i ∈ cat.indexesOf table, i.primary = true) ∧
      ∀ read t, env.regclass table = .some read → cat.tables read = .some t →
        read ∈ models.map AppModel.dbTable ∧ t.column? "tenant_id" = .none)

variable {op : AdoptTenantApp δ} {env : AdoptionEnv δ} {apps : Apps} {models : List AppModel} {m m' : Migration δ}
  {plans : List AdoptionPlan} {plan : AdoptionPlan} {u : Unit}

/-! ## The scripts -/

theorem adoptScript_table : ∀ s ∈ op.adoptScript env plan, s.table? = .some plan.table := by
  intro s hs
  simp only [adoptScript, List.mem_append] at hs
  rcases hs with (hs | hs) | hs
  · unfold addColumnScript at hs
    split at hs
    · obtain rfl := List.mem_singleton.mp hs
      rfl
    · simp only [List.mem_cons, List.mem_append, List.mem_map, List.not_mem_nil, or_false] at hs
      rcases hs with rfl | ⟨_, -, rfl⟩ | rfl | rfl <;> rfl
  · obtain ⟨r, -, rfl | rfl⟩ := mem_replaceScript hs <;> rfl
  · simp only [securityScript, List.mem_cons, List.not_mem_nil, or_false] at hs
    rcases hs with rfl | rfl | rfl | rfl <;> rfl

theorem table?_of_isUpdateOf {s : Statement δ} {table : String} (h : s.isUpdateOf table = true) :
    s.table? = .some table := by
  cases s <;> simp_all [Statement.isUpdateOf, Statement.table?]

theorem table?_of_isSecurityOf {s : Statement δ} {table : String} (h : s.isSecurityOf table = true) :
    s.table? = .some table := by
  unfold Statement.isSecurityOf at h
  split at h
  · simpa [Statement.table?] using h
  · simpa [Statement.table?] using h
  · cases h

theorem isSecurityOf_addColumnScript (table : String) : ∀ s ∈ op.addColumnScript plan, s.isSecurityOf table = false := by
  intro s hs
  unfold addColumnScript at hs
  split at hs
  · obtain rfl := List.mem_singleton.mp hs
    rfl
  · simp only [List.mem_cons, List.mem_append, List.mem_map, List.not_mem_nil, or_false] at hs
    rcases hs with rfl | ⟨_, -, rfl⟩ | rfl | rfl <;> rfl

theorem isUpdateOf_rewriteScript (table table' : String) (rewrites : List (String × List String)) :
    ∀ s ∈ rewriteScript env table' rewrites, s.isUpdateOf table = false := by
  intro s hs
  obtain ⟨r, -, rfl | rfl⟩ := mem_replaceScript hs <;> rfl

theorem isUpdateOf_securityScript (table table' : String) :
    ∀ s ∈ securityScript env table', s.isUpdateOf table = false := by
  intro s hs
  simp only [securityScript, List.mem_cons, List.not_mem_nil, or_false] at hs
  rcases hs with rfl | rfl | rfl | rfl <;> rfl

/-- A plan backfills its table before it secures it. -/
theorem securesLast_adoptScript (table : String) : SecuresLast table (op.adoptScript env plan) := by
  have hbefore : ∀ s ∈ op.addColumnScript plan, s.isSecurityOf table = false := isSecurityOf_addColumnScript table
  have hafter : ∀ s ∈ rewriteScript env plan.table plan.rewrites ++ securityScript env plan.table,
      s.isUpdateOf table = false := by
    intro s hs
    rcases List.mem_append.mp hs with hs | hs
    · exact isUpdateOf_rewriteScript table _ _ s hs
    · exact isUpdateOf_securityScript table _ s hs
  unfold SecuresLast adoptScript
  rw [List.append_assoc, List.pairwise_append]
  refine ⟨List.pairwise_of_forall_mem_list ?_, List.pairwise_of_forall_mem_list ?_, ?_⟩
  · intro s hs s' _
    simp [hbefore s hs]
  · intro s _ s' hs'
    simp [hafter s' hs']
  · intro s hs s' _
    simp [hbefore s hs]

/-- Plans are of different tables. -/
theorem securesLast_scripts (table : String) (hnodup : (plans.map AdoptionPlan.table).Nodup) :
    SecuresLast table (plans.flatMap (op.adoptScript env)) := by
  unfold SecuresLast
  rw [List.pairwise_flatMap]
  refine ⟨fun plan _ => securesLast_adoptScript table, ?_⟩
  refine (List.pairwise_map.mp hnodup).imp fun hne s hs s' hs' ⟨hsecurity, hupdate⟩ => hne ?_
  have htable := (adoptScript_table s hs).symm.trans (table?_of_isSecurityOf hsecurity)
  have htable' := (adoptScript_table s' hs').symm.trans (table?_of_isUpdateOf hupdate)
  exact Option.some.inj (htable.trans htable'.symm)

/-! ## A run that completes -/

section

variable (hrun : op.Completed env models m m' plans)

include hrun

/-- A table that is read as itself and lacks the column has a plan. -/
theorem Completed.plan_of_lacks {model : AppModel} (hmodel : model ∈ models)
    (hlacks : LacksTenantId m.catalogue model.dbTable)
    (hread : ReadAsItself env m.catalogue models model.dbTable) : ∃ plan ∈ plans, plan.table = model.dbTable := by
  refine (hrun.covered model hmodel).resolve_left ?_
  rintro ⟨type, hcolumn, -⟩
  obtain ⟨t, ht, hnone⟩ := hlacks
  unfold columnType regclassTable at hcolumn
  rcases hread ⟨t, ht, hnone⟩ with hself | ⟨-, -, hother⟩
  · simp [hself, ht, hnone] at hcolumn
  · cases hreg : env.regclass model.dbTable with
    | none => simp [hreg] at hcolumn
    | some read =>
      cases hread' : m.catalogue.tables read with
      | none => simp [hreg, hread'] at hcolumn
      | some t' => simp [hreg, hread', (hother read t' hreg hread').2] at hcolumn

/-- What a plan leaves of the constraints of a table that is read as itself. -/
theorem Completed.constraints_of_self {plan : AdoptionPlan} (hplan : plan ∈ plans)
    (hself : env.regclass plan.table = .some plan.table) :
    m'.catalogue.constraintsOf plan.table = plan.rewrites.map (composite env plan.table) := by
  obtain ⟨t, ht, hnone, hown, hview⟩ := hrun.adopted plan hplan
  obtain ⟨-, -, hplanned⟩ := hrun.planned plan hplan
  rw [constraintsOf_of_view hview]
  unfold adoptedView
  simp only [hplanned.rewrites, constraints_dropped _ hself, List.nil_append]

/-- The composites lead with the column, and then have the originals'. -/
theorem Completed.unique_of_self {plan : AdoptionPlan} (hplan : plan ∈ plans)
    (hself : env.regclass plan.table = .some plan.table) :
    ((m'.catalogue.constraintsOf plan.table).map UniqueConstraint.columns).Perm
      ((m.catalogue.constraintsOf plan.table).map fun c => "tenant_id" :: c.columns) := by
  obtain ⟨-, -, hplanned⟩ := hrun.planned plan hplan
  have hcolumns := rewrites_columns m.catalogue hself
  rw [← hplanned.rewrites] at hcolumns
  rw [hrun.constraints_of_self hplan hself, List.map_map]
  exact hcolumns

/-- A table that is read as itself has no unique index but its primary key's. -/
theorem Completed.bare_of_self {plan : AdoptionPlan} (hplan : plan ∈ plans)
    (hself : env.regclass plan.table = .some plan.table) :
    ∀ i ∈ m.catalogue.indexesOf plan.table, i.primary = true := by
  obtain ⟨-, -, hplanned⟩ := hrun.planned plan hplan
  exact primary_of_accepted hself hplanned.indexes

/-- The table of a plan is adopted, when its unique forms are rewritten and
there is no bare one. -/
theorem Completed.adopted_of_plan {plan : AdoptionPlan} (hplan : plan ∈ plans)
    (hforms : env.regclass plan.table = .some plan.table ∨
      m.catalogue.constraintsOf plan.table = [] ∧ ∀ i ∈ m.catalogue.indexesOf plan.table, i.primary = true) :
    op.Adopted env m.catalogue m'.catalogue plan.table := by
  obtain ⟨t, ht, hnone, hown, hview⟩ := hrun.adopted plan hplan
  obtain ⟨-, htype, hplanned⟩ := hrun.planned plan hplan
  have hindexes : m'.catalogue.indexesOf plan.table = m.catalogue.indexesOf plan.table :=
    congrArg TableView.indexes hview
  have hrows : t.rows ≠ [] → op.backfillTenant.isSome = true := by
    intro hne
    refine hplanned.backfill fun hzero => hne ?_
    have hcount := hplanned.rows
    rw [rowCount, ht, hzero] at hcount
    simpa using hcount
  constructor
  case column =>
    refine ⟨t, _, ht, tables_of_view hview, ?_, rfl, hrows, rfl, rfl⟩
    rw [← htype]
    rfl
  case policies =>
    rw [policiesOf_of_view hview]
    simp [adoptedView]
  case unique =>
    by_cases hself : env.regclass plan.table = .some plan.table
    · exact hrun.unique_of_self hplan hself
    · rw [constraintsOf_of_view hview, (hforms.resolve_left hself).1]
      simp [adoptedView, hown.resolve_left hself, (hforms.resolve_left hself).1]
  case bare =>
    rw [hindexes]
    rcases hforms with hself | ⟨-, hbare⟩
    · exact hrun.bare_of_self hplan hself
    · exact hbare

/-- A table that is not a plan's is as it was. -/
theorem Completed.kept {table : String} {t : Table δ} {c : Column} (ht : m.catalogue.tables table = .some t)
    (hc : t.column? "tenant_id" = .some c) : m'.catalogue.view table = m.catalogue.view table := by
  refine hrun.elsewhere table fun hmem => ?_
  obtain ⟨plan, hplan, rfl⟩ := List.mem_map.mp hmem
  obtain ⟨t', ht', hnone, -⟩ := hrun.adopted plan hplan
  obtain rfl := Option.some.inj (ht.symm.trans ht')
  rw [hnone] at hc
  cases hc

theorem Completed.outside {table : String} (hout : table ∉ models.map AppModel.dbTable) :
    m'.catalogue.view table = m.catalogue.view table := by
  refine hrun.elsewhere table fun hmem => hout ?_
  obtain ⟨plan, hplan, rfl⟩ := List.mem_map.mp hmem
  exact (hrun.planned plan hplan).1

omit hrun in
/-- Nothing is reported of a text that is read as an adopted table. -/
theorem Adopted.unreported {model : AppModel} {read : String} {before after : Catalogue δ}
    (h : op.Adopted env before after read) (hnone : LacksTenantId before read)
    (hreg : env.regclass model.dbTable = .some read) :
    checkOneAdoptedTable env.toServer after model (detectTenantPgType env.conf) = [] := by
  obtain ⟨t, t', ht, ht', hcolumns, -, -, hsecurity⟩ := h.column
  obtain ⟨t₀, ht₀, hnone⟩ := hnone
  obtain rfl := Option.some.inj (ht.symm.trans ht₀)
  refine checkOneAdoptedTable_eq_nil hreg ht' ⟨⟨tenantColumn (detectTenantPgType env.conf), ?_, ?_⟩, hsecurity,
    List.mem_map_of_mem h.policies.1, List.mem_map_of_mem h.policies.2, fun c hc => ?_, h.bare⟩
  · unfold Table.column? at hnone ⊢
    rw [hcolumns, List.find?_append, hnone]
    rfl
  · exact decide_eq_true rfl
  · obtain ⟨c', -, hc'⟩ := List.mem_map.mp (h.unique.mem_iff.mp (List.mem_map_of_mem hc))
    rw [← hc']
    rfl

end

/-! ## Exactly when every table is applied as planned -/

section

variable (hrun : op.Completed env models m m' plans)

include hrun

theorem Completed.adopted_of_lacks {model : AppModel} (hmodel : model ∈ models)
    (hlacks : LacksTenantId m.catalogue model.dbTable)
    (hread : ReadAsItself env m.catalogue models model.dbTable) :
    op.Adopted env m.catalogue m'.catalogue model.dbTable := by
  obtain ⟨plan, hplan, htable⟩ := hrun.plan_of_lacks hmodel hlacks hread
  rw [← htable] at hlacks hread ⊢
  exact hrun.adopted_of_plan hplan ((hread hlacks).imp id fun h => ⟨h.1, h.2.1⟩)

/-- The check reads a table that was adopted, or none. -/
theorem Completed.unreported_of_lacks {model : AppModel} (hmodel : model ∈ models)
    (hlacks : LacksTenantId m.catalogue model.dbTable)
    (hread : ∀ model ∈ models, ReadAsItself env m.catalogue models model.dbTable) :
    checkOneAdoptedTable env.toServer m'.catalogue model (detectTenantPgType env.conf) = [] := by
  cases hreg : env.regclass model.dbTable with
  | none => exact checkOneAdoptedTable_absent (by rw [regclassTable, hreg]; rfl)
  | some read =>
    rcases hread model hmodel hlacks with hself | ⟨-, -, hother⟩
    · obtain rfl := Option.some.inj (hreg.symm.trans hself)
      exact (hrun.adopted_of_lacks hmodel hlacks (hread model hmodel)).unreported hlacks hreg
    · cases ht : m.catalogue.tables read with
      | none =>
        have hout : read ∉ plans.map AdoptionPlan.table := by
          intro hmem
          obtain ⟨plan, hplan, rfl⟩ := List.mem_map.mp hmem
          obtain ⟨t, ht', -⟩ := hrun.adopted plan hplan
          rw [ht] at ht'
          cases ht'
        refine checkOneAdoptedTable_absent ?_
        rw [regclassTable_eq hreg, tables_of_view (hrun.elsewhere read hout)]
        exact ht
      | some t =>
        obtain ⟨hmem, hnone⟩ := hother read t hreg ht
        obtain ⟨model', hmodel', rfl⟩ := List.mem_map.mp hmem
        have hlacks' : LacksTenantId m.catalogue model'.dbTable := ⟨t, ht, hnone⟩
        exact (hrun.adopted_of_lacks hmodel' hlacks' (hread model' hmodel')).unreported hlacks' hreg

theorem Completed.applied (hread : ∀ model ∈ models, ReadAsItself env m.catalogue models model.dbTable) :
    op.AppliedAsPlanned env models m m' where
  adopted model hmodel hlacks :=
    ⟨hrun.adopted_of_lacks hmodel hlacks (hread model hmodel), hrun.unreported_of_lacks hmodel hlacks hread⟩
  kept model hmodel t c ht hc _ := hrun.kept ht hc
  outside name hout := hrun.outside hout
  script := by
    refine ⟨_, hrun.executed, fun model _ => ?_, ?_, ?_⟩
    · unfold SecuresLast
      rw [List.pairwise_append]
      refine ⟨?_, securesLast_scripts model.dbTable hrun.nodup, fun s hs s' _ hboth => ?_⟩
      · unfold helperScript
        split <;> simp
      · unfold helperScript at hs
        split at hs
        · cases hs
        · obtain rfl := List.mem_singleton.mp hs
          cases hboth.1
    · rintro ⟨model, hmodel, hlacks⟩
      obtain ⟨plan, hplan, -⟩ := hrun.plan_of_lacks hmodel hlacks (hread model hmodel)
      have hsome : plans.isEmpty = false := by
        cases plans with
        | nil => cases hplan
        | cons plan plans => rfl
      refine ⟨plans.flatMap (op.adoptScript env), by simp [helperScript, hsome], fun s hs => ?_⟩
      obtain ⟨plan', -, hs⟩ := List.mem_flatMap.mp hs
      rw [adoptScript_table s hs]
      rfl
    · intro hnone
      have hempty : plans = [] := by
        refine List.eq_nil_iff_forall_not_mem.mpr fun plan hplan => ?_
        obtain ⟨model, hmodel, htable⟩ := List.mem_map.mp (hrun.planned plan hplan).1
        obtain ⟨t, ht, hcolumn, -⟩ := hrun.adopted plan hplan
        exact hnone model hmodel (htable ▸ ⟨t, ht, hcolumn⟩)
      simp [hempty, helperScript]

/-- A table that lacked the column and has it has a plan. -/
theorem Completed.plan_of_column {table : String} {t t' : Table δ} (ht : m.catalogue.tables table = .some t)
    (hnone : t.column? "tenant_id" = .none) (ht' : m'.catalogue.tables table = .some t')
    (hsome : (t'.column? "tenant_id").isSome = true) : ∃ plan ∈ plans, plan.table = table := by
  by_contra hno
  have hout : table ∉ plans.map AdoptionPlan.table := fun hmem => hno (List.mem_map.mp hmem)
  have hsame := tables_of_view (hrun.elsewhere table hout)
  rw [ht'] at hsame
  obtain rfl := Option.some.inj (hsame.trans ht)
  rw [hnone] at hsome
  cases hsome

/-- Where a table is not read as itself and all is as planned, there was
nothing to rewrite. -/
theorem Completed.readAsItself (happlied : op.AppliedAsPlanned env models m m') {model : AppModel}
    (hmodel : model ∈ models) : ReadAsItself env m.catalogue models model.dbTable := by
  intro hlacks
  obtain ⟨t, ht, hnone⟩ := hlacks
  obtain ⟨hadopted, hcheck⟩ := happlied.adopted model hmodel ⟨t, ht, hnone⟩
  obtain ⟨t₀, t', ht₀, ht', hcolumns, -⟩ := hadopted.column
  have hsome : (t'.column? "tenant_id").isSome = true := by
    refine List.find?_isSome.mpr ⟨tenantColumn (detectTenantPgType env.conf), ?_, by simp [tenantColumn]⟩
    rw [hcolumns]
    simp
  obtain ⟨plan, hplan, htable⟩ := hrun.plan_of_column ht hnone ht' hsome
  obtain ⟨t₁, -, -, hown, hview⟩ := hrun.adopted plan hplan
  obtain ⟨-, -, hplanned⟩ := hrun.planned plan hplan
  rw [htable] at hown hview
  refine hown.imp id fun hnil => ⟨?_, ?_, fun read tr hreg htr => ?_⟩
  · -- the constraints are the originals still, which are shorter
    have hunique := hadopted.unique
    have hsame : m'.catalogue.constraintsOf model.dbTable = m.catalogue.constraintsOf model.dbTable := by
      rw [constraintsOf_of_view hview]
      simp [adoptedView, hnil, htable]
    rw [hsame] at hunique
    have hlengths := (hunique.map List.length).sum_nat
    rw [List.map_map, List.map_map] at hlengths
    generalize m.catalogue.constraintsOf model.dbTable = cs at hlengths
    have hsum : ∀ cs : List UniqueConstraint,
        (cs.map (List.length ∘ fun c => "tenant_id" :: c.columns)).sum =
          (cs.map (List.length ∘ UniqueConstraint.columns)).sum + cs.length := by
      intro cs
      induction cs with
      | nil => rfl
      | cons c cs ih =>
        simp only [List.map_cons, List.sum_cons, Function.comp_apply, List.length_cons, ih]
        omega
    have hzero : cs.length = 0 := by
      have := hsum cs
      omega
    exact List.length_eq_zero_iff.mp hzero
  · have hindexes : m'.catalogue.indexesOf model.dbTable = m.catalogue.indexesOf model.dbTable := by
      have h := congrArg TableView.indexes hview
      rw [← htable]
      rw [← htable] at h
      exact h
    rw [← hindexes]
    exact hadopted.bare
  · have hnone' : tr.column? "tenant_id" = .none := by
      have hcolumn := hplanned.column
      rw [htable, columnType, regclassTable, hreg] at hcolumn
      simpa [htr] using hcolumn
    refine ⟨?_, hnone'⟩
    by_contra hout
    have hsame := tables_of_view (hrun.outside hout)
    have hcolumn := column_of_check_eq_nil hreg (hsame.trans htr) hcheck
    rw [hnone'] at hcolumn
    cases hcolumn

end

variable [DecidableEq δ]

/-- A refusal leaves the database as it was. A run that completes applies what
it planned when every table without the column is read as itself, and only then. -/
theorem databaseForwards_planThenApply :
    (∀ message m', op.databaseForwards env apps m = .error (.refused message) m' → m' = m) ∧
      (env.editor = .live → ∀ m', op.databaseForwards env apps m = .ok () m' →
        (op.AppliedAsPlanned env (op.admitted env apps) m m' ↔
          ∀ model ∈ op.admitted env apps, ReadAsItself env m.catalogue (op.admitted env apps) model.dbTable)) := by
  refine ⟨fun message m' h => databaseForwards_refused h, fun hlive m' h => ?_⟩
  obtain ⟨plans, hrun⟩ := databaseForwards_completed hlive h
  exact ⟨fun happlied model hmodel => hrun.readAsItself happlied hmodel, hrun.applied⟩

/-- The widgets' table, of one row. -/
def shopOf (dbTable : String) : Migration Nat where
  catalogue :=
    { tables := fun name =>
        if name = dbTable then
          .some { columns := [⟨"id", "bigint", true, .none⟩, ⟨"sku", "text", true, .none⟩], rows := [fun _ => .some 7] }
        else .none
      constraints := [{ name := "shop_widget_sku_key", table := dbTable, columns := ["sku"] }]
      indexes := [{ name := "shop_widget_pkey", table := dbTable, keys := [.some "id"], primary := true }] }

theorem databaseForwards_planThenApply_shop :
    ∃ m', adoptShop.databaseForwards (shopEnv (shopWidget "shop_widget")) (shopApps (shopWidget "shop_widget"))
        (shopOf "shop_widget") = .ok () m' ∧
      adoptShop.AppliedAsPlanned (shopEnv (shopWidget "shop_widget"))
        (adoptShop.admitted (shopEnv (shopWidget "shop_widget")) (shopApps (shopWidget "shop_widget")))
        (shopOf "shop_widget") m' := by
  obtain ⟨m', hrun⟩ : ∃ m', adoptShop.databaseForwards (shopEnv (shopWidget "shop_widget"))
      (shopApps (shopWidget "shop_widget")) (shopOf "shop_widget") = .ok () m' := exists_of_isOk (by decide +kernel)
  refine ⟨m', hrun, (databaseForwards_planThenApply.2 rfl m' hrun).mpr fun model hmodel _ => ?_⟩
  obtain rfl := admitted_shop hmodel
  exact .inl (by decide +kernel)

/-- Nothing is read of a table whose name is not lower case, and its unique
constraint stays as it was. -/
theorem databaseForwards_planThenApply_folded :
    ∃ m', adoptShop.databaseForwards (shopEnv (shopWidget "Shop_widget")) (shopApps (shopWidget "Shop_widget"))
        (shopOf "Shop_widget") = .ok () m' ∧
      ¬ adoptShop.AppliedAsPlanned (shopEnv (shopWidget "Shop_widget"))
        (adoptShop.admitted (shopEnv (shopWidget "Shop_widget")) (shopApps (shopWidget "Shop_widget")))
        (shopOf "Shop_widget") m' := by
  obtain ⟨m', hrun⟩ : ∃ m', adoptShop.databaseForwards (shopEnv (shopWidget "Shop_widget"))
      (shopApps (shopWidget "Shop_widget")) (shopOf "Shop_widget") = .ok () m' := exists_of_isOk (by decide +kernel)
  refine ⟨m', hrun, fun happlied => ?_⟩
  obtain ⟨plans, hcompleted⟩ := databaseForwards_completed rfl hrun
  have hmodel : shopWidget "Shop_widget" ∈
      adoptShop.admitted (shopEnv (shopWidget "Shop_widget")) (shopApps (shopWidget "Shop_widget")) :=
    mem_admitted_shop (by decide +kernel)
  -- the unique constraint is there, and is the table's own
  rcases hcompleted.readAsItself happlied hmodel ⟨_, rfl, by decide +kernel⟩ with hself | ⟨hnone, -⟩
  · exact absurd hself (by decide +kernel)
  · exact absurd hnone (by decide +kernel)

end AdoptTenantApp

end Boundary
