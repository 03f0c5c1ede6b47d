/-
What validation leaves to a plan, what a live run leaves of each table, and that
a refused run leaves everything.
-/
import Boundary.AdoptionScripts

namespace Boundary

open Exec

namespace AdoptTenantApp

variable {δ : Type}

/-- What a constraint is rewritten to. -/
def toRewrite (c : UniqueConstraintRow) : String × List String := (c.name, "tenant_id" :: c.columns)

/-- What a plan says of the catalogue it was made from. -/
structure Planned (op : AdoptTenantApp δ) (server : Server δ) (cat : Catalogue δ) (plan : AdoptionPlan) : Prop where
  column : columnType server cat plan.table "tenant_id" = .none
  rows : rowCount cat plan.table = .ok plan.existingRows
  backfill : plan.existingRows ≠ 0 → op.backfillTenant.isSome = true
  indexes : ∀ i ∈ uniqueIndexes server cat plan.table, i.primary = true ∨ i.constraint.isSome = true
  rewrites : plan.rewrites = (uniqueConstraints server cat plan.table).map toRewrite
  constraints : ∀ c ∈ uniqueConstraints server cat plan.table, c.deferrable = false ∧ c.fkTargeted = false

/-- What the catalogue holds of an adopted table, where `t` was the table. -/
def adoptedView (op : AdoptTenantApp δ) (env : AdoptionEnv δ) (cat : Catalogue δ) (plan : AdoptionPlan) (t : Table δ) :
    TableView δ where
  table := .some { op.withTenantColumn plan.pgType t with rowSecurity := true, forceRowSecurity := true }
  constraints := (cat.constraintsOf plan.table).filter (·.name ∉ plan.rewrites.map Prod.fst) ++
    plan.rewrites.map (composite env plan.table)
  indexes := cat.indexesOf plan.table
  policies := cat.policiesOf plan.table ++
    [tenantIsolation plan.table "tenant_id", adminBypassPolicy env.conf.adminFlagVar plan.table]

def HasTenantId (cat : Catalogue δ) (table : String) : Prop :=
  ∃ t, cat.tables table = .some t ∧ (t.column? "tenant_id").isSome = true

/-- The helper is created before the first table, if there is one. -/
def helperScript (env : AdoptionEnv δ) (plans : List AdoptionPlan) : List (Statement δ) :=
  if plans.isEmpty then []
  else [.createHelper ⟨detectTenantPgType env.conf, env.conf.dbSessionVar, env.conf.functionLeakproof⟩]

/-- What a run that completes did: the plans it made of the models, the
statements it executed, and what they left of each table. -/
structure Completed (op : AdoptTenantApp δ) (env : AdoptionEnv δ) (models : List AppModel) (m m' : Migration δ)
    (plans : List AdoptionPlan) : Prop where
  executed : m'.executed = m.executed ++ (helperScript env plans ++ plans.flatMap (op.adoptScript env))
  planned : ∀ plan ∈ plans, plan.table ∈ models.map AppModel.dbTable ∧ plan.pgType = detectTenantPgType env.conf ∧
    op.Planned env.toServer m.catalogue plan
  covered : ∀ model ∈ models,
    (∃ type, columnType env.toServer m.catalogue model.dbTable "tenant_id" = .some type ∧
      pgTypesMatch type (detectTenantPgType env.conf) = true) ∨ ∃ plan ∈ plans, plan.table = model.dbTable
  tables : plans.map AdoptionPlan.table = (models.filter fun model =>
    (columnType env.toServer m.catalogue model.dbTable "tenant_id").isNone).map AppModel.dbTable
  nodup : (plans.map AdoptionPlan.table).Nodup
  adopted : ∀ plan ∈ plans, ∃ t, m.catalogue.tables plan.table = .some t ∧ t.column? "tenant_id" = .none ∧
    (env.regclass plan.table = .some plan.table ∨ plan.rewrites = []) ∧
    m'.catalogue.view plan.table = op.adoptedView env m.catalogue plan t
  elsewhere : ∀ name, name ∉ plans.map AdoptionPlan.table → m'.catalogue.view name = m.catalogue.view name

variable {op : AdoptTenantApp δ} {env : AdoptionEnv δ} {plan : AdoptionPlan}
  {m m' : Migration δ} {u : Unit} {server : Server δ} {cat cat' base : Catalogue δ}
  {pgType : String} {model : AppModel} {apps : Apps} {models : List AppModel}

/-! ## What validation leaves to the plan -/

theorem refuseUniqueIndexes_ok {table label : String} {indexes : List UniqueIndexRow}
    (h : refuseUniqueIndexes table label indexes = .ok u) :
    ∀ i ∈ indexes, i.primary = true ∨ i.constraint.isSome = true := by
  induction indexes with
  | nil => simp
  | cons index indexes ih =>
    unfold refuseUniqueIndexes at h
    split at h
    next hskip =>
      intro i hi
      rcases List.mem_cons.mp hi with rfl | hi
      · simpa using hskip
      · exact ih h i hi
    · split at h
      · cases h
      · split at h <;> cases h

theorem rewriteConstraints_ok {table label : String} {constraints : List UniqueConstraintRow}
    {rewrites : List (String × List String)} (h : rewriteConstraints table label constraints = .ok rewrites) :
    rewrites = constraints.map toRewrite ∧ ∀ c ∈ constraints, c.deferrable = false ∧ c.fkTargeted = false := by
  induction constraints generalizing rewrites with
  | nil =>
    cases h
    simp
  | cons constraint constraints ih =>
    unfold rewriteConstraints at h
    split at h
    · cases h
    next hdeferrable =>
      split at h
      · cases h
      next htargeted =>
        obtain ⟨rewrites', hrest, rfl⟩ := exceptMap_ok_iff.mp h
        obtain ⟨rfl, hall⟩ := ih hrest
        refine ⟨rfl, fun c hc => ?_⟩
        rcases List.mem_cons.mp hc with rfl | hc
        · exact ⟨by simpa using hdeferrable, by simpa using htargeted⟩
        · exact hall c hc

theorem planUniqueRewrites_ok {table label : String} {rewrites : List (String × List String)}
    (h : planUniqueRewrites server cat table label = .ok rewrites) :
    (∀ i ∈ uniqueIndexes server cat table, i.primary = true ∨ i.constraint.isSome = true) ∧
      rewrites = (uniqueConstraints server cat table).map toRewrite ∧
      ∀ c ∈ uniqueConstraints server cat table, c.deferrable = false ∧ c.fkTargeted = false := by
  unfold planUniqueRewrites at h
  cases hindexes : refuseUniqueIndexes table label (uniqueIndexes server cat table) with
  | error e =>
    rw [hindexes] at h
    cases h
  | ok u =>
    rw [hindexes] at h
    exact ⟨refuseUniqueIndexes_ok hindexes, rewriteConstraints_ok h⟩

theorem probeRows_ok {table label : String} {existingRows : Nat} (h : op.probeRows cat table label = .ok existingRows) :
    rowCount cat table = .ok existingRows ∧ (existingRows ≠ 0 → op.backfillTenant.isSome = true) := by
  unfold probeRows at h
  cases hcount : rowCount cat table with
  | error e =>
    rw [hcount] at h
    cases h
  | ok count =>
    rw [hcount] at h
    by_cases hbackfill : count ≠ 0 ∧ op.backfillTenant.isNone
    · simp only [if_pos hbackfill] at h
      cases h
    · simp only [if_neg hbackfill] at h
      cases h
      refine ⟨rfl, fun hne => ?_⟩
      rw [← Option.not_isNone, Bool.not_eq_true']
      exact Bool.eq_false_iff.mpr fun hnone => hbackfill ⟨hne, hnone⟩

/-- A table that is validated has a `tenant_id` of the right type and no plan,
or none and a plan. -/
theorem validateTable_ok {found : Option AdoptionPlan} (h : op.validateTable env pgType model cat = .ok found) :
    (∃ type, columnType env.toServer cat model.dbTable "tenant_id" = .some type ∧ pgTypesMatch type pgType = true ∧
        found = .none) ∨
      ∃ plan, found = .some plan ∧ plan.table = model.dbTable ∧ plan.pgType = pgType ∧
        op.Planned env.toServer cat plan := by
  unfold validateTable at h
  cases hcolumn : columnType env.toServer cat model.dbTable "tenant_id" with
  | some type =>
    rw [hcolumn] at h
    simp only at h
    split at h
    next hmatch =>
      cases h
      exact .inl ⟨type, rfl, hmatch, rfl⟩
    · cases h
  | none =>
    rw [hcolumn] at h
    simp only at h
    split at h
    · cases h
    · cases hprobe : op.probeRows cat model.dbTable model.label with
      | error e =>
        rw [hprobe] at h
        cases h
      | ok existingRows =>
        rw [hprobe] at h
        cases hplan : planUniqueRewrites env.toServer cat model.dbTable model.label with
        | error e =>
          simp only [hplan, bind, Except.bind] at h
          cases h
        | ok rewrites =>
          simp only [hplan, bind, Except.bind, pure, Except.pure, Except.ok.injEq] at h
          obtain ⟨hindexes, hrewrites, hconstraints⟩ := planUniqueRewrites_ok hplan
          obtain ⟨hrows, hbackfill⟩ := probeRows_ok hprobe
          exact .inr ⟨_, h.symm, rfl, rfl, hcolumn, hrows, hbackfill, hindexes, hrewrites, hconstraints⟩

theorem validateTables_cons_ok_iff {models : List AppModel} {plans : List AdoptionPlan} :
    op.validateTables env pgType cat (model :: models) = .ok plans ↔
      ∃ found rest, op.validateTable env pgType model cat = .ok found ∧
        op.validateTables env pgType cat models = .ok rest ∧
        plans = found.toList ++ rest := by
  have hcons : op.validateTables env pgType cat (model :: models) =
      (op.validateTable env pgType model cat).bind fun plan =>
      (op.validateTables env pgType cat models).bind fun plans => .ok (plan.toList ++ plans) := rfl
  rw [hcons]
  cases op.validateTable env pgType model cat with
  | error e => simp [Except.bind]
  | ok found => cases op.validateTables env pgType cat models <;> simp [Except.bind, eq_comm]

theorem validateTables_ok {models : List AppModel} {plans : List AdoptionPlan}
    (h : op.validateTables env pgType cat models = .ok plans) :
    (∀ plan ∈ plans, plan.table ∈ models.map AppModel.dbTable ∧ plan.pgType = pgType ∧
        op.Planned env.toServer cat plan) ∧
      ∀ model ∈ models,
        (∃ type, columnType env.toServer cat model.dbTable "tenant_id" = .some type ∧ pgTypesMatch type pgType = true) ∨
          ∃ plan ∈ plans, plan.table = model.dbTable := by
  induction models generalizing plans with
  | nil =>
    cases h
    simp
  | cons model models ih =>
    obtain ⟨found, rest, hfound, hrest, rfl⟩ := validateTables_cons_ok_iff.mp h
    obtain ⟨hplans, hmodels⟩ := ih hrest
    constructor
    · intro plan hplan
      rcases List.mem_append.mp hplan with hplan | hplan
      · rcases validateTable_ok hfound with ⟨_, _, _, rfl⟩ | ⟨plan', rfl, htable, htype, hplanned⟩
        · cases hplan
        · obtain rfl : plan = plan' := by simpa using hplan
          exact ⟨by simp [htable], htype, hplanned⟩
      · obtain ⟨htable, hplanned⟩ := hplans plan hplan
        exact ⟨List.mem_cons_of_mem _ htable, hplanned⟩
    · intro model' hmodel'
      rcases List.mem_cons.mp hmodel' with rfl | hmodel'
      · rcases validateTable_ok hfound with ⟨type, hcolumn, hmatch, -⟩ | ⟨plan, rfl, htable, -⟩
        · exact .inl ⟨type, hcolumn, hmatch⟩
        · exact .inr ⟨plan, by simp, htable⟩
      · rcases hmodels model' hmodel' with hadopted | ⟨plan, hplan, htable⟩
        · exact .inl hadopted
        · exact .inr ⟨plan, List.mem_append_right _ hplan, htable⟩

/-- The plans are of the tables of which no column is read, in their order. -/
theorem validateTables_tables {models : List AppModel} {plans : List AdoptionPlan}
    (h : op.validateTables env pgType cat models = .ok plans) :
    plans.map AdoptionPlan.table = (models.filter fun model =>
      (columnType env.toServer cat model.dbTable "tenant_id").isNone).map AppModel.dbTable := by
  induction models generalizing plans with
  | nil =>
    cases h
    rfl
  | cons model models ih =>
    obtain ⟨found, rest, hfound, hrest, rfl⟩ := validateTables_cons_ok_iff.mp h
    rw [List.map_append, ih hrest]
    rcases validateTable_ok hfound with ⟨type, hcolumn, -, rfl⟩ | ⟨plan, rfl, htable, -, hplanned⟩
    · rw [List.filter_cons_of_neg (by simp [hcolumn])]
      rfl
    · rw [List.filter_cons_of_pos (by simp [← htable, hplanned.column]), List.map_cons, ← htable]
      rfl

/-- The constraints read are those of the table `to_regclass` finds. -/
theorem rewrites_perm (cat : Catalogue δ) {table name : String} (hread : server.regclass table = .some name) :
    (((uniqueConstraints server cat table).map toRewrite).map Prod.fst).Perm
      ((cat.constraintsOf name).map UniqueConstraint.name) := by
  have hnames : ((cat.constraintsOf name).map UniqueConstraint.row).map UniqueConstraintRow.name =
      (cat.constraintsOf name).map UniqueConstraint.name := by
    rw [List.map_map]
    rfl
  have hsorted : ((uniqueConstraints server cat table).map toRewrite).map Prod.fst =
      (uniqueConstraints server cat table).map UniqueConstraintRow.name := by
    rw [List.map_map]
    rfl
  rw [hsorted, uniqueConstraints, hread, ← hnames]
  exact (List.perm_insertionSort _ _).map _

/-- Each of them is dropped. -/
theorem constraints_dropped (cat : Catalogue δ) {table name : String} (hread : server.regclass table = .some name) :
    (cat.constraintsOf name).filter
      (·.name ∉ ((uniqueConstraints server cat table).map toRewrite).map Prod.fst) = [] := by
  rw [List.filter_eq_nil_iff]
  intro c hc
  simpa using (rewrites_perm cat hread).mem_iff.mpr (List.mem_map_of_mem hc)

/-- What is planned has their columns, after the tenant's. -/
theorem rewrites_columns (cat : Catalogue δ) {table name : String} (hread : server.regclass table = .some name) :
    (((uniqueConstraints server cat table).map toRewrite).map Prod.snd).Perm
      ((cat.constraintsOf name).map fun c => "tenant_id" :: c.columns) := by
  have hcolumns : ((cat.constraintsOf name).map UniqueConstraint.row).map (Prod.snd ∘ toRewrite) =
      (cat.constraintsOf name).map fun c => "tenant_id" :: c.columns := by
    rw [List.map_map]
    rfl
  rw [List.map_map, uniqueConstraints, hread, ← hcolumns]
  exact (List.perm_insertionSort _ _).map _

/-- A table that is accepted has no unique index but its primary key's. -/
theorem primary_of_accepted {table name : String} (hread : server.regclass table = .some name)
    (hindexes : ∀ i ∈ uniqueIndexes server cat table, i.primary = true ∨ i.constraint.isSome = true) :
    ∀ i ∈ cat.indexesOf name, i.primary = true := by
  intro i hi
  have hmem : i.row ∈ uniqueIndexes server cat table := by
    rw [uniqueIndexes, hread]
    exact (List.mem_insertionSort _).mpr (List.mem_append_left _ (List.mem_map_of_mem hi))
  rcases hindexes _ hmem with hprimary | hbacked
  · exact hprimary
  · by_contra hprimary
    simp [UniqueIndex.row, hprimary] at hbacked

/-- Those read of another are not. -/
theorem rewrites_not_mem {table : String} (hother : server.regclass table ≠ .some table) :
    ∀ name ∈ ((uniqueConstraints server cat table).map toRewrite).map Prod.fst,
      name ∉ (cat.constraintsOf table).map UniqueConstraint.name := by
  intro name hname hmem
  obtain ⟨c', hc', rfl⟩ := List.mem_map.mp hmem
  unfold uniqueConstraints at hname
  cases hreg : server.regclass table with
  | none => simp [hreg] at hname
  | some found =>
    simp only [hreg, List.map_map, List.mem_map, List.mem_insertionSort, Function.comp_apply] at hname
    obtain ⟨_, ⟨c, hc, rfl⟩, hsame⟩ := hname
    rw [hreg, ne_eq, Option.some.injEq] at hother
    exact hother (constraint_table_unique hc hc' hsame)

theorem hasTenantId_congr {table : String} (h : cat.view table = cat'.view table) :
    HasTenantId cat table ↔ HasTenantId cat' table := by
  unfold HasTenantId
  rw [tables_of_view h]
  rfl

theorem hasTenantId_of_adoptedView {t : Table δ} (h : cat.view plan.table = op.adoptedView env base plan t) :
    HasTenantId cat plan.table := by
  refine ⟨_, (tables_of_view h).trans rfl, ?_⟩
  have hmem : tenantColumn plan.pgType ∈ t.columns ++ [tenantColumn plan.pgType] := by simp
  exact List.find?_isSome.mpr ⟨_, hmem, by simp [tenantColumn]⟩

theorem tenantPgType_ok (h : op.tenantPgType env.conf = .ok pgType) : pgType = detectTenantPgType env.conf := by
  unfold tenantPgType at h
  unfold detectTenantPgType
  cases htype : pgTypeMap env.conf.pkDbType with
  | none =>
    rw [htype] at h
    cases h
  | some type =>
    rw [htype] at h
    cases h
    rfl

theorem view_helper (helper : Option TenantIdHelper) (name : String) :
    ({ cat with helper } : Catalogue δ).view name = cat.view name := rfl

variable [DecidableEq δ]

/-! ## What a plan's statements leave of its table -/

theorem leaves_adoptScript (hexec : execAll env.toServer (op.adoptScript env plan) cat = .ok cat')
    (hplanned : op.Planned env.toServer base plan) (hsame : cat.view plan.table = base.view plan.table) :
    ∃ t, base.tables plan.table = .some t ∧ t.column? "tenant_id" = .none ∧
      (env.regclass plan.table = .some plan.table ∨ plan.rewrites = []) ∧
      Leaves plan.table (op.adoptedView env base plan t) cat cat' := by
  unfold adoptScript at hexec
  obtain ⟨cat₂, hexec, hsecurity⟩ := execAll_append_ok_iff.mp hexec
  obtain ⟨cat₁, hcolumn, hrewrites⟩ := execAll_append_ok_iff.mp hexec
  have htables : cat.tables plan.table = base.tables plan.table := congrArg TableView.table hsame
  have hconstraints : cat.constraintsOf plan.table = base.constraintsOf plan.table :=
    congrArg TableView.constraints hsame
  have hcount : rowCount cat plan.table = .ok plan.existingRows := by
    rw [← hplanned.rows, rowCount, rowCount, htables]
  obtain ⟨t, ht, hnone, hleaves₁⟩ := leaves_addColumnScript hcolumn hcount hplanned.backfill
  have hconstraints₁ : cat₁.constraintsOf plan.table = base.constraintsOf plan.table :=
    (constraintsOf_of_view hleaves₁.here).trans hconstraints
  have hown : env.regclass plan.table = .some plan.table ∨ plan.rewrites = [] := by
    by_cases hself : env.regclass plan.table = .some plan.table
    · exact .inl hself
    · refine .inr (List.map_eq_nil_iff.mp (replacements_eq_nil hrewrites fun name hname => ?_))
      rw [List.map_map, hplanned.rewrites] at hname
      rw [hconstraints₁]
      exact rewrites_not_mem hself name hname
  have hnodup : (plan.rewrites.map Prod.fst).Nodup ∧ ∀ name ∈ plan.rewrites.map Prod.fst,
      name ∈ (cat₁.constraintsOf plan.table).map UniqueConstraint.name := by
    rcases hown with hself | hnil
    · rw [hplanned.rewrites, hconstraints₁]
      have hperm := rewrites_perm base hself
      exact ⟨hperm.nodup_iff.mpr nodup_constraintsOf, fun name hname => hperm.mem_iff.mp hname⟩
    · simp [hnil]
  have hleaves₂ := leaves_rewriteScript hrewrites hnodup.1 hnodup.2
  obtain ⟨t₂, ht₂, hleaves₃⟩ := leaves_securityScript hsecurity
  obtain rfl := Option.some.inj (ht₂.symm.trans (tables_of_view hleaves₂.here |>.trans
    (congrArg TableView.table hleaves₁.here)))
  refine ⟨t, htables ▸ ht, hnone, hown, ?_⟩
  have hleaves := (hleaves₁.trans hleaves₂).trans hleaves₃
  rw [policiesOf_of_view hleaves₂.here, hleaves₂.here, hconstraints₁, hleaves₁.here, hsame] at hleaves
  exact hleaves

/-- A table that has the column cannot be adopted. -/
theorem adoptScript_fails (hexec : execAll env.toServer (op.adoptScript env plan) cat = .ok cat') :
    ¬ HasTenantId cat plan.table := by
  rintro ⟨t, ht, hcolumn⟩
  unfold adoptScript at hexec
  obtain ⟨cat₂, hexec, -⟩ := execAll_append_ok_iff.mp hexec
  obtain ⟨cat₁, hexec, -⟩ := execAll_append_ok_iff.mp hexec
  obtain ⟨column, ss, hscript, hname⟩ : ∃ column ss, op.addColumnScript plan = .addColumn plan.table column :: ss ∧
      column.name = "tenant_id" := by
    unfold addColumnScript
    split
    · exact ⟨_, _, rfl, rfl⟩
    · exact ⟨_, _, rfl, rfl⟩
  rw [hscript] at hexec
  obtain ⟨cat₀, n, hadd, -⟩ := execAll_cons_ok_iff.mp hexec
  obtain ⟨t', -, ht', hnone, -⟩ := addColumn_ok (map_pair_ok_iff.mp hadd).1
  obtain rfl := Option.some.inj (ht.symm.trans ht')
  rw [hname] at hnone
  rw [hnone] at hcolumn
  cases hcolumn

/-- The tables of the plans, each adopted as it was in `base`; the others are
as they were. -/
theorem adoptScripts_leave {plans : List AdoptionPlan}
    (hexec : execAll env.toServer (plans.flatMap (op.adoptScript env)) cat = .ok cat')
    (hplanned : ∀ plan ∈ plans, op.Planned env.toServer base plan)
    (hsame : ∀ plan ∈ plans, cat.view plan.table = base.view plan.table ∨ HasTenantId cat plan.table) :
    (plans.map AdoptionPlan.table).Nodup ∧
      (∀ plan ∈ plans, ∃ t, base.tables plan.table = .some t ∧ t.column? "tenant_id" = .none ∧
        cat.view plan.table = base.view plan.table ∧
        (env.regclass plan.table = .some plan.table ∨ plan.rewrites = []) ∧
        cat'.view plan.table = op.adoptedView env base plan t) ∧
      ∀ name, name ∉ plans.map AdoptionPlan.table → cat'.view name = cat.view name := by
  induction plans generalizing cat with
  | nil =>
    cases hexec
    simp
  | cons plan plans ih =>
    rw [List.flatMap_cons] at hexec
    obtain ⟨cat₁, hplan, hexec⟩ := execAll_append_ok_iff.mp hexec
    have hview := (hsame plan (List.mem_cons_self ..)).resolve_right (adoptScript_fails hplan)
    obtain ⟨t, ht, hnone, hown, hleaves⟩ := leaves_adoptScript hplan (hplanned plan (List.mem_cons_self ..)) hview
    obtain ⟨hnodup, hadopted, helse⟩ := ih hexec (fun p hp => hplanned p (List.mem_cons_of_mem _ hp)) fun p hp => by
      by_cases hpt : p.table = plan.table
      · rw [hpt]
        exact .inr (hasTenantId_of_adoptedView hleaves.here)
      · rw [hasTenantId_congr (hleaves.elsewhere _ hpt), hleaves.elsewhere _ hpt]
        exact hsame p (List.mem_cons_of_mem _ hp)
    have hfresh : plan.table ∉ plans.map AdoptionPlan.table := by
      intro hmem
      obtain ⟨p, hp, hpt⟩ := List.mem_map.mp hmem
      obtain ⟨t', ht', hnone', hview', -⟩ := hadopted p hp
      obtain ⟨t'', ht'', hsome⟩ := hasTenantId_of_adoptedView hleaves.here
      rw [hpt] at hview' ht'
      rw [tables_of_view hview'] at ht''
      obtain rfl := Option.some.inj (ht'.symm.trans ht'')
      rw [hnone'] at hsome
      cases hsome
    refine ⟨List.nodup_cons.mpr ⟨hfresh, hnodup⟩, fun p hp => ?_, fun name hname => ?_⟩
    · rcases List.mem_cons.mp hp with rfl | hp
      · exact ⟨t, ht, hnone, hview, hown, (helse _ hfresh).trans hleaves.here⟩
      · have hpt : p.table ≠ plan.table := fun heq => hfresh (heq ▸ List.mem_map_of_mem hp)
        obtain ⟨t', ht', hnone', hview', hown', hleft⟩ := hadopted p hp
        exact ⟨t', ht', hnone', (hleaves.elsewhere _ hpt).symm.trans hview', hown', hleft⟩
    · rw [List.map_cons, List.mem_cons, not_or] at hname
      exact (helse name hname.2).trans (hleaves.elsewhere name hname.1)

/-! ## A whole run -/

theorem createHelperOnce_ok {plans : List AdoptionPlan} (hlive : env.editor = .live)
    (h : createHelperOnce env (detectTenantPgType env.conf) plans m = .ok u m') :
    Executed env.toServer m (helperScript env plans) m' := by
  unfold createHelperOnce at h
  unfold helperScript
  by_cases hempty : plans.isEmpty = true
  · rw [if_pos hempty] at h ⊢
    cases h
    exact .nil _ _
  · rw [if_neg hempty] at h ⊢
    exact schemaExecute_ok hlive h

/-- What is left of a run that the gates let through. -/
def applyPlans (op : AdoptTenantApp δ) (env : AdoptionEnv δ) (models : List AppModel) : Adopting δ Unit := do
  let plans ← reading fun cat => op.validateTables env (detectTenantPgType env.conf) cat models
  createHelperOnce env (detectTenantPgType env.conf) plans
  op.adoptTables env plans

/-- The gates read neither the catalogue nor the schema editor. -/
theorem databaseForwards_gates (h : op.databaseForwards env apps m = .ok u m') (editor : SchemaEditor) (s : Migration δ) :
    op.databaseForwards { env with editor } apps s = op.applyPlans { env with editor } (op.admitted env apps) s := by
  have hadmitted : op.admitted { env with editor } apps = op.admitted env apps := rfl
  unfold databaseForwards at h ⊢
  cases hrefusal : refusalReason op.appLabel apps with
  | some refusal =>
    rw [hrefusal] at h
    cases h
  | none =>
    rw [hrefusal] at h
    by_cases hempty : (adoptedModels env.conf env.apps op.appLabel apps op.exclude).isEmpty = true
    · simp only [if_pos hempty] at h
      cases h
    by_cases hnone : (op.admitted env apps).isEmpty = true
    · simp only [if_neg hempty, hadmitted, if_pos hnone]
      rw [List.isEmpty_iff.mp hnone]
      rfl
    · simp only [if_neg hempty, if_neg hnone] at h
      simp only [if_neg hempty, hadmitted, if_neg hnone]
      obtain ⟨_, m₁, hvendor, h₁⟩ := bind_ok_iff.mp h
      obtain ⟨hgate, rfl⟩ := reading_ok_iff.mp hvendor
      obtain ⟨pgType, m₂, hread, -⟩ := bind_ok_iff.mp h₁
      obtain ⟨htype, rfl⟩ := reading_ok_iff.mp hread
      obtain rfl := tenantPgType_ok htype
      have hgate' : op.requirePostgresql { env with editor } = .ok () := hgate
      unfold planThenApply applyPlans
      rw [bind_run, reading, hgate']
      simp only
      rw [bind_run, reading, htype]

theorem applyPlans_run {plans : List AdoptionPlan}
    (hplans : op.validateTables env (detectTenantPgType env.conf) m.catalogue models = .ok plans) :
    op.applyPlans env models m =
      (createHelperOnce env (detectTenantPgType env.conf) plans >>= fun _ => op.adoptTables env plans) m := by
  unfold applyPlans
  rw [bind_run, reading, hplans]

theorem applyPlans_ok (hlive : env.editor = .live) (h : op.applyPlans env models m = .ok u m') :
    ∃ plans, op.validateTables env (detectTenantPgType env.conf) m.catalogue models = .ok plans ∧
      Executed env.toServer m (helperScript env plans ++ plans.flatMap (op.adoptScript env)) m' := by
  obtain ⟨plans, m₁, hread, happly⟩ := bind_ok_iff.mp h
  obtain ⟨hplans, rfl⟩ := reading_ok_iff.mp hread
  obtain ⟨_, m₂, hhelper, htables⟩ := bind_ok_iff.mp happly
  exact ⟨plans, hplans, (createHelperOnce_ok hlive hhelper).append (adoptTables_ok hlive htables)⟩

theorem databaseForwards_ok (hlive : env.editor = .live) (h : op.databaseForwards env apps m = .ok u m') :
    ∃ plans, op.validateTables env (detectTenantPgType env.conf) m.catalogue (op.admitted env apps) = .ok plans ∧
      Executed env.toServer m (helperScript env plans ++ plans.flatMap (op.adoptScript env)) m' :=
  applyPlans_ok hlive ((databaseForwards_gates h env.editor m).symm.trans h)

/-- The helper is of no table. -/
theorem view_of_helperScript {plans : List AdoptionPlan} (hexec : execAll server (helperScript env plans) cat = .ok cat')
    (name : String) : cat'.view name = cat.view name := by
  unfold helperScript at hexec
  by_cases hempty : plans.isEmpty = true
  · rw [if_pos hempty] at hexec
    rw [Except.ok.inj hexec]
  · rw [if_neg hempty] at hexec
    obtain ⟨cat₁, n, hcreate, hrest⟩ := execAll_cons_ok_iff.mp hexec
    cases hcreate
    rw [← Except.ok.inj hrest]
    exact view_helper _ name

/-- A run that executed the statements of its plans did what `Completed` says. -/
theorem completed_of_executed {plans : List AdoptionPlan}
    (hplans : op.validateTables env (detectTenantPgType env.conf) m.catalogue models = .ok plans)
    (hexecuted : Executed env.toServer m (helperScript env plans ++ plans.flatMap (op.adoptScript env)) m') :
    op.Completed env models m m' plans := by
  obtain ⟨hplanned, hmodels⟩ := validateTables_ok hplans
  obtain ⟨cat₁, hhelper, hscripts⟩ := execAll_append_ok_iff.mp hexecuted.catalogue
  have hviews := view_of_helperScript hhelper
  obtain ⟨hnodup, hadopted, helse⟩ := adoptScripts_leave hscripts (fun plan hplan => (hplanned plan hplan).2.2)
    fun plan _ => .inl (hviews plan.table)
  refine ⟨hexecuted.executed, hplanned, hmodels, validateTables_tables hplans, hnodup, fun plan hplan => ?_,
    fun name hname => ?_⟩
  · obtain ⟨t, ht, hnone, -, hown, hview⟩ := hadopted plan hplan
    exact ⟨t, ht, hnone, hown, hview⟩
  · exact (helse name hname).trans (hviews name)

theorem databaseForwards_completed (hlive : env.editor = .live) (h : op.databaseForwards env apps m = .ok u m') :
    ∃ plans, op.Completed env (op.admitted env apps) m m' plans := by
  obtain ⟨plans, hplans, hexecuted⟩ := databaseForwards_ok hlive h
  exact ⟨plans, completed_of_executed hplans hexecuted⟩

/-! ## Refusals

No statement changes how many rows a table has, so that a backfill affects the
rows the probe read; past the validation every error is then a statement's.
-/

/-- What leaves each table as many rows as it had, and whose errors are
statements'. -/
structure OnlyRaises {α : Type} (x : Adopting δ α) (m : Migration δ) : Prop where
  rows : ∀ a m', x m = .ok a m' → ∀ table, rowCount m'.catalogue table = rowCount m.catalogue table
  error : ∀ e m', x m = .error e m' → ∃ e', e = .raised e'

omit [DecidableEq δ] in
theorem OnlyRaises.pure {α : Type} (a : α) : OnlyRaises (pure a) m where
  rows b m' h table := by
    cases h
    rfl
  error e m' h := by cases h

omit [DecidableEq δ] in
theorem OnlyRaises.bind {α β : Type} {x : Adopting δ α} {f : α → Adopting δ β} (hx : OnlyRaises x m)
    (hf : ∀ a m₁, x m = .ok a m₁ → OnlyRaises (f a) m₁) : OnlyRaises (x >>= f) m where
  rows b m' h table := by
    obtain ⟨a, m₁, hfirst, hrest⟩ := bind_ok_iff.mp h
    exact ((hf a m₁ hfirst).rows b m' hrest table).trans (hx.rows a m₁ hfirst table)
  error e m' h := by
    rcases bind_error_iff.mp h with hfirst | ⟨a, m₁, hfirst, hrest⟩
    · exact hx.error e m' hfirst
    · exact (hf a m₁ hfirst).error e m' hrest

theorem onlyRaises_cursorExecute (s : Statement δ) : OnlyRaises (cursorExecute env s) m where
  rows _ _ h table := rowCount_exec (cursorExecute_ok h).1 table
  error _ _ h := cursorExecute_error h

theorem onlyRaises_schemaExecute (s : Statement δ) : OnlyRaises (schemaExecute env s) m := by
  unfold schemaExecute
  cases env.editor with
  | live => exact (onlyRaises_cursorExecute s).bind fun n m₁ _ => .pure ()
  | collecting =>
    constructor
    · intro u m' h table
      cases h
      rfl
    · intro e m' h
      cases h

theorem backfill_affects {updated : Nat} (hcount : rowCount m.catalogue plan.table = .ok plan.existingRows)
    (h : op.backfill env plan m = .ok updated m') : updated = plan.existingRows := by
  unfold backfill at h
  cases hbackfill : op.backfillTenant with
  | some tenant =>
    rw [hbackfill] at h
    obtain ⟨t, ht, rfl, -⟩ := updateAll_ok (cursorExecute_ok h).1
    rw [rowCount, ht] at hcount
    simpa using hcount
  | none =>
    rw [hbackfill] at h
    cases h
    rfl

theorem onlyRaises_backfill : OnlyRaises (op.backfill env plan) m := by
  unfold backfill
  cases op.backfillTenant with
  | some tenant => exact onlyRaises_cursorExecute _
  | none => exact .pure _

theorem onlyRaises_addTenantColumn (hcount : rowCount m.catalogue plan.table = .ok plan.existingRows) :
    OnlyRaises (op.addTenantColumn env plan) m := by
  unfold addTenantColumn
  split
  · exact onlyRaises_schemaExecute _
  · refine (onlyRaises_schemaExecute _).bind fun _ m₁ hadd => ?_
    refine onlyRaises_backfill.bind fun updated m₂ hupdate => ?_
    have hcount₁ := ((onlyRaises_schemaExecute _).rows _ m₁ hadd plan.table).trans hcount
    rw [if_pos (backfill_affects hcount₁ hupdate)]
    exact (onlyRaises_schemaExecute _).bind fun _ _ _ => onlyRaises_schemaExecute _

theorem onlyRaises_applyUniqueRewrites (table : String) (rewrites : List (String × List String)) :
    OnlyRaises (applyUniqueRewrites env table rewrites) m := by
  induction rewrites generalizing m with
  | nil => exact .pure ()
  | cons rewrite rewrites ih =>
    exact (onlyRaises_schemaExecute _).bind fun _ _ _ => (onlyRaises_schemaExecute _).bind fun _ _ _ => ih

theorem onlyRaises_adoptTable (hcount : rowCount m.catalogue plan.table = .ok plan.existingRows) :
    OnlyRaises (op.adoptTable env plan) m := by
  refine (onlyRaises_addTenantColumn hcount).bind fun _ _ _ => ?_
  refine (onlyRaises_applyUniqueRewrites _ _).bind fun _ _ _ => ?_
  refine (onlyRaises_schemaExecute _).bind fun _ _ _ => ?_
  refine (onlyRaises_schemaExecute _).bind fun _ _ _ => ?_
  exact (onlyRaises_schemaExecute _).bind fun _ _ _ => onlyRaises_schemaExecute _

theorem onlyRaises_adoptTables {plans : List AdoptionPlan}
    (hcounts : ∀ plan ∈ plans, rowCount m.catalogue plan.table = .ok plan.existingRows) :
    OnlyRaises (op.adoptTables env plans) m := by
  induction plans generalizing m with
  | nil => exact .pure ()
  | cons plan plans ih =>
    have hfirst : OnlyRaises (op.adoptTable env plan) m := onlyRaises_adoptTable (hcounts plan (List.mem_cons_self ..))
    refine hfirst.bind fun _ m₁ hplan => ih fun p hp => ?_
    exact (hfirst.rows _ m₁ hplan p.table).trans (hcounts p (List.mem_cons_of_mem _ hp))

theorem onlyRaises_createHelperOnce {plans : List AdoptionPlan} : OnlyRaises (createHelperOnce env pgType plans) m := by
  unfold createHelperOnce
  split
  · exact .pure ()
  · exact onlyRaises_schemaExecute _

/-- Past the validation every error is a statement's. -/
theorem planThenApply_refused {message : String}
    (h : op.planThenApply env models m = .error (.refused message) m') : m' = m := by
  rcases bind_error_iff.mp h with hvendor | ⟨_, m₁, hvendor, h₁⟩
  · exact (reading_error_iff.mp hvendor).2
  obtain ⟨-, rfl⟩ := reading_ok_iff.mp hvendor
  rcases bind_error_iff.mp h₁ with htype | ⟨pgType, m₂, hread, h₂⟩
  · exact (reading_error_iff.mp htype).2
  obtain ⟨htype, rfl⟩ := reading_ok_iff.mp hread
  rcases bind_error_iff.mp h₂ with hplans | ⟨plans, m₃, hread, h₃⟩
  · exact (reading_error_iff.mp hplans).2
  obtain ⟨hplans, rfl⟩ := reading_ok_iff.mp hread
  have happly : OnlyRaises (createHelperOnce env pgType plans >>= fun _ => op.adoptTables env plans) m₃ := by
    refine onlyRaises_createHelperOnce.bind fun _ m₄ hhelper => onlyRaises_adoptTables fun plan hplan => ?_
    exact (onlyRaises_createHelperOnce.rows _ m₄ hhelper plan.table).trans
      ((validateTables_ok hplans).1 plan hplan).2.2.rows
  obtain ⟨e', he⟩ := happly.error _ _ h₃
  cases he

/-- A refusal leaves the database as it was. -/
theorem databaseForwards_refused {message : String}
    (h : op.databaseForwards env apps m = .error (.refused message) m') : m' = m := by
  unfold databaseForwards at h
  cases hrefusal : refusalReason op.appLabel apps with
  | some refusal =>
    rw [hrefusal] at h
    cases h
    rfl
  | none =>
    rw [hrefusal] at h
    by_cases hempty : (adoptedModels env.conf env.apps op.appLabel apps op.exclude).isEmpty = true
    · simp only [if_pos hempty, throw_run, EStateM.Result.error.injEq] at h
      exact h.2.symm
    by_cases hnone : (op.admitted env apps).isEmpty = true
    · simp only [if_neg hempty, if_pos hnone] at h
      cases h
    · simp only [if_neg hempty, if_neg hnone] at h
      exact planThenApply_refused h

/-! ## A shop

A server with one relation, and an app with one model to adopt.
-/

/-- An unquoted identifier, folded. -/
def folded (text : String) : String := String.ofList (text.toList.map Char.toLower)

/-- A server with the relations, of which `to_regclass` finds the one an
unquoted name folds to. -/
def serverOf (relations : List String) : Server Nat where
  regclass text := relations.find? fun name => name = folded text ∧ folded name = name
  regclass_self {text name} h := by
    have hname : name = folded text ∧ folded name = name := by simpa using List.find?_some h
    have hsame : ∀ other, (other = folded text ∧ folded other = other) ↔ other = folded name ∧ folded other = other := by
      intro other
      rw [hname.2, hname.1]
    simpa only [hsame] using h

/-- A model whose `sku` is unique. -/
def shopWidget (dbTable : String) : AppModel where
  appLabel := "shop"
  name := "Widget"
  dbTable := dbTable
  localFields := [⟨"sku", "sku", true, false⟩]

def shopApps (model : AppModel) : Apps where
  models appLabel := if appLabel = "shop" then .some [model] else .none

/-- The tenants' primary key is a `bigint`. -/
def shopEnv (model : AppModel) : AdoptionEnv Nat where
  toServer := serverOf [model.dbTable]
  conf := { tenantModel := "accounts.Tenant", tenantAppLabel := "accounts", tenantName := "Tenant", pkDbType := "bigint" }
  apps := shopApps model
  indexName table columns suffix := "_".intercalate (table :: columns) ++ suffix
  uniqueName table columns := "_".intercalate (table :: columns) ++ "_uniq"

def adoptShop : AdoptTenantApp Nat where
  appLabel := "shop"
  backfillTenant := .some 1

theorem admitted_shop {model widget : AppModel} (hmodel : model ∈ adoptShop.admitted (shopEnv widget) (shopApps widget)) :
    model = widget := by
  have hmem := List.mem_of_mem_filter (List.mem_of_mem_filter hmodel)
  simpa [shopApps, adoptShop] using hmem

theorem mem_admitted_shop {widget : AppModel}
    (hsome : (adoptShop.admitted (shopEnv widget) (shopApps widget)).isEmpty = false) :
    widget ∈ adoptShop.admitted (shopEnv widget) (shopApps widget) := by
  obtain ⟨model, hmodel⟩ := List.exists_mem_of_ne_nil _ (by simpa using hsome)
  exact admitted_shop hmodel ▸ hmodel

end AdoptTenantApp

end Boundary
