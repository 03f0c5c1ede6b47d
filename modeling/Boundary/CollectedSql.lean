/-
What `sqlmigrate` shows of an adoption. A collecting schema editor executes
nothing, while the backfill goes to a cursor: it is executed, against a table
that has no column yet, and is not collected.
-/
import Boundary.PlanThenApply
import Boundary.Reversal

namespace Boundary

open Exec

/-- The same environment, with a schema editor that collects. -/
def AdoptionEnv.collecting {δ : Type} (env : AdoptionEnv δ) : AdoptionEnv δ := { env with editor := .collecting }

/-- The statements are collected, and nothing is executed. -/
def Migration.collect {δ : Type} (m : Migration δ) (ss : List (Statement δ)) : Migration δ :=
  { m with collected := m.collected ++ ss }

namespace AdoptTenantApp

variable {δ : Type}

/-- The run completes and executes nothing, and what it collects leaves, once
executed, `after`. -/
def CollectsAlike [DecidableEq δ] (server : Server δ) (run : Adopting δ Unit) (m : Migration δ) (after : Catalogue δ) :
    Prop :=
  ∃ script, run m = .ok () (m.collect script) ∧ execAll server script m.catalogue = .ok after

/-- Of no table that is reversed is another read later. -/
def ReadApart (env : AdoptionEnv δ) (cat : Catalogue δ) (models : List AppModel) : Prop :=
  models.Pairwise fun earlier later =>
    env.regclass later.dbTable = .some earlier.dbTable → ¬ HasTenantId cat earlier.dbTable

@[simp] theorem collect_nil (m : Migration δ) : m.collect [] = m := by simp [Migration.collect]

@[simp] theorem collect_collect (m : Migration δ) (ss ss' : List (Statement δ)) :
    (m.collect ss).collect ss' = m.collect (ss ++ ss') := by
  simp [Migration.collect]

@[simp] theorem collect_catalogue (m : Migration δ) (ss : List (Statement δ)) :
    (m.collect ss).catalogue = m.catalogue := rfl

theorem collect_inj {m : Migration δ} {ss ss' : List (Statement δ)} (h : m.collect ss = m.collect ss') : ss = ss' :=
  List.append_cancel_left (congrArg Migration.collected h)

variable [DecidableEq δ] {op : AdoptTenantApp δ} {env : AdoptionEnv δ} {apps : Apps} {models : List AppModel}
  {m m' s s' : Migration δ} {plan : AdoptionPlan} {plans : List AdoptionPlan} {model : AppModel}
  {cat cat' base : Catalogue δ} {name : String}

/-! ## Forwards -/

theorem schemaExecute_collects (s : Statement δ) (m : Migration δ) :
    schemaExecute env.collecting s m = .ok () (m.collect [s]) := rfl

omit [DecidableEq δ] in
theorem bind_collects {x : Adopting δ Unit} {f : Unit → Adopting δ Unit} {ss : List (Statement δ)}
    (hx : x m = .ok () (m.collect ss)) : (x >>= f) m = f () (m.collect ss) := by
  rw [bind_run, hx]

theorem applyUniqueRewrites_collects (table : String) (rewrites : List (String × List String)) :
    applyUniqueRewrites env.collecting table rewrites m = .ok () (m.collect (rewriteScript env table rewrites)) := by
  induction rewrites generalizing m with
  | nil =>
    rw [rewriteScript, List.map_nil, replaceScript, List.flatMap_nil, collect_nil]
    rfl
  | cons rewrite rewrites ih =>
    unfold applyUniqueRewrites
    rw [bind_collects (schemaExecute_collects _ _), bind_collects (schemaExecute_collects _ _), ih, collect_collect,
      collect_collect]
    rfl

/-- A table of no rows is adopted by statements that are collected. -/
theorem adoptTable_collects (hempty : plan.existingRows = 0) :
    op.adoptTable env.collecting plan m = .ok () (m.collect (op.adoptScript env plan)) := by
  have hcolumn : op.addTenantColumn env.collecting plan m = .ok () (m.collect (op.addColumnScript plan)) := by
    unfold addTenantColumn addColumnScript
    rw [if_pos hempty, if_pos hempty]
    rfl
  unfold adoptTable createTenantPolicies
  rw [bind_collects hcolumn, bind_collects (applyUniqueRewrites_collects _ _),
    bind_collects (schemaExecute_collects _ _), bind_collects (schemaExecute_collects _ _),
    bind_collects (schemaExecute_collects _ _), schemaExecute_collects]
  simp only [collect_collect, adoptScript, securityScript, List.append_assoc, List.cons_append, List.nil_append]
  rfl

/-- The backfill of a table with rows is executed, of a column that is not there. -/
theorem adoptTable_raises {t : Table δ} (ht : m.catalogue.tables plan.table = .some t)
    (hnone : t.column? "tenant_id" = .none) (hrows : plan.existingRows ≠ 0) (hbackfill : op.backfillTenant.isSome = true) :
    ∃ e m', op.adoptTable env.collecting plan m = .error e m' := by
  obtain ⟨tenant, htenant⟩ := Option.isSome_iff_exists.mp hbackfill
  have hupdate : m.catalogue.updateAll plan.table "tenant_id" tenant = .error programmingError := by
    unfold Catalogue.updateAll
    rw [ht]
    simp [hnone]
  refine ⟨.raised programmingError, m.collect [.addColumn plan.table ⟨"tenant_id", plan.pgType, false, .none⟩], ?_⟩
  unfold adoptTable addTenantColumn
  rw [if_neg hrows, bind_run, bind_collects (schemaExecute_collects _ _), bind_run]
  unfold backfill
  simp only [htenant, cursorExecute, Statement.exec, collect_catalogue, hupdate]

theorem adoptTables_collects (hempty : ∀ plan ∈ plans, plan.existingRows = 0) :
    op.adoptTables env.collecting plans m = .ok () (m.collect (plans.flatMap (op.adoptScript env))) := by
  induction plans generalizing m with
  | nil =>
    rw [List.flatMap_nil, collect_nil]
    rfl
  | cons plan plans ih =>
    unfold adoptTables
    rw [bind_collects (adoptTable_collects (hempty plan (List.mem_cons_self ..))),
      ih fun plan hplan => hempty plan (List.mem_cons_of_mem _ hplan), collect_collect]
    rfl

theorem adoptTables_raises
    (hlacks : ∀ plan ∈ plans, ∃ t, m.catalogue.tables plan.table = .some t ∧ t.column? "tenant_id" = .none)
    (hbackfill : ∀ plan ∈ plans, plan.existingRows ≠ 0 → op.backfillTenant.isSome = true)
    (hrows : ∃ plan ∈ plans, plan.existingRows ≠ 0) : ∃ e m', op.adoptTables env.collecting plans m = .error e m' := by
  induction plans generalizing m with
  | nil => simp at hrows
  | cons plan plans ih =>
    have hfirst : plan ∈ plan :: plans := List.mem_cons_self ..
    unfold adoptTables
    by_cases hempty : plan.existingRows = 0
    · rw [bind_collects (adoptTable_collects hempty)]
      refine ih (fun plan hplan => hlacks plan (List.mem_cons_of_mem _ hplan))
        (fun plan hplan => hbackfill plan (List.mem_cons_of_mem _ hplan)) ?_
      obtain ⟨plan', hplan', hne⟩ := hrows
      rcases List.mem_cons.mp hplan' with rfl | hplan'
      · exact absurd hempty hne
      · exact ⟨plan', hplan', hne⟩
    · obtain ⟨t, ht, hnone⟩ := hlacks plan hfirst
      obtain ⟨e, m', hraises⟩ : ∃ e m', op.adoptTable env.collecting plan m = .error e m' :=
        adoptTable_raises ht hnone hempty (hbackfill plan hfirst hempty)
      exact ⟨e, m', by rw [bind_run, hraises]⟩

omit [DecidableEq δ] in
theorem validateTable_collecting (pgType : String) :
    op.validateTable env.collecting pgType model cat = op.validateTable env pgType model cat := rfl

omit [DecidableEq δ] in
theorem validateTables_collecting (pgType : String) :
    op.validateTables env.collecting pgType cat models = op.validateTables env pgType cat models := by
  induction models with
  | nil => rfl
  | cons model models ih =>
    unfold validateTables
    rw [ih, validateTable_collecting]

/-- Where the live run completes, the gates let the other through, to the same
plans. -/
theorem databaseForwards_collecting (hlive : env.editor = .live) (h : op.databaseForwards env apps m = .ok () m') :
    ∃ plans, op.validateTables env (detectTenantPgType env.conf) m.catalogue (op.admitted env apps) = .ok plans ∧
      Executed env.toServer m (helperScript env plans ++ plans.flatMap (op.adoptScript env)) m' ∧
      op.databaseForwards env.collecting apps m =
        (createHelperOnce env.collecting (detectTenantPgType env.conf) plans >>= fun _ =>
          op.adoptTables env.collecting plans) m := by
  obtain ⟨plans, hplans, hexecuted⟩ := databaseForwards_ok hlive h
  have hplans' : op.validateTables env.collecting (detectTenantPgType env.conf) m.catalogue (op.admitted env apps) =
      .ok plans := (validateTables_collecting _).trans hplans
  exact ⟨plans, hplans, hexecuted, (databaseForwards_gates h .collecting m).trans (applyPlans_run hplans')⟩

theorem createHelperOnce_collects :
    createHelperOnce env.collecting (detectTenantPgType env.conf) plans m =
      .ok () (m.collect (helperScript env plans)) := by
  unfold createHelperOnce helperScript
  by_cases hempty : plans.isEmpty = true
  · rw [if_pos hempty, if_pos hempty, collect_nil]
    rfl
  · rw [if_neg hempty, if_neg hempty]
    rfl

theorem databaseForwards_collects (hlive : env.editor = .live) (h : op.databaseForwards env apps m = .ok () m') :
    CollectsAlike env.toServer (op.databaseForwards env.collecting apps) m m'.catalogue ↔
      ∀ model ∈ op.admitted env apps, columnType env.toServer m.catalogue model.dbTable "tenant_id" = .none →
        rowCount m.catalogue model.dbTable = .ok 0 := by
  obtain ⟨plans, hplans, hexecuted, hcollecting⟩ := databaseForwards_collecting hlive h
  obtain ⟨hplanned, hmodels⟩ := validateTables_ok hplans
  rw [bind_collects createHelperOnce_collects] at hcollecting
  constructor
  · rintro ⟨script, hrun, -⟩ model hmodel hnone
    obtain ⟨plan, hplan, htable⟩ : ∃ plan ∈ plans, plan.table = model.dbTable := by
      rcases hmodels model hmodel with ⟨type, htype, -⟩ | hplan
      · rw [hnone] at htype
        cases htype
      · exact hplan
    rw [← htable, (hplanned plan hplan).2.2.rows]
    by_contra hrows
    obtain ⟨cat₁, hhelper, hscripts⟩ := execAll_append_ok_iff.mp hexecuted.catalogue
    obtain ⟨-, hadopted, -⟩ := adoptScripts_leave hscripts (fun plan hplan => (hplanned plan hplan).2.2)
      fun plan _ => .inl (view_of_helperScript hhelper plan.table)
    obtain ⟨e, m₁, hraises⟩ : ∃ e m₁, op.adoptTables env.collecting plans (m.collect (helperScript env plans)) =
        .error e m₁ := by
      refine adoptTables_raises (fun plan hplan => ?_) (fun plan hplan => (hplanned plan hplan).2.2.backfill)
        ⟨plan, hplan, fun hzero => hrows (by rw [hzero])⟩
      obtain ⟨t, ht, hlacks, -⟩ := hadopted plan hplan
      exact ⟨t, ht, hlacks⟩
    rw [hcollecting, hraises] at hrun
    cases hrun
  · intro hempty
    refine ⟨_, hcollecting.trans ?_, hexecuted.catalogue⟩
    rw [adoptTables_collects fun plan hplan => ?_, collect_collect]
    obtain ⟨htable, -, hplan⟩ := hplanned plan hplan
    obtain ⟨model, hmodel, hsame⟩ := List.mem_map.mp htable
    have hzero := hempty model hmodel (hsame ▸ hplan.column)
    rw [hsame, hplan.rows] at hzero
    exact Except.ok.inj hzero

/-! ## Backwards -/

/-- What is collected of the tables of which a column is read. -/
def unadoptScripts (env : AdoptionEnv δ) (cat : Catalogue δ) (models : List AppModel) : List (Statement δ) :=
  (models.filter fun model => (columnType env.toServer cat model.dbTable "tenant_id").isSome).flatMap
    (unadoptScript env cat)

theorem restoreUniqueConstraints_collects (table : String) (live : List UniqueConstraintRow)
    (columnSets : List (List String)) :
    restoreUniqueConstraints env.collecting table live columnSets m =
      .ok () (m.collect (restoreScript env table live columnSets)) := by
  induction columnSets generalizing m with
  | nil =>
    rw [restoreScript, replacements, List.filterMap_nil, replaceScript, List.flatMap_nil, collect_nil]
    rfl
  | cons columns columnSets ih =>
    unfold restoreScript replacements at ih ⊢
    rw [List.filterMap_cons]
    unfold restoreUniqueConstraints
    cases live.find? (·.columns = "tenant_id" :: columns) with
    | none => exact ih
    | some c =>
      simp only [Option.map_some]
      rw [bind_collects (schemaExecute_collects _ _), bind_collects (schemaExecute_collects _ _), ih, collect_collect,
        collect_collect]
      rfl

theorem unadoptTable_collects {type : String}
    (hread : columnType env.toServer m.catalogue model.dbTable "tenant_id" = .some type) :
    unadoptTable env.collecting model m = .ok () (m.collect (unadoptScript env m.catalogue model)) := by
  have hread' : columnType env.collecting.toServer m.catalogue model.dbTable "tenant_id" = .some type := hread
  unfold unadoptTable
  rw [bind_run, reading]
  simp only [hread']
  rw [bind_collects (schemaExecute_collects _ _), bind_collects (schemaExecute_collects _ _),
    bind_collects (schemaExecute_collects _ _), bind_collects (schemaExecute_collects _ _), bind_run, reading]
  simp only
  rw [bind_collects (restoreUniqueConstraints_collects _ _ _), schemaExecute_collects]
  simp only [collect_collect, collect_catalogue, List.cons_append, List.nil_append]
  rfl

theorem unadoptTables_collects :
    unadoptTables env.collecting models m = .ok () (m.collect (unadoptScripts env m.catalogue models)) := by
  induction models generalizing m with
  | nil =>
    rw [unadoptScripts, List.filter_nil, List.flatMap_nil, collect_nil]
    rfl
  | cons model models ih =>
    have hcons : unadoptTables env.collecting (model :: models) m =
        (unadoptTable env.collecting model >>= fun _ => unadoptTables env.collecting models) m := rfl
    rw [hcons]
    cases hread : columnType env.toServer m.catalogue model.dbTable "tenant_id" with
    | none =>
      have hturn : unadoptTable env.collecting model m = .ok () m := unadoptTable_absent hread
      rw [bind_run, hturn]
      simp only [ih]
      rw [unadoptScripts, unadoptScripts, List.filter_cons_of_neg (by simp [hread])]
    | some type =>
      rw [bind_collects (unadoptTable_collects hread), ih, collect_collect, collect_catalogue]
      rw [unadoptScripts, unadoptScripts, List.filter_cons_of_pos (by simp [hread]), List.flatMap_cons]

/-- What is read of the model's table is as it was in `base`, or lacks the column
as it did there. -/
def ReadAlike (env : AdoptionEnv δ) (base cat : Catalogue δ) (model : AppModel) : Prop :=
  ∀ read, env.regclass model.dbTable = .some read →
    cat.view read = base.view read ∨ ¬ HasTenantId base read ∧ ¬ HasTenantId cat read

omit [DecidableEq δ] in
theorem ReadAlike.columnType_none (h : ReadAlike env base cat model)
    (hnone : columnType env.toServer base model.dbTable "tenant_id" = .none) :
    columnType env.toServer cat model.dbTable "tenant_id" = .none := by
  cases hread : env.regclass model.dbTable with
  | none => exact columnType_of_unread hread
  | some read =>
    rcases h read hread with hview | ⟨-, hlacks⟩
    · rw [← hnone, columnType, columnType, regclassTable, regclassTable, hread, Option.bind_some, Option.bind_some,
        tables_of_view hview]
      rfl
    · exact Option.eq_none_iff_forall_ne_some.mpr fun type htype =>
        hlacks ((columnType_eq_some_iff hread).mp ⟨type, htype⟩)

omit [DecidableEq δ] in
theorem ReadAlike.unadoptScript_eq (h : ReadAlike env base cat model) {type : String}
    (hsome : columnType env.toServer base model.dbTable "tenant_id" = .some type) :
    columnType env.toServer cat model.dbTable "tenant_id" = .some type ∧
      unadoptScript env cat model = unadoptScript env base model := by
  cases hread : env.regclass model.dbTable with
  | none =>
    rw [columnType_of_unread hread] at hsome
    cases hsome
  | some read =>
    have hview := (h read hread).resolve_right fun hlack => hlack.1 ((columnType_eq_some_iff hread).mp ⟨type, hsome⟩)
    constructor
    · rw [← hsome, columnType, columnType, regclassTable, regclassTable, hread, Option.bind_some, Option.bind_some,
        tables_of_view hview]
      rfl
    · rw [unadoptScript, unadoptScript, uniqueConstraints, uniqueConstraints, hread]
      simp only [constraintsOf_of_view hview]
      rfl

section

variable {server : Server δ}

/-- Statements of a reversal add no column. -/
theorem scripts_lack (hexec : execAll server (models.flatMap (unadoptScript env base)) cat = .ok cat')
    (hlacks : ¬ HasTenantId cat name) : ¬ HasTenantId cat' name := by
  induction models generalizing cat with
  | nil =>
    cases hexec
    exact hlacks
  | cons model models ih =>
    rw [List.flatMap_cons] at hexec
    obtain ⟨cat₁, hmodel, hexec⟩ := execAll_append_ok_iff.mp hexec
    refine ih hexec ?_
    by_cases hname : name = model.dbTable
    · subst hname
      obtain ⟨t, -, -, ht⟩ := tables_unadoptScript hmodel
      exact not_hasTenantId_of_unadopted ht
    · rw [hasTenantId_congr (execAll_elsewhere hmodel unadoptScript_table hname)]
      exact hlacks

/-- Every table of which statements were collected has the column before, and
not after. -/
theorem scripts_take (hexec : execAll server (models.flatMap (unadoptScript env base)) cat = .ok cat')
    (hmem : model ∈ models) : HasTenantId cat model.dbTable ∧ ¬ HasTenantId cat' model.dbTable := by
  obtain ⟨earlier, later, rfl⟩ := List.append_of_mem hmem
  rw [List.flatMap_append, List.flatMap_cons] at hexec
  obtain ⟨cat₁, hearlier, hexec⟩ := execAll_append_ok_iff.mp hexec
  obtain ⟨cat₂, hmodel, hlater⟩ := execAll_append_ok_iff.mp hexec
  obtain ⟨t, ht, hsome, ht'⟩ := tables_unadoptScript hmodel
  refine ⟨?_, scripts_lack hlater (not_hasTenantId_of_unadopted ht')⟩
  by_contra hlacks
  exact scripts_lack hearlier hlacks ⟨t, ht, hsome⟩

end

/-- What was collected of `base` leaves what the live reversal leaves exactly
when no table is read that was reversed before. The induction is over the turns
left, with what they read as it was in `base`. -/
theorem unadoptScripts_iff (hlive : env.editor = .live) (hread : ∀ model ∈ models, ReadAlike env base s.catalogue model)
    (h : unadoptTables env models s = .ok () s') :
    execAll env.toServer (unadoptScripts env base models) s.catalogue = .ok s'.catalogue ↔ ReadApart env base models := by
  induction models generalizing s with
  | nil =>
    cases h
    exact iff_of_true rfl .nil
  | cons model models ih =>
    obtain ⟨s₁, hs₁, hs'⟩ := unadoptTables_cons.mp h
    have halike := hread model (List.mem_cons_self ..)
    have hturn : execAll env.toServer (unadoptScripts env base (model :: models)) s.catalogue = .ok s'.catalogue ↔
        execAll env.toServer (unadoptScripts env base models) s₁.catalogue = .ok s'.catalogue := by
      unfold unadoptScripts
      cases hcolumn : columnType env.toServer base model.dbTable "tenant_id" with
      | none =>
        rw [unadoptTable_absent (halike.columnType_none hcolumn)] at hs₁
        cases hs₁
        rw [List.filter_cons_of_neg (by simp [hcolumn])]
      | some type =>
        obtain ⟨hsame, hscript⟩ := halike.unadoptScript_eq hcolumn
        have hexec := ((unadoptTable_ok_iff hlive hsame).mp hs₁).catalogue
        rw [hscript] at hexec
        rw [List.filter_cons_of_pos (by simp [hcolumn]), List.flatMap_cons, execAll_append_ok_iff, hexec]
        simp
    have hcons : ReadApart env base (model :: models) ↔ (∀ later ∈ models,
        env.regclass later.dbTable = .some model.dbTable → ¬ HasTenantId base model.dbTable) ∧ ReadApart env base models :=
      List.pairwise_cons
    rw [hturn, hcons]
    by_cases hapart : ∀ later ∈ models,
        env.regclass later.dbTable = .some model.dbTable → ¬ HasTenantId base model.dbTable
    · rw [ih (fun later hlater read hreg => ?_) hs', and_iff_right hapart]
      -- a later table reads another than this one, or one that lacked its column
      rcases hread later (List.mem_cons_of_mem _ hlater) read hreg with hview | ⟨hbase, hlacks⟩
      · by_cases hname : read = model.dbTable
        · subst hname
          have hbase := hapart later hlater hreg
          have hlacks : ¬ HasTenantId s.catalogue model.dbTable := by
            rw [hasTenantId_congr hview]
            exact hbase
          exact .inr ⟨hbase, unadoptTable_lacks hlive hs₁ hlacks⟩
        · exact .inl ((unadoptTable_elsewhere hlive hs₁ hname).trans hview)
      · exact .inr ⟨hbase, unadoptTable_lacks hlive hs₁ hlacks⟩
    · -- the live run skips the later table, of which statements were collected
      refine iff_of_false (fun hexec => ?_) fun hboth => hapart hboth.1
      push Not at hapart
      obtain ⟨later, hlater, hreg, hthere⟩ := hapart
      obtain ⟨type, htype⟩ := (columnType_eq_some_iff hreg).mpr hthere
      obtain ⟨type', htype'⟩ := (columnType_eq_some_iff (env.regclass_self hreg)).mpr hthere
      have hgone := (unadoptTable_ok hlive (halike.unadoptScript_eq htype').1 hs₁).2
      obtain ⟨hhas, hlost⟩ := scripts_take hexec (List.mem_filter.mpr ⟨hlater, by simp [htype]⟩)
      rw [hasTenantId_congr (unadoptTables_unread hlive hs' hreg hgone)] at hlost
      exact hlost hhas

theorem databaseBackwards_collecting (h : op.databaseBackwards env apps m = .ok () m') :
    unadoptTables env (op.admitted env apps) m = .ok () m' ∧
      op.databaseBackwards env.collecting apps m = unadoptTables env.collecting (op.admitted env apps) m := by
  unfold databaseBackwards at h ⊢
  by_cases hinstalled : (apps.models op.appLabel).isNone = true
  · rw [if_pos hinstalled] at h
    cases h
  rw [if_neg hinstalled] at h ⊢
  have hadmitted : op.admitted env.collecting apps = op.admitted env apps := rfl
  rw [hadmitted]
  by_cases hnone : (op.admitted env apps).isEmpty = true
  · rw [if_pos hnone] at h ⊢
    rw [List.isEmpty_iff.mp hnone]
    exact ⟨h, rfl⟩
  · rw [if_neg hnone] at h ⊢
    obtain ⟨_, m₁, hvendor, hunadopt⟩ := bind_ok_iff.mp h
    obtain ⟨hgate, rfl⟩ := reading_ok_iff.mp hvendor
    have hgateCollecting : op.requirePostgresql env.collecting = .ok () := hgate
    refine ⟨hunadopt, ?_⟩
    rw [bind_run, reading, hgateCollecting]

theorem databaseBackwards_collects (hlive : env.editor = .live) (h : op.databaseBackwards env apps m = .ok () m') :
    CollectsAlike env.toServer (op.databaseBackwards env.collecting apps) m m'.catalogue ↔
      ReadApart env m.catalogue (op.admitted env apps) := by
  obtain ⟨hrun, hcollecting⟩ := databaseBackwards_collecting h
  rw [unadoptTables_collects] at hcollecting
  rw [← unadoptScripts_iff hlive (fun _ _ _ _ => .inl rfl) hrun]
  constructor
  · rintro ⟨script, hcollected, hexec⟩
    rw [hcollecting] at hcollected
    rw [collect_inj (EStateM.Result.ok.inj hcollected).2]
    exact hexec
  · intro hexec
    exact ⟨_, hcollecting, hexec⟩

/-- What is collected of a run that succeeds live agrees with it exactly when
every table without the column is empty, forwards, and no table is read that is
reversed before, backwards. -/
theorem collectedSql_agrees (hlive : env.editor = .live) :
    (∀ m', op.databaseForwards env apps m = .ok () m' →
        (CollectsAlike env.toServer (op.databaseForwards env.collecting apps) m m'.catalogue ↔
          ∀ model ∈ op.admitted env apps, columnType env.toServer m.catalogue model.dbTable "tenant_id" = .none →
            rowCount m.catalogue model.dbTable = .ok 0)) ∧
      ∀ m', op.databaseBackwards env apps m = .ok () m' →
        (CollectsAlike env.toServer (op.databaseBackwards env.collecting apps) m m'.catalogue ↔
          ReadApart env m.catalogue (op.admitted env apps)) :=
  ⟨fun _ h => databaseForwards_collects hlive h, fun _ h => databaseBackwards_collects hlive h⟩

/-- The widgets' table, of no row. -/
def emptyShop : Migration Nat where
  catalogue :=
    { (shopOf "shop_widget").catalogue with
      tables := fun name =>
        if name = "shop_widget" then .some { columns := [⟨"id", "bigint", true, .none⟩, ⟨"sku", "text", true, .none⟩] }
        else .none }

theorem collectedSql_agrees_empty :
    ∃ m' m'', adoptShop.databaseForwards (shopEnv (shopWidget "shop_widget")) (shopApps (shopWidget "shop_widget"))
        emptyShop = .ok () m' ∧
      CollectsAlike (serverOf ["shop_widget"]) (adoptShop.databaseForwards (shopEnv (shopWidget "shop_widget")).collecting
        (shopApps (shopWidget "shop_widget"))) emptyShop m'.catalogue ∧
      adoptShop.databaseBackwards (shopEnv (shopWidget "shop_widget")) (shopApps (shopWidget "shop_widget")) m' =
        .ok () m'' ∧
      CollectsAlike (serverOf ["shop_widget"]) (adoptShop.databaseBackwards (shopEnv (shopWidget "shop_widget")).collecting
        (shopApps (shopWidget "shop_widget"))) m' m''.catalogue := by
  obtain ⟨m', hforwards⟩ : ∃ m', adoptShop.databaseForwards (shopEnv (shopWidget "shop_widget"))
      (shopApps (shopWidget "shop_widget")) emptyShop = .ok () m' := exists_of_isOk (by decide +kernel)
  obtain ⟨m'', hbackwards⟩ : ∃ m'', adoptShop.databaseBackwards (shopEnv (shopWidget "shop_widget"))
      (shopApps (shopWidget "shop_widget")) m' = .ok () m'' := by
    rw [← after_of_ok hforwards]
    exact exists_of_isOk (by decide +kernel)
  refine ⟨m', m'', hforwards, ((collectedSql_agrees rfl).1 m' hforwards).mpr fun model hmodel _ => ?_, hbackwards,
    ((collectedSql_agrees rfl).2 m'' hbackwards).mpr ?_⟩
  · obtain rfl := admitted_shop hmodel
    rfl
  · exact List.pairwise_singleton _ _

/-- The table has a row, and the backfill is executed against it. -/
theorem collectedSql_agrees_populated :
    ∃ m', adoptShop.databaseForwards (shopEnv (shopWidget "shop_widget")) (shopApps (shopWidget "shop_widget"))
        (shopOf "shop_widget") = .ok () m' ∧
      ¬ CollectsAlike (serverOf ["shop_widget"]) (adoptShop.databaseForwards
        (shopEnv (shopWidget "shop_widget")).collecting (shopApps (shopWidget "shop_widget"))) (shopOf "shop_widget")
        m'.catalogue := by
  obtain ⟨m', hforwards⟩ : ∃ m', adoptShop.databaseForwards (shopEnv (shopWidget "shop_widget"))
      (shopApps (shopWidget "shop_widget")) (shopOf "shop_widget") = .ok () m' := exists_of_isOk (by decide +kernel)
  obtain ⟨e, m'', hraises⟩ : ∃ e m'', adoptShop.databaseForwards (shopEnv (shopWidget "shop_widget")).collecting
      (shopApps (shopWidget "shop_widget")) (shopOf "shop_widget") = .error e m'' := exists_of_isError (by decide +kernel)
  refine ⟨m', hforwards, ?_⟩
  rintro ⟨script, hrun, -⟩
  rw [hraises] at hrun
  cases hrun

end AdoptTenantApp

end Boundary
