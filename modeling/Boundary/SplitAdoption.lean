/-
An app adopted in parts, by operations that exclude what the others cover. What
an operation does of a table is a function of what the catalogue held of it, so
that the parts compose to the whole where each table is read as itself: a table
that was adopted is read as adopted, and skipped.
-/
import Boundary.PlanThenApply
import Boundary.Reversal
import Boundary.Lib.Marking

namespace Boundary

open Exec

namespace AdoptTenantApp

variable {δ : Type}

/-- The operations, one after the other. -/
def databaseForwardsAll [DecidableEq δ] (env : AdoptionEnv δ) (apps : Apps) : List (AdoptTenantApp δ) → Adopting δ Unit
  | [] => pure ()
  | op :: ops => do
    op.databaseForwards env apps
    databaseForwardsAll env apps ops

/-- The catalogues hold the same, but for the order they list constraints, indexes
and policies of different tables in. -/
structure SameCatalogue (cat cat' : Catalogue δ) : Prop where
  view : ∀ name, cat.view name = cat'.view name
  helper : cat.helper = cat'.helper
  relations : cat.relations = cat'.relations

/-- The operation, run again, executes nothing. -/
def ExecutesNothing [DecidableEq δ] (op : AdoptTenantApp δ) (env : AdoptionEnv δ) (apps : Apps) (m : Migration δ) : Prop :=
  (after (op.databaseForwards env apps) m).executed = m.executed

instance [DecidableEq δ] (op : AdoptTenantApp δ) (env : AdoptionEnv δ) (apps : Apps) (m : Migration δ) :
    Decidable (op.ExecutesNothing env apps m) :=
  inferInstanceAs (Decidable (_ = _))

/-! ## What a run leaves, as a function of what it found -/

/-- The tables an operation covers. -/
def covered (op : AdoptTenantApp δ) (env : AdoptionEnv δ) (apps : Apps) : Set String :=
  {table | table ∈ (op.admitted env apps).map AppModel.dbTable}

/-- The tables that have the column. -/
def marked (cat : Catalogue δ) : Set String := {table | HasTenantId cat table}

/-- The rewrites of a table that holds the constraints. -/
def rewritesOf (env : AdoptionEnv δ) (table : String) (constraints : List UniqueConstraint) :
    List (String × List String) :=
  if env.regclass table = .some table then
    ((constraints.map UniqueConstraint.row).insertionSort fun c c' => c.name ≤ c'.name).map toRewrite
  else []

/-- What the catalogue holds of an adopted table, where it held `v`. -/
def adoptedOf (op : AdoptTenantApp δ) (env : AdoptionEnv δ) (table : String) (v : TableView δ) : TableView δ where
  table := v.table.map fun t =>
    { op.withTenantColumn (detectTenantPgType env.conf) t with rowSecurity := true, forceRowSecurity := true }
  constraints := v.constraints.filter (·.name ∉ (rewritesOf env table v.constraints).map Prod.fst) ++
    (rewritesOf env table v.constraints).map (composite env table)
  indexes := v.indexes
  policies := v.policies ++ [tenantIsolation table "tenant_id", adminBypassPolicy env.conf.adminFlagVar table]

/-- Tables gain the column by being adopted, and are otherwise as they were; the
helper is created if one does. -/
structure Adopts (op : AdoptTenantApp δ) (env : AdoptionEnv δ) (before after : Catalogue δ) : Prop where
  grows : ∀ {name}, HasTenantId before name → HasTenantId after name
  adopted : ∀ {name}, ¬ HasTenantId before name → HasTenantId after name →
    after.view name = op.adoptedOf env name (before.view name)
  kept : ∀ {name}, (HasTenantId before name ∨ ¬ HasTenantId after name) → after.view name = before.view name
  created : (∃ name, ¬ HasTenantId before name ∧ HasTenantId after name) →
    after.helper = .some ⟨detectTenantPgType env.conf, env.conf.dbSessionVar, env.conf.functionLeakproof⟩
  uncreated : (∀ name, HasTenantId after name → HasTenantId before name) → after.helper = before.helper
  relations : after.relations = before.relations

variable {op op' whole : AdoptTenantApp δ} {ops : List (AdoptTenantApp δ)} {env : AdoptionEnv δ} {apps : Apps}
  {models : List AppModel} {m m' m'' m₁ s : Migration δ} {plan : AdoptionPlan} {plans : List AdoptionPlan}
  {model : AppModel} {cat cat' before mid last last' : Catalogue δ} {name table : String}

theorem adoptedOf_congr (hbackfill : op.backfillTenant = op'.backfillTenant) (v : TableView δ) :
    op.adoptedOf env table v = op'.adoptedOf env table v := by
  have hstamp : op.stamp = op'.stamp := by
    funext r
    rw [stamp, stamp, hbackfill]
  unfold adoptedOf withTenantColumn
  rw [hstamp]

theorem Adopts.congr (hbackfill : op.backfillTenant = op'.backfillTenant) (h : op.Adopts env before last) :
    op'.Adopts env before last :=
  { h with adopted := fun hlacks hthere => (h.adopted hlacks hthere).trans (adoptedOf_congr hbackfill _) }

theorem Adopts.refl (op : AdoptTenantApp δ) (env : AdoptionEnv δ) (cat : Catalogue δ) : op.Adopts env cat cat where
  grows h := h
  adopted hlacks hthere := absurd hthere hlacks
  kept _ := rfl
  created := fun ⟨_, hlacks, hthere⟩ => absurd hthere hlacks
  uncreated _ := rfl
  relations := rfl

theorem Adopts.trans (h : op.Adopts env before mid) (h' : op.Adopts env mid last) : op.Adopts env before last where
  grows hthere := h'.grows (h.grows hthere)
  adopted {name} hlacks hthere := by
    by_cases hmid : HasTenantId mid name
    · exact (h'.kept (.inl hmid)).trans (h.adopted hlacks hmid)
    · rw [h'.adopted hmid hthere, h.kept (.inr hmid)]
  kept {name} hsame := by
    rcases hsame with hbefore | hafter
    · exact (h'.kept (.inl (h.grows hbefore))).trans (h.kept (.inl hbefore))
    · exact (h'.kept (.inr hafter)).trans (h.kept (.inr fun hmid => hafter (h'.grows hmid)))
  created := by
    rintro ⟨name, hlacks, hthere⟩
    by_cases hnew : ∃ name, ¬ HasTenantId mid name ∧ HasTenantId last name
    · exact h'.created hnew
    · push Not at hnew
      rw [h'.uncreated fun name hafter => by_contra fun hmid => hnew name hmid hafter]
      exact h.created ⟨name, hlacks, by_contra fun hmid => hnew name hmid hthere⟩
  uncreated hnone :=
    (h'.uncreated fun _ hafter => h.grows (hnone _ hafter)).trans (h.uncreated fun _ hmid => hnone _ (h'.grows hmid))
  relations := h'.relations.trans h.relations

/-- The same tables gain the column exactly when the same catalogue is left. -/
theorem Adopts.same_iff (h : op.Adopts env before last) (h' : op.Adopts env before last') :
    SameCatalogue last last' ↔ marked last = marked last' := by
  constructor
  · intro hsame
    ext name
    exact hasTenantId_congr (hsame.view name)
  · intro hmarked
    have hiff : ∀ name, HasTenantId last name ↔ HasTenantId last' name := fun name => Set.ext_iff.mp hmarked name
    refine ⟨fun name => ?_, ?_, h.relations.trans h'.relations.symm⟩
    · by_cases hnew : ¬ HasTenantId before name ∧ HasTenantId last name
      · rw [h.adopted hnew.1 hnew.2, h'.adopted hnew.1 ((hiff name).mp hnew.2)]
      · have hold : HasTenantId before name ∨ ¬ HasTenantId last name := by
          by_cases hbefore : HasTenantId before name
          · exact .inl hbefore
          · exact .inr fun hafter => hnew ⟨hbefore, hafter⟩
        rw [h.kept hold, h'.kept (hold.imp_right (hiff name).not.mp)]
    · by_cases hnew : ∃ name, ¬ HasTenantId before name ∧ HasTenantId last name
      · obtain ⟨name, hlacks, hthere⟩ := hnew
        rw [h.created ⟨name, hlacks, hthere⟩, h'.created ⟨name, hlacks, (hiff name).mp hthere⟩]
      · push Not at hnew
        have hnone : ∀ name, HasTenantId last name → HasTenantId before name :=
          fun name hafter => by_contra fun hbefore => hnew name hbefore hafter
        rw [h.uncreated hnone, h'.uncreated fun name hafter => hnone name ((hiff name).mpr hafter)]

/-! ## One operation -/

/-- What a plan leaves, as a function of what it found. -/
theorem adoptedView_eq {t : Table δ} (hplanned : op.Planned env.toServer cat plan)
    (htype : plan.pgType = detectTenantPgType env.conf) (ht : cat.tables plan.table = .some t)
    (hown : env.regclass plan.table = .some plan.table ∨ plan.rewrites = []) :
    op.adoptedView env cat plan t = op.adoptedOf env plan.table (cat.view plan.table) := by
  have hrewrites : plan.rewrites = rewritesOf env plan.table (cat.constraintsOf plan.table) := by
    unfold rewritesOf
    by_cases hself : env.regclass plan.table = .some plan.table
    · rw [if_pos hself, hplanned.rewrites, uniqueConstraints, hself]
    · rw [if_neg hself, hown.resolve_left hself]
  have htable : (cat.view plan.table).table = .some t := ht
  ext1
  · simp only [adoptedView, adoptedOf, htable, htype, Option.map_some]
  · simp only [adoptedView, adoptedOf, hrewrites]
    rfl
  · rfl
  · rfl

/-- The tables of which no column is read are those of which nothing marked is. -/
theorem mem_plans_iff (htables : plans.map AdoptionPlan.table = (models.filter fun model =>
      (columnType env.toServer cat model.dbTable "tenant_id").isNone).map AppModel.dbTable) :
    name ∈ plans.map AdoptionPlan.table ↔
      name ∈ models.map AppModel.dbTable ∧ Marking.Unmarked env.regclass (marked cat) name := by
  have hunmarked : ∀ table, (columnType env.toServer cat table "tenant_id").isNone = true ↔
      Marking.Unmarked env.regclass (marked cat) table := by
    intro table
    rw [Option.isNone_iff_eq_none, Option.eq_none_iff_forall_ne_some]
    constructor
    · intro hnone read hread hthere
      obtain ⟨type, htype⟩ := (columnType_eq_some_iff hread).mpr hthere
      exact hnone type htype
    · intro hunmarked type htype
      cases hread : env.regclass table with
      | none =>
        rw [columnType_of_unread hread] at htype
        cases htype
      | some read => exact hunmarked read hread ((columnType_eq_some_iff hread).mp ⟨type, htype⟩)
  rw [htables]
  simp only [List.mem_map, List.mem_filter, hunmarked]
  constructor
  · rintro ⟨model, ⟨hmodel, hnone⟩, rfl⟩
    exact ⟨⟨model, hmodel, rfl⟩, hnone⟩
  · rintro ⟨⟨model, hmodel, rfl⟩, hnone⟩
    exact ⟨model, ⟨hmodel, hnone⟩, rfl⟩

section

variable (hrun : op.Completed env models m m' plans)

include hrun

theorem Completed.hasTenantId_iff : HasTenantId m'.catalogue name ↔
    HasTenantId m.catalogue name ∨ name ∈ plans.map AdoptionPlan.table := by
  by_cases hplanned : name ∈ plans.map AdoptionPlan.table
  · refine iff_of_true ?_ (.inr hplanned)
    obtain ⟨plan, hplan, rfl⟩ := List.mem_map.mp hplanned
    obtain ⟨t, -, -, -, hview⟩ := hrun.adopted plan hplan
    exact hasTenantId_of_adoptedView hview
  · rw [hasTenantId_congr (hrun.elsewhere name hplanned), or_iff_left hplanned]

theorem Completed.marked_eq : marked m'.catalogue =
    Marking.mark env.regclass {table | table ∈ models.map AppModel.dbTable} (marked m.catalogue) := by
  ext name
  exact hrun.hasTenantId_iff.trans (or_congr_right (mem_plans_iff hrun.tables))

/-- A planned table lacked the column. -/
theorem Completed.lacks_of_plan (hmem : name ∈ plans.map AdoptionPlan.table) : ¬ HasTenantId m.catalogue name := by
  obtain ⟨plan, hplan, rfl⟩ := List.mem_map.mp hmem
  obtain ⟨t, ht, hnone, -⟩ := hrun.adopted plan hplan
  rintro ⟨t', ht', hsome⟩
  obtain rfl := Option.some.inj (ht.symm.trans ht')
  rw [hnone] at hsome
  cases hsome

end

section

variable [DecidableEq δ] {server : Server δ}

/-- Statements of tables leave the helper and the other relations. -/
theorem execAll_leaves_rest {ss : List (Statement δ)} (hexec : execAll server ss cat = .ok cat')
    (htable : ∀ s ∈ ss, s.table?.isSome = true) : cat'.helper = cat.helper ∧ cat'.relations = cat.relations := by
  induction ss generalizing cat with
  | nil =>
    cases hexec
    exact ⟨rfl, rfl⟩
  | cons s ss ih =>
    obtain ⟨cat₁, n, hs, hss⟩ := execAll_cons_ok_iff.mp hexec
    have hfirst := htable s (List.mem_cons_self ..)
    obtain ⟨table, hsome⟩ := Option.isSome_iff_exists.mp hfirst
    obtain ⟨v, hleaves, -⟩ := exec_leaves hs hsome
    obtain ⟨hhelper, hrelations⟩ := ih hss fun s' hs' => htable s' (List.mem_cons_of_mem _ hs')
    exact ⟨hhelper.trans (helper_exec hs hfirst), hrelations.trans hleaves.relations⟩

theorem helper_of_helperScript (hexec : execAll server (helperScript env plans) cat = .ok cat') :
    cat'.relations = cat.relations ∧ (plans = [] → cat'.helper = cat.helper) ∧
      (plans ≠ [] → cat'.helper =
        .some ⟨detectTenantPgType env.conf, env.conf.dbSessionVar, env.conf.functionLeakproof⟩) := by
  unfold helperScript at hexec
  cases plans with
  | nil =>
    cases hexec
    simp
  | cons plan plans =>
    obtain ⟨cat₁, n, hcreate, hrest⟩ := execAll_cons_ok_iff.mp hexec
    cases hcreate
    cases hrest
    simp

/-- An operation that succeeds marks its tables of which no column is read, and
does nothing else. -/
theorem databaseForwards_adopts (hlive : env.editor = .live) (h : op.databaseForwards env apps m = .ok () m') :
    op.Adopts env m.catalogue m'.catalogue ∧
      marked m'.catalogue = Marking.mark env.regclass (op.covered env apps) (marked m.catalogue) := by
  obtain ⟨plans, hplans, hexecuted⟩ := databaseForwards_ok hlive h
  have hrun := completed_of_executed hplans hexecuted
  obtain ⟨cat₁, hhelper, hscripts⟩ := execAll_append_ok_iff.mp hexecuted.catalogue
  obtain ⟨hrelations, hnone, hsome⟩ := helper_of_helperScript hhelper
  obtain ⟨hhelper', hrelations'⟩ := execAll_leaves_rest hscripts fun s hs => by
    obtain ⟨plan, -, hs⟩ := List.mem_flatMap.mp hs
    rw [adoptScript_table s hs]
    rfl
  refine ⟨⟨fun hthere => hrun.hasTenantId_iff.mpr (.inl hthere), fun {name} hlacks hthere => ?_, fun {name} hsame => ?_,
    fun hnew => ?_, fun hold => ?_, hrelations'.trans hrelations⟩, hrun.marked_eq⟩
  · obtain ⟨plan, hplan, rfl⟩ := List.mem_map.mp ((hrun.hasTenantId_iff.mp hthere).resolve_left hlacks)
    obtain ⟨t, ht, -, hown, hview⟩ := hrun.adopted plan hplan
    obtain ⟨-, htype, hplanned⟩ := hrun.planned plan hplan
    exact hview.trans (adoptedView_eq hplanned htype ht hown)
  · refine hrun.elsewhere name fun hplanned => ?_
    rcases hsame with hbefore | hafter
    · exact hrun.lacks_of_plan hplanned hbefore
    · exact hafter (hrun.hasTenantId_iff.mpr (.inr hplanned))
  · obtain ⟨name, hlacks, hthere⟩ := hnew
    rw [hhelper', hsome]
    rintro rfl
    exact hlacks ((hrun.hasTenantId_iff.mp hthere).resolve_right (by simp))
  · rw [hhelper', hnone]
    refine List.eq_nil_iff_forall_not_mem.mpr fun plan hplan => ?_
    have hmem : plan.table ∈ plans.map AdoptionPlan.table := List.mem_map_of_mem hplan
    exact hrun.lacks_of_plan hmem (hold _ (hrun.hasTenantId_iff.mpr (.inr hmem)))

/-! ## The operations together -/

theorem databaseForwardsAll_cons : databaseForwardsAll env apps (op :: ops) m = .ok () m' ↔
    ∃ m₁, op.databaseForwards env apps m = .ok () m₁ ∧ databaseForwardsAll env apps ops m₁ = .ok () m' := by
  have hcons : databaseForwardsAll env apps (op :: ops) =
      op.databaseForwards env apps >>= fun _ => databaseForwardsAll env apps ops := rfl
  rw [hcons, bind_ok_iff]
  constructor
  · rintro ⟨_, m₁, hop, hops⟩
    exact ⟨m₁, hop, hops⟩
  · rintro ⟨m₁, hop, hops⟩
    exact ⟨(), m₁, hop, hops⟩

/-- The parts are marked one after the other. -/
theorem databaseForwardsAll_adopts (hlive : env.editor = .live)
    (hops : ∀ op ∈ ops, op.backfillTenant = whole.backfillTenant)
    (h : databaseForwardsAll env apps ops m = .ok () m') :
    whole.Adopts env m.catalogue m'.catalogue ∧
      marked m'.catalogue = Marking.markAll env.regclass (ops.map (covered · env apps)) (marked m.catalogue) := by
  induction ops generalizing m with
  | nil =>
    cases h
    exact ⟨.refl _ _ _, rfl⟩
  | cons op ops ih =>
    obtain ⟨m₁, hop, hrest⟩ := databaseForwardsAll_cons.mp h
    obtain ⟨hadopts, hmarked⟩ := databaseForwards_adopts hlive hop
    obtain ⟨hadopts', hmarked'⟩ := ih (fun op hop => hops op (List.mem_cons_of_mem _ hop)) hrest
    refine ⟨(hadopts.congr (hops op (List.mem_cons_self ..))).trans hadopts', ?_⟩
    rw [hmarked', hmarked]
    rfl

/-- Each operation succeeded in its turn, and the rest after it. -/
theorem turn_of_databaseForwardsAll (hlive : env.editor = .live)
    (hops : ∀ op ∈ ops, op.backfillTenant = whole.backfillTenant)
    (h : databaseForwardsAll env apps ops m = .ok () m') (hop : op ∈ ops) :
    ∃ s s', op.databaseForwards env apps s = .ok () s' ∧ whole.Adopts env s.catalogue m'.catalogue := by
  induction ops generalizing m with
  | nil => cases hop
  | cons first ops ih =>
    obtain ⟨m₁, hfirst, hrest⟩ := databaseForwardsAll_cons.mp h
    have hlater : ∀ op ∈ ops, op.backfillTenant = whole.backfillTenant := fun op hop =>
      hops op (List.mem_cons_of_mem _ hop)
    rcases List.mem_cons.mp hop with rfl | hop
    · obtain ⟨hadopts, -⟩ := databaseForwards_adopts hlive hfirst
      obtain ⟨hadopts', -⟩ := databaseForwardsAll_adopts hlive hlater hrest
      exact ⟨m, m₁, hfirst, (hadopts.congr (hops op (List.mem_cons_self ..))).trans hadopts'⟩
    · exact ih hlater hrest hop

end

/-! ## Again -/

section

theorem columnType_congr {read : String} (hread : env.regclass table = .some read)
    (hview : cat'.view read = cat.view read) :
    columnType env.toServer cat' table "tenant_id" = columnType env.toServer cat table "tenant_id" := by
  rw [columnType, columnType, regclassTable, regclassTable, hread, Option.bind_some, Option.bind_some,
    tables_of_view hview]
  rfl

/-- No run changes how many rows a table has. -/
theorem Adopts.rowCount_eq (h : op.Adopts env before last) (table : String) :
    rowCount last table = rowCount before table := by
  by_cases hnew : ¬ HasTenantId before table ∧ HasTenantId last table
  · have hview := tables_of_view (h.adopted hnew.1 hnew.2)
    have hbefore : (before.view table).table = before.tables table := rfl
    rw [rowCount, rowCount, hview]
    simp only [adoptedOf, hbefore]
    cases before.tables table with
    | none => rfl
    | some t => simp [withTenantColumn]
  · have hold : HasTenantId before table ∨ ¬ HasTenantId last table := by
      by_cases hbefore : HasTenantId before table
      · exact .inl hbefore
      · exact .inr fun hafter => hnew ⟨hbefore, hafter⟩
    rw [rowCount, rowCount, tables_of_view (h.kept hold)]
    rfl

/-- Of a table of which no column is read in the end, what is read is as it was. -/
theorem Adopts.read_eq (h : op.Adopts env before last)
    (hnone : columnType env.toServer last table "tenant_id" = .none) :
    columnType env.toServer before table "tenant_id" = .none ∧
      uniqueIndexes env.toServer last table = uniqueIndexes env.toServer before table ∧
      uniqueConstraints env.toServer last table = uniqueConstraints env.toServer before table := by
  cases hread : env.regclass table with
  | none =>
    refine ⟨columnType_of_unread hread, ?_, ?_⟩
    · rw [uniqueIndexes, uniqueIndexes, hread]
    · rw [uniqueConstraints, uniqueConstraints, hread]
  | some read =>
    have hlacks : ¬ HasTenantId last read := by
      intro hthere
      obtain ⟨type, htype⟩ := (columnType_eq_some_iff hread).mpr hthere
      rw [hnone] at htype
      cases htype
    have hview := h.kept (.inr hlacks)
    have hindexes : last.indexesOf read = before.indexesOf read := congrArg TableView.indexes hview
    have hconstraints : last.constraintsOf read = before.constraintsOf read := congrArg TableView.constraints hview
    refine ⟨(columnType_congr hread hview).symm.trans hnone, ?_, ?_⟩
    · rw [uniqueIndexes, uniqueIndexes, hread]
      simp only [hindexes, hconstraints]
    · rw [uniqueConstraints, uniqueConstraints, hread]
      simp only [hconstraints]

/-- A column that is read in the end was read before, or is boundary's. -/
theorem Adopts.columnType_some (h : op.Adopts env before last) {type : String}
    (htype : columnType env.toServer last table "tenant_id" = .some type) :
    columnType env.toServer before table "tenant_id" = .some type ∨ type = detectTenantPgType env.conf := by
  cases hread : env.regclass table with
  | none =>
    rw [columnType_of_unread hread] at htype
    cases htype
  | some read =>
    have hthere := (columnType_eq_some_iff hread).mp ⟨type, htype⟩
    by_cases hbefore : HasTenantId before read
    · rw [columnType_congr hread (h.kept (.inl hbefore))] at htype
      exact .inl htype
    · refine .inr ?_
      have hview := tables_of_view (h.adopted hbefore hthere)
      have htable : (before.view read).table = before.tables read := rfl
      rw [columnType, regclassTable, hread, Option.bind_some, hview] at htype
      simp only [adoptedOf, htable] at htype
      cases ht : before.tables read with
      | none =>
        rw [ht] at htype
        cases htype
      | some t =>
        have hnone : t.column? "tenant_id" = .none := by
          by_contra hsome
          exact hbefore ⟨t, ht, Option.isSome_iff_ne_none.mpr hsome⟩
        rw [Table.column?] at hnone
        rw [ht, Option.map_some, Option.bind_some, Table.column?, withTenantColumn, List.find?_append, hnone] at htype
        simpa [tenantColumn] using htype.symm

/-- A model that was accepted is accepted again. -/
theorem validateTable_again {found : Option AdoptionPlan} (h : whole.Adopts env before last)
    (hbefore : op.validateTable env (detectTenantPgType env.conf) model before = .ok found) :
    ∃ found', op.validateTable env (detectTenantPgType env.conf) model last = .ok found' := by
  cases hafter : columnType env.toServer last model.dbTable "tenant_id" with
  | none =>
    obtain ⟨hnone, hindexes, hconstraints⟩ := h.read_eq hafter
    refine ⟨found, hbefore.symm.trans ?_ |>.symm⟩
    unfold validateTable probeRows planUniqueRewrites
    rw [hnone, hafter, hindexes, hconstraints, h.rowCount_eq]
  | some type =>
    have hmatch : pgTypesMatch type (detectTenantPgType env.conf) = true := by
      rcases h.columnType_some hafter with hsome | rfl
      · unfold validateTable at hbefore
        rw [hsome] at hbefore
        by_contra hno
        simp only [if_neg hno] at hbefore
        cases hbefore
      · exact decide_eq_true rfl
    refine ⟨.none, ?_⟩
    unfold validateTable
    rw [hafter]
    simp only [if_pos hmatch]

theorem validateTables_ok_iff {pgType : String} : (∃ plans, op.validateTables env pgType cat models = .ok plans) ↔
    ∀ model ∈ models, ∃ found, op.validateTable env pgType model cat = .ok found := by
  induction models with
  | nil => simp [validateTables]
  | cons model models ih =>
    rw [List.forall_mem_cons, ← ih]
    constructor
    · rintro ⟨plans, h⟩
      obtain ⟨found, rest, hfound, hrest, -⟩ := validateTables_cons_ok_iff.mp h
      exact ⟨⟨found, hfound⟩, rest, hrest⟩
    · rintro ⟨⟨found, hfound⟩, rest, hrest⟩
      exact ⟨_, validateTables_cons_ok_iff.mpr ⟨found, rest, hfound, hrest, rfl⟩⟩

end

/-- Whatever the outcome, statements are only added to those executed. -/
def OnlyAdds {α : Type} (x : Adopting δ α) : Prop := ∀ m, m.executed <+: (after x m).executed

theorem OnlyAdds.pure {α : Type} (a : α) : OnlyAdds (pure a : Adopting δ α) := fun m => List.prefix_refl m.executed

theorem OnlyAdds.throw {α : Type} (e : AdoptionError) : OnlyAdds (throw e : Adopting δ α) :=
  fun m => List.prefix_refl m.executed

theorem OnlyAdds.bind {α β : Type} {x : Adopting δ α} {f : α → Adopting δ β} (hx : OnlyAdds x)
    (hf : ∀ a, OnlyAdds (f a)) : OnlyAdds (x >>= f) := by
  intro m
  have hfirst := hx m
  rw [after_bind]
  cases hrun : x m with
  | ok a m₁ =>
    rw [after_of_ok hrun] at hfirst
    exact hfirst.trans (hf a m₁)
  | error e m₁ =>
    rw [after_of_error hrun] at hfirst
    exact hfirst

section

variable [DecidableEq δ]

theorem onlyAdds_cursorExecute (s : Statement δ) : OnlyAdds (cursorExecute env s) := by
  intro m
  unfold after cursorExecute
  cases s.exec env.toServer m.catalogue with
  | error e => exact List.prefix_refl m.executed
  | ok r => exact List.prefix_append m.executed [s]

theorem onlyAdds_schemaExecute (s : Statement δ) : OnlyAdds (schemaExecute env s) := by
  unfold schemaExecute
  cases env.editor with
  | live => exact .bind (onlyAdds_cursorExecute s) fun _ => .pure _
  | collecting => exact fun m => List.prefix_refl m.executed

theorem onlyAdds_addTenantColumn : OnlyAdds (op.addTenantColumn env plan) := by
  unfold addTenantColumn
  split
  · exact onlyAdds_schemaExecute _
  · refine .bind (onlyAdds_schemaExecute _) fun _ => .bind ?_ fun updated => ?_
    · unfold backfill
      split
      · exact onlyAdds_cursorExecute _
      · exact .pure _
    · split
      · exact .bind (onlyAdds_schemaExecute _) fun _ => onlyAdds_schemaExecute _
      · exact .throw _

theorem onlyAdds_applyUniqueRewrites (rewrites : List (String × List String)) :
    OnlyAdds (applyUniqueRewrites env table rewrites) := by
  induction rewrites with
  | nil => exact .pure _
  | cons rewrite rewrites ih =>
    exact .bind (onlyAdds_schemaExecute _) fun _ => .bind (onlyAdds_schemaExecute _) fun _ => ih

theorem onlyAdds_adoptTables : OnlyAdds (op.adoptTables env plans) := by
  induction plans with
  | nil => exact .pure _
  | cons plan plans ih =>
    refine .bind ?_ fun _ => ih
    exact .bind onlyAdds_addTenantColumn fun _ => .bind (onlyAdds_applyUniqueRewrites _) fun _ =>
      .bind (onlyAdds_schemaExecute _) fun _ => .bind (onlyAdds_schemaExecute _) fun _ =>
        .bind (onlyAdds_schemaExecute _) fun _ => onlyAdds_schemaExecute _

/-- Run again, an operation executes nothing exactly when a column is read of
every table it covers. -/
theorem executesNothing_iff (hlive : env.editor = .live) (h : op.databaseForwards env apps s = .ok () m')
    (hadopts : whole.Adopts env s.catalogue m''.catalogue) :
    op.ExecutesNothing env apps m'' ↔
      ∀ table ∈ op.covered env apps, ¬ Marking.Unmarked env.regclass (marked m''.catalogue) table := by
  obtain ⟨plans₀, hplans₀, -⟩ := databaseForwards_ok hlive h
  obtain ⟨plans, hplans⟩ : ∃ plans, op.validateTables env (detectTenantPgType env.conf) m''.catalogue
      (op.admitted env apps) = .ok plans := by
    refine validateTables_ok_iff.mpr fun model hmodel => ?_
    obtain ⟨found, hfound⟩ := validateTables_ok_iff.mp ⟨plans₀, hplans₀⟩ model hmodel
    exact validateTable_again hadopts hfound
  have hrun : op.databaseForwards env apps m'' =
      (createHelperOnce env (detectTenantPgType env.conf) plans >>= fun _ => op.adoptTables env plans) m'' :=
    (databaseForwards_gates h env.editor m'').trans (applyPlans_run hplans)
  cases plans with
  | nil =>
    refine iff_of_true ?_ fun table htable hunmarked => ?_
    · rw [ExecutesNothing, after, hrun]
      rfl
    · have hmem := (mem_plans_iff (validateTables_tables hplans)).mpr ⟨htable, hunmarked⟩
      cases hmem
  | cons plan plans =>
    have hplan := (mem_plans_iff (validateTables_tables hplans)).mp (List.mem_map_of_mem (List.mem_cons_self ..))
    refine iff_of_false (fun hnothing => ?_) fun hread => hread _ hplan.1 hplan.2
    -- the helper is created, and what comes next only adds
    obtain ⟨m₁, hhelper, hexecuted⟩ : ∃ m₁, createHelperOnce env (detectTenantPgType env.conf) (plan :: plans) m'' =
        .ok () m₁ ∧ m₁.executed = m''.executed ++ helperScript env (plan :: plans) := by
      refine ⟨⟨{ m''.catalogue with helper := .some ⟨detectTenantPgType env.conf, env.conf.dbSessionVar,
        env.conf.functionLeakproof⟩ }, m''.executed ++ helperScript env (plan :: plans), m''.collected⟩, ?_, rfl⟩
      exact schemaExecute_of_executed hlive ⟨rfl, rfl, rfl⟩
    have hadds : m₁.executed <+: (after (op.adoptTables env (plan :: plans)) m₁).executed := onlyAdds_adoptTables m₁
    have hlast : after (op.databaseForwards env apps) m'' = after (op.adoptTables env (plan :: plans)) m₁ := by
      rw [after, hrun, bind_run, hhelper]
      rfl
    rw [ExecutesNothing, hlast] at hnothing
    have hlength := hadds.length_le
    rw [hnothing, hexecuted, List.length_append] at hlength
    have hone : (helperScript env (plan :: plans)).length = 1 := rfl
    omega

/-! ## Adopted in parts, and at once -/

omit [DecidableEq δ] in
theorem union_covered (hops : ∀ op ∈ ops, op.appLabel = whole.appLabel) (hwhole : whole.exclude = [])
    (hcovers : ∀ model ∈ whole.admitted env apps, ∃ op ∈ ops, model ∈ op.admitted env apps) :
    Marking.union (ops.map (covered · env apps)) = whole.covered env apps := by
  have hsub : ∀ op ∈ ops, op.admitted env apps ⊆ whole.admitted env apps := by
    intro op hop model hmodel
    obtain ⟨hmodel, hallowed⟩ := List.mem_filter.mp hmodel
    refine List.mem_filter.mpr ⟨?_, hallowed⟩
    unfold adoptedModels at hmodel ⊢
    rw [hops op hop] at hmodel
    obtain ⟨hmem, hkept⟩ := List.mem_filter.mp hmodel
    refine List.mem_filter.mpr ⟨hmem, ?_⟩
    rw [hwhole]
    simp only [List.append_nil, List.mem_append, not_or, Bool.and_eq_true, decide_eq_true_iff, Bool.decide_and] at hkept ⊢
    tauto
  ext table
  constructor
  · rintro ⟨tables, htables, htable⟩
    obtain ⟨op, hop, rfl⟩ := List.mem_map.mp htables
    exact List.map_subset _ (hsub op hop) htable
  · intro htable
    obtain ⟨model, hmodel, rfl⟩ := List.mem_map.mp htable
    obtain ⟨op, hop, hmem⟩ := hcovers model hmodel
    exact ⟨_, List.mem_map_of_mem hop, List.mem_map_of_mem hmem⟩

/-- Run again, no operation executes anything exactly when every covered table is
read as one that has the column or is adopted. -/
theorem executesNothing_forall_iff (hlive : env.editor = .live)
    (hops : ∀ op ∈ ops, op.backfillTenant = whole.backfillTenant)
    (hunion : Marking.union (ops.map (covered · env apps)) = whole.covered env apps)
    (hparts : databaseForwardsAll env apps ops m = .ok () m') :
    (∀ op ∈ ops, op.ExecutesNothing env apps m') ↔ ∀ x ∈ whole.covered env apps,
      ∃ y, env.regclass x = .some y ∧ (y ∈ marked m.catalogue ∨ y ∈ whole.covered env apps) := by
  obtain ⟨-, hmarked⟩ := databaseForwardsAll_adopts hlive hops hparts
  have hread : ∀ x, ¬ Marking.Unmarked env.regclass (marked m'.catalogue) x ↔
      ∃ y, env.regclass x = .some y ∧ (y ∈ marked m.catalogue ∨ y ∈ whole.covered env apps) := by
    intro x
    rw [hmarked, ← hunion]
    exact Marking.not_unmarked_iff fun _ _ => env.regclass_self
  have hagain : ∀ op ∈ ops, op.ExecutesNothing env apps m' ↔
      ∀ x ∈ op.covered env apps, ¬ Marking.Unmarked env.regclass (marked m'.catalogue) x := by
    intro op hop
    obtain ⟨s, s', hturn, hrest⟩ := turn_of_databaseForwardsAll hlive hops hparts hop
    exact executesNothing_iff hlive hturn hrest
  constructor
  · intro h x hx
    rw [← hunion] at hx
    obtain ⟨tables, htables, hmem⟩ := hx
    obtain ⟨op, hop, rfl⟩ := List.mem_map.mp htables
    exact (hread x).mp ((hagain op hop).mp (h op hop) x hmem)
  · intro h op hop
    refine (hagain op hop).mpr fun x hx => (hread x).mpr (h x ?_)
    rw [← hunion]
    exact ⟨_, List.mem_map_of_mem hop, hx⟩

/-- Operations that together cover the app leave what one that covers it leaves,
and execute nothing when they are run again, exactly when each table is read as
one that has the column or is adopted, and as none that is covered before it. -/
theorem databaseForwardsAll_converges (hlive : env.editor = .live) (hwhole : whole.exclude = [])
    (hops : ∀ op ∈ ops, op.appLabel = whole.appLabel ∧ op.backfillTenant = whole.backfillTenant)
    (hcovers : ∀ model ∈ whole.admitted env apps, ∃ op ∈ ops, model ∈ op.admitted env apps)
    (hparts : databaseForwardsAll env apps ops m = .ok () m') (honce : whole.databaseForwards env apps m = .ok () m₁) :
    (SameCatalogue m'.catalogue m₁.catalogue ∧ ∀ op ∈ ops, op.ExecutesNothing env apps m') ↔
      ∀ model ∈ whole.admitted env apps, ∃ read, env.regclass model.dbTable = .some read ∧
        (HasTenantId m.catalogue read ∨ read ∈ whole.covered env apps ∧
          ¬ Marking.Before read model.dbTable (ops.map (covered · env apps))) := by
  have hbackfills : ∀ op ∈ ops, op.backfillTenant = whole.backfillTenant := fun op hop => (hops op hop).2
  have hunion := union_covered (fun op hop => (hops op hop).1) hwhole hcovers
  obtain ⟨hadopts, hmarked⟩ := databaseForwardsAll_adopts hlive hbackfills hparts
  obtain ⟨hadopts₁, hmarked₁⟩ := databaseForwards_adopts hlive honce
  have hsame : SameCatalogue m'.catalogue m₁.catalogue ↔ ∀ x ∈ whole.covered env apps, x ∉ marked m.catalogue →
      ∀ y, env.regclass x = .some y → y ∉ marked m.catalogue → ¬ Marking.Before y x (ops.map (covered · env apps)) := by
    rw [hadopts.same_iff hadopts₁, hmarked, hmarked₁, ← hunion]
    exact Marking.markAll_eq_mark_iff fun _ _ => env.regclass_self
  have hnothing := executesNothing_forall_iff hlive hbackfills hunion hparts
  -- a table of which no column is read is planned at once, and so lacks it
  have hlacks : ∀ x ∈ whole.covered env apps, ∀ y, env.regclass x = .some y → y ∉ marked m.catalogue →
      x ∉ marked m.catalogue := by
    intro x hx y hread hy
    obtain ⟨plans, hrun⟩ := databaseForwards_completed hlive honce
    refine hrun.lacks_of_plan ((mem_plans_iff hrun.tables).mpr ⟨hx, fun z hz => ?_⟩)
    obtain rfl := Option.some.inj (hz.symm.trans hread)
    exact hy
  rw [hsame, hnothing]
  constructor
  · rintro ⟨hnot, hread⟩ model hmodel
    have hx : model.dbTable ∈ whole.covered env apps := List.mem_map_of_mem hmodel
    obtain ⟨y, hy, hor⟩ := hread _ hx
    refine ⟨y, hy, ?_⟩
    by_cases hthere : y ∈ marked m.catalogue
    · exact .inl hthere
    · exact .inr ⟨hor.resolve_left hthere, hnot _ hx (hlacks _ hx y hy hthere) y hy hthere⟩
  · intro h
    constructor
    · intro x hx _ y hy hthere
      obtain ⟨model, hmodel, rfl⟩ := List.mem_map.mp hx
      obtain ⟨read, hread, hor⟩ := h model hmodel
      obtain rfl := Option.some.inj (hread.symm.trans hy)
      exact (hor.resolve_left hthere).2
    · intro x hx
      obtain ⟨model, hmodel, rfl⟩ := List.mem_map.mp hx
      obtain ⟨read, hread, hor⟩ := h model hmodel
      exact ⟨read, hread, hor.imp id And.left⟩

end

/-! ## A shop of two tables, adopted in parts -/

def shopGadget : AppModel where
  appLabel := "shop"
  name := "Gadget"
  dbTable := "shop_gadget"

def twoModels : Apps where
  models appLabel := if appLabel = "shop" then .some [shopWidget "shop_widget", shopGadget] else .none

def twoModelsEnv : AdoptionEnv Nat :=
  { shopEnv (shopWidget "shop_widget") with toServer := serverOf ["shop_gadget", "shop_widget"], apps := twoModels }

def twoTables : Migration Nat where
  catalogue :=
    { (shopOf "shop_widget").catalogue with
      tables := fun name =>
        if name = "shop_gadget" then .some { columns := [⟨"id", "bigint", true, .none⟩] }
        else (shopOf "shop_widget").catalogue.tables name }

/-- Without the widgets, then without the gadgets, then both. -/
def inParts : List (AdoptTenantApp Nat) :=
  [{ adoptShop with exclude := ["shop.Widget"] }, { adoptShop with exclude := ["shop.Gadget"] }, adoptShop]

theorem databaseForwardsAll_converges_shop :
    ∃ m' m₁, databaseForwardsAll twoModelsEnv twoModels inParts twoTables = .ok () m' ∧
      adoptShop.databaseForwards twoModelsEnv twoModels twoTables = .ok () m₁ ∧
      SameCatalogue m'.catalogue m₁.catalogue ∧ ∀ op ∈ inParts, op.ExecutesNothing twoModelsEnv twoModels m' := by
  obtain ⟨m', hparts⟩ : ∃ m', databaseForwardsAll twoModelsEnv twoModels inParts twoTables = .ok () m' :=
    exists_of_isOk (by decide +kernel)
  obtain ⟨m₁, honce⟩ : ∃ m₁, adoptShop.databaseForwards twoModelsEnv twoModels twoTables = .ok () m₁ :=
    exists_of_isOk (by decide +kernel)
  have hadmitted : adoptShop.admitted twoModelsEnv twoModels = [shopWidget "shop_widget", shopGadget] := rfl
  refine ⟨m', m₁, hparts, honce, (databaseForwardsAll_converges rfl rfl (fun op hop => ?_)
    (fun model hmodel => ⟨adoptShop, by simp [inParts], hmodel⟩) hparts honce).mpr fun model hmodel => ?_⟩
  · simp only [inParts, List.mem_cons, List.not_mem_nil, or_false] at hop
    rcases hop with rfl | rfl | rfl <;> exact ⟨rfl, rfl⟩
  · have hself : twoModelsEnv.regclass model.dbTable = .some model.dbTable := by
      rw [hadmitted, List.mem_cons, List.mem_singleton] at hmodel
      rcases hmodel with rfl | rfl <;> decide +kernel
    exact ⟨_, hself, .inr ⟨List.mem_map_of_mem hmodel, Marking.not_before_self⟩⟩

/-- Nothing is read of a table whose name is not lower case: it is adopted, and run
again the operation creates the helper anew before it fails. -/
theorem databaseForwardsAll_converges_folded :
    ∃ m', databaseForwardsAll (shopEnv (shopWidget "Shop_widget")) (shopApps (shopWidget "Shop_widget")) [adoptShop]
        (shopOf "Shop_widget") = .ok () m' ∧
      adoptShop.databaseForwards (shopEnv (shopWidget "Shop_widget")) (shopApps (shopWidget "Shop_widget"))
        (shopOf "Shop_widget") = .ok () m' ∧
      ¬ adoptShop.ExecutesNothing (shopEnv (shopWidget "Shop_widget")) (shopApps (shopWidget "Shop_widget")) m' := by
  obtain ⟨m', hrun⟩ : ∃ m', adoptShop.databaseForwards (shopEnv (shopWidget "Shop_widget"))
      (shopApps (shopWidget "Shop_widget")) (shopOf "Shop_widget") = .ok () m' := exists_of_isOk (by decide +kernel)
  refine ⟨m', databaseForwardsAll_cons.mpr ⟨m', hrun, rfl⟩, hrun, ?_⟩
  rw [← after_of_ok hrun]
  decide +kernel

end AdoptTenantApp

end Boundary
