/-
What follows from a check that reports nothing of the tables: a task sees the
rows it is to see, in every state of its runs. The check reads the names of the
policies and not what they say, so that is assumed.
-/
import Boundary.CheckReturns
import Boundary.VisibleRows

namespace Boundary

open Exec TenantContext

variable {δ : Type} {env : CheckEnv δ} {msgs : List CheckMessage} {models : List AppModel} {m : AppModel}
  {table tenantColumn pgType : String} {t : Table δ}

/-! ## What silence says of a table -/

/-- None of the messages has one of the ids. -/
def SilentOn (ids : List String) (msgs : List CheckMessage) : Prop := ∀ msg ∈ msgs, msg.id ∉ ids

theorem SilentOn.reportsOf {ids : List String} {id : String} (h : SilentOn ids msgs) (hid : id ∈ ids) :
    reportsOf id msgs = [] :=
  List.filter_eq_nil_iff.mpr fun msg hmsg hmid => h msg hmsg (of_decide_eq_true hmid ▸ hid)

theorem expectedAdoptedTables_ok (h : env.expectedAdoptedModels = .ok models) :
    env.expectedAdoptedTables = .ok models := by
  rw [CheckEnv.expectedAdoptedTables, h]

/-- A model is adopted only where the tenant model is found. -/
theorem tenant_of_expected (h : env.expectedAdoptedModels = .ok models) (hm : m ∈ models) :
    ∃ tenant, env.getTenantModel = .ok tenant := by
  unfold CheckEnv.expectedAdoptedModels at h
  rcases (adoptedOf_returns_iff [] env.listedApps).mp ⟨models, h⟩ with hlisted | htenant
  · rw [hlisted] at h
    rw [← Except.ok.inj h] at hm
    exact absurd hm List.not_mem_nil
  · exact htenant

theorem tenantModelString_isSome {tenant : AppModel} (h : env.getTenantModel = .ok tenant) :
    env.settings.tenantModelString.isSome = true := by
  unfold CheckEnv.getTenantModel at h
  split at h
  · cases h
  · next hsome =>
    rw [hsome]
    rfl

/-- What the probe finds of a table. -/
theorem protected?_eq (hfails : env.probeFails m.dbTable = .none) (hreg : env.regclass m.dbTable = .some table)
    (ht : env.catalogue.tables table = .some t) :
    env.protected? m.dbTable = .some (t.rowSecurity && t.forceRowSecurity) := by
  rw [CheckEnv.protected?, CheckEnv.probe, hfails, regclassTable_eq hreg, ht]
  rfl

/-- What is reported of an expected table is reported by the check. -/
theorem reports_of_expected {out : List CheckMessage} (hpg : env.vendor = .postgresql)
    (hexpected : env.expectedAdoptedModels = .ok models) (hm : m ∈ models)
    (hfails : env.adoptedFails m.dbTable = .none) (h : checkAdoptedTables env = .ok out) :
    ∃ expectedType, ∀ e ∈ checkOneAdoptedTable env.toServer env.catalogue m expectedType, e.toMessage ∈ out := by
  obtain ⟨tenant, htenant⟩ := tenant_of_expected hexpected hm
  unfold checkAdoptedTables at h
  obtain ⟨errors, -, h⟩ := except_bind_ok_iff.mp h
  simp only at h
  rw [if_neg (not_not.mpr hpg),
    if_neg (by simp [Option.isNone_iff_eq_none, Option.isSome_iff_ne_none.mp (tenantModelString_isSome htenant)])] at h
  obtain ⟨expected, hok, h⟩ := except_bind_ok_iff.mp h
  obtain rfl := Except.ok.inj ((expectedAdoptedTables_ok hexpected).symm.trans hok)
  rw [if_neg (by simpa using List.ne_nil_of_mem hm), htenant] at h
  obtain ⟨found, hfound, h⟩ := except_bind_ok_iff.mp h
  obtain rfl := Except.ok.inj h
  refine ⟨detectTenantPgType (env.adoption tenant), fun e he => List.mem_append_right _ ?_⟩
  obtain ⟨reported, hreported, hsub⟩ := mem_of_extendEach hfound hm
  simp only [hfails] at hreported
  exact hsub (Except.ok.inj hreported ▸ List.mem_map_of_mem he)

/-- A table of which nothing is reported has row security forced, and policies of
both names. -/
theorem policies_of_check_eq_nil {server : Server δ} {cat : Catalogue δ} {expectedType : String}
    (hreg : server.regclass m.dbTable = .some table) (ht : cat.tables table = .some t)
    (hcheck : checkOneAdoptedTable server cat m expectedType = []) :
    (t.rowSecurity = true ∧ t.forceRowSecurity = true) ∧
      "boundary_tenant_isolation" ∈ (cat.policiesOf table).map Policy.name ∧
      "boundary_admin_bypass" ∈ (cat.policiesOf table).map Policy.name := by
  simp only [checkOneAdoptedTable, regclassTable_eq hreg, ht, List.append_eq_nil_iff] at hcheck
  obtain ⟨⟨⟨⟨-, hsecurity⟩, hisolation⟩, hbypass⟩, -⟩ := hcheck
  have hnamed {policy rule : String} (h : checkPolicy server cat m policy rule = []) :
      policy ∈ (cat.policiesOf table).map Policy.name := by
    rw [checkPolicy, policyNames, hreg] at h
    by_contra hmissing
    rw [if_neg hmissing] at h
    cases h
  refine ⟨?_, hnamed hisolation, hnamed hbypass⟩
  unfold checkRowSecurity at hsecurity
  split at hsecurity
  · next h => simpa using h
  · cases hsecurity

/-- A policy of boundary's name is boundary's, where no other is on the table. -/
theorem policies_of_names {rls : RlsEnv δ} {cat : Catalogue δ} (honly : OnlyBoundaryPolicies rls cat table tenantColumn)
    (hisolation : "boundary_tenant_isolation" ∈ (cat.policiesOf table).map Policy.name)
    (hbypass : "boundary_admin_bypass" ∈ (cat.policiesOf table).map Policy.name) :
    tenantIsolation table tenantColumn ∈ cat.policiesOf table ∧
      adminBypassPolicy rls.conf.adminFlagVar table ∈ cat.policiesOf table := by
  obtain ⟨p, hp, hname⟩ := List.mem_map.mp hisolation
  obtain ⟨p', hp', hname'⟩ := List.mem_map.mp hbypass
  constructor
  · rcases honly p hp with rfl | rfl
    · exact hp
    · simp [adminBypassPolicy] at hname
  · rcases honly p' hp' with rfl | rfl
    · simp [tenantIsolation] at hname'
    · exact hp'

/-! ## Isolation -/

/-- The check asks what the deployment connects to on the default alias, as the
role it connects with. -/
structure ChecksDeployment (env : CheckEnv δ) (st : Settings) (s : SqlSession δ) : Prop where
  vendor : env.vendor = .postgresql
  postgresql : isPostgresql st "default" = true
  setDbSessionVar : env.settings.setDbSessionVar = st.setDbSessionVar
  role : ∃ rolsuper rolbypassrls, env.role = .ok (.some (rolsuper, rolbypassrls)) ∧
    s.bypassRls = (rolsuper || rolbypassrls)

/-- A table that the check finds: one expected to be adopted, whose queries
succeed; or a column-bearing model's, which has both policies. -/
structure LookedAfter (env : CheckEnv δ) (rls : RlsEnv δ) (m : AppModel) (table tenantColumn : String) (t : Table δ) :
    Prop where
  read : env.regclass m.dbTable = .some table
  there : env.catalogue.tables table = .some t
  probed : env.probeFails m.dbTable = .none
  kind : (tenantColumn = "tenant_id" ∧ env.adoptedFails m.dbTable = .none ∧
      ∃ models, env.expectedAdoptedModels = .ok models ∧ m ∈ models) ∨
    (m ∈ env.columnBearing ∧ tenantIsolation table tenantColumn ∈ env.catalogue.policiesOf table ∧
      adminBypassPolicy rls.conf.adminFlagVar table ∈ env.catalogue.policiesOf table)

/-- The ids whose silence matters. -/
def isolationIds : List String :=
  ["boundary.E001", "boundary.E006", "boundary.E007", "boundary.W003", "boundary.W009"]

section

variable {st : Settings} {s : SqlSession δ} {rls : RlsEnv δ}

theorem bypassRls_of_silent {out : List CheckMessage} (hdeployment : ChecksDeployment env st s)
    (h : checkRlsBypassable env = .ok out) (hsilent : reportsOf "boundary.W003" out = []) : s.bypassRls = false := by
  obtain ⟨rolsuper, rolbypassrls, hrole, hbypass⟩ := hdeployment.role
  rw [hbypass]
  unfold checkRlsBypassable at h
  rw [if_neg (not_not.mpr hdeployment.vendor), hrole] at h
  simp only at h
  split at h
  · next hnot => simpa using hnot
  · rw [← Except.ok.inj h] at hsilent
    simp [reportsOf] at hsilent

/-- What a silent check knows of a table that it finds. -/
theorem secured_of_silent (hcheck : checkBoundaryConfiguration env = .ok msgs) (hsilent : SilentOn isolationIds msgs)
    (hdeployment : ChecksDeployment env st s) (hfound : LookedAfter env rls m table tenantColumn t)
    (honly : OnlyBoundaryPolicies rls env.catalogue table tenantColumn) :
    st.setDbSessionVar = true ∧ s.bypassRls = false ∧ (t.rowSecurity = true ∧ t.forceRowSecurity = true) ∧
      tenantIsolation table tenantColumn ∈ env.catalogue.policiesOf table ∧
      adminBypassPolicy rls.conf.adminFlagVar table ∈ env.catalogue.policiesOf table := by
  obtain ⟨_, _, _, _, _, hprobed⟩ := checkBoundaryConfiguration_ok hcheck
  have hrole := bypassRls_of_silent hdeployment hprobed.role
    (hprobed.reports_w003 ▸ hsilent.reportsOf (by simp [isolationIds]))
  obtain ⟨tenant, htenant⟩ := (reports_e001 hprobed.model).mp
    (hprobed.reports_e001 ▸ hsilent.reportsOf (by simp [isolationIds]))
  obtain ⟨targets, hshares⟩ := sharesOut_of_probed hdeployment.vendor (tenantModelString_isSome htenant) hprobed
  have htable := protected?_eq hfound.probed hfound.read hfound.there
  obtain ⟨target, htarget, hsame⟩ : ∃ target ∈ targets, target.2.dbTable = m.dbTable := by
    rcases hfound.kind with ⟨-, -, models, hexpected, hm⟩ | ⟨hm, -⟩
    · exact hshares.expected models (expectedAdoptedTables_ok hexpected) m hm
    · exact ⟨_, hshares.bearing m hm, rfl⟩
  -- it is no table without row security
  have hsecurity : t.rowSecurity = true ∧ t.forceRowSecurity = true := by
    have hnone := hshares.disabled.symm.trans (hsilent.reportsOf (by simp [isolationIds]))
    rw [List.map_eq_nil_iff, List.filter_eq_nil_iff] at hnone
    have hnot := hnone target htarget
    rw [hsame, htable, decide_eq_true_eq, Option.some.injEq] at hnot
    simpa using hnot
  -- nor is it one whose session variable is not written
  have hset : st.setDbSessionVar = true := by
    rw [← hdeployment.setDbSessionVar]
    by_contra hoff
    have hnone := hshares.unenforced.symm.trans (hsilent.reportsOf (by simp [isolationIds]))
    rw [if_neg hoff, List.map_eq_nil_iff, List.filter_eq_nil_iff] at hnone
    refine hnone target htarget ?_
    rw [hsame, htable, hsecurity.1, hsecurity.2]
    rfl
  refine ⟨hset, hrole, hsecurity, ?_⟩
  rcases hfound.kind with ⟨-, hfails, models, hexpected, hm⟩ | ⟨-, hpolicies⟩
  · obtain ⟨expectedType, hreported⟩ := reports_of_expected hdeployment.vendor hexpected hm hfails hprobed.tables
    have hnil : checkOneAdoptedTable env.toServer env.catalogue m expectedType = [] := by
      refine List.eq_nil_iff_forall_not_mem.mpr fun e he => ?_
      have hmem : e.toMessage ∈ reportsOf "boundary.E007" msgs := by
        rw [hprobed.reports_e007]
        exact List.mem_filter.mpr ⟨hreported e he, decide_eq_true (checkOneAdoptedTable_id he)⟩
      rw [hsilent.reportsOf (by simp [isolationIds])] at hmem
      exact absurd hmem List.not_mem_nil
    obtain ⟨-, hisolation, hbypass⟩ := policies_of_check_eq_nil hfound.read hfound.there hnil
    exact policies_of_names honly hisolation hbypass
  · exact hpolicies

variable [DecidableEq δ] {c : Config} {w : World}

/-- Where the check is silent, a task sees and may write the rows it is to of
every table that the check finds, in every state of its runs. -/
theorem visibleRows_of_silentCheck (hcheck : checkBoundaryConfiguration env = .ok msgs)
    (hsilent : SilentOn isolationIds msgs) (hdeployment : ChecksDeployment env st s)
    (hfound : LookedAfter env rls m table tenantColumn t)
    (honly : OnlyBoundaryPolicies rls env.catalogue table tenantColumn) (hnames : SameNames st rls env.catalogue pgType)
    (hunset : s.Unset) (hwrap : st.wrapAtomic = true) (hdistinct : st.dbSessionVar ≠ st.adminFlagVar)
    (hstart : Idle st w) (hrun : Runs.Reaches (step st) (fun c x => mixedStep st c x = true) ⟨w, []⟩ c)
    (hu : (c.world.connections "default").usable = true) (r : SqlRow δ) :
    ((s.on (c.world.connections "default")).guard env.catalogue table t).visible r =
        permitted st s pgType tenantColumn c "default" r ∧
      ((s.on (c.world.connections "default")).guard env.catalogue table t).writable r =
        permitted st s pgType tenantColumn c "default" r := by
  obtain ⟨hset, hrole, hsecurity, hisolation, hbypass⟩ :=
    secured_of_silent hcheck hsilent hdeployment hfound honly
  have hpoliced : PolicedIn st s rls env.catalogue table tenantColumn pgType t :=
    ⟨hsecurity, hisolation, hbypass, honly, hnames, hrole, hunset⟩
  have hmixed : MixedRun st w c := ⟨hwrap, hset, hdistinct, hstart, hrun⟩
  exact hpoliced.guard (hmixed.sessionState hdeployment.postgresql hu) r

end

/-! ## The shop's widgets -/

def checkedAdoption : CheckEnv Nat := checkedShop shopSettings adoptedShop.catalogue

theorem checkedAdoption_silent : checkBoundaryConfiguration checkedAdoption = .ok [] := by
  decide +kernel

/-- The shop was adopted, the check is silent, and tenant 0 sees its widgets. -/
theorem visibleRows_of_silentCheck_shop :
    ((shopSession.on ((widgetRun.foldl (step TwoRegions.settings)
        ⟨TwoRegions.autocommit, []⟩).world.connections "default")).guard adoptedShop.catalogue "shop_widget"
          (shopWidgets.definition "default")).visible = fun r => decide (r "tenant_id" = .some 1) := by
  have hdeployment : ChecksDeployment checkedAdoption TwoRegions.settings shopSession :=
    ⟨rfl, by decide, rfl, false, false, rfl, rfl⟩
  have hfound : LookedAfter checkedAdoption shopRls (AdoptTenantApp.shopWidget "shop_widget")
      "shop_widget" "tenant_id" (shopWidgets.definition "default") := by
    refine ⟨by decide +kernel, shopWidgets_definition, rfl, .inl ⟨rfl, rfl, ?_⟩⟩
    exact ⟨[AdoptTenantApp.shopWidget "shop_widget"], rfl, List.mem_singleton_self _⟩
  funext r
  exact (visibleRows_of_silentCheck (w := TwoRegions.autocommit) checkedAdoption_silent
    (fun _ h => absurd h List.not_mem_nil) hdeployment hfound (shopWidgets_policed.only "default" (by decide))
    (shopWidgets_policed.names "default" (by decide)) shopWidgets_policed.unset rfl (by decide)
    TwoRegions.autocommit_idle widgetRun_mixed.run (by decide) r).1

end Boundary
