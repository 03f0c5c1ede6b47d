/-
What a task sees of a table after any sequence of boundary's operations has run
on its database: the state of the machine decides it. Of the tables that are
probed, `boundary.E006` reports exactly those that show the role that owns them
every row.
-/
import Boundary.CheckFacts
import Boundary.ProtectionRuns
import Boundary.VisibleRows

namespace Boundary

open Exec TenantContext

variable {δ : Type}

/-! ## What the machine keeps -/

/-- The column that boundary's policies compare, if they are there. -/
def Protection.column? (p : Protection) : Option String :=
  p.policies.findSome? fun policy =>
    match policy.using_ with
    | .isCurrentTenantId column => .some column
    | _ => .none

def policiesOn (adminFlagVar table : String) : Option String → List Policy
  | .none => []
  | .some column => [tenantIsolation table column, adminBypassPolicy adminFlagVar table]

/-- A table has both policies or none, and where one has them the helper reads
the session variable. -/
structure Protections.Sound (adminFlagVar dbSessionVar : String) (ps : Protections) : Prop where
  policies : ∀ table p, ps.tables table = .some p → p.policies = policiesOn adminFlagVar table p.column?
  helper : ∀ table p, ps.tables table = .some p → p.policies ≠ [] →
    ∃ helper, ps.helper = .some helper ∧ helper.sessionVar = dbSessionVar

section

variable {adminFlagVar dbSessionVar table : String} {comparable : String → String → Bool}
  {compares : String → TenantIdHelper → Bool} {p p' : Protection} {act : Protecting} {ps ps' : Protections}

theorem policies_of_column? (column? : Option String) (h : p.policies = policiesOn adminFlagVar table column?) :
    p.policies = policiesOn adminFlagVar table p.column? := by
  have hcolumn : p.column? = column? := by
    rw [Protection.column?, h]
    cases column? with
    | none => rfl
    | some column => rfl
  rw [hcolumn, h]

/-- Where no table has one of the policies yet. -/
theorem sound_of_unpoliced (h : ∀ table p, ps.tables table = .some p → p.policies = []) :
    ps.Sound adminFlagVar dbSessionVar where
  policies table p hp := policies_of_column? .none (h table p hp)
  helper table p hp hne := absurd (h table p hp) hne

/-- An action keeps both policies or none; but for the one that creates the
helper with them, it adds none. -/
theorem apply_policies (h : act.apply adminFlagVar table compares p = .some p')
    (hp : p.policies = policiesOn adminFlagVar table p.column?) :
    p'.policies = policiesOn adminFlagVar table p'.column? ∧ ((∃ column helper, act = .create column helper) ∨
      (∀ before, act.leavesHelper before = before) ∧ (p'.policies ≠ [] → p.policies ≠ [])) := by
  cases act with
  | enable =>
    cases h
    exact ⟨hp, .inr ⟨fun _ => rfl, id⟩⟩
  | disable =>
    cases h
    exact ⟨rfl, .inr ⟨fun _ => rfl, fun hne => absurd rfl hne⟩⟩
  | create column helper =>
    rw [Protecting.apply] at h
    split at h
    · cases h
      exact ⟨policies_of_column? (.some column) rfl, .inl ⟨column, helper, rfl⟩⟩
    · cases h
  | drop =>
    cases h
    exact ⟨rfl, .inr ⟨fun _ => rfl, fun hne => absurd rfl hne⟩⟩

theorem table_of_update {tables : String → Option Protection} {name : String} {q : Protection}
    (h : Function.update tables table (.some p') name = .some q) :
    (name = table ∧ q = p') ∨ tables name = .some q := by
  rcases eq_or_ne name table with rfl | hne
  · rw [Function.update_self] at h
    exact .inl ⟨rfl, (Option.some.inj h).symm⟩
  · rw [Function.update_of_ne hne] at h
    exact .inr h

theorem Protections.Sound.step (h : ps.Sound adminFlagVar dbSessionVar)
    (hcreates : ∀ column helper, act = .create column helper → helper.sessionVar = dbSessionVar)
    (hstep : ps.step adminFlagVar comparable (.some (table, act)) = .some ps') :
    ps'.Sound adminFlagVar dbSessionVar := by
  rcases Protections.step_some_iff.mp hstep with ⟨-, -, rfl⟩ | ⟨p, p', hp, happly, rfl⟩
  · exact h
  obtain ⟨hpolicies, hadds⟩ := apply_policies happly (h.policies table p hp)
  constructor
  case policies =>
    intro name q hq
    rcases table_of_update hq with ⟨rfl, rfl⟩ | hq
    · exact hpolicies
    · exact h.policies name q hq
  case helper =>
    intro name q hq hne
    rcases hadds with ⟨column, helper, rfl⟩ | ⟨hleaves, hkeeps⟩
    · exact ⟨helper, rfl, hcreates column helper rfl⟩
    · simp only [hleaves]
      rcases table_of_update hq with ⟨rfl, rfl⟩ | hq
      · exact h.helper name p hp (hkeeps hne)
      · exact h.helper name q hq hne

end

section

variable {env : RlsEnv δ} {x : RlsStep} {ps ps' : Protections} {apps : Apps} {override : Option String}
  {appLabel modelName : String}

theorem act_of_gated {act : AppModel → Option Protecting} {table : String} {a : Protecting}
    (h : gatedAction env apps override appLabel modelName act = .some (.some (table, a))) : ∃ m, act m = .some a := by
  rcases gatedAction_cases env apps override appLabel modelName with ⟨m, -, hgated⟩ | hgated | hgated
  · rw [hgated] at h
    obtain ⟨a', ha', hsame⟩ := Option.map_eq_some_iff.mp h
    cases hsame
    exact ⟨m, ha'⟩
  · rw [hgated] at h
    cases h
  · rw [hgated] at h
    cases h

theorem sessionVar_of_creating {column column' : String} {helper : TenantIdHelper} {m : AppModel}
    (h : creating env column m = .some (.create column' helper)) : helper.sessionVar = env.conf.dbSessionVar := by
  obtain ⟨dbType, -, hcreate⟩ := Option.map_eq_some_iff.mp h
  cases hcreate
  rfl

theorem sessionVar_of_action {table column : String} {helper : TenantIdHelper}
    (h : x.action env = .some (.some (table, .create column helper))) :
    helper.sessionVar = env.conf.dbSessionVar := by
  obtain ⟨operation, backwards, appLabel, apps⟩ := x
  cases operation with
  | enableRLS op =>
    cases backwards with
    | false =>
      obtain ⟨m, hact⟩ := act_of_gated h
      cases hact
    | true =>
      obtain ⟨m, hact⟩ := act_of_gated h
      cases hact
  | createTenantPolicy op =>
    cases backwards with
    | false =>
      obtain ⟨m, hact⟩ := act_of_gated h
      exact sessionVar_of_creating hact
    | true =>
      obtain ⟨m, hact⟩ := act_of_gated h
      cases hact
  | dropTenantPolicy op =>
    cases backwards with
    | false =>
      obtain ⟨m, hact⟩ := act_of_gated h
      cases hact
    | true =>
      obtain ⟨m, hact⟩ := act_of_gated h
      exact sessionVar_of_creating hact

theorem sound_protects (h : ps.Sound env.conf.adminFlagVar env.conf.dbSessionVar)
    (hx : x.protects env ps = .some ps') : ps'.Sound env.conf.adminFlagVar env.conf.dbSessionVar := by
  obtain ⟨action, haction, hstep⟩ := Option.bind_eq_some_iff.mp hx
  cases action with
  | none => exact Option.some.inj hstep ▸ h
  | some action =>
    obtain ⟨table, act⟩ := action
    exact h.step (fun column helper hact => sessionVar_of_action (hact ▸ haction)) hstep

theorem sound_run {xs : List RlsStep} (h : ps.Sound env.conf.adminFlagVar env.conf.dbSessionVar)
    (hrun : xs.foldlM (RlsStep.protects env) ps = .some ps') :
    ps'.Sound env.conf.adminFlagVar env.conf.dbSessionVar :=
  Runs.foldlM_keeps (R := fun ps ps' => ps.Sound env.conf.adminFlagVar env.conf.dbSessionVar →
      ps'.Sound env.conf.adminFlagVar env.conf.dbSessionVar)
    (fun _ => id) (fun h h' hs => h' (h hs)) (fun hx hs => sound_protects hs hx) hrun h

end

/-! ## What a table shows -/

section

variable [DecidableEq δ]

/-- What the machine's state says a session sees and may write of a table: where
its role is subject to the policies the rows it is to see, if they are there,
and else every row. -/
def Protections.shows (ps : Protections) (st : Settings) (s : SqlSession δ) (table : String) (c : Config) (a : Alias)
    (r : SqlRow δ) : Bool :=
  (ps.tables table).any fun p => !(p.rowSecurity && (p.forced || !s.owner)) ||
    p.column?.any fun column => ps.helper.any fun helper => permitted st s helper.returns column c a r

variable {env : RlsEnv δ} {cat : Catalogue δ} {table : String} {t : Table δ} {s : SqlSession δ} {st : Settings}
  {c : Config} {w : World} {a : Alias} {m m' : Migration δ} {xs : List RlsStep}

/-- The database was set up by the settings the task runs with. -/
structure RlsEnv.SettingsOf (env : RlsEnv δ) (st : Settings) : Prop where
  dbSessionVar : env.conf.dbSessionVar = st.dbSessionVar
  adminFlagVar : env.conf.adminFlagVar = st.adminFlagVar

omit [DecidableEq δ] in
theorem boundaryPolicies_of_others {policies : List Policy} (h : AdoptTenantApp.otherPolicies policies = []) :
    boundaryPolicies policies = policies := by
  refine List.filter_eq_self.mpr fun p hp => ?_
  have hnot := List.filter_eq_nil_iff.mp h p hp
  simp only [decide_eq_true_eq, not_and_or, not_not] at hnot ⊢
  exact hnot

theorem permits_eq_shows (hsound : cat.protections.Sound env.conf.adminFlagVar env.conf.dbSessionVar)
    (hsettings : env.SettingsOf st) (ht : cat.tables table = .some t)
    (hothers : AdoptTenantApp.otherPolicies (cat.policiesOf table) = []) (hrole : s.bypassRls = false) (hs : s.Unset)
    (hstate : SessionState st c a) (condition : Policy → SqlExpr)
    (hisolation : ∀ column, condition (tenantIsolation table column) = .isCurrentTenantId column)
    (hbypass : condition (adminBypassPolicy env.conf.adminFlagVar table) = .settingIs env.conf.adminFlagVar "true")
    (r : SqlRow δ) :
    (!(s.on (c.world.connections a)).subject t || (cat.policiesOf table).any fun p =>
        (s.on (c.world.connections a)).truth cat r (condition p) = .some true) =
      cat.protections.shows st s table c a r := by
  have hprotection := protections_eq_some_iff.mpr ⟨t, ht, rfl⟩
  rw [boundaryPolicies_of_others hothers] at hprotection
  have hpolicies := hsound.policies table _ hprotection
  have hhelper := hsound.helper table _ hprotection
  rw [subject_on, hrole, Protections.shows, hprotection, Option.any_some, Bool.not_false, Bool.and_true]
  congr 1
  cases hcolumn : Protection.column? ⟨t.rowSecurity, t.forceRowSecurity, cat.policiesOf table⟩ with
  | none =>
    rw [hcolumn] at hpolicies
    simp only at hpolicies
    rw [hpolicies]
    rfl
  | some column =>
    rw [hcolumn] at hpolicies
    simp only [policiesOn] at hpolicies
    obtain ⟨helper, hreads, hvar⟩ := hhelper (by simp [hpolicies])
    have hnames : SameNames st env cat helper.returns :=
      ⟨⟨helper, hreads, hvar.trans hsettings.dbSessionVar, rfl⟩, hsettings.adminFlagVar⟩
    rw [Option.any_some, hreads, Option.any_some]
    refine any_policy_eq_permitted ?_ ?_ (fun p hp => ?_) hnames hs hstate condition (hisolation column)
      hbypass r
    · simp [hpolicies]
    · simp [hpolicies]
    · simpa [hpolicies] using hp

/-- What a run of operations makes of the database is what the machine says. -/
theorem migrated_spec (hlive : env.editor = .live) (hrun : xs.foldlM (RlsStep.leaves env) m = .some m')
    (hstart : m.catalogue.protections.Sound env.conf.adminFlagVar env.conf.dbSessionVar) :
    xs.foldlM (RlsStep.protects env) m.catalogue.protections = .some m'.catalogue.protections ∧
      m'.catalogue.protections.Sound env.conf.adminFlagVar env.conf.dbSessionVar := by
  have hmachine : xs.foldlM (RlsStep.protects env) m.catalogue.protections = .some m'.catalogue.protections := by
    rw [← Runs.map_foldlM (protections_leaves hlive) m xs, hrun, Option.map_some]
  exact ⟨hmachine, sound_run hstart hmachine⟩

theorem otherPolicies_of_run (hlive : env.editor = .live) (hrun : xs.foldlM (RlsStep.leaves env) m = .some m')
    (hothers : AdoptTenantApp.otherPolicies (m.catalogue.policiesOf table) = []) :
    AdoptTenantApp.otherPolicies (m'.catalogue.policiesOf table) = [] :=
  (sameButProtected_run hlive hrun table).others.trans hothers

/-- After a run of operations on a database whose tables have both policies or
none, in every state of a mixed run a task sees and may write of a table
without other policies what the machine's last state says. -/
theorem migratedRows_of_run (hlive : env.editor = .live) (hsettings : env.SettingsOf st)
    (hstart : m.catalogue.protections.Sound env.conf.adminFlagVar env.conf.dbSessionVar)
    (hothers : AdoptTenantApp.otherPolicies (m.catalogue.policiesOf table) = [])
    (hmigrated : xs.foldlM (RlsStep.leaves env) m = .some m') (ht : m'.catalogue.tables table = .some t)
    (hrole : s.bypassRls = false) (hs : s.Unset) (hrun : MixedRun st w c) (hpg : isPostgresql st a = true)
    (hu : (c.world.connections a).usable = true) :
    ∃ ps, xs.foldlM (RlsStep.protects env) m.catalogue.protections = .some ps ∧
      ∀ r, ((s.on (c.world.connections a)).guard m'.catalogue table t).visible r = ps.shows st s table c a r ∧
        ((s.on (c.world.connections a)).guard m'.catalogue table t).writable r = ps.shows st s table c a r := by
  obtain ⟨hmachine, hsound⟩ := migrated_spec hlive hmigrated hstart
  have hstate := hrun.sessionState hpg hu
  have hothers' := otherPolicies_of_run hlive hmigrated hothers
  refine ⟨_, hmachine, fun r => ⟨?_, ?_⟩⟩
  · exact permits_eq_shows hsound hsettings ht hothers' hrole hs hstate Policy.using_ (fun _ => rfl) rfl r
  · exact permits_eq_shows hsound hsettings ht hothers' hrole hs hstate (fun p => p.withCheck.getD p.using_)
      (fun _ => rfl) rfl r

theorem permitted_null (hclosed : openBypasses a c.stack = 0) (pgType column : String) :
    permitted st s pgType column c a (fun _ => .none) = false := by
  simp [permitted, hclosed]

/-- Outside a bypass block the role that owns the table is shown every row just
where row security is not both enabled and forced. -/
theorem shows_all_iff (st : Settings) (ht : cat.tables table = .some t) (howner : s.owner = true)
    (hclosed : openBypasses a c.stack = 0) :
    (∀ r, cat.protections.shows st s table c a r = true) ↔ (t.rowSecurity && t.forceRowSecurity) = false := by
  have hshows (r : SqlRow δ) : cat.protections.shows st s table c a r =
      (!(t.rowSecurity && t.forceRowSecurity) ||
        (Protection.column? ⟨t.rowSecurity, t.forceRowSecurity, boundaryPolicies (cat.policiesOf table)⟩).any
          fun column => cat.helper.any fun helper => permitted st s helper.returns column c a r) := by
    rw [Protections.shows, protections_eq_some_iff.mpr ⟨t, ht, rfl⟩, Option.any_some, howner, Bool.not_true,
      Bool.or_false]
    rfl
  constructor
  · intro hall
    have hnull := hall fun _ => .none
    rw [hshows] at hnull
    simp only [permitted_null hclosed, Option.any_false, Bool.or_false, Bool.not_eq_true'] at hnull
    exact hnull
  · intro hopen r
    rw [hshows, hopen, Bool.not_false, Bool.true_or]

/-- The tables that `boundary.E006` is reported of, after a run of operations,
are those that show the role that owns them every row, in every state of a
mixed run outside its bypass blocks. -/
theorem reported_iff_shows_all {check : CheckEnv δ} {msgs : List CheckMessage} (hlive : env.editor = .live)
    (hsettings : env.SettingsOf st)
    (hstart : m.catalogue.protections.Sound env.conf.adminFlagVar env.conf.dbSessionVar)
    (hothers : ∀ table, AdoptTenantApp.otherPolicies (m.catalogue.policiesOf table) = [])
    (hmigrated : xs.foldlM (RlsStep.leaves env) m = .some m') (hcat : check.catalogue = m'.catalogue)
    (hvendor : check.vendor = .postgresql) (htenant : check.settings.tenantModelString.isSome = true)
    (hprobes : ∀ table, check.probeFails table = .none) (hcheck : checkBoundaryConfiguration check = .ok msgs)
    (hrole : s.bypassRls = false) (howner : s.owner = true) (hs : s.Unset) (hrun : MixedRun st w c)
    (hpg : isPostgresql st a = true) (hu : (c.world.connections a).usable = true) (hclosed : openBypasses a c.stack = 0) :
    ∃ targets reported : List (Bool × AppModel), SharesOut check msgs targets ∧ reported.Sublist targets ∧
      reportsOf "boundary.E006" msgs = reported.map (fun target => rlsDisabled target.1 target.2) ∧
      ∀ target ∈ targets, target ∈ reported ↔
        ∃ table t, check.regclass target.2.dbTable = .some table ∧ check.catalogue.tables table = .some t ∧
          ∀ r, ((s.on (c.world.connections a)).guard check.catalogue table t).visible r = true := by
  obtain ⟨-, hsound⟩ := migrated_spec hlive hmigrated hstart
  have hstate := hrun.sessionState hpg hu
  obtain ⟨_, _, _, _, _, hprobed⟩ := checkBoundaryConfiguration_ok hcheck
  obtain ⟨targets, hshares⟩ := sharesOut_of_probed hvendor htenant hprobed
  refine ⟨targets, _, hshares, List.filter_sublist, hshares.disabled, fun target htarget => ?_⟩
  rw [List.mem_filter, and_iff_right htarget, decide_eq_true_iff, CheckEnv.protected?, CheckEnv.probe, hprobes]
  simp only
  cases hreg : check.regclass target.2.dbTable with
  | none => simp [regclassTable, hreg]
  | some table =>
    rw [regclassTable_eq hreg]
    cases ht : check.catalogue.tables table with
    | none => simp [ht]
    | some t =>
      have ht' : m'.catalogue.tables table = .some t := hcat ▸ ht
      have hvisible (r : SqlRow δ) : ((s.on (c.world.connections a)).guard check.catalogue table t).visible r =
          m'.catalogue.protections.shows st s table c a r := by
        rw [hcat]
        exact permits_eq_shows hsound hsettings ht' (otherPolicies_of_run hlive hmigrated (hothers table)) hrole hs
          hstate Policy.using_ (fun _ => rfl) rfl r
      have hall := shows_all_iff st ht' howner hclosed
      simp only [← hvisible] at hall
      simp only [Option.map_some, Option.some.injEq]
      rw [← hall]
      constructor
      · exact fun h => ⟨table, t, rfl, ht, h⟩
      · rintro ⟨table', t', hsame, hthere, h⟩
        obtain rfl := hsame
        obtain rfl := Option.some.inj (ht.symm.trans hthere)
        exact h

end

/-! ## The shop -/

/-- The shop, its widgets protected. -/
@[irreducible] def migratedShop : Migration Nat :=
  (protectWidgets.foldlM (RlsStep.leaves declaredShop) declaredWidgets).getD
    declaredWidgets

theorem migratedShop_run :
    protectWidgets.foldlM (RlsStep.leaves declaredShop) declaredWidgets = .some migratedShop := by
  obtain ⟨m', hrun⟩ : ∃ m', protectWidgets.foldlM (RlsStep.leaves declaredShop)
      declaredWidgets = .some m' := Option.isSome_iff_exists.mp (by decide +kernel)
  rw [migratedShop, hrun, Option.getD_some]

theorem declaredWidgets_sound : declaredWidgets.catalogue.protections.Sound
    declaredShop.conf.adminFlagVar declaredShop.conf.dbSessionVar := by
  refine sound_of_unpoliced fun table p hp => ?_
  obtain ⟨t, -, rfl⟩ := protections_eq_some_iff.mp hp
  rfl

theorem declaredShop_settings : declaredShop.SettingsOf TwoRegions.settings := ⟨rfl, rfl⟩

/-- The widgets' table once it is protected. -/
theorem migratedShop_widgets : ∃ t, migratedShop.catalogue.tables "shop_widget" = .some t :=
  Option.isSome_iff_exists.mp (by decide +kernel)

/-- Tenant 0 sees its widgets. -/
theorem migratedRows_of_run_shop : ∃ t, migratedShop.catalogue.tables "shop_widget" = .some t ∧
    ((shopSession.on ((widgetRun.foldl (step TwoRegions.settings) ⟨TwoRegions.autocommit, []⟩).world.connections
        "default")).guard migratedShop.catalogue "shop_widget" t).visible =
      fun r => decide (r "tenant_id" = .some 1) := by
  obtain ⟨t, ht⟩ := migratedShop_widgets
  refine ⟨t, ht, funext fun r => ?_⟩
  obtain ⟨ps, hmachine, hshows⟩ := migratedRows_of_run (a := "default") (s := shopSession) rfl
    declaredShop_settings declaredWidgets_sound rfl migratedShop_run ht rfl (fun _ => .inl rfl) widgetRun_mixed
    (by decide) (by decide)
  have htable := protectWidgets_protects
  rw [hmachine, Option.bind_some] at htable
  have hhelper : ps.helper = .some ⟨"bigint", "app.current_tenant_id", false⟩ := by
    have hsome : (protectWidgets.foldlM (RlsStep.protects declaredShop)
        declaredWidgets.catalogue.protections).bind (·.helper) =
          .some ⟨"bigint", "app.current_tenant_id", false⟩ := by decide +kernel
    rwa [hmachine, Option.bind_some] at hsome
  rw [(hshows r).1, Protections.shows, htable, hhelper]
  rfl

/-- Of the shop the widgets are reported just where the run shows their owner
every row. -/
theorem reported_iff_shows_all_shop : ∃ msgs targets, ∃ reported : List (Bool × AppModel), ∃ t,
    checkBoundaryConfiguration (checkedShop shopSettings migratedShop.catalogue) = .ok msgs ∧
      SharesOut (checkedShop shopSettings migratedShop.catalogue) msgs targets ∧
      reportsOf "boundary.E006" msgs = reported.map (fun target => rlsDisabled target.1 target.2) ∧
      migratedShop.catalogue.tables "shop_widget" = .some t ∧ (∃ target ∈ targets, target.2.dbTable = "shop_widget") ∧
      ∀ target ∈ targets, target.2.dbTable = "shop_widget" → (target ∈ reported ↔ ∀ r,
        ((({ shopSession with owner := true } : SqlSession Nat).on ((widgetRun.foldl (step TwoRegions.settings)
          ⟨TwoRegions.autocommit, []⟩).world.connections "default")).guard migratedShop.catalogue
            "shop_widget" t).visible r = true) := by
  obtain ⟨msgs, hcheck⟩ : ∃ msgs,
      checkBoundaryConfiguration (checkedShop shopSettings migratedShop.catalogue) = .ok msgs :=
    except_exists_of_isOk (by decide +kernel)
  obtain ⟨t, ht⟩ := migratedShop_widgets
  obtain ⟨targets, reported, hshares, -, hreports, hiff⟩ := reported_iff_shows_all (a := "default")
    (s := { shopSession with owner := true }) rfl declaredShop_settings declaredWidgets_sound (fun _ => rfl)
    migratedShop_run rfl rfl rfl (fun _ => rfl) hcheck rfl rfl (fun _ => .inl rfl) widgetRun_mixed (by decide)
    (by decide) (by decide)
  refine ⟨msgs, targets, reported, t, hcheck, hshares, hreports, ht, ?_, fun target htarget htable => ?_⟩
  · exact hshares.expected [AdoptTenantApp.shopWidget "shop_widget"] rfl _ (List.mem_singleton_self _)
  · rw [hiff target htarget, htable]
    constructor
    · rintro ⟨table, t', hread, ht', hall⟩
      obtain rfl : "shop_widget" = table := Option.some.inj hread
      obtain rfl := Option.some.inj (ht.symm.trans ht')
      exact hall
    · exact fun hall => ⟨"shop_widget", t, rfl, ht, hall⟩

end Boundary
