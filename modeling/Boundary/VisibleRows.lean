/-
The two layers together: what row-level security shows a task of a table that
the operations set up, in every state a mixed run reaches. It is the active
tenant's rows where the tenant's scope covers the alias, no row elsewhere, and
every row inside a bypass block.

The settings come from the runs (`SessionState`), what the policies make of
them from the operations (`SetUp`). The role must be subject to the policies,
and the table must have no other.
-/
import Boundary.MixedRuns
import Boundary.Noninterference

namespace Boundary

open Exec TenantContext

variable {δ : Type}

/-! ## The session behind a connection -/

/-- The session of a connection: a setting that was not made there reads as
the session `s` has it. -/
def SqlSession.on (s : SqlSession δ) (c : Connection) : SqlSession δ :=
  { s with currentSetting := fun name => if c.vars name = "" then s.currentSetting name else .some (c.vars name) }

/-- No setting is made: one reads as NULL, or as empty. -/
def SqlSession.Unset (s : SqlSession δ) : Prop :=
  ∀ name, s.currentSetting name = .none ∨ s.currentSetting name = .some ""

section

variable {s : SqlSession δ} {c : Connection} {cat : Catalogue δ} {helper : TenantIdHelper}

theorem currentSetting_on_iff (hs : s.Unset) {name value : String} (hvalue : value ≠ "") :
    (s.on c).currentSetting name = .some value ↔ c.vars name = value := by
  unfold SqlSession.on
  simp only
  split
  · next hempty =>
    rw [hempty]
    rcases hs name with hnone | hsome
    · rw [hnone]
      exact ⟨nofun, fun h => absurd h.symm hvalue⟩
    · rw [hsome, Option.some.injEq]
  · rw [Option.some.injEq]

/-- The helper casts what the connection carries, and answers NULL where it
carries nothing. -/
theorem currentTenantId_on (hs : s.Unset) (hhelper : cat.helper = .some helper) :
    (s.on c).currentTenantId cat =
      if c.vars helper.sessionVar = "" then .none else s.cast helper.returns (c.vars helper.sessionVar) := by
  unfold SqlSession.currentTenantId SqlSession.on
  rw [hhelper]
  simp only [Option.bind_some]
  by_cases hempty : c.vars helper.sessionVar = ""
  · rw [if_pos hempty, if_pos hempty]
    rcases hs helper.sessionVar with hnone | hsome
    · rw [hnone]
      rfl
    · rw [hsome]
      rfl
  · rw [if_neg hempty, if_neg hempty, Option.bind_some, if_neg hempty]

end

/-! ## What is to be seen -/

/-- The column's value for the active tenant, where its scope covers the alias. -/
def activeTenantId (st : Settings) (s : SqlSession δ) (pgType : String) (c : Config) (a : Alias) : Option δ :=
  c.world.contextVars.currentTenant.bind fun t =>
    if a ∈ aliasesFor st (.some (c.world.tenants t)) "default" then s.cast pgType (c.world.tenants t).pk.str else .none

/-- The rows a task is to see and to write on an alias. -/
def permitted [DecidableEq δ] (st : Settings) (s : SqlSession δ) (pgType tenantColumn : String) (c : Config) (a : Alias)
    (r : SqlRow δ) : Bool :=
  decide (0 < openBypasses a c.stack) ||
    (activeTenantId st s pgType c a).any fun key => decide (r tenantColumn = .some key)

/-- The database was set up by the same settings: the helper reads the session
variable, and the policies the flag. -/
structure SameNames (st : Settings) (env : RlsEnv δ) (cat : Catalogue δ) (pgType : String) : Prop where
  helper : ∃ helper, cat.helper = .some helper ∧ helper.sessionVar = st.dbSessionVar ∧ helper.returns = pgType
  flag : env.conf.adminFlagVar = st.adminFlagVar

/-- A table, on each alias. -/
structure TableOn (δ : Type) where
  table : String
  tenantColumn : String
  pgType : String
  cat : Alias → Catalogue δ
  definition : Alias → Table δ
  serial : Serial δ

/-- On every PostgreSQL alias the table has row security forced, the two
policies of the same settings and no other, and the role is subject to them. -/
structure Policed (st : Settings) (s : SqlSession δ) (on : TableOn δ) (env : RlsEnv δ) : Prop where
  definition : ∀ a, isPostgresql st a = true → (on.cat a).tables on.table = .some (on.definition a)
  security : ∀ a, isPostgresql st a = true →
    (on.definition a).rowSecurity = true ∧ (on.definition a).forceRowSecurity = true
  isolation : ∀ a, isPostgresql st a = true → tenantIsolation on.table on.tenantColumn ∈ (on.cat a).policiesOf on.table
  bypass : ∀ a, isPostgresql st a = true →
    adminBypassPolicy env.conf.adminFlagVar on.table ∈ (on.cat a).policiesOf on.table
  only : ∀ a, isPostgresql st a = true → OnlyBoundaryPolicies env (on.cat a) on.table on.tenantColumn
  names : ∀ a, isPostgresql st a = true → SameNames st env (on.cat a) on.pgType
  role : s.bypassRls = false
  unset : s.Unset

section

variable [DecidableEq δ] {env : RlsEnv δ} {cat : Catalogue δ} {table tenantColumn pgType : String} {t : Table δ}
  {s : SqlSession δ} {st : Settings} {c : Config} {w : World} {a : Alias} {on : TableOn δ}

/-- Either way of setting a table up leaves both policies. -/
theorem bypassPolicy_of_setUp (h : SetUp env cat table tenantColumn) :
    adminBypassPolicy env.conf.adminFlagVar table ∈ cat.policiesOf table := by
  obtain ⟨hlive, h⟩ := h
  rcases h with ⟨hadopted, rfl⟩ | hpoliced
  · obtain ⟨op, apps, m, m', hrun, htable, hlacks, hview⟩ := hadopted.run
    obtain ⟨model, hmodel, rfl⟩ := List.mem_map.mp htable
    obtain ⟨plans, hcompleted⟩ := AdoptTenantApp.databaseForwards_completed hlive hrun
    have hleft := hcompleted.adopted_of_lacks hmodel hlacks fun _ => .inl hadopted.read
    rw [policiesOf_of_view hview]
    exact hleft.policies.2
  · obtain ⟨op, appLabel, apps, m, m', lines, -, rfl, hadmits, hrun, hview⟩ := hpoliced.run
    have hleft := createTenantPolicy_leaves hlive hadmits hrun
    rw [policiesOf_of_view (hview.trans hleft)]
    simp

omit [DecidableEq δ] in
/-- What the helper answers on a connection whose settings are what the open
blocks say. -/
theorem currentTenantId_of_sessionState (hs : s.Unset) (hnames : SameNames st env cat pgType)
    (hstate : SessionState st c a) :
    (s.on (c.world.connections a)).currentTenantId cat = activeTenantId st s pgType c a := by
  obtain ⟨helper, hhelper, hvar, rfl⟩ := hnames.helper
  rw [currentTenantId_on hs hhelper, hvar, hstate.tenant]
  unfold activeKey activeTenantId
  cases c.world.contextVars.currentTenant with
  | none => rfl
  | some u =>
    rw [Option.bind_some]
    simp only
    by_cases ha : a ∈ aliasesFor st (.some (c.world.tenants u)) "default"
    · rw [if_pos ha, if_pos ha, if_neg (PrimaryKey.str_ne_empty _)]
    · rw [if_neg ha, if_neg ha, if_pos rfl]

/-- A table that was set up on every alias. -/
theorem policed_of_setUp (hsetUp : ∀ a, isPostgresql st a = true → SetUp env (on.cat a) on.table on.tenantColumn)
    (hdefinition : ∀ a, isPostgresql st a = true → (on.cat a).tables on.table = .some (on.definition a))
    (honly : ∀ a, isPostgresql st a = true → OnlyBoundaryPolicies env (on.cat a) on.table on.tenantColumn)
    (hnames : ∀ a, isPostgresql st a = true → SameNames st env (on.cat a) on.pgType) (hrole : s.bypassRls = false)
    (hs : s.Unset) : Policed st s on env := by
  have hsecured : ∀ a, isPostgresql st a = true →
      Secured env (on.cat a) on.table on.tenantColumn (on.definition a) := fun a hpg => by
    obtain ⟨t, ht, hsecured⟩ := secured_of_setUp (hsetUp a hpg)
    rwa [Option.some.inj (ht.symm.trans (hdefinition a hpg))] at hsecured
  exact ⟨hdefinition, fun a hpg => ⟨(hsecured a hpg).rowSecurity, (hsecured a hpg).forced⟩,
    fun a hpg => (hsecured a hpg).isolation, fun a hpg => bypassPolicy_of_setUp (hsetUp a hpg),
    honly, hnames, hrole, hs⟩

/-- What a connection's session sees and may write of the table. -/
def SqlSession.guardOn (s : SqlSession δ) (on : TableOn δ) (c : Connection) (a : Alias) : Sql.Guard (SqlRow δ) :=
  (s.on c).guard (on.cat a) on.table (on.definition a)

/-- What the policies of one database rest on. -/
structure PolicedIn (st : Settings) (s : SqlSession δ) (env : RlsEnv δ) (cat : Catalogue δ)
    (table tenantColumn pgType : String) (t : Table δ) : Prop where
  security : t.rowSecurity = true ∧ t.forceRowSecurity = true
  isolation : tenantIsolation table tenantColumn ∈ cat.policiesOf table
  bypass : adminBypassPolicy env.conf.adminFlagVar table ∈ cat.policiesOf table
  only : OnlyBoundaryPolicies env cat table tenantColumn
  names : SameNames st env cat pgType
  role : s.bypassRls = false
  unset : s.Unset

omit [DecidableEq δ] in
theorem Policed.inDatabase (h : Policed st s on env) (hpg : isPostgresql st a = true) :
    PolicedIn st s env (on.cat a) on.table on.tenantColumn on.pgType (on.definition a) :=
  ⟨h.security a hpg, h.isolation a hpg, h.bypass a hpg, h.only a hpg, h.names a hpg, h.role, h.unset⟩

omit [DecidableEq δ] in
theorem subject_on (t : Table δ) (conn : Connection) :
    (s.on conn).subject t = (t.rowSecurity && !s.bypassRls && (t.forceRowSecurity || !s.owner)) := rfl

/-- One policy lets a row through for its tenant, the other for the flag. -/
theorem any_policy_eq_permitted (hisolated : tenantIsolation table tenantColumn ∈ cat.policiesOf table)
    (hbypassed : adminBypassPolicy env.conf.adminFlagVar table ∈ cat.policiesOf table)
    (honly : OnlyBoundaryPolicies env cat table tenantColumn) (hnames : SameNames st env cat pgType) (hs : s.Unset)
    (hstate : SessionState st c a) (condition : Policy → SqlExpr)
    (hisolation : condition (tenantIsolation table tenantColumn) = .isCurrentTenantId tenantColumn)
    (hbypass : condition (adminBypassPolicy env.conf.adminFlagVar table) = .settingIs env.conf.adminFlagVar "true")
    (r : SqlRow δ) :
    ((cat.policiesOf table).any fun p =>
        (s.on (c.world.connections a)).truth cat r (condition p) = .some true) =
      permitted st s pgType tenantColumn c a r := by
  have htenant : (s.on (c.world.connections a)).truth cat r (.isCurrentTenantId tenantColumn) = .some true ↔
      ∃ key, activeTenantId st s pgType c a = .some key ∧ r tenantColumn = .some key := by
    rw [truth_isCurrentTenantId, owns_iff, currentTenantId_of_sessionState hs hnames hstate]
  have hflag : (s.on (c.world.connections a)).truth cat r (.settingIs env.conf.adminFlagVar "true") = .some true ↔
      0 < openBypasses a c.stack := by
    rw [← hstate.bypass, ← hnames.flag, ← currentSetting_on_iff hs (by decide)]
    simp [SqlSession.truth]
  rw [permitted, Bool.eq_iff_iff, List.any_eq_true, Bool.or_eq_true, decide_eq_true_iff, Option.any_eq_true]
  constructor
  · rintro ⟨p, hp, htrue⟩
    rw [decide_eq_true_iff] at htrue
    rcases honly p hp with rfl | rfl
    · obtain ⟨key, hkey, hrow⟩ := htenant.mp (hisolation ▸ htrue)
      exact .inr ⟨key, hkey, decide_eq_true hrow⟩
    · exact .inl (hflag.mp (hbypass ▸ htrue))
  · rintro (hopen | ⟨key, hkey, hrow⟩)
    · exact ⟨_, hbypassed, decide_eq_true (by rw [hbypass]; exact hflag.mpr hopen)⟩
    · refine ⟨_, hisolated, decide_eq_true ?_⟩
      rw [hisolation]
      exact htenant.mpr ⟨key, hkey, of_decide_eq_true hrow⟩

theorem permits_eq_permitted (h : PolicedIn st s env cat table tenantColumn pgType t) (hstate : SessionState st c a)
    (condition : Policy → SqlExpr)
    (hisolation : condition (tenantIsolation table tenantColumn) = .isCurrentTenantId tenantColumn)
    (hbypass : condition (adminBypassPolicy env.conf.adminFlagVar table) = .settingIs env.conf.adminFlagVar "true")
    (r : SqlRow δ) :
    (!(s.on (c.world.connections a)).subject t || (cat.policiesOf table).any fun p =>
        (s.on (c.world.connections a)).truth cat r (condition p) = .some true) =
      permitted st s pgType tenantColumn c a r := by
  have hsubject : (s.on (c.world.connections a)).subject t = true := by
    rw [subject_on, h.security.1, h.security.2, h.role]
    rfl
  rw [hsubject, Bool.not_true, Bool.false_or]
  exact any_policy_eq_permitted h.isolation h.bypass h.only h.names h.unset hstate condition hisolation hbypass r

/-- In a state whose settings are what the open blocks say, the table shows a
session the rows it is to see and lets it write those. -/
theorem PolicedIn.guard (h : PolicedIn st s env cat table tenantColumn pgType t) (hstate : SessionState st c a)
    (r : SqlRow δ) :
    ((s.on (c.world.connections a)).guard cat table t).visible r = permitted st s pgType tenantColumn c a r ∧
      ((s.on (c.world.connections a)).guard cat table t).writable r = permitted st s pgType tenantColumn c a r :=
  ⟨permits_eq_permitted h hstate Policy.using_ rfl rfl r,
    permits_eq_permitted h hstate (fun p => p.withCheck.getD p.using_) rfl rfl r⟩

theorem guard_of_sessionState (hpoliced : Policed st s on env) (hpg : isPostgresql st a = true)
    (hstate : SessionState st c a) (r : SqlRow δ) :
    (s.guardOn on (c.world.connections a) a).visible r = permitted st s on.pgType on.tenantColumn c a r ∧
      (s.guardOn on (c.world.connections a) a).writable r = permitted st s on.pgType on.tenantColumn c a r :=
  (hpoliced.inDatabase hpg).guard hstate r

/-- In every state of a mixed run, the database shows the task and lets it
write the active tenant's rows where its scope covers the alias, every row
inside a bypass block, and else none. -/
theorem visibleRows_of_run (hrun : MixedRun st w c) (hpg : isPostgresql st a = true)
    (hu : (c.world.connections a).usable = true) (hpoliced : Policed st s on env) (r : SqlRow δ) :
    (s.guardOn on (c.world.connections a) a).visible r = permitted st s on.pgType on.tenantColumn c a r ∧
      (s.guardOn on (c.world.connections a) a).writable r = permitted st s on.pgType on.tenantColumn c a r :=
  guard_of_sessionState hpoliced hpg (hrun.sessionState hpg hu) r

end

/-! ## The shop's widgets -/

/-- Sessions of the shop before a setting is made. -/
def shopSession : SqlSession Nat := { sessionOfOne with currentSetting := fun _ => .none }

/-- A task of tenant 0, whose key is 1, after a bypass block. -/
def widgetRun : List Action :=
  [.enterUsing (.some 0) "default", .enterBypass "default" .none, .leave false]

/-- The shop after its adoption. -/
@[irreducible] def adoptedShop : Migration Nat :=
  after (AdoptTenantApp.adoptShop.databaseForwards shopRls.toAdoptionEnv
    (AdoptTenantApp.shopApps (AdoptTenantApp.shopWidget "shop_widget"))) (shopWith [])

theorem adoptedShop_run : AdoptTenantApp.adoptShop.databaseForwards shopRls.toAdoptionEnv
    (AdoptTenantApp.shopApps (AdoptTenantApp.shopWidget "shop_widget")) (shopWith []) = .ok () adoptedShop := by
  obtain ⟨m', hrun⟩ : ∃ m', AdoptTenantApp.adoptShop.databaseForwards shopRls.toAdoptionEnv
      (AdoptTenantApp.shopApps (AdoptTenantApp.shopWidget "shop_widget")) (shopWith []) = .ok () m' :=
    exists_of_isOk (by decide +kernel)
  rw [adoptedShop, after_of_ok hrun]
  exact hrun

/-- The widgets' table, on every alias. -/
def shopWidgets : TableOn Nat where
  table := "shop_widget"
  tenantColumn := "tenant_id"
  pgType := "bigint"
  cat _ := adoptedShop.catalogue
  definition _ := (adoptedShop.catalogue.tables "shop_widget").getD { columns := [] }
  serial := widgetIds

theorem shopWidgets_definition :
    adoptedShop.catalogue.tables "shop_widget" = .some (shopWidgets.definition "default") := by
  obtain ⟨t, ht, -⟩ := secured_of_setUp (shopWith_adopted [] adoptedShop_run)
  rw [shopWidgets, ht]
  rfl

theorem adoptedShop_policies :
    OnlyBoundaryPolicies shopRls adoptedShop.catalogue "shop_widget" "tenant_id" := by
  unfold OnlyBoundaryPolicies
  decide +kernel

theorem adoptedShop_helper : adoptedShop.catalogue.helper = .some ⟨"bigint", "app.current_tenant_id", false⟩ := by
  decide +kernel

theorem shopWidgets_policed : Policed TwoRegions.settings shopSession shopWidgets shopRls :=
  policed_of_setUp (fun _ _ => shopWith_adopted [] adoptedShop_run) (fun _ _ => shopWidgets_definition)
    (fun _ _ => adoptedShop_policies) (fun _ _ => ⟨⟨_, adoptedShop_helper, rfl, rfl⟩, rfl⟩) rfl fun _ => .inl rfl

theorem widgetRun_mixed : MixedRun TwoRegions.settings TwoRegions.autocommit
    (widgetRun.foldl (step TwoRegions.settings) ⟨TwoRegions.autocommit, []⟩) :=
  ⟨rfl, rfl, by decide, TwoRegions.autocommit_idle, .of_allowed (by decide)⟩

theorem visibleRows_of_run_shop :
    (shopSession.guardOn shopWidgets ((widgetRun.foldl (step TwoRegions.settings)
        ⟨TwoRegions.autocommit, []⟩).world.connections "default") "default").visible =
      fun r => decide (r "tenant_id" = .some 1) := by
  funext r
  exact (visibleRows_of_run (a := "default") widgetRun_mixed (by decide) (by decide) shopWidgets_policed r).1

end Boundary
