/-
A table that the operations set up is, to a session whose admin flag is not
'true', the table of its own tenant's rows: no run tells two states apart that
agree on them, and no run touches another's.

It takes that the table has no other policy, since permissive policies are
or-ed, and that the sequence is past every primary key, since a primary key
stays unique across tenants.
-/
import Boundary.PlanThenApply
import Boundary.RowLevelSecurity

namespace Boundary

open Exec

variable {δ : Type}

/-! ## Tables that were set up -/

/-- Every unique form of the table but its primary key leads with the column. -/
def UniqueLeads (cat : Catalogue δ) (table column : String) : Prop :=
  (∀ c ∈ cat.constraintsOf table, c.columns.head? = .some column) ∧
    ∀ i ∈ cat.indexesOf table, i.primary = false → i.keys.head? = .some (.some column)

/-- The table was adopted, having lacked the column; `to_regclass` reads its
name as itself. -/
structure AdoptedTable [DecidableEq δ] (env : RlsEnv δ) (cat : Catalogue δ) (table : String) : Prop where
  read : env.regclass table = .some table
  run : ∃ (op : AdoptTenantApp δ) (apps : Apps) (m m' : Migration δ),
    op.databaseForwards env.toAdoptionEnv apps m = .ok () m' ∧
      table ∈ (op.admitted env.toAdoptionEnv apps).map AppModel.dbTable ∧
      AdoptTenantApp.LacksTenantId m.catalogue table ∧ cat.view table = m'.catalogue.view table

/-- An operation of the model that both gates let through. -/
def Admits (env : RlsEnv δ) (apps : Apps) (override : Option String) (appLabel modelName table : String) : Prop :=
  ∃ m, apps.getModel (targetAppLabel override appLabel) modelName = .some m ∧ m.dbTable = table ∧
    env.allowMigrateModel m = true ∧ env.vendor = .postgresql

/-- `EnableRLS` was applied to the table. -/
structure EnabledTable [DecidableEq δ] (env : RlsEnv δ) (cat : Catalogue δ) (table : String) : Prop where
  run : ∃ (op : EnableRLS) (appLabel : String) (apps : Apps) (m m' : Migration δ) (lines : List String),
    Admits env apps op.appLabel appLabel op.modelName table ∧ op.databaseForwards env appLabel apps m = .ok lines m' ∧
      cat.view table = m'.catalogue.view table

/-- `CreateTenantPolicy` was applied to the table after it. -/
structure PolicedTable [DecidableEq δ] (env : RlsEnv δ) (cat : Catalogue δ) (table tenantColumn : String) : Prop where
  unique : UniqueLeads cat table tenantColumn
  run : ∃ (op : CreateTenantPolicy) (appLabel : String) (apps : Apps) (m m' : Migration δ) (lines : List String),
    EnabledTable env m.catalogue table ∧ op.tenantColumn = tenantColumn ∧
      Admits env apps op.appLabel appLabel op.modelName table ∧ op.databaseForwards env appLabel apps m = .ok lines m' ∧
      cat.view table = m'.catalogue.view table

/-- The table, with its tenant column, was set up one way or the other. -/
def SetUp [DecidableEq δ] (env : RlsEnv δ) (cat : Catalogue δ) (table tenantColumn : String) : Prop :=
  env.editor = .live ∧ (AdoptedTable env cat table ∧ tenantColumn = "tenant_id" ∨ PolicedTable env cat table tenantColumn)

/-- The table has the two policies and no other. -/
def OnlyBoundaryPolicies (env : RlsEnv δ) (cat : Catalogue δ) (table tenantColumn : String) : Prop :=
  ∀ p ∈ cat.policiesOf table, p = tenantIsolation table tenantColumn ∨ p = adminBypassPolicy env.conf.adminFlagVar table

/-- What either leaves. -/
structure Secured (env : RlsEnv δ) (cat : Catalogue δ) (table tenantColumn : String) (t : Table δ) : Prop where
  rowSecurity : t.rowSecurity = true
  forced : t.forceRowSecurity = true
  isolation : tenantIsolation table tenantColumn ∈ cat.policiesOf table
  unique : UniqueLeads cat table tenantColumn

/-! ## Noninterference -/

namespace SqlSession

variable (s : SqlSession δ) (cat : Catalogue δ)

/-- The row is of the tenant the session is under. -/
def owns [DecidableEq δ] (tenantColumn : String) (r : SqlRow δ) : Bool :=
  match s.currentTenantId cat with
  | .none => false
  | .some current => decide (r tenantColumn = .some current)

end SqlSession

/-- The rows have the same key. -/
def SameKey (serial : Serial δ) (r r' : SqlRow δ) : Prop := r serial.column ≠ .none ∧ r serial.column = r' serial.column

/-- The row has the `n`th key. -/
def HasKey (serial : Serial δ) (n : Nat) (r : SqlRow δ) : Prop := r serial.column = .some (serial.value n)

/-- The table's primary key is drawn from the sequence. -/
structure DrawsKeys (cat : Catalogue δ) (table : String) (t : Table δ) (serial : Serial δ) : Prop where
  column : (t.column? serial.column).isSome = true
  primary : ∀ i ∈ cat.indexesOf table, i.primary = true →
    .some serial.column ∈ i.keys ∧ i.nullsNotDistinct = false

/-- The statement does not choose a key. -/
def RowStatement.LeavesKey (serial : Serial δ) : RowStatement δ → Prop
  | select _ | delete _ => True
  | insert values => ∀ view, ∀ given ∈ values view, given.lookup serial.column = .none
  | update _ set => ∀ view r, (set view r).lookup serial.column = .none

/-- Of two states that agree on the session's own rows and on the sequence, any
statements give the same results and leave states that agree; others' rows stay
as they were, and no other is left. -/
def Noninterferent [DecidableEq δ] (s : SqlSession δ) (cat : Catalogue δ) (table tenantColumn : String) (t : Table δ)
    (serial : Serial δ) (states : Sql.Heap (SqlRow δ) → Prop) : Prop :=
  ∀ h h', states h → states h' → h.owned (s.owns cat tenantColumn) = h'.owned (s.owns cat tenantColumn) →
    ∀ stmts : List (RowStatement δ), (∀ stmt ∈ stmts, stmt.LeavesKey serial) →
      let after := runStatements s cat t serial table stmts h
      let after' := runStatements s cat t serial table stmts h'
      after.1 = after'.1 ∧ after.2.owned (s.owns cat tenantColumn) = after'.2.owned (s.owns cat tenantColumn) ∧
        after.2.rows.filter (!s.owns cat tenantColumn ·) = h.rows.filter (!s.owns cat tenantColumn ·) ∧
        ∀ r ∈ after.2.rows, s.owns cat tenantColumn r = true ∨ r ∈ h.rows

variable [DecidableEq δ] {env : RlsEnv δ} {cat : Catalogue δ} {table tenantColumn : String} {t : Table δ}
  {s : SqlSession δ} {serial : Serial δ} {m m' : Migration δ} {lines : List String} {apps : Apps}

/-! ## What the operations leave -/

omit [DecidableEq δ] in
theorem gated_of_admits {override : Option String} {appLabel modelName operation : String}
    {act : AppModel → Adopting δ (List String)} (hadmits : Admits env apps override appLabel modelName table)
    (h : (resolving apps override appLabel modelName fun m => gated env operation m (act m)) m = .ok lines m') :
    ∃ model, model.dbTable = table ∧ act model m = .ok lines m' := by
  obtain ⟨model, hmodel, htable, hallow, hvendor⟩ := hadmits
  unfold resolving gated at h
  rw [hmodel] at h
  simp only [hallow, hvendor] at h
  exact ⟨model, htable, h⟩

theorem enableRLS_leaves {op : EnableRLS} {appLabel : String} (hlive : env.editor = .live)
    (hadmits : Admits env apps op.appLabel appLabel op.modelName table)
    (h : op.databaseForwards env appLabel apps m = .ok lines m') :
    ∃ t, m.catalogue.tables table = .some t ∧ m'.catalogue.view table =
      { m.catalogue.view table with table := .some { t with rowSecurity := true, forceRowSecurity := true } } := by
  obtain ⟨model, rfl, h⟩ := gated_of_admits hadmits h
  obtain ⟨_, m₁, henable, h⟩ := bind_ok_iff.mp h
  obtain ⟨_, m₂, hforce, h⟩ := bind_ok_iff.mp h
  cases h
  have hexecuted := (schemaExecute_ok hlive henable).append (schemaExecute_ok hlive hforce)
  obtain ⟨t, ht, hleaves⟩ := AdoptTenantApp.leaves_enabling hexecuted.catalogue
  exact ⟨t, ht, hleaves.here⟩

theorem createTenantPolicy_leaves {op : CreateTenantPolicy} {appLabel : String} (hlive : env.editor = .live)
    (hadmits : Admits env apps op.appLabel appLabel op.modelName table)
    (h : op.databaseForwards env appLabel apps m = .ok lines m') :
    m'.catalogue.view table = { m.catalogue.view table with
      policies := m.catalogue.policiesOf table ++
        [tenantIsolation table op.tenantColumn, adminBypassPolicy env.conf.adminFlagVar table] } := by
  obtain ⟨model, rfl, hact⟩ := gated_of_admits hadmits h
  obtain ⟨pgType, m₁, hread, hrest⟩ := bind_ok_iff.mp hact
  obtain ⟨_, m₂, hhelper, hrest⟩ := bind_ok_iff.mp hrest
  obtain ⟨_, m₃, hpolicies, hpure⟩ := bind_ok_iff.mp hrest
  cases hpure
  obtain ⟨_, m₄, hisolation, hbypass⟩ := bind_ok_iff.mp hpolicies
  obtain ⟨cat₁, n, hcreate, hcat⟩ := execAll_cons_ok_iff.mp (schemaExecute_ok hlive hhelper).catalogue
  cases hcreate
  have hview : ∀ name, m₂.catalogue.view name = m.catalogue.view name := fun name => by
    rw [← Except.ok.inj hcat, (reading_ok_iff.mp hread).2]
    rfl
  have hexecuted := (schemaExecute_ok hlive hisolation).append (schemaExecute_ok hlive hbypass)
  have hleaves := (AdoptTenantApp.leaves_policies hexecuted.catalogue).here
  rw [hleaves, policiesOf_of_view (hview model.dbTable), hview]
  rfl

theorem secured_of_setUp (h : SetUp env cat table tenantColumn) :
    ∃ t, cat.tables table = .some t ∧ Secured env cat table tenantColumn t := by
  obtain ⟨hlive, h⟩ := h
  rcases h with ⟨hadopted, rfl⟩ | hpoliced
  · obtain ⟨op, apps, m, m', hrun, htable, hlacks, hview⟩ := hadopted.run
    obtain ⟨model, hmodel, rfl⟩ := List.mem_map.mp htable
    obtain ⟨plans, hcompleted⟩ := AdoptTenantApp.databaseForwards_completed hlive hrun
    have hleft := hcompleted.adopted_of_lacks hmodel hlacks fun _ => .inl hadopted.read
    obtain ⟨t, t', -, ht', -, -, -, hsecurity, hforced⟩ := hleft.column
    refine ⟨t', (tables_of_view hview).trans ht', hsecurity, hforced, ?_, fun c hc => ?_, fun i hi hprimary => ?_⟩
    · rw [policiesOf_of_view hview]
      exact hleft.policies.1
    · rw [constraintsOf_of_view hview] at hc
      obtain ⟨c', -, hc'⟩ := List.mem_map.mp (hleft.unique.mem_iff.mp (List.mem_map_of_mem hc))
      rw [← hc']
      rfl
    · have hindexes : cat.indexesOf model.dbTable = m'.catalogue.indexesOf model.dbTable :=
        congrArg TableView.indexes hview
      rw [hindexes] at hi
      rw [hleft.bare i hi] at hprimary
      cases hprimary
  · obtain ⟨op, appLabel, apps, m, m', lines, ⟨henabled⟩, rfl, hadmits, hrun, hview⟩ := hpoliced.run
    obtain ⟨enable, appLabel₀, apps₀, m₀, m₀', lines₀, hadmits₀, hrun₀, henabled₀⟩ := henabled
    obtain ⟨t, -, hleft₀⟩ := enableRLS_leaves hlive hadmits₀ hrun₀
    have hleft := createTenantPolicy_leaves hlive hadmits hrun
    rw [henabled₀.trans hleft₀] at hleft
    refine ⟨{ t with rowSecurity := true, forceRowSecurity := true }, ?_, rfl, rfl, ?_, hpoliced.unique⟩
    · rw [tables_of_view (hview.trans hleft)]
    · rw [policiesOf_of_view (hview.trans hleft)]
      simp

/-! ## A session of one tenant -/

theorem owns_iff {r : SqlRow δ} :
    s.owns cat tenantColumn r = true ↔ ∃ current, s.currentTenantId cat = .some current ∧
      r tenantColumn = .some current := by
  unfold SqlSession.owns
  cases s.currentTenantId cat <;> simp

/-- The isolation policy is true of the rows of the session's tenant. -/
theorem truth_isCurrentTenantId {r : SqlRow δ} :
    s.truth cat r (.isCurrentTenantId tenantColumn) = .some true ↔ s.owns cat tenantColumn r = true := by
  rw [owns_iff]
  simp only [SqlSession.truth]
  generalize r tenantColumn = held
  cases held with
  | none => simp
  | some tenant => cases s.currentTenantId cat <;> simp

/-- The bypass policy is true of no row while the flag is not 'true'. -/
theorem truth_settingIs {r : SqlRow δ} {setting value : String} (hflag : s.currentSetting setting ≠ .some value) :
    s.truth cat r (.settingIs setting value) ≠ .some true := by
  simpa [SqlSession.truth] using hflag

/-- No other policy lets a row through. -/
theorem permits_iff (hsecured : Secured env cat table tenantColumn t)
    (hpolicies : OnlyBoundaryPolicies env cat table tenantColumn)
    (hflag : s.currentSetting env.conf.adminFlagVar ≠ .some "true") (hrole : s.bypassRls = false)
    (condition : Policy → SqlExpr)
    (hisolation : condition (tenantIsolation table tenantColumn) = .isCurrentTenantId tenantColumn)
    (hbypass : condition (adminBypassPolicy env.conf.adminFlagVar table) = .settingIs env.conf.adminFlagVar "true")
    (r : SqlRow δ) :
    (!s.subject t || (cat.policiesOf table).any fun p => s.truth cat r (condition p) = .some true) =
      s.owns cat tenantColumn r := by
  have hsubject : s.subject t = true := by
    simp [SqlSession.subject, hsecured.rowSecurity, hsecured.forced, hrole]
  rw [hsubject, Bool.not_true, Bool.false_or, Bool.eq_iff_iff, List.any_eq_true]
  constructor
  · rintro ⟨p, hp, htrue⟩
    rw [decide_eq_true_iff] at htrue
    rcases hpolicies p hp with rfl | rfl
    · rw [hisolation] at htrue
      exact truth_isCurrentTenantId.mp htrue
    · rw [hbypass] at htrue
      exact absurd htrue (truth_settingIs hflag)
  · intro howns
    refine ⟨_, hsecured.isolation, decide_eq_true ?_⟩
    rw [hisolation]
    exact truth_isCurrentTenantId.mpr howns

/-- Rows of two tenants conflict on the primary key alone. -/
theorem sameKey_of_conflict (hunique : UniqueLeads cat table tenantColumn) (hdraws : DrawsKeys cat table t serial)
    {r r' : SqlRow δ} (hne : r tenantColumn ≠ r' tenantColumn) (h : (s.guard cat table t).conflict r r' = true) :
    SameKey serial r r' := by
  rcases Bool.or_eq_true_iff.mp h with h | h
  · obtain ⟨c, hc, hconflict⟩ := List.any_eq_true.mp h
    have hmem : tenantColumn ∈ c.key.columns := List.mem_of_head? (hunique.1 c hc)
    exact absurd (of_decide_eq_true hconflict) (Sql.UniqueKey.not_conflict_of_ne hmem hne)
  · obtain ⟨i, hi, hconflict⟩ := List.any_eq_true.mp h
    obtain ⟨-, -, hagree, hnulls⟩ := of_decide_eq_true hconflict
    have hplace : ∀ (place : Nat) (column : String), i.keys[place]? = .some (.some column) → r column = r' column := by
      intro place column hcolumn
      have hlt := (List.getElem?_eq_some_iff.mp hcolumn).1
      have hsame := hagree place (List.mem_range.mpr hlt)
      simpa only [SqlSession.indexTuple, hcolumn] using hsame
    cases hprimary : i.primary with
    | false =>
      have hhead := hunique.2 i hi hprimary
      rw [List.head?_eq_getElem?] at hhead
      exact absurd (hplace 0 tenantColumn hhead) hne
    | true =>
      obtain ⟨hkey, hdistinct⟩ := hdraws.primary i hi hprimary
      obtain ⟨place, hkey⟩ := List.mem_iff_getElem?.mp hkey
      refine ⟨fun hnull => ?_, hplace place serial.column hkey⟩
      refine hnulls.resolve_left (by simp [hdistinct])
        ⟨place, List.mem_range.mpr (List.getElem?_eq_some_iff.mp hkey).1, ?_⟩
      simpa only [SqlSession.indexTuple, hkey] using hnull

/-- The session sees and writes its tenant's rows, and shares but the primary key. -/
theorem owned_of_secured (hsecured : Secured env cat table tenantColumn t) (hdraws : DrawsKeys cat table t serial)
    (hpolicies : OnlyBoundaryPolicies env cat table tenantColumn)
    (hflag : s.currentSetting env.conf.adminFlagVar ≠ .some "true") (hrole : s.bypassRls = false) :
    Sql.Owned (s.guard cat table t) (s.owns cat tenantColumn) (SameKey serial) where
  visible := permits_iff hsecured hpolicies hflag hrole Policy.using_ rfl rfl
  writable := permits_iff hsecured hpolicies hflag hrole (fun p => p.withCheck.getD p.using_) rfl rfl
  conflict r r' hown hother := by
    refine sameKey_of_conflict hsecured.unique hdraws fun hsame => ?_
    obtain ⟨current, hcurrent, hr⟩ := owns_iff.mp hown
    rw [owns_iff.mpr ⟨current, hcurrent, hsame.symm.trans hr⟩] at hother
    cases hother

/-! ## Statements that do not choose a key -/

omit [DecidableEq δ] in
/-- A row is inserted with the key drawn for it. -/
theorem insertedRow_takesKey (hdraws : DrawsKeys cat table t serial) {given : Given δ}
    (hgiven : given.lookup serial.column = .none) :
    Sql.TakesKey (SameKey serial) (HasKey serial) (insertedRow s cat t serial given) := by
  have hkey : ∀ n, insertedRow s cat t serial given n serial.column = .some (serial.value n) := by
    intro n
    obtain ⟨c, hc⟩ := Option.isSome_iff_exists.mp hdraws.column
    simp [insertedRow, hc, hgiven]
  intro n
  refine ⟨fun r hsame => ?_, fun n' hn' => ?_⟩
  · rcases hsame with ⟨-, hsame⟩ | ⟨-, hsame⟩
    · exact hsame.symm.trans (hkey n)
    · exact hsame.trans (hkey n)
  · have hvalue := (hkey n).symm.trans hn'
    exact (serial.injective (Option.some.inj hvalue)).symm

omit [DecidableEq δ] in
theorem updatedRow_keepsKey {given : Given δ} (hgiven : given.lookup serial.column = .none) (r : SqlRow δ) :
    Sql.KeepsKey (SameKey serial) (HasKey serial) r (updatedRow given r) := by
  have hkey : updatedRow given r serial.column = r serial.column := by
    simp [updatedRow, hgiven]
  refine ⟨fun r' hsame => ?_, fun r' hsame => ?_, fun n hn => ?_⟩
  · rwa [SameKey, hkey] at hsame
  · rwa [SameKey, hkey] at hsame
  · rwa [HasKey, hkey] at hn

omit [DecidableEq δ] in
theorem toDml_leavesKeys (hdraws : DrawsKeys cat table t serial) {stmt : RowStatement δ} (h : stmt.LeavesKey serial) :
    (stmt.toDml s cat t serial).LeavesKeys (SameKey serial) (HasKey serial) := by
  cases stmt with
  | select | delete => trivial
  | insert values =>
    intro view make hmake
    obtain ⟨given, hgiven, rfl⟩ := List.mem_map.mp hmake
    exact insertedRow_takesKey hdraws (h view given hgiven)
  | update where_ set => exact fun view r => updatedRow_keepsKey (h view r) r

/-! ## Two runs -/

/-- What is set up, with no policy of its own, keeps each session to its
tenant's rows from every state whose sequence is past its keys. -/
theorem noninterferent_of_setUp (hsetUp : SetUp env cat table tenantColumn)
    (hpolicies : OnlyBoundaryPolicies env cat table tenantColumn) (ht : cat.tables table = .some t)
    (hdraws : DrawsKeys cat table t serial) (hrole : s.bypassRls = false)
    (hflag : s.currentSetting env.conf.adminFlagVar ≠ .some "true") :
    Noninterferent s cat table tenantColumn t serial (Sql.KeysDrawn (SameKey serial) (HasKey serial)) := by
  obtain ⟨t', ht', hsecured⟩ := secured_of_setUp hsetUp
  obtain rfl := Option.some.inj (ht'.symm.trans ht)
  have hown : Sql.Owned (s.guard cat table t') (s.owns cat tenantColumn) (SameKey serial) :=
    owned_of_secured hsecured hdraws hpolicies hflag hrole
  intro h h' hkeys hkeys' hsame stmts hstmts
  have hleaves : ∀ stmt ∈ stmts.map (RowStatement.toDml s cat t' serial),
      stmt.LeavesKeys (SameKey serial) (HasKey serial) := by
    intro stmt hstmt
    obtain ⟨stmt, hmem, rfl⟩ := List.mem_map.mp hstmt
    exact toDml_leavesKeys hdraws (hstmts stmt hmem)
  obtain ⟨hresults, hafter⟩ := Sql.run_eq_of_owned_eq hown hkeys hkeys' hleaves hsame
  have hothers := Sql.run_others hown hkeys hleaves
  refine ⟨hresults, hafter, hothers, fun r hr => ?_⟩
  cases howns : s.owns cat tenantColumn r with
  | true => exact .inl rfl
  | false =>
    have hmem : r ∈ (runStatements s cat t' serial table stmts h).2.rows.filter (!s.owns cat tenantColumn ·) :=
      List.mem_filter.mpr ⟨hr, by simp [howns]⟩
    rw [runStatements, hothers] at hmem
    exact .inr (List.mem_of_mem_filter hmem)

/-! ## The shop's widgets -/

def shopRls : RlsEnv Nat where
  toAdoptionEnv := AdoptTenantApp.shopEnv (AdoptTenantApp.shopWidget "shop_widget")
  relatedPkDbType _ _ := .none

/-- A session of the tenant 1. -/
def sessionOfOne : SqlSession Nat where
  currentSetting name := if name = "app.current_tenant_id" then .some "1" else .none
  cast _ text := if text = "1" then .some 1 else .none
  condition sql _ := if sql = "true" then .some true else .none
  value _ := .none
  indexKey _ _ _ := .none
  covers _ _ := true
  checks _ _ := true

def widgetIds : Serial Nat where
  column := "id"
  value n := n
  injective := Function.injective_id

def widgetRow (id sku tenant : Nat) : SqlRow Nat := fun column =>
  if column = "id" then .some id else if column = "sku" then .some sku
  else if column = "tenant_id" then .some tenant else .none

/-- The widgets' table, with the policies. -/
def shopWith (policies : List Policy) : Migration Nat where
  catalogue := { (AdoptTenantApp.shopOf "shop_widget").catalogue with policies }

theorem shopWith_adopted (policies : List Policy) {m' : Migration Nat}
    (hrun : AdoptTenantApp.adoptShop.databaseForwards shopRls.toAdoptionEnv
      (AdoptTenantApp.shopApps (AdoptTenantApp.shopWidget "shop_widget")) (shopWith policies) = .ok () m') :
    SetUp shopRls m'.catalogue "shop_widget" "tenant_id" := by
  refine ⟨rfl, .inl ⟨⟨by decide +kernel, _, _, _, m', hrun, ?_, ⟨_, rfl, by decide +kernel⟩, rfl⟩, rfl⟩⟩
  exact List.mem_map.mpr ⟨_, AdoptTenantApp.mem_admitted_shop (by decide +kernel), rfl⟩

theorem noninterferent_of_setUp_shop :
    ∃ m' t, AdoptTenantApp.adoptShop.databaseForwards shopRls.toAdoptionEnv
        (AdoptTenantApp.shopApps (AdoptTenantApp.shopWidget "shop_widget")) (shopWith []) = .ok () m' ∧
      m'.catalogue.tables "shop_widget" = .some t ∧
      Noninterferent sessionOfOne m'.catalogue "shop_widget" "tenant_id" t widgetIds
        (Sql.KeysDrawn (SameKey widgetIds) (HasKey widgetIds)) := by
  obtain ⟨m', hrun⟩ : ∃ m', AdoptTenantApp.adoptShop.databaseForwards shopRls.toAdoptionEnv
      (AdoptTenantApp.shopApps (AdoptTenantApp.shopWidget "shop_widget")) (shopWith []) = .ok () m' :=
    exists_of_isOk (by decide +kernel)
  have hcolumn : (m'.catalogue.tables "shop_widget").any (fun t => (t.column? "id").isSome) = true := by
    rw [← after_of_ok hrun]
    decide +kernel
  have hpolicies : ∀ p ∈ m'.catalogue.policiesOf "shop_widget",
      p = tenantIsolation "shop_widget" "tenant_id" ∨ p = adminBypassPolicy shopRls.conf.adminFlagVar "shop_widget" := by
    rw [← after_of_ok hrun]
    decide +kernel
  have hprimary : ∀ i ∈ m'.catalogue.indexesOf "shop_widget", i.primary = true →
      .some "id" ∈ i.keys ∧ i.nullsNotDistinct = false := by
    rw [← after_of_ok hrun]
    decide +kernel
  cases ht : m'.catalogue.tables "shop_widget" with
  | none =>
    rw [ht] at hcolumn
    cases hcolumn
  | some t =>
    rw [ht] at hcolumn
    exact ⟨m', t, hrun, ht,
      noninterferent_of_setUp (shopWith_adopted [] hrun) hpolicies ht ⟨hcolumn, hprimary⟩ rfl (by decide +kernel)⟩

def isDuplicate : Sql.Outcome (SqlRow Nat) → Bool
  | .duplicate => true
  | _ => false

def hasRows : Sql.Outcome (SqlRow Nat) → Bool
  | .rows rs => !rs.isEmpty
  | _ => false

/-- Statements that give another result of a state that agrees. -/
theorem not_noninterferent {s : SqlSession Nat} {cat : Catalogue Nat} {serial : Serial Nat}
    {states : Sql.Heap (SqlRow Nat) → Prop} (look : Sql.Outcome (SqlRow Nat) → Bool) (stmt : RowStatement Nat)
    (h h' : Sql.Heap (SqlRow Nat))
    (hresults : (cat.tables table).map (fun t =>
      ((runStatements s cat t serial table [stmt] h).1.map look,
        (runStatements s cat t serial table [stmt] h').1.map look)) = .some ([true], [false]))
    (hstates : states h) (hstates' : states h')
    (hsame : h.owned (s.owns cat tenantColumn) = h'.owned (s.owns cat tenantColumn)) (hstmt : stmt.LeavesKey serial) :
    ∃ t, cat.tables table = .some t ∧ ¬ Noninterferent s cat table tenantColumn t serial states := by
  cases ht : cat.tables table with
  | none =>
    rw [ht] at hresults
    cases hresults
  | some t =>
    refine ⟨t, rfl, fun hnone => ?_⟩
    rw [ht, Option.map_some, Option.some.injEq, Prod.mk.injEq] at hresults
    have hagree := (hnone h h' hstates hstates' hsame [stmt] (by simpa using hstmt)).1
    rw [hagree, hresults.2] at hresults
    exact absurd hresults.1 (by decide)

/-- A session can tell another's key that the sequence is still to give, and
what another policy shows it. -/
theorem noninterferent_of_setUp_fails :
    (∃ m' t, AdoptTenantApp.adoptShop.databaseForwards shopRls.toAdoptionEnv
        (AdoptTenantApp.shopApps (AdoptTenantApp.shopWidget "shop_widget")) (shopWith []) = .ok () m' ∧
      SetUp shopRls m'.catalogue "shop_widget" "tenant_id" ∧ m'.catalogue.tables "shop_widget" = .some t ∧
      ¬ Noninterferent sessionOfOne m'.catalogue "shop_widget" "tenant_id" t widgetIds fun _ => True) ∧
    ∃ m' t, AdoptTenantApp.adoptShop.databaseForwards shopRls.toAdoptionEnv
        (AdoptTenantApp.shopApps (AdoptTenantApp.shopWidget "shop_widget"))
        (shopWith [⟨"shop_staff", "shop_widget", .text "true", .none⟩]) = .ok () m' ∧
      SetUp shopRls m'.catalogue "shop_widget" "tenant_id" ∧ m'.catalogue.tables "shop_widget" = .some t ∧
      ¬ Noninterferent sessionOfOne m'.catalogue "shop_widget" "tenant_id" t widgetIds
        (Sql.KeysDrawn (SameKey widgetIds) (HasKey widgetIds)) := by
  constructor
  · obtain ⟨m', hrun⟩ : ∃ m', AdoptTenantApp.adoptShop.databaseForwards shopRls.toAdoptionEnv
        (AdoptTenantApp.shopApps (AdoptTenantApp.shopWidget "shop_widget")) (shopWith []) = .ok () m' :=
      exists_of_isOk (by decide +kernel)
    have hother : sessionOfOne.owns m'.catalogue "tenant_id" (widgetRow 0 7 2) = false := by
      rw [← after_of_ok hrun]
      decide +kernel
    obtain ⟨t, ht, hnone⟩ : ∃ t, m'.catalogue.tables "shop_widget" = .some t ∧
        ¬ Noninterferent sessionOfOne m'.catalogue "shop_widget" "tenant_id" t widgetIds fun _ => True := by
      refine not_noninterferent isDuplicate (.insert fun _ => [[("sku", .some 1)]]) ⟨[widgetRow 0 7 2], 0⟩ ⟨[], 0⟩ ?_
        trivial trivial (by simp [Sql.Heap.owned, hother]) (by simp [RowStatement.LeavesKey, widgetIds])
      rw [← after_of_ok hrun]
      decide +kernel
    exact ⟨m', t, hrun, shopWith_adopted _ hrun, ht, hnone⟩
  · obtain ⟨m', hrun⟩ : ∃ m', AdoptTenantApp.adoptShop.databaseForwards shopRls.toAdoptionEnv
        (AdoptTenantApp.shopApps (AdoptTenantApp.shopWidget "shop_widget"))
        (shopWith [⟨"shop_staff", "shop_widget", .text "true", .none⟩]) = .ok () m' :=
      exists_of_isOk (by decide +kernel)
    have hother : sessionOfOne.owns m'.catalogue "tenant_id" (widgetRow 0 7 2) = false := by
      rw [← after_of_ok hrun]
      decide +kernel
    have hkeys : Sql.KeysDrawn (SameKey widgetIds) (HasKey widgetIds) ⟨[widgetRow 0 7 2], 1⟩ := by
      refine ⟨List.pairwise_singleton _ _, fun r hr n hn hkey => ?_⟩
      rw [List.mem_singleton.mp hr] at hkey
      have hzero : 0 = n := Option.some.inj hkey
      simp only at hn
      omega
    obtain ⟨t, ht, hnone⟩ : ∃ t, m'.catalogue.tables "shop_widget" = .some t ∧
        ¬ Noninterferent sessionOfOne m'.catalogue "shop_widget" "tenant_id" t widgetIds
          (Sql.KeysDrawn (SameKey widgetIds) (HasKey widgetIds)) := by
      refine not_noninterferent hasRows (.select fun _ _ => true) ⟨[widgetRow 0 7 2], 1⟩ ⟨[], 1⟩ ?_ hkeys
        ⟨List.Pairwise.nil, by simp⟩ (by simp [Sql.Heap.owned, hother]) trivial
      rw [← after_of_ok hrun]
      decide +kernel
    exact ⟨m', t, hrun, shopWith_adopted _ hrun, ht, hnone⟩

end Boundary
