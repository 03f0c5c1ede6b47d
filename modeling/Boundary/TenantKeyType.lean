/-
The type a tenant's key takes, as `CreateTenantPolicy`, `AdoptTenantApp` and
`boundary.E007` derive it on an alias that is PostgreSQL.

Whichever connection is migrated, all three ask the default one what it calls
the key's type, and look that name up in a map of PostgreSQL's names. What a
connection calls a type is any function; Django's own backends' are below.
-/
import Boundary.Noninterference
import Boundary.SplitAdoption

namespace Boundary

open Exec

/-! ## Keys and connections -/

/-- Django's fields for a key that is a UUID or an integer. -/
inductive KeyField where
  | uuidField
  | autoField
  | bigAutoField
  | smallAutoField
  | integerField
  | bigIntegerField
  | smallIntegerField
  | positiveIntegerField
  | positiveBigIntegerField
  | positiveSmallIntegerField
deriving DecidableEq

/-- `uuid` for a UUID, and `bigint` for an integer. -/
def KeyField.pgType : KeyField → String
  | uuidField => "uuid"
  | _ => "bigint"

/-- The names under which the map has a key's type. -/
def KeyField.typeNames : KeyField → List String
  | uuidField => ["uuid"]
  | _ => ["integer", "bigint", "serial", "bigserial"]

structure DbConnection where
  vendor : Vendor
  /-- `Field.db_type`, of the field and the connection. -/
  dbType : KeyField → String

/-- `_expected_tenant_column_type`. -/
def expectedTenantColumnType (conf : AdoptionSettings) : String := detectTenantPgType conf

section

variable {δ : Type}

/-- If the statement creates the helper, or adds a column, it is of the type. -/
def Statement.OfType (pgType : String) : Statement δ → Prop
  | createHelper helper => helper.returns = pgType
  | addColumn _ column => column.type = pgType
  | _ => True

/-- So are those executed or collected since `m`. -/
def SinceOfType (pgType : String) (m m' : Migration δ) : Prop :=
  ∃ executed collected, m'.executed = m.executed ++ executed ∧ m'.collected = m.collected ++ collected ∧
    ∀ s ∈ executed ++ collected, s.OfType pgType

variable [DecidableEq δ]

/-- What `CreateTenantPolicy` does of a model whose tenant field relates to the
tenant model. -/
structure PolicyTakes (env : RlsEnv δ) (pgType : String) (op : CreateTenantPolicy) (model : AppModel) : Prop where
  derived : op.detectTenantColumnType env model = .ok pgType
  runs : ∀ appLabel apps m, apps.getModel (targetAppLabel op.appLabel appLabel) op.modelName = .some model →
    SinceOfType pgType m (after (op.databaseForwards env appLabel apps) m)
  helper : ∀ appLabel apps m lines m', apps.getModel (targetAppLabel op.appLabel appLabel) op.modelName = .some model →
    env.allowMigrateModel model = true → env.editor = .live → op.databaseForwards env appLabel apps m = .ok lines m' →
      m'.catalogue.helper.map TenantIdHelper.returns = .some pgType

/-- What `AdoptTenantApp` does. -/
structure AdoptionTakes (env : AdoptionEnv δ) (pgType : String) (op : AdoptTenantApp δ) : Prop where
  derived : op.tenantPgType env.conf = .ok pgType
  runs : ∀ apps m, SinceOfType pgType m (after (op.databaseForwards env apps) m)
  adopted : ∀ apps m m', env.editor = .live → op.databaseForwards env apps m = .ok () m' →
    ∀ model ∈ op.admitted env apps, columnType env.toServer m.catalogue model.dbTable "tenant_id" = .none →
      m'.catalogue.helper.map TenantIdHelper.returns = .some pgType ∧
        ∃ t, m'.catalogue.tables model.dbTable = .some t ∧
          t.column? "tenant_id" = .some (AdoptTenantApp.tenantColumn pgType)

/-- The helper and the tenant's column take the type, nothing is refused for it,
and it is the one that is checked. -/
structure TakesType (env : RlsEnv δ) (pgType : String) : Prop where
  policy : ∀ (op : CreateTenantPolicy) (model : AppModel),
    env.relatedPkDbType model (removeIdSuffix op.tenantColumn) = .some env.conf.pkDbType → PolicyTakes env pgType op model
  adoption : ∀ op : AdoptTenantApp δ, AdoptionTakes env.toAdoptionEnv pgType op
  check : expectedTenantColumnType env.conf = pgType

end

/-! ## The map -/

theorem pgTypeMap_eq_some_iff {name : String} (key : KeyField) :
    pgTypeMap name = .some key.pgType ↔ name ∈ key.typeNames := by
  cases key <;> simp only [KeyField.pgType, KeyField.typeNames, pgTypeMap] <;> split <;> simp_all

theorem detectTenantPgType_of_map {conf : AdoptionSettings} {pgType : String}
    (hmap : pgTypeMap conf.pkDbType = .some pgType) : detectTenantPgType conf = pgType := by
  rw [detectTenantPgType, hmap]
  rfl

theorem tenantPgType_ok_iff {δ : Type} {op : AdoptTenantApp δ} {conf : AdoptionSettings} {pgType : String} :
    op.tenantPgType conf = .ok pgType ↔ pgTypeMap conf.pkDbType = .some pgType := by
  unfold AdoptTenantApp.tenantPgType
  cases pgTypeMap conf.pkDbType with
  | none => simp
  | some type => simp

/-! ## Runs -/

section

variable {δ α β : Type} {pgType : String} {m : Migration δ}

/-- Whatever came of it, a run added statements of the type only. -/
def OfType (pgType : String) (x : Adopting δ α) : Prop :=
  ∀ m, Triple (SinceOfType pgType m) x (fun _ => SinceOfType pgType m) (SinceOfType pgType m)

theorem SinceOfType.refl (pgType : String) (m : Migration δ) : SinceOfType pgType m m :=
  ⟨[], [], by simp, by simp, by simp⟩

theorem OfType.after {x : Adopting δ α} (hx : OfType pgType x) (m : Migration δ) : SinceOfType pgType m (after x m) :=
  (hx m).after (fun _ _ h => h) (.refl pgType m)

theorem OfType.pure (a : α) : OfType pgType (pure a : Adopting δ α) := fun _ => Triple.pure a

theorem OfType.throw (e : AdoptionError) : OfType pgType (throw e : Adopting δ α) := by
  intro m s hs
  refine ⟨fun a s' h => ?_, fun e' s' h => ?_⟩ <;> cases h
  exact hs

theorem OfType.bind {x : Adopting δ α} {f : α → Adopting δ β} (hx : OfType pgType x) (hf : ∀ a, OfType pgType (f a)) :
    OfType pgType (x >>= f) := fun m => (hx m).bind fun a => hf a m

/-- What follows a read knows what was read. -/
theorem OfType.reading_bind {read : Catalogue δ → Except AdoptionError α} {f : α → Adopting δ β}
    (hf : ∀ cat a, read cat = .ok a → OfType pgType (f a)) : OfType pgType (reading read >>= f) := by
  intro m s hs
  rw [bind_run, reading]
  cases hread : read s.catalogue with
  | error e =>
    refine ⟨fun b s' h => ?_, fun e' s' h => ?_⟩ <;> cases h
    exact hs
  | ok a => exact hf _ a hread m s hs

variable [DecidableEq δ] {env : AdoptionEnv δ} {op : AdoptTenantApp δ} {apps : Apps}

theorem ofType_cursorExecute {s : Statement δ} (hs : s.OfType pgType) : OfType pgType (cursorExecute env s) := by
  intro m m₁ hsince
  unfold cursorExecute
  cases s.exec env.toServer m₁.catalogue with
  | error e =>
    refine ⟨fun n m' h => ?_, fun e' m' h => ?_⟩ <;> cases h
    exact hsince
  | ok r =>
    refine ⟨fun n m' h => ?_, fun e' m' h => ?_⟩ <;> cases h
    obtain ⟨executed, collected, hexecuted, hcollected, hall⟩ := hsince
    refine ⟨executed ++ [s], collected, by simp [hexecuted], hcollected, fun s' hs' => ?_⟩
    simp only [List.mem_append, List.mem_singleton] at hs' hall
    rcases hs' with (hs' | rfl) | hs'
    · exact hall s' (.inl hs')
    · exact hs
    · exact hall s' (.inr hs')

theorem ofType_schemaExecute {s : Statement δ} (hs : s.OfType pgType) : OfType pgType (schemaExecute env s) := by
  unfold schemaExecute
  cases env.editor with
  | live => exact (ofType_cursorExecute hs).bind fun _ => .pure ()
  | collecting =>
    intro m m₁ hsince
    refine ⟨fun _ m' h => ?_, fun e' m' h => ?_⟩ <;> cases h
    obtain ⟨executed, collected, hexecuted, hcollected, hall⟩ := hsince
    refine ⟨executed, collected ++ [s], hexecuted, by simp [hcollected], fun s' hs' => ?_⟩
    rw [← List.append_assoc] at hs'
    rcases List.mem_append.mp hs' with hs' | hs'
    · exact hall s' hs'
    · obtain rfl := List.mem_singleton.mp hs'
      exact hs

theorem ofType_createTenantPolicies (table tenantColumn : String) :
    OfType pgType (createTenantPolicies env table tenantColumn) :=
  .bind (ofType_schemaExecute trivial) fun _ => ofType_schemaExecute trivial

theorem ofType_applyUniqueRewrites (table : String) (rewrites : List (String × List String)) :
    OfType pgType (AdoptTenantApp.applyUniqueRewrites env table rewrites) := by
  induction rewrites with
  | nil => exact .pure ()
  | cons rewrite rewrites ih =>
    exact .bind (ofType_schemaExecute trivial) fun _ => .bind (ofType_schemaExecute trivial) fun _ => ih

theorem ofType_addTenantColumn {plan : AdoptionPlan} (hplan : plan.pgType = pgType) :
    OfType pgType (op.addTenantColumn env plan) := by
  unfold AdoptTenantApp.addTenantColumn
  split
  · exact ofType_schemaExecute hplan
  · refine .bind (ofType_schemaExecute hplan) fun _ => .bind ?_ fun updated => ?_
    · unfold AdoptTenantApp.backfill
      cases op.backfillTenant with
      | none => exact .pure _
      | some tenant => exact ofType_cursorExecute trivial
    · split
      · exact .bind (ofType_schemaExecute trivial) fun _ => ofType_schemaExecute trivial
      · exact .throw _

theorem ofType_adoptTables {plans : List AdoptionPlan} (hplans : ∀ plan ∈ plans, plan.pgType = pgType) :
    OfType pgType (op.adoptTables env plans) := by
  induction plans with
  | nil => exact .pure ()
  | cons plan plans ih =>
    have htable : OfType pgType (op.adoptTable env plan) := by
      refine .bind (ofType_addTenantColumn (hplans plan (List.mem_cons_self ..))) fun _ => ?_
      refine .bind (ofType_applyUniqueRewrites _ _) fun _ => ?_
      refine .bind (ofType_schemaExecute trivial) fun _ => ?_
      exact .bind (ofType_schemaExecute trivial) fun _ => ofType_createTenantPolicies _ _
    exact htable.bind fun _ => ih fun p hp => hplans p (List.mem_cons_of_mem _ hp)

/-- No run of an adoption creates a helper, or adds a column, of another type. -/
theorem ofType_databaseForwards (hmap : pgTypeMap env.conf.pkDbType = .some pgType) :
    OfType pgType (op.databaseForwards env apps) := by
  unfold AdoptTenantApp.databaseForwards
  split
  · exact .throw _
  · split
    · exact .throw _
    · split
      · exact .pure ()
      · refine .reading_bind fun _ _ _ => .reading_bind fun _ derived hderived => .reading_bind fun cat plans hplans => ?_
        obtain rfl := Option.some.inj (hmap.symm.trans (tenantPgType_ok_iff.mp hderived))
        refine .bind ?_ fun _ => ofType_adoptTables fun plan hplan => ?_
        · unfold AdoptTenantApp.createHelperOnce
          split
          · exact .pure ()
          · exact ofType_schemaExecute rfl
        · exact ((AdoptTenantApp.validateTables_ok hplans).1 plan hplan).2.1

/-! ## What each operation leaves -/

theorem policyTakes_of_map {env : RlsEnv δ} {op : CreateTenantPolicy} {model : AppModel}
    (hvendor : env.vendor = .postgresql)
    (hmap : pgTypeMap env.conf.pkDbType = .some pgType)
    (hrelated : env.relatedPkDbType model (removeIdSuffix op.tenantColumn) = .some env.conf.pkDbType) :
    PolicyTakes env pgType op model := by
  have hderived : op.detectTenantColumnType env model = .ok pgType := by
    unfold CreateTenantPolicy.detectTenantColumnType
    rw [hrelated]
    simp only [hmap, Option.getD_some]
  refine ⟨hderived, fun appLabel apps m hmodel => ?_, fun appLabel apps m lines m' hmodel hallow hlive h => ?_⟩
  · have hrun : OfType pgType (op.databaseForwards env appLabel apps) := by
      unfold CreateTenantPolicy.databaseForwards resolving gated
      rw [hmodel]
      simp only [hvendor]
      split
      · exact .pure []
      · refine .reading_bind fun _ found hfound => ?_
        obtain rfl := Except.ok.inj (hderived.symm.trans hfound)
        refine .bind (ofType_schemaExecute rfl) fun _ => ?_
        exact .bind (ofType_createTenantPolicies _ _) fun _ => .pure []
    exact hrun.after m
  · unfold CreateTenantPolicy.databaseForwards resolving gated at h
    rw [hmodel] at h
    simp only [hallow, hvendor, Bool.true_eq_false, if_false] at h
    obtain ⟨found, m₁, hread, h⟩ := bind_ok_iff.mp h
    obtain ⟨hfound, rfl⟩ := reading_ok_iff.mp hread
    obtain rfl := Except.ok.inj (hderived.symm.trans hfound)
    obtain ⟨_, m₂, hhelper, h⟩ := bind_ok_iff.mp h
    obtain ⟨_, m₃, hpolicies, hpure⟩ := bind_ok_iff.mp h
    cases hpure
    obtain ⟨_, m₄, hisolation, hbypass⟩ := bind_ok_iff.mp hpolicies
    obtain ⟨cat₁, n, hcreate, hcat⟩ := execAll_cons_ok_iff.mp (schemaExecute_ok hlive hhelper).catalogue
    cases hcreate
    have hexecuted := (schemaExecute_ok hlive hisolation).append (schemaExecute_ok hlive hbypass)
    obtain ⟨hkept, -⟩ := AdoptTenantApp.execAll_leaves_rest hexecuted.catalogue (by simp [Statement.table?])
    rw [hkept, ← Except.ok.inj hcat]
    rfl

theorem adoptionTakes_of_map (hmap : pgTypeMap env.conf.pkDbType = .some pgType) : AdoptionTakes env pgType op := by
  refine ⟨tenantPgType_ok_iff.mpr hmap, fun apps m => (ofType_databaseForwards hmap).after m, ?_⟩
  intro apps m m' hlive h model hmodel hlacks
  obtain ⟨plans, hplans, hexecuted⟩ := AdoptTenantApp.databaseForwards_ok hlive h
  have hrun := AdoptTenantApp.completed_of_executed hplans hexecuted
  have htype : detectTenantPgType env.conf = pgType := detectTenantPgType_of_map hmap
  -- a table of which no column is read has a plan
  obtain ⟨plan, hplan, htable⟩ : ∃ plan ∈ plans, plan.table = model.dbTable := by
    rcases hrun.covered model hmodel with ⟨type, hthere, -⟩ | hplan
    · rw [hlacks] at hthere
      cases hthere
    · exact hplan
  constructor
  · obtain ⟨cat₁, hhelper, hscripts⟩ := execAll_append_ok_iff.mp hexecuted.catalogue
    obtain ⟨-, -, hsome⟩ := AdoptTenantApp.helper_of_helperScript hhelper
    obtain ⟨hkept, -⟩ := AdoptTenantApp.execAll_leaves_rest hscripts fun s hs => by
      obtain ⟨plan', -, hs⟩ := List.mem_flatMap.mp hs
      rw [AdoptTenantApp.adoptScript_table s hs]
      rfl
    rw [hkept, hsome (List.ne_nil_of_mem hplan), Option.map_some, htype]
  · obtain ⟨t, ht, hnone, -, hview⟩ := hrun.adopted plan hplan
    rw [← htable]
    refine ⟨_, (tables_of_view hview).trans rfl, ?_⟩
    have hfind : t.columns.find? (·.name = "tenant_id") = .none := hnone
    have hcolumn : (t.columns ++ [AdoptTenantApp.tenantColumn plan.pgType]).find? (·.name = "tenant_id") =
        .some (AdoptTenantApp.tenantColumn plan.pgType) := by
      rw [List.find?_append, hfind]
      rfl
    rw [← htype, ← (hrun.planned plan hplan).2.1]
    exact hcolumn

/-! ## The key's type -/

/-- On an alias that is PostgreSQL the key's type is taken where the default
connection gives the key one of the names the map has its type under. -/
theorem takesType_iff (env : RlsEnv δ) (default : DbConnection) (key : KeyField) (hvendor : env.vendor = .postgresql)
    (hdefault : env.conf.pkDbType = default.dbType key) :
    TakesType env key.pgType ↔ default.dbType key ∈ key.typeNames := by
  rw [← pgTypeMap_eq_some_iff, ← hdefault]
  constructor
  · intro htakes
    exact tenantPgType_ok_iff.mp (htakes.adoption ⟨"", [], .none⟩).derived
  · intro hmap
    exact ⟨fun op model hrelated => policyTakes_of_map hvendor hmap hrelated, fun op => adoptionTakes_of_map hmap,
      detectTenantPgType_of_map hmap⟩

end

/-! ## Django's backends -/

def postgresqlConnection : DbConnection where
  vendor := .postgresql
  dbType
    | .uuidField => "uuid"
    | .autoField | .integerField | .positiveIntegerField => "integer"
    | .bigAutoField | .bigIntegerField | .positiveBigIntegerField => "bigint"
    | .smallAutoField | .smallIntegerField | .positiveSmallIntegerField => "smallint"

def sqliteConnection : DbConnection where
  vendor := .other "sqlite"
  dbType
    | .uuidField => "char(32)"
    | .autoField | .bigAutoField | .smallAutoField | .integerField => "integer"
    | .bigIntegerField => "bigint"
    | .smallIntegerField => "smallint"
    | .positiveIntegerField => "integer unsigned"
    | .positiveBigIntegerField => "bigint unsigned"
    | .positiveSmallIntegerField => "smallint unsigned"

def mysqlConnection : DbConnection where
  vendor := .other "mysql"
  dbType
    | .uuidField => "char(32)"
    | .autoField => "integer AUTO_INCREMENT"
    | .bigAutoField => "bigint AUTO_INCREMENT"
    | .smallAutoField => "smallint AUTO_INCREMENT"
    | .integerField => "integer"
    | .bigIntegerField => "bigint"
    | .smallIntegerField => "smallint"
    | .positiveIntegerField => "integer UNSIGNED"
    | .positiveBigIntegerField => "bigint UNSIGNED"
    | .positiveSmallIntegerField => "smallint UNSIGNED"

/-- The keys whose type is taken under each. -/
theorem mem_typeNames_iff (key : KeyField) :
    (postgresqlConnection.dbType key ∈ key.typeNames ↔
        key ∉ [.smallAutoField, .smallIntegerField, .positiveSmallIntegerField]) ∧
      (sqliteConnection.dbType key ∈ key.typeNames ↔
        key ∈ [.autoField, .bigAutoField, .smallAutoField, .integerField, .bigIntegerField]) ∧
      (mysqlConnection.dbType key ∈ key.typeNames ↔ key ∈ [.integerField, .bigIntegerField]) := by
  cases key <;> decide

/-! ## Widgets under two databases -/

/-- The widgets' alias is PostgreSQL, the default one is not said; the tenant's
key is a UUID. -/
def uuidShop (default : DbConnection) : RlsEnv Nat where
  toAdoptionEnv :=
    { AdoptTenantApp.shopEnv (AdoptTenantApp.shopWidget "shop_widget") with
      conf := { tenantModel := "accounts.Tenant", tenantAppLabel := "accounts", tenantName := "Tenant",
                pkDbType := default.dbType .uuidField } }
  relatedPkDbType _ field := if field = "tenant" then .some (default.dbType .uuidField) else .none

/-- The widgets' table, with the tenant's column as that alias has it. -/
def uuidWidgets : Migration Nat where
  catalogue :=
    { tables := fun name =>
        if name = "shop_widget" then
          .some { columns := [⟨"id", "bigint", true, .none⟩, ⟨"tenant_id", "uuid", true, .none⟩] }
        else .none
      constraints := []
      names := List.nodup_nil }

/-- Where both are PostgreSQL. -/
theorem takesType_postgresql : TakesType (uuidShop postgresqlConnection) KeyField.uuidField.pgType :=
  (takesType_iff (uuidShop postgresqlConnection) postgresqlConnection .uuidField rfl rfl).mpr (by decide)

/-- Where the default one is SQLite, the policy's helper is of another type, and
the server refuses to compare the column with it; and the adoption is refused. -/
theorem takesType_sqlite_fails :
    ((uuidShop sqliteConnection).vendor = .postgresql ∧
      (uuidShop sqliteConnection).conf.pkDbType = sqliteConnection.dbType .uuidField ∧
      ¬ TakesType (uuidShop sqliteConnection) KeyField.uuidField.pgType) ∧
    (∃ e m', (CreateTenantPolicy.mk "Widget" "tenant_id" .none).databaseForwards (uuidShop sqliteConnection) "shop"
        (AdoptTenantApp.shopApps (AdoptTenantApp.shopWidget "shop_widget")) uuidWidgets = .error e m' ∧
      m'.catalogue.helper.map TenantIdHelper.returns = .some "bigint") ∧
    ∃ message m', AdoptTenantApp.adoptShop.databaseForwards (uuidShop sqliteConnection).toAdoptionEnv
        (AdoptTenantApp.shopApps (AdoptTenantApp.shopWidget "shop_widget")) (shopWith []) =
          .error (.refused message) m' := by
  refine ⟨⟨rfl, rfl, fun htakes => ?_⟩, ?_, ?_⟩
  · have hcheck : expectedTenantColumnType (uuidShop sqliteConnection).conf = "bigint" := by decide +kernel
    have hsame : "bigint" = "uuid" := hcheck.symm.trans htakes.check
    exact absurd hsame (by decide)
  · have hraised : (match (CreateTenantPolicy.mk "Widget" "tenant_id" .none).databaseForwards
        (uuidShop sqliteConnection) "shop" (AdoptTenantApp.shopApps (AdoptTenantApp.shopWidget "shop_widget"))
        uuidWidgets with
      | .error _ m' => m'.catalogue.helper.map TenantIdHelper.returns
      | .ok _ _ => .none) = .some "bigint" := by decide +kernel
    split at hraised
    next e m' hrun => exact ⟨e, m', hrun, hraised⟩
    · cases hraised
  · have hrefused : (match AdoptTenantApp.adoptShop.databaseForwards (uuidShop sqliteConnection).toAdoptionEnv
        (AdoptTenantApp.shopApps (AdoptTenantApp.shopWidget "shop_widget")) (shopWith []) with
      | .error (.refused _) _ => true
      | _ => false) = true := by decide +kernel
    split at hrefused
    next message m' hrun => exact ⟨message, m', hrun⟩
    · cases hrefused

end Boundary
