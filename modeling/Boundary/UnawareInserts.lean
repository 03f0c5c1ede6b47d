/-
Rows of an adopted table that its own application inserts without a thought of
tenants: the column's default stamps the active tenant on them, and where none
is active they are refused, inside a bypass block too.
-/
import Boundary.VisibleRows

namespace Boundary

open Exec TenantContext

variable {δ : Type} [DecidableEq δ]

/-- On every PostgreSQL alias the table was adopted; it has another column for
its keys. -/
structure AdoptedOn (st : Settings) (s : SqlSession δ) (on : TableOn δ) (env : RlsEnv δ) : Prop
    extends Policed st s on env where
  live : env.editor = .live
  adopted : ∀ a, isPostgresql st a = true → AdoptedTable env (on.cat a) on.table
  column : on.tenantColumn = "tenant_id"
  key : on.serial.column ≠ "tenant_id"

/-- The statement names no tenant. -/
def Unaware (values : List (SqlRow δ) → List (Given δ)) : Prop :=
  ∀ view, ∀ given ∈ values view, given.lookup "tenant_id" = .none

variable {env : RlsEnv δ} {cat : Catalogue δ} {table pgType : String} {t : Table δ} {s : SqlSession δ} {st : Settings}
  {c : Config} {w : World} {a : Alias} {on : TableOn δ} {values : List (SqlRow δ) → List (Given δ)}

/-- The column adoption adds, with its default. -/
theorem column_of_adopted (hlive : env.editor = .live) (h : AdoptedTable env cat table)
    (ht : cat.tables table = .some t) :
    t.column? "tenant_id" = .some (AdoptTenantApp.tenantColumn (detectTenantPgType env.conf)) := by
  obtain ⟨op, apps, m, m', hrun, htable, hlacks, hview⟩ := h.run
  obtain ⟨model, hmodel, rfl⟩ := List.mem_map.mp htable
  obtain ⟨plans, hcompleted⟩ := AdoptTenantApp.databaseForwards_completed hlive hrun
  obtain ⟨t₀, t', ht₀, ht', hcolumns, -⟩ := (hcompleted.adopted_of_lacks hmodel hlacks fun _ => .inl h.read).column
  obtain rfl := Option.some.inj (ht'.symm.trans ((tables_of_view hview).symm.trans ht))
  obtain ⟨t₁, ht₁, hlack⟩ := hlacks
  obtain rfl := Option.some.inj (ht₁.symm.trans ht₀)
  unfold Table.column? at hlack ⊢
  rw [hcolumns, List.find?_append, hlack]
  rfl

omit [DecidableEq δ] in
/-- A row inserted without the column holds what the helper answers. -/
theorem insertedRow_tenantId (hcolumn : t.column? "tenant_id" = .some (AdoptTenantApp.tenantColumn pgType))
    {serial : Serial δ} (hkey : serial.column ≠ "tenant_id") {given : Given δ}
    (hgiven : given.lookup "tenant_id" = .none) (n : Nat) :
    insertedRow s cat t serial given n "tenant_id" = s.currentTenantId cat := by
  unfold insertedRow
  rw [hcolumn]
  simp only [hgiven, if_neg hkey.symm]
  rfl

/-- A row without a tenant is refused, whatever policies there are. -/
theorem refused_of_null (hcolumn : t.column? "tenant_id" = .some (AdoptTenantApp.tenantColumn pgType)) {r : SqlRow δ}
    (hnull : r "tenant_id" = .none) (others : List (SqlRow δ)) : (s.guard cat table t).refusal others r ≠ .none := by
  have hmem : AdoptTenantApp.tenantColumn pgType ∈ t.columns := List.mem_of_find?_eq_some hcolumn
  have hinvalid : (s.guard cat table t).valid r = false := by
    rw [SqlSession.guard, Bool.and_eq_false_iff]
    refine .inl (List.all_eq_false.mpr ⟨_, hmem, ?_⟩)
    simp [AdoptTenantApp.tenantColumn, hnull]
  unfold Sql.Guard.refusal
  rw [if_pos hinvalid]
  split
  · exact Option.some_ne_none _
  · exact Option.some_ne_none _

/-- Inserts that name no tenant are the active tenant's where its scope covers
the alias, and are refused elsewhere. -/
theorem unaware_inserts_of_run (hrun : MixedRun st w c) (hpg : isPostgresql st a = true)
    (hu : (c.world.connections a).usable = true) (hadopted : AdoptedOn st s on env) (hvalues : Unaware values)
    (h : Sql.Heap (SqlRow δ)) :
    let r := (s.guardOn on (c.world.connections a) a).exec
      ((RowStatement.insert values).toDml (s.on (c.world.connections a)) (on.cat a) (on.definition a) on.serial) h
    match activeTenantId st s on.pgType c a with
    | .some key => r.1 ≠ .denied ∧ ∀ row ∈ r.2.rows, row ∈ h.rows ∨ row "tenant_id" = .some key
    | .none => r.2.rows = h.rows ∧
        (values ((s.guardOn on (c.world.connections a) a).view h) ≠ [] → r.1.inOrder = false) := by
  have hstate := hrun.sessionState hpg hu
  have hguard := guard_of_sessionState hadopted.toPoliced hpg hstate
  have hcolumn := column_of_adopted hadopted.live (hadopted.adopted a hpg) (hadopted.definition a hpg)
  have hmade : ∀ view, ∀ make ∈ (values view).map
      (insertedRow (s.on (c.world.connections a)) (on.cat a) (on.definition a) on.serial),
      ∀ n, make n "tenant_id" = activeTenantId st s on.pgType c a := by
    intro view make hmake n
    obtain ⟨given, hgiven, rfl⟩ := List.mem_map.mp hmake
    rw [insertedRow_tenantId hcolumn hadopted.key (hvalues view given hgiven)]
    exact currentTenantId_of_sessionState hadopted.unset (hadopted.names a hpg) hstate
  replace hmade := hmade ((s.guardOn on (c.world.connections a) a).view h)
  simp only [RowStatement.toDml]
  cases hkey : activeTenantId st s on.pgType c a with
  | some key =>
    rw [hkey] at hmade
    rcases Sql.exec_insert (g := s.guardOn on (c.world.connections a) a)
      (fun view => (values view).map
        (insertedRow (s.on (c.world.connections a)) (on.cat a) (on.definition a) on.serial)) h with
      ⟨-, hexec⟩ | ⟨outcome, hrefused, hexec, hrows⟩
    · rw [hexec]
      refine ⟨by simp, fun row hrow => ?_⟩
      rcases Sql.mem_insertAll hrow with hold | ⟨make, hmake, n, rfl⟩
      · exact .inl hold
      · exact .inr (hmade make hmake n)
    · rw [hexec, hrows]
      refine ⟨fun hdenied => ?_, fun row hrow => .inl hrow⟩
      refine Sql.insertAll_not_denied (fun make hmake n => ?_) (hdenied ▸ hrefused)
      rw [(hguard _).2, permitted, hkey, hadopted.column, Option.any_some, hmade make hmake n]
      simp
  | none =>
    rw [hkey] at hmade
    rcases Sql.exec_insert (g := s.guardOn on (c.world.connections a) a)
      (fun view => (values view).map
        (insertedRow (s.on (c.world.connections a)) (on.cat a) (on.definition a) on.serial)) h with
      ⟨hwhole, hexec⟩ | ⟨outcome, hrefused, hexec, hrows⟩
    · -- nothing was inserted, as it would have been refused
      have hnil : (values ((s.guardOn on (c.world.connections a) a).view h)) = [] := by
        by_contra hne
        obtain ⟨outcome, hsome⟩ := Sql.insertAll_refused (h := h) (by simpa using hne) fun make hmake n others =>
          refused_of_null (s := s.on (c.world.connections a)) hcolumn (hmade make hmake n) others
        exact absurd (hsome.symm.trans hwhole) (Option.some_ne_none _)
      rw [hexec, hnil]
      exact ⟨rfl, fun hne => absurd rfl hne⟩
    · rw [hexec, hrows]
      exact ⟨rfl, fun _ => Sql.Guard.insertAll_inOrder hrefused⟩

/-! ## The shop's widgets -/

theorem adoptedShop_adopted : AdoptedTable shopRls adoptedShop.catalogue "shop_widget" where
  read := by decide +kernel
  run := ⟨_, _, _, adoptedShop, adoptedShop_run,
    List.mem_map.mpr ⟨_, AdoptTenantApp.mem_admitted_shop (by decide +kernel), rfl⟩, ⟨_, rfl, by decide +kernel⟩, rfl⟩

theorem shopWidgets_adopted : AdoptedOn TwoRegions.settings shopSession shopWidgets shopRls where
  toPoliced := shopWidgets_policed
  live := rfl
  adopted _ _ := adoptedShop_adopted
  column := rfl
  key := by decide

/-- After its bypass block the shop inserts a widget, and tenant 0 has it. -/
theorem unaware_inserts_of_run_shop :
    let c := widgetRun.foldl (step TwoRegions.settings) ⟨TwoRegions.autocommit, []⟩
    let r := (shopSession.guardOn shopWidgets (c.world.connections "default") "default").exec
      ((RowStatement.insert fun _ => [[("sku", .some 5)]]).toDml (shopSession.on (c.world.connections "default"))
        (shopWidgets.cat "default") (shopWidgets.definition "default") shopWidgets.serial) ⟨[], 0⟩
    r.1 ≠ .denied ∧ ∀ row ∈ r.2.rows, row ∈ ([] : List (SqlRow Nat)) ∨ row "tenant_id" = .some 1 := by
  have hunaware : Unaware (δ := Nat) fun _ => [[("sku", .some 5)]] := by
    intro view given hgiven
    rw [List.mem_singleton.mp hgiven]
    rfl
  exact unaware_inserts_of_run (a := "default") widgetRun_mixed (by decide) (by decide) shopWidgets_adopted
    hunaware ⟨[], 0⟩

end Boundary
