/-
A second adoption repairs what `boundary.E007` reports of a table that lacks its
column, and of no other: a table that has its column is skipped, whatever else
has drifted.
-/
import Boundary.PlanThenApply

namespace Boundary

namespace AdoptTenantApp

variable {δ : Type} {op : AdoptTenantApp δ} {env : AdoptionEnv δ} {apps : Apps} {models : List AppModel}
  {m m' : Migration δ} {plans : List AdoptionPlan} {model : AppModel}

/-- Nothing is reported of the model; or what is read of it is a table of the set
that lacks the column. -/
def UnreportedOrLacking (env : AdoptionEnv δ) (models : List AppModel) (cat : Catalogue δ) (model : AppModel) : Prop :=
  checkOneAdoptedTable env.toServer cat model (detectTenantPgType env.conf) = [] ∨
    ∃ read ∈ models.map AppModel.dbTable, env.regclass model.dbTable = .some read ∧ LacksTenantId cat read

section

variable (hrun : op.Completed env models m m' plans)

include hrun

/-- A table that has no plan is checked as it was. -/
theorem Completed.check_of_not_planned
    (hout : ∀ read, env.regclass model.dbTable = .some read → read ∉ plans.map AdoptionPlan.table) :
    checkOneAdoptedTable env.toServer m'.catalogue model (detectTenantPgType env.conf) =
      checkOneAdoptedTable env.toServer m.catalogue model (detectTenantPgType env.conf) := by
  cases hreg : env.regclass model.dbTable with
  | none =>
    have habsent : ∀ cat, regclassTable env.toServer cat model.dbTable = .none := by
      intro cat
      rw [regclassTable, hreg]
      rfl
    rw [checkOneAdoptedTable_absent (habsent _), checkOneAdoptedTable_absent (habsent _)]
  | some read => exact checkOneAdoptedTable_congr hreg (hrun.elsewhere read (hout read hreg))

/-- One that has a plan, and is read as itself, is checked clean. -/
theorem Completed.check_of_planned {plan : AdoptionPlan} (hplan : plan ∈ plans)
    (hreg : env.regclass model.dbTable = .some plan.table) :
    checkOneAdoptedTable env.toServer m'.catalogue model (detectTenantPgType env.conf) = [] := by
  obtain ⟨t, ht, hnone, -⟩ := hrun.adopted plan hplan
  exact (hrun.adopted_of_plan hplan (.inl (env.regclass_self hreg))).unreported ⟨t, ht, hnone⟩ hreg

theorem Completed.unreported_iff :
    checkOneAdoptedTable env.toServer m'.catalogue model (detectTenantPgType env.conf) = [] ↔
      UnreportedOrLacking env models m.catalogue model := by
  by_cases hplanned : ∃ plan ∈ plans, env.regclass model.dbTable = .some plan.table
  · obtain ⟨plan, hplan, hreg⟩ := hplanned
    obtain ⟨t, ht, hnone, -⟩ := hrun.adopted plan hplan
    have hlacks : UnreportedOrLacking env models m.catalogue model :=
      .inr ⟨plan.table, (hrun.planned plan hplan).1, hreg, t, ht, hnone⟩
    exact iff_of_true (hrun.check_of_planned hplan hreg) hlacks
  · have hout : ∀ read, env.regclass model.dbTable = .some read → read ∉ plans.map AdoptionPlan.table := by
      intro read hreg hmem
      obtain ⟨plan, hplan, rfl⟩ := List.mem_map.mp hmem
      exact hplanned ⟨plan, hplan, hreg⟩
    rw [hrun.check_of_not_planned hout]
    refine ⟨.inl, fun h => h.elim id ?_⟩
    rintro ⟨read, hmem, hreg, hlacks⟩
    -- such a table has a plan
    obtain ⟨model', hmodel', rfl⟩ := List.mem_map.mp hmem
    obtain ⟨plan, hplan, htable⟩ := hrun.plan_of_lacks hmodel' hlacks fun _ => .inl (env.regclass_self hreg)
    exact absurd (List.mem_map.mpr ⟨plan, hplan, htable⟩) (hout _ hreg)

end

variable [DecidableEq δ]

/-- After a run that completes nothing is reported of the set exactly when,
before it, nothing was reported of a table that has its column. -/
theorem databaseForwards_repairs (hlive : env.editor = .live) (h : op.databaseForwards env apps m = .ok () m') :
    (∀ model ∈ op.admitted env apps,
        checkOneAdoptedTable env.toServer m'.catalogue model (detectTenantPgType env.conf) = []) ↔
      ∀ model ∈ op.admitted env apps, UnreportedOrLacking env (op.admitted env apps) m.catalogue model := by
  obtain ⟨plans, hrun⟩ := databaseForwards_completed hlive h
  exact ⟨fun hclean model hmodel => hrun.unreported_iff.mp (hclean model hmodel),
    fun hbefore model hmodel => hrun.unreported_iff.mpr (hbefore model hmodel)⟩

theorem databaseForwards_repairs_shop :
    ∃ m', adoptShop.databaseForwards (shopEnv (shopWidget "shop_widget")) (shopApps (shopWidget "shop_widget"))
        (shopOf "shop_widget") = .ok () m' ∧
      ∀ model ∈ adoptShop.admitted (shopEnv (shopWidget "shop_widget")) (shopApps (shopWidget "shop_widget")),
        checkOneAdoptedTable (serverOf ["shop_widget"]) m'.catalogue model "bigint" = [] := by
  obtain ⟨m', hrun⟩ : ∃ m', adoptShop.databaseForwards (shopEnv (shopWidget "shop_widget"))
      (shopApps (shopWidget "shop_widget")) (shopOf "shop_widget") = .ok () m' := Exec.exists_of_isOk (by decide +kernel)
  refine ⟨m', hrun, (databaseForwards_repairs rfl hrun).mpr fun model hmodel => .inr ⟨"shop_widget", ?_, ?_, ?_⟩⟩
  · obtain rfl := admitted_shop hmodel
    exact List.mem_map_of_mem hmodel
  · obtain rfl := admitted_shop hmodel
    decide +kernel
  · exact ⟨_, rfl, by decide +kernel⟩

/-- An adopted table whose row security was disabled since. -/
def driftedShop : Migration Nat where
  catalogue :=
    { tables := fun name =>
        if name = "shop_widget" then
          .some { columns := [⟨"id", "bigint", true, .none⟩, tenantColumn "bigint"], forceRowSecurity := true }
        else .none
      policies := [tenantIsolation "shop_widget" "tenant_id", adminBypassPolicy "app.boundary_admin" "shop_widget"] }

/-- The table has its column, and is left as it is. -/
theorem databaseForwards_repairs_drifted :
    ∃ m', adoptShop.databaseForwards (shopEnv (shopWidget "shop_widget")) (shopApps (shopWidget "shop_widget"))
        driftedShop = .ok () m' ∧
      ¬ ∀ model ∈ adoptShop.admitted (shopEnv (shopWidget "shop_widget")) (shopApps (shopWidget "shop_widget")),
        checkOneAdoptedTable (serverOf ["shop_widget"]) m'.catalogue model "bigint" = [] := by
  obtain ⟨m', hrun⟩ : ∃ m', adoptShop.databaseForwards (shopEnv (shopWidget "shop_widget"))
      (shopApps (shopWidget "shop_widget")) driftedShop = .ok () m' := Exec.exists_of_isOk (by decide +kernel)
  refine ⟨m', hrun, fun hclean => ?_⟩
  obtain ⟨plans, hcompleted⟩ := databaseForwards_completed rfl hrun
  have hwidget : shopWidget "shop_widget" ∈
      adoptShop.admitted (shopEnv (shopWidget "shop_widget")) (shopApps (shopWidget "shop_widget")) :=
    mem_admitted_shop (by decide +kernel)
  rcases hcompleted.unreported_iff.mp (hclean _ hwidget) with hbefore | ⟨read, hmem, -, t, ht, hnone⟩
  · exact absurd hbefore (by decide +kernel)
  · obtain ⟨model, hmodel, rfl⟩ := List.mem_map.mp hmem
    obtain rfl := admitted_shop hmodel
    obtain rfl := Option.some.inj ht
    exact absurd hnone (by decide +kernel)

end AdoptTenantApp

end Boundary
