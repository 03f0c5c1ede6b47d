/-
A reversal tells an adopted table by its `tenant_id` column alone. Forwards
leaves a table whose model declares the column as it is, and backwards drops the
column with its data.
-/
import Boundary.RoundTrip

namespace Boundary

open Exec

namespace AdoptTenantApp

variable {δ : Type}

/-- The column is one of the model's own fields'. -/
def DeclaresTenantId (model : AppModel) : Prop := ∃ f ∈ model.localFields, f.column = "tenant_id"

/-- The tables that are there have the columns their models declare. -/
def HasDeclaredColumns (cat : Catalogue δ) (historical : List AppModel) : Prop :=
  ∀ model ∈ historical, ∀ t, cat.tables model.dbTable = .some t → ∀ f ∈ model.localFields,
    (t.column? f.column).isSome = true

/-- Every declared column is left in place with its data; row security and
policies are left where `tenant_id` is one; and what is no model's table is left
altogether. -/
structure LeavesOwned (historical : List AppModel) (before after : Catalogue δ) : Prop where
  columns : ∀ model ∈ historical, ∀ t, before.tables model.dbTable = .some t →
    ∃ t', after.tables model.dbTable = .some t' ∧ ∀ f ∈ model.localFields,
      t'.column? f.column = t.column? f.column ∧ t'.rows.map (· f.column) = t.rows.map (· f.column)
  security : ∀ model ∈ historical, DeclaresTenantId model → ∀ t, before.tables model.dbTable = .some t →
    ∃ t', after.tables model.dbTable = .some t' ∧ t'.rowSecurity = t.rowSecurity ∧
      t'.forceRowSecurity = t.forceRowSecurity ∧ after.policiesOf model.dbTable = before.policiesOf model.dbTable
  outside : ∀ name, name ∉ historical.map AppModel.dbTable → after.view name = before.view name

/-- A model of the table has its turn before any model of the table that is read
in its place. -/
def Reversed (env : AdoptionEnv δ) (models : List AppModel) (table : String) : Prop :=
  ∃ earlier model later, models = earlier ++ model :: later ∧ model.dbTable = table ∧
    ∀ other ∈ earlier, env.regclass table ≠ .some other.dbTable

variable {op : AdoptTenantApp δ} {env : AdoptionEnv δ} {apps : Apps} {models todo done : List AppModel}
  {m m' m'' s s' : Migration δ} {plans : List AdoptionPlan} {model : AppModel} {table read name : String}
  {t t' t'' : Table δ}

/-! ## Turns -/

/-- The tables agree, but for `tenant_id`. -/
def AgreeOffTenantId (t t' : Table δ) : Prop :=
  ∀ column, column ≠ "tenant_id" → t'.column? column = t.column? column ∧ t'.rows.map (· column) = t.rows.map (· column)

theorem AgreeOffTenantId.refl (t : Table δ) : AgreeOffTenantId t t := fun _ _ => ⟨rfl, rfl⟩

theorem AgreeOffTenantId.trans (h : AgreeOffTenantId t t') (h' : AgreeOffTenantId t' t'') : AgreeOffTenantId t t'' :=
  fun column hne => ⟨(h' column hne).1.trans (h column hne).1, (h' column hne).2.trans (h column hne).2⟩

theorem agreeOff_unadopted (t : Table δ) : AgreeOffTenantId t (unadopted t) := by
  intro column hne
  refine ⟨?_, rfl⟩
  rw [Table.column?, Table.column?, unadopted, List.find?_filter]
  congr 1
  funext c
  by_cases hc : c.name = column <;> simp [hc, hne]

theorem agreeOff_withTenantColumn (t : Table δ) (pgType : String) :
    AgreeOffTenantId t { op.withTenantColumn pgType t with rowSecurity := true, forceRowSecurity := true } := by
  intro column hne
  constructor
  · have hother : ([tenantColumn pgType]).find? (·.name = column) = .none := by
      simpa [tenantColumn] using hne.symm
    rw [Table.column?, Table.column?, withTenantColumn, List.find?_append, hother, Option.or_none]
  · rw [withTenantColumn, List.map_map]
    exact List.map_congr_left fun r _ => stamp_of_ne hne

section

variable [DecidableEq δ] (hlive : env.editor = .live)

include hlive

theorem unadoptTable_agrees (h : unadoptTable env model s = .ok () s') (ht : s.catalogue.tables name = .some t) :
    ∃ t', s'.catalogue.tables name = .some t' ∧ AgreeOffTenantId t t' := by
  by_cases hname : name = model.dbTable
  · subst hname
    cases hread : columnType env.toServer s.catalogue model.dbTable "tenant_id" with
    | none =>
      rw [unadoptTable_absent hread] at h
      cases h
      exact ⟨t, ht, .refl t⟩
    | some type =>
      obtain ⟨hexec, -, -⟩ := (unadoptTable_ok_iff hlive hread).mp h
      obtain ⟨t₁, ht₁, -, ht'⟩ := tables_unadoptScript hexec
      obtain rfl := Option.some.inj (ht.symm.trans ht₁)
      exact ⟨_, ht', agreeOff_unadopted t⟩
  · exact ⟨t, (tables_of_view (unadoptTable_elsewhere hlive h hname)).trans ht, .refl t⟩

theorem unadoptTables_agrees (h : unadoptTables env todo s = .ok () s') (ht : s.catalogue.tables name = .some t) :
    ∃ t', s'.catalogue.tables name = .some t' ∧ AgreeOffTenantId t t' := by
  induction todo generalizing s t with
  | nil =>
    cases h
    exact ⟨t, ht, .refl t⟩
  | cons model todo ih =>
    obtain ⟨s₁, hs₁, hs'⟩ := unadoptTables_cons.mp h
    obtain ⟨t₁, ht₁, hagree₁⟩ := unadoptTable_agrees hlive hs₁ ht
    obtain ⟨t', ht', hagree'⟩ := ih hs' ht₁
    exact ⟨t', ht', hagree₁.trans hagree'⟩

/-- A table that is not reversed is left. -/
theorem unadoptTables_kept (h : unadoptTables env todo s = .ok () s') (hnot : ¬ Reversed env todo table) :
    s'.catalogue.view table = s.catalogue.view table := by
  by_cases hmem : table ∈ todo.map AppModel.dbTable
  · -- the first of its turns comes after one of the table read in its place
    obtain ⟨earlier, later, hsplit, hfirst⟩ := List.eq_append_cons_of_mem hmem
    obtain ⟨done, rest, rfl, hdone, hrest⟩ := List.map_eq_append_iff.mp hsplit
    obtain ⟨model, later, rfl, hmodel, -⟩ := List.map_eq_cons_iff.mp hrest
    obtain ⟨other, hother, hread⟩ : ∃ other ∈ done, env.regclass table = .some other.dbTable := by
      by_contra hnone
      push Not at hnone
      exact hnot ⟨done, model, later, rfl, hmodel, hnone⟩
    obtain ⟨s₁, hs₁, hs'⟩ := unadoptTables_append.mp h
    have hgone := unadoptTables_takes hlive hs₁ (env.regclass_self hread) (List.mem_map_of_mem hother)
    rw [← hdone] at hfirst
    exact (unadoptTables_unread hlive hs' hread hgone).trans (unadoptTables_elsewhere hlive hs₁ hfirst)
  · exact unadoptTables_elsewhere hlive h hmem

/-- A table that is reversed has the column, and loses it. -/
theorem unadoptTables_reversed (h : unadoptTables env todo s = .ok () s') (hreversed : Reversed env todo table)
    (hread : env.regclass table = .some read) (hthere : HasTenantId s.catalogue read) :
    HasTenantId s.catalogue table ∧ ¬ HasTenantId s'.catalogue table := by
  obtain ⟨done, model, later, rfl, rfl, hearlier⟩ := hreversed
  obtain ⟨s₁, hs₁, hs'⟩ := unadoptTables_append.mp h
  obtain ⟨s₂, hs₂, hs'⟩ := unadoptTables_cons.mp hs'
  have hout : read ∉ done.map AppModel.dbTable := by
    intro hmem
    obtain ⟨other, hother, rfl⟩ := List.mem_map.mp hmem
    exact hearlier other hother hread
  have hthere₁ := (hasTenantId_congr (unadoptTables_elsewhere hlive hs₁ hout)).mpr hthere
  obtain ⟨type, htype⟩ := (columnType_eq_some_iff hread).mpr hthere₁
  obtain ⟨hhas, hgone⟩ := unadoptTable_ok hlive htype hs₂
  refine ⟨?_, unadoptTables_lacks hlive hs' hgone⟩
  by_contra hlacks
  exact unadoptTables_lacks hlive hs₁ hlacks hhas

end

/-! ## There and back -/

theorem admitted_subset : op.admitted env apps ⊆ (apps.models op.appLabel).getD [] :=
  fun _ hmodel => List.mem_of_mem_filter (List.mem_of_mem_filter hmodel)

theorem Completed.agrees (hrun : op.Completed env models m m' plans) (ht : m.catalogue.tables name = .some t) :
    ∃ t', m'.catalogue.tables name = .some t' ∧ AgreeOffTenantId t t' := by
  by_cases hplanned : name ∈ plans.map AdoptionPlan.table
  · obtain ⟨plan, hplan, rfl⟩ := List.mem_map.mp hplanned
    obtain ⟨t₁, ht₁, -, -, hview⟩ := hrun.adopted plan hplan
    obtain rfl := Option.some.inj (ht.symm.trans ht₁)
    exact ⟨_, tables_of_view hview, agreeOff_withTenantColumn t plan.pgType⟩
  · exact ⟨t, (tables_of_view (hrun.elsewhere name hplanned)).trans ht, .refl t⟩

/-- A table whose model declares the column has it, and has no plan. -/
theorem Completed.kept_of_declares (hrun : op.Completed env models m m' plans) {historical : List AppModel}
    (hcolumns : HasDeclaredColumns m.catalogue historical) (hmodel : model ∈ historical)
    (hdeclares : DeclaresTenantId model) : m'.catalogue.view model.dbTable = m.catalogue.view model.dbTable := by
  refine hrun.elsewhere _ fun hplanned => ?_
  obtain ⟨plan, hplan, htable⟩ := List.mem_map.mp hplanned
  obtain ⟨t, ht, hnone, -⟩ := hrun.adopted plan hplan
  obtain ⟨f, hf, hcolumn⟩ := hdeclares
  have hsome := hcolumns model hmodel t (htable ▸ ht) f hf
  rw [hcolumn, hnone] at hsome
  cases hsome

/-- What is read of the table of a model of the set that declares the column
has the column. -/
theorem Completed.read_of_declares (hrun : op.Completed env models m m' plans) {historical : List AppModel}
    (hcolumns : HasDeclaredColumns m.catalogue historical) (hmodel : model ∈ historical)
    (hdeclares : DeclaresTenantId model) (hmem : model.dbTable ∈ models.map AppModel.dbTable) :
    ∃ read, env.regclass model.dbTable = .some read ∧ HasTenantId m'.catalogue read := by
  obtain ⟨other, hother, htable⟩ := List.mem_map.mp hmem
  rcases hrun.covered other hother with ⟨type, htype, -⟩ | ⟨plan, hplan, hsame⟩
  · rw [htable] at htype
    cases hread : env.regclass model.dbTable with
    | none =>
      rw [columnType_of_unread hread] at htype
      cases htype
    | some read =>
      obtain ⟨t, ht, hsome⟩ := (columnType_eq_some_iff hread).mp ⟨type, htype⟩
      obtain ⟨c, hc⟩ := Option.isSome_iff_exists.mp hsome
      exact ⟨read, rfl, (hasTenantId_congr (hrun.kept ht hc)).mpr ⟨t, ht, hsome⟩⟩
  · obtain ⟨t, ht, hnone, -⟩ := hrun.adopted plan hplan
    obtain ⟨f, hf, hcolumn⟩ := hdeclares
    have hsome := hcolumns model hmodel t (htable ▸ hsame ▸ ht) f hf
    rw [hcolumn, hnone] at hsome
    cases hsome

/-- Backwards leaves what the app declares exactly when no table in which a
model declares the column is reversed. -/
theorem databaseBackwards_leavesOwned [DecidableEq δ] (hlive : env.editor = .live)
    (hcolumns : HasDeclaredColumns m.catalogue ((apps.models op.appLabel).getD []))
    (hforwards : op.databaseForwards env apps m = .ok () m') (hbackwards : op.databaseBackwards env apps m' = .ok () m'') :
    LeavesOwned ((apps.models op.appLabel).getD []) m.catalogue m''.catalogue ↔
      ∀ model ∈ (apps.models op.appLabel).getD [], DeclaresTenantId model →
        ¬ Reversed env (op.admitted env apps) model.dbTable := by
  obtain ⟨plans, hrun⟩ := databaseForwards_completed hlive hforwards
  rw [databaseBackwards_run hforwards] at hbackwards
  constructor
  · intro hleaves model hmodel hdeclares hreversed
    have hmem : model.dbTable ∈ (op.admitted env apps).map AppModel.dbTable := by
      obtain ⟨earlier, other, later, hsplit, htable, -⟩ := hreversed
      rw [hsplit, ← htable]
      simp
    obtain ⟨read, hread, hthere⟩ := hrun.read_of_declares hcolumns hmodel hdeclares hmem
    obtain ⟨hhas, hgone⟩ := unadoptTables_reversed hlive hbackwards hreversed hread hthere
    obtain ⟨t, ht, hsome⟩ := (hasTenantId_congr (hrun.kept_of_declares hcolumns hmodel hdeclares)).mp hhas
    obtain ⟨t'', ht'', hagree⟩ := hleaves.columns model hmodel t ht
    obtain ⟨f, hf, hcolumn⟩ := hdeclares
    refine hgone ⟨t'', ht'', ?_⟩
    rw [← hcolumn, (hagree f hf).1, hcolumn]
    exact hsome
  · intro hnot
    have hkept : ∀ model ∈ (apps.models op.appLabel).getD [], DeclaresTenantId model →
        m''.catalogue.view model.dbTable = m.catalogue.view model.dbTable := by
      intro model hmodel hdeclares
      exact (unadoptTables_kept hlive hbackwards (hnot model hmodel hdeclares)).trans
        (hrun.kept_of_declares hcolumns hmodel hdeclares)
    refine ⟨fun model hmodel t ht => ?_, fun model hmodel hdeclares t ht => ?_, fun name hname => ?_⟩
    · by_cases hdeclares : DeclaresTenantId model
      · exact ⟨t, (tables_of_view (hkept model hmodel hdeclares)).trans ht, fun f _ => ⟨rfl, rfl⟩⟩
      · obtain ⟨t', ht', hagree'⟩ := hrun.agrees ht
        obtain ⟨t'', ht'', hagree''⟩ := unadoptTables_agrees hlive hbackwards ht'
        exact ⟨t'', ht'', fun f hf => hagree'.trans hagree'' f.column fun hcolumn => hdeclares ⟨f, hf, hcolumn⟩⟩
    · have hview := hkept model hmodel hdeclares
      exact ⟨t, (tables_of_view hview).trans ht, rfl, rfl, policiesOf_of_view hview⟩
    · have hout : name ∉ (op.admitted env apps).map AppModel.dbTable := fun hmem =>
        hname (List.map_subset _ admitted_subset hmem)
      exact (unadoptTables_elsewhere hlive hbackwards hout).trans (hrun.outside hout)

theorem databaseBackwards_leavesOwned_shop :
    ∃ m' m'', adoptShop.databaseForwards (shopEnv (shopWidget "shop_widget")) (shopApps (shopWidget "shop_widget"))
        (shopOf "shop_widget") = .ok () m' ∧
      adoptShop.databaseBackwards (shopEnv (shopWidget "shop_widget")) (shopApps (shopWidget "shop_widget")) m' =
        .ok () m'' ∧
      LeavesOwned [shopWidget "shop_widget"] (shopOf "shop_widget").catalogue m''.catalogue := by
  obtain ⟨m', hforwards⟩ : ∃ m', adoptShop.databaseForwards (shopEnv (shopWidget "shop_widget"))
      (shopApps (shopWidget "shop_widget")) (shopOf "shop_widget") = .ok () m' := exists_of_isOk (by decide +kernel)
  obtain ⟨m'', hbackwards⟩ : ∃ m'', adoptShop.databaseBackwards (shopEnv (shopWidget "shop_widget"))
      (shopApps (shopWidget "shop_widget")) m' = .ok () m'' := by
    rw [← after_of_ok hforwards]
    exact exists_of_isOk (by decide +kernel)
  refine ⟨m', m'', hforwards, hbackwards, (databaseBackwards_leavesOwned rfl (fun model hmodel t ht => ?_) hforwards
    hbackwards).mpr fun model hmodel hdeclares => ?_⟩
  · obtain rfl := List.mem_singleton.mp hmodel
    obtain rfl := Option.some.inj ht
    decide +kernel
  · obtain rfl := List.mem_singleton.mp hmodel
    exact absurd hdeclares (by simp [DeclaresTenantId, shopWidget])

/-- A model with a foreign key of its own to the tenants. -/
def ownedWidget : AppModel :=
  { shopWidget "shop_widget" with localFields := [⟨"sku", "sku", true, false⟩, ⟨"tenant", "tenant_id", false, false⟩] }

def ownedShop : Migration Nat where
  catalogue :=
    { tables := fun name =>
        if name = "shop_widget" then
          .some { columns := [⟨"sku", "text", true, .none⟩, ⟨"tenant_id", "bigint", true, .none⟩]
                  rows := [fun _ => .some 7] }
        else .none
      constraints := []
      names := List.nodup_nil }

/-- Forwards leaves the table as it is, and backwards drops its foreign key. -/
theorem databaseBackwards_leavesOwned_declared :
    HasDeclaredColumns ownedShop.catalogue [ownedWidget] ∧
      adoptShop.databaseForwards (shopEnv ownedWidget) (shopApps ownedWidget) ownedShop = .ok () ownedShop ∧
        ∃ m', adoptShop.databaseBackwards (shopEnv ownedWidget) (shopApps ownedWidget) ownedShop = .ok () m' ∧
          ¬ LeavesOwned [ownedWidget] ownedShop.catalogue m'.catalogue := by
  refine ⟨fun model hmodel t ht => ?_, rfl, ?_⟩
  · obtain rfl := List.mem_singleton.mp hmodel
    obtain rfl := Option.some.inj ht
    decide +kernel
  · obtain ⟨m', hbackwards⟩ : ∃ m', adoptShop.databaseBackwards (shopEnv ownedWidget) (shopApps ownedWidget) ownedShop =
        .ok () m' := exists_of_isOk (by decide +kernel)
    refine ⟨m', hbackwards, fun hleaves => ?_⟩
    obtain ⟨t', ht', hagree⟩ := hleaves.columns ownedWidget (List.mem_singleton_self _) _ rfl
    have hcolumn := (hagree ⟨"tenant", "tenant_id", false, false⟩ (by simp [ownedWidget])).1
    have hdropped : (m'.catalogue.tables "shop_widget").bind (·.column? "tenant_id") = .none := by
      rw [← after_of_ok hbackwards]
      decide +kernel
    have hthere : m'.catalogue.tables "shop_widget" = .some t' := ht'
    rw [hthere, Option.bind_some, hcolumn] at hdropped
    exact absurd hdropped (by decide +kernel)

end AdoptTenantApp

end Boundary
