/-
`boundary_deprovision` under regional routing. With no tenant active every model
is routed to one alias: what a tenant has there is gone when the command
returns, in whatever order the models come and whatever cascades, and what its
writes were routed elsewhere is left as it was.
-/
import Boundary.DeprovisionFacts

namespace Boundary

open Exec

variable {δ : Type} [DecidableEq δ]

/-! ## A tenant's rows -/

/-- A tenant-scoped model has rows of the tenant's, by its joins. -/
def HoldsScoped (env : DeprovisionEnv δ) (cat : Catalogue δ) (key : δ) (m : AppModel) : Prop :=
  ∃ r ∈ cat.contents m.dbTable, 0 < (env.lookup m).count cat.contents key r

/-- An adopted table has rows of the tenant's. -/
def HoldsAdopted (cat : Catalogue δ) (key : δ) (m : AppModel) : Prop :=
  ∃ r ∈ cat.contents m.dbTable, r "tenant_id" = .some key

/-- The database has rows of the tenant's of the model, which is tenant-scoped
or adopted. -/
def HoldsRows (env : DeprovisionEnv δ) (cat : Catalogue δ) (key : δ) (m : AppModel) : Prop :=
  m ∈ scopedModels env ∧ HoldsScoped env cat key m ∨ m ∈ expectedAdoptedModels env ∧ HoldsAdopted cat key m

/-- The role sees every row of every table. -/
def SeesAll (env : DeprovisionEnv δ) (a : Alias) (cat : Catalogue δ) : Prop :=
  ∀ name t, cat.tables name = .some t → (env.role a).subject t = false

/-- No tenant-scoped model's table is an adopted one. -/
def Exclusive (env : DeprovisionEnv δ) : Prop := ∀ m ∈ scopedModels env, m.dbTable ∉ adoptedTableSet env

/-- No deletion sets a column by which a row is a tenant's, unless to NULL. -/
structure TenantsFixed (env : DeprovisionEnv δ) : Prop where
  lookups : ∀ m ∈ scopedModels env, (env.lookup m).Fixed env.schema m.dbTable
  tagged : ∀ table ∈ adoptedTableSet env, env.schema.Fixed table "tenant_id"

/-- Where the router sends what is written of the model inside
`TenantContext.using(tenant)`. -/
def writeAlias (env : DeprovisionEnv δ) (tenants : TenantRef → Tenant) (tenant : TenantRef) (m : AppModel) : Alias :=
  RegionalRouter.route env.settings m.isTenantModel { currentTenant := .some tenant } tenants

/-- The tenant's rows are where they were so written. -/
def WrittenUnder (env : DeprovisionEnv δ) (tenants : TenantRef → Tenant) (tenant : TenantRef) (key : δ)
    (databases : Alias → Catalogue δ) : Prop :=
  ∀ a m, HoldsRows env (databases a) key m → a = writeAlias env tenants tenant m

/-- No database has rows of the tenant's. -/
def Deprovisioned (env : DeprovisionEnv δ) (key : δ) (databases : Alias → Catalogue δ) : Prop :=
  ∀ a, (env.settings.databases a).isSome → ∀ m, ¬ HoldsRows env (databases a) key m

variable {env : DeprovisionEnv δ} {a : Alias} {cat : Catalogue δ} {d d' : Deployment δ} {tenant : TenantRef} {key : δ}
  {m : AppModel} {affected : List (AppModel × Nat)}

theorem HoldsScoped.of_shrunk (hfixed : (env.lookup m).Fixed env.schema m.dbTable) (h : Shrunk env a d d')
    (hholds : HoldsScoped env (d'.databases a) key m) : HoldsScoped env (d.databases a) key m := by
  obtain ⟨r', hr', hcount⟩ := hholds
  obtain ⟨r, hr, hvaries⟩ := h.contents m.dbTable r' hr'
  exact ⟨r, hr, Sql.Lookup.count_pos_of_shrinks h.contents _ hfixed hvaries hcount⟩

omit [DecidableEq δ] in
theorem HoldsAdopted.of_shrunk (hfixed : env.schema.Fixed m.dbTable "tenant_id") (h : Shrunk env a d d')
    (hholds : HoldsAdopted (d'.databases a) key m) : HoldsAdopted (d.databases a) key m := by
  obtain ⟨r', hr', htenant⟩ := hholds
  obtain ⟨r, hr, hvaries⟩ := h.contents m.dbTable r' hr'
  exact ⟨r, hr, hvaries.eq_of_some hfixed htenant⟩

/-- What rows of the tenant's are left were there. -/
theorem HoldsRows.of_shrunk (hfixed : TenantsFixed env) (h : Shrunk env a d d')
    (hholds : HoldsRows env (d'.databases a) key m) : HoldsRows env (d.databases a) key m :=
  hholds.imp (fun ⟨hm, hrows⟩ => ⟨hm, hrows.of_shrunk (hfixed.lookups m hm) h⟩)
    fun ⟨hm, hrows⟩ => ⟨hm, hrows.of_shrunk (hfixed.tagged _ (List.mem_map_of_mem hm)) h⟩

omit [DecidableEq δ] in
theorem SeesAll.of_shrunk (h : Shrunk env a d d') (hsees : SeesAll env a (d.databases a)) :
    SeesAll env a (d'.databases a) := by
  intro name t' ht'
  rw [h.withContents, Catalogue.withContents] at ht'
  cases ht : (d.databases a).tables name with
  | none => simp [ht] at ht'
  | some t =>
    have hsubject := hsees name t ht
    simp only [ht, Option.map_some, Option.some.injEq] at ht'
    rw [← ht']
    exact hsubject

/-! ## A session that sees every row -/

theorem seesRow_of_seesAll (hsees : SeesAll env a cat) (vars : SessionVars) {name : String} {r : SqlRow δ}
    (hr : r ∈ cat.contents name) : seesRow (env.session a vars) cat name r = true := by
  obtain ⟨t, ht⟩ := tables_of_mem_contents hr
  have hsubject : (env.session a vars).subject t = false := hsees name t ht
  simp only [seesRow, ht, SqlSession.guard, hsubject]
  rfl

theorem seen_of_seesAll (hsees : SeesAll env a cat) (vars : SessionVars) :
    seen (env.session a vars) cat = cat.contents := by
  funext name
  exact List.filter_eq_self.mpr fun r hr => seesRow_of_seesAll hsees vars hr

theorem mem_scopedRows (hsees : SeesAll env a cat) (vars : SessionVars) {r : SqlRow δ} :
    r ∈ scopedRows env (env.session a vars) cat m key ↔
      r ∈ cat.contents m.dbTable ∧ 0 < (env.lookup m).count cat.contents key r := by
  rw [mem_scopedRows_iff, seen_of_seesAll hsees]

theorem mem_adoptedRows (hsees : SeesAll env a cat) (vars : SessionVars) {r : SqlRow δ} :
    r ∈ adoptedRows (env.session a vars) cat m key ↔ r ∈ cat.contents m.dbTable ∧ r "tenant_id" = .some key := by
  unfold adoptedRows
  rw [seen_of_seesAll hsees, List.mem_filter, decide_eq_true_eq]

/-! ## What is left where the command works -/

theorem deleteModel_shrunk_home (hnone : d.world.contextVars.currentTenant = .none)
    (h : deleteModel env tenant m d = .ok () d') : Shrunk env (home env d.world.contextVars) d d' :=
  routedAlias_eq_home hnone m.isTenantModel ▸ deleteModel_shrunk h

theorem deleteTenant_shrunk_home (hnone : d.world.contextVars.currentTenant = .none)
    (h : deleteTenant env tenant d = .ok () d') : Shrunk env (home env d.world.contextVars) d d' :=
  routedAlias_eq_home hnone false ▸ deleteTenant_shrunk h

theorem deleteScopedRows_leaves_none (hnone : d.world.contextVars.currentTenant = .none)
    (hfixed : (env.lookup m).Fixed env.schema m.dbTable)
    (hsees : SeesAll env (home env d.world.contextVars) (d.databases (home env d.world.contextVars)))
    (h : deleteScopedRows env tenant m d = .ok () d') :
    ¬ HoldsScoped env (d'.databases (home env d.world.contextVars)) (env.keyOf tenant d) m := by
  obtain ⟨vars, rows, -, hdelete, hacted⟩ := deleteScopedRows_ok h
  rw [routedAlias_eq_home hnone] at hdelete hacted
  have hshrinks := Sql.Schema.shrinks_of_delete hdelete
  rw [hacted.here]
  rintro ⟨r', hr', hcount⟩
  rw [contents_withContents hshrinks] at hr' hcount
  obtain ⟨r, hr, hvaries, hstart⟩ := Sql.Schema.mem_of_delete hdelete hr'
  have hbefore := Sql.Lookup.count_pos_of_shrinks hshrinks _ hfixed hvaries hcount
  exact hstart (seesRow_of_seesAll hsees _ hr) (List.mem_map_of_mem ((mem_scopedRows hsees _).mpr ⟨hr, hbefore⟩))

theorem deleteAdoptedRows_leaves_none (hnone : d.world.contextVars.currentTenant = .none)
    (hsees : SeesAll env (home env d.world.contextVars) (d.databases (home env d.world.contextVars)))
    (h : deleteAdoptedRows env tenant m d = .ok () d') :
    ¬ HoldsAdopted (d'.databases (home env d.world.contextVars)) (env.keyOf tenant d) m := by
  obtain ⟨vars, rows, -, herase, hacted⟩ := deleteAdoptedRows_ok h
  rw [routedAlias_eq_home hnone] at herase hacted
  rw [hacted.here]
  rintro ⟨r, hr, htenant⟩
  rw [contents_withContents (Sql.Schema.shrinks_of_erase herase), Sql.Schema.erase_ok herase, Function.update_self] at hr
  obtain ⟨hr, hleft⟩ := List.mem_filter.mp hr
  rw [seesRow_of_seesAll hsees vars hr, htenant] at hleft
  simp at hleft

/-- The loop leaves nothing of the models it goes over. -/
theorem deleteAffected_leaves_none (hnone : d.world.contextVars.currentTenant = .none) (hfixed : TenantsFixed env)
    (hsees : SeesAll env (home env d.world.contextVars) (d.databases (home env d.world.contextVars)))
    (h : deleteAffected env tenant affected d = .ok () d') :
    Shrunk env (home env d.world.contextVars) d d' ∧ ∀ m ∈ affected.map Prod.fst,
      let cat := d'.databases (home env d.world.contextVars)
      (m.dbTable ∈ adoptedTableSet env → ¬ HoldsAdopted cat (env.keyOf tenant d) m) ∧
        (m ∈ scopedModels env → m.dbTable ∉ adoptedTableSet env → ¬ HoldsScoped env cat (env.keyOf tenant d) m) := by
  rw [deleteAffected_eq] at h
  refine eachModel_ok (I := fun done d' => Shrunk env (home env d.world.contextVars) d d' ∧ ∀ m ∈ done,
      let cat := d'.databases (home env d.world.contextVars)
      (m.dbTable ∈ adoptedTableSet env → ¬ HoldsAdopted cat (env.keyOf tenant d) m) ∧
        (m ∈ scopedModels env → m.dbTable ∉ adoptedTableSet env → ¬ HoldsScoped env cat (env.keyOf tenant d) m)) ?_ ?_ h
  · intro done m d₁ d₂ _ ⟨hshrunk, hdone⟩ hdelete
    have hnone₁ := hshrunk.noTenant hnone
    have hstep := deleteModel_shrunk_home hnone₁ hdelete
    rw [hshrunk.home] at hstep
    refine ⟨hshrunk.trans hstep, fun m' hm' => ?_⟩
    rcases List.mem_append.mp hm' with hm' | hm'
    · exact ⟨fun htable hholds => (hdone m' hm').1 htable (hholds.of_shrunk (hfixed.tagged _ htable) hstep),
        fun hm htable hholds => (hdone m' hm').2 hm htable (hholds.of_shrunk (hfixed.lookups m' hm) hstep)⟩
    · obtain rfl := List.mem_singleton.mp hm'
      have hsees₁ := hsees.of_shrunk hshrunk
      rw [← hshrunk.home] at hsees₁ ⊢
      rw [← hshrunk.keyOf]
      unfold deleteModel at hdelete
      split at hdelete
      · next htable =>
        exact ⟨fun _ => deleteAdoptedRows_leaves_none hnone₁ hsees₁ hdelete, fun _ hnot => absurd htable hnot⟩
      · next htable =>
        exact ⟨fun hin => absurd hin htable, fun hm _ =>
          deleteScopedRows_leaves_none hnone₁ (hfixed.lookups m' hm) hsees₁ hdelete⟩
  · exact ⟨.refl d, fun m hm => absurd hm List.not_mem_nil⟩

/-- Every model with rows of the tenant's there is among those affected. -/
theorem mem_affected (hnone : d.world.contextVars.currentTenant = .none)
    (hsees : SeesAll env (home env d.world.contextVars) (d.databases (home env d.world.contextVars)))
    (h : collectAffected env tenant d = .ok affected d')
    (hholds : HoldsRows env (d.databases (home env d.world.contextVars)) (env.keyOf tenant d) m) :
    m ∈ affected.map Prod.fst := by
  obtain ⟨-, counted, adopted, rfl, hcounted, hadopted, hscopedRows, hadoptedRows⟩ := collectAffected_ok hnone h
  rw [List.map_append, List.mem_append]
  rcases hholds with ⟨hm, r, hr, hcount⟩ | ⟨hm, r, hr, htenant⟩
  · rw [← hcounted] at hm
    obtain ⟨p, hp, rfl⟩ := List.mem_map.mp hm
    obtain ⟨vars, -, hn⟩ := hscopedRows p hp
    refine .inl (List.mem_map_of_mem (List.mem_filter.mpr ⟨hp, decide_eq_true ?_⟩))
    rw [hn]
    exact List.length_pos_of_mem ((mem_scopedRows hsees _).mpr ⟨hr, hcount⟩)
  · rw [← hadopted] at hm
    obtain ⟨p, hp, rfl⟩ := List.mem_map.mp hm
    obtain ⟨vars, -, hn⟩ := hadoptedRows p hp
    refine .inr (List.mem_map_of_mem (List.mem_filter.mpr ⟨hp, decide_eq_true ?_⟩))
    rw [hn]
    exact List.length_pos_of_mem ((mem_adoptedRows hsees _).mpr ⟨hr, htenant⟩)

/-! ## Complete, or not -/

section

variable {options : DeprovisionOptions} {databases : Alias → Catalogue δ}

/-- A confirmed run works on one alias only. -/
theorem deprovision_elsewhere (hyes : options.yes = true) (hdry : options.dryRun = false)
    (hnone : d.world.contextVars.currentTenant = .none)
    (hhook : env.preDeprovisionHook tenant d.databases = .ok databases)
    (h : deprovision env tenant options d = .ok () d') (ha : a ≠ home env d.world.contextVars) :
    d'.databases a = databases a := by
  obtain ⟨affected, d₁, d₂, d₃, d₄, hcollect, hexport, hdelete, htenant, hwrite⟩ := deprovision_ok hyes hdry hhook h
  have hwritten : Asked env d₄ d' := .of_written hwrite
  have hcollected : Asked env { d with databases } d₂ :=
    (collectAffected_models hcollect).1.toAsked.trans (exportIfAsked_asked hexport)
  have hnone₂ := hcollected.noTenant hnone
  rw [deleteAffected_eq] at hdelete
  have hdeleted : Shrunk env (home env d₂.world.contextVars) d₂ d₃ :=
    eachModel_ok (I := fun _ => Shrunk env (home env d₂.world.contextVars) d₂) (fun _ m d₁ d₂ _ hshrunk hstep =>
      hshrunk.trans (hshrunk.home ▸ deleteModel_shrunk_home (hshrunk.noTenant hnone₂) hstep))
      (.refl d₂) hdelete
  have hall := hdeleted.trans (hdeleted.home ▸ deleteTenant_shrunk_home (hdeleted.noTenant hnone₂) htenant)
  rw [hcollected.home] at hall
  rw [hwritten.databases, hall.elsewhere ha, hcollected.databases]

/-- What the tenant has on that alias is gone. -/
theorem deprovision_here (hyes : options.yes = true) (hdry : options.dryRun = false)
    (hnone : d.world.contextVars.currentTenant = .none)
    (hhook : env.preDeprovisionHook tenant d.databases = .ok databases)
    (h : deprovision env tenant options d = .ok () d') (hexclusive : Exclusive env) (hfixed : TenantsFixed env)
    (hsees : SeesAll env (home env d.world.contextVars) (databases (home env d.world.contextVars))) (m : AppModel) :
    ¬ HoldsRows env (d'.databases (home env d.world.contextVars)) (env.keyOf tenant d) m := by
  intro hholds
  obtain ⟨affected, d₁, d₂, d₃, d₄, hcollect, hexport, hdelete, htenant, hwrite⟩ := deprovision_ok hyes hdry hhook h
  have hwritten : Asked env d₄ d' := .of_written hwrite
  have hcollected : Asked env { d with databases } d₂ :=
    (collectAffected_models hcollect).1.toAsked.trans (exportIfAsked_asked hexport)
  have hhome : home env d₂.world.contextVars = home env d.world.contextVars := hcollected.home
  have hkey : env.keyOf tenant d₂ = env.keyOf tenant d := hcollected.keyOf
  have hnone₂ := hcollected.noTenant hnone
  have hsees₂ : SeesAll env (home env d₂.world.contextVars) (d₂.databases (home env d₂.world.contextVars)) := by
    rw [hhome, hcollected.databases]
    exact hsees
  obtain ⟨hdeleted, hleft⟩ := deleteAffected_leaves_none hnone₂ hfixed hsees₂ hdelete
  have hlast := deleteTenant_shrunk_home (hdeleted.noTenant hnone₂) htenant
  rw [hdeleted.home] at hlast
  rw [hhome] at hdeleted hleft hlast
  rw [hkey] at hleft
  rw [hwritten.databases] at hholds
  have hfirst : HoldsRows env (databases (home env d.world.contextVars)) (env.keyOf tenant d) m := by
    have hstart : d₂.databases = databases := hcollected.databases
    rw [← hstart]
    exact (hholds.of_shrunk hfixed hlast).of_shrunk hfixed hdeleted
  have haffected := mem_affected (d := { d with databases }) hnone hsees hcollect hfirst
  rcases hholds.of_shrunk hfixed hlast with ⟨hm, hrows⟩ | ⟨hm, hrows⟩
  · exact (hleft m haffected).2 hm (hexclusive m hm) hrows
  · exact (hleft m haffected).1 (List.mem_map_of_mem hm) hrows

theorem handleDeprovision_elsewhere {d₀ : Deployment δ} (hyes : options.yes = true) (hdry : options.dryRun = false)
    (hnone : d.world.contextVars.currentTenant = .none)
    (hresolve : resolveTenantOption env options.tenant d = .ok tenant d₀)
    (hhook : env.preDeprovisionHook tenant d.databases = .ok databases)
    (h : handleDeprovision env options d = .ok () d') (ha : a ≠ home env d.world.contextVars) :
    d'.databases a = databases a := by
  unfold handleDeprovision at h
  obtain ⟨_, d₁, hresolved, h⟩ := bind_ok_iff.mp h
  rw [hresolve] at hresolved
  cases hresolved
  have hasked := resolveTenantOption_asked hresolve
  rw [← hasked.databases] at hhook
  exact deprovision_elsewhere hyes hdry (hasked.noTenant hnone) hhook h (hasked.home ▸ ha)

/-- A run that returns has deleted every row of the tenant's exactly when none
was elsewhere than on the alias that models are routed to with no tenant active:
when each of its rows is of a model that is routed there under the tenant too. -/
theorem handleDeprovision_complete_iff {d₀ : Deployment δ} (hyes : options.yes = true) (hdry : options.dryRun = false)
    (hnone : d.world.contextVars.currentTenant = .none)
    (hresolve : resolveTenantOption env options.tenant d = .ok tenant d₀)
    (hhook : env.preDeprovisionHook tenant d.databases = .ok databases)
    (h : handleDeprovision env options d = .ok () d') :
    let key := env.keyOf tenant d
    let here := home env d.world.contextVars
    let configured := fun a => (env.settings.databases a).isSome = true
    (Deprovisioned env key d'.databases → ∀ a, configured a → a ≠ here → ∀ m, ¬ HoldsRows env (databases a) key m) ∧
      (Exclusive env → TenantsFixed env → SeesAll env here (databases here) →
        (Deprovisioned env key d'.databases ↔
          ∀ a, configured a → a ≠ here → ∀ m, ¬ HoldsRows env (databases a) key m) ∧
        (WrittenUnder env d.world.tenants tenant key databases →
          (Deprovisioned env key d'.databases ↔
            ∀ a, configured a → ∀ m, HoldsRows env (databases a) key m →
              writeAlias env d.world.tenants tenant m = here))) := by
  have helsewhere : ∀ a, a ≠ home env d.world.contextVars → d'.databases a = databases a := fun a ha =>
    handleDeprovision_elsewhere hyes hdry hnone hresolve hhook h ha
  unfold handleDeprovision at h
  obtain ⟨_, d₁, hresolved, h⟩ := bind_ok_iff.mp h
  rw [hresolve] at hresolved
  cases hresolved
  have hasked := resolveTenantOption_asked hresolve
  have hnone₀ := hasked.noTenant hnone
  rw [← hasked.databases] at hhook
  have hhere : ∀ m, Exclusive env → TenantsFixed env → SeesAll env (home env d.world.contextVars)
      (databases (home env d.world.contextVars)) →
        ¬ HoldsRows env (d'.databases (home env d.world.contextVars)) (env.keyOf tenant d) m := by
    intro m hexclusive hfixed hsees
    rw [← hasked.home] at hsees ⊢
    rw [← hasked.keyOf]
    exact deprovision_here hyes hdry hnone₀ hhook h hexclusive hfixed hsees m
  have hleft : Deprovisioned env (env.keyOf tenant d) d'.databases → ∀ a, (env.settings.databases a).isSome →
      a ≠ home env d.world.contextVars → ∀ m, ¬ HoldsRows env (databases a) (env.keyOf tenant d) m :=
    fun hgone a hconfigured ha m => helsewhere a ha ▸ hgone a hconfigured m
  have hiff : Exclusive env → TenantsFixed env →
      SeesAll env (home env d.world.contextVars) (databases (home env d.world.contextVars)) →
      (Deprovisioned env (env.keyOf tenant d) d'.databases ↔ ∀ a, (env.settings.databases a).isSome →
        a ≠ home env d.world.contextVars → ∀ m, ¬ HoldsRows env (databases a) (env.keyOf tenant d) m) := by
    refine fun hexclusive hfixed hsees => ⟨hleft, fun hall a hconfigured m => ?_⟩
    by_cases ha : a = home env d.world.contextVars
    · rw [ha]
      exact hhere m hexclusive hfixed hsees
    · rw [helsewhere a ha]
      exact hall a hconfigured ha m
  refine ⟨hleft, fun hexclusive hfixed hsees =>
    ⟨hiff hexclusive hfixed hsees, fun hwritten => (hiff hexclusive hfixed hsees).trans ?_⟩⟩
  constructor
  · intro hall a hconfigured m hholds
    rw [← hwritten a m hholds]
    by_contra ha
    exact hall a hconfigured ha m hholds
  · intro hall a hconfigured ha m hholds
    exact ha ((hwritten a m hholds).trans (hall a hconfigured m hholds))

end

/-! ## A shop in two regions -/

def invoiceModel : AppModel := shopModel "Invoice" "shop_invoice"

def euShop : DeprovisionEnv Nat :=
  { deprovisionShop superuser [invoiceModel]
      [{ source := "shop_invoice", column := "tenant_id", target := "shop_tenant", key := "id" }] with
    settings := { databases := fun a => if a = "default" ∨ a = "eu" then .some .postgresql else .none
                  regions := .some ["eu"] } }

/-- One tenant, in a region or in none, with one invoice on an alias. -/
def shopOn (region : Option String) (a : Alias) : Deployment Nat where
  world := { tenants := fun _ => ⟨.int 7, region, .none⟩, connections := fun _ => ⟨.none, true, []⟩ }
  databases b := tablesOf [("shop_tenant", if b = "default" then [rowOf [("id", 7)]] else []),
    ("shop_invoice", if b = a then [rowOf [("id", 1), ("tenant_id", 7)]] else [])]

theorem shop_seesAll (a : Alias) (cat : Catalogue Nat) : SeesAll euShop a cat := fun _ t _ => by
  simp [SqlSession.subject, euShop, deprovisionShop, superuser]

theorem shop_exclusive : Exclusive euShop := fun _ _ => List.not_mem_nil

theorem shop_tenantsFixed : TenantsFixed euShop where
  lookups m _ v hsets := by
    obtain ⟨rel, hrel, -, -, hvalue⟩ := hsets
    rw [List.mem_singleton.mp hrel] at hvalue
    cases hvalue
  tagged _ htable := absurd htable List.not_mem_nil

theorem shop_writtenUnder {region : Option String} {a : Alias}
    (ha : a = writeAlias euShop (shopOn region a).world.tenants 0 invoiceModel) :
    WrittenUnder euShop (shopOn region a).world.tenants 0 7 (shopOn region a).databases := by
  rintro b m (⟨hm, r, hr, -⟩ | ⟨hm, -⟩)
  · obtain rfl := List.mem_singleton.mp hm
    by_cases hb : b = a
    · exact hb.trans ha
    · have hnone : ((shopOn region a).databases b).contents "shop_invoice" = [] := by
        unfold shopOn
        simp only [if_neg hb]
        rfl
      rw [show invoiceModel.dbTable = "shop_invoice" from rfl, hnone] at hr
      exact absurd hr List.not_mem_nil
  · exact absurd hm List.not_mem_nil

/-- A tenant in no region: its invoice was routed where the command works. -/
theorem deprovisioned_without_region : ∃ d', handleDeprovision euShop { tenant := "7", yes := true }
      (shopOn .none "default") = .ok () d' ∧ Deprovisioned euShop 7 d'.databases := by
  obtain ⟨d', hrun⟩ : ∃ d', handleDeprovision euShop { tenant := "7", yes := true } (shopOn .none "default") = .ok () d' :=
    exists_of_isOk (by decide +kernel)
  have hcomplete := (handleDeprovision_complete_iff rfl rfl rfl rfl rfl hrun).2 shop_exclusive
    shop_tenantsFixed (shop_seesAll _ _)
  refine ⟨d', hrun, (hcomplete.2 (shop_writtenUnder rfl)).mpr fun a _ m hholds => ?_⟩
  rcases hholds with ⟨hm, -⟩ | ⟨hm, -⟩
  · rw [List.mem_singleton.mp hm]
    rfl
  · exact absurd hm List.not_mem_nil

/-- A tenant in a region: its invoice was written there, and is there when the
command has returned. -/
theorem left_in_the_region : ∃ d', handleDeprovision euShop { tenant := "7", yes := true } (shopOn (.some "eu") "eu") =
      .ok () d' ∧ WrittenUnder euShop (shopOn (.some "eu") "eu").world.tenants 0 7 (shopOn (.some "eu") "eu").databases ∧
      ¬ Deprovisioned euShop 7 d'.databases := by
  obtain ⟨d', hrun⟩ : ∃ d',
      handleDeprovision euShop { tenant := "7", yes := true } (shopOn (.some "eu") "eu") = .ok () d' :=
    exists_of_isOk (by decide +kernel)
  refine ⟨d', hrun, shop_writtenUnder rfl, fun hgone => ?_⟩
  have hsame := handleDeprovision_elsewhere rfl rfl rfl rfl rfl hrun (by decide : "eu" ≠ "default")
  have hnone := hgone "eu" rfl invoiceModel
  rw [hsame] at hnone
  exact hnone (.inl ⟨List.mem_singleton_self _, rowOf [("id", 1), ("tenant_id", 7)], List.mem_singleton_self _, by decide⟩)

end Boundary
