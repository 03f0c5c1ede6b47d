/-
`boundary_deprovision` under forced row security, as a role subject to it. What
goes through the ORM runs with no tenant set and outside the bypass, and sees no
row; what reads or deletes from an adopted table runs inside it, and sees them
all. The command covers the rows of adopted tables, then, and no others.
-/
import Boundary.DeprovisionFacts
import Boundary.Noninterference

namespace Boundary

open Exec

variable {δ : Type}

/-! ## Forced row security -/

/-- The tables of the tenant models, tenant-scoped and adopted. -/
def registryTables (env : DeprovisionEnv δ) : List String :=
  (scopedModels env ++ expectedAdoptedModels env).map AppModel.dbTable

/-- The table forces row security, and has the bypass policy and no other but the
isolation policy. -/
structure BoundaryPolicies (conf : AdoptionSettings) (cat : Catalogue δ) (table : String) : Prop where
  forced : ∀ t, cat.tables table = .some t → t.rowSecurity = true ∧ t.forceRowSecurity = true
  bypass : adminBypassPolicy conf.adminFlagVar table ∈ cat.policiesOf table
  only : ∃ column, ∀ p ∈ cat.policiesOf table, p = tenantIsolation table column ∨
    p = adminBypassPolicy conf.adminFlagVar table

/-- Every table of a tenant model does, and the role is subject to it. -/
structure ForcedRls (env : DeprovisionEnv δ) (a : Alias) (cat : Catalogue δ) : Prop where
  tables : ∀ table ∈ registryTables env, BoundaryPolicies env.conf cat table
  helper : ∀ helper, cat.helper = .some helper → helper.sessionVar = env.conf.dbSessionVar
  role : (env.role a).bypassRls = false

variable {env : DeprovisionEnv δ} {a : Alias} {cat : Catalogue δ} {d d' : Deployment δ} {tenant : TenantRef} {key : δ}
  {m : AppModel} {affected : List (AppModel × Nat)} {table : String} {vars : SessionVars}

theorem ForcedRls.withContents (h : ForcedRls env a cat) (rows : Sql.Contents String String δ) :
    ForcedRls env a (cat.withContents rows) := by
  refine ⟨fun table htable => ⟨fun t' ht' => ?_, (h.tables table htable).bypass, (h.tables table htable).only⟩, h.helper,
    h.role⟩
  unfold Catalogue.withContents at ht'
  cases ht : cat.tables table with
  | none => simp [ht] at ht'
  | some t =>
    have hforced := (h.tables table htable).forced t ht
    simp only [ht, Option.map_some, Option.some.injEq] at ht'
    rw [← ht']
    exact hforced

theorem ForcedRls.of_shrunk (h : Shrunk env a d d') (hrls : ForcedRls env a (d.databases a)) :
    ForcedRls env a (d'.databases a) := h.withContents ▸ hrls.withContents _

variable [DecidableEq δ]

omit [DecidableEq δ] in
theorem ForcedRls.subject (hrls : ForcedRls env a cat) (htable : table ∈ registryTables env) {t : Table δ}
    (ht : cat.tables table = .some t) : (env.session a vars).subject t = true := by
  obtain ⟨hsecurity, hforced⟩ := (hrls.tables table htable).forced t ht
  have hrole : (env.session a vars).bypassRls = false := hrls.role
  simp [SqlSession.subject, hsecurity, hforced, hrole]

/-- A session with no tenant and no bypass sees no row of a tenant model. -/
theorem ForcedRls.hidden (hrls : ForcedRls env a cat) (htable : table ∈ registryTables env)
    (hflag : vars env.settings.adminFlagVar ≠ "true") (hnone : vars env.settings.dbSessionVar = "") (r : SqlRow δ) :
    seesRow (env.session a vars) cat table r = false := by
  cases ht : cat.tables table with
  | none => simp [seesRow, ht]
  | some t =>
    simp only [seesRow, ht, SqlSession.guard, hrls.subject htable ht, Bool.not_true, Bool.false_or]
    rw [List.any_eq_false]
    intro p hp
    rw [decide_eq_true_eq]
    have hcurrent : (env.session a vars).currentTenantId cat = .none := by
      unfold SqlSession.currentTenantId
      cases hhelper : cat.helper with
      | none => rfl
      | some helper =>
        have hvar : vars helper.sessionVar = "" := by
          rw [hrls.helper helper hhelper, ← env.dbSessionVar, hnone]
        simp [DeprovisionEnv.session, hvar]
    obtain ⟨column, honly⟩ := (hrls.tables table htable).only
    rcases honly p hp with rfl | rfl
    · simp only [tenantIsolation, SqlSession.truth, hcurrent]
      cases r column <;> simp
    · refine truth_settingIs ?_
      rw [← env.adminFlagVar]
      simpa [DeprovisionEnv.session] using hflag

/-- In the bypass it sees them all. -/
theorem ForcedRls.shown (hrls : ForcedRls env a cat) (htable : table ∈ registryTables env)
    (hflag : vars env.settings.adminFlagVar = "true") {r : SqlRow δ} (hr : r ∈ cat.contents table) :
    seesRow (env.session a vars) cat table r = true := by
  obtain ⟨t, ht⟩ := tables_of_mem_contents hr
  simp only [seesRow, ht, SqlSession.guard, hrls.subject htable ht, Bool.not_true, Bool.false_or]
  refine List.any_eq_true.mpr ⟨_, (hrls.tables table htable).bypass, decide_eq_true ?_⟩
  simp [adminBypassPolicy, SqlSession.truth, DeprovisionEnv.session, ← env.adminFlagVar, hflag]

omit [DecidableEq δ] in
theorem mem_registryTables_of_scoped (hm : m ∈ scopedModels env) : m.dbTable ∈ registryTables env :=
  List.mem_map_of_mem (List.mem_append_left _ hm)

omit [DecidableEq δ] in
theorem mem_registryTables_of_adopted (hm : m ∈ expectedAdoptedModels env) : m.dbTable ∈ registryTables env :=
  List.mem_map_of_mem (List.mem_append_right _ hm)

theorem scopedRows_hidden (hrls : ForcedRls env a cat) (hm : m ∈ scopedModels env)
    (hflag : vars env.settings.adminFlagVar ≠ "true") (hnone : vars env.settings.dbSessionVar = "") :
    scopedRows env (env.session a vars) cat m key = [] := by
  have hseen : seen (env.session a vars) cat m.dbTable = [] := List.filter_eq_nil_iff.mpr fun r _ => by
    rw [hrls.hidden (mem_registryTables_of_scoped hm) hflag hnone r]
    exact Bool.false_ne_true
  rw [scopedRows, hseen]
  rfl

/-- The rows of a table whose `tenant_id` is the tenant's. -/
def taggedRows (cat : Catalogue δ) (key : δ) (table : String) : List (SqlRow δ) :=
  (cat.contents table).filter fun r => r "tenant_id" = .some key

theorem adoptedRows_shown (hrls : ForcedRls env a cat) (hm : m ∈ expectedAdoptedModels env)
    (hflag : vars env.settings.adminFlagVar = "true") :
    adoptedRows (env.session a vars) cat m key = taggedRows cat key m.dbTable := by
  have hseen : seen (env.session a vars) cat m.dbTable = cat.contents m.dbTable :=
    List.filter_eq_self.mpr fun r hr => hrls.shown (mem_registryTables_of_adopted hm) hflag hr
  rw [adoptedRows, hseen, taggedRows]

/-! ## What the three phases cover -/

/-- Nothing of the tenant-scoped models is counted. -/
theorem collectAffected_under_rls (hnone : d.world.contextVars.currentTenant = .none)
    (hquiet : Quiet env (home env d.world.contextVars) d)
    (hpg : isPostgresql env.settings (home env d.world.contextVars) = true)
    (hrls : ForcedRls env (home env d.world.contextVars) (d.databases (home env d.world.contextVars)))
    (h : collectAffected env tenant d = .ok affected d') :
    affected = ((expectedAdoptedModels env).map fun m => (m, (taggedRows (d.databases (home env d.world.contextVars))
      (env.keyOf tenant d) m.dbTable).length)).filter (·.2 > 0) ∧ Silent env d d' := by
  obtain ⟨hsilent, counted, adopted, rfl, hcounted, hadopted, hscopedRows, hadoptedRows⟩ := collectAffected_ok hnone h
  have hnothing : counted.filter (·.2 > 0) = [] := by
    refine List.filter_eq_nil_iff.mpr fun p hp => ?_
    obtain ⟨vars, hplain, hn⟩ := hscopedRows p hp
    obtain ⟨hflag, hvar⟩ := hplain hquiet
    rw [hn, scopedRows_hidden hrls (hcounted ▸ List.mem_map_of_mem hp) hflag hvar]
    simp
  have hall : adopted = (adopted.map Prod.fst).map fun m =>
      (m, (taggedRows (d.databases (home env d.world.contextVars)) (env.keyOf tenant d) m.dbTable).length) := by
    rw [List.map_map]
    refine ((List.map_congr_left fun p hp => ?_).trans (List.map_id adopted)).symm
    obtain ⟨vars, hflag, hn⟩ := hadoptedRows p hp
    have hm : p.1 ∈ expectedAdoptedModels env := hadopted ▸ List.mem_map_of_mem hp
    rw [adoptedRows_shown hrls hm (hflag hpg)] at hn
    exact Prod.ext rfl hn.symm
  rw [hnothing, List.nil_append, ← hadopted, ← hall]
  exact ⟨rfl, hsilent⟩

/-- Nothing of the tenant-scoped models is exported. -/
theorem exportData_under_rls {path : String} (hnone : d.world.contextVars.currentTenant = .none)
    (hquiet : Quiet env (home env d.world.contextVars) d)
    (hpg : isPostgresql env.settings (home env d.world.contextVars) = true)
    (hrls : ForcedRls env (home env d.world.contextVars) (d.databases (home env d.world.contextVars)))
    (h : exportData env tenant path d = .ok () d') :
    d'.files path = .some ((expectedAdoptedModels env).flatMap fun m =>
      (taggedRows (d.databases (home env d.world.contextVars)) (env.keyOf tenant d) m.dbTable).map (⟨m, true, ·⟩)) := by
  unfold exportData at h
  obtain ⟨_, d₁, hopen, h⟩ := bind_ok_iff.mp h
  obtain ⟨_, d₂, hscoped, h⟩ := bind_ok_iff.mp h
  obtain ⟨_, d₃, hadopted, hwrite⟩ := bind_ok_iff.mp h
  have hopened : Asked env d d₁ ∧ d₁.files path = .some [] := by
    cases hopen
    exact ⟨⟨.of_world rfl, rfl⟩, Function.update_self ..⟩
  have hexported : Asked env d d₂ ∧ d₂.files path = .some [] :=
    eachModel_ok (I := fun _ d' => Asked env d d' ∧ d'.files path = .some []) (fun _ m d₁ d₂ hm ⟨hasked, hfile⟩ hbody => by
      obtain ⟨vars, hplain, hlines⟩ := exportScopedRows_ok hbody
      rw [routedAlias_eq_home (hasked.noTenant hnone), hasked.home] at hplain hlines
      obtain ⟨hflag, hvar⟩ := hplain.of_kept hasked.toKept hquiet
      rw [hasked.databases, scopedRows_hidden hrls hm hflag hvar] at hlines
      refine ⟨hasked.trans ⟨hlines.toKept, hlines.databases⟩, ?_⟩
      rw [hlines.files, Function.update_self, hfile]
      rfl) hopened hscoped
  have hexported' := eachModel_ok (I := fun done d' => Asked env d d' ∧ d'.files path = .some (done.flatMap fun m =>
      (taggedRows (d.databases (home env d.world.contextVars)) (env.keyOf tenant d) m.dbTable).map (⟨m, true, ·⟩)))
    (fun done m d₁ d₂ hm ⟨hasked, hfile⟩ hbody => by
      obtain ⟨vars, hflag, hlines⟩ := exportAdoptedRows_ok hbody
      rw [routedAlias_eq_home (hasked.noTenant hnone), hasked.home] at hflag hlines
      rw [hasked.databases, hasked.keyOf, adoptedRows_shown hrls hm (hflag hpg)] at hlines
      refine ⟨hasked.trans ⟨hlines.toKept, hlines.databases⟩, ?_⟩
      rw [hlines.files, Function.update_self, hfile, List.flatMap_append]
      simp) hexported hadopted
  cases hwrite
  exact hexported'.2

/-- The rows of a table that are left. -/
def untaggedRows (cat : Catalogue δ) (key : δ) (table : String) : List (SqlRow δ) :=
  (cat.contents table).filter fun r => !decide (r "tenant_id" = .some key)

theorem deleteAdoptedRows_under_rls (hnone : d.world.contextVars.currentTenant = .none)
    (hpg : isPostgresql env.settings (home env d.world.contextVars) = true)
    (hrls : ForcedRls env (home env d.world.contextVars) (d.databases (home env d.world.contextVars)))
    (hm : m ∈ expectedAdoptedModels env) (h : deleteAdoptedRows env tenant m d = .ok () d') :
    let cat := d.databases (home env d.world.contextVars)
    Shrunk env (home env d.world.contextVars) d d' ∧
      (d'.databases (home env d.world.contextVars)).contents =
        Function.update cat.contents m.dbTable (untaggedRows cat (env.keyOf tenant d) m.dbTable) := by
  obtain ⟨vars, rows, hflag, herase, hacted⟩ := deleteAdoptedRows_ok h
  rw [routedAlias_eq_home hnone] at hflag herase hacted
  have hshrinks := Sql.Schema.shrinks_of_erase herase
  refine ⟨.of_acted hacted hshrinks, ?_⟩
  rw [hacted.here, contents_withContents hshrinks, Sql.Schema.erase_ok herase]
  refine congrArg (Function.update _ _) (List.filter_congr fun r hr => ?_)
  rw [hrls.shown (mem_registryTables_of_adopted hm) (hflag hpg) hr, Bool.true_and]

/-- Of each table gone over, the tagged rows are deleted. -/
theorem deleteAffected_under_rls (hnone : d.world.contextVars.currentTenant = .none)
    (hpg : isPostgresql env.settings (home env d.world.contextVars) = true)
    (hrls : ForcedRls env (home env d.world.contextVars) (d.databases (home env d.world.contextVars)))
    (hmodels : ∀ m ∈ affected.map Prod.fst, m ∈ expectedAdoptedModels env)
    (h : deleteAffected env tenant affected d = .ok () d') :
    let cat := d.databases (home env d.world.contextVars)
    Shrunk env (home env d.world.contextVars) d d' ∧ ∀ table,
      (d'.databases (home env d.world.contextVars)).contents table =
        if table ∈ (affected.map Prod.fst).map AppModel.dbTable then untaggedRows cat (env.keyOf tenant d) table
        else cat.contents table := by
  rw [deleteAffected_eq] at h
  refine eachModel_ok (I := fun done d' => Shrunk env (home env d.world.contextVars) d d' ∧ ∀ table,
      (d'.databases (home env d.world.contextVars)).contents table =
        if table ∈ done.map AppModel.dbTable then
          untaggedRows (d.databases (home env d.world.contextVars)) (env.keyOf tenant d) table
        else (d.databases (home env d.world.contextVars)).contents table) ?_ ⟨.refl d, fun table => rfl⟩ h
  intro done m d₁ d₂ hm ⟨hshrunk, hcontents⟩ hdelete
  have hadopted : m.dbTable ∈ adoptedTableSet env := List.mem_map_of_mem (hmodels m hm)
  rw [deleteModel, if_pos hadopted] at hdelete
  have hrls₁ := hrls.of_shrunk hshrunk
  rw [← hshrunk.home] at hpg hrls₁
  obtain ⟨hstep, hafter⟩ := deleteAdoptedRows_under_rls (hshrunk.noTenant hnone) hpg hrls₁ (hmodels m hm) hdelete
  rw [hshrunk.home] at hstep hafter
  rw [hshrunk.keyOf] at hafter
  refine ⟨hshrunk.trans hstep, fun table => ?_⟩
  rw [hafter]
  by_cases htable : table = m.dbTable
  · subst htable
    rw [Function.update_self, if_pos (by simp), untaggedRows, hcontents]
    split
    · -- The table was gone over before.
      simp only [untaggedRows, List.filter_filter, Bool.and_self]
    · rfl
  · rw [Function.update_of_ne htable, hcontents]
    simp [htable]

/-- What goes with the tenant is not of a tenant model. -/
theorem deleteTenant_under_rls (hnone : d.world.contextVars.currentTenant = .none)
    (hquiet : Quiet env (home env d.world.contextVars) d)
    (hrls : ForcedRls env (home env d.world.contextVars) (d.databases (home env d.world.contextVars)))
    (h : deleteTenant env tenant d = .ok () d') (htable : table ∈ registryTables env) :
    (d'.databases (home env d.world.contextVars)).contents table =
      (d.databases (home env d.world.contextVars)).contents table := by
  obtain ⟨vars, rows, hplain, hdelete, hacted⟩ := deleteTenant_ok h
  rw [routedAlias_eq_home hnone] at hplain hdelete hacted
  obtain ⟨hflag, hvar⟩ := hplain hquiet
  rw [hacted.here, contents_withContents (Sql.Schema.shrinks_of_delete hdelete)]
  exact Sql.Schema.delete_hidden hdelete fun r _ => hrls.hidden htable hflag hvar r

/-! ## The tenant's rows -/

def tenantRows (env : DeprovisionEnv δ) (cat : Catalogue δ) (key : δ) (table : String) : List (SqlRow δ) :=
  (cat.contents table).filter (isTenants env cat key table)

/-- The counts printed of each table add up to the tenant's rows. -/
def CountsExactly (env : DeprovisionEnv δ) (cat : Catalogue δ) (key : δ) (affected : List (AppModel × Nat)) : Prop :=
  ∀ table ∈ registryTables env,
    ((affected.filter (·.1.dbTable = table)).map Prod.snd).sum = (tenantRows env cat key table).length

/-- The lines exported of each table are the tenant's rows, once each. -/
def ExportsExactly (env : DeprovisionEnv δ) (cat : Catalogue δ) (key : δ) (lines : List (ExportLine δ)) : Prop :=
  ∀ table ∈ registryTables env,
    ((lines.filter (·.model.dbTable = table)).map ExportLine.row).Perm (tenantRows env cat key table)

/-- What is left of each table are the others' rows. -/
def DeletesExactly (env : DeprovisionEnv δ) (cat : Catalogue δ) (key : δ) (cat' : Catalogue δ) : Prop :=
  ∀ table ∈ registryTables env, cat'.contents table = (cat.contents table).filter (!isTenants env cat key table ·)

/-- The tenant has rows in adopted tables only, each of one model. -/
def AdoptedOnly (env : DeprovisionEnv δ) (cat : Catalogue δ) (key : δ) : Prop :=
  ∀ table ∈ registryTables env, tenantRows env cat key table ≠ [] →
    (∀ r ∈ tenantRows env cat key table, r "tenant_id" = .some key) ∧ (adoptedTableSet env).count table = 1

/-- Then the rows of each table that are tagged are the tenant's. -/
theorem AdoptedOnly.isTenants_eq (h : AdoptedOnly env cat key) (htable : table ∈ registryTables env) {r : SqlRow δ}
    (hr : r ∈ cat.contents table) :
    isTenants env cat key table r = (decide (table ∈ adoptedTableSet env) && decide (r "tenant_id" = .some key)) := by
  rw [Bool.eq_iff_iff]
  constructor
  · intro htenants
    have hmem : r ∈ tenantRows env cat key table := List.mem_filter.mpr ⟨hr, htenants⟩
    obtain ⟨htagged, hone⟩ := h table htable (List.ne_nil_of_mem hmem)
    have hadopted : table ∈ adoptedTableSet env := List.count_pos_iff.mp (hone ▸ Nat.one_pos)
    simp [hadopted, htagged r hmem]
  · intro htagged
    rw [Bool.and_eq_true, decide_eq_true_eq, decide_eq_true_eq] at htagged
    exact isTenants_of_tagged htagged.1 htagged.2

theorem AdoptedOnly.tenantRows_eq (h : AdoptedOnly env cat key) (htable : table ∈ registryTables env) :
    tenantRows env cat key table = if table ∈ adoptedTableSet env then taggedRows cat key table else [] := by
  unfold tenantRows taggedRows
  rw [List.filter_congr fun r hr => h.isTenants_eq htable hr]
  split
  · next hadopted => simp [hadopted]
  · next hadopted => simp [hadopted]

/-- A table is exported as often as it is a model's. -/
theorem AdoptedOnly.flatten_eq (h : AdoptedOnly env cat key) (htable : table ∈ registryTables env) :
    (List.replicate ((adoptedTableSet env).count table) (taggedRows cat key table)).flatten =
      tenantRows env cat key table := by
  have hrows := h.tenantRows_eq htable
  by_cases hadopted : table ∈ adoptedTableSet env
  · rw [if_pos hadopted] at hrows
    by_cases hempty : tenantRows env cat key table = []
    · rw [← hrows, hempty]
      exact List.flatten_replicate_nil
    · rw [(h table htable hempty).2, hrows]
      simp
  · rw [hrows, if_neg hadopted, List.count_eq_zero_of_not_mem hadopted]
    rfl

/-- It is counted as often. -/
theorem AdoptedOnly.count_mul (h : AdoptedOnly env cat key) (htable : table ∈ registryTables env) :
    (adoptedTableSet env).count table * (taggedRows cat key table).length = (tenantRows env cat key table).length := by
  rw [← h.flatten_eq htable, List.length_flatten, List.map_replicate, List.sum_replicate_nat]

theorem AdoptedOnly.left_eq (h : AdoptedOnly env cat key) (htable : table ∈ registryTables env) :
    (cat.contents table).filter (!isTenants env cat key table ·) =
      if table ∈ adoptedTableSet env then untaggedRows cat key table else cat.contents table := by
  rw [List.filter_congr fun r hr => congrArg not (h.isTenants_eq htable hr)]
  split
  · next hadopted => simp [hadopted, untaggedRows]
  · next hadopted => simp [hadopted]

/-- A table with nothing to count has nothing to delete. -/
theorem left_of_affected :
    (if table ∈ ((((expectedAdoptedModels env).map fun m => (m, (taggedRows cat key m.dbTable).length)).filter
        (·.2 > 0)).map Prod.fst).map AppModel.dbTable then untaggedRows cat key table else cat.contents table) =
      if table ∈ adoptedTableSet env then untaggedRows cat key table else cat.contents table := by
  by_cases htagged : taggedRows cat key table = []
  · have hall : untaggedRows cat key table = cat.contents table := List.filter_eq_self.mpr fun r hr => by
      have hnot := List.filter_eq_nil_iff.mp htagged r hr
      simpa using hnot
    rw [hall, ite_self, ite_self]
  · refine if_congr ?_ rfl rfl
    simp only [List.mem_map, List.mem_filter, adoptedTableSet]
    constructor
    · rintro ⟨m, ⟨p, ⟨⟨m', hm', rfl⟩, -⟩, rfl⟩, rfl⟩
      exact ⟨m', hm', rfl⟩
    · rintro ⟨m, hm, rfl⟩
      exact ⟨m, ⟨_, ⟨⟨m, hm, rfl⟩, decide_eq_true (List.length_pos_of_ne_nil htagged)⟩, rfl⟩, rfl⟩

/-! ## Models of one table -/

omit [DecidableEq δ] in
theorem sum_counts (count : String → Nat) (models : List AppModel) :
    (((((models.map fun m => (m, count m.dbTable)).filter (·.2 > 0)).filter (·.1.dbTable = table)).map Prod.snd)).sum =
      (models.map AppModel.dbTable).count table * count table := by
  induction models with
  | nil => simp
  | cons m models ih =>
    rw [List.map_cons, List.map_cons, List.filter_cons, List.count_cons, Nat.add_mul, ← ih]
    by_cases htable : m.dbTable = table
    · subst htable
      split
      · simp [Nat.add_comm]
      · next hzero =>
        have hnone : count m.dbTable = 0 := by simpa using hzero
        simp [hnone]
    · split <;> simp [htable]

omit [DecidableEq δ] in
theorem rows_of_lines (rows : String → List (SqlRow δ)) (models : List AppModel) :
    (((models.flatMap fun m => (rows m.dbTable).map (⟨m, true, ·⟩)).filter fun l : ExportLine δ =>
        l.model.dbTable = table).map ExportLine.row) =
      (List.replicate ((models.map AppModel.dbTable).count table) (rows table)).flatten := by
  induction models with
  | nil => rfl
  | cons m models ih =>
    rw [List.flatMap_cons, List.filter_append, List.map_append, ih, List.map_cons, List.count_cons]
    by_cases htable : m.dbTable = table
    · subst htable
      have hall : ((rows m.dbTable).map fun r => (⟨m, true, r⟩ : ExportLine δ)).filter
          (fun l => l.model.dbTable = m.dbTable) = (rows m.dbTable).map (⟨m, true, ·⟩) :=
        List.filter_eq_self.mpr fun l hl => by
          obtain ⟨r, -, rfl⟩ := List.mem_map.mp hl
          exact decide_eq_true rfl
      rw [hall, List.map_map]
      simp [List.replicate_succ, Function.comp_def]
    · have hnone : ((rows m.dbTable).map fun r => (⟨m, true, r⟩ : ExportLine δ)).filter
          (fun l => l.model.dbTable = table) = [] :=
        List.filter_eq_nil_iff.mpr fun l hl => by
          obtain ⟨r, -, rfl⟩ := List.mem_map.mp hl
          simpa using htable
      rw [hnone]
      simp [htable]

/-! ## Exactly, or not -/

theorem adoptedOnly_of_exports
    (h : ExportsExactly env cat key ((expectedAdoptedModels env).flatMap fun m =>
      (taggedRows cat key m.dbTable).map (⟨m, true, ·⟩))) : AdoptedOnly env cat key := by
  intro table htable hsome
  have hperm := h table htable
  rw [rows_of_lines (taggedRows cat key)] at hperm
  have htagged : ∀ r ∈ tenantRows env cat key table, r ∈ taggedRows cat key table ∧ table ∈ adoptedTableSet env := by
    intro r hr
    obtain ⟨rows, hrows, hr⟩ := List.mem_flatten.mp (hperm.mem_iff.mpr hr)
    obtain ⟨hcount, rfl⟩ := List.mem_replicate.mp hrows
    exact ⟨hr, List.count_pos_iff.mp (Nat.pos_of_ne_zero hcount)⟩
  obtain ⟨r₀, hr₀⟩ := List.exists_mem_of_ne_nil _ hsome
  have hadopted := (htagged r₀ hr₀).2
  have hsame : tenantRows env cat key table = taggedRows cat key table := by
    refine List.filter_congr fun r hr => ?_
    rw [Bool.eq_iff_iff, decide_eq_true_eq]
    refine ⟨fun htenants => ?_, isTenants_of_tagged hadopted⟩
    have hrow := (htagged r (List.mem_filter.mpr ⟨hr, htenants⟩)).1
    simpa using (List.mem_filter.mp hrow).2
  have hlength := hperm.length_eq
  rw [hsame, List.length_flatten, List.map_replicate, List.sum_replicate_nat] at hlength
  rw [hsame] at hsome
  refine ⟨fun r hr => ?_, ?_⟩
  · simpa using (List.mem_filter.mp (htagged r hr).1).2
  · exact Nat.eq_of_mul_eq_mul_right (List.length_pos_of_ne_nil hsome) (hlength.trans (Nat.one_mul _).symm)

/-- What a confirmed run leaves of the tenant models' tables. -/
theorem deprovision_under_rls {options : DeprovisionOptions} {databases : Alias → Catalogue δ}
    (hdry : options.dryRun = false) (hyes : options.yes = true)
    (hnone : d.world.contextVars.currentTenant = .none) (hquiet : Quiet env (home env d.world.contextVars) d)
    (hpg : isPostgresql env.settings (home env d.world.contextVars) = true)
    (hhook : env.preDeprovisionHook tenant d.databases = .ok databases)
    (hrls : ForcedRls env (home env d.world.contextVars) (databases (home env d.world.contextVars)))
    (hrun : deprovision env tenant options d = .ok () d') (htable : table ∈ registryTables env) :
    let cat := databases (home env d.world.contextVars)
    (d'.databases (home env d.world.contextVars)).contents table =
      if table ∈ adoptedTableSet env then untaggedRows cat (env.keyOf tenant d) table else cat.contents table := by
  have hquiet' : Quiet env (home env d.world.contextVars) { d with databases } :=
    ⟨hquiet.depth, hquiet.flag, hquiet.tenant⟩
  obtain ⟨affected, d₁, d₂, d₃, d₄, hcollect, hexport, hdelete, htenant, hwrite⟩ := deprovision_ok hyes hdry hhook hrun
  obtain ⟨rfl, hsilent⟩ := collectAffected_under_rls (d := { d with databases }) hnone hquiet' hpg hrls hcollect
  have hstart := hsilent.toAsked.trans (exportIfAsked_asked hexport)
  have hnone₂ := hstart.noTenant hnone
  have hrls₂ : ForcedRls env (home env d₂.world.contextVars) (d₂.databases (home env d₂.world.contextVars)) := by
    rw [hstart.home, hstart.databases]
    exact hrls
  obtain ⟨hdeleted, hcontents⟩ := deleteAffected_under_rls hnone₂ (hstart.home ▸ hpg) hrls₂
    (fun m hm => by
      obtain ⟨p, hp, rfl⟩ := List.mem_map.mp hm
      obtain ⟨m', hm', rfl⟩ := List.mem_map.mp (List.mem_filter.mp hp).1
      exact hm') hdelete
  have hlast := deleteTenant_under_rls (hdeleted.noTenant hnone₂)
    (by rw [hdeleted.home, hstart.home]; exact hdeleted.quiet _ (hstart.quiet _ hquiet'))
    (by rw [hdeleted.home]; exact hrls₂.of_shrunk hdeleted) htenant htable
  rw [hdeleted.home, hstart.home] at hlast
  rw [hstart.home, hstart.databases, hstart.keyOf] at hcontents
  cases hwrite
  exact hlast.trans ((hcontents table).trans left_of_affected)

/-- The counts of a dry run, the export and what a confirmed run deletes each
cover the tenant's rows of every tenant model's table, once each, exactly when
all of them are tagged rows of tables that are one adopted model's. -/
theorem deprovision_covers_iff {options : DeprovisionOptions} {path : String} {databases : Alias → Catalogue δ}
    {d₁ d₂ : Deployment δ} (hdry : options.dryRun = true)
    (hnone : d.world.contextVars.currentTenant = .none) (hquiet : Quiet env (home env d.world.contextVars) d)
    (hpg : isPostgresql env.settings (home env d.world.contextVars) = true)
    (hhook : env.preDeprovisionHook tenant d.databases = .ok databases)
    (hrls : ForcedRls env (home env d.world.contextVars) (databases (home env d.world.contextVars)))
    (hdryRun : deprovision env tenant options d = .ok () d₁)
    (hexport : exportData env tenant path { d with databases } = .ok () d₂) :
    let cat := databases (home env d.world.contextVars)
    let key := env.keyOf tenant d
    (∃ affected, d₁.output = d.output ++ ("[DRY RUN] Would delete tenant: " ++ env.str (d.world.tenants tenant)) ::
          affected.map (countLine env) ∧ CountsExactly env cat key affected) ∧
        (∃ lines, d₂.files path = .some lines ∧ ExportsExactly env cat key lines) ∧
        (∀ d₃, deprovision env tenant { options with dryRun := false, yes := true } d = .ok () d₃ →
          DeletesExactly env cat key (d₃.databases (home env d.world.contextVars))) ↔
      AdoptedOnly env cat key := by
  have hquiet' : Quiet env (home env d.world.contextVars) { d with databases } :=
    ⟨hquiet.depth, hquiet.flag, hquiet.tenant⟩
  obtain ⟨affected, d₀, hcollect, houtput⟩ := deprovision_dryRun_ok hdry hnone hhook hdryRun
  obtain ⟨rfl, -⟩ := collectAffected_under_rls (d := { d with databases }) hnone hquiet' hpg hrls hcollect
  have hlines := exportData_under_rls (d := { d with databases }) hnone hquiet' hpg hrls hexport
  constructor
  · rintro ⟨-, ⟨lines, hfile, hexports⟩, -⟩
    rw [hlines] at hfile
    cases hfile
    exact adoptedOnly_of_exports hexports
  · intro honly
    refine ⟨⟨_, houtput, fun table htable => ?_⟩, ⟨_, hlines, fun table htable => ?_⟩, fun d₃ hrun table htable => ?_⟩
    · rw [sum_counts fun name => (taggedRows _ _ name).length]
      exact honly.count_mul htable
    · rw [rows_of_lines (taggedRows _ _)]
      exact .of_eq (honly.flatten_eq htable)
    · rw [deprovision_under_rls rfl rfl hnone hquiet hpg hhook hrls hrun htable]
      exact (honly.left_eq htable).symm

/-! ## A shop with invoices and notes -/

def noteModel : AppModel := { appLabel := "notes", name := "Note", dbTable := "notes_note" }

/-- A role that row security restricts. -/
def restrictedRole : SqlSession Nat := { superuser with bypassRls := false, owner := true }

/-- Invoices are tenant-scoped, notes are adopted. -/
def rlsShop : DeprovisionEnv Nat :=
  { deprovisionShop restrictedRole [shopModel "Invoice" "shop_invoice", noteModel]
      [{ source := "shop_invoice", column := "tenant_id", target := "shop_tenant", key := "id" }] with
    tenantApps := ["notes"]
    apps := ⟨fun app => if app = "notes" then .some [noteModel] else .none⟩ }

def ownedRow (id tenant : Nat) : SqlRow Nat := rowOf [("id", id), ("tenant_id", tenant)]

/-- Their tables, each with the two policies. -/
def rlsTables (invoices notes : List (SqlRow Nat)) : Catalogue Nat where
  tables name :=
    if name = "shop_tenant" then .some { columns := [], rows := [rowOf [("id", 7)]] }
    else if name = "shop_invoice" then
      .some { columns := [⟨"tenant_id", "bigint", false, .none⟩], rows := invoices
              rowSecurity := true, forceRowSecurity := true }
    else if name = "notes_note" then
      .some { columns := [⟨"tenant_id", "bigint", false, .none⟩], rows := notes
              rowSecurity := true, forceRowSecurity := true }
    else .none
  policies := [tenantIsolation "shop_invoice" "tenant_id", adminBypassPolicy "app.boundary_admin" "shop_invoice",
    tenantIsolation "notes_note" "tenant_id", adminBypassPolicy "app.boundary_admin" "notes_note"]
  helper := .some ⟨"bigint", "app.current_tenant_id", false⟩
  constraints := []
  names := List.nodup_nil

def rlsDeployment (invoices notes : List (SqlRow Nat)) : Deployment Nat := deploymentOf (rlsTables invoices notes)

theorem rls_forced (invoices notes : List (SqlRow Nat)) : ForcedRls rlsShop "default" (rlsTables invoices notes) := by
  refine ⟨fun table htable => ?_, fun helper hhelper => ?_, rfl⟩
  · have htables : registryTables rlsShop = ["shop_invoice", "notes_note"] := by decide +kernel
    rw [htables] at htable
    have hpolicies : ∀ table ∈ ["shop_invoice", "notes_note"], (rlsTables invoices notes).policiesOf table =
        [tenantIsolation table "tenant_id", adminBypassPolicy "app.boundary_admin" table] := by
      intro table htable
      rcases List.mem_pair.mp htable with rfl | rfl <;> rfl
    refine ⟨fun t ht => ?_, ?_, "tenant_id", ?_⟩
    · rcases List.mem_pair.mp htable with rfl | rfl <;> cases ht <;> exact ⟨rfl, rfl⟩
    · rw [hpolicies table htable]
      exact List.mem_pair.mpr (.inr rfl)
    · rw [hpolicies table htable]
      exact fun p hp => List.mem_pair.mp hp
  · cases hhelper
    rfl

theorem rls_quiet (invoices notes : List (SqlRow Nat)) : Quiet rlsShop "default" (rlsDeployment invoices notes) :=
  ⟨rfl, fun _ => (by decide : ("" : String) ≠ "true"), fun _ => rfl⟩

/-- One note of the tenant's and one of another's: each phase covers the first. -/
theorem notes_covered : ∃ d₁ d₂,
    deprovision rlsShop 0 { tenant := "7", dryRun := true } (rlsDeployment [] [ownedRow 1 7, ownedRow 2 8]) = .ok () d₁ ∧
      exportData rlsShop 0 "out" (rlsDeployment [] [ownedRow 1 7, ownedRow 2 8]) = .ok () d₂ ∧
      ∃ lines, d₂.files "out" = .some lines ∧
        ExportsExactly rlsShop (rlsTables [] [ownedRow 1 7, ownedRow 2 8]) 7 lines := by
  obtain ⟨d₁, hdryRun⟩ : ∃ d₁, deprovision rlsShop 0 { tenant := "7", dryRun := true }
      (rlsDeployment [] [ownedRow 1 7, ownedRow 2 8]) = .ok () d₁ := exists_of_isOk (by decide +kernel)
  obtain ⟨d₂, hexport⟩ : ∃ d₂, exportData rlsShop 0 "out" (rlsDeployment [] [ownedRow 1 7, ownedRow 2 8]) = .ok () d₂ :=
    exists_of_isOk (by decide +kernel)
  have hiff := deprovision_covers_iff rfl rfl (rls_quiet _ _) rfl rfl (rls_forced _ _) hdryRun hexport
  refine ⟨d₁, d₂, hdryRun, hexport, (hiff.mpr fun table htable hsome => ?_).2.1⟩
  have htables : registryTables rlsShop = ["shop_invoice", "notes_note"] := by decide +kernel
  rw [htables] at htable
  rcases List.mem_pair.mp htable with rfl | rfl
  · exact absurd rfl hsome
  · have hrows : tenantRows rlsShop (rlsTables [] [ownedRow 1 7, ownedRow 2 8]) 7 "notes_note" = [ownedRow 1 7] := rfl
    refine ⟨fun r hr => ?_, by decide +kernel⟩
    obtain rfl := List.mem_singleton.mp (hrows ▸ hr)
    rfl

/-- One invoice of the tenant's, tenant-scoped: it is not counted and not exported. -/
theorem invoice_not_covered : ∃ d₁ d₂, ForcedRls rlsShop "default" (rlsTables [ownedRow 1 7] []) ∧
    Quiet rlsShop "default" (rlsDeployment [ownedRow 1 7] []) ∧
    deprovision rlsShop 0 { tenant := "7", dryRun := true } (rlsDeployment [ownedRow 1 7] []) = .ok () d₁ ∧
    d₁.output = ["[DRY RUN] Would delete tenant: 7"] ∧
    exportData rlsShop 0 "out" (rlsDeployment [ownedRow 1 7] []) = .ok () d₂ ∧
    ¬ ∃ lines, d₂.files "out" = .some lines ∧ ExportsExactly rlsShop (rlsTables [ownedRow 1 7] []) 7 lines := by
  obtain ⟨d₁, hdryRun⟩ : ∃ d₁, deprovision rlsShop 0 { tenant := "7", dryRun := true }
      (rlsDeployment [ownedRow 1 7] []) = .ok () d₁ := exists_of_isOk (by decide +kernel)
  have houtput : d₁.output = ["[DRY RUN] Would delete tenant: 7"] := by
    rw [← after_of_ok hdryRun]
    decide +kernel
  obtain ⟨d₂, hexport⟩ : ∃ d₂, exportData rlsShop 0 "out" (rlsDeployment [ownedRow 1 7] []) = .ok () d₂ :=
    exists_of_isOk (by decide +kernel)
  refine ⟨d₁, d₂, rls_forced _ _, rls_quiet _ _, hdryRun, houtput, hexport, ?_⟩
  rintro ⟨lines, hfile, hexports⟩
  rw [exportData_under_rls rfl (rls_quiet _ _) rfl (rls_forced _ _) hexport] at hfile
  cases hfile
  have honly := adoptedOnly_of_exports hexports
  have hrows : tenantRows rlsShop (rlsTables [ownedRow 1 7] []) 7 "shop_invoice" = [ownedRow 1 7] := rfl
  have hone := (honly "shop_invoice" (by decide +kernel) (by rw [hrows]; exact List.cons_ne_nil _ _)).2
  exact absurd hone (by decide +kernel)

end Boundary
