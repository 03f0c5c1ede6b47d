/-
How far the deletions of `boundary_deprovision` reach, run by run: a step that
raises has changed no database, and the steps that went before it stay done; and
whatever comes of the run, what is gone is the tenant's or goes with what is the
tenant's over references that cascade, and what is changed refers to such a row.
-/
import Boundary.DeprovisionFacts
import Boundary.Models

namespace Boundary

open Exec

variable {δ : Type} [DecidableEq δ] {env : DeprovisionEnv δ} {a : Alias} {d d' : Deployment δ} {tenant : TenantRef}
  {key : δ} {m : AppModel} {affected : List (AppModel × Nat)} {e : Exc} {cat : Catalogue δ}

/-! ## A step that raises -/

theorem queryScoped_error (h : queryScoped env tenant m d = .error e d') : d'.databases = d.databases := by
  rw [queryScoped, tenantKey_bind, routed_bind] at h
  exact onDatabase_error h

theorem queryAdopted_error (h : queryAdopted env tenant m a d = .error e d') : d'.databases = d.databases := by
  rw [queryAdopted, tenantKey_bind] at h
  exact onDatabase_error h

theorem countScopedRows_error (h : countScopedRows env tenant m d = .error e d') : d'.databases = d.databases := by
  rcases bind_error_iff.mp h with hquery | ⟨_, _, -, hpure⟩
  · exact queryScoped_error hquery
  · cases hpure

theorem countAdoptedRows_error (h : countAdoptedRows env tenant m d = .error e d') : d'.databases = d.databases := by
  rcases bind_error_iff.mp h with hroute | ⟨_, _, hroute, hquery⟩
  · cases hroute
  cases hroute
  rcases bind_error_iff.mp hquery with hbypass | ⟨_, _, -, hpure⟩
  · exact withAdminBypass_error hbypass fun _ _ _ => queryAdopted_error
  · cases hpure

theorem exportScopedRows_error {path : String} (h : exportScopedRows env tenant path m d = .error e d') :
    d'.databases = d.databases := by
  rcases bind_error_iff.mp h with hquery | ⟨_, _, -, happend⟩
  · exact queryScoped_error hquery
  · cases happend

theorem exportAdoptedRows_error {path : String} (h : exportAdoptedRows env tenant path m d = .error e d') :
    d'.databases = d.databases := by
  unfold exportAdoptedRows at h
  rcases bind_error_iff.mp h with hroute | ⟨_, _, hroute, hquery⟩
  · cases hroute
  cases hroute
  rcases bind_error_iff.mp hquery with hbypass | ⟨_, _, -, happend⟩
  · refine withAdminBypass_error hbypass fun d₁ e d₂ hrun => ?_
    split at hrun
    · cases hrun
      rfl
    · exact queryAdopted_error hrun
  · cases happend

theorem deleteModel_error (h : deleteModel env tenant m d = .error e d') : d'.databases = d.databases := by
  unfold deleteModel at h
  split at h
  · rw [deleteAdoptedRows, tenantKey_bind, routed_bind, inTransaction_bind] at h
    exact withAdminBypass_error h fun _ _ _ => onDatabase_error
  · rw [deleteScopedRows, tenantKey_bind, routed_bind, inTransaction_bind] at h
    exact onDatabase_error h

theorem deleteTenant_error (h : deleteTenant env tenant d = .error e d') : d'.databases = d.databases := by
  rw [deleteTenant, tenantKey_bind, routed_bind, inTransaction_bind] at h
  exact onDatabase_error h

/-! ## Loops -/

omit [DecidableEq δ] in
theorem collectCounts_triple {count : AppModel → Commanding δ Nat} {I J : Deployment δ → Prop} {models : List AppModel}
    (hstep : ∀ m ∈ models, Triple I (count m) (fun _ => I) J) :
    Triple I (collectCounts count models) (fun _ => I) J := by
  induction models with
  | nil => exact .pure _
  | cons m models ih =>
    exact (hstep m List.mem_cons_self).bind fun n =>
      (ih fun m hm => hstep m (List.mem_cons_of_mem _ hm)).bind fun rest => .pure _

omit [DecidableEq δ] in
theorem eachModel_triple {body : AppModel → Commanding δ Unit} {I J : Deployment δ → Prop} {models : List AppModel}
    (hstep : ∀ m ∈ models, Triple I (body m) (fun _ => I) J) : Triple I (eachModel body models) (fun _ => I) J := by
  induction models with
  | nil => exact .pure _
  | cons m models ih =>
    exact (hstep m List.mem_cons_self).bind fun _ => ih fun m hm => hstep m (List.mem_cons_of_mem _ hm)

omit [DecidableEq δ] in
/-- A loop that raises has gone over some of the models, and raised in the next. -/
theorem eachModel_error {body : AppModel → Commanding δ Unit} {models : List AppModel}
    (h : eachModel body models d = .error e d') :
    ∃ done m rest d₁, models = done ++ m :: rest ∧ eachModel body done d = .ok () d₁ ∧ body m d₁ = .error e d' := by
  induction models generalizing d with
  | nil => cases h
  | cons m models ih =>
    rcases bind_error_iff.mp h with hbody | ⟨_, d₁, hbody, hrest⟩
    · exact ⟨[], m, models, d, rfl, rfl, hbody⟩
    · obtain ⟨done, m', rest, d₂, rfl, hdone, hraise⟩ := ih hrest
      exact ⟨m :: done, m', rest, d₂, rfl, bind_ok_iff.mpr ⟨(), d₁, hbody, hdone⟩, hraise⟩

theorem collectAffected_error (h : collectAffected env tenant d = .error e d') : d'.databases = d.databases := by
  have hcount : ∀ count ∈ [countScopedRows env tenant, countAdoptedRows env tenant], ∀ m,
      Triple (Silent env d) (count m) (fun _ => Silent env d) (fun d' => d'.databases = d.databases) := by
    intro count hcount m d₁ hsilent
    rcases List.mem_pair.mp hcount with rfl | rfl
    · refine ⟨fun n d₂ hok => ?_, fun e d₂ herror => (countScopedRows_error herror).trans hsilent.databases⟩
      obtain ⟨_, -, -, hacted⟩ := countScopedRows_ok hok
      exact hsilent.trans hacted.silent
    · refine ⟨fun n d₂ hok => ?_, fun e d₂ herror => (countAdoptedRows_error herror).trans hsilent.databases⟩
      obtain ⟨_, -, -, hacted⟩ := countAdoptedRows_ok hok
      exact hsilent.trans hacted.silent
  have hcollect : Triple (Silent env d) (collectAffected env tenant) (fun _ => Silent env d)
      (fun d' => d'.databases = d.databases) :=
    (collectCounts_triple fun m _ => hcount _ List.mem_cons_self m).bind fun _ =>
      (collectCounts_triple fun m _ => hcount _ (List.mem_cons_of_mem _ List.mem_cons_self) m).bind fun _ => .pure _
  exact (hcollect d (.refl d)).2 e d' h

theorem exportIfAsked_error {options : DeprovisionOptions} (h : exportIfAsked env tenant options d = .error e d') :
    d'.databases = d.databases := by
  have hloop : ∀ (path : String), ∀ body ∈ [exportScopedRows env tenant path, exportAdoptedRows env tenant path], ∀ m,
      Triple (Asked env d) (body m) (fun _ => Asked env d) (fun d' => d'.databases = d.databases) := by
    intro path body hbody m d₁ hasked
    rcases List.mem_pair.mp hbody with rfl | rfl
    · refine ⟨fun _ d₂ hok => ?_, fun e d₂ herror => (exportScopedRows_error herror).trans hasked.databases⟩
      obtain ⟨_, -, hlines⟩ := exportScopedRows_ok hok
      exact hasked.trans ⟨hlines.toKept, hlines.databases⟩
    · refine ⟨fun _ d₂ hok => ?_, fun e d₂ herror => (exportAdoptedRows_error herror).trans hasked.databases⟩
      obtain ⟨_, -, hlines⟩ := exportAdoptedRows_ok hok
      exact hasked.trans ⟨hlines.toKept, hlines.databases⟩
  have hexport : ∀ path, Triple (Asked env d) (exportData env tenant path) (fun _ => Asked env d)
      (fun d' => d'.databases = d.databases) := fun path => by
    have hopen : Triple (Asked env d) (openFile path) (fun _ => Asked env d) (fun d' => d'.databases = d.databases) :=
      fun d₁ hasked => by
        refine ⟨fun _ d₂ hok => ?_, fun _ _ herror => ?_⟩
        · cases hok
          exact hasked.trans ⟨.of_world rfl, rfl⟩
        · cases herror
    refine hopen.bind fun _ => (eachModel_triple fun m _ => hloop path _ List.mem_cons_self m).bind fun _ =>
      (eachModel_triple fun m _ => hloop path _ (List.mem_cons_of_mem _ List.mem_cons_self) m).bind fun _ =>
        fun d₁ hasked => ⟨fun _ d₂ hok => hasked.trans (.of_written hok), fun _ _ herror => ?_⟩
    cases herror
  unfold exportIfAsked at h
  cases hpath : options.exportTo with
  | none =>
    rw [hpath] at h
    cases h
  | some path =>
    simp only [hpath] at h
    split at h
    · cases h
    · exact (hexport path d (.refl d)).2 e d' h

/-! ## What the deletions spare -/

/-- The lookups by which a row of the table is the tenant's. -/
def tenantLookups (env : DeprovisionEnv δ) (table : String) (lookup : TenantLookup) : Prop :=
  (∃ m ∈ scopedModels env, m.dbTable = table ∧ env.lookup m = lookup) ∨
    table ∈ adoptedTableSet env ∧ lookup = .column "tenant_id"

/-- Those of what is to go with the tenant: its rows, and its own. -/
def goesWithTenant (env : DeprovisionEnv δ) (table : String) (lookup : TenantLookup) : Prop :=
  tenantLookups env table lookup ∨ table = env.tenantTable ∧ lookup = .column (env.schema.primaryKey env.tenantTable)

section

variable {starts : String → TenantLookup → Prop} {databases : Alias → Catalogue δ} {rows₀ : Sql.Contents String String δ}

theorem deleteModel_spares (hstarts : ∀ table lookup, tenantLookups env table lookup → starts table lookup)
    (hm : m ∈ scopedModels env ∨ m ∈ expectedAdoptedModels env)
    (hspares : env.schema.Spares rows₀ starts (env.keyOf tenant d)
      (d.databases (routedAlias env m.isTenantModel d.world)).contents)
    (h : deleteModel env tenant m d = .ok () d') :
    env.schema.Spares rows₀ starts (env.keyOf tenant d)
      (d'.databases (routedAlias env m.isTenantModel d.world)).contents := by
  unfold deleteModel at h
  split at h
  · next hadopted =>
    obtain ⟨vars, rows, -, herase, hacted⟩ := deleteAdoptedRows_ok h
    rw [hacted.here, contents_withContents (Sql.Schema.shrinks_of_erase herase)]
    refine hspares.erase (fun r' hr' htagged => ?_) herase
    simp only [Bool.and_eq_true, decide_eq_true_eq] at htagged
    obtain ⟨r, hr, hbecomes⟩ := hspares.descends _ r' hr'
    have hholds := hbecomes "tenant_id"
    rw [htagged.2] at hholds
    exact ⟨r, hr, hbecomes, .start (hstarts _ _ (.inr ⟨hadopted, rfl⟩)) hr (.column hholds)⟩
  · next hnot =>
    obtain ⟨vars, rows, -, hdelete, hacted⟩ := deleteScopedRows_ok h
    rw [hacted.here, contents_withContents (Sql.Schema.shrinks_of_delete hdelete)]
    refine hspares.delete (fun p hp => ?_) hdelete
    obtain ⟨r', hr', rfl⟩ := List.mem_map.mp hp
    obtain ⟨hseen, hcount⟩ := mem_scopedRows_iff.mp hr'
    obtain ⟨r, hr, hbecomes⟩ := hspares.descends _ r' (mem_contents_of_seen hseen)
    have hm : m ∈ scopedModels env := hm.resolve_right fun hadopted => hnot (List.mem_map_of_mem hadopted)
    exact ⟨r, hr, hbecomes, .start (hstarts _ _ (.inl ⟨m, hm, rfl, rfl⟩)) hr
      (hspares.leads (fun t r' hr' => mem_contents_of_seen hr') _ hbecomes hcount)⟩

theorem deleteTenant_spares (hstarts : starts env.tenantTable (.column (env.schema.primaryKey env.tenantTable)))
    (hspares : env.schema.Spares rows₀ starts (env.keyOf tenant d) (d.databases (routedAlias env false d.world)).contents)
    (h : deleteTenant env tenant d = .ok () d') :
    env.schema.Spares rows₀ starts (env.keyOf tenant d) (d'.databases (routedAlias env false d.world)).contents := by
  obtain ⟨vars, rows, -, hdelete, hacted⟩ := deleteTenant_ok h
  rw [hacted.here, contents_withContents (Sql.Schema.shrinks_of_delete hdelete)]
  refine hspares.delete (fun p hp => ?_) hdelete
  obtain ⟨r', hr', rfl⟩ := List.mem_map.mp hp
  obtain ⟨hr', htenant⟩ := List.mem_filter.mp hr'
  obtain ⟨r, hr, hbecomes⟩ := hspares.descends _ r' hr'
  have hholds := hbecomes (env.schema.primaryKey env.tenantTable)
  rw [decide_eq_true_eq.mp htenant] at hholds
  exact ⟨r, hr, hbecomes, .start hstarts hr (.column hholds)⟩

/-- The databases that models are routed to were worked on, and on each what does
not go was spared. -/
structure Within (env : DeprovisionEnv δ) (w : World) (databases : Alias → Catalogue δ)
    (starts : String → TenantLookup → Prop) (key : δ) (databases' : Alias → Catalogue δ) : Prop where
  elsewhere : ∀ a, (∀ b, routedAlias env b w ≠ a) → databases' a = databases a
  spares : ∀ a, env.schema.Spares (databases a).contents starts key (databases' a).contents

/-- `Within`, of what a run has made of `databases`. -/
def WithinRun (env : DeprovisionEnv δ) (tenant : TenantRef) (databases : Alias → Catalogue δ)
    (starts : String → TenantLookup → Prop) (d d' : Deployment δ) : Prop :=
  Within env d.world databases starts (env.keyOf tenant d) d'.databases

/-- A run under way: it has kept the context it started in. -/
structure UnderWay (env : DeprovisionEnv δ) (tenant : TenantRef) (databases : Alias → Catalogue δ)
    (starts : String → TenantLookup → Prop) (d d' : Deployment δ) : Prop extends Kept env d d' where
  within : WithinRun env tenant databases starts d d'

theorem UnderWay.start (tenant : TenantRef) (d : Deployment δ) :
    UnderWay env tenant databases starts d { d with databases } :=
  ⟨.of_world rfl, fun _ _ => rfl, fun _ => .refl _⟩

theorem UnderWay.of_databases (h : UnderWay env tenant databases starts d d') {d'' : Deployment δ}
    (hsame : d''.databases = d'.databases) : WithinRun env tenant databases starts d d'' := by
  unfold WithinRun
  rw [hsame]
  exact h.within

theorem UnderWay.asked (h : UnderWay env tenant databases starts d d') {d'' : Deployment δ} (hasked : Asked env d' d'') :
    UnderWay env tenant databases starts d d'' :=
  ⟨h.toKept.trans hasked.toKept, h.of_databases hasked.databases⟩

/-- A deletion keeps the run within what it spares. -/
theorem UnderWay.deleted (h : UnderWay env tenant databases starts d d') {d'' : Deployment δ} {b : Bool}
    (hshrunk : Shrunk env (routedAlias env b d'.world) d' d'')
    (hspares : ∀ {rows₀}, env.schema.Spares rows₀ starts (env.keyOf tenant d')
        (d'.databases (routedAlias env b d'.world)).contents →
      env.schema.Spares rows₀ starts (env.keyOf tenant d') (d''.databases (routedAlias env b d'.world)).contents) :
    UnderWay env tenant databases starts d d'' := by
  rw [h.routedAlias] at hshrunk hspares
  rw [h.keyOf] at hspares
  refine ⟨h.toKept.trans hshrunk.toKept, fun a ha => ?_, fun a => ?_⟩
  · exact (hshrunk.elsewhere (ha b).symm).trans (h.within.elsewhere a ha)
  · by_cases ha : a = routedAlias env b d.world
    · rw [ha]
      exact hspares (h.within.spares _)
    · rw [hshrunk.elsewhere ha]
      exact h.within.spares a

theorem deleteModel_triple (hstarts : ∀ table lookup, tenantLookups env table lookup → starts table lookup)
    (hm : m ∈ scopedModels env ∨ m ∈ expectedAdoptedModels env) :
    Triple (UnderWay env tenant databases starts d) (deleteModel env tenant m)
      (fun _ => UnderWay env tenant databases starts d) (WithinRun env tenant databases starts d) := fun _ hrun =>
  ⟨fun _ _ hok => hrun.deleted (deleteModel_shrunk hok) fun hspares => deleteModel_spares hstarts hm hspares hok,
    fun _ _ herror => hrun.of_databases (deleteModel_error herror)⟩

theorem deleteTenant_triple (hstarts : starts env.tenantTable (.column (env.schema.primaryKey env.tenantTable))) :
    Triple (UnderWay env tenant databases starts d) (deleteTenant env tenant)
      (fun _ => UnderWay env tenant databases starts d) (WithinRun env tenant databases starts d) := fun _ hrun =>
  ⟨fun _ _ hok => hrun.deleted (deleteTenant_shrunk hok) fun hspares => deleteTenant_spares hstarts hspares hok,
    fun _ _ herror => hrun.of_databases (deleteTenant_error herror)⟩

end

theorem deprovision_eq {options : DeprovisionOptions} (hdry : options.dryRun = false) (hyes : options.yes = true) :
    deprovision env tenant options = (runHook env tenant >>= fun _ => collectAffected env tenant >>= fun affected =>
      exportThenDelete env tenant options affected) := by
  unfold deprovision
  simp [hdry, hyes]

/-- Whatever comes of a confirmed run. -/
theorem deprovision_within {options : DeprovisionOptions} {databases : Alias → Catalogue δ}
    (hdry : options.dryRun = false) (hyes : options.yes = true)
    (hhook : env.preDeprovisionHook tenant d.databases = .ok databases) :
    WithinRun env tenant databases (goesWithTenant env) d (after (deprovision env tenant options) d) := by
  rw [deprovision_eq hdry hyes, after_bind, runHook, hhook]
  simp only
  have hcollect : Triple (UnderWay env tenant databases (goesWithTenant env) d) (collectAffected env tenant)
      (fun affected d' => UnderWay env tenant databases (goesWithTenant env) d d' ∧
        ∀ m ∈ affected.map Prod.fst, m ∈ scopedModels env ∨ m ∈ expectedAdoptedModels env)
      (WithinRun env tenant databases (goesWithTenant env) d) := by
    intro d₁ hrun
    refine ⟨fun affected d₂ hok => ?_, fun e d₂ herror => hrun.of_databases (collectAffected_error herror)⟩
    obtain ⟨hsilent, hmodels⟩ := collectAffected_models hok
    exact ⟨hrun.asked hsilent.toAsked, hmodels⟩
  have hexport : Triple (UnderWay env tenant databases (goesWithTenant env) d) (exportIfAsked env tenant options)
      (fun _ => UnderWay env tenant databases (goesWithTenant env) d)
      (WithinRun env tenant databases (goesWithTenant env) d) := fun d₁ hrun =>
    ⟨fun _ d₂ hok => hrun.asked (exportIfAsked_asked hok),
      fun e d₂ herror => hrun.of_databases (exportIfAsked_error herror)⟩
  suffices hrest : ∀ affected : List (AppModel × Nat), Triple
      (fun d' => UnderWay env tenant databases (goesWithTenant env) d d' ∧
        ∀ m ∈ affected.map Prod.fst, m ∈ scopedModels env ∨ m ∈ expectedAdoptedModels env)
      (exportThenDelete env tenant options affected)
      (fun _ => WithinRun env tenant databases (goesWithTenant env) d)
      (WithinRun env tenant databases (goesWithTenant env) d) from
    (hcollect.bind hrest).after (fun _ _ h => h) (.start tenant d)
  rintro affected d₁ ⟨hrun, hmodels⟩
  unfold exportThenDelete
  rw [deleteAffected_eq]
  refine (hexport.bind fun _ => (eachModel_triple fun m hm =>
    deleteModel_triple (fun _ _ h => .inl h) (hmodels m hm)).bind fun _ =>
      (deleteTenant_triple (.inr ⟨rfl, rfl⟩)).bind fun _ d₂ hrun =>
        ⟨fun _ d₃ hok => ?_, fun _ _ herror => ?_⟩) d₁ hrun
  · cases hok
    exact hrun.within
  · cases herror

/-! ## Whatever comes of the run -/

/-- On every database, nothing is created; and a row is left, as it was but for
columns that are set because they refer to a row that goes, unless it goes with
the tenant: unless it is the tenant's, or a chain of references that cascade leads
from it to a row of the tenant's, as rows are or as columns that are set leave
them. And a database to which no model is routed is left as it is. -/
theorem deprovision_reaches_only {options : DeprovisionOptions} {databases : Alias → Catalogue δ}
    (hdry : options.dryRun = false) (hyes : options.yes = true)
    (hhook : env.preDeprovisionHook tenant d.databases = .ok databases) (a : Alias) :
    let rows := (databases a).contents
    let key := env.keyOf tenant d
    let starts := goesWithTenant env
    let left := (after (deprovision env tenant options) d).databases a
    ((∀ b, routedAlias env b d.world ≠ a) → left = databases a) ∧
      (∀ t, ∀ r' ∈ left.contents t, ∃ r ∈ rows t, env.schema.Becomes rows starts key t r r') ∧
      ∀ t, ∀ r ∈ rows t, ¬ env.schema.Reached rows starts key t r →
        (∃ r' ∈ left.contents t, env.schema.Becomes rows starts key t r r') ∧
          ((∀ c v, env.schema.Holds rows starts key t r c v → v = r c) → r ∈ left.contents t) := by
  have hwithin : WithinRun env tenant databases (goesWithTenant env) d (after (deprovision env tenant options) d) :=
    deprovision_within hdry hyes hhook
  refine ⟨hwithin.elsewhere a, (hwithin.spares a).descends, fun t r hr hnot => ?_⟩
  obtain ⟨r', hr', hbecomes⟩ := (hwithin.spares a).spared t r hr hnot
  refine ⟨⟨r', hr', hbecomes⟩, fun hkept => ?_⟩
  have hsame : r' = r := funext fun c => hkept c _ (hbecomes c)
  exact hsame ▸ hr'

/-- How far a run got that raised: in `d₁` it had deleted nothing yet, in `d₂`
the rows of the models `done`. -/
structure Stopped (env : DeprovisionEnv δ) (tenant : TenantRef) (databases : Alias → Catalogue δ) (d : Deployment δ)
    (e : Exc) (d' : Deployment δ) (done : List AppModel) (d₁ d₂ : Deployment δ) : Prop where
  started : Asked env { d with databases } d₁
  deleted : eachModel (deleteModel env tenant) done d₁ = .ok () d₂
  /-- What was deleted was committed. -/
  committed : ∀ b, (d₂.world.connections (routedAlias env b d.world)).inAtomicBlock = false
  raised : done = [] ∨ (∃ m, deleteModel env tenant m d₂ = .error e d') ∨ deleteTenant env tenant d₂ = .error e d'
  unchanged : d'.databases = d₂.databases
  first : done = [] → d'.databases = databases
  tenantRow : ∀ a, ∀ r ∈ (databases a).contents env.tenantTable,
    ¬ env.schema.Reached (databases a).contents (tenantLookups env) (env.keyOf tenant d) env.tenantTable r →
    ∃ r' ∈ (d'.databases a).contents env.tenantTable,
      env.schema.Becomes (databases a).contents (tenantLookups env) (env.keyOf tenant d) env.tenantTable r r' ∧
        (env.schema.KeepsKeys → r' (env.schema.primaryKey env.tenantTable) = r (env.schema.primaryKey env.tenantTable))

/-- A run that raises has changed no more than the deletions before the one that
raised, each of which was committed by itself: nothing, if it was the first. The
tenant's own row is left, unless it goes with rows of the tenant's. -/
theorem deprovision_raises {options : DeprovisionOptions} {databases : Alias → Catalogue δ}
    (hdry : options.dryRun = false) (hyes : options.yes = true)
    (hauto : ∀ b, (d.world.connections (routedAlias env b d.world)).inAtomicBlock = false)
    (hhook : env.preDeprovisionHook tenant d.databases = .ok databases)
    (h : deprovision env tenant options d = .error e d') :
    ∃ done d₁ d₂, Stopped env tenant databases d e d' done d₁ d₂ := by
  rw [deprovision_eq hdry hyes] at h
  rcases bind_error_iff.mp h with hran | ⟨_, d₀, hran, h⟩
  · rw [runHook, hhook] at hran
    cases hran
  rw [runHook, hhook] at hran
  cases hran
  -- Before the first deletion nothing is changed.
  have hbefore : d'.databases = databases → ∃ done d₁ d₂, Stopped env tenant databases d e d' done d₁ d₂ := fun hsame =>
    ⟨[], { d with databases }, { d with databases }, .refl _, rfl, hauto, .inl rfl, hsame, fun _ => hsame, fun _ r hr _ =>
      ⟨r, hsame ▸ hr, .refl r, fun _ => rfl⟩⟩
  rcases bind_error_iff.mp h with hcollect | ⟨affected, d₀, hcollect, h⟩
  · exact hbefore (collectAffected_error hcollect)
  obtain ⟨hsilent, hmodels⟩ := collectAffected_models hcollect
  rcases bind_error_iff.mp h with hexport | ⟨_, d₁, hexport, h⟩
  · exact hbefore ((exportIfAsked_error hexport).trans hsilent.databases)
  have hasked := hsilent.toAsked.trans (exportIfAsked_asked hexport)
  have hstart : UnderWay env tenant databases (tenantLookups env) d { d with databases } := .start tenant d
  -- What is left of the tenant's row by the deletions that went through.
  have hafter : ∀ done d₂, (∀ m ∈ done, m ∈ scopedModels env ∨ m ∈ expectedAdoptedModels env) →
      eachModel (deleteModel env tenant) done d₁ = .ok () d₂ → d'.databases = d₂.databases →
      ((∃ m, deleteModel env tenant m d₂ = .error e d') ∨ deleteTenant env tenant d₂ = .error e d') →
      ∃ done d₁ d₂, Stopped env tenant databases d e d' done d₁ d₂ := by
    intro done d₂ hmodels hrun hsame hraise
    have hdone := ((eachModel_triple fun m hm => deleteModel_triple (fun _ _ h => h) (hmodels m hm)) d₁
      (hstart.asked hasked)).1 () d₂ hrun
    refine ⟨done, d₁, d₂, hasked, hrun, fun b => (hdone.inAtomicBlock _).trans (hauto b), .inr hraise, hsame,
      fun hnil => ?_, fun a r hr hnot => ?_⟩
    · subst hnil
      cases hrun
      exact hsame.trans hasked.databases
    · obtain ⟨r', hr', hbecomes⟩ := (hdone.within.spares a).spared _ r hr hnot
      exact ⟨r', hsame ▸ hr', hbecomes, (hbecomes _).key_eq⟩
  rw [deleteAffected_eq] at h
  rcases bind_error_iff.mp h with hdelete | ⟨_, d₂, hdelete, h⟩
  · obtain ⟨done, m, rest, d₂, hlist, hrun, hraise⟩ := eachModel_error hdelete
    exact hafter done d₂ (fun m hm => hmodels m (hlist ▸ List.mem_append_left _ hm)) hrun (deleteModel_error hraise)
      (.inl ⟨m, hraise⟩)
  · rcases bind_error_iff.mp h with htenant | ⟨_, d₃, -, hwrite⟩
    · exact hafter _ d₂ hmodels hdelete (deleteTenant_error htenant) (.inr htenant)
    · cases hwrite

/-! ## A shop whose orders are protected -/

/-- An audit refers to an order of the tenant's, and protects it; invoices come
first. -/
def protectedShop : DeprovisionEnv Nat :=
  deprovisionShop superuser [shopModel "Invoice" "shop_invoice", shopModel "Order" "shop_order"]
    [{ source := "shop_invoice", column := "tenant_id", target := "shop_tenant", key := "id" },
      { source := "shop_order", column := "tenant_id", target := "shop_tenant", key := "id" },
      { source := "shop_audit", column := "order_id", target := "shop_order", key := "id", onDelete := .protect }]

def protectedOrders : Deployment Nat :=
  deploymentOf (tablesOf [("shop_tenant", [rowOf [("id", 7)]]), ("shop_invoice", [rowOf [("id", 1), ("tenant_id", 7)]]),
    ("shop_order", [rowOf [("id", 2), ("tenant_id", 7)]]), ("shop_audit", [rowOf [("id", 3), ("order_id", 2)]])])

theorem protected_stops : ∃ e d' done d₁ d₂,
    deprovision protectedShop 0 { tenant := "7", yes := true } protectedOrders = .error e d' ∧
      Stopped protectedShop 0 protectedOrders.databases protectedOrders e d' done d₁ d₂ := by
  obtain ⟨e, d', hrun⟩ : ∃ e d',
      deprovision protectedShop 0 { tenant := "7", yes := true } protectedOrders = .error e d' :=
    exists_of_isError (by decide +kernel)
  obtain ⟨done, d₁, d₂, hstopped⟩ := deprovision_raises rfl rfl (fun _ => rfl) rfl hrun
  exact ⟨e, d', done, d₁, d₂, hrun, hstopped⟩

/-- The command raises `ProtectedError`, and the invoice is gone. -/
theorem invoice_gone_when_protected : ∃ e d',
    deprovision protectedShop 0 { tenant := "7", yes := true } protectedOrders = .error e d' ∧
      e = .other "ProtectedError" ∧
      (protectedOrders.world.connections "default").inAtomicBlock = false ∧
      ((protectedOrders.databases "default").contents "shop_invoice").length = 1 ∧
      (d'.databases "default").contents "shop_invoice" = [] := by
  obtain ⟨e, d', hrun⟩ : ∃ e d',
      deprovision protectedShop 0 { tenant := "7", yes := true } protectedOrders = .error e d' :=
    exists_of_isError (by decide +kernel)
  refine ⟨e, d', hrun, ?_, rfl, rfl, ?_⟩
  · have hraised : (match deprovision protectedShop 0 { tenant := "7", yes := true } protectedOrders with
        | .error e _ => decide (e = .other "ProtectedError")
        | .ok _ _ => false) = true := by decide +kernel
    rw [hrun] at hraised
    exact of_decide_eq_true hraised
  · rw [← after_of_error hrun]
    exact List.length_eq_zero_iff.mp (by decide +kernel)

/-! ## A shop whose audits are set to another order -/

/-- An audit refers to an order, and is set to the order 9 when that is deleted. -/
def auditedShop : DeprovisionEnv Nat :=
  deprovisionShop superuser [shopModel "Order" "shop_order"]
    [{ source := "shop_order", column := "tenant_id", target := "shop_tenant", key := "id" },
      { source := "shop_audit", column := "order_id", target := "shop_order", key := "id"
        onDelete := .setDefault (.some 9) }]

def auditedOrders : Deployment Nat :=
  deploymentOf (tablesOf [("shop_tenant", [rowOf [("id", 7)], rowOf [("id", 8)]]),
    ("shop_order", [rowOf [("id", 2), ("tenant_id", 7)], rowOf [("id", 9), ("tenant_id", 8)]]),
    ("shop_audit", [rowOf [("id", 3), ("order_id", 2)]])])

/-- The audit of the tenant 7's order is left, and refers to the order 9. -/
theorem audit_set_to_default :
    let left := (after (deprovision auditedShop 0 { tenant := "7", yes := true }) auditedOrders).databases
    let rows := (auditedOrders.databases "default").contents
    left "replica" = auditedOrders.databases "replica" ∧
      (∃ r' ∈ (left "default").contents "shop_audit", auditedShop.schema.Becomes rows (goesWithTenant auditedShop) 7
        "shop_audit" (rowOf [("id", 3), ("order_id", 2)]) r') ∧
      ((left "default").contents "shop_audit").map (· "order_id") = [.some 9] := by
  refine ⟨(deprovision_reaches_only rfl rfl rfl "replica").1 (by decide), ?_, by decide +kernel⟩
  refine ((deprovision_reaches_only rfl rfl rfl "default").2.2 "shop_audit" _ (List.mem_singleton_self _)
    fun hgoes => ?_).1
  refine hgoes.elsewhere (t := "shop_audit") (fun lookup hstart => ?_) ?_ ?_ rfl
  · rcases hstart with (⟨m, hm, htable, -⟩ | ⟨hadopted, -⟩) | ⟨htable, -⟩
    · rw [List.mem_singleton.mp hm] at htable
      exact absurd htable (by decide)
    · exact absurd hadopted List.not_mem_nil
    · exact absurd htable (by decide)
  · decide
  · decide

/-! ## Comments that reply to another tenant's -/

/-- `class Comment(TenantMixin)`, with a foreign key to itself. -/
def commentModel : ModelClass where
  name := "Comment"
  boundaryFkField := .some "tenant"
  fkFieldChecked := by simp [hasLookupSep, hasDoubleUnderscore]
  hasField name := name ∈ ["id", "tenant", "tenant_id", "reply_to"]
  keyword _ _ := .error (.other "FieldError")
  readKey
    | .key pk => .some pk
    | _ => .none
  readTenantKey _ := .none
  nextKey rows := .int (rows.length + 1)
  constraints _ _ := true

def noComments : Store where
  world := { tenants := fun _ => ⟨.int 7, .none, .none⟩, connections := fun _ => ⟨.none, true, []⟩ }
  dicts _ := ∅
  rows := []

def commentShop : DeprovisionEnv Nat :=
  deprovisionShop superuser [shopModel "Comment" "shop_comment"]
    [{ source := "shop_comment", column := "tenant_id", target := "shop_tenant", key := "id" },
      { source := "shop_comment", column := "reply_to", target := "shop_comment", key := "id" }]

/-- A comment of the tenant 7's, and a reply to it of the tenant 8's. -/
def saveComments : Orm Unit := do
  let _ ← save commentShop.settings commentModel { tenantId := .key (.int 7) } true
  let _ ← save commentShop.settings commentModel
    { tenantId := .key (.int 8), columns := AList.singleton "reply_to" (.key (.int 1)) } true

/-- A saved row, as its table holds it. -/
def commentRow (row : Row) : SqlRow Nat := fun column =>
  if column = "id" then .some (commentShop.key row.pk)
  else if column = "tenant_id" then row.tenant.map commentShop.key
  else match row.columns.lookup column with
    | .some (.key pk) => .some (commentShop.key pk)
    | _ => .none

def comments (rows : List Row) : Deployment Nat :=
  deploymentOf (tablesOf [("shop_tenant", [rowOf [("id", 7)], rowOf [("id", 8)]]), ("shop_comment", rows.map commentRow)])

/-- `save()` lets the reply be written, and deprovisioning the tenant 7 deletes it. -/
theorem reply_of_another_deleted : ∃ s d', saveComments noComments = .ok () s ∧
    deprovision commentShop 0 { tenant := "7", yes := true } (comments s.rows) = .ok () d' ∧
      (((comments s.rows).databases "default").contents "shop_comment").any (fun r => r "tenant_id" = .some 8) = true ∧
      (d'.databases "default").contents "shop_comment" = [] := by
  obtain ⟨s, hsave⟩ : ∃ s, saveComments noComments = .ok () s := exists_of_isOk (by decide +kernel)
  obtain ⟨d', hrun⟩ : ∃ d', deprovision commentShop 0 { tenant := "7", yes := true }
      (comments (after saveComments noComments).rows) = .ok () d' := exists_of_isOk (by decide +kernel)
  rw [after_of_ok hsave] at hrun
  refine ⟨s, d', hsave, hrun, ?_, ?_⟩
  · rw [← after_of_ok hsave]
    decide +kernel
  · rw [← after_of_ok hrun, ← after_of_ok hsave]
    exact List.length_eq_zero_iff.mp (by decide +kernel)

end Boundary
