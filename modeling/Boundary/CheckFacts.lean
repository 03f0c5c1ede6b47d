/-
What a startup check that returns has reported: the ids that each of its parts
reports, and what `boundary.E006` and `boundary.W009` say of the tables that are
probed. With the session variable off they share these tables out.
-/
import Boundary.AdoptionFacts
import Boundary.Checks

namespace Boundary

open Exec

/-! ## Ids -/

/-- The messages with an id. -/
def reportsOf (id : String) (msgs : List CheckMessage) : List CheckMessage := msgs.filter (·.id = id)

/-- What is returned has no other id. -/
def OnlyIds (ids : List String) (r : Except Exc (List CheckMessage)) : Prop :=
  ∀ out, r = .ok out → ∀ m ∈ out, m.id ∈ ids

section

variable {α : Type} {ids : List String} {id : String} {out out' : List CheckMessage}

theorem reportsOf_append : reportsOf id (out ++ out') = reportsOf id out ++ reportsOf id out' := List.filter_append ..

theorem reportsOf_eq_nil {r : Except Exc (List CheckMessage)} (id : String) (h : OnlyIds ids r) (hr : r = .ok out)
    (hid : id ∉ ids) : reportsOf id out = [] :=
  List.filter_eq_nil_iff.mpr fun m hm hmid => hid (of_decide_eq_true hmid ▸ h out hr m hm)

namespace OnlyIds

theorem ok (h : ∀ m ∈ out, m.id ∈ ids) : OnlyIds ids (.ok out) := fun _ hr => Except.ok.inj hr ▸ h

theorem error (e : Exc) : OnlyIds ids (.error e) := fun _ hr => by cases hr

theorem bind {x : Except Exc α} {f : α → Except Exc (List CheckMessage)} (h : ∀ a, x = .ok a → OnlyIds ids (f a)) :
    OnlyIds ids (x >>= f) := fun out hr => by
  obtain ⟨a, ha, hr⟩ := except_bind_ok_iff.mp hr
  exact h a ha out hr

theorem extendEach {f : α → Except Exc (List CheckMessage)} (h : ∀ x, OnlyIds ids (f x)) (xs : List α) :
    OnlyIds ids (extendEach f xs) := by
  induction xs with
  | nil => exact ok fun m hm => absurd hm List.not_mem_nil
  | cons x xs ih =>
    refine bind fun found hfound => bind fun rest hrest => ok fun m hm => ?_
    rcases List.mem_append.mp hm with hm | hm
    · exact h x found hfound m hm
    · exact ih rest hrest m hm

end OnlyIds

end

variable {δ : Type} {env : CheckEnv δ} {msgs : List CheckMessage} {m : AppModel} {id : String}

theorem onlyIds_tenantModel : OnlyIds ["boundary.E001"] (checkTenantModel env) := by
  unfold checkTenantModel
  split
  · exact .ok (by simp)
  · simp only
    split
    · exact .ok (by simp)
    · split
      · exact .ok (by simp)
      · exact .error _

theorem onlyIds_resolvers : OnlyIds ["boundary.E003"] (checkResolvers env) := by
  refine .extendEach (fun path => .bind fun x _ => ?_) _
  cases x with
  | none => exact .ok (by simp)
  | some _ => exact .ok (by simp)

theorem onlyIds_middleware : OnlyIds ["boundary.E004"] (checkMiddleware env) := by
  unfold checkMiddleware
  split
  · exact .ok (by simp)
  · refine .bind fun found _ => ?_
    cases found with
    | true => exact .ok (by simp)
    | false => exact .ok (by simp)

theorem onlyIds_strictMode : OnlyIds ["boundary.W001"] (.ok (checkStrictMode env)) := by
  unfold checkStrictMode
  split
  · exact .ok (by simp)
  · exact .ok (by simp)

theorem onlyIds_productionPosture : OnlyIds ["boundary.E008"] (.ok (checkProductionPosture env)) := by
  unfold checkProductionPosture
  split
  · exact .ok (by simp)
  · refine .ok fun m hm => ?_
    obtain ⟨⟨settingName, consequence, on⟩, -, rfl⟩ := List.mem_map.mp hm
    simp

theorem onlyIds_externalDoubleResolve : OnlyIds ["boundary.W002"] (.ok (checkExternalDoubleResolve env)) := by
  unfold checkExternalDoubleResolve
  extract_lets middleware resolverCount
  split
  · exact .ok (by simp)
  · exact .ok (by simp)

theorem onlyIds_clientControlledResolver : OnlyIds ["boundary.W006"] (checkClientControlledResolver env) := by
  unfold checkClientControlledResolver
  split
  · exact .ok (by simp)
  · refine .bind fun found _ => ?_
    split
    · exact .ok (by simp)
    · exact .ok (by simp)

theorem onlyIds_regionalRouter : OnlyIds ["boundary.E005"] (checkRegionalRouter env) := by
  unfold checkRegionalRouter
  split
  · exact .ok (by simp)
  · refine .bind fun found _ => ?_
    cases found with
    | true => exact .ok (by simp)
    | false => exact .ok (by simp)

theorem onlyIds_subdomainResolver : OnlyIds ["boundary.W008"] (checkSubdomainResolver env) := by
  unfold checkSubdomainResolver
  split
  · exact .ok (by simp)
  · refine .bind fun found _ => ?_
    split
    · exact .ok (by simp)
    · exact .ok (by simp)

theorem onlyIds_rlsBypassable : OnlyIds ["boundary.W003", "boundary.W007"] (checkRlsBypassable env) := by
  unfold checkRlsBypassable
  split
  · exact .ok (by simp)
  · split
    · split
      · exact .ok (by simp)
      · split
        · exact .ok (by simp)
        · exact .error _
    · exact .ok (by simp)
    · split
      · exact .ok (by simp)
      · exact .ok (by simp)

theorem onlyIds_eachTarget {ids : List String} {f : Bool → AppModel → Except Exc (List CheckMessage)}
    (h : ∀ adopted m, OnlyIds ids (f adopted m)) : OnlyIds ids (env.eachTarget f) := by
  refine .bind fun bearing hbearing => .bind fun expected _ => .bind fun adopted hadopted => .ok fun m hm => ?_
  rcases List.mem_append.mp hm with hm | hm
  · exact OnlyIds.extendEach (h false) _ bearing hbearing m hm
  · exact OnlyIds.extendEach (h true) _ adopted hadopted m hm

theorem onlyIds_probing {ids : List String} {report : Bool → Bool → List CheckMessage}
    {undetermined : Exc → CheckMessage} (hreport : ∀ enabled forced, ∀ msg ∈ report enabled forced, msg.id ∈ ids)
    (hundetermined : ∀ e, (undetermined e).id ∈ ids) : OnlyIds ids (env.probing m report undetermined) := by
  unfold CheckEnv.probing
  split
  · exact .ok (by simp)
  · exact .ok (hreport _ _)
  · split
    · exact .ok (by simp)
    · split
      · exact .ok (by simpa using hundetermined _)
      · exact .error _

theorem rlsDisabled_id (adopted : Bool) (m : AppModel) : (rlsDisabled adopted m).id = "boundary.E006" := by
  cases adopted <;> rfl

theorem sessionVarDisabled_id (adopted : Bool) (m : AppModel) :
    (sessionVarDisabled adopted m).id = "boundary.W009" := by
  cases adopted <;> rfl

theorem onlyIds_rlsEnabled : OnlyIds ["boundary.E006", "boundary.W007"] (checkRlsEnabled env) := by
  unfold checkRlsEnabled
  split
  · exact .ok (by simp)
  · split
    · exact .ok (by simp)
    · refine onlyIds_eachTarget fun adopted m => onlyIds_probing (fun enabled forced msg hmsg => ?_) fun e => by simp
      split at hmsg
      · exact absurd hmsg List.not_mem_nil
      · rw [List.mem_singleton.mp hmsg, rlsDisabled_id]
        simp

theorem onlyIds_sessionVarDisabled : OnlyIds ["boundary.W009", "boundary.W007"] (checkSessionVarDisabled env) := by
  unfold checkSessionVarDisabled
  split
  · exact .ok (by simp)
  · split
    · exact .ok (by simp)
    · split
      · exact .ok (by simp)
      · refine onlyIds_eachTarget fun adopted m => onlyIds_probing (fun enabled forced msg hmsg => ?_) fun e => by simp
        split at hmsg
        · rw [List.mem_singleton.mp hmsg, sessionVarDisabled_id]
          simp
        · exact absurd hmsg List.not_mem_nil

/-! ## The ids of `boundary.E007` -/

theorem checkOneAdoptedTable_id {server : Server δ} {cat : Catalogue δ} {expectedType : String} {e : CheckError}
    (h : e ∈ checkOneAdoptedTable server cat m expectedType) : e.id = "boundary.E007" := by
  unfold checkOneAdoptedTable at h
  split at h
  · exact absurd h List.not_mem_nil
  · simp only [List.mem_append] at h
    rcases h with (((h | h) | h) | h) | h
    · unfold checkTenantColumn at h
      split at h
      · rw [List.mem_singleton.mp h, e007]
      · split at h
        · exact absurd h List.not_mem_nil
        · rw [List.mem_singleton.mp h, e007]
    · unfold checkRowSecurity at h
      split at h
      · exact absurd h List.not_mem_nil
      · rw [List.mem_singleton.mp h, e007]
    · exact checkPolicy_id h
    · exact checkPolicy_id h
    · simp only [checkAdoptedUniqueForms, List.mem_append, List.mem_map] at h
      rcases h with ⟨c, -, rfl⟩ | ⟨i, -, rfl⟩
      · rw [uniqueFormError, e007]
      · rw [uniqueFormError, e007]
where
  checkPolicy_id {server : Server δ} {cat : Catalogue δ} {policy rule : String} {e : CheckError}
      (h : e ∈ checkPolicy server cat m policy rule) : e.id = "boundary.E007" := by
    unfold checkPolicy at h
    split at h
    · exact absurd h List.not_mem_nil
    · rw [List.mem_singleton.mp h, e007]

theorem checkAdoptedSettings_id {errors : List CheckError} {e : CheckError}
    (h : checkAdoptedSettings env = .ok errors) (he : e ∈ errors) : e.id = "boundary.E007" := by
  have hrefused : ∀ e ∈ env.settings.tenantApps.filterMap fun appLabel =>
      (refusalReason appLabel env.apps).map (appRefused appLabel), e.id = "boundary.E007" := by
    intro e he
    obtain ⟨appLabel, -, hrefusal⟩ := List.mem_filterMap.mp he
    obtain ⟨refusal, -, rfl⟩ := Option.map_eq_some_iff.mp hrefusal
    rw [appRefused, e007]
  unfold checkAdoptedSettings at h
  simp only at h
  split at h
  · exact hrefused e (Except.ok.inj h ▸ he)
  · obtain ⟨tenantLabel, -, h⟩ := except_bind_ok_iff.mp h
    obtain rfl := Except.ok.inj h
    rcases List.mem_append.mp he with he | he
    · exact hrefused e he
    · obtain ⟨entry, -, he⟩ := List.mem_flatMap.mp he
      unfold excludeErrors at he
      split at he
      · rw [List.mem_singleton.mp he, e007]
      · split at he
        · exact absurd he List.not_mem_nil
        · rw [List.mem_singleton.mp he, e007]

theorem onlyIds_checkExpected (expectedType : String) (models : List AppModel) :
    OnlyIds ["boundary.E007", "boundary.W007"] (checkExpected env expectedType models) := by
  refine .extendEach (fun m => ?_) models
  split
  · refine .ok fun msg hmsg => ?_
    obtain ⟨e, he, rfl⟩ := List.mem_map.mp hmsg
    rw [CheckError.toMessage, checkOneAdoptedTable_id he]
    simp
  · split
    · exact .ok (by simp)
    · split
      · exact .ok (by simp)
      · exact .error _

theorem onlyIds_adoptedTables : OnlyIds ["boundary.E007", "boundary.W007"] (checkAdoptedTables env) := by
  unfold checkAdoptedTables
  refine .bind fun errors herrors => ?_
  have hsettings : ∀ msg ∈ errors.map CheckError.toMessage, msg.id ∈ ["boundary.E007", "boundary.W007"] := by
    intro msg hmsg
    obtain ⟨e, he, rfl⟩ := List.mem_map.mp hmsg
    rw [CheckError.toMessage, checkAdoptedSettings_id herrors he]
    simp
  simp only
  split
  · exact .ok hsettings
  · split
    · exact .ok hsettings
    · refine .bind fun expected _ => ?_
      split
      · exact .ok hsettings
      · split
        · split
          · exact .ok hsettings
          · exact .error _
        · refine .bind fun found hfound => .ok fun msg hmsg => ?_
          rcases List.mem_append.mp hmsg with hmsg | hmsg
          · exact hsettings msg hmsg
          · exact onlyIds_checkExpected _ _ found hfound msg hmsg

/-! ## The parts of a check that returns -/

/-- What the part that looks for the tenant model, and those that ask the
database, return in a check that returns. -/
structure Probed (env : CheckEnv δ) (msgs tenantModel rlsEnabled rlsBypassable sessionVar adopted : List CheckMessage) :
    Prop where
  model : checkTenantModel env = .ok tenantModel
  rls : checkRlsEnabled env = .ok rlsEnabled
  role : checkRlsBypassable env = .ok rlsBypassable
  var : checkSessionVarDisabled env = .ok sessionVar
  tables : checkAdoptedTables env = .ok adopted
  reports : ∀ id ∈ ["boundary.E001", "boundary.E006", "boundary.E007", "boundary.W003", "boundary.W007",
      "boundary.W009"],
    reportsOf id msgs = reportsOf id (tenantModel ++ rlsEnabled ++ rlsBypassable ++ sessionVar ++ adopted)

theorem checkBoundaryConfiguration_ok (h : checkBoundaryConfiguration env = .ok msgs) :
    ∃ tenantModel rlsEnabled rlsBypassable sessionVar adopted,
      Probed env msgs tenantModel rlsEnabled rlsBypassable sessionVar adopted := by
  unfold checkBoundaryConfiguration at h
  simp only [except_bind_ok_iff] at h
  obtain ⟨tenantModel, htenantModel, resolvers, hresolvers, middleware, hmiddleware, rlsEnabled, hrlsEnabled,
    rlsBypassable, hrlsBypassable, clientControlled, hclientControlled, router, hrouter, subdomain, hsubdomain,
    sessionVar, hsessionVar, adopted, hadopted, h⟩ := h
  obtain rfl := Except.ok.inj h
  refine ⟨tenantModel, rlsEnabled, rlsBypassable, sessionVar, adopted,
    ⟨htenantModel, hrlsEnabled, hrlsBypassable, hsessionVar, hadopted, fun id hid => ?_⟩⟩
  have hnil {ids : List String} {r : Except Exc (List CheckMessage)} {out : List CheckMessage} (hr : r = .ok out)
      (h : OnlyIds ids r) (hother : ∀ other ∈ ids, other ∉ ["boundary.E001", "boundary.E006", "boundary.E007",
        "boundary.W003", "boundary.W007", "boundary.W009"]) : reportsOf id out = [] :=
    reportsOf_eq_nil id h hr fun hmem => hother id hmem hid
  simp only [reportsOf_append]
  rw [hnil hresolvers onlyIds_resolvers (by simp), hnil hmiddleware onlyIds_middleware (by simp),
    hnil rfl onlyIds_strictMode (by simp),
    hnil rfl onlyIds_productionPosture (by simp), hnil rfl onlyIds_externalDoubleResolve (by simp),
    hnil hclientControlled onlyIds_clientControlledResolver (by simp), hnil hrouter onlyIds_regionalRouter (by simp),
    hnil hsubdomain onlyIds_subdomainResolver (by simp)]
  simp

section

variable {tenantModel rlsEnabled rlsBypassable sessionVar adopted : List CheckMessage}
  (h : Probed env msgs tenantModel rlsEnabled rlsBypassable sessionVar adopted)

include h

theorem Probed.reports_e001 : reportsOf "boundary.E001" msgs = reportsOf "boundary.E001" tenantModel := by
  rw [h.reports _ (by simp)]
  simp only [reportsOf_append, reportsOf_eq_nil "boundary.E001" onlyIds_rlsEnabled h.rls (by simp),
    reportsOf_eq_nil "boundary.E001" onlyIds_rlsBypassable h.role (by simp),
    reportsOf_eq_nil "boundary.E001" onlyIds_sessionVarDisabled h.var (by simp),
    reportsOf_eq_nil "boundary.E001" onlyIds_adoptedTables h.tables (by simp), List.append_nil]

theorem Probed.reports_e006 : reportsOf "boundary.E006" msgs = reportsOf "boundary.E006" rlsEnabled := by
  rw [h.reports _ (by simp)]
  simp only [reportsOf_append, reportsOf_eq_nil "boundary.E006" onlyIds_tenantModel h.model (by simp),
    reportsOf_eq_nil "boundary.E006" onlyIds_rlsBypassable h.role (by simp),
    reportsOf_eq_nil "boundary.E006" onlyIds_sessionVarDisabled h.var (by simp),
    reportsOf_eq_nil "boundary.E006" onlyIds_adoptedTables h.tables (by simp), List.append_nil, List.nil_append]

theorem Probed.reports_w003 : reportsOf "boundary.W003" msgs = reportsOf "boundary.W003" rlsBypassable := by
  rw [h.reports _ (by simp)]
  simp only [reportsOf_append, reportsOf_eq_nil "boundary.W003" onlyIds_tenantModel h.model (by simp),
    reportsOf_eq_nil "boundary.W003" onlyIds_rlsEnabled h.rls (by simp),
    reportsOf_eq_nil "boundary.W003" onlyIds_sessionVarDisabled h.var (by simp),
    reportsOf_eq_nil "boundary.W003" onlyIds_adoptedTables h.tables (by simp), List.append_nil, List.nil_append]

theorem Probed.reports_w009 : reportsOf "boundary.W009" msgs = reportsOf "boundary.W009" sessionVar := by
  rw [h.reports _ (by simp)]
  simp only [reportsOf_append, reportsOf_eq_nil "boundary.W009" onlyIds_tenantModel h.model (by simp),
    reportsOf_eq_nil "boundary.W009" onlyIds_rlsEnabled h.rls (by simp),
    reportsOf_eq_nil "boundary.W009" onlyIds_rlsBypassable h.role (by simp),
    reportsOf_eq_nil "boundary.W009" onlyIds_adoptedTables h.tables (by simp), List.append_nil, List.nil_append]

theorem Probed.reports_e007 : reportsOf "boundary.E007" msgs = reportsOf "boundary.E007" adopted := by
  rw [h.reports _ (by simp)]
  simp only [reportsOf_append, reportsOf_eq_nil "boundary.E007" onlyIds_tenantModel h.model (by simp),
    reportsOf_eq_nil "boundary.E007" onlyIds_rlsEnabled h.rls (by simp),
    reportsOf_eq_nil "boundary.E007" onlyIds_rlsBypassable h.role (by simp),
    reportsOf_eq_nil "boundary.E007" onlyIds_sessionVarDisabled h.var (by simp), List.nil_append]

end

/-! ## The tables probed -/

/-- `_rls_probe_targets`: whether a model is adopted, and the model. -/
def CheckEnv.rlsProbeTargets (env : CheckEnv δ) : Except Exc (List (Bool × AppModel)) :=
  env.expectedAdoptedTables.map fun expected => env.columnBearing.map (false, ·) ++
    (unseen (env.columnBearing.map AppModel.dbTable) expected).map (true, ·)

/-- Whether row security is enabled and forced on a table that the probe finds. -/
def CheckEnv.protected? (env : CheckEnv δ) (table : String) : Option Bool :=
  match env.probe table with
  | .ok (.some (enabled, forced)) => .some (enabled && forced)
  | _ => .none

theorem eachTarget_ok {f : Bool → AppModel → Except Exc (List CheckMessage)} {out : List CheckMessage}
    (h : env.eachTarget f = .ok out) :
    ∃ targets, env.rlsProbeTargets = .ok targets ∧ extendEach (fun t => f t.1 t.2) targets = .ok out := by
  unfold CheckEnv.eachTarget at h
  simp only [except_bind_ok_iff] at h
  obtain ⟨bearing, hbearing, expected, hexpected, adopted, hadopted, h⟩ := h
  obtain rfl := Except.ok.inj h
  refine ⟨_, by rw [CheckEnv.rlsProbeTargets, hexpected]; rfl, extendEach_append_ok_iff.mpr
    ⟨bearing, adopted, ?_, ?_, rfl⟩⟩
  · rw [extendEach_map]
    exact hbearing
  · rw [extendEach_map]
    exact hadopted

theorem mem_unseen (seen : List String) {models : List AppModel} (hm : m ∈ models) :
    m.dbTable ∈ seen ∨ ∃ m' ∈ unseen seen models, m'.dbTable = m.dbTable := by
  induction models generalizing seen with
  | nil => exact absurd hm List.not_mem_nil
  | cons first rest ih =>
    unfold unseen
    rcases List.mem_cons.mp hm with rfl | hrest
    · split
      · next hseen => exact .inl hseen
      · exact .inr ⟨m, List.mem_cons_self, rfl⟩
    · split
      · exact ih seen hrest
      · rcases ih (first.dbTable :: seen) hrest with hseen | ⟨m', hm', htable⟩
        · rcases List.mem_cons.mp hseen with htable | hseen
          · exact .inr ⟨first, List.mem_cons_self, htable.symm⟩
          · exact .inl hseen
        · exact .inr ⟨m', List.mem_cons_of_mem _ hm', htable⟩

/-- Every table expected to be adopted is probed, as one or as a column-bearing
model's. -/
theorem target_of_expected {targets : List (Bool × AppModel)} {expected : List AppModel}
    (htargets : env.rlsProbeTargets = .ok targets) (hexpected : env.expectedAdoptedTables = .ok expected)
    (hm : m ∈ expected) : ∃ t ∈ targets, t.2.dbTable = m.dbTable := by
  rw [CheckEnv.rlsProbeTargets, hexpected] at htargets
  obtain rfl := Except.ok.inj htargets
  rcases mem_unseen _ hm with hseen | ⟨m', hm', htable⟩
  · obtain ⟨m', hm', htable⟩ := List.mem_map.mp hseen
    exact ⟨(false, m'), List.mem_append_left _ (List.mem_map_of_mem hm'), htable⟩
  · exact ⟨(true, m'), List.mem_append_right _ (List.mem_map_of_mem hm'), htable⟩

theorem flatMap_ite_singleton {α β : Type} (p : α → Bool) (g : α → β) (xs : List α) :
    (xs.flatMap fun x => if p x then [g x] else []) = (xs.filter p).map g := by
  induction xs with
  | nil => rfl
  | cons x xs ih =>
    rw [List.flatMap_cons, ih, List.filter_cons]
    cases p x <;> rfl

/-- What a probe is reported to have found, its failures apart. -/
theorem probing_reports {report : Bool → Bool → List CheckMessage} {undetermined : Exc → CheckMessage}
    {found : List CheckMessage} (h : env.probing m report undetermined = .ok found)
    (hundetermined : ∀ e, (undetermined e).id ≠ id) :
    reportsOf id found = match env.probe m.dbTable with
      | .ok (.some (enabled, forced)) => reportsOf id (report enabled forced)
      | _ => [] := by
  unfold CheckEnv.probing at h
  split at h
  · next hprobe =>
    rw [hprobe, ← Except.ok.inj h]
    rfl
  · next hprobe => rw [hprobe, ← Except.ok.inj h]
  · next hprobe =>
    rw [hprobe]
    split at h
    · rw [← Except.ok.inj h]
      rfl
    · split at h
      · rw [← Except.ok.inj h]
        simp [reportsOf, hundetermined]
      · cases h

theorem e006_of_probing {adopted : Bool} {undetermined : Exc → CheckMessage} {found : List CheckMessage}
    (h : env.probing m (fun enabled forced => if enabled && forced then [] else [rlsDisabled adopted m]) undetermined =
      .ok found) (hundetermined : ∀ e, (undetermined e).id ≠ "boundary.E006") :
    reportsOf "boundary.E006" found =
      if env.protected? m.dbTable = .some false then [rlsDisabled adopted m] else [] := by
  rw [probing_reports h hundetermined, CheckEnv.protected?]
  split
  · next enabled forced _ =>
    cases enabled <;> cases forced <;> simp [reportsOf, rlsDisabled_id]
  · rfl

theorem w009_of_probing {adopted : Bool} {undetermined : Exc → CheckMessage} {found : List CheckMessage}
    (h : env.probing m (fun enabled forced => if enabled && forced then [sessionVarDisabled adopted m] else [])
      undetermined = .ok found) (hundetermined : ∀ e, (undetermined e).id ≠ "boundary.W009") :
    reportsOf "boundary.W009" found =
      if env.protected? m.dbTable = .some true then [sessionVarDisabled adopted m] else [] := by
  rw [probing_reports h hundetermined, CheckEnv.protected?]
  split
  · next enabled forced _ =>
    cases enabled <;> cases forced <;> simp [reportsOf, sessionVarDisabled_id]
  · rfl

section

variable (hpg : env.vendor = .postgresql) (htenant : env.settings.tenantModelString.isSome = true)

include hpg htenant

theorem checkRlsEnabled_ok {out : List CheckMessage} (h : checkRlsEnabled env = .ok out) :
    ∃ targets, env.rlsProbeTargets = .ok targets ∧ reportsOf "boundary.E006" out =
      (targets.filter fun t => env.protected? t.2.dbTable = .some false).map fun t => rlsDisabled t.1 t.2 := by
  unfold checkRlsEnabled at h
  rw [if_neg (not_not.mpr hpg), if_neg (by simp [Option.isNone_iff_eq_none, Option.isSome_iff_ne_none.mp htenant])] at h
  obtain ⟨targets, htargets, h⟩ := eachTarget_ok h
  refine ⟨targets, htargets, ?_⟩
  rw [reportsOf, filter_extendEach h fun t _ found hfound => e006_of_probing hfound fun e => by simp,
    ← flatMap_ite_singleton]
  simp only [decide_eq_true_eq]

theorem checkSessionVarDisabled_ok {out : List CheckMessage} (hoff : env.settings.setDbSessionVar = false)
    (h : checkSessionVarDisabled env = .ok out) :
    ∃ targets, env.rlsProbeTargets = .ok targets ∧ reportsOf "boundary.W009" out =
      (targets.filter fun t => env.protected? t.2.dbTable = .some true).map fun t => sessionVarDisabled t.1 t.2 := by
  unfold checkSessionVarDisabled at h
  rw [hoff, if_neg Bool.false_ne_true, if_neg (not_not.mpr hpg),
    if_neg (by simp [Option.isNone_iff_eq_none, Option.isSome_iff_ne_none.mp htenant])] at h
  obtain ⟨targets, htargets, h⟩ := eachTarget_ok h
  refine ⟨targets, htargets, ?_⟩
  rw [reportsOf, filter_extendEach h fun t _ found hfound => w009_of_probing hfound fun e => by simp,
    ← flatMap_ite_singleton]
  simp only [decide_eq_true_eq]

end

/-- The two checks of row security go over the same tables, every column-bearing
one and every one expected to be adopted; where the session variable is off,
each that is found is reported by one of them. -/
structure SharesOut (env : CheckEnv δ) (msgs : List CheckMessage) (targets : List (Bool × AppModel)) : Prop where
  probed : env.rlsProbeTargets = .ok targets
  bearing : ∀ m ∈ env.columnBearing, (false, m) ∈ targets
  expected : ∀ models, env.expectedAdoptedTables = .ok models → ∀ m ∈ models, ∃ t ∈ targets, t.2.dbTable = m.dbTable
  disabled : reportsOf "boundary.E006" msgs =
    (targets.filter fun t => env.protected? t.2.dbTable = .some false).map fun t => rlsDisabled t.1 t.2
  unenforced : reportsOf "boundary.W009" msgs =
    if env.settings.setDbSessionVar then []
    else (targets.filter fun t => env.protected? t.2.dbTable = .some true).map fun t => sessionVarDisabled t.1 t.2
  once : env.settings.setDbSessionVar = false →
    (reportsOf "boundary.E006" msgs).length + (reportsOf "boundary.W009" msgs).length =
      (targets.filter fun t => (env.protected? t.2.dbTable).isSome).length

theorem length_filter_some {α : Type} (g : α → Option Bool) (xs : List α) :
    (xs.filter fun x => g x = .some false).length + (xs.filter fun x => g x = .some true).length =
      (xs.filter fun x => (g x).isSome).length := by
  induction xs with
  | nil => rfl
  | cons x xs ih =>
    simp only [List.filter_cons]
    rcases g x with _ | _ | _
    · exact ih
    · simp
      omega
    · simp
      omega

theorem sharesOut_of_probed {tenantModel rlsEnabled rlsBypassable sessionVar adopted : List CheckMessage}
    (hpg : env.vendor = .postgresql) (htenant : env.settings.tenantModelString.isSome = true)
    (h : Probed env msgs tenantModel rlsEnabled rlsBypassable sessionVar adopted) :
    ∃ targets, SharesOut env msgs targets := by
  obtain ⟨targets, htargets, hdisabled⟩ := checkRlsEnabled_ok hpg htenant h.rls
  have hunenforced : reportsOf "boundary.W009" msgs =
      if env.settings.setDbSessionVar then []
      else (targets.filter fun t => env.protected? t.2.dbTable = .some true).map fun t =>
        sessionVarDisabled t.1 t.2 := by
    rw [h.reports_w009]
    cases hvar : env.settings.setDbSessionVar with
    | true =>
      have hnil := h.var
      rw [checkSessionVarDisabled, hvar, if_pos rfl] at hnil
      rw [← Except.ok.inj hnil]
      rfl
    | false =>
      obtain ⟨targets', htargets', hreports⟩ := checkSessionVarDisabled_ok hpg htenant hvar h.var
      obtain rfl := Except.ok.inj (htargets.symm.trans htargets')
      exact hreports
  refine ⟨targets, htargets, fun m hm => ?_, fun expected hexpected m hm => target_of_expected htargets hexpected hm,
    h.reports_e006.trans hdisabled, hunenforced, fun hoff => ?_⟩
  · unfold CheckEnv.rlsProbeTargets at htargets
    obtain ⟨expected, -, rfl⟩ := exceptMap_ok_iff.mp htargets
    exact List.mem_append_left _ (List.mem_map_of_mem hm)
  · rw [hunenforced, hoff, if_neg Bool.false_ne_true, h.reports_e006, hdisabled, List.length_map, List.length_map]
    exact length_filter_some (fun t => env.protected? t.2.dbTable) targets

def shopTenant : AppModel where
  appLabel := "accounts"
  name := "Tenant"
  dbTable := "accounts_tenant"

def shopSettings : CheckSettings where
  boundaryTenantModel := .some "accounts.Tenant"
  middleware := [tenantMiddleware]
  installedApps := ["accounts", "shop"]
  subdomainParentDomain := true
  tenantApps := ["shop"]

/-- The shop's deployment. -/
def checkedShop (settings : CheckSettings) (catalogue : Catalogue Nat) : CheckEnv Nat where
  toServer := AdoptTenantApp.serverOf ["shop_widget"]
  settings
  importString path := if path = "boundary.resolvers.SubdomainResolver" then .ok (.cls [path]) else .error importError
  apps.models appLabel :=
    if appLabel = "accounts" then .some [shopTenant]
    else if appLabel = "shop" then .some [AdoptTenantApp.shopWidget "shop_widget"]
    else .none
  installed := [shopTenant, AdoptTenantApp.shopWidget "shop_widget"]
  hasTenantColumn _ := false
  pkDbType _ := "bigint"
  vendor := .postgresql
  catalogue
  role := .ok (.some (false, false))
  str _ := ""

/-- The widgets' table, with row security forced. -/
def forcedWidgets : Catalogue Nat where
  tables name :=
    if name = "shop_widget" then .some { columns := [], rowSecurity := true, forceRowSecurity := true } else .none
  constraints := []
  names := List.nodup_nil

/-- The shop's settings, with the session variable off. -/
def variableOff : CheckSettings := { shopSettings with setDbSessionVar := false }

end Boundary
