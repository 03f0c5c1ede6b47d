/-
When the startup check returns: where the tenant model is missing it reports so,
unless a table is to be adopted, whose search for the model is not caught.
-/
import Boundary.CheckFacts

namespace Boundary

open Exec

/-- Something is returned. -/
def Returns {α : Type} (r : Except Exc α) : Prop := ∃ out, r = .ok out

theorem Returns.ok {α : Type} (out : α) : Returns (.ok out : Except Exc α) := ⟨out, rfl⟩

theorem Returns.bind {α β : Type} {x : Except Exc α} {f : α → Except Exc β} (hx : Returns x)
    (hf : ∀ a, x = .ok a → Returns (f a)) : Returns (x >>= f) := by
  obtain ⟨a, ha⟩ := hx
  obtain ⟨b, hb⟩ := hf a ha
  exact ⟨b, except_bind_ok_iff.mpr ⟨a, ha, hb⟩⟩

theorem Returns.extendEach {α : Type} {f : α → Except Exc (List CheckMessage)} {xs : List α}
    (h : ∀ x ∈ xs, Returns (f x)) : Returns (extendEach f xs) := extendEach_returns_iff.mpr h

variable {δ : Type}

/-- Paths fail to import with an `ImportError`, resolvers are classes, and what a
query raises is an `Exception`. -/
structure FailsOrdinarily (env : CheckEnv δ) : Prop where
  imports : ∀ path e, env.importString path = .error e → e = importError
  resolvers : ∀ path ∈ env.settings.resolvers, env.importString path ≠ .ok .object
  probes : ∀ table e, env.probeFails table = .some e → e.isException = true
  adopted : ∀ table e, env.adoptedFails table = .some e → e.isException = true
  role : ∀ e, env.role = .error e → e.isException = true

variable {env : CheckEnv δ} {msgs : List CheckMessage} {m : AppModel}

/-! ## The tenant model -/

/-- A tenant model that is not found is not set, not installed, or no dotted pair. -/
theorem getTenantModel_error {e : Exc} (h : env.getTenantModel = .error e) :
    (e = improperlyConfigured ∧ env.settings.tenantModelString = .none) ∨
      ((e = lookupError ∨ e = valueError) ∧ env.settings.tenantModelString.isSome = true) := by
  unfold CheckEnv.getTenantModel at h
  split at h
  · next hnone => exact .inl ⟨(Except.error.inj h).symm, hnone⟩
  · next dotted hsome =>
    refine .inr ⟨?_, by rw [hsome]; rfl⟩
    unfold Apps.getModelNamed at h
    split at h
    · split at h
      · exact .inl (Except.error.inj h).symm
      · cases h
    · exact .inr (Except.error.inj h).symm

theorem checkTenantModel_returns_iff : Returns (checkTenantModel env) ↔ env.getTenantModel ≠ .error valueError := by
  unfold checkTenantModel
  split
  · next hnone =>
    refine iff_of_true (.ok _) fun h => ?_
    simp [CheckEnv.getTenantModel, hnone, improperlyConfigured, valueError] at h
  · next dotted hsome =>
    have hget : env.getTenantModel = env.apps.getModelNamed dotted := by rw [CheckEnv.getTenantModel, hsome]
    rw [← hget]
    extract_lets sourceSetting
    cases hmodel : env.getTenantModel with
    | ok tenant => exact iff_of_true (.ok _) fun h => by cases h
    | error e =>
      rcases getTenantModel_error hmodel with ⟨-, hnone⟩ | ⟨rfl | rfl, -⟩
      · rw [hsome] at hnone
        cases hnone
      · exact iff_of_true (.ok _) fun h => by simp [lookupError, valueError] at h
      · exact iff_of_false (fun ⟨out, h⟩ => by cases h) fun h => h rfl

theorem reports_e001 (h : checkTenantModel env = .ok msgs) :
    reportsOf "boundary.E001" msgs = [] ↔ ∃ tenant, env.getTenantModel = .ok tenant := by
  unfold checkTenantModel at h
  split at h
  · next hnone =>
    rw [← Except.ok.inj h]
    refine iff_of_false (by simp [reportsOf]) fun hfound => ?_
    obtain ⟨tenant, htenant⟩ := hfound
    simp [CheckEnv.getTenantModel, hnone] at htenant
  · next dotted hsome =>
    have hget : env.getTenantModel = env.apps.getModelNamed dotted := by rw [CheckEnv.getTenantModel, hsome]
    rw [← hget] at h
    extract_lets sourceSetting at h
    cases hmodel : env.getTenantModel with
    | ok tenant =>
      rw [hmodel] at h
      rw [← Except.ok.inj h]
      exact iff_of_true rfl ⟨tenant, rfl⟩
    | error e =>
      rw [hmodel] at h
      simp only at h
      split at h
      · rw [← Except.ok.inj h]
        refine iff_of_false (by simp [reportsOf]) fun hfound => ?_
        obtain ⟨tenant, htenant⟩ := hfound
        cases htenant
      · cases h

/-! ## Imports -/

theorem imported?_returns (hordinary : FailsOrdinarily env) (path : String) : Returns (env.imported? path) := by
  unfold CheckEnv.imported?
  split
  · exact .ok _
  · next e he =>
    rw [if_pos (hordinary.imports path e he)]
    exact .ok _

theorem checkResolvers_returns (hordinary : FailsOrdinarily env) : Returns (checkResolvers env) :=
  .extendEach fun path _ => (imported?_returns hordinary path).bind fun x _ => by
    cases x with
    | none => exact .ok _
    | some _ => exact .ok _

theorem resolvesTenant_returns (hordinary : FailsOrdinarily env) (entries : List String) :
    Returns (env.resolvesTenant entries) := by
  induction entries with
  | nil => exact .ok _
  | cons entry entries ih =>
    unfold CheckEnv.resolvesTenant
    split
    · exact .ok _
    · split
      · next e he =>
        rw [if_pos (.inl (hordinary.imports entry e he))]
        exact ih
      · split
        · exact .ok _
        · exact ih

theorem checkMiddleware_returns (hordinary : FailsOrdinarily env) : Returns (checkMiddleware env) := by
  unfold checkMiddleware
  split
  · exact .ok _
  · refine (resolvesTenant_returns hordinary _).bind fun found _ => ?_
    cases found with
    | true => exact .ok _
    | false => exact .ok _

theorem resolversOf_returns (hordinary : FailsOrdinarily env) (names : List String) :
    ∀ paths ⊆ env.settings.resolvers, Returns (env.resolversOf names paths) := by
  intro paths
  induction paths with
  | nil => exact fun _ => .ok _
  | cons path paths ih =>
    intro hsub
    have hrest := ih (List.subset_of_cons_subset hsub)
    refine (imported?_returns hordinary path).bind fun x hx => ?_
    match x with
    | .none => exact hrest
    | .some (.cls mro) => exact hrest.bind fun rest _ => .ok _
    | .some .object =>
      unfold CheckEnv.imported? at hx
      split at hx
      · next hobject =>
        obtain rfl := Option.some.inj (Except.ok.inj hx)
        exact absurd hobject (hordinary.resolvers path (hsub List.mem_cons_self))
      · split at hx
        · cases hx
        · cases hx

theorem checkClientControlledResolver_returns (hordinary : FailsOrdinarily env) :
    Returns (checkClientControlledResolver env) := by
  unfold checkClientControlledResolver
  split
  · exact .ok _
  · refine (resolversOf_returns hordinary _ _ (List.Subset.refl _)).bind fun found _ => ?_
    split
    · exact .ok _
    · exact .ok _

theorem checkSubdomainResolver_returns (hordinary : FailsOrdinarily env) : Returns (checkSubdomainResolver env) := by
  unfold checkSubdomainResolver
  split
  · exact .ok _
  · refine (resolversOf_returns hordinary _ _ (List.Subset.refl _)).bind fun found _ => ?_
    split
    · exact .ok _
    · exact .ok _

theorem routesRegionally_returns (hordinary : FailsOrdinarily env) (entries : List RouterEntry) :
    Returns (env.routesRegionally entries) := by
  induction entries with
  | nil => exact .ok _
  | cons entry entries ih =>
    cases entry with
    | instance_ mro =>
      unfold CheckEnv.routesRegionally
      split
      · exact .ok _
      · exact ih
    | path dotted =>
      refine (imported?_returns hordinary dotted).bind fun x _ => ?_
      cases x with
      | none => exact ih
      | some x =>
        simp only
        split
        · exact .ok _
        · exact ih

theorem checkRegionalRouter_returns (hordinary : FailsOrdinarily env) : Returns (checkRegionalRouter env) := by
  unfold checkRegionalRouter
  split
  · exact .ok _
  · refine (routesRegionally_returns hordinary _).bind fun found _ => ?_
    cases found with
    | true => exact .ok _
    | false => exact .ok _

/-! ## The adopted set -/

theorem adoptedOf_returns_iff (models : List AppModel) (appLabels : List String) :
    Returns (env.adoptedOf models appLabels) ↔ appLabels = [] ∨ ∃ tenant, env.getTenantModel = .ok tenant := by
  induction appLabels generalizing models with
  | nil => exact iff_of_true (.ok _) (.inl rfl)
  | cons appLabel appLabels ih =>
    rw [CheckEnv.adoptedOf]
    cases hmodel : env.getTenantModel with
    | ok tenant =>
      refine iff_of_true ((Returns.ok tenant).bind fun tenant' _ => ?_) (.inr ⟨tenant, rfl⟩)
      exact (ih _).mpr (.inr ⟨tenant, hmodel⟩)
    | error e =>
      refine iff_of_false (fun ⟨out, h⟩ => by cases h) ?_
      rintro (h | ⟨tenant, h⟩)
      · cases h
      · cases h

theorem adoptedOf_error {models : List AppModel} {appLabels : List String} {e : Exc}
    (h : env.adoptedOf models appLabels = .error e) : env.getTenantModel = .error e := by
  induction appLabels generalizing models with
  | nil => cases h
  | cons appLabel appLabels ih =>
    rw [CheckEnv.adoptedOf] at h
    cases hmodel : env.getTenantModel with
    | ok tenant =>
      rw [hmodel] at h
      exact hmodel ▸ ih h
    | error e' =>
      rw [hmodel] at h
      cases h
      rfl

/-- The search for the tables is over where nothing is to be adopted; else it
needs the tenant model, and only an unset one is caught. -/
theorem expectedAdoptedTables_returns_iff :
    Returns env.expectedAdoptedTables ↔ env.listedApps = [] ∨ (∃ tenant, env.getTenantModel = .ok tenant) ∨
      env.settings.tenantModelString = .none := by
  unfold CheckEnv.expectedAdoptedTables CheckEnv.expectedAdoptedModels
  cases hadopted : env.adoptedOf [] env.listedApps with
  | ok models =>
    refine iff_of_true (.ok _) ?_
    rcases (adoptedOf_returns_iff [] env.listedApps).mp ⟨models, hadopted⟩ with h | h
    · exact .inl h
    · exact .inr (.inl h)
  | error e =>
    have hmodel := adoptedOf_error hadopted
    have hlisted : env.listedApps ≠ [] := fun h => by
      rw [h] at hadopted
      cases hadopted
    simp only
    rcases getTenantModel_error hmodel with ⟨rfl, hnone⟩ | ⟨he, hsome⟩
    · exact iff_of_true (.ok _) (.inr (.inr hnone))
    · have hcaught : e ≠ improperlyConfigured := by
        rcases he with rfl | rfl <;> simp [lookupError, valueError, improperlyConfigured]
      rw [if_neg hcaught]
      refine iff_of_false (fun ⟨out, h⟩ => by cases h) ?_
      rintro (h | ⟨tenant, h⟩ | h)
      · exact hlisted h
      · rw [hmodel] at h
        cases h
      · rw [h] at hsome
        cases hsome

/-! ## Queries -/

theorem probing_returns (hordinary : FailsOrdinarily env) (m : AppModel) (report : Bool → Bool → List CheckMessage)
    (undetermined : Exc → CheckMessage) : Returns (env.probing m report undetermined) := by
  unfold CheckEnv.probing
  split
  · exact .ok _
  · exact .ok _
  · next e he =>
    have hexception : e.isException = true := by
      unfold CheckEnv.probe at he
      split at he
      · next hfails => exact hordinary.probes _ e (Except.error.inj he ▸ hfails)
      · cases he
    split
    · exact .ok _
    · exact .ok _

theorem eachTarget_returns_iff {f : Bool → AppModel → Except Exc (List CheckMessage)}
    (hf : ∀ adopted m, Returns (f adopted m)) : Returns (env.eachTarget f) ↔ Returns env.expectedAdoptedTables := by
  constructor
  · rintro ⟨out, h⟩
    simp only [CheckEnv.eachTarget, except_bind_ok_iff] at h
    obtain ⟨-, -, expected, hexpected, -⟩ := h
    exact ⟨expected, hexpected⟩
  · intro hexpected
    exact (Returns.extendEach fun m _ => hf false m).bind fun bearing _ => hexpected.bind fun expected _ =>
      (Returns.extendEach fun m _ => hf true m).bind fun adopted _ => .ok _

theorem checkRlsEnabled_returns_iff (hordinary : FailsOrdinarily env) : Returns (checkRlsEnabled env) ↔
    env.vendor ≠ .postgresql ∨ env.settings.tenantModelString = .none ∨ Returns env.expectedAdoptedTables := by
  unfold checkRlsEnabled
  split
  · next hvendor => exact iff_of_true (.ok _) (.inl hvendor)
  · next hvendor =>
    split
    · next hnone => exact iff_of_true (.ok _) (.inr (.inl (Option.isNone_iff_eq_none.mp hnone)))
    · next hsome =>
      rw [eachTarget_returns_iff fun adopted m => probing_returns hordinary m _ _]
      simp [not_not.mp hvendor, Option.isNone_iff_eq_none.not.mp hsome]

theorem checkSessionVarDisabled_returns (hordinary : FailsOrdinarily env) (h : Returns (checkRlsEnabled env)) :
    Returns (checkSessionVarDisabled env) := by
  rw [checkRlsEnabled_returns_iff hordinary] at h
  unfold checkSessionVarDisabled
  split
  · exact .ok _
  · split
    · exact .ok _
    · next hvendor =>
      split
      · exact .ok _
      · next hsome =>
        rw [eachTarget_returns_iff fun adopted m => probing_returns hordinary m _ _]
        rcases h with h | h | h
        · exact absurd h hvendor
        · exact absurd (Option.isNone_iff_eq_none.mpr h) hsome
        · exact h

theorem checkRlsBypassable_returns (hordinary : FailsOrdinarily env) : Returns (checkRlsBypassable env) := by
  unfold checkRlsBypassable
  split
  · exact .ok _
  · split
    · next e he =>
      split
      · exact .ok _
      · rw [if_pos (hordinary.role e he)]
        exact .ok _
    · exact .ok _
    · split
      · exact .ok _
      · exact .ok _

theorem checkExpected_returns (hordinary : FailsOrdinarily env) (expectedType : String) (models : List AppModel) :
    Returns (checkExpected env expectedType models) :=
  .extendEach fun m _ => by
    split
    · exact .ok _
    · next e he =>
      split
      · exact .ok _
      · rw [if_pos (hordinary.adopted _ e he)]
        exact .ok _

theorem checkAdoptedTables_returns (hordinary : FailsOrdinarily env) (hmodel : env.getTenantModel ≠ .error valueError)
    (h : Returns (checkRlsEnabled env)) : Returns (checkAdoptedTables env) := by
  have hcaught : ∀ e, env.getTenantModel = .error e → e = improperlyConfigured ∨ e = lookupError := by
    intro e he
    rcases getTenantModel_error he with ⟨rfl, -⟩ | ⟨rfl | rfl, -⟩
    · exact .inl rfl
    · exact .inr rfl
    · exact absurd he hmodel
  have hsettings : Returns (checkAdoptedSettings env) := by
    unfold checkAdoptedSettings
    extract_lets refused
    split
    · exact .ok _
    · refine Returns.bind ?_ fun tenantLabel _ => .ok _
      unfold CheckEnv.tenantLabel?
      split
      · exact .ok _
      · next e he =>
        rw [if_pos (hcaught e he)]
        exact .ok _
  rw [checkRlsEnabled_returns_iff hordinary] at h
  refine hsettings.bind fun errors _ => ?_
  simp only
  split
  · exact .ok _
  · next hvendor =>
    split
    · exact .ok _
    · next hsome =>
      have hexpected : Returns env.expectedAdoptedTables := by
        rcases h with h | h | h
        · exact absurd h hvendor
        · exact absurd (Option.isNone_iff_eq_none.mpr h) hsome
        · exact h
      refine hexpected.bind fun expected _ => ?_
      split
      · exact .ok _
      · split
        · next e he =>
          rw [if_pos (hcaught e he)]
          exact .ok _
        · exact (checkExpected_returns hordinary _ _).bind fun found _ => .ok _

/-! ## The check -/

/-- A model that is set, as a dotted pair, and not installed: nothing looks for it
in the database. -/
def SearchCaught (env : CheckEnv δ) : Prop :=
  env.getTenantModel = .error lookupError ∧ (env.vendor ≠ .postgresql ∨ env.listedApps = [])

/-- The check returns where the tenant model is there, is not set, or is not
installed and nothing is to be adopted on PostgreSQL; and then it reports that
the model is missing where it is. -/
theorem checkBoundaryConfiguration_returns_iff (hordinary : FailsOrdinarily env) :
    (Returns (checkBoundaryConfiguration env) ↔
      (∃ tenant, env.getTenantModel = .ok tenant) ∨ env.settings.tenantModelString = .none ∨ SearchCaught env) ∧
    ∀ msgs, checkBoundaryConfiguration env = .ok msgs →
      (reportsOf "boundary.E001" msgs = [] ↔ ∃ tenant, env.getTenantModel = .ok tenant) := by
  refine ⟨⟨fun hreturns => ?_, fun hwhen => ?_⟩, fun msgs h => ?_⟩
  · obtain ⟨msgs, h⟩ := hreturns
    obtain ⟨_, _, _, _, _, hprobed⟩ := checkBoundaryConfiguration_ok h
    cases hmodel : env.getTenantModel with
    | ok tenant => exact .inl ⟨tenant, rfl⟩
    | error e =>
      rcases getTenantModel_error hmodel with ⟨-, hnone⟩ | ⟨rfl | rfl, hsome⟩
      · exact .inr (.inl hnone)
      · refine .inr (.inr ⟨hmodel, ?_⟩)
        rcases (checkRlsEnabled_returns_iff hordinary).mp ⟨_, hprobed.rls⟩ with hvendor | hnone | hexpected
        · exact .inl hvendor
        · rw [hnone] at hsome
          cases hsome
        · rcases expectedAdoptedTables_returns_iff.mp hexpected with hlisted | ⟨tenant, htenant⟩ | hnone
          · exact .inr hlisted
          · rw [hmodel] at htenant
            cases htenant
          · rw [hnone] at hsome
            cases hsome
      · exact absurd hmodel (checkTenantModel_returns_iff.mp ⟨_, hprobed.model⟩)
  · have hmodel : env.getTenantModel ≠ .error valueError := by
      intro hvalue
      rcases hwhen with ⟨tenant, htenant⟩ | hnone | ⟨hlookup, -⟩
      · rw [hvalue] at htenant
        cases htenant
      · simp [CheckEnv.getTenantModel, hnone, improperlyConfigured, valueError] at hvalue
      · rw [hvalue] at hlookup
        simp [lookupError, valueError] at hlookup
    have hrls : Returns (checkRlsEnabled env) := by
      rw [checkRlsEnabled_returns_iff hordinary, expectedAdoptedTables_returns_iff]
      rcases hwhen with htenant | hnone | ⟨-, hvendor | hlisted⟩
      · exact .inr (.inr (.inr (.inl htenant)))
      · exact .inr (.inl hnone)
      · exact .inl hvendor
      · exact .inr (.inr (.inl hlisted))
    exact (checkTenantModel_returns_iff.mpr hmodel).bind fun _ _ => (checkResolvers_returns hordinary).bind fun _ _ =>
      (checkMiddleware_returns hordinary).bind fun _ _ => hrls.bind fun _ _ =>
      (checkRlsBypassable_returns hordinary).bind fun _ _ =>
      (checkClientControlledResolver_returns hordinary).bind fun _ _ =>
      (checkRegionalRouter_returns hordinary).bind fun _ _ => (checkSubdomainResolver_returns hordinary).bind fun _ _ =>
      (checkSessionVarDisabled_returns hordinary hrls).bind fun _ _ =>
      (checkAdoptedTables_returns hordinary hmodel hrls).bind fun _ _ => .ok _
  · obtain ⟨_, _, _, _, _, hprobed⟩ := checkBoundaryConfiguration_ok h
    rw [hprobed.reports_e001, reports_e001 hprobed.model]

/-- The shop's settings, the tenant model apart. -/
def tenantModelOf (name : String) : CheckSettings := { shopSettings with boundaryTenantModel := .some name }

theorem checkedShop_failsOrdinarily (name : String) (catalogue : Catalogue Nat) :
    FailsOrdinarily (checkedShop (tenantModelOf name) catalogue) where
  imports path e h := by
    simp only [checkedShop] at h
    split at h
    · cases h
    · exact (Except.error.inj h).symm
  resolvers path hpath h := by
    simp only [checkedShop] at h
    split at h
    · cases h
    · cases h
  probes _ _ := nofun
  adopted _ _ := nofun
  role _ := nofun

/-- With its tenant model the shop's check returns, and reports nothing of it;
with one that is not installed it raises, as there is a table to adopt. -/
theorem checkBoundaryConfiguration_returns_iff_shop :
    (∃ msgs, checkBoundaryConfiguration (checkedShop (tenantModelOf "accounts.Tenant") forcedWidgets) = .ok msgs ∧
        reportsOf "boundary.E001" msgs = []) ∧
      ¬ Returns (checkBoundaryConfiguration (checkedShop (tenantModelOf "accounts.Merchant") forcedWidgets)) := by
  constructor
  · obtain ⟨hreturns, hsilent⟩ :=
      checkBoundaryConfiguration_returns_iff (checkedShop_failsOrdinarily "accounts.Tenant" forcedWidgets)
    obtain ⟨msgs, hcheck⟩ := hreturns.mpr (.inl ⟨shopTenant, rfl⟩)
    exact ⟨msgs, hcheck, (hsilent msgs hcheck).mpr ⟨shopTenant, rfl⟩⟩
  · intro hreturns
    have hwhen := (checkBoundaryConfiguration_returns_iff
      (checkedShop_failsOrdinarily "accounts.Merchant" forcedWidgets)).1.mp hreturns
    rcases hwhen with ⟨tenant, htenant⟩ | hnone | ⟨-, hvendor | hlisted⟩
    · cases htenant
    · cases hnone
    · exact hvendor rfl
    · exact absurd hlisted (by decide)

end Boundary
