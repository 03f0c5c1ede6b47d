/-
Condition 6 of `boundary.E007`: each error names an entry of
`BOUNDARY_TENANT_APPS` or of `BOUNDARY_ADOPT_EXCLUDE` that does nothing. With
these entries gone nothing is reported, and the same models are adopted.
-/
import Boundary.CheckFacts

namespace Boundary

open Exec

variable {δ : Type} {env : CheckEnv δ} {tenantLabel : Option String}

/-- App labels are identifiers, and models carry their app's. -/
structure LabelledApps (apps : Apps) : Prop where
  identifier : ∀ appLabel, (apps.models appLabel).isSome = true → '.' ∉ appLabel.toList
  carried : ∀ appLabel models, apps.models appLabel = .some models → ∀ m ∈ models, m.appLabel = appLabel

/-- The entries of `BOUNDARY_ADOPT_EXCLUDE` of which nothing is reported. -/
def CheckEnv.keptExclude (env : CheckEnv δ) (tenantLabel : Option String) : List String :=
  env.settings.adoptExclude.filter fun entry => (excludeErrors tenantLabel env.listedApps entry).isEmpty

/-- The settings without the entries reported. -/
def CheckEnv.withoutReported (env : CheckEnv δ) (tenantLabel : Option String) : CheckEnv δ :=
  { env with settings := { env.settings with
      tenantApps := env.listedApps
      adoptExclude := env.keptExclude tenantLabel } }

/-! ## The app an entry names -/

/-- A model's label names its app. -/
theorem entryApp_label {m : AppModel} (hlabel : '.' ∉ m.appLabel.toList) : entryApp m.label = m.appLabel := by
  have hpos : ∀ c ∈ m.appLabel.toList, decide (c ≠ '.') = true := fun c hc =>
    decide_eq_true fun h => hlabel (h ▸ hc)
  unfold entryApp AppModel.label
  rw [String.toList_append, String.toList_append, List.append_assoc, List.takeWhile_append_of_pos hpos]
  simp

/-- An entry that names a model of a listed app is reported only where the model
is the tenant's. -/
theorem label_kept {m : AppModel} {appLabel : String} (hlabels : LabelledApps env.apps)
    (hlisted : appLabel ∈ env.listedApps) (hm : m ∈ (env.apps.models appLabel).getD [])
    (htenant : .some m.label ≠ tenantLabel) :
    m.label ∈ env.keptExclude tenantLabel ↔ m.label ∈ env.settings.adoptExclude := by
  obtain ⟨models, hmodels⟩ : ∃ models, env.apps.models appLabel = .some models := by
    cases hmodels : env.apps.models appLabel with
    | none =>
      rw [hmodels] at hm
      exact absurd hm List.not_mem_nil
    | some models => exact ⟨models, rfl⟩
  rw [hmodels] at hm
  obtain rfl := hlabels.carried appLabel models hmodels m hm
  have hidentifier := hlabels.identifier m.appLabel (by rw [hmodels]; rfl)
  have hnothing : excludeErrors tenantLabel env.listedApps m.label = [] := by
    rw [excludeErrors, if_neg htenant, entryApp_label hidentifier, if_pos hlisted]
  simp [CheckEnv.keptExclude, hnothing]

/-! ## The same set -/

theorem listedApps_withoutReported : (env.withoutReported tenantLabel).listedApps = env.listedApps := by
  unfold CheckEnv.listedApps CheckEnv.withoutReported
  simp [CheckEnv.listedApps]

theorem tenantLabel?_of_ok {tenant : AppModel} (h : env.getTenantModel = .ok tenant) :
    env.tenantLabel? = .ok (.some tenant.label) := by
  rw [CheckEnv.tenantLabel?, h]

/-- An app that is listed has the same models adopted. -/
theorem adoptedModels_withoutReported (tenant : AppModel) {appLabel : String} (hlabels : LabelledApps env.apps)
    (hlisted : appLabel ∈ env.listedApps) :
    adoptedModels ((env.withoutReported (.some tenant.label)).adoption tenant) env.apps appLabel env.apps [] =
      adoptedModels (env.adoption tenant) env.apps appLabel env.apps [] := by
  unfold adoptedModels
  refine List.filter_congr fun m hm => ?_
  have hthrough : tenantThroughLabels ((env.withoutReported (.some tenant.label)).adoption tenant) env.apps =
      tenantThroughLabels (env.adoption tenant) env.apps := rfl
  have htenantLabel : ((env.withoutReported (.some tenant.label)).adoption tenant).tenantLabel = tenant.label := rfl
  have htenantLabel' : (env.adoption tenant).tenantLabel = tenant.label := rfl
  rw [hthrough, htenantLabel, htenantLabel', List.append_nil, List.append_nil]
  by_cases htenant : m.label = tenant.label
  · simp [htenant]
  · have hsame : m.label ∈ ((env.withoutReported (.some tenant.label)).adoption tenant).adoptExclude ↔
        m.label ∈ (env.adoption tenant).adoptExclude :=
      label_kept hlabels hlisted hm fun h => htenant (Option.some.inj h)
    simp only [hsame]

theorem adoptedOf_withoutReported (hlabels : LabelledApps env.apps) (htenant : env.tenantLabel? = .ok tenantLabel)
    (models : List AppModel) (appLabels : List String) (hsub : appLabels ⊆ env.listedApps) :
    (env.withoutReported tenantLabel).adoptedOf models appLabels = env.adoptedOf models appLabels := by
  induction appLabels generalizing models with
  | nil => rfl
  | cons appLabel appLabels ih =>
    rw [CheckEnv.adoptedOf, CheckEnv.adoptedOf]
    have hmodel : (env.withoutReported tenantLabel).getTenantModel = env.getTenantModel := rfl
    rw [hmodel]
    cases htenantModel : env.getTenantModel with
    | error e => rfl
    | ok tenant =>
      obtain rfl := Except.ok.inj ((tenantLabel?_of_ok htenantModel).symm.trans htenant)
      have hadopted := adoptedModels_withoutReported tenant hlabels (hsub List.mem_cons_self)
      show (env.withoutReported (.some tenant.label)).adoptedOf (List.foldl _ models (adoptedModels
        ((env.withoutReported (.some tenant.label)).adoption tenant) env.apps appLabel env.apps [])) appLabels = _
      rw [hadopted]
      exact ih _ (List.subset_of_cons_subset hsub)

/-! ## The errors -/

theorem excludeErrors_length (listedApps : List String) (entry : String) :
    (excludeErrors tenantLabel listedApps entry).length =
      if (excludeErrors tenantLabel listedApps entry).isEmpty then 0 else 1 := by
  unfold excludeErrors
  split
  · rfl
  · split
    · rfl
    · rfl

theorem length_flatMap_excludeErrors (tenantLabel : Option String) (listedApps entries : List String) :
    (entries.flatMap (excludeErrors tenantLabel listedApps)).length +
      (entries.filter fun entry => (excludeErrors tenantLabel listedApps entry).isEmpty).length = entries.length := by
  induction entries with
  | nil => rfl
  | cons entry entries ih =>
    rw [List.flatMap_cons, List.length_append, excludeErrors_length, List.filter_cons, List.length_cons, ← ih]
    split
    · simp
      omega
    · omega

theorem length_refused (apps : Apps) (appLabels : List String) :
    (appLabels.filterMap fun appLabel => (refusalReason appLabel apps).map (appRefused appLabel)).length +
      (appLabels.filter fun appLabel => (refusalReason appLabel apps).isNone).length = appLabels.length := by
  induction appLabels with
  | nil => rfl
  | cons appLabel appLabels ih =>
    rw [List.filterMap_cons, List.filter_cons, List.length_cons, ← ih]
    cases refusalReason appLabel apps with
    | none =>
      simp
      omega
    | some refusal =>
      simp
      omega

theorem checkAdoptedSettings_ok {errors : List CheckError} (htenant : env.tenantLabel? = .ok tenantLabel)
    (h : checkAdoptedSettings env = .ok errors) :
    errors = (env.settings.tenantApps.filterMap fun appLabel =>
        (refusalReason appLabel env.apps).map (appRefused appLabel)) ++
      env.settings.adoptExclude.flatMap (excludeErrors tenantLabel env.listedApps) := by
  unfold checkAdoptedSettings at h
  extract_lets refused at h
  split at h
  · next hempty =>
    rw [List.isEmpty_iff.mp hempty, List.flatMap_nil, List.append_nil]
    exact (Except.ok.inj h).symm
  · rw [htenant] at h
    exact (Except.ok.inj h).symm

/-- Without the entries that condition 6 reports, one for each error, nothing is
reported and the same models are expected to be adopted. -/
theorem withoutReported_adopts (hlabels : LabelledApps env.apps) (htenant : env.tenantLabel? = .ok tenantLabel) :
    checkAdoptedSettings (env.withoutReported tenantLabel) = .ok [] ∧
      (env.withoutReported tenantLabel).expectedAdoptedModels = env.expectedAdoptedModels ∧
      ∀ errors, checkAdoptedSettings env = .ok errors →
        errors.length + (env.listedApps.length + (env.keptExclude tenantLabel).length) =
          env.settings.tenantApps.length + env.settings.adoptExclude.length := by
  refine ⟨?_, ?_, fun errors herrors => ?_⟩
  · have hrefused : (env.listedApps.filterMap fun appLabel =>
        (refusalReason appLabel env.apps).map (appRefused appLabel)) = [] := by
      refine List.filterMap_eq_nil_iff.mpr fun appLabel hlisted => ?_
      have hnone := List.of_mem_filter hlisted
      rw [Option.isNone_iff_eq_none.mp hnone]
      rfl
    have hexclude : (env.keptExclude tenantLabel).flatMap (excludeErrors tenantLabel env.listedApps) = [] := by
      refine List.flatMap_eq_nil_iff.mpr fun entry hentry => ?_
      exact List.isEmpty_iff.mp (List.mem_filter.mp hentry).2
    have hlabel : (env.withoutReported tenantLabel).tenantLabel? = .ok tenantLabel := htenant
    unfold checkAdoptedSettings
    rw [listedApps_withoutReported, hlabel]
    show (if (env.keptExclude tenantLabel).isEmpty = true then Except.ok (env.listedApps.filterMap _)
      else Except.ok ((env.listedApps.filterMap _) ++ (env.keptExclude tenantLabel).flatMap _)) = _
    rw [hexclude, List.append_nil, ite_self]
    exact congrArg Except.ok hrefused
  · rw [CheckEnv.expectedAdoptedModels, CheckEnv.expectedAdoptedModels, listedApps_withoutReported]
    exact adoptedOf_withoutReported hlabels htenant [] _ (List.Subset.refl _)
  · rw [checkAdoptedSettings_ok htenant herrors, List.length_append]
    have hrefused := length_refused env.apps env.settings.tenantApps
    have hexclude := length_flatMap_excludeErrors tenantLabel env.listedApps env.settings.adoptExclude
    unfold CheckEnv.keptExclude
    unfold CheckEnv.listedApps at hexclude ⊢
    omega

/-! ## The shop -/

/-- Settings with three entries that do nothing. -/
def clutteredSettings : CheckSettings :=
  { shopSettings with
    tenantApps := ["shop", "sites"]
    adoptExclude := ["accounts.Tenant", "blog.Post", "shop.Coupon"] }

theorem checkedShop_labelled (settings : CheckSettings) (catalogue : Catalogue Nat) :
    LabelledApps (checkedShop settings catalogue).apps where
  identifier appLabel h := by
    simp only [checkedShop] at h
    split at h
    · next hlabel => subst hlabel; decide
    · split at h
      · next hlabel => subst hlabel; decide
      · cases h
  carried appLabel models h m hm := by
    simp only [checkedShop] at h
    split at h
    · next hlabel =>
      obtain rfl := Option.some.inj h
      rw [List.mem_singleton.mp hm, hlabel]
      rfl
    · split at h
      · next hlabel =>
        obtain rfl := Option.some.inj h
        rw [List.mem_singleton.mp hm, hlabel]
        rfl
      · cases h

theorem withoutReported_adopts_shop :
    ∃ errors, checkAdoptedSettings (checkedShop clutteredSettings forcedWidgets) = .ok errors ∧ errors.length = 3 ∧
      checkAdoptedSettings ((checkedShop clutteredSettings forcedWidgets).withoutReported (.some "accounts.Tenant")) =
        .ok [] ∧
      ((checkedShop clutteredSettings forcedWidgets).withoutReported (.some "accounts.Tenant")).expectedAdoptedModels =
        (checkedShop clutteredSettings forcedWidgets).expectedAdoptedModels := by
  obtain ⟨hnone, hsame, hcount⟩ := withoutReported_adopts (checkedShop_labelled clutteredSettings forcedWidgets)
    (show (checkedShop clutteredSettings forcedWidgets).tenantLabel? = .ok (.some "accounts.Tenant") from rfl)
  obtain ⟨errors, herrors⟩ :
      ∃ errors, checkAdoptedSettings (checkedShop clutteredSettings forcedWidgets) = .ok errors :=
    except_exists_of_isOk rfl
  have hlisted : (checkedShop clutteredSettings forcedWidgets).listedApps.length = 1 := by decide
  have hkept : ((checkedShop clutteredSettings forcedWidgets).keptExclude (.some "accounts.Tenant")).length = 1 := by
    decide
  have hlength := hcount errors herrors
  rw [hlisted, hkept] at hlength
  exact ⟨errors, herrors, by simpa [checkedShop, clutteredSettings] using hlength, hnone, hsame⟩

end Boundary
