/-
The through models that keep the tenant model's many-to-many fields, and which
of them an app's adoption leaves global.

A registry is reflected as Django reflects one: `get_fields()` of a model yields
the fields it declares or inherits, and the relation objects of the fields that
target it. The `remote_field` of a field is its relation object, which has the
through model; that of a relation object is the field, which has none.
-/
import Boundary.Adoption

namespace Boundary

/-! ## Reflection -/

/-- A `ManyToManyField`; models are named by their labels. -/
structure ManyToManyField where
  name : String
  /-- The model that declares it. -/
  model : String
  /-- The model it targets. -/
  related : String
  through : String
  /-- Its `related_name` ends with `+`. -/
  hidden : Bool := false
deriving DecidableEq

/-- What `get_fields()` yields. -/
inductive FieldObject where
  | column (name : String)
  | foreignKey (name : String)
  | manyToOneRel (name : String)
  | manyToManyField (field : ManyToManyField)
  | manyToManyRel (field : ManyToManyField)

namespace FieldObject

/-- `remote_field`. -/
def remoteField : FieldObject → Option FieldObject
  | column _ => .none
  | foreignKey name => .some (manyToOneRel name)
  | manyToOneRel name => .some (foreignKey name)
  | manyToManyField field => .some (manyToManyRel field)
  | manyToManyRel field => .some (manyToManyField field)

/-- `through`, which a `ManyToManyRel` has. -/
def through : FieldObject → Option String
  | manyToManyRel field => .some field.through
  | _ => .none

end FieldObject

/-- A field with no through model to its relation. -/
inductive PlainField where
  | column (name : String)
  | foreignKey (name : String)
  | manyToOneRel (name : String)

def PlainField.object : PlainField → FieldObject
  | column name => .column name
  | foreignKey name => .foreignKey name
  | manyToOneRel name => .manyToOneRel name

/-- A registry of apps, live or of a migration state, with its relations. -/
structure Registry where
  models : String → Option (List AppModel)
  manyToMany : List ManyToManyField
  /-- `through._meta.auto_created`. -/
  autoCreated : String → Bool
  /-- The models a model inherits the fields of. -/
  parents : String → List String := fun _ => []
  plainFields : String → List PlainField := fun _ => []

namespace Registry

def lineage (r : Registry) (label : String) : List String := label :: r.parents label

/-- `get_fields()`: what targets a model, and what it declares or inherits. -/
def getFields (r : Registry) (label : String) : List FieldObject :=
  (r.manyToMany.filter fun f => f.related ∈ r.lineage label && !f.hidden).map .manyToManyRel ++
    (r.plainFields label).map PlainField.object ++
    (r.manyToMany.filter fun f => f.model ∈ r.lineage label).map .manyToManyField

/-- The models, as adoption reflects on them. -/
def apps (r : Registry) : Apps where
  models appLabel := (r.models appLabel).map (List.map fun m =>
    { m with remoteThroughs := (r.getFields m.label).map fun object =>
        (object.remoteField.bind FieldObject.through).map fun through => (through, r.autoCreated through) })

end Registry

/-! ## What stays global -/

/-- One end of the field is the model, and its through model is created for it. -/
structure ManyToManyField.LinksTo (f : ManyToManyField) (r : Registry) (label : String) : Prop where
  declared : f ∈ r.manyToMany
  linked : f.model = label ∨ f.related = label
  autoCreated : r.autoCreated f.through = true

/-- What adoption would cover, were it no through model of the tenant's. -/
def OtherwiseAdopted (conf : AdoptionSettings) (live : Apps) (apps : Apps) (appLabel : String) (exclude : List String)
    (m : AppModel) : Prop :=
  m ∈ (apps.models appLabel).getD [] ∧ m.isAbstract = false ∧ m.isProxy = false ∧
    m.label ∉ conf.adoptExclude ++ exclude ∧ m.label ≠ conf.tenantLabel ∧ m.label ∉ deniedModels ∧
    m.dbTable ∉ deniedTables ∧ isAlreadyScoped live m = false

/-- The tenant model itself declares, or inherits, a field with the through model. -/
def ThroughOfTenant (r : Registry) (tenant through : String) : Prop :=
  ∃ f ∈ r.manyToMany, f.model ∈ r.lineage tenant ∧ f.through = through

section

variable {conf : AdoptionSettings} {live : Apps} {r : Registry} {appLabel : String} {exclude : List String}
  {tenant m : AppModel} {f : ManyToManyField} {through : String} {apps : Apps}

theorem mem_getFields_through {label : String} :
    (∃ object ∈ r.getFields label, object.remoteField.bind FieldObject.through = .some through) ↔
      ThroughOfTenant r label through := by
  unfold Registry.getFields ThroughOfTenant
  constructor
  · intro ⟨object, hobject, hthrough⟩
    rcases List.mem_append.mp hobject with hobject | hobject
    · rcases List.mem_append.mp hobject with hreverse | hplain
      -- the remote field of a relation object is the field
      · obtain ⟨f, -, rfl⟩ := List.mem_map.mp hreverse
        cases hthrough
      · obtain ⟨plain, -, rfl⟩ := List.mem_map.mp hplain
        cases plain <;> cases hthrough
    · obtain ⟨f, hf, rfl⟩ := List.mem_map.mp hobject
      obtain ⟨hdeclared, hmodel⟩ := List.mem_filter.mp hf
      exact ⟨f, hdeclared, by simpa using hmodel, Option.some.inj hthrough⟩
  · intro ⟨f, hf, hmodel, hthrough⟩
    refine ⟨.manyToManyField f, List.mem_append_right _ (List.mem_map_of_mem ?_), congrArg Option.some hthrough⟩
    exact List.mem_filter.mpr ⟨hf, by simpa using hmodel⟩

/-- A model of the registry reflects its own fields. -/
theorem remoteThroughs_of_getModel {name : String} (h : r.apps.getModel appLabel name = .some m) :
    m.remoteThroughs = (r.getFields m.label).map fun object =>
      (object.remoteField.bind FieldObject.through).map fun through => (through, r.autoCreated through) := by
  obtain ⟨models, hmodels, hfind⟩ := Option.bind_eq_some_iff.mp h
  obtain ⟨declared, -, rfl⟩ := Option.map_eq_some_iff.mp hmodels
  obtain ⟨model, -, rfl⟩ := List.mem_map.mp (List.mem_of_find?_eq_some hfind)
  rfl

theorem mem_tenantThroughLabels_iff (htenant : r.apps.getModel conf.tenantAppLabel conf.tenantName = .some tenant) :
    through ∈ tenantThroughLabels conf r.apps ↔ ThroughOfTenant r tenant.label through ∧ r.autoCreated through = true := by
  unfold tenantThroughLabels
  rw [htenant, ← mem_getFields_through]
  simp only [remoteThroughs_of_getModel htenant, List.mem_filterMap, List.mem_map]
  constructor
  · rintro ⟨_, ⟨object, hobject, rfl⟩, hlabel⟩
    obtain ⟨⟨found, created⟩, hfound, hlabel⟩ := Option.bind_eq_some_iff.mp hlabel
    obtain ⟨_, hthrough, hpair⟩ := Option.map_eq_some_iff.mp hfound
    cases hpair
    split at hlabel
    next hcreated =>
      cases hlabel
      exact ⟨⟨object, hobject, hthrough⟩, hcreated⟩
    · cases hlabel
  · rintro ⟨⟨object, hobject, hthrough⟩, hcreated⟩
    exact ⟨_, ⟨object, hobject, rfl⟩, by simp [hthrough, hcreated]⟩

theorem mem_adoptedModels_iff :
    m ∈ adoptedModels conf live appLabel apps exclude ↔
      OtherwiseAdopted conf live apps appLabel exclude m ∧ m.label ∉ tenantThroughLabels conf apps := by
  simp only [adoptedModels, OtherwiseAdopted, List.mem_filter, Bool.and_eq_true, Bool.not_eq_true', Bool.or_eq_false_iff,
    decide_eq_true_eq, decide_eq_false_iff_not]
  tauto

/-- A through model of the tenant's is not adopted where the tenant model
declares a field with it, and where nothing would adopt it. -/
theorem through_not_adopted_iff (conf : AdoptionSettings) (live : Apps) (r : Registry) (appLabel : String)
    (exclude : List String) (htenant : r.apps.getModel conf.tenantAppLabel conf.tenantName = .some tenant)
    (hlinks : f.LinksTo r tenant.label) :
    (∀ m ∈ adoptedModels conf live appLabel r.apps exclude, m.label ≠ f.through) ↔
      ThroughOfTenant r tenant.label f.through ∨
        ∀ m, m.label = f.through → ¬ OtherwiseAdopted conf live r.apps appLabel exclude m := by
  constructor
  · intro hglobal
    by_cases hdeclared : ThroughOfTenant r tenant.label f.through
    · exact .inl hdeclared
    · refine .inr fun m hlabel hadopted => hglobal m (mem_adoptedModels_iff.mpr ⟨hadopted, fun hmem => ?_⟩) hlabel
      rw [hlabel] at hmem
      exact hdeclared ((mem_tenantThroughLabels_iff htenant).mp hmem).1
  · intro hwhen m hm hlabel
    obtain ⟨hadopted, hthrough⟩ := mem_adoptedModels_iff.mp hm
    rcases hwhen with hdeclared | hnot
    · rw [hlabel] at hthrough
      exact hthrough ((mem_tenantThroughLabels_iff htenant).mpr ⟨hdeclared, hlinks.autoCreated⟩)
    · exact hnot m hlabel hadopted

end

/-! ## Both ends -/

namespace BothEnds

/-- `Tenant.members`, which the tenant model declares. -/
def members : ManyToManyField := ⟨"members", "accounts.Tenant", "accounts.Member", "accounts.Tenant_members", false⟩

/-- `Widget.tenants`, which it is the target of. -/
def tenants : ManyToManyField := ⟨"tenants", "shop.Widget", "accounts.Tenant", "shop.Widget_tenants", false⟩

def registry : Registry where
  models appLabel :=
    if appLabel = "accounts" then
      .some [{ appLabel := "accounts", name := "Tenant", dbTable := "accounts_tenant" },
        { appLabel := "accounts", name := "Member", dbTable := "accounts_member" },
        { appLabel := "accounts", name := "Tenant_members", dbTable := "accounts_tenant_members" }]
    else if appLabel = "shop" then
      .some [{ appLabel := "shop", name := "Widget", dbTable := "shop_widget" },
        { appLabel := "shop", name := "Widget_tenants", dbTable := "shop_widget_tenants" }]
    else .none
  manyToMany := [members, tenants]
  autoCreated label := label ∈ [members.through, tenants.through]

def tenantSettings : AdoptionSettings :=
  { tenantModel := "accounts.Tenant", tenantAppLabel := "accounts", tenantName := "Tenant" }

/-- The tenant model of the registry. -/
theorem getModel_tenant : ∃ tenant,
    registry.apps.getModel tenantSettings.tenantAppLabel tenantSettings.tenantName = .some tenant ∧
    tenant.label = "accounts.Tenant" := by
  have hlabel : (registry.apps.getModel tenantSettings.tenantAppLabel tenantSettings.tenantName).map AppModel.label =
      .some "accounts.Tenant" := by decide +kernel
  exact Option.map_eq_some_iff.mp hlabel

theorem linksTo_tenant : members.LinksTo registry "accounts.Tenant" ∧ tenants.LinksTo registry "accounts.Tenant" := by
  refine ⟨⟨by decide, by decide, by decide +kernel⟩, ⟨by decide, by decide, by decide +kernel⟩⟩

/-- What the tenant model declares stays global. -/
theorem members_not_adopted :
    members.through ∉ (adoptedModels tenantSettings registry.apps "accounts" registry.apps []).map AppModel.label := by
  intro hadopted
  obtain ⟨m, hm, hlabel⟩ := List.mem_map.mp hadopted
  obtain ⟨tenant, htenant, htenantLabel⟩ := getModel_tenant
  have hglobal := (through_not_adopted_iff tenantSettings registry.apps registry "accounts" [] htenant
    (htenantLabel ▸ linksTo_tenant.1)).mpr (.inl ⟨members, by decide, by rw [htenantLabel]; decide, rfl⟩)
  exact hglobal m hm hlabel

/-- What another declares does not. -/
theorem tenants_adopted :
    (∃ tenant, registry.apps.getModel tenantSettings.tenantAppLabel tenantSettings.tenantName = .some tenant ∧
      tenants.LinksTo registry tenant.label) ∧
    ∃ m ∈ adoptedModels tenantSettings registry.apps "shop" registry.apps [], m.label = tenants.through := by
  constructor
  · obtain ⟨tenant, htenant, hlabel⟩ := getModel_tenant
    exact ⟨tenant, htenant, hlabel ▸ linksTo_tenant.2⟩
  · have hlabels : tenants.through ∈
        (adoptedModels tenantSettings registry.apps "shop" registry.apps []).map AppModel.label := by
      decide +kernel
    exact List.mem_map.mp hlabels

end BothEnds

end Boundary
