/-
`boundary.models.validate_cross_tenant_fks`, and exactly when it finds the
references that cross tenants and no others.

It walks the model's fields and looks every target up by its primary key. A
field with `to_field` holds another column of its target, and a one-to-one
field is not `many_to_one`; what follows from these is part of the condition.
`ModelClass` reads the key a value denotes; what an unsuitable value raises
is a `conversion`, whatever its type.
-/
import Boundary.Models

namespace Boundary

/-! ## Fields -/

/-- What `get_fields()` returns. -/
inductive FieldClass where
  | foreignKey
  | oneToOneField
  | genericForeignKey
  /-- Plain, reverse and many-to-many fields. -/
  | other
deriving DecidableEq

namespace FieldClass

def manyToOne : FieldClass → Bool
  | foreignKey | genericForeignKey => true
  | oneToOneField | other => false

/-- `isinstance(field, models.ForeignKey)`: `OneToOneField` is a subclass. -/
def isForeignKey : FieldClass → Bool
  | foreignKey | oneToOneField => true
  | genericForeignKey | other => false

end FieldClass

structure MetaField where
  name : String
  cls : FieldClass := .foreignKey
  /-- `none` is the string of a relation that is not resolved. -/
  relatedModel : Option ModelClass := .none
  /-- The column of the target the field holds. -/
  toField : String := "id"

def MetaField.attname (f : MetaField) : String := f.name ++ "_id"

/-- `_meta.get_fields()`. -/
structure MetaFields where
  fields : List MetaField
  names : (fields.map MetaField.name).Nodup := by simp

/-- The rows of the models, by the model's name. -/
structure Tables where
  rows : String → List Row
  pks : ∀ name, ((rows name).map Row.pk).Nodup

/-- What `validate_cross_tenant_fks` raises. -/
inductive CleanError where
  /-- `ValidationError` of a dictionary. -/
  | validationError (errors : List (String × List String))
  /-- What a lookup makes of a value that no primary key is read from. -/
  | conversion
deriving DecidableEq

/-- `getattr(instance, name, None)`. -/
def Instance.getattr (m : ModelClass) (obj : Instance) (name : String) : Value :=
  if m.isFkId name then obj.tenantId
  else if name = m.pkField then
    match obj.pk with
    | .none => .null
    | .some pk => .key pk
  else (obj.columns.lookup name).getD .null

/-- `get_tenant_fk_field`. -/
def ModelClass.getTenantFkField (m : ModelClass) : Option String :=
  match m.boundaryTenantPath with
  | .none | .some "" => m.boundaryFkField
  | .some _ => .none

/-- `is_tenant_model`; `registry` is `_tenant_model_registry`. -/
def isTenantModel (registry : String → Bool) (m : ModelClass) : Bool :=
  registry m.name || (m.boundaryTenantPath.getD "" != "") || m.boundaryFkField.isSome

namespace CrossTenant

section

variable (st : Settings) (registry : String → Bool) (str : Value → String) (db : Tables) (m : ModelClass)
  (obj : Instance)

/-- `filter(pk=value).values_list(f"{target_fk_field}_id", flat=True).first()`. -/
def targetTenantId (target : ModelClass) (value : Value) : Except CleanError (Option PrimaryKey) :=
  match target.readKey value with
  | .none => .error .conversion
  | .some pk => .ok (((db.rows target.name).find? fun row => row.pk = pk).bind Row.tenant)

def message (field : String) (target : PrimaryKey) (own : Value) : String :=
  field ++ " belongs to a different " ++ st.tenantLabel ++ " (" ++ str (.key target) ++ ") than this " ++ m.name ++
    " (" ++ str own ++ ")."

/-- The body of the loop: the message for the field, if it gets one. -/
def checkField (ownFkField : String) (own : Value) (f : MetaField) : Except CleanError (Option String) :=
  if !(f.cls.manyToOne && f.cls.isForeignKey) then .ok .none
  else if f.name = ownFkField then .ok .none
  else
    match f.relatedModel with
    | .none => .ok .none
    | .some target =>
      if !(isTenantModel registry target && target.hasTenantColumn) then .ok .none
      else if obj.getattr m f.attname = .null then .ok .none
      else
        match targetTenantId db target (obj.getattr m f.attname) with
        | .error e => .error e
        -- The target row does not exist, or has no tenant.
        | .ok .none => .ok .none
        | .ok (.some tenant) =>
          if .key tenant = own then .ok .none else .ok (.some (message st str m f.name tenant own))

def checkFields (ownFkField : String) (own : Value) (errors : List (String × List String)) :
    List MetaField → Except CleanError (List (String × List String))
  | [] => .ok errors
  | f :: fs =>
    match checkField st registry str db m obj ownFkField own f with
    | .error e => .error e
    | .ok .none => checkFields ownFkField own errors fs
    | .ok (.some text) => checkFields ownFkField own (errors ++ [(f.name, [text])]) fs

def validateCrossTenantFks (fields : MetaFields) : Except CleanError Unit :=
  match m.getTenantFkField with
  | .none => .ok ()
  | .some ownFkField =>
    let own := obj.getattr m (ownFkField ++ "_id")
    if own = .null then .ok ()
    else
      match checkFields st registry str db m obj ownFkField own [] fields.fields with
      | .error e => .error e
      | .ok [] => .ok ()
      | .ok errors => .error (.validationError errors)

end

/-! ## What a reference is, and when one crosses -/

section

variable (db : Tables) (m : ModelClass) (obj : Instance)

/-- `value` in a field that holds the column `toField` references the row. -/
def References (target : ModelClass) (toField : String) (value : Value) (row : Row) : Prop :=
  if toField = target.pkField then target.readKey value = .some row.pk
  else ∃ keep, target.keyword toField value = .ok keep ∧ keep row = true

/-- The row is of a tenant other than the one `own` denotes. -/
def Foreign (own : Value) (row : Row) : Prop := ∃ t, row.tenant = .some t ∧ prepTenantId m own ≠ .ok (.some t)

/-- The field is a relation to a model with a tenant column, other than the
instance's own tenant, and holds `value`. -/
structure Points (f : MetaField) (target : ModelClass) (value : Value) : Prop where
  relation : f.cls.isForeignKey = true
  notOwn : f.name ≠ m.fkField
  related : f.relatedModel = .some target
  column : target.hasTenantColumn = true
  holds : obj.getattr m f.attname = value
  isSet : value ≠ .null

/-- The row the value references is another tenant's. -/
def RefersAbroad (f : MetaField) (target : ModelClass) (value : Value) : Prop :=
  ∃ row ∈ db.rows target.name, References target f.toField value row ∧ Foreign m obj.tenantId row

/-- The field holds a reference to another tenant's row. -/
def Crosses (f : MetaField) : Prop := ∃ target value, Points m obj f target value ∧ RefersAbroad db m obj f target value

/-- Raised with exactly the fields that cross, or nothing when there are none. -/
def Exact (fields : MetaFields) : Except CleanError Unit → Prop
  | .ok () => ∀ f ∈ fields.fields, ¬ Crosses db m obj f
  | .error (.validationError errors) =>
    errors ≠ [] ∧ ∀ name, name ∈ errors.map Prod.fst ↔ ∃ f ∈ fields.fields, f.name = name ∧ Crosses db m obj f
  | .error .conversion => False

/-- The row that has the key is of a tenant that the attribute does not hold
as it stands. -/
def KeyAbroad (target : ModelClass) (pk : PrimaryKey) : Prop :=
  ∃ row ∈ db.rows target.name, row.pk = pk ∧ ∃ t, row.tenant = .some t ∧ .key t ≠ obj.tenantId

/-- A one-to-one field references no other tenant's row; the value of a
foreign key is one a primary key is read from, and the row with that key is
another tenant's if and only if the referenced row is. -/
def Covered (f : MetaField) : Prop := ∀ target value, Points m obj f target value →
  (f.cls = .oneToOneField → ¬ RefersAbroad db m obj f target value) ∧
  (f.cls = .foreignKey → ∃ pk, target.readKey value = .some pk ∧
    (KeyAbroad db obj target pk ↔ RefersAbroad db m obj f target value))

end

/-! ## One field -/

section

variable {st : Settings} {registry : String → Bool} {str : Value → String} {db : Tables} {m : ModelClass}
  {obj : Instance}

theorem boundaryFkField_of_column {target : ModelClass} (h : target.hasTenantColumn = true) :
    target.boundaryFkField = .some target.fkField := by
  have hfk : target.boundaryFkField.isSome = true := by
    unfold ModelClass.hasTenantColumn at h
    split at h
    · exact h
    · exact h
    · cases h
  obtain ⟨fk, hfk⟩ := Option.isSome_iff_exists.mp hfk
  simp [ModelClass.fkField, hfk]

theorem boundaryTenantPath_of_column (h : m.hasTenantColumn = true) :
    m.boundaryTenantPath = .none ∨ m.boundaryTenantPath = .some "" := by
  unfold ModelClass.hasTenantColumn at h
  split at h
  next hpath => exact .inl hpath
  next hpath => exact .inr hpath
  · cases h

theorem getTenantFkField_of_column (h : m.hasTenantColumn = true) : m.getTenantFkField = .some m.fkField := by
  unfold ModelClass.getTenantFkField
  rcases boundaryTenantPath_of_column h with hpath | hpath <;> rw [hpath] <;> exact boundaryFkField_of_column h

theorem getattr_own (h : m.hasTenantColumn = true) : obj.getattr m (m.fkField ++ "_id") = obj.tenantId := by
  simp [Instance.getattr, ModelClass.isFkId, ModelClass.fkIdField, h]

theorem isTenantModel_of_column {target : ModelClass} (h : target.hasTenantColumn = true) :
    isTenantModel registry target = true := by
  simp [isTenantModel, boundaryFkField_of_column h]

/-- The row found by its key is the one the table has. -/
theorem find_pk {name : String} {row : Row} {pk : PrimaryKey} :
    ((db.rows name).find? fun row => row.pk = pk) = .some row ↔ row ∈ db.rows name ∧ row.pk = pk := by
  constructor
  · intro hfind
    exact ⟨List.mem_of_find?_eq_some hfind, by simpa using List.find?_some hfind⟩
  · rintro ⟨hmem, hpk⟩
    cases hfind : (db.rows name).find? fun row => row.pk = pk with
    | none =>
      rw [List.find?_eq_none] at hfind
      exact absurd (decide_eq_true hpk) (hfind row hmem)
    | some r =>
      have hr : r.pk = pk := by simpa using List.find?_some hfind
      rw [List.inj_on_of_nodup_map (db.pks name) (List.mem_of_find?_eq_some hfind) hmem (hr.trans hpk.symm)]

theorem keyAbroad_iff {target : ModelClass} {pk : PrimaryKey} :
    KeyAbroad db obj target pk ↔
      ∃ t, ((db.rows target.name).find? fun row => row.pk = pk).bind Row.tenant = .some t ∧ .key t ≠ obj.tenantId := by
  constructor
  · rintro ⟨row, hrow, hpk, t, ht, hown⟩
    exact ⟨t, by rw [find_pk.mpr ⟨hrow, hpk⟩]; exact ht, hown⟩
  · rintro ⟨t, ht, hown⟩
    obtain ⟨row, hfind, ht⟩ := Option.bind_eq_some_iff.mp ht
    obtain ⟨hrow, hpk⟩ := find_pk.mp hfind
    exact ⟨row, hrow, hpk, t, ht, hown⟩

/-- The walk looks at a field that points somewhere when it is a foreign key
and no more than that. -/
theorem checkField_foreignKey {f : MetaField} {target : ModelClass} {value : Value} (h : Points m obj f target value)
    (hcls : f.cls = .foreignKey) :
    checkField st registry str db m obj m.fkField obj.tenantId f =
      match targetTenantId db target value with
      | .error e => .error e
      | .ok .none => .ok .none
      | .ok (.some tenant) =>
        if .key tenant = obj.tenantId then .ok .none else .ok (.some (message st str m f.name tenant obj.tenantId)) := by
  unfold checkField
  simp [hcls, FieldClass.manyToOne, FieldClass.isForeignKey, h.notOwn, h.related, isTenantModel_of_column h.column,
    h.column, h.holds, h.isSet]

theorem checkField_skips {f : MetaField} (h : ∀ target value, Points m obj f target value → f.cls ≠ .foreignKey) :
    checkField st registry str db m obj m.fkField obj.tenantId f = .ok .none := by
  unfold checkField
  by_cases hcls : f.cls = .foreignKey
  · by_cases hname : f.name = m.fkField
    · simp [hname]
    · cases hrel : f.relatedModel with
      | none => simp
      | some target =>
        by_cases hcol : target.hasTenantColumn = true
        · by_cases hnull : obj.getattr m f.attname = .null
          · simp [hnull]
          · exact absurd hcls (h target _ ⟨by rw [hcls]; rfl, hname, hrel, hcol, rfl, hnull⟩)
        · simp [hcol]
  · have hwalk : (f.cls.manyToOne && f.cls.isForeignKey) = false := by
      cases hc : f.cls <;> first | rfl | exact absurd hc hcls
    simp [hwalk]

/-- A field points to one target, with one value. -/
theorem Points.unique {f : MetaField} {target target' : ModelClass} {value value' : Value}
    (h : Points m obj f target value) (h' : Points m obj f target' value') : target' = target ∧ value' = value :=
  ⟨Option.some.inj (h'.related.symm.trans h.related), h'.holds.symm.trans h.holds⟩

theorem crosses_iff {f : MetaField} {target : ModelClass} {value : Value} (h : Points m obj f target value) :
    Crosses db m obj f ↔ RefersAbroad db m obj f target value := by
  constructor
  · rintro ⟨target', value', h', habroad⟩
    obtain ⟨rfl, rfl⟩ := h.unique h'
    exact habroad
  · exact fun habroad => ⟨target, value, h, habroad⟩

/-- A plain foreign key is covered, when its value can be a primary key and
the instance holds its own tenant's key as the database gives it. -/
theorem covered_of_plain {f : MetaField} {own : PrimaryKey} (hown : obj.tenantId = .key own)
    (hcls : f.cls ≠ .oneToOneField)
    (hplain : ∀ target value, Points m obj f target value →
      f.toField = target.pkField ∧ (target.readKey value).isSome = true) : Covered db m obj f := by
  intro target value hp
  refine ⟨fun hone => absurd hone hcls, fun _ => ?_⟩
  obtain ⟨hto, hread⟩ := hplain target value hp
  obtain ⟨pk, hread⟩ := Option.isSome_iff_exists.mp hread
  refine ⟨pk, hread, ?_⟩
  have hrefers : ∀ row, References target f.toField value row ↔ row.pk = pk := by
    intro row
    rw [References, if_pos hto, hread, Option.some.injEq, eq_comm]
  have hforeign : ∀ t, Value.key t ≠ obj.tenantId ↔ prepTenantId m obj.tenantId ≠ .ok (.some t) := by
    intro t
    simp [hown, prepTenantId, eq_comm]
  simp only [KeyAbroad, RefersAbroad, Foreign, hrefers, hforeign]

/-- On a field that is covered, the check gives a message exactly when the
field crosses. -/
theorem checkField_of_covered {f : MetaField} (h : Covered db m obj f) :
    ∃ found, checkField st registry str db m obj m.fkField obj.tenantId f = .ok found ∧
      (found.isSome = true ↔ Crosses db m obj f) := by
  by_cases hpoints : ∃ target value, Points m obj f target value ∧ f.cls = .foreignKey
  · obtain ⟨target, value, hp, hcls⟩ := hpoints
    obtain ⟨pk, hread, hiff⟩ := (h target value hp).2 hcls
    rw [checkField_foreignKey hp hcls, crosses_iff hp, ← hiff, keyAbroad_iff]
    simp only [targetTenantId, hread]
    cases hfound : ((db.rows target.name).find? fun row => row.pk = pk).bind Row.tenant with
    | none => exact ⟨.none, rfl, by simp⟩
    | some t =>
      by_cases hown : Value.key t = obj.tenantId
      · exact ⟨.none, by simp [hown], by simp [hown]⟩
      · exact ⟨.some (message st str m f.name t obj.tenantId), by simp [hown], by simp [hown]⟩
  · have hskip : ∀ target value, Points m obj f target value → f.cls ≠ .foreignKey :=
      fun target value hp hcls => hpoints ⟨target, value, hp, hcls⟩
    refine ⟨.none, checkField_skips hskip, ?_⟩
    simp only [Option.isSome_none, Bool.false_eq_true, false_iff]
    rintro ⟨target, value, hp, habroad⟩
    have hone : f.cls = .oneToOneField := by
      have hrel := hp.relation
      cases hc : f.cls <;> simp [hc, FieldClass.isForeignKey] at hrel
      · exact absurd hc (hskip target value hp)
      · rfl
    exact (h target value hp).1 hone habroad

/-- And a field on which it does so is covered. -/
theorem covered_of_checkField {f : MetaField} {found : Option String}
    (h : checkField st registry str db m obj m.fkField obj.tenantId f = .ok found)
    (hiff : found.isSome = true ↔ Crosses db m obj f) : Covered db m obj f := by
  intro target value hp
  constructor
  · intro hone habroad
    have hskip : checkField st registry str db m obj m.fkField obj.tenantId f = .ok .none :=
      checkField_skips fun _ _ _ => by simp [hone]
    rw [hskip] at h
    cases h
    exact absurd (hiff.mpr ((crosses_iff hp).mpr habroad)) (by simp)
  · intro hcls
    rw [checkField_foreignKey hp hcls] at h
    cases hread : target.readKey value with
    | none => simp [targetTenantId, hread] at h
    | some pk =>
      refine ⟨pk, rfl, ?_⟩
      rw [keyAbroad_iff, ← crosses_iff hp, ← hiff]
      simp only [targetTenantId, hread] at h
      cases hfound : ((db.rows target.name).find? fun row => row.pk = pk).bind Row.tenant with
      | none =>
        simp only [hfound, Except.ok.injEq] at h
        simp [← h]
      | some t =>
        by_cases hown : Value.key t = obj.tenantId
        · simp only [hfound, hown, if_true, Except.ok.injEq] at h
          simp [← h, hown]
        · simp only [hfound, hown, if_false, Except.ok.injEq] at h
          simp [← h, hown]

/-! ## The walk -/

theorem checkField_error {f : MetaField} {e : CleanError}
    (h : checkField st registry str db m obj m.fkField obj.tenantId f = .error e) : e = .conversion := by
  by_cases hpoints : ∃ target value, Points m obj f target value ∧ f.cls = .foreignKey
  · obtain ⟨target, value, hp, hcls⟩ := hpoints
    rw [checkField_foreignKey hp hcls] at h
    cases hread : target.readKey value with
    | none =>
      simp only [targetTenantId, hread, Except.error.injEq] at h
      exact h.symm
    | some pk =>
      simp only [targetTenantId, hread] at h
      split at h
      · contradiction
      · cases h
      · split at h <;> cases h
  · rw [checkField_skips fun target value hp hcls => hpoints ⟨target, value, hp, hcls⟩] at h
    cases h

/-- A field that lets the walk go on adds its message, if it has one. -/
theorem checkFields_cons {f : MetaField} {fs : List MetaField} {found : Option String}
    (errors : List (String × List String))
    (hf : checkField st registry str db m obj m.fkField obj.tenantId f = .ok found) :
    checkFields st registry str db m obj m.fkField obj.tenantId errors (f :: fs) =
      checkFields st registry str db m obj m.fkField obj.tenantId
        (errors ++ (found.map fun text => (f.name, [text])).toList) fs := by
  cases found with
  | none => simp only [checkFields, hf, Option.map_none, Option.toList_none, List.append_nil]
  | some text => simp only [checkFields, hf, Option.map_some, Option.toList_some]

theorem checkFields_error {fs : List MetaField} {errors : List (String × List String)} {e : CleanError}
    (h : checkFields st registry str db m obj m.fkField obj.tenantId errors fs = .error e) : e = .conversion := by
  induction fs generalizing errors with
  | nil => cases h
  | cons f fs ih =>
    cases hf : checkField st registry str db m obj m.fkField obj.tenantId f with
    | error e' =>
      simp only [checkFields, hf, Except.error.injEq] at h
      rw [← h]
      exact checkField_error hf
    | ok found =>
      rw [checkFields_cons errors hf] at h
      exact ih h

/-- The walk ends when no field makes it raise, with the fields that have a
message as the keys. -/
theorem checkFields_ok {fs : List MetaField} (errors : List (String × List String))
    (h : ∀ f ∈ fs, ∃ found, checkField st registry str db m obj m.fkField obj.tenantId f = .ok found) :
    ∃ errors', checkFields st registry str db m obj m.fkField obj.tenantId errors fs = .ok errors' ∧
      ∀ name, name ∈ errors'.map Prod.fst ↔ name ∈ errors.map Prod.fst ∨
        ∃ f ∈ fs, f.name = name ∧
          ∃ text, checkField st registry str db m obj m.fkField obj.tenantId f = .ok (.some text) := by
  induction fs generalizing errors with
  | nil => exact ⟨errors, rfl, by simp⟩
  | cons f fs ih =>
    obtain ⟨found, hf⟩ := h f (by simp)
    have hrest := fun f' (hf' : f' ∈ fs) => h f' (List.mem_cons_of_mem _ hf')
    rw [checkFields_cons errors hf]
    obtain ⟨errors', hrun, hkeys⟩ := ih (errors ++ (found.map fun text => (f.name, [text])).toList) hrest
    refine ⟨errors', hrun, fun name => ?_⟩
    rw [hkeys]
    cases found with
    | none => simp [hf]
    | some text => simp [hf, or_assoc, eq_comm]

theorem checkFields_ok_each {fs : List MetaField} {errors errors' : List (String × List String)}
    (h : checkFields st registry str db m obj m.fkField obj.tenantId errors fs = .ok errors') :
    ∀ f ∈ fs, ∃ found, checkField st registry str db m obj m.fkField obj.tenantId f = .ok found := by
  induction fs generalizing errors with
  | nil => simp
  | cons f fs ih =>
    rw [List.forall_mem_cons]
    cases hf : checkField st registry str db m obj m.fkField obj.tenantId f with
    | error e => simp [checkFields, hf] at h
    | ok found =>
      rw [checkFields_cons errors hf] at h
      exact ⟨⟨found, rfl⟩, ih h⟩

/-- What the whole check makes of the walk's result. -/
theorem validateCrossTenantFks_eq {fields : MetaFields} (hcol : m.hasTenantColumn = true) (hset : obj.tenantId ≠ .null) :
    validateCrossTenantFks st registry str db m obj fields =
      match checkFields st registry str db m obj m.fkField obj.tenantId [] fields.fields with
      | .error e => .error e
      | .ok [] => .ok ()
      | .ok errors => .error (.validationError errors) := by
  simp [validateCrossTenantFks, getTenantFkField_of_column hcol, getattr_own hcol, hset]

/-- When the walk ends, the check is exact if and only if its keys are. -/
theorem exact_iff_keys {fields : MetaFields} {errors : List (String × List String)} (hcol : m.hasTenantColumn = true)
    (hset : obj.tenantId ≠ .null)
    (h : checkFields st registry str db m obj m.fkField obj.tenantId [] fields.fields = .ok errors) :
    Exact db m obj fields (validateCrossTenantFks st registry str db m obj fields) ↔
      ∀ name, name ∈ errors.map Prod.fst ↔ ∃ f ∈ fields.fields, f.name = name ∧ Crosses db m obj f := by
  rw [validateCrossTenantFks_eq hcol hset, h]
  cases errors with
  | nil =>
    simp only [Exact, List.map_nil, List.not_mem_nil, false_iff, not_exists, not_and]
    exact ⟨fun hnone _ f hf _ => hnone f hf, fun hnone f hf => hnone _ f hf rfl⟩
  | cons e es => simp [Exact]

/-- The check raises with exactly the fields that cross, or nothing when none
does, if and only if every field is covered. -/
theorem validateCrossTenantFks_exact_iff (st : Settings) (registry : String → Bool) (str : Value → String) (db : Tables)
    (m : ModelClass) (obj : Instance) (fields : MetaFields) (hcol : m.hasTenantColumn = true)
    (hset : obj.tenantId ≠ .null) :
    Exact db m obj fields (validateCrossTenantFks st registry str db m obj fields) ↔
      ∀ f ∈ fields.fields, Covered db m obj f := by
  constructor
  · intro hexact f hf
    cases hrun : checkFields st registry str db m obj m.fkField obj.tenantId [] fields.fields with
    | error e =>
      rw [validateCrossTenantFks_eq hcol hset, hrun, checkFields_error hrun] at hexact
      exact hexact.elim
    | ok errors =>
      rw [exact_iff_keys hcol hset hrun] at hexact
      have heach := checkFields_ok_each hrun
      obtain ⟨errors', hrun', hkeys⟩ := checkFields_ok [] heach
      rw [hrun, Except.ok.injEq] at hrun'
      subst hrun'
      obtain ⟨found, hfound⟩ := heach f hf
      refine covered_of_checkField hfound ?_
      -- Names are distinct: a key with the name of `f` is there for `f` alone.
      have hname : ∀ f' ∈ fields.fields, f'.name = f.name → f' = f := fun f' hf' heq =>
        List.inj_on_of_nodup_map fields.names hf' hf heq
      have hcrosses : f.name ∈ errors.map Prod.fst ↔ Crosses db m obj f := by
        rw [hexact]
        constructor
        · rintro ⟨f', hf', heq, hcross⟩
          rwa [hname f' hf' heq] at hcross
        · exact fun hcross => ⟨f, hf, rfl, hcross⟩
      rw [← hcrosses, hkeys]
      simp only [List.map_nil, List.not_mem_nil, false_or]
      constructor
      · intro hsome
        obtain ⟨text, rfl⟩ := Option.isSome_iff_exists.mp hsome
        exact ⟨f, hf, rfl, text, hfound⟩
      · rintro ⟨f', hf', heq, text, htext⟩
        rw [hname f' hf' heq, hfound, Except.ok.injEq] at htext
        simp [htext]
  · intro hcovered
    have heach : ∀ f ∈ fields.fields, ∃ found, checkField st registry str db m obj m.fkField obj.tenantId f = .ok found :=
      fun f hf => (checkField_of_covered (hcovered f hf)).imp fun _ h => h.1
    obtain ⟨errors, hrun, hkeys⟩ := checkFields_ok [] heach
    rw [exact_iff_keys hcol hset hrun]
    intro name
    rw [hkeys]
    simp only [List.map_nil, List.not_mem_nil, false_or]
    refine exists_congr fun f => and_congr_right fun hf => and_congr_right fun _ => ?_
    obtain ⟨found, hfound, hiff⟩ : ∃ found, checkField st registry str db m obj m.fkField obj.tenantId f = .ok found ∧
        (found.isSome = true ↔ Crosses db m obj f) := checkField_of_covered (hcovered f hf)
    rw [← hiff, hfound]
    simp only [Except.ok.injEq]
    exact Option.isSome_iff_exists.symm

end

/-! ## A shop: orders, and the one profile of a customer -/

namespace Shop

def settings : Settings where
  databases _ := .none

/-- A model with a tenant column, whose rows are looked up by keys alone. -/
def shopModel (name : String) : ModelClass where
  name
  boundaryFkField := .some "company"
  fkFieldChecked := by simp [hasLookupSep, hasDoubleUnderscore]
  hasField field := field ∈ ["id", "company", "company_id"]
  keyword field value := .ok fun row => row.columns.lookup field == .some value
  readKey
    | .key pk => .some pk
    | _ => .none
  readTenantKey _ := .none
  nextKey rows := .int (rows.length + 1)
  constraints _ _ := true

/-- Customer 1 is tenant 2's. -/
def customers : Tables where
  rows name := if name = "Customer" then [⟨.int 1, .some (.int 2), ∅⟩] else []
  pks name := by split <;> simp

def withCustomer (cls : FieldClass) : MetaFields where
  fields := [{ name := "customer", cls, relatedModel := .some (shopModel "Customer") }]

/-- An unsaved row of tenant 1 that references customer 1. -/
def unsaved : Instance where
  tenantId := .key (.int 1)
  columns := AList.insert "customer_id" (.key (.int 1)) ∅

def profile : ModelClass := shopModel "Profile"

theorem points {cls : FieldClass} (h : cls.isForeignKey = true) :
    Points profile unsaved { name := "customer", cls, relatedModel := .some (shopModel "Customer") }
      (shopModel "Customer") (.key (.int 1)) where
  relation := h
  notOwn := show "customer" ≠ "company" by decide
  related := rfl
  column := rfl
  holds := show unsaved.getattr profile ("customer" ++ "_id") = .key (.int 1) by decide
  isSet := by decide

/-- Through a plain foreign key the reference is found. -/
theorem validateCrossTenantFks_exact_iff_plain :
    (profile.hasTenantColumn = true ∧ unsaved.tenantId ≠ .null) ∧
      Exact customers profile unsaved (withCustomer .foreignKey)
        (validateCrossTenantFks settings (fun _ => true) (fun _ => "") customers profile unsaved
          (withCustomer .foreignKey)) := by
  refine ⟨⟨rfl, by decide⟩, ?_⟩
  refine (validateCrossTenantFks_exact_iff settings (fun _ => true) (fun _ => "") customers profile unsaved
    (withCustomer .foreignKey) rfl (by decide)).mpr fun f hf => ?_
  obtain rfl := List.mem_singleton.mp hf
  refine covered_of_plain (show unsaved.tenantId = .key (.int 1) from rfl) (by decide) fun target value hp => ?_
  obtain ⟨rfl, rfl⟩ := (points rfl).unique hp
  exact ⟨rfl, rfl⟩

/-- Through a `OneToOneField` it is not: the walk passes the field by. -/
theorem validateCrossTenantFks_oneToOne :
    ¬ ∀ (st : Settings) (registry : String → Bool) (str : Value → String) (db : Tables) (m : ModelClass) (obj : Instance)
        (fields : MetaFields), m.hasTenantColumn = true → obj.tenantId ≠ .null →
        Exact db m obj fields (validateCrossTenantFks st registry str db m obj fields) := by
  intro hclaim
  have hexact := hclaim settings (fun _ => true) (fun _ => "") customers profile unsaved (withCustomer .oneToOneField) rfl
    (by decide)
  refine hexact _ (List.mem_singleton.mpr rfl) ⟨shopModel "Customer", .key (.int 1), points rfl, ?_⟩
  refine ⟨⟨.int 1, .some (.int 2), ∅⟩, ?_, rfl, .int 2, rfl, by decide⟩
  exact List.mem_singleton.mpr rfl

end Shop

end CrossTenant

end Boundary
