/-
What the writes of `Boundary.Models` do to the tenant column: one lemma an
operation.
-/
import Boundary.Models

namespace Boundary

open Exec

section

variable {st : Settings} {m : ModelClass} {tenants : TenantRef → Tenant} {t : TenantRef} {s s' : Store}

namespace ModelClass

theorem fkField_ne_fkIdField : m.fkField ≠ m.fkIdField := by
  intro h
  have := congrArg String.length h
  simp [fkIdField] at this

theorem isFk_iff {name : String} (hm : m.hasTenantColumn = true) : m.isFk name = true ↔ name = m.fkField := by
  simp [isFk, hm]

theorem isFkId_iff {name : String} (hm : m.hasTenantColumn = true) : m.isFkId name = true ↔ name = m.fkIdField := by
  simp [isFkId, hm]

theorem boundaryFkField_eq (hm : m.hasTenantColumn = true) : m.boundaryFkField = .some m.fkField := by
  have hsome : m.boundaryFkField.isSome = true := by
    unfold hasTenantColumn at hm
    split at hm
    · exact hm
    · exact hm
    · cases hm
  obtain ⟨fk, hfk⟩ := Option.isSome_iff_exists.mp hsome
  simp [fkField, hfk]

theorem getTenantLookup_eq (hm : m.hasTenantColumn = true) : m.getTenantLookup = .some m.fkField := by
  have hfk := boundaryFkField_eq hm
  unfold hasTenantColumn at hm
  unfold getTenantLookup
  split at hm
  · exact hfk
  · exact hfk
  · cases hm

theorem hasLookupSep_fkField (hm : m.hasTenantColumn = true) :
    hasLookupSep m.fkField = false ∧ hasLookupSep m.fkIdField = false :=
  m.fkFieldChecked m.fkField (boundaryFkField_eq hm)

end ModelClass

/-! ## The tenant a value and a dictionary name -/

/-- The primary key of the tenant a value stands for. -/
def Value.tenantKey (m : ModelClass) (tenants : TenantRef → Tenant) : Value → Option PrimaryKey
  | .null => .none
  | .tenant t => .some (tenants t).pk
  | .key pk => .some pk
  | .text value => m.readTenantKey value

/-- The tenant named by the foreign key or its `_id` form; given both, the
`_id` form counts, as it does in `Model(**kwargs)`. -/
def named (m : ModelClass) (tenants : TenantRef → Tenant) (d : Dict) : Option PrimaryKey :=
  match d.lookup m.fkIdField with
  | .some value => value.tenantKey m tenants
  | .none => (d.lookup m.fkField).bind (Value.tenantKey m tenants)

theorem named_of_fkId {d : Dict} {v : Value} (h : d.lookup m.fkIdField = .some v) :
    named m tenants d = v.tenantKey m tenants := by
  simp [named, h]

theorem named_of_fk {d : Dict} {v : Value} (hid : m.fkIdField ∉ d) (h : d.lookup m.fkField = .some v) :
    named m tenants d = v.tenantKey m tenants := by
  simp [named, AList.lookup_eq_none.mpr hid, h]

theorem named_of_neither {d : Dict} (hid : m.fkIdField ∉ d) (h : m.fkField ∉ d) : named m tenants d = .none := by
  simp [named, AList.lookup_eq_none.mpr hid, AList.lookup_eq_none.mpr h]

theorem exists_lookup {d : Dict} {name : String} (h : name ∈ d) : ∃ v, d.lookup name = .some v := by
  have hne : d.lookup name ≠ .none := fun hn => AList.lookup_eq_none.mp hn h
  exact Option.ne_none_iff_exists'.mp hne

theorem mem_of_lookup {d : Dict} {name : String} {v : Value} (h : d.lookup name = .some v) : name ∈ d :=
  AList.lookup_isSome.mp (by rw [h]; rfl)

/-! ## Injection -/

namespace TenantManager

theorem inject_of_mem {d : Dict} (h : m.fkField ∈ d ∨ m.fkIdField ∈ d) : inject m t d = d := by
  unfold inject
  rw [if_neg]
  rintro ⟨h₁, h₂⟩
  exact h.elim h₁ h₂

theorem inject_of_not_mem {d : Dict} (h : m.fkField ∉ d) (hid : m.fkIdField ∉ d) :
    inject m t d = d.insert m.fkField (.tenant t) := by
  unfold inject
  rw [if_pos ⟨h, hid⟩]

/-- The `_id` form is never injected. -/
theorem fkIdField_mem_inject {d : Dict} : m.fkIdField ∈ inject m t d ↔ m.fkIdField ∈ d := by
  unfold inject
  split
  · rw [AList.mem_insert]
    exact ⟨fun h => h.resolve_left fun he => ModelClass.fkField_ne_fkIdField he.symm, .inr⟩
  · rfl

theorem fkField_mem_inject {d : Dict} (hid : m.fkIdField ∉ d) : m.fkField ∈ inject m t d := by
  unfold inject
  split
  · exact (AList.mem_insert _).mpr (.inl rfl)
  · next h =>
    rw [not_and_or, not_not, not_not] at h
    exact h.resolve_right hid

/-- What holds a dictionary's tenant entry is not changed, and what is added
is the active tenant. -/
theorem lookup_fkField_inject {d : Dict} {v : Value} (h : (inject m t d).lookup m.fkField = .some v) :
    d.lookup m.fkField = .some v ∨ m.fkField ∉ d ∧ m.fkIdField ∉ d ∧ v = .tenant t := by
  by_cases hmem : m.fkField ∈ d ∨ m.fkIdField ∈ d
  · rw [inject_of_mem hmem] at h
    exact .inl h
  · rw [not_or] at hmem
    rw [inject_of_not_mem hmem.1 hmem.2, AList.lookup_insert] at h
    exact .inr ⟨hmem.1, hmem.2, (Option.some.inj h).symm⟩

@[simp] theorem inject_inject {d : Dict} : inject m t (inject m t d) = inject m t d := by
  by_cases hid : m.fkIdField ∈ d
  · exact inject_of_mem (.inr (fkIdField_mem_inject.mpr hid))
  · exact inject_of_mem (.inl (fkField_mem_inject hid))

/-- Injection names the active tenant where none was named. -/
theorem named_inject {d : Dict} :
    (named m tenants (inject m t d)).getD (tenants t).pk = (named m tenants d).getD (tenants t).pk := by
  by_cases hmem : m.fkField ∈ d ∨ m.fkIdField ∈ d
  · rw [inject_of_mem hmem]
  · rw [not_or] at hmem
    have hid : m.fkIdField ∉ inject m t d := fun h => hmem.2 (fkIdField_mem_inject.mp h)
    rw [inject_of_not_mem hmem.1 hmem.2] at hid ⊢
    rw [named_of_fk hid (AList.lookup_insert d), named_of_neither hmem.2 hmem.1]
    rfl

/-- The store with the active tenant injected into some dictionaries. -/
def injected (m : ModelClass) (t : TenantRef) (ds : List (Option DictRef)) (s : Store) : Store :=
  { s with dicts := fun d => if .some d ∈ ds then inject m t (s.dicts d) else s.dicts d }

theorem forM_injectInto : ∀ (ds : List (Option DictRef)) (s : Store),
    forM ds (injectInto m t) s = .ok () (injected m t ds s)
  | [], s => by simp [injected]
  | d :: ds, s => by
    rw [List.forM_cons, bind_run]
    cases d with
    | none => simp [injectInto, forM_injectInto ds, injected]
    | some d =>
      simp only [injectInto, forM_injectInto ds, injected, EStateM.Result.ok.injEq, Store.mk.injEq, true_and, and_true]
      funext e
      by_cases he : e = d
      · subst he
        simp
      · simp [he, Function.update_of_ne]

theorem require_run {w : World} (h : w.contextVars.currentTenant = .some t) : TenantContext.require st w = .ok t w := by
  simp [TenantContext.require, TenantContext.get, bind_run, h]

theorem context_require (h : s.world.contextVars.currentTenant = .some t) :
    context (TenantContext.require st) s = .ok t s := by
  simp [context, zoom, require_run h]

theorem injectTenantKwargs_run (hm : m.hasTenantColumn = true) (h : s.world.contextVars.currentTenant = .some t)
    (lookup : Dict) (ds : List (Option DictRef)) :
    injectTenantKwargs st m lookup ds s = .ok (inject m t lookup) (injected m t ds s) := by
  unfold injectTenantKwargs
  rw [if_neg (by simp [hm]), bind_run, context_require h]
  simp only [bind_run, forM_injectInto, pure_run]

/-- Without an active tenant the call is refused. -/
theorem injectTenantKwargs_none (st : Settings) (hm : m.hasTenantColumn = true)
    (h : s.world.contextVars.currentTenant = .none)
    (lookup : Dict) (ds : List (Option DictRef)) :
    ∃ e, injectTenantKwargs st m lookup ds s = .error e s := by
  unfold injectTenantKwargs
  simp [hm, bind_run, context, zoom, TenantContext.require, TenantContext.get, h, throw_run]

/-- The query set of the manager: the active tenant's rows. -/
theorem getQueryset_run (hm : m.hasTenantColumn = true) (h : s.world.contextVars.currentTenant = .some t) :
    getQueryset st m s = .ok (fun row => row.tenant == .some (s.world.tenants t).pk) s := by
  have hfk : m.isFk m.fkField = true := (ModelClass.isFk_iff hm).mpr rfl
  have hget : context TenantContext.get s = .ok (.some t) s := by
    simp [context, zoom, TenantContext.get, h]
  have hfilter : filterKeyword m s.world.tenants m.fkField (.tenant t) =
      .ok fun row => row.tenant == .some (s.world.tenants t).pk := by
    simp [filterKeyword, hfk]
  unfold getQueryset
  simp only [bind_run, hget, tenantsNow, ModelClass.getTenantLookup_eq hm, Option.getD_some, hfilter]
  rfl

end TenantManager

/-! ## Lookups -/

theorem filterKeyword_tenant (hm : m.hasTenantColumn = true) {name : String} {value : Value} {keep : QuerySet} {row : Row}
    (hname : name = m.fkField ∨ name = m.fkIdField) (h : filterKeyword m tenants name value = .ok keep)
    (hrow : keep row = true) : row.tenant = value.tenantKey m tenants := by
  have htenant : (m.isFk name || m.isFkId name) = true := by
    rw [Bool.or_eq_true, ModelClass.isFk_iff hm, ModelClass.isFkId_iff hm]
    exact hname
  unfold filterKeyword at h
  rw [if_pos htenant] at h
  cases value with
  | null | tenant _ | key _ =>
    cases h
    simpa [Value.tenantKey] using hrow
  | text value =>
    simp only [prepTenantId] at h
    cases hkey : m.readTenantKey value with
    | none => simp [hkey] at h
    | some pk =>
      simp only [hkey, Except.ok.injEq] at h
      subst h
      simpa [Value.tenantKey, hkey] using hrow

/-- A row that matches is kept by the query set and by every keyword. -/
theorem matching_ok {rows : List Row} : ∀ {es : List (Sigma fun _ : String => Value)} {qs : QuerySet} {found : List Row}
    {row : Row}, matching m tenants rows qs es = .ok found → row ∈ found →
      row ∈ rows ∧ qs row = true ∧
        ∀ e ∈ es, ∃ keep, filterKeyword m tenants e.1 e.2 = .ok keep ∧ keep row = true
  | [], qs, found, row, h, hrow => by
    simp only [matching, Except.ok.injEq] at h
    subst h
    rw [List.mem_filter] at hrow
    exact ⟨hrow.1, hrow.2, by simp⟩
  | e :: es, qs, found, row, h, hrow => by
    simp only [matching] at h
    split at h
    · next keep hkeep =>
      obtain ⟨hmem, hboth, hrest⟩ := matching_ok h hrow
      rw [Bool.and_eq_true] at hboth
      refine ⟨hmem, hboth.1, fun e' he' => ?_⟩
      rcases List.mem_cons.mp he' with rfl | he'
      · exact ⟨keep, hkeep, hboth.2⟩
      · exact hrest e' he'
    · cases h

/-- A row that matches a lookup belongs to the tenant the lookup names. -/
theorem matching_named (hm : m.hasTenantColumn = true) {rows found : List Row} {qs : QuerySet} {kwargs : Dict} {row : Row}
    (h : matching m tenants rows qs kwargs.entries = .ok found) (hrow : row ∈ found)
    (hnames : m.fkField ∈ kwargs ∨ m.fkIdField ∈ kwargs) : row.tenant = named m tenants kwargs := by
  have hkept := (matching_ok h hrow).2.2
  have hbelongs : ∀ name value, name = m.fkField ∨ name = m.fkIdField → kwargs.lookup name = .some value →
      row.tenant = value.tenantKey m tenants := by
    intro name value hname hlookup
    obtain ⟨keep, hkeep, hk⟩ := hkept ⟨name, value⟩ (AList.mem_lookup_iff.mp hlookup)
    exact filterKeyword_tenant hm hname hkeep hk
  by_cases hid : m.fkIdField ∈ kwargs
  · obtain ⟨value, hvalue⟩ := exists_lookup hid
    rw [named_of_fkId hvalue]
    exact hbelongs _ value (.inr rfl) hvalue
  · obtain ⟨value, hvalue⟩ := exists_lookup (hnames.resolve_right hid)
    rw [named_of_fk hid hvalue]
    exact hbelongs _ value (.inl rfl) hvalue

theorem get_ok {qs : QuerySet} {kwargs : Dict} {found : Option Row} (h : qs.get m kwargs s = .ok found s') :
    s' = s ∧ matching m s.world.tenants s.rows qs kwargs.entries = .ok found.toList := by
  unfold QuerySet.get at h
  split at h <;> cases h
  · next heq => exact ⟨rfl, heq⟩
  · next heq => exact ⟨rfl, heq⟩

/-! ## Instances -/

/-- An attribute that is not the tenant's leaves the tenant as it was, and
one that is sets what its value stands for. -/
theorem setattr_ok (hm : m.hasTenantColumn = true) {obj obj' : Instance} {name : String} {value : Value}
    (h : setattr m tenants obj name value = .ok obj') :
    obj'.skipAutoPopulate = obj.skipAutoPopulate ∧
      obj'.tenantId.tenantKey m tenants =
        if name = m.fkField ∨ name = m.fkIdField then value.tenantKey m tenants else obj.tenantId.tenantKey m tenants := by
  unfold setattr at h
  simp only [ModelClass.isFk_iff hm, ModelClass.isFkId_iff hm] at h
  split at h
  · next hname =>
    rw [if_pos (.inl hname)]
    split at h
    · cases h
      exact ⟨rfl, rfl⟩
    · cases h
      exact ⟨rfl, rfl⟩
    · cases h
  split at h
  · next hname =>
    rw [if_pos (.inr hname)]
    cases h
    exact ⟨rfl, rfl⟩
  next hfk hid =>
  rw [if_neg (not_or.mpr ⟨hfk, hid⟩)]
  split at h
  · split at h
    · cases h
      exact ⟨rfl, rfl⟩
    · split at h
      · cases h
        exact ⟨rfl, rfl⟩
      · cases h
  · cases h
    exact ⟨rfl, rfl⟩

theorem setattrs_cons_ok {obj obj' : Instance} {e : Sigma fun _ : String => Value}
    {es : List (Sigma fun _ : String => Value)} (h : setattrs m tenants obj (e :: es) = .ok obj') :
    ∃ obj₁, setattr m tenants obj e.1 e.2 = .ok obj₁ ∧ setattrs m tenants obj₁ es = .ok obj' := by
  unfold setattrs at h
  rw [List.foldlM_cons] at h
  cases h₁ : setattr m tenants obj e.1 e.2 with
  | error err =>
    rw [h₁] at h
    cases h
  | ok obj₁ =>
    rw [h₁] at h
    exact ⟨obj₁, rfl, h⟩

section setattrs

variable {obj obj' : Instance}

theorem setattrs_other (hm : m.hasTenantColumn = true) : ∀ {es : List (Sigma fun _ : String => Value)} {obj : Instance},
    (∀ e ∈ es, e.1 ≠ m.fkField ∧ e.1 ≠ m.fkIdField) → setattrs m tenants obj es = .ok obj' →
      obj'.skipAutoPopulate = obj.skipAutoPopulate ∧
        obj'.tenantId.tenantKey m tenants = obj.tenantId.tenantKey m tenants
  | [], obj, _, h => by
    cases h
    exact ⟨rfl, rfl⟩
  | e :: es, obj, hes, h => by
    obtain ⟨obj₁, h₁, h₂⟩ := setattrs_cons_ok h
    obtain ⟨hskip₁, hkey₁⟩ := setattr_ok hm h₁
    obtain ⟨hskip₂, hkey₂⟩ := setattrs_other hm (fun e' he' => hes e' (List.mem_cons_of_mem _ he')) h₂
    have hne := hes e List.mem_cons_self
    rw [if_neg (not_or.mpr ⟨hne.1, hne.2⟩)] at hkey₁
    exact ⟨hskip₂.trans hskip₁, hkey₂.trans hkey₁⟩

/-- Of entries among which one name stands for the tenant, that one counts. -/
theorem setattrs_tenant (hm : m.hasTenantColumn = true) {name : String} {value : Value}
    (hname : name = m.fkField ∨ name = m.fkIdField) : ∀ {es : List (Sigma fun _ : String => Value)} {obj : Instance},
    es.NodupKeys → (∀ e ∈ es, e.1 = m.fkField ∨ e.1 = m.fkIdField → e.1 = name) → ⟨name, value⟩ ∈ es →
      setattrs m tenants obj es = .ok obj' →
        obj'.skipAutoPopulate = obj.skipAutoPopulate ∧ obj'.tenantId.tenantKey m tenants = value.tenantKey m tenants
  | [], obj, _, _, hmem, _ => by cases hmem
  | e :: es, obj, hnodup, honly, hmem, h => by
    obtain ⟨obj₁, h₁, h₂⟩ := setattrs_cons_ok h
    obtain ⟨hskip₁, hkey₁⟩ := setattr_ok hm h₁
    rw [List.nodupKeys_cons] at hnodup
    rcases List.mem_cons.mp hmem with rfl | hmem
    · rw [if_pos hname] at hkey₁
      -- The name does not come again.
      have hother : ∀ e ∈ es, e.1 ≠ m.fkField ∧ e.1 ≠ m.fkIdField := by
        intro e he
        have hkeys : e.1 ∈ es.keys := List.mem_keys_of_mem he
        have hfresh : e.1 ≠ name := by
          rintro rfl
          exact hnodup.1 hkeys
        exact ⟨fun hn => hfresh (honly e (List.mem_cons_of_mem _ he) (.inl hn)),
          fun hn => hfresh (honly e (List.mem_cons_of_mem _ he) (.inr hn))⟩
      obtain ⟨hskip₂, hkey₂⟩ := setattrs_other hm hother h₂
      exact ⟨hskip₂.trans hskip₁, hkey₂.trans hkey₁⟩
    · obtain ⟨hskip₂, hkey₂⟩ := setattrs_tenant hm hname hnodup.2
        (fun e' he' => honly e' (List.mem_cons_of_mem _ he')) hmem h₂
      exact ⟨hskip₂.trans hskip₁, hkey₂⟩

/-- Assigning a dictionary without the `_id` form. -/
theorem setattrs_dict (hm : m.hasTenantColumn = true) {d : Dict} (hid : m.fkIdField ∉ d)
    (h : setattrs m tenants obj d.entries = .ok obj') :
    obj'.skipAutoPopulate = obj.skipAutoPopulate ∧
      obj'.tenantId.tenantKey m tenants =
        if m.fkField ∈ d then named m tenants d else obj.tenantId.tenantKey m tenants := by
  have hne : ∀ e ∈ d.entries, e.1 ≠ m.fkIdField := fun e he hn =>
    hid (AList.mem_keys.mpr (hn ▸ List.mem_keys_of_mem he))
  by_cases hfk : m.fkField ∈ d
  · obtain ⟨value, hvalue⟩ := exists_lookup hfk
    rw [if_pos hfk, named_of_fk hid hvalue]
    exact setattrs_tenant hm (.inl rfl) d.nodupKeys (fun e he hn => hn.resolve_right (hne e he))
      (AList.mem_lookup_iff.mp hvalue) h
  · rw [if_neg hfk]
    exact setattrs_other hm (fun e he => ⟨fun hn => hfk (AList.mem_keys.mpr (hn ▸ List.mem_keys_of_mem he)), hne e he⟩) h

/-- An instance made of keyword arguments has the tenant they name. -/
theorem instantiate_ok (hm : m.hasTenantColumn = true) {kwargs : Dict} (h : instantiate m tenants kwargs = .ok obj) :
    obj.skipAutoPopulate = false ∧ obj.tenantId.tenantKey m tenants = named m tenants kwargs := by
  unfold instantiate at h
  split at h
  · next hid =>
    have hid : m.fkIdField ∉ kwargs := AList.lookup_eq_none.mp hid
    obtain ⟨hskip, hkey⟩ := setattrs_dict hm hid h
    refine ⟨hskip, ?_⟩
    rw [hkey]
    split
    · rfl
    · next hfk => rw [named_of_neither hid hfk]; rfl
  · next value hid =>
    have hbind : ∃ obj₁, setattrs m tenants {} (kwargs.erase m.fkIdField).entries = .ok obj₁ ∧
        setattr m tenants obj₁ m.fkIdField value = .ok obj := by
      cases h₁ : setattrs m tenants {} (kwargs.erase m.fkIdField).entries with
      | error e => simp [h₁, bind, Except.bind] at h
      | ok obj₁ => exact ⟨obj₁, rfl, by simpa [h₁, bind, Except.bind] using h⟩
    obtain ⟨obj₁, h₁, h₂⟩ := hbind
    have hgone : m.fkIdField ∉ kwargs.erase m.fkIdField := fun hmem => (AList.mem_erase.mp hmem).1 rfl
    obtain ⟨hskip₁, -⟩ := setattrs_dict hm hgone h₁
    obtain ⟨hskip₂, hkey⟩ := setattr_ok hm h₂
    rw [if_pos (.inr rfl)] at hkey
    exact ⟨hskip₂.trans hskip₁, by rw [hkey, named_of_fkId hid]⟩

end setattrs

/-! ## Writes -/

/-- Every row of `s'` is the one written or was there in `s`. -/
structure Wrote (s : Store) (row : Row) (s' : Store) : Prop where
  world : s'.world = s.world
  dicts : s'.dicts = s.dicts
  rows : ∀ r ∈ s'.rows, r = row ∨ r ∈ s.rows

theorem insertRow_ok {row row' : Row} (h : insertRow m row s = .ok row' s') : row' = row ∧ Wrote s row s' := by
  unfold insertRow at h
  split at h
  · cases h
  · cases h
    refine ⟨rfl, rfl, rfl, fun r hr => ?_⟩
    rw [List.mem_append, List.mem_singleton] at hr
    exact hr.symm

theorem updateRow_ok {row row' : Row} (h : updateRow m row s = .ok row' s') : row' = row ∧ Wrote s row s' := by
  unfold updateRow at h
  split at h
  · cases h
  · cases h
    refine ⟨rfl, rfl, rfl, fun r hr => ?_⟩
    obtain ⟨r', hr', rfl⟩ := List.mem_map.mp hr
    split
    · exact .inl rfl
    · exact .inr hr'

/-- What is sent to the tenant column is what the attribute stands for. -/
theorem prepTenantId_ok (tenants : TenantRef → Tenant) {value : Value} {tenant : Option PrimaryKey}
    (h : prepTenantId m value = .ok tenant) :
    tenant = value.tenantKey m tenants ∧ (tenant = .none → value = .null) := by
  cases value with
  | null | key _ =>
    cases h
    simp [Value.tenantKey]
  | tenant _ => cases h
  | text value =>
    simp only [prepTenantId] at h
    cases hkey : m.readTenantKey value with
    | none => simp [hkey] at h
    | some pk =>
      rw [hkey] at h
      cases h
      simp [Value.tenantKey, hkey]

theorem writeRow_ok {obj : Instance} {tenant : Option PrimaryKey} {forceInsert : Bool} {row : Row}
    (h : writeRow m obj tenant forceInsert s = .ok row s') : row.tenant = tenant ∧ Wrote s row s' := by
  unfold writeRow at h
  split at h
  · obtain ⟨rfl, hw⟩ := insertRow_ok h
    exact ⟨rfl, hw⟩
  split at h
  · obtain ⟨rfl, hw⟩ := insertRow_ok h
    exact ⟨rfl, hw⟩
  · obtain ⟨rfl, hw⟩ := updateRow_ok h
    exact ⟨rfl, hw⟩

theorem baseSave_ok {obj : Instance} {forceInsert : Bool} {row : Row}
    (h : baseSave m obj forceInsert s = .ok row s') :
    prepTenantId m obj.tenantId = .ok row.tenant ∧ Wrote s row s' := by
  unfold baseSave at h
  rw [bind_ok_iff] at h
  obtain ⟨tenant, s₁, h₁, h₂⟩ := h
  obtain ⟨hprep, rfl⟩ := ofExcept_ok_iff.mp h₁
  obtain ⟨htenant, hw⟩ := writeRow_ok h₂
  exact ⟨by rw [hprep, htenant], hw⟩

/-- A saved instance belongs to the tenant it names, or else to the active
one. -/
theorem save_ok (hm : m.hasTenantColumn = true) (ht : s.world.contextVars.currentTenant = .some t) {obj : Instance}
    {forceInsert : Bool} {row : Row} (hskip : obj.skipAutoPopulate = false)
    (h : save st m obj forceInsert s = .ok row s') :
    row.tenant = .some ((obj.tenantId.tenantKey m s.world.tenants).getD (s.world.tenants t).pk) ∧ Wrote s row s' := by
  unfold save at h
  split at h
  · next hnull =>
    have hnull : obj.tenantId = .null := by
      simp only [Bool.and_eq_true, beq_iff_eq] at hnull
      exact hnull.1.2
    have hset : setattr m s.world.tenants obj m.fkField (.tenant t) =
        .ok { obj with tenantId := .key (s.world.tenants t).pk } := by
      unfold setattr
      rw [if_pos ((ModelClass.isFk_iff hm).mpr rfl)]
    simp only [bind_run, TenantManager.context_require ht, tenantsNow, hset] at h
    obtain ⟨hprep, hw⟩ := baseSave_ok (h : baseSave m _ forceInsert s = .ok row s')
    simp only [prepTenantId, Except.ok.injEq] at hprep
    exact ⟨by rw [hnull, ← hprep]; rfl, hw⟩
  · next hnull =>
    have hnull : obj.tenantId ≠ .null := by simpa [hm, hskip] using hnull
    obtain ⟨hprep, hw⟩ := baseSave_ok h
    obtain ⟨hkey, hnone⟩ := prepTenantId_ok s.world.tenants hprep
    refine ⟨?_, hw⟩
    cases hrow : row.tenant with
    | none => exact absurd (hnone hrow) hnull
    | some pk => rw [← hkey, hrow]; rfl

/-! ## Failures -/

theorem insertRow_failsClean (row : Row) : FailsClean (insertRow m row) := by
  intro s e s' h
  unfold insertRow at h
  split at h <;> cases h
  rfl

theorem updateRow_failsClean (row : Row) : FailsClean (updateRow m row) := by
  intro s e s' h
  unfold updateRow at h
  split at h <;> cases h
  rfl

theorem save_failsClean (obj : Instance) (forceInsert : Bool) : FailsClean (save st m obj forceInsert) := by
  have hbase : ∀ obj, FailsClean (baseSave m obj forceInsert) := by
    intro obj
    refine .bind (.ofExcept _) fun tenant s e s' h => ?_
    unfold writeRow at h
    split at h
    · exact insertRow_failsClean _ s e s' h
    split at h
    · exact insertRow_failsClean _ s e s' h
    · exact updateRow_failsClean _ s e s' h
  have hrequire : ReadOnly (context (TenantContext.require st)) := by
    refine .zoom (fun _ => rfl) (.bind (fun _ => rfl) fun active => ?_)
    cases active with
    | none => exact .throw _
    | some t => exact .pure t
  unfold save
  split
  · exact .bind hrequire fun t => .bind (fun _ => rfl) fun tenants => .bind (.ofExcept _) hbase
  · exact hbase obj

theorem create_failsClean (params : Dict) : FailsClean (QuerySet.create st m params) :=
  .bind (fun _ => rfl) fun _ => .bind (.ofExcept _) fun obj => save_failsClean obj true

theorem get_readOnly (qs : QuerySet) (kwargs : Dict) : ReadOnly (qs.get m kwargs) := by
  intro s
  unfold after QuerySet.get
  cases matching m s.world.tenants s.rows qs kwargs.entries with
  | error e => rfl
  | ok found =>
    match found with
    | [] | [_] | _ :: _ :: _ => rfl

theorem getOrCreate_failsClean (qs : QuerySet) (defaults : Option Dict) (kwargs : Dict) :
    FailsClean (qs.getOrCreate st m defaults kwargs) := by
  refine .bind (get_readOnly qs kwargs) fun found => ?_
  cases found with
  | some row => exact (ReadOnly.pure _).failsClean
  | none =>
    refine .bind (.ofExcept _) fun params => .tryCatch ((create_failsClean params).bind_pure _) fun e => ?_
    split
    · refine .bind (get_readOnly qs kwargs) fun found => ?_
      cases found with
      | some row => exact (ReadOnly.pure _).failsClean
      | none => exact (ReadOnly.throw e).failsClean
    · exact (ReadOnly.throw e).failsClean

/-! ## Creating and updating -/

theorem lookup_withoutLookups {kwargs : Dict} {name : String} (h : hasLookupSep name = false) :
    (withoutLookups kwargs).lookup name = kwargs.lookup name := by
  ext value
  simp only [← Option.mem_def, AList.mem_lookup_iff]
  simp [withoutLookups, h]

/-- The parameters of a create name the tenant the lookup names in its `_id`
form, or else the one the defaults name, or else the one the lookup does. -/
theorem named_params (tenants : TenantRef → Tenant) (hm : m.hasTenantColumn = true) {defaults kwargs params : Dict}
    (hid : m.fkIdField ∉ defaults) (h : extractModelParams m defaults kwargs = .ok params) :
    named m tenants params =
      if m.fkIdField ∉ kwargs ∧ m.fkField ∈ defaults then named m tenants defaults else named m tenants kwargs := by
  obtain ⟨hsep, hsepId⟩ := ModelClass.hasLookupSep_fkField hm
  simp only [extractModelParams] at h
  split at h
  · cases h
    have hlookupId : (defaults ∪ withoutLookups kwargs).lookup m.fkIdField = kwargs.lookup m.fkIdField := by
      rw [AList.lookup_union_right hid, lookup_withoutLookups hsepId]
    by_cases hkw : m.fkIdField ∈ kwargs
    · obtain ⟨value, hvalue⟩ := exists_lookup hkw
      rw [if_neg fun hc => hc.1 hkw, named_of_fkId hvalue, named_of_fkId (hlookupId.trans hvalue)]
    · have hnot : m.fkIdField ∉ defaults ∪ withoutLookups kwargs := by
        rw [← AList.lookup_eq_none, hlookupId]
        exact AList.lookup_eq_none.mpr hkw
      by_cases hfk : m.fkField ∈ defaults
      · obtain ⟨value, hvalue⟩ := exists_lookup hfk
        rw [if_pos ⟨hkw, hfk⟩, named_of_fk hid hvalue, named_of_fk hnot ((AList.lookup_union_left hfk).trans hvalue)]
      · have hlookup : (defaults ∪ withoutLookups kwargs).lookup m.fkField = kwargs.lookup m.fkField := by
          rw [AList.lookup_union_right hfk, lookup_withoutLookups hsep]
        rw [if_neg fun hc => hfk hc.2]
        unfold named
        rw [hlookupId, hlookup]
  · cases h

theorem create_ok_saves {params : Dict} {row : Row} (h : QuerySet.create st m params s = .ok row s') :
    ∃ obj, instantiate m s.world.tenants params = .ok obj ∧ save st m obj true s = .ok row s' := by
  unfold QuerySet.create at h
  simp only [bind_run, tenantsNow] at h
  cases hobj : instantiate m s.world.tenants params with
  | error e =>
    rw [hobj] at h
    cases h
  | ok obj =>
    rw [hobj] at h
    exact ⟨obj, rfl, h⟩

theorem create_ok (hm : m.hasTenantColumn = true) (ht : s.world.contextVars.currentTenant = .some t) {params : Dict}
    {row : Row} (h : QuerySet.create st m params s = .ok row s') :
    row.tenant = .some ((named m s.world.tenants params).getD (s.world.tenants t).pk) ∧ Wrote s row s' := by
  obtain ⟨obj, hobj, hsave⟩ := create_ok_saves h
  obtain ⟨hskip, hkey⟩ := instantiate_ok hm hobj
  rw [← hkey]
  exact save_ok hm ht hskip hsave

section

variable {qs : QuerySet} {defaults createDefaults : Option Dict} {kwargs : Dict} {row : Row} {created : Bool} {e : Exc}

/-- A row is found and nothing written, or none is found and one is created. -/
theorem getOrCreate_ok (h : qs.getOrCreate st m defaults kwargs s = .ok (row, created) s') :
    (created = false ∧ s' = s ∧ matching m s.world.tenants s.rows qs kwargs.entries = .ok [row]) ∨
      (created = true ∧ matching m s.world.tenants s.rows qs kwargs.entries = .ok [] ∧
        ∃ params, extractModelParams m (defaults.getD ∅) kwargs = .ok params ∧
          QuerySet.create st m params s = .ok row s') := by
  unfold QuerySet.getOrCreate at h
  rw [bind_ok_iff] at h
  obtain ⟨found, s₁, hget, h⟩ := h
  obtain ⟨rfl, hmatching⟩ := get_ok hget
  cases found with
  | some row' =>
    cases h
    exact .inl ⟨rfl, rfl, hmatching⟩
  | none =>
    rw [bind_ok_iff] at h
    obtain ⟨params, s₂, hextract, h⟩ := h
    obtain ⟨hparams, rfl⟩ := ofExcept_ok_iff.mp hextract
    rw [tryCatch_run, bind_run] at h
    cases hcreate : QuerySet.create st m params s₂ with
    | ok row' s₃ =>
      rw [hcreate] at h
      cases h
      exact .inr ⟨rfl, hmatching, params, hparams, hcreate⟩
    | error err s₃ =>
      -- The second `get` finds what the first did: nothing.
      obtain rfl := create_failsClean params _ _ _ hcreate
      rw [hcreate] at h
      simp only at h
      split at h
      · rw [bind_run, hget] at h
        cases h
      · cases h

/-- As `getOrCreate_ok`, and a row that is found is saved with the defaults
assigned. -/
theorem updateOrCreate_ok (h : qs.updateOrCreate st m defaults createDefaults kwargs s = .ok (row, created) s') :
    (created = false ∧ ∃ old obj, matching m s.world.tenants s.rows qs kwargs.entries = .ok [old] ∧
        setattrs m s.world.tenants (.ofRow old) (defaults.getD ∅).entries = .ok obj ∧
          save st m obj false s = .ok row s') ∨
      (created = true ∧ matching m s.world.tenants s.rows qs kwargs.entries = .ok [] ∧
        ∃ params, extractModelParams m (createDefaults.getD (defaults.getD ∅)) kwargs = .ok params ∧
          QuerySet.create st m params s = .ok row s') := by
  unfold QuerySet.updateOrCreate at h
  simp only at h
  rw [bind_ok_iff] at h
  obtain ⟨⟨old, found⟩, s₁, hget, h⟩ := h
  rcases getOrCreate_ok hget with ⟨rfl, rfl, hmatching⟩ | ⟨rfl, hmatching, params, hparams, hcreate⟩
  · left
    simp only [Bool.false_eq_true, if_false, bind_ok_iff] at h
    obtain ⟨_, _, htenants, obj, _, hassign, row', _, hsave, h⟩ := h
    cases htenants
    obtain ⟨hobj, rfl⟩ := ofExcept_ok_iff.mp hassign
    cases h
    exact ⟨rfl, old, obj, hmatching, hobj, hsave⟩
  · right
    cases h
    exact ⟨rfl, hmatching, params, hparams, hcreate⟩

theorem updateOrCreate_failsClean (qs : QuerySet) (defaults createDefaults : Option Dict) (kwargs : Dict) :
    FailsClean (qs.updateOrCreate st m defaults createDefaults kwargs) := by
  intro s e s' h
  rcases bind_error_iff.mp h with hget | ⟨⟨old, found⟩, s₁, hget, hrest⟩
  · exact getOrCreate_failsClean _ _ _ _ _ _ hget
  rcases getOrCreate_ok hget with ⟨rfl, rfl, -⟩ | ⟨rfl, -⟩
  · -- The row was found, and nothing is written before it is saved.
    have hassign : FailsClean (tenantsNow >>= fun tenants =>
        ofExcept (setattrs m tenants (.ofRow old) (defaults.getD ∅).entries) >>= fun obj =>
          save st m obj false >>= fun row => pure (row, false)) :=
      .bind (fun _ => rfl) fun _ => .bind (.ofExcept _) fun obj => (save_failsClean obj false).bind_pure _
    exact hassign _ _ _ hrest
  · cases hrest

end

end

end Boundary
