/-
The tenant that `get_or_create` and `update_or_create` stamp, over runs of
calls whose dictionaries of defaults are the caller's own objects.

A call injects its active tenant into these dictionaries, and the next call
that is passed one finds it there. What a call writes belongs to the tenant
meant as long as the dictionary it writes from holds that tenant, or none
while that tenant is the active one (`Call.Agrees`).
-/
import Boundary.Lib.Runs
import Boundary.ModelsFacts
import Boundary.Run

namespace Boundary

open Exec Runs TenantManager

inductive Call where
  | getOrCreate (defaults : Option DictRef) (kwargs : Dict)
  | updateOrCreate (defaults createDefaults : Option DictRef) (kwargs : Dict)

namespace Call

def run (st : Settings) (m : ModelClass) : Call → Orm (Row × Bool)
  | .getOrCreate defaults kwargs => TenantManager.getOrCreate st m defaults kwargs
  | .updateOrCreate defaults createDefaults kwargs => TenantManager.updateOrCreate st m defaults createDefaults kwargs

def kwargs : Call → Dict
  | .getOrCreate _ kwargs | .updateOrCreate _ _ kwargs => kwargs

/-- Every dictionary passed. -/
def dicts : Call → List (Option DictRef)
  | .getOrCreate defaults _ => [defaults]
  | .updateOrCreate defaults createDefaults _ => [defaults, createDefaults]

/-- The dictionary a row is created from. -/
def createDict : Call → Option DictRef
  | .getOrCreate defaults _ => defaults
  | .updateOrCreate defaults createDefaults _ => createDefaults.or defaults

/-- The dictionary a row that is found is updated from. -/
def updateDict : Call → Option DictRef
  | .getOrCreate _ _ => .none
  | .updateOrCreate defaults _ _ => defaults

def updates : Call → Bool
  | .getOrCreate _ _ => false
  | .updateOrCreate _ _ _ => true

end Call

section

variable (st : Settings) (m : ModelClass)

/-- The tenant meant: the one the lookup names, or else the active one. -/
def Call.meant (c : Call) (s : Store) (t : TenantRef) : PrimaryKey :=
  (named m s.world.tenants c.kwargs).getD (s.world.tenants t).pk

/-- The rows of the active tenant that the lookup finds. -/
def Call.found (c : Call) (s : Store) (t : TenantRef) : Except Exc (List Row) :=
  matching m s.world.tenants s.rows (fun row => row.tenant == .some (s.world.tenants t).pk) (inject m t c.kwargs).entries

/-- The dictionary holds the tenant, or holds none and the tenant is active. -/
def Carries (s : Store) (t : TenantRef) (pk : PrimaryKey) : Option DictRef → Prop
  | .none => True
  | .some d =>
    match (s.dicts d).lookup m.fkField with
    | .some value => value.tenantKey m s.world.tenants = .some pk
    | .none => (s.world.tenants t).pk = pk

/-- The dictionary the call writes from, if any, carries the tenant meant. A
create whose lookup names the tenant in its `_id` form does not depend on
it. -/
def Call.AgreesUnder (c : Call) (s : Store) (t : TenantRef) : Prop :=
  match c.found m s t with
  | .ok [] => m.fkIdField ∈ c.kwargs ∨ Carries m s t (c.meant m s t) c.createDict
  | .ok [_] => Carries m s t (c.meant m s t) c.updateDict
  | _ => True

def Call.Agrees (c : Call) (s : Store) : Prop :=
  ∀ t, s.world.contextVars.currentTenant = .some t → c.AgreesUnder m s t

/-- The row belongs to the tenant meant. -/
def Call.Stamped (c : Call) (s : Store) (row : Row) : Prop :=
  ∃ t, s.world.contextVars.currentTenant = .some t ∧ row.tenant = .some (c.meant m s t)

/-- Every row the call creates or changes, and the one it answers as created
or updated, belongs to the tenant meant. -/
structure Call.Stamps (c : Call) (s : Store) : Prop where
  rows : ∀ row ∈ (after (c.run st m) s).rows, row ∉ s.rows → c.Stamped m s row
  answer : ∀ row created s', c.run st m s = .ok (row, created) s' → (created || c.updates) = true → c.Stamped m s row

/-- What happens, in any order: calls, edits of the dictionaries by the code
that holds them, and whatever else changes the active tenant or the table. -/
inductive Event where
  | call (c : Call)
  | edit (d : DictRef) (content : Dict)
  | elsewhere (world : World) (rows : List Row)

def Event.step (s : Store) : Event → Store
  | .call c => after (c.run st m) s
  | .edit d content => { s with dicts := Function.update s.dicts d content }
  | .elsewhere world rows => { s with world, rows }

/-- An edit puts no tenant into a dictionary: what entries of the tenant
field it leaves were there. -/
def Event.KeepsOut (s : Store) : Event → Prop
  | .edit d content =>
    ∀ name, name = m.fkField ∨ name = m.fkIdField → ∀ value, content.lookup name = .some value →
      (s.dicts d).lookup name = .some value
  | _ => True

/-- What `KeepsOut` comes to: the tenant field is in a dictionary only as
injection puts it there. -/
structure KeptOut (s : Store) : Prop where
  fkId : ∀ d, m.fkIdField ∉ s.dicts d
  fk : ∀ d value, (s.dicts d).lookup m.fkField = .some value → ∃ t, value = .tenant t

end

section

variable {st : Settings} {m : ModelClass} {t : TenantRef} {s s' : Store} {c : Call} {row : Row} {created : Bool}

/-! ## What a dictionary stamps -/

theorem carries_iff (hk : KeptOut m s) (d : DictRef) (pk : PrimaryKey) :
    Carries m s t pk (.some d) ↔
      (named m s.world.tenants (inject m t (s.dicts d))).getD (s.world.tenants t).pk = pk := by
  rw [named_inject]
  unfold Carries
  simp only
  split
  · next value hvalue =>
    obtain ⟨u, rfl⟩ := hk.fk d value hvalue
    rw [named_of_fk (hk.fkId d) hvalue]
    simp [Value.tenantKey]
  · next hnone =>
    rw [named_of_neither (hk.fkId d) (AList.lookup_eq_none.mp hnone)]
    rfl

theorem KeptOut.injected (hk : KeptOut m s) (ds : List (Option DictRef)) : KeptOut m (injected m t ds s) := by
  constructor
  · intro d
    simp only [TenantManager.injected]
    split
    · rw [fkIdField_mem_inject]
      exact hk.fkId d
    · exact hk.fkId d
  · intro d value h
    simp only [TenantManager.injected] at h
    split at h
    · rcases lookup_fkField_inject h with h | ⟨-, -, rfl⟩
      · exact hk.fk d value h
      · exact ⟨t, rfl⟩
    · exact hk.fk d value h

/-! ## One call -/

/-- What is in the dictionaries passed once the call has injected. -/
theorem contents_injected {ds : List (Option DictRef)} {d : Option DictRef} (hd : d ∈ ds) :
    d.map (injected m t ds s).dicts = d.map fun r => inject m t (s.dicts r) := by
  cases d with
  | none => rfl
  | some d => simp [injected, hd]

theorem Call.run_none (st : Settings) (c : Call) (hm : m.hasTenantColumn = true)
    (ht : s.world.contextVars.currentTenant = .none) :
    ∃ e, c.run st m s = .error e s := by
  cases c with
  | getOrCreate defaults kwargs =>
    obtain ⟨e, he⟩ := injectTenantKwargs_none st hm ht kwargs [defaults]
    exact ⟨e, by simp only [Call.run, TenantManager.getOrCreate, bind_run, he]⟩
  | updateOrCreate defaults createDefaults kwargs =>
    obtain ⟨e, he⟩ := injectTenantKwargs_none st hm ht kwargs [defaults, createDefaults]
    exact ⟨e, by simp only [Call.run, TenantManager.updateOrCreate, bind_run, he]⟩

theorem Call.run_getOrCreate (hm : m.hasTenantColumn = true) (ht : s.world.contextVars.currentTenant = .some t)
    (defaults : Option DictRef) (kwargs : Dict) :
    Call.run st m (.getOrCreate defaults kwargs) s =
      QuerySet.getOrCreate st m (fun row => row.tenant == .some (s.world.tenants t).pk)
        (defaults.map fun r => inject m t (s.dicts r)) (inject m t kwargs) (injected m t [defaults] s) := by
  have ht' : (injected m t [defaults] s).world.contextVars.currentTenant = .some t := ht
  simp only [Call.run, TenantManager.getOrCreate, bind_run, injectTenantKwargs_run hm ht, getQueryset_run hm ht',
    contents, contents_injected List.mem_cons_self]
  rfl

theorem Call.run_updateOrCreate (hm : m.hasTenantColumn = true) (ht : s.world.contextVars.currentTenant = .some t)
    (defaults createDefaults : Option DictRef) (kwargs : Dict) :
    Call.run st m (.updateOrCreate defaults createDefaults kwargs) s =
      QuerySet.updateOrCreate st m (fun row => row.tenant == .some (s.world.tenants t).pk)
        (defaults.map fun r => inject m t (s.dicts r)) (createDefaults.map fun r => inject m t (s.dicts r))
        (inject m t kwargs) (injected m t [defaults, createDefaults] s) := by
  have ht' : (injected m t [defaults, createDefaults] s).world.contextVars.currentTenant = .some t := ht
  simp only [Call.run, TenantManager.updateOrCreate, bind_run, injectTenantKwargs_run hm ht, getQueryset_run hm ht',
    contents, contents_injected List.mem_cons_self, contents_injected (List.mem_cons_of_mem _ List.mem_cons_self)]
  rfl

/-- A failed call writes nothing to the table. Its injections stay. -/
theorem Call.run_error (hm : m.hasTenantColumn = true) (ht : s.world.contextVars.currentTenant = .some t) {e : Exc}
    (h : c.run st m s = .error e s') : s' = injected m t c.dicts s := by
  cases c with
  | getOrCreate defaults kwargs =>
    rw [Call.run_getOrCreate hm ht] at h
    exact getOrCreate_failsClean _ _ _ _ _ _ h
  | updateOrCreate defaults createDefaults kwargs =>
    rw [Call.run_updateOrCreate hm ht] at h
    exact updateOrCreate_failsClean _ _ _ _ _ _ _ h

/-- A row created from the dictionary belongs to the tenant meant just when
the dictionary carries it, or does not count. -/
theorem created_tenant_iff (hm : m.hasTenantColumn = true) (hk : KeptOut m s)
    (ht : s.world.contextVars.currentTenant = .some t) {ds : List (Option DictRef)} {d : Option DictRef}
    {kwargs params : Dict}
    (hparams : extractModelParams m ((d.map fun r => inject m t (s.dicts r)).getD ∅) (inject m t kwargs) = .ok params)
    (hcreate : QuerySet.create st m params (injected m t ds s) = .ok row s') :
    Wrote (injected m t ds s) row s' ∧
      (row.tenant = .some ((named m s.world.tenants kwargs).getD (s.world.tenants t).pk) ↔
        m.fkIdField ∈ kwargs ∨ Carries m s t ((named m s.world.tenants kwargs).getD (s.world.tenants t).pk) d) := by
  obtain ⟨htenant, hw⟩ := create_ok hm (by exact ht) hcreate
  have htenant : row.tenant = .some ((named m s.world.tenants params).getD (s.world.tenants t).pk) := htenant
  refine ⟨hw, ?_⟩
  rw [htenant, Option.some.injEq]
  cases d with
  | none =>
    have hnamed := named_params s.world.tenants hm (AList.notMem_empty _) hparams
    rw [if_neg fun hc => AList.notMem_empty _ hc.2] at hnamed
    simp [hnamed, named_inject, Carries]
  | some r =>
    have hid : m.fkIdField ∉ inject m t (s.dicts r) := fun h => hk.fkId r (fkIdField_mem_inject.mp h)
    have hnamed := named_params s.world.tenants hm hid hparams
    by_cases hkw : m.fkIdField ∈ kwargs
    · rw [if_neg fun hc => hc.1 (fkIdField_mem_inject.mpr hkw)] at hnamed
      simp [hnamed, named_inject, hkw]
    · have hkw' : m.fkIdField ∉ inject m t kwargs := fun h => hkw (fkIdField_mem_inject.mp h)
      rw [if_pos ⟨hkw', fkField_mem_inject (hk.fkId r)⟩] at hnamed
      rw [hnamed, carries_iff hk]
      simp [hkw]

/-- A row that the call finds belongs to the tenant meant, the active one. -/
theorem found_tenant (hm : m.hasTenantColumn = true) (h : c.found m s t = .ok [row]) :
    row.tenant = .some (c.meant m s t) ∧ c.meant m s t = (s.world.tenants t).pk := by
  have hown : row.tenant = .some (s.world.tenants t).pk := by
    have := (matching_ok h List.mem_cons_self).2.1
    simpa using this
  have hnames : m.fkField ∈ inject m t c.kwargs ∨ m.fkIdField ∈ inject m t c.kwargs := by
    by_cases hid : m.fkIdField ∈ c.kwargs
    · exact .inr (fkIdField_mem_inject.mpr hid)
    · exact .inl (fkField_mem_inject hid)
  have hnamed := matching_named hm h List.mem_cons_self hnames
  have hmeant : c.meant m s t = (s.world.tenants t).pk := by
    rw [Call.meant, ← named_inject, ← hnamed, hown]
    rfl
  exact ⟨by rw [hown, hmeant], hmeant⟩

/-- A row that is found and updated from the dictionary stays with the tenant
meant just when the dictionary carries it. -/
theorem updated_tenant_iff (hm : m.hasTenantColumn = true) (hk : KeptOut m s)
    (ht : s.world.contextVars.currentTenant = .some t) {ds : List (Option DictRef)} {d : Option DictRef} {old : Row}
    {obj : Instance} (hfound : c.found m s t = .ok [old])
    (hobj : setattrs m s.world.tenants (.ofRow old) ((d.map fun r => inject m t (s.dicts r)).getD ∅).entries = .ok obj)
    (hsave : save st m obj false (injected m t ds s) = .ok row s') :
    Wrote (injected m t ds s) row s' ∧ (row.tenant = .some (c.meant m s t) ↔ Carries m s t (c.meant m s t) d) := by
  obtain ⟨hold, hmeant⟩ := found_tenant hm hfound
  have hid : m.fkIdField ∉ (d.map fun r => inject m t (s.dicts r)).getD ∅ := by
    cases d with
    | none => exact AList.notMem_empty _
    | some r => exact fun h => hk.fkId r (fkIdField_mem_inject.mp h)
  obtain ⟨hskip, hkey⟩ := setattrs_dict hm hid hobj
  obtain ⟨htenant, hw⟩ := save_ok hm (by exact ht) (hskip.trans rfl) hsave
  have htenant : row.tenant = .some ((obj.tenantId.tenantKey m s.world.tenants).getD (s.world.tenants t).pk) := htenant
  refine ⟨hw, ?_⟩
  rw [htenant, hkey, Option.some.injEq]
  cases d with
  | none => simp [Instance.ofRow, hold, Value.tenantKey, Carries]
  | some r =>
    have hfk : m.fkField ∈ inject m t (s.dicts r) := fkField_mem_inject (hk.fkId r)
    rw [carries_iff hk]
    simp [hfk]

/-- A call that goes through finds a row and leaves the table, or writes one
row, which belongs to the tenant meant just when the call agrees. -/
theorem Call.run_ok (hm : m.hasTenantColumn = true) (hk : KeptOut m s) (ht : s.world.contextVars.currentTenant = .some t)
    (h : c.run st m s = .ok (row, created) s') :
    s'.dicts = (injected m t c.dicts s).dicts ∧
      ((created || c.updates) = false ∧ s'.rows = s.rows ∧ c.AgreesUnder m s t ∨
        (created || c.updates) = true ∧ (∀ r ∈ s'.rows, r = row ∨ r ∈ s.rows) ∧
          (row.tenant = .some (c.meant m s t) ↔ c.AgreesUnder m s t)) := by
  cases c with
  | getOrCreate defaults kwargs =>
    rw [Call.run_getOrCreate hm ht] at h
    rcases getOrCreate_ok h with ⟨rfl, rfl, hfound⟩ | ⟨rfl, hfound, params, hparams, hcreate⟩
    · refine ⟨rfl, .inl ⟨rfl, rfl, ?_⟩⟩
      have hfound : Call.found m (.getOrCreate defaults kwargs) s t = .ok [row] := hfound
      rw [Call.AgreesUnder, hfound]
      trivial
    · obtain ⟨hw, hiff⟩ := created_tenant_iff hm hk ht hparams hcreate
      refine ⟨hw.dicts, .inr ⟨rfl, hw.rows, ?_⟩⟩
      have hfound : Call.found m (.getOrCreate defaults kwargs) s t = .ok [] := hfound
      rw [Call.AgreesUnder, hfound]
      exact hiff
  | updateOrCreate defaults createDefaults kwargs =>
    rw [Call.run_updateOrCreate hm ht] at h
    rcases updateOrCreate_ok h with
      ⟨rfl, old, obj, hfound, hobj, hsave⟩ | ⟨rfl, hfound, params, hparams, hcreate⟩
    · have hfound : Call.found m (.updateOrCreate defaults createDefaults kwargs) s t = .ok [old] := hfound
      obtain ⟨hw, hiff⟩ := updated_tenant_iff hm hk ht hfound hobj hsave
      refine ⟨hw.dicts, .inr ⟨rfl, hw.rows, ?_⟩⟩
      rw [Call.AgreesUnder, hfound]
      exact hiff
    · have hfound : Call.found m (.updateOrCreate defaults createDefaults kwargs) s t = .ok [] := hfound
      have hdict : (createDefaults.map fun r => inject m t (s.dicts r)).getD
          ((defaults.map fun r => inject m t (s.dicts r)).getD ∅) =
            ((createDefaults.or defaults).map fun r => inject m t (s.dicts r)).getD ∅ := by
        cases createDefaults <;> rfl
      rw [hdict] at hparams
      obtain ⟨hw, hiff⟩ := created_tenant_iff hm hk ht hparams hcreate
      refine ⟨hw.dicts, .inr ⟨rfl, hw.rows, ?_⟩⟩
      rw [Call.AgreesUnder, hfound]
      exact hiff

/-- A call that agrees stamps the tenant meant. -/
theorem Call.stamps_of_agrees (hm : m.hasTenantColumn = true) (hk : KeptOut m s) (h : c.Agrees m s) :
    c.Stamps st m s := by
  cases ht : s.world.contextVars.currentTenant with
  | none =>
    obtain ⟨e, he⟩ := c.run_none st hm ht
    refine ⟨fun row hrow hnew => ?_, fun row created s' hr _ => ?_⟩
    · rw [after_of_error he] at hrow
      exact absurd hrow hnew
    · rw [he] at hr
      cases hr
  | some t =>
    have hagrees := h t ht
    have hstamped : ∀ {row created s'}, c.run st m s = .ok (row, created) s' → (created || c.updates) = true →
        c.Stamped m s row := by
      intro row created s' hr hwrites
      rcases (Call.run_ok hm hk ht hr).2 with ⟨hquiet, -⟩ | ⟨-, -, hiff⟩
      · rw [hquiet] at hwrites
        cases hwrites
      · exact ⟨t, ht, hiff.mpr hagrees⟩
    refine ⟨fun row hrow hnew => ?_, fun row created s' => hstamped⟩
    cases hr : c.run st m s with
    | error e s' =>
      rw [after_of_error hr, Call.run_error hm ht hr] at hrow
      exact absurd hrow hnew
    | ok answer s' =>
      obtain ⟨answered, created⟩ := answer
      rw [after_of_ok hr] at hrow
      rcases (Call.run_ok hm hk ht hr).2 with ⟨-, hsame, -⟩ | ⟨hwrites, hrows, -⟩
      · rw [hsame] at hrow
        exact absurd hrow hnew
      · rcases hrows row hrow with rfl | hold
        · exact hstamped hr hwrites
        · exact absurd hold hnew

/-- Of the calls that go through, no other stamps the tenant meant. -/
theorem Call.agrees_of_stamps (hm : m.hasTenantColumn = true) (hk : KeptOut m s)
    (h : c.run st m s = .ok (row, created) s') (hstamps : c.Stamps st m s) : c.Agrees m s := by
  intro t ht
  rcases (Call.run_ok hm hk ht h).2 with ⟨-, -, hagrees⟩ | ⟨hwrites, -, hiff⟩
  · exact hagrees
  · obtain ⟨t', ht', htenant⟩ := hstamps.answer row created s' h hwrites
    obtain rfl : t = t' := Option.some.inj (ht.symm.trans ht')
    exact hiff.mp htenant

/-! ## Runs -/

theorem Call.run_keptOut (hm : m.hasTenantColumn = true) (hk : KeptOut m s) : KeptOut m (after (c.run st m) s) := by
  cases ht : s.world.contextVars.currentTenant with
  | none =>
    obtain ⟨e, he⟩ := c.run_none st hm ht
    rw [after_of_error he]
    exact hk
  | some t =>
    have hinjected := hk.injected (t := t) c.dicts
    cases hr : c.run st m s with
    | error e s' =>
      rw [after_of_error hr, Call.run_error hm ht hr]
      exact hinjected
    | ok answer s' =>
      have hdicts := (Call.run_ok hm hk ht hr).1
      rw [after_of_ok hr]
      exact ⟨fun d => by rw [hdicts]; exact hinjected.fkId d, fun d => by rw [hdicts]; exact hinjected.fk d⟩

theorem step_keptOut (hm : m.hasTenantColumn = true) (hk : KeptOut m s) {e : Event} (he : e.KeepsOut m s) :
    KeptOut m (e.step st m s) := by
  cases e with
  | call c => exact Call.run_keptOut hm hk
  | edit d content =>
    -- An entry of the tenant field in the new content was in the old one.
    have hentry : ∀ d' name, name = m.fkField ∨ name = m.fkIdField → ∀ value,
        (Function.update s.dicts d content d').lookup name = .some value → (s.dicts d').lookup name = .some value := by
      intro d' name hname value h
      by_cases hd : d' = d
      · subst hd
        rw [Function.update_self] at h
        exact he name hname value h
      · rwa [Function.update_of_ne hd] at h
    constructor
    · intro d' hmem
      obtain ⟨value, hvalue⟩ := exists_lookup hmem
      exact hk.fkId d' (mem_of_lookup (hentry d' _ (.inr rfl) value hvalue))
    · intro d' value h
      exact hk.fk d' value (hentry d' _ (.inl rfl) value h)
  | elsewhere world rows => exact ⟨hk.fkId, hk.fk⟩

/-- What a run allows: edits keep the tenant field out of the dictionaries,
and every call agrees. -/
def Event.Allowed (m : ModelClass) (s : Store) (e : Event) : Prop :=
  e.KeepsOut m s ∧ ∀ c, e = .call c → c.Agrees m s

/-- In a run whose calls all agree, every call stamps the tenant meant. -/
theorem stamps_of_run (hm : m.hasTenantColumn = true) {start : Store}
    (hstart : ∀ d, m.fkField ∉ start.dicts d ∧ m.fkIdField ∉ start.dicts d)
    (h : Reaches (fun s e => Event.step st m s e) (Event.Allowed m) start s) (hc : Event.Allowed m s (.call c)) :
    c.Stamps st m s := by
  have hinit : KeptOut m start :=
    ⟨fun d => (hstart d).2, fun d value hvalue => absurd (mem_of_lookup hvalue) (hstart d).1⟩
  have hkept : KeptOut m s := h.invariant (KeptOut m) hinit fun _ _ hk he => step_keptOut hm hk he.1
  exact Call.stamps_of_agrees hm hkept (hc.2 c rfl)

end

/-! ## Two calls under two tenants -/

namespace TwoRegions

/-- A model whose tenant column is `merchant_id`. -/
def product : ModelClass where
  name := "Product"
  boundaryFkField := .some "merchant"
  fkFieldChecked := by simp [hasLookupSep, hasDoubleUnderscore]
  hasField name := name ∈ ["id", "sku", "merchant", "merchant_id"]
  keyword name value := .ok fun row => row.columns.lookup name == .some value
  readKey
    | .key pk => .some pk
    | _ => .none
  readTenantKey _ := .none
  nextKey rows := .int (rows.length + 1)
  constraints _ _ := true

def under (t : TenantRef) : World := { autocommit with contextVars := { currentTenant := .some t } }

/-- No rows, and empty dictionaries. -/
def noRows : Store where
  world := under 0
  dicts _ := ∅
  rows := []

/-- `get_or_create(sku="A1", defaults=d)`. -/
def createSku (d : DictRef) : Call := .getOrCreate (.some d) (AList.singleton "sku" (.text "A1"))

/-- Tenant 0 has made the call with dictionary 0, and tenant 1 is active. -/
def onceCreated : Store := { after ((createSku 0).run settings product) noRows with world := under 1 }

theorem noRows_keeps_out (d : DictRef) : product.fkField ∉ noRows.dicts d ∧ product.fkIdField ∉ noRows.dicts d :=
  ⟨AList.notMem_empty _, AList.notMem_empty _⟩

theorem createSku_agrees_noRows : (createSku 0).Agrees product noRows := by
  intro t ht
  obtain rfl : 0 = t := Option.some.inj ht
  exact .inr rfl

/-- With a dictionary of its own, tenant 1's call stamps tenant 1. -/
theorem stamps_of_run_createSku : (createSku 1).Stamps settings product onceCreated := by
  refine stamps_of_run rfl noRows_keeps_out
    (.step (Event.elsewhere (under 1) onceCreated.rows) (.step (Event.call (createSku 0)) .refl ?_) ?_) ?_
  · refine ⟨trivial, fun c hc => ?_⟩
    cases hc
    exact createSku_agrees_noRows
  · exact ⟨trivial, fun c hc => by cases hc⟩
  · refine ⟨trivial, fun c hc => ?_⟩
    cases hc
    intro t ht
    obtain rfl : 1 = t := Option.some.inj ht
    exact .inr rfl

/-- With tenant 0's dictionary, tenant 1's call creates a row for tenant 0. -/
theorem sharedDefaults_stamp_other_tenant :
    ¬ ∀ (st : Settings) (m : ModelClass) (start s : Store) (c : Call), m.hasTenantColumn = true →
      (∀ d, m.fkField ∉ start.dicts d ∧ m.fkIdField ∉ start.dicts d) →
      Reaches (fun s e => Event.step st m s e) (fun s e => Event.KeepsOut m s e) start s → c.Stamps st m s := by
  intro hclaim
  have hstamps := hclaim settings product noRows onceCreated (createSku 0) rfl noRows_keeps_out
    (.step (Event.elsewhere (under 1) onceCreated.rows) (.step (Event.call (createSku 0)) .refl trivial) trivial)
  have hrun : ∃ row s', (createSku 0).run settings product onceCreated = .ok (row, true) s' ∧
      row.tenant = .some (.int 1) := ⟨_, _, rfl, rfl⟩
  obtain ⟨row, s', hrun, htenant⟩ := hrun
  obtain ⟨t, ht, hmeant⟩ := hstamps.answer row true s' hrun rfl
  obtain rfl : 1 = t := Option.some.inj ht
  rw [htenant] at hmeant
  exact absurd hmeant (by decide)

end TwoRegions

end Boundary
