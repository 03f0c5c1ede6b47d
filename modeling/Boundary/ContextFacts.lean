/-
Facts about the tenant context: which aliases a scope covers, and what its
entry and exit leave of every connection.
-/
import Boundary.Context

namespace Boundary

open Exec TenantContext

/-! ## Aliases -/

theorem regionalAlias_ne_default {st : Settings} {t : Option Tenant} {a : Alias}
    (h : regionalAlias st t = .some a) : a ≠ "default" := by
  unfold regionalAlias at h
  split at h
  · cases h
  split at h
  · cases h
  · cases h
  split at h
  · cases h
  split at h
  · cases h
  · next hr =>
    cases h
    exact fun he => hr (.inr (.inr he))

theorem targetAliases_eq (st : Settings) (t : Option Tenant) :
    targetAliases st t = "default" :: (regionalAlias st t).toList := by
  unfold targetAliases
  cases h : regionalAlias st t with
  | none => rfl
  | some a => simp [regionalAlias_ne_default h]

theorem mem_aliasesFor {st : Settings} {t : Option Tenant} {base a : Alias} :
    a ∈ aliasesFor st t base ↔ a = base ∨ a = "default" ∨ regionalAlias st t = .some a := by
  unfold aliasesFor
  rw [targetAliases_eq]
  cases h : regionalAlias st t with
  | none =>
    by_cases hd : "default" = base
    · simp [hd]
    · simp [hd]
  | some r =>
    have hrd : r ≠ "default" := regionalAlias_ne_default h
    by_cases hd : "default" = base
    · subst hd
      simp [hrd, eq_comm (a := r)]
    · by_cases hb : r = base
      · subst hb
        by_cases ha : a = r <;> simp [hd, ha, eq_comm (a := r)]
      · simp [hd, hb, hrd, eq_comm (a := r)]

theorem nodup_aliasesFor (st : Settings) (t : Option Tenant) (base : Alias) : (aliasesFor st t base).Nodup := by
  unfold aliasesFor
  refine List.foldlRecOn _ _ (motive := List.Nodup) (List.nodup_singleton base) fun aliases hn a _ => ?_
  split
  · next h => exact hn.append (List.nodup_singleton a) (by simpa using h.2)
  · exact hn

/-- With the base alias `default`, a scope covers it and the tenant's
regional alias. -/
theorem aliasesFor_default (st : Settings) (t : Option Tenant) :
    aliasesFor st t "default" = "default" :: (regionalAlias st t).toList := by
  unfold aliasesFor
  rw [targetAliases_eq]
  cases h : regionalAlias st t with
  | none => rfl
  | some a => simp [regionalAlias_ne_default h]

/-! ## Programs on the connections -/

theorem db_ok_iff {x : Db α} {w w' : World} {r : α} :
    db x w = .ok r w' ↔ ∃ cs, x w.connections = .ok r cs ∧ w' = { w with connections := cs } :=
  zoom_ok_iff

theorem db_error_iff {x : Db α} {w w' : World} {e : Exc} :
    db x w = .error e w' ↔ ∃ cs, x w.connections = .error e cs ∧ w' = { w with connections := cs } :=
  zoom_error_iff

theorem after_db (x : Db α) (w : World) : after (db x) w = { w with connections := after x w.connections } :=
  after_zoom _ _ _ _

/-! ## The session variable -/

/-- The package writes the session variable on the alias at all. -/
def writesVar (st : Settings) (a : Alias) : Bool := st.setDbSessionVar && isPostgresql st a

/-- What a write of the session variable changes. -/
def writeVar (st : Settings) (a : Alias) (value : String) : SessionVars → SessionVars :=
  if writesVar st a then setConfig st.dbSessionVar value else id

theorem setDbSessionOn_spec {st : Settings} {a : Alias} {value : String} {c c' : Connection}
    {r : Except Exc Unit} (h : setDbSessionOn st a value c = (r, c')) :
    Connection.Ran (writeVar st a value) c c' ∧
      ((r = .ok () ∧ (c.usable = true → c'.usable = true) ∧
          (writesVar st a = true → c.opened = true → c.accepts = true)) ∨
        ((∃ e, r = .error e) ∧ writesVar st a = true ∧ c.opened = true ∧ c.accepts = false ∧
          (c.inAtomicBlock = true → c'.usable = false))) := by
  unfold setDbSessionOn at h
  split at h
  · next hset =>
    cases h
    have hw : writesVar st a = false := by simp [writesVar] at hset ⊢; simp [hset]
    exact ⟨by simpa [writeVar, hw] using Connection.Ran.refl _, .inl ⟨rfl, fun h => h, by simp [hw]⟩⟩
  split at h
  · next hpg =>
    cases h
    have hw : writesVar st a = false := by simp [writesVar] at hpg ⊢; simp [hpg]
    exact ⟨by simpa [writeVar, hw] using Connection.Ran.refl _, .inl ⟨rfl, fun h => h, by simp [hw]⟩⟩
  next hset hpg =>
  have hw : writesVar st a = true := by simp_all [writesVar]
  have hf : writeVar st a value = setConfig st.dbSessionVar value := by simp [writeVar, hw]
  rw [hf]
  split at h
  · next hopen =>
    cases r with
    | ok u =>
      obtain ⟨hran, ha, hu, -⟩ := Connection.run_ok h
      exact ⟨hran, .inl ⟨rfl, fun _ => hu, fun _ _ => ha⟩⟩
    | error e =>
      obtain ⟨hran, ha, hu⟩ := Connection.run_error h
      exact ⟨hran, .inr ⟨⟨_, rfl⟩, hw, hopen, ha hopen, hu⟩⟩
  · next hopen =>
    cases h
    have hauto : c.inAtomicBlock = false := by
      rw [← Bool.not_eq_true]
      exact fun ht => hopen (Connection.opened_of_inAtomicBlock ht)
    exact ⟨⟨rfl, fun h => h, fun _ => by simp [hauto]⟩, .inl ⟨rfl, fun h => h, fun _ h => absurd h hopen⟩⟩

theorem setDbSessionOn_ran (st : Settings) (a : Alias) (value : String) (c : Connection) :
    Connection.Ran (writeVar st a value) c (setDbSessionOn st a value c).2 :=
  (setDbSessionOn_spec rfl).1

/-- A write that goes through in a transaction is in force. -/
theorem setDbSessionOn_ok {st : Settings} {a : Alias} {value : String} {c c' : Connection} {u : Unit}
    (h : setDbSessionOn st a value c = (.ok u, c')) :
    Connection.Ran (writeVar st a value) c c' ∧ (c.usable = true → c'.usable = true) ∧
      (writesVar st a = true → c.opened = true → c.accepts = true) := by
  obtain ⟨hran, ⟨-, hrest⟩ | ⟨⟨_, he⟩, -⟩⟩ := setDbSessionOn_spec h
  · exact ⟨hran, hrest⟩
  · cases he

theorem setDbSessionOn_error {st : Settings} {a : Alias} {value : String} {c c' : Connection} {e : Exc}
    (h : setDbSessionOn st a value c = (.error e, c')) :
    Connection.Ran (writeVar st a value) c c' ∧ writesVar st a = true ∧ c.opened = true ∧ c.accepts = false ∧
      (c.inAtomicBlock = true → c'.usable = false) := by
  obtain ⟨hran, ⟨he, -⟩ | ⟨-, hrest⟩⟩ := setDbSessionOn_spec h
  · cases he
  · exact ⟨hran, hrest⟩

/-! ## The transactions a scope opens -/

/-- `_ensure_atomic` opens a transaction on the alias. -/
def opensAtomic (st : Settings) (cs : Connections) (a : Alias) : Bool :=
  (st.databases a).isSome && st.wrapAtomic && !(cs a).inAtomicBlock

theorem not_inAtomicBlock_of_opensAtomic {st : Settings} {cs : Connections} {a : Alias}
    (h : opensAtomic st cs a = true) : (cs a).inAtomicBlock = false := by
  simp only [opensAtomic, Bool.and_eq_true, Bool.not_eq_true'] at h
  exact h.2

theorem ensureAtomic_ok {st : Settings} {a : Alias} {cs cs' : Connections} {mine : Bool}
    (h : ensureAtomic st a cs = .ok mine cs') :
    mine = opensAtomic st cs a ∧ (∀ b, b ≠ a → cs' b = cs b) ∧
      (mine = false → cs' a = cs a) ∧ (mine = true → (cs a).atomicEnter true = (.ok (), cs' a)) := by
  unfold ensureAtomic at h
  split at h
  · next hconf =>
    cases h
    simp_all [opensAtomic]
  split at h
  · next hconf hwrap =>
    cases h
    simp_all [opensAtomic]
  · next hconf hwrap =>
    rw [onCell_ok_iff] at h
    obtain ⟨h, hrest⟩ := h
    split at h
    · next hin =>
      simp only [Prod.mk.injEq, Except.ok.injEq] at h
      obtain ⟨rfl, hsame⟩ := h
      exact ⟨by simp [opensAtomic, hin], hrest, fun _ => hsame.symm, by simp⟩
    · next hin =>
      split at h
      · next hx =>
        simp only [Prod.mk.injEq, Except.ok.injEq] at h
        obtain ⟨rfl, rfl⟩ := h
        refine ⟨?_, hrest, by simp, fun _ => hx⟩
        simp only [Bool.not_eq_true, Option.isNone_eq_false_iff, Bool.not_eq_false'] at hconf hwrap hin
        simp [opensAtomic, hconf, hwrap, hin]
      · cases h

theorem ensureAtomic_error {st : Settings} {a : Alias} {cs cs' : Connections} {e : Exc}
    (h : ensureAtomic st a cs = .error e cs') : cs' = cs := by
  unfold ensureAtomic at h
  split at h
  · cases h
  split at h
  · cases h
  rw [onCell_error_iff] at h
  obtain ⟨h, hrest⟩ := h
  split at h
  · cases h
  split at h
  · cases h
  next hx =>
  cases h
  funext b
  by_cases hb : b = a
  · subst hb
    exact Connection.atomicEnter_error hx
  · exact hrest b hb

theorem exitAtomics_run {failed : Bool} {opened : List Alias} (cs : Connections) (hn : opened.Nodup) :
    exitAtomics failed opened cs =
      .ok () fun a => if a ∈ opened then ((cs a).atomicExit failed).2 else cs a := by
  rw [exitAtomics, forM_attempt_onCell cs (List.nodup_reverse.mpr hn)]
  simp only [List.mem_reverse]

theorem frames_eq_nil {c : Connection} (hc : c.inAtomicBlock = false) : c.frames = [] := by
  by_contra hne
  rw [Connection.inAtomicBlock_iff.mpr hne] at hc
  cases hc

/-- A transaction entered from autocommit and left again leaves autocommit,
whatever ran in it. -/
theorem session_left {failed : Bool} {c c₁ c₂ : Connection} {u : Unit} (hc : c.inAtomicBlock = false)
    (he : c.atomicEnter true = (.ok u, c₁)) (hf : c₂.frames = c₁.frames) :
    ((c₂.atomicExit failed).2).session = .autocommit := by
  obtain ⟨f, hframes, -⟩ := Txn.Session.enter_spec (Connection.atomicEnter_ok he).1
  have hone : c₂.session.frames SessionVars.idle = f :: c.session.frames .idle := hf.trans hframes
  have hnil : c.session.frames SessionVars.idle = [] := frames_eq_nil hc
  rw [Connection.session_atomicExit]
  exact Txn.Session.leave_outermost SessionVars.idle (by simp [hone, hnil])

theorem enterAtomics_ok {st : Settings} :
    ∀ {as : List Alias} {cs cs' : Connections} {opened : List Alias}, as.Nodup →
      enterAtomics st as cs = .ok opened cs' →
      opened = as.filter (opensAtomic st cs) ∧ (∀ a, a ∉ opened → cs' a = cs a) ∧
        ∀ a ∈ opened, (cs a).atomicEnter true = (.ok (), cs' a)
  | [], cs, cs', opened, _, h => by
    simp only [enterAtomics, pure_run, EStateM.Result.ok.injEq] at h
    obtain ⟨rfl, rfl⟩ := h
    simp
  | a :: as, cs, cs', opened, hn, h => by
    rw [List.nodup_cons] at hn
    simp only [enterAtomics, bind_ok_iff, onError_ok_iff, pure_run, EStateM.Result.ok.injEq] at h
    obtain ⟨mine, cs₁, hmine, opened₁, cs₂, hrest, rfl, rfl⟩ := h
    obtain ⟨hopens, hother, hno, hyes⟩ := ensureAtomic_ok hmine
    obtain ⟨hopened, hsame, henter⟩ := enterAtomics_ok hn.2 hrest
    -- The later aliases are not this one, so they were as at the start.
    have hstart : ∀ b ∈ as, cs₁ b = cs b := fun b hb => hother b fun he => hn.1 (he ▸ hb)
    have hfilter : opened₁ = as.filter (opensAtomic st cs) := by
      rw [hopened]
      exact List.filter_congr fun b hb => by simp [opensAtomic, hstart b hb]
    have hnot : a ∉ opened₁ := fun hmem => hn.1 (List.mem_of_mem_filter (hfilter ▸ hmem))
    refine ⟨?_, fun b hb => ?_, fun b hb => ?_⟩
    · rw [List.filter_cons, ← hopens, hfilter]
    · have hb₁ : b ∉ opened₁ := fun hmem => hb (by split <;> simp [hmem])
      rw [hsame b hb₁]
      by_cases hba : b = a
      · subst hba
        cases mine with
        | false => exact hno rfl
        | true => simp at hb
      · exact hother b hba
    · by_cases hba : b = a
      · subst hba
        cases mine with
        | false => simp [hnot] at hb
        | true => rw [hsame b hnot]; exact hyes rfl
      · have hb₁ : b ∈ opened₁ := by
          split at hb
          · exact (List.mem_cons.mp hb).resolve_left hba
          · exact hb
        rw [← hother b hba]
        exact henter b hb₁

/-- A failure while opening leaves every session as it was. -/
theorem enterAtomics_error {st : Settings} :
    ∀ {as : List Alias} {cs cs' : Connections} {e : Exc}, as.Nodup → enterAtomics st as cs = .error e cs' →
      ∀ a, (cs' a).session = (cs a).session
  | [], cs, cs', e, _, h => by simp [enterAtomics] at h
  | a :: as, cs, cs', e, hn, h => by
    rw [List.nodup_cons] at hn
    simp only [enterAtomics, bind_error_iff, onError_error_iff] at h
    rcases h with h | ⟨mine, cs₁, hmine, ⟨cs₂, hrest, rfl⟩ | ⟨_, _, -, h⟩⟩
    · rw [ensureAtomic_error h]
      exact fun _ => rfl
    · obtain ⟨hopens, hother, hno, hyes⟩ := ensureAtomic_ok hmine
      have hkeep := enterAtomics_error hn.2 hrest
      intro b
      rw [after, exitAtomics_run _ (by split <;> simp)]
      by_cases hba : b = a
      · subst hba
        cases mine with
        | false => simp [hkeep, hno]
        | true =>
          have hc : (cs b).inAtomicBlock = false := not_inAtomicBlock_of_opensAtomic hopens.symm
          have hframes : (cs₂ b).frames = (cs₁ b).frames := by rw [Connection.frames, Connection.frames, hkeep]
          simp only [if_true, List.mem_singleton]
          rw [session_left hc (hyes rfl) hframes]
          exact (Txn.Session.eq_autocommit hc).symm
      · have hb : b ∉ (if mine = true then [a] else []) := by split <;> simp [hba]
        simp [hb, hkeep, hother b hba]
    · simp at h

/-! ## `set` -/

/-- The world with another active tenant and other connections. -/
def World.withTenant (w : World) (t : Option TenantRef) (cs : Connections) : World :=
  { w with contextVars := { w.contextVars with currentTenant := t }, connections := cs }

/-- `set(None)` touches no connection. -/
theorem set_none (st : Settings) (base : Alias) (w : World) :
    TenantContext.set st .none base w = .ok w.contextVars.currentTenant (w.withTenant .none w.connections) := rfl

/-- What `set` runs on the connections. -/
def setAll (st : Settings) (tenant : Tenant) (base : Alias) : Db Unit :=
  forM (aliasesFor st (.some tenant) base) fun a => onCell a (setDbSessionOn st a tenant.pk.str)

theorem set_ok {st : Settings} {t : TenantRef} {base : Alias} {w w' : World} {token : Token}
    (h : TenantContext.set st (.some t) base w = .ok token w') :
    token = w.contextVars.currentTenant ∧
      ∃ cs, setAll st (w.tenants t) base w.connections = .ok () cs ∧ w' = w.withTenant (.some t) cs := by
  simp only [TenantContext.set, setVar, bind_ok_iff, onError_ok_iff, EStateM.Result.ok.injEq, pure_run, attributes,
    db_ok_iff] at h
  obtain ⟨_, _, ⟨rfl, rfl⟩, _, _, ⟨_, _, ⟨rfl, rfl⟩, cs, hcs, rfl⟩, rfl, rfl⟩ := h
  exact ⟨rfl, cs, hcs, rfl⟩

/-- A `set` that raises puts the context variable back, and no connection. -/
theorem set_error {st : Settings} {t : Option TenantRef} {base : Alias} {w w' : World} {e : Exc}
    (h : TenantContext.set st t base w = .error e w') :
    ∃ u cs, t = .some u ∧ setAll st (w.tenants u) base w.connections = .error e cs ∧
      w' = { w with connections := cs } := by
  cases t with
  | none => rw [set_none] at h; cases h
  | some u =>
    simp only [TenantContext.set, setVar, bind_error_iff, onError_error_iff, attributes, db_error_iff, pure_run,
      EStateM.Result.ok.injEq, reduceCtorEq, false_or, and_false, exists_const, exists_false, or_false] at h
    obtain ⟨_, _, ⟨rfl, rfl⟩, _, ⟨_, _, ⟨rfl, rfl⟩, cs, hcs, rfl⟩, rfl⟩ := h
    exact ⟨u, cs, rfl, hcs, rfl⟩

theorem setAll_ok {st : Settings} {t : Tenant} {base : Alias} {cs cs' : Connections}
    (h : setAll st t base cs = .ok () cs') :
    (∀ a ∈ aliasesFor st (.some t) base, setDbSessionOn st a t.pk.str (cs a) = (.ok (), cs' a)) ∧
      ∀ a, a ∉ aliasesFor st (.some t) base → cs' a = cs a :=
  forM_onCell_ok (nodup_aliasesFor st _ base) h

theorem setAll_error {st : Settings} {t : Tenant} {base : Alias} {cs cs' : Connections} {e : Exc}
    (h : setAll st t base cs = .error e cs') :
    ∃ pre x post, aliasesFor st (.some t) base = pre ++ x :: post ∧
      (∀ a ∈ pre, setDbSessionOn st a t.pk.str (cs a) = (.ok (), cs' a)) ∧
      setDbSessionOn st x t.pk.str (cs x) = (.error e, cs' x) ∧ ∀ a, a ∉ pre → a ≠ x → cs' a = cs a :=
  forM_onCell_error (nodup_aliasesFor st _ base) h

/-! ## The exits -/

/-- What the exit of a scope over `aliases` leaves of a connection, when the
previous tenant (its key and its aliases) is made active `again`. -/
def restoreOn (st : Settings) (aliases : List Alias) (again : Option (String × List Alias)) (a : Alias)
    (c : Connection) : Connection :=
  let c := if a ∈ aliases then (setDbSessionOn st a "" c).2 else c
  match again with
  | .none => c
  | .some (pk, aliases) => if a ∈ aliases then (setDbSessionOn st a pk c).2 else c

/-- The previous tenant's key and aliases. -/
def againOf (st : Settings) (tenants : TenantRef → Tenant) (base : Alias) (previous : Option TenantRef) :
    Option (String × List Alias) :=
  previous.map fun p => ((tenants p).pk.str, aliasesFor st (.some (tenants p)) base)

theorem restore_run {st : Settings} {aliases : List Alias} {previous : Option TenantRef} {base : Alias}
    (w : World) (hn : aliases.Nodup) :
    restore st aliases previous base w =
      .ok () (w.withTenant w.contextVars.currentTenant fun a =>
        restoreOn st aliases (againOf st w.tenants base previous) a (w.connections a)) := by
  have hclear : db (forM aliases fun a => attempt (clearDbSession st a)) w =
      .ok () (w.withTenant w.contextVars.currentTenant fun a =>
        if a ∈ aliases then (setDbSessionOn st a "" (w.connections a)).2 else w.connections a) := by
    rw [db_ok_iff]
    exact ⟨_, forM_attempt_onCell w.connections hn, rfl⟩
  unfold restore
  rw [bind_run, hclear]
  cases previous with
  | none => rfl
  | some p =>
    simp only [bind_run, attributes, db_ok_iff]
    exact ⟨_, forM_attempt_onCell _ (nodup_aliasesFor st _ base), rfl⟩

/-- What an exit changes of the settings of a connection. -/
def restoreVars (st : Settings) (aliases : List Alias) (again : Option (String × List Alias)) (a : Alias) :
    SessionVars → SessionVars :=
  (match again with
  | .none => id
  | .some (pk, aliases) => if a ∈ aliases then writeVar st a pk else id) ∘
    if a ∈ aliases then writeVar st a "" else id

theorem restoreOn_ran (st : Settings) (aliases : List Alias) (again : Option (String × List Alias))
    (a : Alias) (c : Connection) :
    Connection.Ran (restoreVars st aliases again a) c (restoreOn st aliases again a c) := by
  have hclear : Connection.Ran (if a ∈ aliases then writeVar st a "" else id) c
      (if a ∈ aliases then (setDbSessionOn st a "" c).2 else c) := by
    split
    · exact setDbSessionOn_ran st a "" c
    · exact .refl c
  unfold restoreOn restoreVars
  cases again with
  | none => exact hclear
  | some p =>
    obtain ⟨pk, again⟩ := p
    refine hclear.trans ?_
    simp only
    split
    · exact setDbSessionOn_ran st a pk _
    · exact .refl _

/-- The alias carries the previous tenant again, or nothing, or what it
carried when neither the scope nor the previous tenant covers it. -/
theorem restoreVars_eq (st : Settings) (aliases : List Alias) (again : Option (String × List Alias))
    (a : Alias) (vars : SessionVars) (hw : writesVar st a = true) :
    restoreVars st aliases again a vars st.dbSessionVar =
      match again with
      | .some (pk, as) => if a ∈ as then pk else if a ∈ aliases then "" else vars st.dbSessionVar
      | .none => if a ∈ aliases then "" else vars st.dbSessionVar := by
  unfold restoreVars
  cases again with
  | none => by_cases ha : a ∈ aliases <;> simp [ha, writeVar, hw, setConfig]
  | some p => by_cases ha : a ∈ aliases <;> by_cases hp : a ∈ p.2 <;> simp [ha, hp, writeVar, hw, setConfig]

/-- `clear` resets the context variable, then restores. -/
theorem clear_run {st : Settings} {token : Token} {base : Alias} (w : World) :
    clear st token base w =
      .ok () (w.withTenant token fun a =>
        restoreOn st
          (match w.contextVars.currentTenant with
          | .some t => aliasesFor st (.some (w.tenants t)) base
          | .none => [base])
          (againOf st w.tenants base token) a (w.connections a)) := by
  simp only [clear, bind_run, TenantContext.get, resetVar]
  cases w.contextVars.currentTenant with
  | none => exact restore_run _ (List.nodup_singleton base)
  | some t => exact restore_run _ (nodup_aliasesFor st _ base)

/-- The exit of `using` resets the context variable and restores, then
leaves the transactions the entry opened. -/
theorem usingExit_run (st : Settings) {scope : UsingScope} (failed : Bool) (w : World)
    (hn : scope.aliases.Nodup) (ho : scope.opened.Nodup) :
    usingExit st scope failed w =
      .ok () (w.withTenant scope.token fun a =>
        let c := restoreOn st scope.aliases (againOf st w.tenants scope.base scope.previous) a (w.connections a)
        if a ∈ scope.opened then (c.atomicExit failed).2 else c) := by
  simp only [usingExit, bind_run, resetVar]
  rw [restore_run _ hn, db_ok_iff]
  exact ⟨_, exitAtomics_run _ ho, rfl⟩

/-! ## The entry of `using` -/

/-- The attributes of a tenant that may be `None`, in a world. -/
def World.tenant? (w : World) (t : Option TenantRef) : Option Tenant := t.map w.tenants

theorem attributes?_run (t : Option TenantRef) (w : World) : attributes? t w = .ok (w.tenant? t) w := by
  cases t <;> rfl

theorem usingEnter_ok {st : Settings} {t : Option TenantRef} {base : Alias} {w w' : World}
    {scope : UsingScope} (h : usingEnter st t base w = .ok scope w') :
    ∃ cs, enterAtomics st (aliasesFor st (w.tenant? t) base) w.connections = .ok scope.opened cs ∧
      TenantContext.set st t base { w with connections := cs } = .ok scope.token w' ∧
      scope.previous = w.contextVars.currentTenant ∧ scope.base = base ∧
      scope.aliases = aliasesFor st (w.tenant? t) base := by
  simp only [usingEnter, bind_ok_iff, TenantContext.get, attributes?_run, onError_ok_iff, db_ok_iff, pure_run,
    EStateM.Result.ok.injEq] at h
  obtain ⟨_, _, ⟨rfl, rfl⟩, _, _, ⟨rfl, rfl⟩, opened, _, ⟨cs, hcs, rfl⟩, token, _, hset, rfl, rfl⟩ := h
  exact ⟨cs, hcs, hset, rfl, rfl, rfl⟩

/-- An entry of `using` that raises: opening the transactions failed, or
`set` did and they were left again. -/
theorem usingEnter_error {st : Settings} {t : Option TenantRef} {base : Alias} {w w' : World} {e : Exc}
    (h : usingEnter st t base w = .error e w') :
    (∃ cs, enterAtomics st (aliasesFor st (w.tenant? t) base) w.connections = .error e cs ∧
      w' = { w with connections := cs }) ∨
    ∃ opened cs w₁, enterAtomics st (aliasesFor st (w.tenant? t) base) w.connections = .ok opened cs ∧
      TenantContext.set st t base { w with connections := cs } = .error e w₁ ∧
      w' = { w₁ with connections := fun a =>
        if a ∈ opened then ((w₁.connections a).atomicExit true).2 else w₁.connections a } := by
  simp only [usingEnter, bind_error_iff, TenantContext.get, attributes?_run, onError_error_iff, db_error_iff, db_ok_iff,
    EStateM.Result.ok.injEq, pure_run, reduceCtorEq, false_or, and_false, exists_const, exists_false, or_false] at h
  obtain ⟨_, _, ⟨rfl, rfl⟩, _, _, ⟨rfl, rfl⟩, ⟨cs, hcs, rfl⟩ | ⟨opened, _, ⟨cs, hcs, rfl⟩, w₁, hset, rfl⟩⟩ := h
  · exact .inl ⟨cs, hcs, rfl⟩
  · have ho : opened.Nodup := by
      rw [(enterAtomics_ok (nodup_aliasesFor st _ base) hcs).1]
      exact (nodup_aliasesFor st _ base).filter _
    refine .inr ⟨opened, cs, w₁, hcs, hset, ?_⟩
    rw [after_db, after, exitAtomics_run _ ho]

/-! ## Entries and exits, one connection at a time -/

/-- What the entry of a scope changes of the settings of a connection. -/
def entryVars (st : Settings) (t : Option Tenant) (base a : Alias) : SessionVars → SessionVars :=
  match t with
  | .none => id
  | .some u => if a ∈ aliasesFor st (.some u) base then writeVar st a u.pk.str else id

theorem set_spec {st : Settings} {t : Option TenantRef} {base : Alias} {w w' : World} {token : Token}
    (h : TenantContext.set st t base w = .ok token w') :
    token = w.contextVars.currentTenant ∧ w' = w.withTenant t w'.connections ∧
      ∀ a, Connection.Ran (entryVars st (w.tenant? t) base a) (w.connections a) (w'.connections a) ∧
        ((w.connections a).usable = true → (w'.connections a).usable = true) := by
  cases t with
  | none =>
    rw [set_none] at h
    cases h
    exact ⟨rfl, rfl, fun a => ⟨.refl _, fun hu => hu⟩⟩
  | some u =>
    obtain ⟨rfl, cs, hcs, rfl⟩ := set_ok h
    obtain ⟨hin, hout⟩ := setAll_ok hcs
    refine ⟨rfl, rfl, fun a => ?_⟩
    simp only [entryVars, World.tenant?, Option.map_some]
    split
    · next ha => exact ⟨(setDbSessionOn_ok (hin a ha)).1, (setDbSessionOn_ok (hin a ha)).2.1⟩
    · next ha =>
      have hsame : (w.withTenant (.some u) cs).connections a = w.connections a := hout a ha
      rw [hsame]
      exact ⟨.refl _, fun hu => hu⟩

/-- What a raising write over `default` and the regional alias leaves: it
wrote on the aliases before the one that raised. -/
theorem set_error_spec {st : Settings} {t : Option TenantRef} {base : Alias} {w w' : World} {e : Exc}
    (h : TenantContext.set st t base w = .error e w') :
    ∃ u pre x post, t = .some u ∧ aliasesFor st (.some (w.tenants u)) base = pre ++ x :: post ∧
      w' = { w with connections := w'.connections } ∧
      (∀ a ∈ pre, setDbSessionOn st a (w.tenants u).pk.str (w.connections a) = (.ok (), w'.connections a)) ∧
      setDbSessionOn st x (w.tenants u).pk.str (w.connections x) = (.error e, w'.connections x) ∧
      ∀ a, a ∉ pre → a ≠ x → w'.connections a = w.connections a := by
  obtain ⟨u, cs, rfl, hcs, rfl⟩ := set_error h
  obtain ⟨pre, x, post, hsplit, hpre, hx, hrest⟩ := setAll_error hcs
  exact ⟨u, pre, x, post, rfl, hsplit, rfl, hpre, hx, hrest⟩

/-- Every connection of an entered scope: a transaction opened on it, or
not, then the write. -/
theorem usingEnter_spec {st : Settings} {t : Option TenantRef} {base : Alias} {w w' : World}
    {scope : UsingScope} (h : usingEnter st t base w = .ok scope w') :
    w' = w.withTenant t w'.connections ∧
      scope = ⟨w.contextVars.currentTenant, w.contextVars.currentTenant, base,
        aliasesFor st (w.tenant? t) base, (aliasesFor st (w.tenant? t) base).filter (opensAtomic st w.connections)⟩ ∧
      ∀ a, ∃ c, (a ∈ scope.opened → (w.connections a).atomicEnter true = (.ok (), c)) ∧
        (a ∉ scope.opened → c = w.connections a) ∧
        Connection.Ran (entryVars st (w.tenant? t) base a) c (w'.connections a) ∧
        (c.usable = true → (w'.connections a).usable = true) := by
  obtain ⟨cs, hcs, hset, hprev, hbase, haliases⟩ := usingEnter_ok h
  obtain ⟨hopened, hsame, henter⟩ := enterAtomics_ok (nodup_aliasesFor st _ base) hcs
  obtain ⟨htoken, hw', hran⟩ := set_spec hset
  refine ⟨hw', ?_, fun a => ⟨cs a, henter a, hsame a, hran a⟩⟩
  obtain ⟨previous, token, base', aliases, opened⟩ := scope
  simp only at htoken hprev hbase haliases hopened
  rw [hprev, htoken, hbase, haliases, hopened]

theorem Connection.atomicEnter_spec {savepoint : Bool} {c c' : Connection} {u : Unit}
    (h : c.atomicEnter savepoint = (.ok u, c')) :
    c'.inAtomicBlock = true ∧ c'.vars = c.vars ∧ (c'.usable = true → c.usable = true) := by
  obtain ⟨f, hf, -, hu, hv⟩ := Txn.Session.enter_spec (Connection.atomicEnter_ok h).1
  refine ⟨?_, hv, hu⟩
  rw [inAtomicBlock_iff, Connection.frames, hf]
  simp

/-- In autocommit, entering a transaction leaves a usable connection. -/
theorem Connection.usable_of_enter {c c' : Connection} {u : Unit} (hc : c.inAtomicBlock = false)
    (h : c.atomicEnter true = (.ok u, c')) : c'.usable = true := by
  have hs : c.session = .autocommit := Txn.Session.eq_autocommit hc
  have henter := (Connection.atomicEnter_ok h).1
  rw [hs] at henter
  simp only [Txn.Session.enter, Option.some.injEq] at henter
  rw [Connection.usable, ← henter]
  rfl

/-- The connection can be had and does not take the next statement. -/
def Connection.refuses (c : Connection) : Bool := (c.opened || c.reachable) && !c.accepts

theorem Connection.refuses_of_not_accepts {c : Connection} (ho : c.opened = true) (h : c.accepts = false) :
    c.refuses = true := by
  simp [refuses, ho, h]

/-- A transaction entered from autocommit refuses what the connection did. -/
theorem Connection.refuses_of_enter {c c' : Connection} {u : Unit} (hc : c.inAtomicBlock = false)
    (he : c.atomicEnter true = (.ok u, c')) (h : c'.accepts = false) : c.refuses = true := by
  have hu' : c'.usable = true := Connection.usable_of_enter hc he
  have hu : c.usable = true := (Connection.autocommit hc).1
  have hhad : (c.opened || c.reachable) = true := by
    by_contra hn
    simp only [Bool.or_eq_true, not_or, Bool.not_eq_true] at hn
    simp [atomicEnter, hn.1, hn.2] at he
  have hf : c'.faults = c.faults := (Connection.atomicEnter_ok he).2
  have haccepts : c.accepts = c'.accepts := by simp [accepts, hu, hu', hf]
  simp [refuses, hhad, haccepts, h]

/-- A `set` that raises opens and closes no transaction. -/
theorem frames_of_set_error {st : Settings} {t : Option TenantRef} {base : Alias} {w w' : World} {e : Exc}
    (h : TenantContext.set st t base w = .error e w') (a : Alias) :
    (w'.connections a).frames = (w.connections a).frames := by
  obtain ⟨u, pre, x, post, -, -, -, hpre, hx, hrest⟩ := set_error_spec h
  by_cases hap : a ∈ pre
  · exact (setDbSessionOn_ok (hpre a hap)).1.frames
  by_cases hax : a = x
  · subst hax
    exact (setDbSessionOn_error hx).1.frames
  · rw [hrest a hap hax]

/-- Entering a scope for the tenant wrote on the aliases `pre`, and then `x`
refused the write. The transactions the entry opened took their writes back. -/
structure EntryRefused (st : Settings) (u : TenantRef) (base : Alias) (w w' : World) (e : Exc) (pre : List Alias)
    (x : Alias) : Prop where
  split : ∃ post, aliasesFor st (.some (w.tenants u)) base = pre ++ x :: post
  undone : ∀ a, opensAtomic st w.connections a = true → (w'.connections a).session = (w.connections a).session
  wrote : ∀ a ∈ pre, opensAtomic st w.connections a = false →
    setDbSessionOn st a (w.tenants u).pk.str (w.connections a) = (.ok (), w'.connections a)
  writes : writesVar st x = true
  refused : (w.connections x).refuses = true
  raised : opensAtomic st w.connections x = false →
    setDbSessionOn st x (w.tenants u).pk.str (w.connections x) = (.error e, w'.connections x)
  rest : ∀ a, a ∉ pre → a ≠ x → (w'.connections a).session = (w.connections a).session

/-- What the exit of the transactions an entry opened makes of a refusal by
`set`. -/
theorem entryRefused {st : Settings} {u : TenantRef} {base : Alias} {w w₁ : World} {cs : Connections}
    {opened : List Alias} {e : Exc}
    (hcs : enterAtomics st (aliasesFor st (.some (w.tenants u)) base) w.connections = .ok opened cs)
    (hset : TenantContext.set st (.some u) base { w with connections := cs } = .error e w₁) :
    ∃ pre x, EntryRefused st u base w
      { w with connections := fun a => if a ∈ opened then ((w₁.connections a).atomicExit true).2 else w₁.connections a }
      e pre x := by
  obtain ⟨hopened, hsame, henter⟩ := enterAtomics_ok (nodup_aliasesFor st _ base) hcs
  have hframes := frames_of_set_error hset
  obtain ⟨_, pre, x, post, hu, hsplit, -, hpre, hx, hrest⟩ := set_error_spec hset
  cases hu
  simp only at hframes hsplit hpre hx hrest
  -- Which transactions the entry opened, and so left again.
  have hopens : ∀ {a}, a ∈ opened → opensAtomic st w.connections a = true := fun {a} ha => by
    rw [hopened, List.mem_filter] at ha
    exact ha.2
  have hclosed : ∀ {a}, opensAtomic st w.connections a = false → a ∉ opened := fun ho ha => by
    rw [hopens ha] at ho
    cases ho
  have hback : ∀ a ∈ opened, ((w₁.connections a).atomicExit true).2.session = (w.connections a).session := by
    intro a ha
    have hauto := not_inAtomicBlock_of_opensAtomic (hopens ha)
    rw [session_left hauto (henter a ha) (hframes a)]
    exact (Txn.Session.eq_autocommit hauto).symm
  refine ⟨pre, x, ⟨post, hsplit⟩, fun a ho => ?_, fun a hap ho => ?_, (setDbSessionOn_error hx).2.1, ?_, fun ho => ?_,
    fun a hap hax => ?_⟩
  · by_cases ha : a ∈ opened
    · simp only [if_pos ha]
      exact hback a ha
    · -- The alias is none of the scope's.
      have hnot : a ∉ aliasesFor st (.some (w.tenants u)) base := fun hin => by
        rw [hopened, List.mem_filter] at ha
        exact ha ⟨hin, ho⟩
      rw [hsplit, List.mem_append, List.mem_cons, not_or, not_or] at hnot
      simp only [if_neg ha]
      rw [hrest a hnot.1 hnot.2.1, hsame a ha]
  · simp only [if_neg (hclosed ho)]
    rw [← hsame a (hclosed ho)]
    exact hpre a hap
  · obtain ⟨-, -, hhad, hacc, -⟩ := setDbSessionOn_error hx
    by_cases ha : x ∈ opened
    · exact Connection.refuses_of_enter (not_inAtomicBlock_of_opensAtomic (hopens ha)) (henter x ha) hacc
    · rw [← hsame x ha]
      exact Connection.refuses_of_not_accepts hhad hacc
  · simp only [if_neg (hclosed ho)]
    rw [← hsame x (hclosed ho)]
    exact hx
  · by_cases ha : a ∈ opened
    · simp only [if_pos ha]
      exact hback a ha
    · simp only [if_neg ha]
      rw [hrest a hap hax, hsame a ha]

/-- An entry of `using` that raises leaves every session as it was, or one of
the tenant's aliases refused the write. -/
theorem usingEnter_error_spec {st : Settings} {t : Option TenantRef} {base : Alias} {w w' : World} {e : Exc}
    (h : usingEnter st t base w = .error e w') :
    w' = { w with connections := w'.connections } ∧
      ((∀ a, (w'.connections a).session = (w.connections a).session) ∨
        ∃ u pre x, t = .some u ∧ EntryRefused st u base w w' e pre x) := by
  rcases usingEnter_error h with ⟨cs, hcs, rfl⟩ | ⟨opened, cs, w₁, hcs, hset, rfl⟩
  · exact ⟨rfl, .inl (enterAtomics_error (nodup_aliasesFor st _ base) hcs)⟩
  obtain ⟨u, pre, x, post, rfl, -, hw₁, -⟩ := set_error_spec hset
  obtain ⟨pre, x, hrefused⟩ := entryRefused hcs hset
  refine ⟨by rw [hw₁], .inr ⟨u, pre, x, rfl, ?_⟩⟩
  rw [hw₁]
  rw [hw₁] at hrefused
  exact hrefused

end Boundary
