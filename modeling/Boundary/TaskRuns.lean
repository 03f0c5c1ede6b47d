/-
A queued task runs under the tenant its message names. The messages of any
sequence of dispatches name the tenant they were dispatched under just when
no dispatch with no tenant active is passed a dict an earlier dispatch left
its tenant in.
-/
import Boundary.Dispatch
import Boundary.ContextFacts

namespace Boundary

open Exec TenantContext

/-! ## One run -/

/-- The context variables are left as they were found. -/
def KeepsContext (body : M Unit) : Prop := ∀ w, (after body w).contextVars = w.contextVars

/-- `TenantModel.objects.get(pk=str(pk))` answers the row with that key. -/
def FindsByKey (tenants : TenantRef → Tenant) (find : String → Option TenantRef) : Prop :=
  ∀ pk t, find pk.str = .some t → (tenants t).pk = pk

/-- The connection can be had and takes every statement to come. -/
structure Connection.Faultless (c : Connection) : Prop where
  usable : c.usable = true
  reachable : c.reachable = true
  faults : c.faults = []

/-- `default` is configured, no region is pinned, and nothing of the database
fails. -/
structure World.Healthy (st : Settings) (w : World) : Prop where
  default : (st.databases "default").isSome = true
  unpinned : w.contextVars.regionOverride = .none
  faultless : ∀ a, (w.connections a).Faultless

def tenantGone (tenantId : String) : Exc :=
  .tenantNotFoundError ("Tenant " ++ tenantId ++ " no longer exists. Configure dead-letter routing for this task.")

/-- The run of a message on a worker: the body is called at most once, under
the tenant with this key and under no other, not when the tenant is gone, and
the context is as before. Where the database does not fail it is called, or
the task raises that the tenant is gone. -/
structure RunsUnder (st : Settings) (find : String → Option TenantRef) (body : M Unit) (headers : Headers)
    (key : Option PrimaryKey) (w : World) : Prop where
  once : (after (TenantTask.call st find body headers) ⟨w, []⟩).calls.length ≤ 1
  tenant : ∀ call ∈ (after (TenantTask.call st find body headers) ⟨w, []⟩).calls, call.activeKey = key
  gone : ∀ pk, key = .some pk → find pk.str = .none →
    (after (TenantTask.call st find body headers) ⟨w, []⟩).calls = []
  context : KeepsContext body →
    (after (TenantTask.call st find body headers) ⟨w, []⟩).state.contextVars = w.contextVars
  called : w.Healthy st → (∀ pk, key = .some pk → find pk.str ≠ .none) →
    (after (TenantTask.call st find body headers) ⟨w, []⟩).calls ≠ []
  raised : w.Healthy st → ∀ pk, key = .some pk → find pk.str = .none →
    ∃ s, TenantTask.call st find body headers ⟨w, []⟩ = .error (tenantGone pk.str) s

section

variable {st : Settings} {find : String → Option TenantRef} {body : M Unit} {headers : Headers} {w w' : World}

theorem query_contextVars (st : Settings) (isTenantModel : Bool) (w : World) :
    (after (query st isTenantModel) w).contextVars = w.contextVars ∧
      (after (query st isTenantModel) w).tenants = w.tenants := by
  unfold query
  simp only [after]
  split
  · next hr =>
    split at hr
    · cases hr
    · obtain ⟨cs, -, rfl⟩ := db_ok_iff.mp hr
      exact ⟨rfl, rfl⟩
  · next hr =>
    split at hr
    · cases hr
      exact ⟨rfl, rfl⟩
    · obtain ⟨cs, -, rfl⟩ := db_error_iff.mp hr
      exact ⟨rfl, rfl⟩

/-- The headers name no tenant and nothing changes, or they name one, which
was found and is active now. -/
theorem restoreTenantContext_ok {token : Option Token} (h : restoreTenantContext st find headers w = .ok token w') :
    (headers headerTenantId).getD "" = "" ∧ token = .none ∧ w' = w ∨
      ∃ tenantId t, headers headerTenantId = .some tenantId ∧ tenantId ≠ "" ∧ find tenantId = .some t ∧
        token = .some w.contextVars.currentTenant ∧ w'.tenants = w.tenants ∧
        w'.contextVars = { w.contextVars with currentTenant := .some t } := by
  unfold restoreTenantContext at h
  cases hid : headers headerTenantId with
  | none =>
    rw [hid] at h
    cases h
    exact .inl ⟨rfl, rfl, rfl⟩
  | some tenantId =>
    simp only [hid] at h
    split at h
    · next hempty =>
      cases h
      exact .inl ⟨hempty, rfl, rfl⟩
    next hne =>
    obtain ⟨_, w₁, hquery, h⟩ := bind_ok_iff.mp h
    obtain ⟨hcontext, htenants⟩ := query_contextVars st false w
    rw [after_of_ok hquery] at hcontext htenants
    cases hfind : find tenantId with
    | none =>
      rw [hfind] at h
      cases h
    | some t =>
      simp only [hfind, bind_ok_iff, pure_run] at h
      obtain ⟨token', w₂, hset, hok⟩ := h
      cases hok
      obtain ⟨rfl, hw', -⟩ := set_spec hset
      refine .inr ⟨tenantId, t, rfl, hne, hfind, by rw [hcontext], ?_, ?_⟩
      · rw [hw', ← htenants]
        rfl
      · rw [hw', ← hcontext]
        rfl

theorem restoreTenantContext_error {e : Exc} (h : restoreTenantContext st find headers w = .error e w') :
    w'.contextVars = w.contextVars := by
  unfold restoreTenantContext at h
  cases hid : headers headerTenantId with
  | none =>
    rw [hid] at h
    cases h
  | some tenantId =>
    simp only [hid] at h
    split at h
    · cases h
    have hquery := (query_contextVars st false w).1
    rcases bind_error_iff.mp h with h | ⟨_, w₁, hok, h⟩
    · rw [← after_of_error h]
      exact hquery
    rw [after_of_ok hok] at hquery
    cases hfind : find tenantId with
    | none =>
      rw [hfind] at h
      cases h
      exact hquery
    | some t =>
      rw [hfind] at h
      rcases bind_error_iff.mp h with h | ⟨_, _, -, h⟩
      · obtain ⟨_, _, _, _, -, -, hw', -⟩ := set_error_spec h
        rw [hw', ← hquery]
      · cases h

/-! ## Where nothing fails -/

theorem Connection.Faultless.run {c : Connection} (h : c.Faultless) (f : SessionVars → SessionVars) :
    ∃ c', c.run f = (.ok (), c') ∧ c'.Faultless := by
  obtain ⟨handle, reachable, faults⟩ := c
  obtain ⟨husable, hreachable, hfaults⟩ := h
  simp only at hreachable hfaults
  subst hreachable hfaults
  cases handle with
  | none => exact ⟨_, rfl, rfl, rfl, rfl⟩
  | some s =>
    cases s with
    | autocommit => exact ⟨_, rfl, rfl, rfl, rfl⟩
    | transaction t =>
      obtain ⟨current, savepoints, aborted, needsRollback⟩ := t
      cases needsRollback with
      | true => simp [Txn.Session.usable] at husable
      | false =>
        cases aborted with
        | true => simp [Txn.Session.usable] at husable
        | false => exact ⟨_, rfl, rfl, rfl, rfl⟩

theorem Connection.Faultless.atomicEnter {c : Connection} (h : c.Faultless) (hauto : c.inAtomicBlock = false) :
    ∃ c', c.atomicEnter true = (.ok (), c') ∧ c'.Faultless := by
  have hs : c.session = .autocommit := Txn.Session.eq_autocommit hauto
  refine ⟨{ c with handle := .some (.transaction { current := .idle }) }, ?_, rfl, h.reachable, h.faults⟩
  simp [Connection.atomicEnter, h.reachable, hs, Txn.Session.enter]

theorem World.Healthy.ensureAtomic (h : w.Healthy st) :
    ∃ opened cs, ensureAtomic st "default" w.connections = .ok opened cs ∧
      ({ w with connections := cs } : World).Healthy st := by
  unfold Boundary.ensureAtomic
  rw [if_neg (by simp [← Option.not_isSome, h.default])]
  split
  · exact ⟨_, _, rfl, h⟩
  cases hin : (w.connections "default").inAtomicBlock with
  | true => exact ⟨false, w.connections, by simp [onCell, hin], h⟩
  | false =>
    obtain ⟨c', hc', hfaultless⟩ := (h.faultless "default").atomicEnter hin
    refine ⟨true, Function.update w.connections "default" c', by simp [onCell, hin, hc'], h.default, h.unpinned,
      fun a => ?_⟩
    by_cases ha : a = "default"
    · subst ha
      simpa using hfaultless
    · simpa [Function.update_of_ne ha] using h.faultless a

theorem World.Healthy.query (h : w.Healthy st) : ∃ w', query st false w = .ok () w' ∧ w'.Healthy st := by
  have hroute : RegionalRouter.route st false w.contextVars w.tenants = "default" := by
    unfold RegionalRouter.route RegionalRouter.route.routeTenant
    rw [h.unpinned]
    split <;> simp
  obtain ⟨c', hc', hfaultless⟩ := (h.faultless "default").run id
  refine ⟨{ w with connections := Function.update w.connections "default" c' }, ?_, h.default, h.unpinned,
    fun a => ?_⟩
  · unfold Boundary.query
    simp only [hroute]
    rw [if_neg (by simp [← Option.not_isSome, h.default]), db_ok_iff]
    exact ⟨_, by rw [onCell, hc'], rfl⟩
  · by_cases ha : a = "default"
    · subst ha
      simpa using hfaultless
    · simpa [Function.update_of_ne ha] using h.faultless a

theorem World.Healthy.set (h : w.Healthy st) (t : Option TenantRef) :
    ∃ token w', TenantContext.set st t "default" w = .ok token w' := by
  cases hr : TenantContext.set st t "default" w with
  | ok token w' => exact ⟨token, w', rfl⟩
  | error e w' =>
    obtain ⟨u, pre, x, post, -, -, -, -, hx, -⟩ := set_error_spec hr
    obtain ⟨-, -, -, hrefuses, -⟩ := setDbSessionOn_error hx
    have hx := h.faultless x
    simp [Connection.accepts, hx.usable, hx.faults] at hrefuses

theorem restoreTenantContext_healthy (find : String → Option TenantRef) (headers : Headers) (h : w.Healthy st)
    (hthere : ∀ tenantId, headers headerTenantId = .some tenantId → tenantId ≠ "" → find tenantId ≠ .none) :
    ∃ token w', restoreTenantContext st find headers w = .ok token w' := by
  unfold restoreTenantContext
  cases hid : headers headerTenantId with
  | none => exact ⟨_, _, rfl⟩
  | some tenantId =>
    simp only
    split
    · exact ⟨_, _, rfl⟩
    next hne =>
    obtain ⟨w₁, hquery, hhealthy⟩ := h.query
    obtain ⟨t, hfind⟩ := Option.ne_none_iff_exists'.mp (hthere tenantId hid hne)
    obtain ⟨token, w₂, hset⟩ := hhealthy.set (.some t)
    exact ⟨.some token, w₂, by simp only [bind_run, hquery, hfind, hset, pure_run]⟩

theorem restoreTenantContext_gone {tenantId : String} (h : w.Healthy st) (hid : headers headerTenantId = .some tenantId)
    (hne : tenantId ≠ "") (hgone : find tenantId = .none) :
    ∃ w', restoreTenantContext st find headers w = .error (tenantGone tenantId) w' := by
  obtain ⟨w₁, hquery, -⟩ := h.query
  refine ⟨w₁, ?_⟩
  unfold restoreTenantContext
  simp only [hid, if_neg hne, bind_run, hquery, hgone]
  rfl

/-! ## The run of a message -/

/-- What the body raised leaves the transaction it ran in. -/
theorem withEnsureAtomic_error {τ α : Type} {using_ : Alias} {x : Serving τ α} {s s' : Traced World τ} {opened : Bool}
    {cs : Connections} {e : Exc} (hopen : ensureAtomic st using_ s.state.connections = .ok opened cs)
    (hx : x { s with state := { s.state with connections := cs } } = .error e s') :
    ∃ s'', withEnsureAtomic st using_ x s = .error e s'' := by
  have hl : lift (db (ensureAtomic st using_)) s = .ok opened { s with state := { s.state with connections := cs } } :=
    lift_ok_iff.mpr ⟨_, db_ok_iff.mpr ⟨_, hopen, rfl⟩, rfl⟩
  obtain ⟨t, hexit⟩ : ∃ t, lift (db (exitAtomics true (if opened then [using_] else []))) s' = .ok () t :=
    ⟨_, lift_ok_iff.mpr ⟨_, db_ok_iff.mpr ⟨_, exitAtomics_run _ (by split <;> simp), rfl⟩, rfl⟩⟩
  exact ⟨t, by simp only [withEnsureAtomic, bind_run, hl, ensuring, hx, hexit]⟩

theorem clearRestored_contextVars (token : Option Token) (w : World) :
    (after (clearRestored st token) w).contextVars =
      match token with
      | .some token => { w.contextVars with currentTenant := token }
      | .none => w.contextVars := by
  cases token with
  | none => rfl
  | some token => rw [clearRestored, after_of_ok (clear_run w), World.withTenant]

/-- The task's body was not called and the context is as before, or it was
called in the world the headers restored, which was left again. -/
theorem runRestored_spec (st : Settings) (find : String → Option TenantRef) (body : M Unit) (headers : Headers)
    (w : World) :
    let s := after (runRestored st find body headers) ⟨w, []⟩
    (s.calls = [] ∧ s.state.contextVars = w.contextVars) ∨
      ∃ cs token w₁, restoreTenantContext st find headers { w with connections := cs } = .ok token w₁ ∧
        s.calls = [w₁] ∧ s.state.contextVars = (after (clearRestored st token) (after body w₁)).contextVars := by
  intro s
  have hs : s = after (runRestored st find body headers) ⟨w, []⟩ := rfl
  unfold runRestored at hs
  rcases after_withEnsureAtomic st "default" (do
      let token ← lift (restoreTenantContext st find headers)
      ensuring (called id body) fun _ => lift (clearRestored st token)) ⟨w, []⟩ with
    ⟨_, hafter, -⟩ | ⟨opened, cs, failed, hopen, hafter⟩
  · rw [hs, hafter]
    exact .inl ⟨rfl, rfl⟩
  rw [hs, hafter]
  rcases after_startThenCalled (restoreTenantContext st find headers) (clearRestored st) id body
      ⟨{ w with connections := cs }, []⟩ with ⟨e, w', hraised, hinner⟩ | ⟨token, w₁, hok, hinner⟩
  · have hcontext := restoreTenantContext_error hraised
    rw [hinner]
    exact .inl ⟨rfl, by rw [after_db]; exact hcontext⟩
  · rw [hinner]
    exact .inr ⟨cs, token, w₁, hok, rfl, by rw [after_db]⟩

/-- Where nothing fails and the tenant that is named is there, the body is
called. -/
theorem runRestored_called (body : M Unit) (h : w.Healthy st)
    (hthere : ∀ tenantId, headers headerTenantId = .some tenantId → tenantId ≠ "" → find tenantId ≠ .none) :
    (after (runRestored st find body headers) ⟨w, []⟩).calls ≠ [] := by
  intro hnone
  obtain ⟨opened, cs, hopen, hinside⟩ := h.ensureAtomic
  obtain ⟨token, w₁, hok⟩ := restoreTenantContext_healthy find headers hinside hthere
  unfold runRestored at hnone
  rcases after_withEnsureAtomic st "default" (do
      let token ← lift (restoreTenantContext st find headers)
      ensuring (called id body) fun _ => lift (clearRestored st token)) ⟨w, []⟩ with
    ⟨_, -, hrefused⟩ | ⟨opened', cs', failed, hopen', hafter⟩
  · cases hopen.symm.trans hrefused
  cases hopen.symm.trans hopen'
  rw [hafter] at hnone
  rcases after_startThenCalled (restoreTenantContext st find headers) (clearRestored st) id body
      ⟨{ w with connections := cs }, []⟩ with ⟨_, _, hraised, -⟩ | ⟨_, _, -, hinner⟩
  · cases hok.symm.trans hraised
  · rw [hinner] at hnone
    cases hnone

theorem runRestored_gone {tenantId : String} (body : M Unit) (h : w.Healthy st)
    (hid : headers headerTenantId = .some tenantId) (hne : tenantId ≠ "") (hgone : find tenantId = .none) :
    ∃ s, runRestored st find body headers ⟨w, []⟩ = .error (tenantGone tenantId) s := by
  obtain ⟨opened, cs, hopen, hinside⟩ := h.ensureAtomic
  obtain ⟨w', herror⟩ : ∃ w', restoreTenantContext st find headers { w with connections := cs } =
      .error (tenantGone tenantId) w' := restoreTenantContext_gone hinside hid hne hgone
  have hraised : lift (restoreTenantContext st find headers)
      (⟨{ w with connections := cs }, []⟩ : Traced World World) = .error (tenantGone tenantId) ⟨w', []⟩ :=
    lift_error_iff.mpr ⟨w', herror, rfl⟩
  exact withEnsureAtomic_error (s := ⟨w, []⟩) hopen (by rw [bind_run, hraised])

/-- The headers name the tenant with this key, or none. -/
def Names (headers : Headers) (key : Option PrimaryKey) : Prop := namedTenant headers = (key.map PrimaryKey.str).getD ""

theorem Names.of_some {key : Option PrimaryKey} {tenantId : String} (h : Names headers key)
    (hid : headers headerTenantId = .some tenantId) (hne : tenantId ≠ "") : ∃ pk, key = .some pk ∧ tenantId = pk.str := by
  rw [Names, namedTenant, hid, Option.getD_some] at h
  cases key with
  | none => exact absurd h hne
  | some pk => exact ⟨pk, rfl, h⟩

theorem Names.of_empty {key : Option PrimaryKey} (h : Names headers key) (hempty : namedTenant headers = "") :
    key = .none := by
  rw [Names, hempty] at h
  cases key with
  | none => rfl
  | some pk => exact absurd h.symm pk.str_ne_empty

theorem Names.header {pk : PrimaryKey} (h : Names headers (.some pk)) : headers headerTenantId = .some pk.str := by
  rw [Names, namedTenant] at h
  cases hid : headers headerTenantId with
  | none =>
    rw [hid] at h
    exact absurd h.symm pk.str_ne_empty
  | some tenantId =>
    rw [hid] at h
    exact congrArg Option.some h

/-- A message that names a tenant, or none, runs under that tenant, or none. -/
theorem runsUnder_of_names {key : Option PrimaryKey} (h : Names headers key)
    (hworker : w.contextVars.currentTenant = .none) (hfind : FindsByKey w.tenants find) :
    RunsUnder st find body headers key w := by
  have hspec := runRestored_spec st find body headers w
  constructor
  case once =>
    rcases hspec with ⟨hnone, -⟩ | ⟨_, _, _, -, hone, -⟩
    · simp [TenantTask.call, hnone]
    · simp [TenantTask.call, hone]
  case tenant =>
    intro call hcall
    rcases hspec with ⟨hnone, -⟩ | ⟨cs, token, w₁, hok, hone, -⟩
    · simp [TenantTask.call, hnone] at hcall
    obtain rfl : call = w₁ := by simpa [TenantTask.call, hone] using hcall
    rcases restoreTenantContext_ok hok with ⟨hempty, -, rfl⟩ | ⟨tenantId, t, hsome, hne, hfound, -, htenants, hcontext⟩
    · rw [h.of_empty hempty, World.activeKey, hworker]
      rfl
    · obtain ⟨pk, rfl, rfl⟩ := h.of_some hsome hne
      rw [World.activeKey, hcontext, World.tenant?, Option.map_some, Option.map_some, htenants, hfind pk t hfound]
  case gone =>
    rintro pk rfl hgone
    rcases hspec with ⟨hnone, -⟩ | ⟨cs, token, w₁, hok, -, -⟩
    · exact hnone
    rcases restoreTenantContext_ok hok with ⟨hempty, -⟩ | ⟨tenantId, t, hsome, -, hfound, -⟩
    · cases h.of_empty hempty
    · cases hsome.symm.trans h.header
      cases hgone.symm.trans hfound
  case context =>
    intro hkeeps
    rcases hspec with ⟨-, hcontext⟩ | ⟨cs, token, w₁, hok, -, hcontext⟩
    · exact hcontext
    rw [TenantTask.call, hcontext, clearRestored_contextVars, hkeeps w₁]
    rcases restoreTenantContext_ok hok with ⟨-, rfl, rfl⟩ | ⟨_, t, -, -, -, rfl, -, hactive⟩
    · rfl
    · rw [hactive]
  case called =>
    intro hhealthy hthere
    refine runRestored_called body hhealthy fun tenantId hsome hne => ?_
    obtain ⟨pk, rfl, rfl⟩ := h.of_some hsome hne
    exact hthere pk rfl
  case raised =>
    rintro hhealthy pk rfl hgone
    exact runRestored_gone body hhealthy h.header pk.str_ne_empty hgone

/-! ## Every sequence of dispatches -/

/-- Whichever worker with no tenant active runs the message, and whenever, it
runs under the tenant it was dispatched under. -/
def Message.RunsRight (st : Settings) (m : Message) : Prop :=
  ∀ (find : String → Option TenantRef) (body : M Unit) (worker : World), worker.contextVars.currentTenant = .none →
    FindsByKey worker.tenants find → RunsUnder st find body m.headers m.dispatchedIn.activeKey worker

/-- A worker on which nothing fails. -/
def idleWorker (tenants : TenantRef → Tenant) : World where
  tenants := tenants
  connections _ := { handle := .some .autocommit }

theorem idleWorker_healthy (hdefault : (st.databases "default").isSome = true) (tenants : TenantRef → Tenant) :
    (idleWorker tenants).Healthy st :=
  ⟨hdefault, rfl, fun _ => ⟨rfl, rfl, rfl⟩⟩

theorem tenantGone_inj {a b : String} (h : tenantGone a = tenantGone b) : a = b := by
  simpa [tenantGone, String.append_assoc] using h

theorem runsRight_iff {m : Message} (hdefault : (st.databases "default").isSome = true) :
    m.RunsRight st ↔ m.Carries := by
  refine ⟨fun h => ?_, fun h find body worker hworker hfind => runsUnder_of_names h hworker hfind⟩
  -- A worker that finds no tenant tells the messages apart.
  have hhealthy := idleWorker_healthy hdefault m.dispatchedIn.tenants
  have hruns := h (fun _ => .none) (pure ()) (idleWorker m.dispatchedIn.tenants) rfl (fun _ _ hfound => by cases hfound)
  rw [Message.Carries]
  by_cases hempty : namedTenant m.headers = ""
  · cases hkey : m.dispatchedIn.activeKey with
    | none => exact hempty
    | some pk =>
      refine absurd (hruns.gone pk hkey rfl) (runRestored_called _ hhealthy fun tenantId hid hne => ?_)
      rw [namedTenant, hid] at hempty
      exact absurd hempty hne
  · obtain ⟨tenantId, hid⟩ : ∃ tenantId, m.headers headerTenantId = .some tenantId := by
      cases hid : m.headers headerTenantId with
      | none => exact absurd (by rw [namedTenant, hid]; rfl) hempty
      | some tenantId => exact ⟨tenantId, rfl⟩
    have hne : tenantId ≠ "" := by simpa [namedTenant, hid] using hempty
    cases hkey : m.dispatchedIn.activeKey with
    | none =>
      refine absurd ?_ (hruns.called hhealthy fun pk hpk => by rw [hkey] at hpk; cases hpk)
      rcases runRestored_spec st (fun _ => .none) (pure ()) m.headers (idleWorker m.dispatchedIn.tenants) with
        ⟨hnone, -⟩ | ⟨cs, token, w₁, hok, -, -⟩
      · exact hnone
      · rcases restoreTenantContext_ok hok with ⟨hnamed, -⟩ | ⟨_, _, -, -, hfound, -⟩
        · exact absurd hnamed hempty
        · cases hfound
    | some pk =>
      obtain ⟨s, hraised⟩ := hruns.raised hhealthy pk hkey rfl
      obtain ⟨s', hgone⟩ : ∃ s', runRestored st (fun _ => .none) (pure ()) m.headers
          ⟨idleWorker m.dispatchedIn.tenants, []⟩ = .error (tenantGone tenantId) s' :=
        runRestored_gone _ hhealthy hid hne rfl
      have hsame : tenantGone pk.str = tenantGone tenantId := by
        have h := hraised.symm.trans hgone
        simp only [EStateM.Result.error.injEq] at h
        exact h.1
      rw [namedTenant, hid]
      exact (tenantGone_inj hsame).symm

/-- Every message of a sequence of dispatches, whichever worker runs it and
whenever, runs under the tenant it was dispatched under, just when no dispatch
with no tenant active is passed a dict that holds a tenant header. -/
theorem dispatches_runRight_iff (hdefault : (st.databases "default").isSome = true) (dicts : DictRef → HeaderItems)
    (w : World) (steps : List Dispatch) :
    (∀ m ∈ (steps.foldl Dispatch.run ⟨w, dicts, []⟩).sent, m.RunsRight st) ↔
      Runs.Allowed Dispatch.run Dispatch.Unmarked steps ⟨w, dicts, []⟩ := by
  simp only [runsRight_iff hdefault, sent_carries_iff, List.not_mem_nil, false_implies, implies_true, true_and]

end

/-! ## Two dispatches with one dict -/

namespace TwoRegions

/-- A task in which tenant 1 is active. -/
def forTenant : World := autocommit.withTenant (.some 1) autocommit.connections

/-- The caller's dict: one item of its own. -/
def ownHeaders : HeaderItems := (∅ : HeaderItems).insert "priority" "high"

/-- A dispatch under tenant 1, then one with no tenant, with a dict each. -/
def twoDicts : List Dispatch := [.applyAsync forTenant (.some 0), .applyAsync autocommit (.some 1)]

theorem dispatches_runRight_twoDicts :
    (twoDicts.foldl Dispatch.run ⟨autocommit, fun _ => ownHeaders, []⟩).sent.length = 2 ∧
      ∀ m ∈ (twoDicts.foldl Dispatch.run ⟨autocommit, fun _ => ownHeaders, []⟩).sent, m.RunsRight settings :=
  ⟨rfl, (dispatches_runRight_iff rfl _ _ _).mpr ⟨(fun h => by cases h), fun _ => rfl, trivial⟩⟩

/-- The same with one dict for both. -/
def oneDict : List Dispatch := [.applyAsync forTenant (.some 0), .applyAsync autocommit (.some 0)]

/-- The second task runs under tenant 1. -/
theorem oneDict_breaks_runsRight :
    ¬ ∀ (st : Settings) (dicts : DictRef → HeaderItems) (w : World) (steps : List Dispatch),
      (st.databases "default").isSome = true →
      (∀ dict, (dicts dict).lookup headerTenantId = .none ∧ (dicts dict).lookup headerRegion = .none) →
      (∀ step ∈ steps, step.OwnItems) →
      ∀ m ∈ (steps.foldl Dispatch.run ⟨w, dicts, []⟩).sent, m.RunsRight st := by
  intro hclaim
  have hright := hclaim settings (fun _ => ownHeaders) autocommit oneDict rfl (fun _ => ⟨rfl, rfl⟩) (by
    intro step hstep
    rcases List.mem_pair.mp hstep with rfl | rfl
    · exact trivial
    · exact trivial)
  simp only [runsRight_iff (rfl : (settings.databases "default").isSome = true), sent_carries_iff] at hright
  obtain ⟨-, -, hunmarked, -⟩ := hright
  exact absurd (hunmarked rfl) (by decide)

end TwoRegions

end Boundary
