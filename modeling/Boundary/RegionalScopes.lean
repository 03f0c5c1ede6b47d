/-
Whether a request's view and a task's body run under the guarantee `using`
gives: the session variable carries the tenant on every alias its queries
go to.

`using` opens a transaction on each of those aliases; the middleware and the
tasks open one on `default` only. A regional alias in autocommit then loses
the variable with the statement that sets it.
-/
import Boundary.Agreement
import Boundary.Scopes

namespace Boundary

open Exec TenantContext

/-- The code that runs around a request's view or a task's body. -/
inductive Entry where
  | request (conf : MiddlewareSettings) (resolvers : List Resolver) (receivers : Receivers)
      (getResponse : Request → M Response) (incoming : Request)
  | tenantTask (find : String → Option TenantRef) (func : M Unit) (headers : Headers)
  | taskCall (find : String → Option TenantRef) (run : M Unit) (headers : Headers)

namespace Entry

/-- The worlds the view or the body is called in. -/
def bodies (st : Settings) (w : World) : Entry → List World
  | request conf resolvers receivers getResponse incoming =>
    (after (TenantMiddleware.call st conf resolvers receivers getResponse incoming) ⟨w, []⟩).calls.map Prod.snd
  | tenantTask find func headers => (after (Boundary.tenantTask st find func headers) ⟨w, []⟩).calls
  | taskCall find run headers => (after (TenantTask.call st find run headers) ⟨w, []⟩).calls

def headersTenant (find : String → Option TenantRef) (headers : Headers) : Option TenantRef :=
  match headers headerTenantId with
  | .none => .none
  | .some tenantId => if tenantId = "" then .none else find tenantId

/-- The tenant the request resolves to, or the headers restore. -/
def tenant : Entry → Option TenantRef
  | request _ resolvers .. => firstResolved resolvers
  | tenantTask find _ headers => headersTenant find headers
  | taskCall find _ headers => headersTenant find headers

end Entry

/-! ## The world a body starts in -/

/-- `w₀` is `w` with statements run on it and, where the package opens
transactions, one open on `default`. -/
structure Prepared (st : Settings) (w w₀ : World) : Prop where
  tenants : w₀.tenants = w.tenants
  elsewhere : ∀ a, a ≠ "default" → (w₀.connections a).inAtomicBlock = (w.connections a).inAtomicBlock
  default : st.wrapAtomic = true → isPostgresql st "default" = true →
    (w₀.connections "default").inAtomicBlock = true

/-- `set` went through in a world prepared for it. -/
def StartsIn (st : Settings) (t : TenantRef) (w w₁ : World) : Prop :=
  ∃ w₀ token, Prepared st w w₀ ∧ TenantContext.set st (.some t) "default" w₀ = .ok token w₁

section

variable {st : Settings} {t : TenantRef} {w w₀ w₁ : World}

theorem Prepared.of_ran {w' : World} (h : Prepared st w w₀) (hran : World.Ran w₀ w') : Prepared st w w' where
  tenants := hran.tenants.trans h.tenants
  elsewhere a ha := (hran.connections a).inAtomicBlock.trans (h.elsewhere a ha)
  default hwrap hpg := (hran.connections "default").inAtomicBlock.trans (h.default hwrap hpg)

theorem prepared_of_ensureAtomic {opened : Bool} {cs : Connections} (hran : World.Ran w w₀)
    (h : ensureAtomic st "default" w₀.connections = .ok opened cs) :
    Prepared st w { w₀ with connections := cs } := by
  obtain ⟨hopened, hrest, hno, hyes⟩ := ensureAtomic_ok h
  refine ⟨hran.tenants, fun a ha => ?_, fun hwrap hpg => ?_⟩
  · simp only [hrest a ha]
    exact (hran.connections a).inAtomicBlock
  · cases opened with
    | true => exact (Connection.atomicEnter_spec (hyes rfl)).1
    | false =>
      simp only [hno rfl]
      simpa [opensAtomic, hwrap, isSome_of_isPostgresql hpg] using hopened.symm

/-- What the body of `with _ensure_atomic()` calls is called in a world with
the transaction open. -/
theorem calls_withEnsureAtomic {τ α : Type} {body : Serving τ α} {call : τ} (hran : World.Ran w w₀)
    (hcall : call ∈ (after (withEnsureAtomic st "default" body) ⟨w₀, []⟩).calls) :
    ∃ cs, Prepared st w { w₀ with connections := cs } ∧
      call ∈ (after body ⟨{ w₀ with connections := cs }, []⟩).calls := by
  rcases after_withEnsureAtomic st "default" body ⟨w₀, []⟩ with
    ⟨_, hafter, -⟩ | ⟨opened, cs, failed, hcs, hafter⟩
  · rw [hafter] at hcall
    cases hcall
  · rw [hafter] at hcall
    exact ⟨cs, prepared_of_ensureAtomic hran hcs, hcall⟩

theorem startsIn_of_request {conf : MiddlewareSettings} {resolvers : List Resolver} {receivers : Receivers}
    {getResponse : Request → M Response} {incoming : Request} (ht : firstResolved resolvers = .some t)
    (hcall : w₁ ∈ (Entry.request conf resolvers receivers getResponse incoming).bodies st w) :
    StartsIn st t w w₁ := by
  simp only [Entry.bodies, List.mem_map] at hcall
  obtain ⟨call, hcall, rfl⟩ := hcall
  obtain ⟨w', hw', hran⟩ := resolveTenant_run st resolvers w
  rw [ht] at hw'
  have hresolve : lift (TenantMiddleware.resolveTenant st resolvers) (⟨w, []⟩ : Traced World (Request × World)) =
      .ok (.some t) ⟨w', []⟩ := lift_ok_iff.mpr ⟨w', hw', rfl⟩
  have hattributes : lift (attributes t) (⟨w', []⟩ : Traced World (Request × World)) =
      .ok (w'.tenants t) ⟨w', []⟩ := rfl
  simp only [TenantMiddleware.call, after_bind, hresolve, hattributes] at hcall
  split at hcall
  · cases hcall
  cases hsend : receivers.tenantResolved with
  | some e =>
    simp only [after_bind, hsend, send] at hcall
    cases hcall
  | none =>
    simp only [after_bind, hsend, send, pure_run] at hcall
    obtain ⟨cs, hprepared, hcall⟩ := calls_withEnsureAtomic hran hcall
    rcases after_startThenCalled (TenantContext.set st (.some t) "default")
        (fun token => TenantContext.clear st token "default")
        (fun w => (TenantMiddleware.setAttributes conf incoming t, w))
        (getResponse (TenantMiddleware.setAttributes conf incoming t)) ⟨{ w' with connections := cs }, []⟩ with
      ⟨_, _, -, hafter⟩ | ⟨token, w₁, hset, hafter⟩
    · rw [hafter] at hcall
      cases hcall
    · rw [hafter] at hcall
      obtain rfl := List.mem_singleton.mp hcall
      exact ⟨_, token, hprepared, hset⟩

/-- A body called after the headers restored a tenant. -/
theorem startsIn_of_runRestored {find : String → Option TenantRef} {body : M Unit} {headers : Headers}
    (ht : Entry.headersTenant find headers = .some t)
    (hcall : w₁ ∈ (after (runRestored st find body headers) ⟨w, []⟩).calls) : StartsIn st t w w₁ := by
  obtain ⟨cs, hprepared, hcall⟩ := calls_withEnsureAtomic (.refl w) hcall
  rcases after_startThenCalled (restoreTenantContext st find headers) (clearRestored st) id body
      ⟨{ w with connections := cs }, []⟩ with ⟨_, _, -, hafter⟩ | ⟨token, w', hr, hafter⟩
  · rw [hafter] at hcall
    cases hcall
  rw [hafter] at hcall
  obtain rfl := List.mem_singleton.mp hcall
  unfold Entry.headersTenant at ht
  unfold restoreTenantContext at hr
  split at ht
  · cases ht
  next tenantId hid =>
  split at ht
  · cases ht
  next hne =>
  simp only [hid, hne, if_false, ht, bind_ok_iff, pure_run] at hr
  obtain ⟨_, w₀, hquery, token', w₂, hset, hok⟩ := hr
  cases hok
  exact ⟨w₀, token', hprepared.of_ran (query_ran hquery), hset⟩

theorem Entry.startsIn {entry : Entry} (ht : entry.tenant = .some t) (hcall : w₁ ∈ entry.bodies st w) :
    StartsIn st t w w₁ := by
  cases entry with
  | request conf resolvers receivers getResponse incoming => exact startsIn_of_request ht hcall
  | tenantTask find func headers => exact startsIn_of_runRestored ht hcall
  | taskCall find run headers => exact startsIn_of_runRestored ht hcall

/-! ## The guarantee -/

/-- Wherever `t` is active, its key is read on every alias it covers. -/
def ReadsKey (st : Settings) (t : TenantRef) (c : Config) : Prop :=
  c.world.contextVars.currentTenant = .some t →
    ∀ a ∈ aliasesFor st (.some (c.world.tenants t)) "default", isPostgresql st a = true →
      (c.world.connections a).usable = true → (c.world.connections a).vars st.dbSessionVar = (c.world.tenants t).pk.str

theorem StartsIn.holds (hwrap : st.wrapAtomic = true) (hset : st.setDbSessionVar = true) (h : StartsIn st t w w₁)
    (honly : ∀ a ∈ aliasesFor st (.some (w.tenants t)) "default", isPostgresql st a = true → a = "default") :
    Holds (Agrees st w₁.tenants) w₁.contextVars w₁.connections := by
  obtain ⟨w₀, token, hprepared, hr⟩ := h
  obtain ⟨-, hw₁, hran⟩ := set_spec hr
  have htenants : w₁.tenants = w₀.tenants := by rw [hw₁]; rfl
  intro a hu
  have hrana := (hran a).1
  rw [World.tenant?, ← htenants] at hrana
  refine agrees_entry hset (by rw [hw₁]; rfl) hrana hu fun u ht ha hpg => ?_
  cases ht
  rw [htenants, hprepared.tenants] at ha
  obtain rfl := honly a ha hpg
  exact hprepared.default hwrap hpg

/-- A request's view or a task's body, whatever it does, reads the tenant's
key on every alias the tenant covers just when `default` is the only one that
speaks PostgreSQL. -/
theorem Entry.readsKey_iff (entry : Entry) (hwrap : st.wrapAtomic = true) (hset : st.setDbSessionVar = true)
    (ht : entry.tenant = .some t) (hcall : w₁ ∈ entry.bodies st w)
    (hautocommit : ∀ a ∈ aliasesFor st (.some (w.tenants t)) "default", isPostgresql st a = true → a ≠ "default" →
      (w.connections a).inAtomicBlock = false) :
    (∀ c, Runs.Reaches (step st) (fun c a => agreementStep st c a = true) ⟨w₁, []⟩ c → ReadsKey st t c) ↔
      ∀ a ∈ aliasesFor st (.some (w.tenants t)) "default", isPostgresql st a = true → a = "default" := by
  have hstart := entry.startsIn ht hcall
  constructor
  · intro hreads a ha hpg
    by_contra hne
    -- Nothing is set on the regional alias when the body starts.
    have hfirst := hreads _ .refl
    obtain ⟨w₀, token, hprepared, hr⟩ := hstart
    obtain ⟨-, hw₁, hran⟩ := set_spec hr
    have htenants : w₁.tenants = w.tenants := by rw [hw₁]; exact hprepared.tenants
    have hauto : (w₁.connections a).inAtomicBlock = false := by
      rw [(hran a).1.inAtomicBlock, hprepared.elsewhere a hne]
      exact hautocommit a ha hpg hne
    obtain ⟨hu, hv⟩ := Connection.autocommit hauto
    have hkey := hfirst (by rw [hw₁]; rfl) a (by rw [htenants]; exact ha) hpg hu
    simp only [hv] at hkey
    exact PrimaryKey.str_ne_empty _ hkey.symm
  · intro honly c hrun hactive a ha hpg hu
    have hinv := inv_of_agreement_run hwrap hset (hstart.holds hwrap hset honly) hrun
    have hagrees := hinv.holds a hu
    rw [hinv.unchanged] at ha ⊢
    exact hagrees t hactive ha hpg

end

/-! ## Tasks in a deployment with two regions -/

namespace TwoRegions

/-- `TenantModel.objects.get(pk=key)`. -/
def find (key : String) : Option TenantRef :=
  if key = "1" then .some 0 else if key = "2" then .some 1 else if key = "3" then .some 2 else .none

/-- A task whose headers restore the tenant with this key. -/
def taskFor (key : String) : Entry :=
  .tenantTask find (pure ()) fun name => if name = headerTenantId then .some key else .none

theorem bodies_taskFor_one : (taskFor "1").bodies settings autocommit ≠ [] :=
  fun h => absurd (congrArg List.length h) (by decide)

theorem bodies_taskFor_two : (taskFor "2").bodies settings autocommit ≠ [] :=
  fun h => absurd (congrArg List.length h) (by decide)

/-- Tenant 0, in no region, is covered by `default` alone. -/
theorem readsKey_iff_taskFor_one :
    let w₁ := ((taskFor "1").bodies settings autocommit).head bodies_taskFor_one
    (∀ c, Runs.Reaches (step settings) (fun c a => agreementStep settings c a = true) ⟨w₁, []⟩ c →
        ReadsKey settings 0 c) ↔
      ∀ a ∈ aliasesFor settings (.some (tenants 0)) "default", isPostgresql settings a = true → a = "default" :=
  Entry.readsKey_iff (w := autocommit) (taskFor "1") rfl rfl rfl (List.head_mem _) (by decide)

/-- Tenant 1's task starts with nothing set on `eu`, where its queries go. -/
theorem taskFor_two_breaks_readsKey :
    ¬ ∀ (st : Settings) (entry : Entry) (t : TenantRef) (w w₁ : World), st.wrapAtomic = true →
      st.setDbSessionVar = true → entry.tenant = .some t → w₁ ∈ entry.bodies st w →
      (∀ a ∈ aliasesFor st (.some (w.tenants t)) "default", isPostgresql st a = true → a ≠ "default" →
        (w.connections a).inAtomicBlock = false) → ReadsKey st t ⟨w₁, []⟩ := by
  intro hclaim
  have hreads := hclaim settings (taskFor "2") 1 autocommit _ rfl rfl rfl (List.head_mem bodies_taskFor_two)
    (by decide)
  exact absurd (hreads (by decide) "eu" (by decide) (by decide) (by decide)) (by decide)

end TwoRegions

end Boundary
