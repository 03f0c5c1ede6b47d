/-
The scopes a request and a task run in: `boundary.middleware` and the worker
side of `boundary.celery`. Each opens a transaction on `default` and sets the
tenant around the code it is given, a view or a task body, whose calls are
recorded with the world they are made in.

Left out are logging, the resolver that resolved and the other data the
signals carry, and `_on_resolver_error`, whose default does nothing.
-/
import Boundary.RunFacts

namespace Boundary

open Exec

/-- What runs around a view or a task body; a call records `τ`. -/
abbrev Serving (τ : Type) := EStateM Exc (Traced World τ)

/-- `with _ensure_atomic(): body`. -/
def withEnsureAtomic {τ α : Type} (st : Settings) (using_ : Alias) (body : Serving τ α) : Serving τ α := do
  let opened ← lift (db (ensureAtomic st using_))
  ensuring body fun failed => lift (db (exitAtomics failed (if opened then [using_] else [])))

/-- `Signal.send`: raises what a receiver raises. -/
def send {τ : Type} (receiver : Option Exc) : Serving τ Unit :=
  match receiver with
  | .some e => throw e
  | .none => pure ()

/-! ## Requests -/

/-- A resolver of the chain, on a request: the statements it issues, and what
it returns or raises. -/
structure Resolver where
  statements : List (Alias × Bool) := []
  outcome : Except Exc (Option TenantRef)

/-- `resolver.resolve(request)`. -/
def Resolver.resolve (st : Settings) (r : Resolver) : M (Option TenantRef) := fun w =>
  let w := (r.statements.filter fun s => (st.databases s.1).isSome).foldl
    (fun w s => w.onConnection s.1 (·.afterStatement s.2)) w
  match r.outcome with
  | .ok tenant => .ok tenant w
  | .error e => .error e w

/-- A request's attributes that hold a tenant: `request.tenant`, and the one
`BOUNDARY_REQUEST_ATTR` names. -/
structure Request where
  attributes : String → Option TenantRef := fun _ => .none

/-- `request.tenant`. -/
def Request.tenant (request : Request) : Option TenantRef := request.attributes "tenant"

inductive Response where
  | notFound (content : String)
  | forbidden (content : String)
  /-- The view's own. -/
  | view (content : String)

/-- The receivers of the signals of one request: what each raises. -/
structure Receivers where
  tenantResolutionFailed : Option Exc := .none
  tenantResolved : Option Exc := .none

/-- The settings `TenantMiddleware` reads. -/
structure MiddlewareSettings where
  required : Bool := true
  /-- `label[:1].upper() + label[1:]`, of `BOUNDARY_TENANT_LABEL`. -/
  labelTitle : String := "Tenant"
  requestAttr : Option String := .none

namespace TenantMiddleware

/-- `_resolve_tenant`; a resolver that raises is skipped. -/
def resolveTenant (st : Settings) : List Resolver → M (Option TenantRef)
  | [] => pure .none
  | r :: resolvers => fun w =>
    match r.resolve st w with
    | .ok (.some tenant) w => .ok (.some tenant) w
    | .ok .none w => resolveTenant st resolvers w
    | .error _ w => resolveTenant st resolvers w

/-- `request.tenant = tenant`, and the configured attribute. -/
def setAttributes (conf : MiddlewareSettings) (request : Request) (tenant : TenantRef) : Request :=
  let attributes := Function.update request.attributes "tenant" (.some tenant)
  match conf.requestAttr with
  | .some attr =>
    { attributes := if attr ≠ "" ∧ attr ≠ "tenant" then Function.update attributes attr (.some tenant) else attributes }
  | .none => { attributes }

/-- `__call__`. -/
def call (st : Settings) (conf : MiddlewareSettings) (resolvers : List Resolver) (receivers : Receivers)
    (getResponse : Request → M Response) (request : Request) : Serving (Request × World) Response := do
  match ← lift (resolveTenant st resolvers) with
  | .none =>
    if conf.required then do
      send receivers.tenantResolutionFailed
      pure (.notFound (conf.labelTitle ++ " not found."))
    else called (request, ·) (getResponse request)
  | .some tenant =>
    let t ← lift (TenantContext.attributes tenant)
    if t.isActive = .some false then pure (.forbidden (conf.labelTitle ++ " is inactive."))
    else
      send receivers.tenantResolved
      let request := setAttributes conf request tenant
      withEnsureAtomic st "default" do
        let token ← lift (TenantContext.set st (.some tenant) "default")
        ensuring (called (request, ·) (getResponse request)) fun _ => lift (TenantContext.clear st token "default")

end TenantMiddleware

/-! ## Tasks -/

/-- `headers.get(name)` of a message's headers. -/
abbrev Headers := String → Option String

def headerTenantId : String := "boundary_tenant_id"

/-- A query of the ORM on a model's connection. -/
def query (st : Settings) (isTenantModel : Bool) : M Unit := fun w =>
  let using_ := RegionalRouter.route st isTenantModel w.contextVars w.tenants
  if (st.databases using_).isNone then .error (.other "ConnectionDoesNotExist") w
  else db (onCell using_ (·.run id)) w

/-- `_restore_tenant_context`; `find` is `TenantModel.objects.get` by key. -/
def restoreTenantContext (st : Settings) (find : String → Option TenantRef) (headers : Headers) :
    M (Option Token) :=
  match headers headerTenantId with
  | .none => pure .none
  | .some tenantId =>
    if tenantId = "" then pure .none
    else do
      query st false
      match find tenantId with
      | .none =>
        throw (.tenantNotFoundError
          ("Tenant " ++ tenantId ++ " no longer exists. Configure dead-letter routing for this task."))
      | .some tenant =>
        let token ← TenantContext.set st (.some tenant) "default"
        pure (.some token)

/-- `if token is not None: TenantContext.clear(token)`. -/
def clearRestored (st : Settings) : Option Token → M Unit
  | .some token => TenantContext.clear st token "default"
  | .none => pure ()

/-- What `tenant_task` and `TenantTask` share: the body, in the context the
headers restore. -/
def runRestored (st : Settings) (find : String → Option TenantRef) (body : M Unit) (headers : Headers) :
    Serving World Unit :=
  withEnsureAtomic st "default" do
    let token ← lift (restoreTenantContext st find headers)
    ensuring (called id body) fun _ => lift (clearRestored st token)

/-- The wrapper of a function decorated with `@tenant_task`. -/
def tenantTask (st : Settings) (find : String → Option TenantRef) (func : M Unit) (headers : Headers) :
    Serving World Unit :=
  runRestored st find func headers

/-- `TenantTask.__call__`. -/
def TenantTask.call (st : Settings) (find : String → Option TenantRef) (run : M Unit) (headers : Headers) :
    Serving World Unit :=
  runRestored st find run headers

/-! ## What the scopes do around the code they call -/

/-- Statements ran, and nothing else. -/
structure World.Ran (w w' : World) : Prop where
  contextVars : w'.contextVars = w.contextVars
  tenants : w'.tenants = w.tenants
  connections : ∀ a, Connection.Ran id (w.connections a) (w'.connections a)

theorem World.Ran.refl (w : World) : World.Ran w w := ⟨rfl, rfl, fun _ => .refl _⟩

theorem World.Ran.trans {w w' w'' : World} (h₁ : World.Ran w w') (h₂ : World.Ran w' w'') : World.Ran w w'' :=
  ⟨h₂.contextVars.trans h₁.contextVars, h₂.tenants.trans h₁.tenants,
    fun a => (h₁.connections a).trans (h₂.connections a)⟩

theorem World.Ran.onConnection (w : World) (a : Alias) {f : Connection → Connection}
    (h : Connection.Ran id (w.connections a) (f (w.connections a))) : World.Ran w (w.onConnection a f) := by
  refine ⟨rfl, rfl, fun b => ?_⟩
  by_cases hb : b = a
  · subst hb
    simpa only [World.onConnection, Function.update_self] using h
  · simpa only [World.onConnection, Function.update_of_ne hb] using Connection.Ran.refl _

theorem Resolver.statements_ran (statements : List (Alias × Bool)) (w : World) :
    World.Ran w (statements.foldl (fun w s => w.onConnection s.1 (·.afterStatement s.2)) w) := by
  induction statements generalizing w with
  | nil => exact .refl w
  | cons s statements ih =>
    rw [List.foldl_cons]
    exact (World.Ran.onConnection w s.1 (afterStatement_ran s.2 _)).trans (ih _)

/-- The tenant of the first resolver that neither raises nor returns `None`. -/
def firstResolved : List Resolver → Option TenantRef
  | [] => .none
  | r :: resolvers =>
    match r.outcome with
    | .ok (.some tenant) => .some tenant
    | _ => firstResolved resolvers

/-- The chain finds that tenant, having run statements only. -/
theorem resolveTenant_run (st : Settings) : ∀ (resolvers : List Resolver) (w : World),
    ∃ w', TenantMiddleware.resolveTenant st resolvers w = .ok (firstResolved resolvers) w' ∧ World.Ran w w'
  | [], w => ⟨w, rfl, .refl w⟩
  | r :: resolvers, w => by
    have hran := Resolver.statements_ran (r.statements.filter fun s => (st.databases s.1).isSome) w
    unfold TenantMiddleware.resolveTenant firstResolved Resolver.resolve
    cases r.outcome with
    | error e =>
      obtain ⟨w', hw', hrest⟩ := resolveTenant_run st resolvers _
      exact ⟨w', hw', hran.trans hrest⟩
    | ok tenant =>
      cases tenant with
      | some tenant => exact ⟨_, rfl, hran⟩
      | none =>
        obtain ⟨w', hw', hrest⟩ := resolveTenant_run st resolvers _
        exact ⟨w', hw', hran.trans hrest⟩

theorem query_ran {st : Settings} {isTenantModel : Bool} {w w' : World} {u : Unit}
    (h : query st isTenantModel w = .ok u w') : World.Ran w w' := by
  unfold query at h
  simp only at h
  split at h
  · cases h
  obtain ⟨cs, hcs, rfl⟩ := db_ok_iff.mp h
  obtain ⟨hcell, hrest⟩ := onCell_ok_iff.mp hcs
  refine ⟨rfl, rfl, fun a => ?_⟩
  by_cases ha : a = RegionalRouter.route st isTenantModel w.contextVars w.tenants
  · subst ha
    exact (Connection.run_ok hcell).1
  · simp only [hrest a ha]
    exact .refl _

section

variable {τ α : Type} {st : Settings}

/-- `with _ensure_atomic(using_)`: the transaction could not be opened, or the
body ran in it and it was left. -/
theorem after_withEnsureAtomic (st : Settings) (using_ : Alias) (body : Serving τ α) (s : Traced World τ) :
    (∃ e, after (withEnsureAtomic st using_ body) s = s ∧ ensureAtomic st using_ s.state.connections = .error e
        s.state.connections) ∨
      ∃ opened cs failed, ensureAtomic st using_ s.state.connections = .ok opened cs ∧
        let s' := after body { s with state := { s.state with connections := cs } }
        after (withEnsureAtomic st using_ body) s =
          { s' with state := after (db (exitAtomics failed (if opened then [using_] else []))) s'.state } := by
  unfold withEnsureAtomic
  rw [after_bind]
  cases hr : ensureAtomic st using_ s.state.connections with
  | error e cs =>
    have hcs := ensureAtomic_error hr
    subst hcs
    have hl : lift (db (ensureAtomic st using_)) s = .error e s :=
      lift_error_iff.mpr ⟨s.state, db_error_iff.mpr ⟨_, hr, rfl⟩, rfl⟩
    rw [hl]
    exact .inl ⟨e, rfl, rfl⟩
  | ok opened cs =>
    have hl : lift (db (ensureAtomic st using_)) s =
        .ok opened { s with state := { s.state with connections := cs } } :=
      lift_ok_iff.mpr ⟨_, db_ok_iff.mpr ⟨_, hr, rfl⟩, rfl⟩
    rw [hl]
    obtain ⟨failed, hafter⟩ := after_ensuring body
      (fun failed => lift (db (exitAtomics failed (if opened then [using_] else []))))
      { s with state := { s.state with connections := cs } }
    refine .inr ⟨opened, cs, failed, rfl, ?_⟩
    simp only [hafter, after_lift]

/-- The call between `start` and `finish`: `start` raised and there was none,
or there was one in the world it left. -/
theorem after_startThenCalled {β : Type} (start : M β) (finish : β → M Unit) (call : World → τ) (x : M α)
    (s : Traced World τ) :
    (∃ e w', start s.state = .error e w' ∧
      after (do
        let b ← lift start
        ensuring (called call x) fun _ => lift (finish b)) s = { s with state := w' }) ∨
    ∃ b w', start s.state = .ok b w' ∧
      after (do
        let b ← lift start
        ensuring (called call x) fun _ => lift (finish b)) s =
          ⟨after (finish b) (after x w'), s.calls ++ [call w']⟩ := by
  rw [after_bind]
  cases hr : start s.state with
  | error e w' =>
    have hl : lift start s = .error e { s with state := w' } := lift_error_iff.mpr ⟨w', hr, rfl⟩
    rw [hl]
    exact .inl ⟨e, w', rfl, rfl⟩
  | ok b w' =>
    have hl : lift start s = .ok b { s with state := w' } := lift_ok_iff.mpr ⟨w', hr, rfl⟩
    rw [hl]
    obtain ⟨_, hafter⟩ := after_ensuring (called call x) (fun _ => lift (finish b)) { s with state := w' }
    refine .inr ⟨b, w', rfl, ?_⟩
    simp only [hafter, after_called, after_lift]

end

end Boundary
