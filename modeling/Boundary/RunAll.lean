/-
`boundary_run_all`: a management command run for every tenant of a list, one
after another or by the workers of a pool.

The command is any program. A tenant's lookup or run may end in an exception
that neither loop catches: `accountsForEvery_iff` says which, in both modes.

A pool takes the list in chunks. What a worker's process is like when it takes
up a chunk is the pool's choice, so that nothing is said of the order the
workers run in. The output of the results is left out.
-/
import Boundary.TaskRuns

namespace Boundary

open Exec TenantContext

/-! ## The two modes -/

/-- A process: the package's part of it, and what else a command reads and
changes, the rows of the databases with it. -/
structure CommandProcess (σ : Type) where
  world : World
  rest : σ

structure RunAllEnv (σ : Type) where
  settings : Settings
  /-- `TenantModel.objects.get(pk=...)`; `none` does not exist. -/
  find : PrimaryKey → CommandProcess σ → Option TenantRef
  find_pk : ∀ {pk p tenant}, find pk p = .some tenant → (p.world.tenants tenant).pk = pk
  /-- `tenant.slug`, where it has one. -/
  slug : TenantRef → CommandProcess σ → Option String
  /-- `str(e)`. -/
  str : Exc → String
  /-- `call_command(command_name, *command_args)`. -/
  callCommand : EStateM Exc (CommandProcess σ) Unit

/-- What `except Exception` catches. -/
def Exc.isException (e : Exc) : Bool := e ∉ [.other "SystemExit", .other "KeyboardInterrupt", .other "GeneratorExit"]

/-- A result, of the tenant so named. -/
inductive RunResult where
  | ok (tenant : String)
  | error (tenant message : String)
deriving DecidableEq

/-- A call of the command: the tenant active in it and its key, and what it
raised. -/
structure CommandRun where
  tenant : Option TenantRef
  key : Option PrimaryKey
  raised : Option Exc

abbrev Running (σ : Type) := Traced (CommandProcess σ) CommandRun

section

variable {σ : Type}

def CommandRun.of (p : CommandProcess σ) (result : EStateM.Result Exc (CommandProcess σ) Unit) : CommandRun where
  tenant := p.world.contextVars.currentTenant
  key := p.world.activeKey
  raised :=
    match result with
    | .ok _ _ => .none
    | .error e _ => .some e

def inWorld {α : Type} (x : M α) : EStateM Exc (CommandProcess σ) α :=
  zoom CommandProcess.world (fun w p => { p with world := w }) x

/-- `try: TenantModel.objects.get(pk=pk)`, up to `except TenantModel.DoesNotExist`. -/
def getTenant (env : RunAllEnv σ) (pk : PrimaryKey) : EStateM Exc (CommandProcess σ) (Option TenantRef) := do
  inWorld (query env.settings false)
  fun p => .ok (env.find pk p) p

/-- `tenant.slug if hasattr(tenant, "slug") else str(pk)`, now. -/
def RunAllEnv.label (env : RunAllEnv σ) (pk : PrimaryKey) (tenant : TenantRef) (p : CommandProcess σ) : String :=
  (env.slug tenant p).getD pk.str

def getLabel (env : RunAllEnv σ) (pk : PrimaryKey) (tenant : TenantRef) : EStateM Exc (CommandProcess σ) String :=
  fun p => .ok (env.label pk tenant p) p

/-- `with TenantContext.using(tenant): call_command(...)`. -/
def callUnder (env : RunAllEnv σ) (tenant : TenantRef) : EStateM Exc (Running σ) Unit := do
  let scope ← lift (inWorld (usingEnter env.settings (.some tenant) "default"))
  ensuring (observed CommandRun.of env.callCommand) fun failed =>
    lift (inWorld (usingExit env.settings scope failed))

/-- `_run_for_tenant`, in a worker. -/
def runForTenant (env : RunAllEnv σ) (tenantPk : PrimaryKey) : EStateM Exc (Running σ) RunResult := do
  match ← lift (getTenant env tenantPk) with
  | .none => pure (.error tenantPk.str "not found")
  | .some tenant =>
    catching Exc.isException
      (do
        callUnder env tenant
        let name ← lift (getLabel env tenantPk tenant)
        pure (.ok name))
      fun e => do
        let name ← lift (getLabel env tenantPk tenant)
        pure (.error name (env.str e))

/-- A round of `_run_sequential`. -/
def runInTurn (env : RunAllEnv σ) (pk : PrimaryKey) : EStateM Exc (Running σ) RunResult := do
  match ← lift (getTenant env pk) with
  | .none => pure (.error pk.str "not found")
  | .some tenant => do
    -- Unlike a worker, before the command runs.
    let slug ← lift (getLabel env pk tenant)
    catching Exc.isException
      (do
        callUnder env tenant
        pure (.ok slug))
      fun e => pure (.error slug (env.str e))

def runSequential (env : RunAllEnv σ) (tenantPks : List PrimaryKey) : EStateM Exc (Running σ) (List RunResult) :=
  tenantPks.mapM (runInTurn env)

/-- A pool of workers: the chunks it makes of a list, each with the process of
the worker that takes it up, and what the workers leave of what processes
share. -/
structure Pool (σ : Type) where
  chunks : List PrimaryKey → List (CommandProcess σ × List PrimaryKey)
  chunks_flatten : ∀ pks, ((chunks pks).map Prod.snd).flatten = pks
  rest : List PrimaryKey → σ

/-- How the command ends: with its results, with an exception, or never. -/
inductive Ending (σ : Type) where
  | returned (results : List RunResult) (p : CommandProcess σ)
  | raised (e : Exc) (p : CommandProcess σ)
  | waits

/-- What `starmap` makes of its chunks: the results in their order; an exception
of one of them, when all have come in; and nothing while one has not come in,
as of a worker that exited it never does. -/
def starmap {τ : Type} : List (EStateM.Result Exc τ (List RunResult)) → Option (Except Exc (List RunResult))
  | [] => .some (.ok [])
  | .ok results _ :: chunks => (starmap chunks).map fun rest => rest.map (results ++ ·)
  | .error e _ :: chunks => if e.isException then (starmap chunks).map fun _ => .error e else .none

def runParallel (env : RunAllEnv σ) (pool : Pool σ) (tenantPks : List PrimaryKey) (p : CommandProcess σ) : Ending σ :=
  match starmap ((pool.chunks tenantPks).map fun chunk => chunk.2.mapM (runForTenant env) ⟨chunk.1, []⟩) with
  | .some (.ok results) => .returned results { p with rest := pool.rest tenantPks }
  | .some (.error e) => .raised e { p with rest := pool.rest tenantPks }
  | .none => .waits

/-- `handle`, from the list of keys to the results. -/
def runAll (env : RunAllEnv σ) (pool : Pool σ) (parallel : Int) (tenantPks : List PrimaryKey) (p : CommandProcess σ) :
    Ending σ :=
  if parallel > 1 then runParallel env pool tenantPks p
  else
    match runSequential env tenantPks ⟨p, []⟩ with
    | .ok results s => .returned results s.state
    | .error e s => .raised e s.state

/-! ## Accounting for every tenant -/

/-- How a result names a tenant, of the process after its lookup and the one
after its turn. -/
abbrev Naming (σ : Type) := TenantRef → CommandProcess σ → CommandProcess σ → String

/-- The turn of a tenant, and the result it gives. -/
inductive TenantTurn (env : RunAllEnv σ) (name : Naming σ) (pk : PrimaryKey) (s s' : Running σ) : RunResult → Prop
  /-- There is no such tenant, and the command was not called. -/
  | notFound {p : CommandProcess σ} : getTenant env pk s.state = .ok .none p → s'.calls = s.calls →
      TenantTurn env name pk s s' (.error pk.str "not found")
  /-- Its scope could not be entered, and the command was not called. -/
  | refused {p : CommandProcess σ} {tenant : TenantRef} {e : Exc} {w : World} :
      getTenant env pk s.state = .ok (.some tenant) p →
      usingEnter env.settings (.some tenant) "default" p.world = .error e w → s'.calls = s.calls →
      TenantTurn env name pk s s' (.error (name tenant p s'.state) (env.str e))
  /-- The command was called once, under this tenant, and returned. -/
  | returned {p : CommandProcess σ} {tenant : TenantRef} : getTenant env pk s.state = .ok (.some tenant) p →
      s'.calls = s.calls ++ [⟨.some tenant, .some pk, .none⟩] →
      TenantTurn env name pk s s' (.ok (name tenant p s'.state))
  /-- The command was called once, under this tenant, and raised. -/
  | raised {p : CommandProcess σ} {tenant : TenantRef} {e : Exc} : getTenant env pk s.state = .ok (.some tenant) p →
      s'.calls = s.calls ++ [⟨.some tenant, .some pk, .some e⟩] →
      TenantTurn env name pk s s' (.error (name tenant p s'.state) (env.str e))

/-- A turn that leaves the active tenant as it was. -/
structure OwnTurn (env : RunAllEnv σ) (name : PrimaryKey → Naming σ) (s : Running σ) (pk : PrimaryKey)
    (result : RunResult) (s' : Running σ) : Prop where
  turn : TenantTurn env (name pk) pk s s' result
  context : s'.state.world.contextVars.currentTenant = s.state.world.contextVars.currentTenant

/-- The lists that are gone through one tenant after another, each with the
process it is begun in. -/
def batches (pool : Pool σ) (parallel : Int) (tenantPks : List PrimaryKey) (p : CommandProcess σ) :
    List (CommandProcess σ × List PrimaryKey) :=
  if parallel > 1 then pool.chunks tenantPks else [(p, tenantPks)]

def runOne (env : RunAllEnv σ) (parallel : Int) (pk : PrimaryKey) : EStateM Exc (Running σ) RunResult :=
  if parallel > 1 then runForTenant env pk else runInTurn env pk

/-- Which name a mode gives a tenant: before or after its turn. -/
def nameIn (env : RunAllEnv σ) (parallel : Int) (pk : PrimaryKey) : Naming σ := fun tenant found left =>
  env.label pk tenant (if parallel > 1 then left else found)

/-- The command returns with one result for each tenant, in their order, each
of its own turn, and the caller's tenant is active as before. The turns of a
batch follow one another, and none of them is left out. -/
def AccountsForEvery (env : RunAllEnv σ) (pool : Pool σ) (parallel : Int) (tenantPks : List PrimaryKey)
    (p : CommandProcess σ) : Prop :=
  ∃ results p', runAll env pool parallel tenantPks p = .returned results p' ∧
    p'.world.contextVars.currentTenant = p.world.contextVars.currentTenant ∧
    List.Forall₂ (fun pk result => ∃ s s', OwnTurn env (nameIn env parallel) s pk result s') tenantPks results ∧
    ∃ parts : List (List RunResult), results = parts.flatten ∧
      List.Forall₂ (fun batch part => ∃ s', Rounds (OwnTurn env (nameIn env parallel)) ⟨batch.1, []⟩ batch.2 part s')
        (batches pool parallel tenantPks p) parts

/-- In a process, the lookup of a tenant returns or raises `DoesNotExist`, and
the command does not exit when it runs for the tenant found. -/
def Answers (env : RunAllEnv σ) (s : Running σ) (pk : PrimaryKey) : Prop :=
  ∃ found p, getTenant env pk s.state = .ok found p ∧
    ∀ tenant, found = .some tenant →
      ∀ scope w, usingEnter env.settings (.some tenant) "default" p.world = .ok scope w →
      ∀ e p', env.callCommand { p with world := w } = .error e p' → e.isException = true

/-! ## What the package raises can be caught -/

theorem Connection.isException_of_executeOn {f : SessionVars → SessionVars} {session : Txn.Session SessionVars}
    {c c' : Connection} {e : Exc} (h : Connection.executeOn f session c = (.error e, c')) : e.isException = true := by
  unfold Connection.executeOn at h
  split at h
  · cases h; rfl
  · cases h; rfl
  · split at h
    · cases h; rfl
    · cases h

theorem Connection.isException_of_execute {f : SessionVars → SessionVars} {c c' : Connection} {e : Exc}
    (h : c.execute f = (.error e, c')) : e.isException = true := by
  unfold Connection.execute at h
  split at h
  · exact Connection.isException_of_executeOn h
  · split at h
    · exact Connection.isException_of_executeOn h
    · cases h; rfl

theorem Connection.isException_of_atomicEnter {savepoint : Bool} {c c' : Connection} {e : Exc}
    (h : c.atomicEnter savepoint = (.error e, c')) : e.isException = true := by
  unfold Connection.atomicEnter at h
  split at h
  · cases h; rfl
  · split at h
    · cases h
    · cases h; rfl

theorem isException_of_setDbSessionOn {st : Settings} {a : Alias} {value : String} {c c' : Connection} {e : Exc}
    (h : setDbSessionOn st a value c = (.error e, c')) : e.isException = true := by
  unfold setDbSessionOn Connection.run at h
  split at h
  · cases h
  split at h
  · cases h
  split at h
  · split at h
    · cases h
    · next hexecute =>
      cases h
      exact Connection.isException_of_execute hexecute
  · cases h

theorem isException_of_ensureAtomic {st : Settings} {a : Alias} {cs cs' : Connections} {e : Exc}
    (h : ensureAtomic st a cs = .error e cs') : e.isException = true := by
  unfold ensureAtomic at h
  split at h
  · cases h
  split at h
  · cases h
  obtain ⟨h, -⟩ := onCell_error_iff.mp h
  split at h
  · cases h
  split at h
  · cases h
  · next henter =>
    cases h
    exact Connection.isException_of_atomicEnter henter

theorem isException_of_enterAtomics {st : Settings} :
    ∀ {as : List Alias} {cs cs' : Connections} {e : Exc}, enterAtomics st as cs = .error e cs' → e.isException = true
  | [], _, _, _, h => by cases h
  | a :: as, cs, cs', e, h => by
    simp only [enterAtomics, bind_error_iff, onError_error_iff] at h
    rcases h with h | ⟨mine, cs₁, -, ⟨cs₂, hrest, -⟩ | ⟨_, _, -, h⟩⟩
    · exact isException_of_ensureAtomic h
    · exact isException_of_enterAtomics hrest
    · cases h

/-- A scope that cannot be entered raises an `Exception`. -/
theorem isException_of_usingEnter {st : Settings} {t : Option TenantRef} {base : Alias} {w w' : World} {e : Exc}
    (h : usingEnter st t base w = .error e w') : e.isException = true := by
  rcases usingEnter_error h with ⟨cs, hcs, -⟩ | ⟨opened, cs, w₁, -, hset, -⟩
  · exact isException_of_enterAtomics hcs
  · obtain ⟨u, cs', -, hall, -⟩ := set_error hset
    obtain ⟨pre, a, post, -, -, ha, -⟩ := setAll_error hall
    exact isException_of_setDbSessionOn ha

/-! ## One turn -/

variable {env : RunAllEnv σ} {pool : Pool σ} {parallel : Int} {pk : PrimaryKey} {tenant : TenantRef} {s : Running σ}
  {p : CommandProcess σ}

/-- A lookup leaves the active tenant, and the tenant it finds has the key. -/
theorem getTenant_ok {found : Option TenantRef} {q : CommandProcess σ} (h : getTenant env pk q = .ok found p) :
    p.world.contextVars.currentTenant = q.world.contextVars.currentTenant ∧
      ∀ tenant, found = .some tenant → (p.world.tenants tenant).pk = pk := by
  obtain ⟨_, q₁, hquery, hfind⟩ := bind_ok_iff.mp h
  obtain ⟨w, hw, rfl⟩ := zoom_ok_iff.mp hquery
  have hcontext := (query_contextVars env.settings false q.world).1
  rw [after_of_ok hw] at hcontext
  cases hfind
  exact ⟨by rw [hcontext], fun tenant h => env.find_pk h⟩

/-- The command is not called, as the scope cannot be entered, or it is called
once under the tenant, and what it raises goes on; the active tenant is as it
was before the scope. -/
theorem callUnder_spec (env : RunAllEnv σ) (tenant : TenantRef) (s : Running σ) :
    (∃ e w, usingEnter env.settings (.some tenant) "default" s.state.world = .error e w ∧
      callUnder env tenant s = .error e ⟨{ s.state with world := w }, s.calls⟩ ∧
      w.contextVars = s.state.world.contextVars) ∨
    ∃ scope w p', usingEnter env.settings (.some tenant) "default" s.state.world = .ok scope w ∧
      p'.world.contextVars.currentTenant = s.state.world.contextVars.currentTenant ∧
      callUnder env tenant s =
        match env.callCommand { s.state with world := w } with
        | .ok _ _ => .ok () ⟨p', s.calls ++ [⟨.some tenant, .some (s.state.world.tenants tenant).pk, .none⟩]⟩
        | .error e _ =>
          .error e ⟨p', s.calls ++ [⟨.some tenant, .some (s.state.world.tenants tenant).pk, .some e⟩]⟩ := by
  cases henter : usingEnter env.settings (.some tenant) "default" s.state.world with
  | error e w =>
    have hw : w = { s.state.world with connections := w.connections } := (usingEnter_error_spec henter).1
    refine .inl ⟨e, w, rfl, ?_, by rw [hw]⟩
    simp only [callUnder, bind_run, lift, inWorld, zoom, henter]
  | ok scope w =>
    obtain ⟨hw, hscope, -⟩ := usingEnter_spec henter
    have hn : scope.aliases.Nodup := by
      rw [hscope]
      exact nodup_aliasesFor _ _ _
    have ho : scope.opened.Nodup := by
      rw [hscope]
      exact (nodup_aliasesFor _ _ _).filter _
    have htoken : scope.token = s.state.world.contextVars.currentTenant := by rw [hscope]
    have hcall : ∀ result, CommandRun.of { s.state with world := w } result =
        ⟨.some tenant, .some (s.state.world.tenants tenant).pk, match result with
          | .ok _ _ => .none
          | .error e _ => .some e⟩ := fun result => by
      rw [hw]
      rfl
    cases hrun : env.callCommand { s.state with world := w } with
    | ok u p₁ =>
      obtain ⟨w', hexit, hcontext⟩ : ∃ w', usingExit env.settings scope false p₁.world = .ok () w' ∧
          w'.contextVars.currentTenant = scope.token := ⟨_, usingExit_run _ _ _ hn ho, rfl⟩
      refine .inr ⟨scope, w, { p₁ with world := w' }, rfl, hcontext.trans htoken, ?_⟩
      simp only [callUnder, bind_run, lift, inWorld, zoom, henter, ensuring, observed, hrun, hcall, hexit]
    | error e p₁ =>
      obtain ⟨w', hexit, hcontext⟩ : ∃ w', usingExit env.settings scope true p₁.world = .ok () w' ∧
          w'.contextVars.currentTenant = scope.token := ⟨_, usingExit_run _ _ _ hn ho, rfl⟩
      refine .inr ⟨scope, w, { p₁ with world := w' }, rfl, hcontext.trans htoken, ?_⟩
      simp only [callUnder, bind_run, lift, inWorld, zoom, henter, ensuring, observed, hrun, hcall, hexit]

/-- What makes the result of a tenant's run, in either mode: one that names it
by `name`, of the process it comes to. -/
structure Reports (env : RunAllEnv σ) (name : CommandProcess σ → String) (finish : EStateM Exc (Running σ) RunResult)
    (handle : Exc → EStateM Exc (Running σ) RunResult) : Prop where
  finish : ∀ s', finish s' = .ok (.ok (name s'.state)) s'
  handle : ∀ e s', handle e s' = .ok (.error (name s'.state) (env.str e)) s'

variable {finish : EStateM Exc (Running σ) RunResult} {handle : Exc → EStateM Exc (Running σ) RunResult}

/-- The command does not exit: the turn gives a result. -/
theorem ownTurn_of_reports (name : Naming σ) (hreports : Reports env (name tenant p) finish handle)
    (hget : getTenant env pk s.state = .ok (.some tenant) p)
    (hexit : ∀ scope w, usingEnter env.settings (.some tenant) "default" p.world = .ok scope w →
      ∀ e p', env.callCommand { p with world := w } = .error e p' → e.isException = true) :
    ∃ result s', catching Exc.isException (callUnder env tenant >>= fun _ => finish) handle { s with state := p } =
        .ok result s' ∧ OwnTurn env (fun _ => name) s pk result s' := by
  obtain ⟨hcontext, hpk⟩ := getTenant_ok hget
  have hkey := hpk tenant rfl
  rw [catching_run, bind_run]
  rcases callUnder_spec env tenant { s with state := p } with
    ⟨e, w, henter, hrun, hw⟩ | ⟨scope, w, p', henter, hback, hrun⟩
  · rw [hrun]
    simp only [isException_of_usingEnter henter, if_true]
    refine ⟨_, _, hreports.handle _ _, .refused hget henter rfl, ?_⟩
    exact (congrArg ContextVars.currentTenant hw).trans hcontext
  · rw [hrun]
    cases hcommand : env.callCommand { p with world := w } with
    | ok u p₁ =>
      simp only [hkey, hreports.finish]
      refine ⟨_, _, rfl, ?_⟩
      exact ⟨.returned hget rfl, hback.trans hcontext⟩
    | error e p₁ =>
      simp only [hexit scope w henter e p₁ hcommand, if_true, hkey]
      exact ⟨_, _, hreports.handle _ _, .raised hget rfl, hback.trans hcontext⟩

/-- The command exits: so does the turn. -/
theorem exits_of_reports (finish : EStateM Exc (Running σ) RunResult)
    (handle : Exc → EStateM Exc (Running σ) RunResult) (calls : List CommandRun) {scope : UsingScope} {w : World}
    {e : Exc} {p₁ : CommandProcess σ}
    (henter : usingEnter env.settings (.some tenant) "default" p.world = .ok scope w)
    (hcommand : env.callCommand { p with world := w } = .error e p₁) (hexits : e.isException = false) :
    ∃ s', catching Exc.isException (callUnder env tenant >>= fun _ => finish) handle ⟨p, calls⟩ = .error e s' := by
  rw [catching_run, bind_run]
  rcases callUnder_spec env tenant ⟨p, calls⟩ with
    ⟨e', w', henter', -⟩ | ⟨scope', w', p', henter', -, hrun⟩
  · rw [henter] at henter'
    cases henter'
  · rw [henter] at henter'
    cases henter'
    rw [hrun]
    simp only [hcommand, hexits]
    exact ⟨_, rfl⟩

/-- What a tenant's turn is, in either mode, once it was found. -/
theorem runOne_of_found (parallel : Int) (hget : getTenant env pk s.state = .ok (.some tenant) p) :
    ∃ finish handle, Reports env (nameIn env parallel pk tenant p) finish handle ∧
      runOne env parallel pk s =
        catching Exc.isException (callUnder env tenant >>= fun _ => finish) handle { s with state := p } := by
  have hlift : lift (getTenant env pk) s = .ok (.some tenant) { s with state := p } :=
    lift_ok_iff.mpr ⟨p, hget, rfl⟩
  unfold runOne nameIn
  split
  · refine ⟨_, _, ⟨fun s' => rfl, fun e s' => rfl⟩, ?_⟩
    rw [runForTenant, bind_run, hlift]
    rfl
  · refine ⟨_, _, ⟨fun s' => rfl, fun e s' => rfl⟩, ?_⟩
    rw [runInTurn, bind_run, hlift]
    rfl

theorem runOne_of_notFound (parallel : Int) (hget : getTenant env pk s.state = .ok .none p) :
    runOne env parallel pk s = .ok (.error pk.str "not found") { s with state := p } := by
  have hlift : lift (getTenant env pk) s = .ok .none { s with state := p } := lift_ok_iff.mpr ⟨p, hget, rfl⟩
  unfold runOne
  split
  · rw [runForTenant, bind_run, hlift]
    rfl
  · rw [runInTurn, bind_run, hlift]
    rfl

/-- A tenant that answers has a turn of its own. -/
theorem runOne_of_answers (parallel : Int) (s : Running σ) (pk : PrimaryKey) (h : Answers env s pk) :
    ∃ result s', runOne env parallel pk s = .ok result s' ∧ OwnTurn env (nameIn env parallel) s pk result s' := by
  obtain ⟨found, p, hget, hexit⟩ := h
  cases found with
  | none => exact ⟨_, _, runOne_of_notFound parallel hget, .notFound hget rfl, (getTenant_ok hget).1⟩
  | some tenant =>
    obtain ⟨finish, handle, hreports, hrun⟩ := runOne_of_found parallel hget
    obtain ⟨result, s', hcaught, hown⟩ := ownTurn_of_reports (nameIn env parallel pk) hreports hget (hexit tenant rfl)
    exact ⟨result, s', hrun.trans hcaught, hown.turn, hown.context⟩

theorem runOne_of_not_answers (parallel : Int) (s : Running σ) (pk : PrimaryKey) (h : ¬ Answers env s pk) :
    ∃ e s', runOne env parallel pk s = .error e s' := by
  cases hget : getTenant env pk s.state with
  | error e p =>
    have hlift : lift (getTenant env pk) s = .error e { s with state := p } := lift_error_iff.mpr ⟨p, hget, rfl⟩
    unfold runOne
    split
    · exact ⟨e, _, by rw [runForTenant, bind_run, hlift]⟩
    · exact ⟨e, _, by rw [runInTurn, bind_run, hlift]⟩
  | ok found p =>
    cases found with
    | none => exact absurd ⟨.none, p, hget, fun tenant h => by cases h⟩ h
    | some tenant =>
      obtain ⟨finish, handle, -, hrun⟩ := runOne_of_found parallel hget
      have hexits : ∃ scope w e p', usingEnter env.settings (.some tenant) "default" p.world = .ok scope w ∧
          env.callCommand { p with world := w } = .error e p' ∧ e.isException = false := by
        by_contra hnone
        refine h ⟨.some tenant, p, hget, fun t ht scope w henter e p' hcommand => ?_⟩
        cases ht
        by_contra hexits
        exact hnone ⟨scope, w, e, p', henter, hcommand, Bool.not_eq_true _ ▸ hexits⟩
      obtain ⟨scope, w, e, p', henter, hcommand, hexits⟩ := hexits
      obtain ⟨s', hcaught⟩ := exits_of_reports finish handle s.calls henter hcommand hexits
      exact ⟨e, s', hrun.trans hcaught⟩

/-! ## Both modes -/

theorem starmap_of_parts {τ : Type} {chunks : List (EStateM.Result Exc τ (List RunResult))}
    {parts : List (List RunResult)} (h : List.Forall₂ (fun chunk part => ∃ t, chunk = .ok part t) chunks parts) :
    starmap chunks = .some (.ok parts.flatten) := by
  induction h with
  | nil => rfl
  | cons hpart _ ih =>
    obtain ⟨t, rfl⟩ := hpart
    rw [starmap, ih]
    rfl

/-- Results come of chunks that all came in. -/
theorem chunks_of_starmap {τ : Type} :
    ∀ {chunks : List (EStateM.Result Exc τ (List RunResult))} {results : List RunResult},
      starmap chunks = .some (.ok results) → ∀ chunk ∈ chunks, ∃ part t, chunk = .ok part t
  | [], _, _, chunk, hchunk => by simp at hchunk
  | .ok part t :: chunks, results, h, chunk, hchunk => by
    obtain ⟨rest, hrest, hmap⟩ := Option.map_eq_some_iff.mp h
    rcases List.mem_cons.mp hchunk with rfl | hchunk
    · exact ⟨part, t, rfl⟩
    · cases rest with
      | error e => cases hmap
      | ok rest => exact chunks_of_starmap hrest chunk hchunk
  | .error e t :: chunks, results, h, _, _ => by
    simp only [starmap] at h
    split at h
    · obtain ⟨rest, -, hmap⟩ := Option.map_eq_some_iff.mp h
      cases hmap
    · cases h

theorem runOne_parallel (h : parallel > 1) : runOne env parallel = runForTenant env := by
  funext pk
  rw [runOne, if_pos h]

theorem runOne_sequential (h : ¬ parallel > 1) : runOne env parallel = runInTurn env := by
  funext pk
  rw [runOne, if_neg h]

/-- When every batch comes to its end so does the command, with their results
one after another. -/
theorem runAll_of_parts {tenantPks : List PrimaryKey} {parts : List (List RunResult)}
    (h : List.Forall₂ (fun batch part => ∃ s', batch.2.mapM (runOne env parallel) ⟨batch.1, []⟩ = .ok part s' ∧
      s'.state.world.contextVars.currentTenant = batch.1.world.contextVars.currentTenant)
      (batches pool parallel tenantPks p) parts) :
    ∃ p', runAll env pool parallel tenantPks p = .returned parts.flatten p' ∧
      p'.world.contextVars.currentTenant = p.world.contextVars.currentTenant := by
  unfold batches at h
  unfold runAll
  split at h
  · next hparallel =>
    rw [runOne_parallel hparallel] at h
    have hstarmap : starmap ((pool.chunks tenantPks).map fun chunk => chunk.2.mapM (runForTenant env) ⟨chunk.1, []⟩) =
        .some (.ok parts.flatten) := by
      refine starmap_of_parts (List.forall₂_map_left_iff.mpr (h.imp fun chunk part hpart => ?_))
      obtain ⟨s', hrun, -⟩ := hpart
      exact ⟨s', hrun⟩
    rw [if_pos hparallel, runParallel, hstarmap]
    exact ⟨_, rfl, rfl⟩
  · next hparallel =>
    rw [runOne_sequential hparallel] at h
    rw [if_neg hparallel]
    cases h with
    | cons hpart hrest =>
      cases hrest
      obtain ⟨s', hrun, hcontext⟩ := hpart
      rw [runSequential, hrun, List.flatten_singleton]
      exact ⟨_, rfl, hcontext⟩

/-- A command that returned went through every batch. -/
theorem batches_of_returned {tenantPks : List PrimaryKey} {results : List RunResult} {p' : CommandProcess σ}
    (h : runAll env pool parallel tenantPks p = .returned results p') :
    ∀ batch ∈ batches pool parallel tenantPks p,
      ∃ part s', batch.2.mapM (runOne env parallel) ⟨batch.1, []⟩ = .ok part s' := by
  intro batch hbatch
  unfold batches at hbatch
  unfold runAll at h
  split at h
  · next hparallel =>
    rw [if_pos hparallel] at hbatch
    rw [runOne_parallel hparallel]
    unfold runParallel at h
    split at h
    · next hstarmap =>
      exact chunks_of_starmap hstarmap _ (List.mem_map_of_mem hbatch)
    · cases h
    · cases h
  · next hparallel =>
    rw [if_neg hparallel, List.mem_singleton] at hbatch
    subst hbatch
    rw [runOne_sequential hparallel]
    split at h
    · next hrun => exact ⟨_, _, hrun⟩
    · cases h

/-- Turns that each leave the active tenant leave it together. -/
theorem rounds_context {name : PrimaryKey → Naming σ} {pks : List PrimaryKey} {results : List RunResult}
    {s' : Running σ} (h : Rounds (OwnTurn env name) s pks results s') :
    s'.state.world.contextVars.currentTenant = s.state.world.contextVars.currentTenant := by
  induction h with
  | nil s => rfl
  | cons hturn _ ih => exact ih.trans hturn.context

theorem forall₂_of_rounds {name : PrimaryKey → Naming σ} {pks : List PrimaryKey} {results : List RunResult}
    {s' : Running σ} (h : Rounds (OwnTurn env name) s pks results s') :
    List.Forall₂ (fun pk result => ∃ s s', OwnTurn env name s pk result s') pks results := by
  induction h with
  | nil s => exact .nil
  | cons hturn _ ih => exact .cons ⟨_, _, hturn⟩ ih

theorem batches_flatten (pool : Pool σ) (parallel : Int) (tenantPks : List PrimaryKey) (p : CommandProcess σ) :
    ((batches pool parallel tenantPks p).map Prod.snd).flatten = tenantPks := by
  unfold batches
  split
  · exact pool.chunks_flatten tenantPks
  · simp

theorem exists_forall₂ {α β : Type} {R : α → β → Prop} :
    ∀ {as : List α}, (∀ a ∈ as, ∃ b, R a b) → ∃ bs, List.Forall₂ R as bs
  | [], _ => ⟨[], .nil⟩
  | a :: as, h => by
    obtain ⟨b, hb⟩ := h a List.mem_cons_self
    obtain ⟨bs, hbs⟩ := exists_forall₂ fun a' ha => h a' (List.mem_cons_of_mem a ha)
    exact ⟨b :: bs, .cons hb hbs⟩

/-- The command accounts for every tenant just when every tenant answers where
the run comes to it. -/
theorem accountsForEvery_iff (env : RunAllEnv σ) (pool : Pool σ) (parallel : Int) (tenantPks : List PrimaryKey)
    (p : CommandProcess σ) :
    AccountsForEvery env pool parallel tenantPks p ↔
      ∀ batch ∈ batches pool parallel tenantPks p,
        Runs.Allowed (fun s pk => after (runOne env parallel pk) s) (Answers env) batch.2 ⟨batch.1, []⟩ := by
  constructor
  · rintro ⟨results, p', hreturned, -⟩ batch hbatch
    obtain ⟨part, s', hrun⟩ := batches_of_returned hreturned batch hbatch
    exact allowed_of_mapM_ok (runOne_of_not_answers parallel) hrun
  · intro hanswers
    obtain ⟨parts, hparts⟩ := exists_forall₂ fun batch hbatch =>
      mapM_rounds (runOne_of_answers parallel) (hanswers batch hbatch)
    obtain ⟨p', hreturned, hcontext⟩ := runAll_of_parts (hparts.imp fun batch part hpart => by
      obtain ⟨s', hrun, hrounds⟩ := hpart
      exact ⟨s', hrun, rounds_context hrounds⟩)
    have hrounds : List.Forall₂ (fun batch part => ∃ s',
        Rounds (OwnTurn env (nameIn env parallel)) ⟨batch.1, []⟩ batch.2 part s')
        (batches pool parallel tenantPks p) parts := hparts.imp fun batch part hpart => by
      obtain ⟨s', -, hrounds⟩ := hpart
      exact ⟨s', hrounds⟩
    have heach : List.Forall₂ (List.Forall₂ fun pk result => ∃ s s', OwnTurn env (nameIn env parallel) s pk result s')
        ((batches pool parallel tenantPks p).map Prod.snd) parts :=
      List.forall₂_map_left_iff.mpr (hrounds.imp fun batch part hpart => by
        obtain ⟨s', hrounds⟩ := hpart
        exact forall₂_of_rounds hrounds)
    refine ⟨parts.flatten, p', hreturned, hcontext, ?_, parts, rfl, hrounds⟩
    have hflat := List.rel_flatten heach
    rwa [batches_flatten] at hflat

end

/-! ## A command that exits -/

namespace TwoRegions

/-- A command that exits for tenant 0 and returns for any other. -/
def exiting : RunAllEnv Unit where
  settings := settings
  find pk p := [0, 1].find? fun tenant => (p.world.tenants tenant).pk = pk
  find_pk h := by simpa using List.find?_some h
  slug _ _ := .none
  str _ := ""
  callCommand p := if p.world.contextVars.currentTenant = .some 0 then .error (.other "SystemExit") p else .ok () p

/-- Every tenant a chunk of its own. -/
def onePerChunk : Pool Unit where
  chunks pks := pks.map fun pk => (⟨autocommit, ()⟩, [pk])
  chunks_flatten pks := by
    rw [List.map_map]
    exact (List.flatMap_def ..).symm.trans (List.flatMap_singleton' pks)
  rest _ := ()

/-- One mode raises and does not come to the second tenant, and the other waits
for the first one for ever. -/
theorem exit_breaks_accountsForEvery :
    ¬ AccountsForEvery exiting onePerChunk 1 [.int 1, .int 2] ⟨autocommit, ()⟩ ∧
      ¬ AccountsForEvery exiting onePerChunk 2 [.int 1, .int 2] ⟨autocommit, ()⟩ := by
  have hends : ∀ parallel, (match runAll exiting onePerChunk parallel [.int 1, .int 2] ⟨autocommit, ()⟩ with
      | .returned _ _ => true
      | .raised _ _ | .waits => false) = false →
      ¬ AccountsForEvery exiting onePerChunk parallel [.int 1, .int 2] ⟨autocommit, ()⟩ := by
    rintro parallel hends ⟨results, p', hreturned, -⟩
    rw [hreturned] at hends
    cases hends
  exact ⟨hends 1 (by decide +kernel), hends 2 (by decide +kernel)⟩

end TwoRegions

end Boundary
