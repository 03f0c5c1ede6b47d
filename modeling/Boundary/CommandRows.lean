/-
What the command that `boundary_run_all` runs for a tenant may see of a table
with row security: on every alias that the tenant's scope covers the tenant's
rows, whatever the tenants before it left, and on the others no row.

The list is taken up with no tenant and no open transaction, and the command
leaves the transactions that it opens.
-/
import Boundary.MessageRows
import Boundary.RunAll

namespace Boundary

open Exec TenantContext

variable {σ δ : Type}

/-! ## Between two tenants -/

/-- No tenant, and no open transaction. -/
structure AtRest (w : World) : Prop where
  currentTenant : w.contextVars.currentTenant = .none
  frames : ∀ a, (w.connections a).frames = []

/-- A command that leaves the transactions it opens, and no other, however it ends. -/
def LeavesTransactions (command : EStateM Exc (CommandProcess σ) Unit) : Prop :=
  ∀ p a, ((after command p).world.connections a).frames = (p.world.connections a).frames

/-- The process that the command is called in for a tenant. -/
def CalledIn (env : RunAllEnv σ) (s : Running σ) (pk : PrimaryKey) (tenant : TenantRef) (q : CommandProcess σ) : Prop :=
  ∃ p scope, getTenant env pk s.state = .ok (.some tenant) p ∧
    usingEnter env.settings (.some tenant) "default" p.world = .ok scope q.world ∧ q.rest = p.rest

section

variable {st : Settings} {w w' : World} {t : TenantRef} {scope : UsingScope} {a : Alias}

theorem AtRest.session (h : AtRest w) (a : Alias) : (w.connections a).session = .autocommit := by
  refine Txn.Session.eq_autocommit ?_
  by_contra hin
  exact Connection.inAtomicBlock_iff.mp (eq_true_of_ne_false hin) (h.frames a)

theorem AtRest.not_inAtomicBlock (h : AtRest w) (a : Alias) : (w.connections a).inAtomicBlock = false := by
  rw [Connection.inAtomicBlock, h.session a]
  rfl

theorem AtRest.vars (h : AtRest w) (a : Alias) : (w.connections a).vars = SessionVars.idle := by
  rw [Connection.vars, h.session a]
  rfl

theorem AtRest.of_ran (h : AtRest w) (hran : World.Ran w w') : AtRest w' :=
  ⟨hran.contextVars ▸ h.currentTenant, fun a => (hran.connections a).frames.trans (h.frames a)⟩

/-- An entry of `using` that raises opens and closes no transaction. -/
theorem frames_of_usingEnter_error {t : Option TenantRef} {base : Alias} {e : Exc}
    (h : usingEnter st t base w = .error e w') (a : Alias) :
    (w'.connections a).frames = (w.connections a).frames := by
  have hsession (hsame : (w'.connections a).session = (w.connections a).session) :
      (w'.connections a).frames = (w.connections a).frames := by
    rw [Connection.frames, hsame, Connection.frames]
  obtain ⟨-, hall | ⟨u, pre, x, rfl, hrefused⟩⟩ := usingEnter_error_spec h
  · exact hsession (hall a)
  cases hopens : opensAtomic st w.connections a with
  | true => exact hsession (hrefused.undone a hopens)
  | false =>
    by_cases hpre : a ∈ pre
    · exact (setDbSessionOn_ok (hrefused.wrote a hpre hopens)).1.frames
    · by_cases hx : a = x
      · subst hx
        exact (setDbSessionOn_error (hrefused.raised hopens)).1.frames
      · exact hsession (hrefused.rest a hpre hx)

/-- The transactions a scope opened are on the tenant's aliases. -/
theorem mem_opened_iff (hwrap : st.wrapAtomic = true) (hpg : isPostgresql st a = true) (h : AtRest w)
    (henter : usingEnter st (.some t) "default" w = .ok scope w') :
    a ∈ scope.opened ↔ a ∈ aliasesFor st (.some (w.tenants t)) "default" := by
  obtain ⟨-, hscope, -⟩ := usingEnter_spec henter
  have hopens : opensAtomic st w.connections a = true := by
    simp [opensAtomic, isSome_of_isPostgresql hpg, hwrap, h.not_inAtomicBlock a]
  rw [hscope, List.mem_filter, and_iff_left hopens]
  rfl

/-- Inside the scope the settings are what it says. -/
theorem sessionState_of_entered (hset : st.setDbSessionVar = true) (hwrap : st.wrapAtomic = true)
    (hdistinct : st.dbSessionVar ≠ st.adminFlagVar) (hpg : isPostgresql st a = true) (h : AtRest w)
    (henter : usingEnter st (.some t) "default" w = .ok scope w') (hu : (w'.connections a).usable = true) :
    SessionState st ⟨w', []⟩ a := by
  obtain ⟨hw', -, hentered⟩ := usingEnter_spec henter
  obtain ⟨c, hopened, hnot, hran, -⟩ := hentered a
  have hidle : c.vars = SessionVars.idle := by
    by_cases hin : a ∈ scope.opened
    · rw [(Connection.atomicEnter_spec (hopened hin)).2.1, h.vars]
    · rw [hnot hin, h.vars]
  have hflag : (w'.connections a).vars st.adminFlagVar = "" := by
    rw [hran.other (changesOnly_entryVars _ _ _ _) hdistinct.symm hu, hidle]
    rfl
  refine ⟨?_, fun h => absurd (hflag.symm.trans h) (by decide), fun h => absurd h (Nat.lt_irrefl 0)⟩
  have htenant : activeKey st w' a =
      if a ∈ aliasesFor st (.some (w.tenants t)) "default" then (w.tenants t).pk.str else "" := by
    rw [hw']
    rfl
  rw [htenant, hran.vars hu]
  simp only [entryVars, World.tenant?, Option.map_some]
  by_cases hcovered : a ∈ aliasesFor st (.some (w.tenants t)) "default"
  · have hin := (mem_opened_iff hwrap hpg h henter).mpr hcovered
    rw [if_pos (Connection.atomicEnter_spec (hopened hin)).1, if_pos hcovered, if_pos hcovered]
    exact writeVar_apply _ (writesVar_eq_true.mpr ⟨hset, hpg⟩)
  · rw [if_neg hcovered, if_neg hcovered, hidle]
    simp only [id, ite_self]
    rfl

end

section

variable {env : RunAllEnv σ} {parallel : Int} {pk : PrimaryKey} {tenant : TenantRef} {s s' : Running σ}
  {p q : CommandProcess σ} {result : RunResult} {results : List RunResult} {pks : List PrimaryKey}

theorem AtRest.getTenant {found : Option TenantRef} (h : AtRest q.world)
    (hget : Boundary.getTenant env pk q = .ok found p) : AtRest p.world := by
  obtain ⟨_, q₁, hquery, hfind⟩ := bind_ok_iff.mp hget
  obtain ⟨w, hw, rfl⟩ := zoom_ok_iff.mp hquery
  cases hfind
  exact h.of_ran (query_ran hw)

theorem callUnder_of_refused {e : Exc} {w : World}
    (henter : usingEnter env.settings (.some tenant) "default" s.state.world = .error e w) :
    callUnder env tenant s = .error e { s with state := { s.state with world := w } } := by
  simp only [callUnder, bind_run, lift, inWorld, zoom, henter]

/-- The command, and after it the exit of the scope. -/
theorem after_callUnder {scope : UsingScope} {w : World}
    (henter : usingEnter env.settings (.some tenant) "default" s.state.world = .ok scope w) :
    let q := { s.state with world := w }
    ∃ failed, after (callUnder env tenant) s =
      ⟨{ after env.callCommand q with
          world := after (usingExit env.settings scope failed) (after env.callCommand q).world },
        s.calls ++ [CommandRun.of q (env.callCommand q)]⟩ := by
  intro q
  have hentered : callUnder env tenant s = ensuring (observed CommandRun.of env.callCommand)
      (fun failed => lift (inWorld (usingExit env.settings scope failed))) { s with state := q } := by
    simp only [callUnder, bind_run, lift, inWorld, zoom, henter, q]
  obtain ⟨failed, hexit⟩ := after_ensuring (observed CommandRun.of env.callCommand)
    (fun failed => lift (inWorld (usingExit env.settings scope failed))) { s with state := q }
  refine ⟨failed, ?_⟩
  rw [after, hentered, ← after, hexit, after_lift, after_observed, inWorld, after_zoom]

/-- The scope is left as it was entered, whatever the command did in it. -/
theorem AtRest.usingExit {scope : UsingScope} {failed : Bool} {w w₁ : World} (h : AtRest s.state.world)
    (henter : usingEnter env.settings (.some tenant) "default" s.state.world = .ok scope w)
    (hframes : ∀ a, (w₁.connections a).frames = (w.connections a).frames) :
    AtRest (after (TenantContext.usingExit env.settings scope failed) w₁) := by
  obtain ⟨-, hscope, hentered⟩ := usingEnter_spec henter
  have hn : scope.aliases.Nodup := by
    rw [hscope]
    exact nodup_aliasesFor _ _ _
  have ho : scope.opened.Nodup := by
    rw [hscope]
    exact (nodup_aliasesFor _ _ _).filter _
  rw [after_of_ok (usingExit_run _ _ _ hn ho)]
  refine ⟨?_, fun a => ?_⟩
  · show scope.token = .none
    rw [hscope]
    exact h.currentTenant
  obtain ⟨c, hopened, hnot, hran, -⟩ := hentered a
  have hkept : ∀ again, (restoreOn env.settings scope.aliases again a (w₁.connections a)).frames = c.frames :=
    fun again => (restoreOn_ran _ _ _ _ _).frames.trans ((hframes a).trans hran.frames)
  simp only [World.withTenant]
  split
  · next hin =>
    rw [Connection.frames, session_left (h.not_inAtomicBlock a) (hopened hin) (hkept _)]
    rfl
  · next hin => rw [hkept, hnot hin, h.frames]

theorem AtRest.callUnder (hcommand : LeavesTransactions env.callCommand) (h : AtRest s.state.world) :
    AtRest (after (Boundary.callUnder env tenant) s).state.world := by
  cases henter : usingEnter env.settings (.some tenant) "default" s.state.world with
  | error e w =>
    have hw : w = { s.state.world with connections := w.connections } := (usingEnter_error_spec henter).1
    rw [after_of_error (callUnder_of_refused henter)]
    refine ⟨?_, fun a => (frames_of_usingEnter_error henter a).trans (h.frames a)⟩
    show w.contextVars.currentTenant = .none
    rw [hw]
    exact h.currentTenant
  | ok scope w =>
    obtain ⟨failed, hafter⟩ := after_callUnder henter
    rw [hafter]
    exact h.usingExit henter (hcommand _)

/-- In either mode nothing runs after the scope but what names the result. -/
theorem after_runOne (parallel : Int) (hget : getTenant env pk s.state = .ok (.some tenant) p) :
    after (runOne env parallel pk) s = after (callUnder env tenant) { s with state := p } := by
  obtain ⟨finish, handle, hreports, hrun⟩ := runOne_of_found parallel hget
  rw [after, hrun, catching_run, bind_run, after]
  cases callUnder env tenant { s with state := p } with
  | ok u s₁ => simp only [hreports.finish]
  | error e s₁ =>
    cases hcaught : e.isException with
    | true => simp only [hcaught, if_true, hreports.handle]
    | false => simp [hcaught]

theorem AtRest.runOne (hcommand : LeavesTransactions env.callCommand)
    (hrun : Boundary.runOne env parallel pk s = .ok result s') (h : AtRest s.state.world) : AtRest s'.state.world := by
  have hanswers : Answers env s pk := by
    by_contra hnot
    obtain ⟨e, s₁, hraised⟩ := runOne_of_not_answers parallel s pk hnot
    rw [hrun] at hraised
    cases hraised
  obtain ⟨found, p, hget, -⟩ := hanswers
  rw [← after_of_ok hrun]
  cases found with
  | none =>
    rw [after_of_ok (runOne_of_notFound parallel hget)]
    exact h.getTenant hget
  | some tenant =>
    rw [after_runOne parallel hget]
    exact AtRest.callUnder hcommand (h.getTenant hget)

/-! ## The calls of a run -/

theorem calls_of_calledIn (parallel : Int) (hcalled : CalledIn env s pk tenant q) :
    (after (Boundary.runOne env parallel pk) s).calls = s.calls ++ [CommandRun.of q (env.callCommand q)] := by
  obtain ⟨p, scope, hget, henter, hrest⟩ := hcalled
  have hq : { p with world := q.world } = q := by
    rw [← hrest]
  obtain ⟨failed, hafter⟩ := after_callUnder (s := { s with state := p }) henter
  rw [after_runOne parallel hget, hafter]
  simp only [hq]

/-- A turn calls the command in that process or not at all. -/
theorem calledIn_of_turn {run : CommandRun} (hrun : run ∈ (after (Boundary.runOne env parallel pk) s).calls) :
    run ∈ s.calls ∨ ∃ tenant q, CalledIn env s pk tenant q ∧ run = CommandRun.of q (env.callCommand q) := by
  cases hget : getTenant env pk s.state with
  | error e p =>
    refine .inl ?_
    have hlift : lift (getTenant env pk) s = .error e { s with state := p } := lift_error_iff.mpr ⟨p, hget, rfl⟩
    unfold Boundary.runOne runForTenant runInTurn at hrun
    split at hrun
    · rwa [after_bind, hlift] at hrun
    · rwa [after_bind, hlift] at hrun
  | ok found p =>
    cases found with
    | none =>
      rw [after_of_ok (runOne_of_notFound parallel hget)] at hrun
      exact .inl hrun
    | some tenant =>
      cases henter : usingEnter env.settings (.some tenant) "default" p.world with
      | error e w =>
        rw [after_runOne parallel hget, after_of_error (callUnder_of_refused henter)] at hrun
        exact .inl hrun
      | ok scope w =>
        have hcalled : CalledIn env s pk tenant { p with world := w } := ⟨p, scope, hget, henter, rfl⟩
        rw [calls_of_calledIn parallel hcalled, List.mem_append, List.mem_singleton] at hrun
        exact hrun.imp_right fun h => ⟨tenant, _, hcalled, h⟩

/-- Where a list comes to a tenant and calls the command for it. -/
def CallsOf (env : RunAllEnv σ) (parallel : Int) (pks : List PrimaryKey) (s : Running σ) (pk : PrimaryKey)
    (tenant : TenantRef) (q : CommandProcess σ) : Prop :=
  ∃ before later results s₁, pks = before ++ pk :: later ∧ before.mapM (runOne env parallel) s = .ok results s₁ ∧
    CalledIn env s₁ pk tenant q

theorem callsOf_of_list {run : CommandRun} (hrun : run ∈ (after (pks.mapM (Boundary.runOne env parallel)) s).calls) :
    run ∈ s.calls ∨
      ∃ pk tenant q, CallsOf env parallel pks s pk tenant q ∧ run = CommandRun.of q (env.callCommand q) := by
  induction pks generalizing s with
  | nil => exact .inl hrun
  | cons pk pks ih =>
    have hfirst : run ∈ (after (Boundary.runOne env parallel pk) s).calls → run ∈ s.calls ∨
        ∃ pk' tenant q, CallsOf env parallel (pk :: pks) s pk' tenant q ∧
          run = CommandRun.of q (env.callCommand q) := by
      intro h
      refine (calledIn_of_turn h).imp_right fun ⟨tenant, q, hcalled, hof⟩ => ?_
      exact ⟨pk, tenant, q, ⟨[], pks, [], s, rfl, rfl, hcalled⟩, hof⟩
    rw [List.mapM_cons, after_bind] at hrun
    cases hturn : Boundary.runOne env parallel pk s with
    | error e s₁ =>
      simp only [hturn] at hrun
      exact hfirst (after_of_error hturn ▸ hrun)
    | ok result s₁ =>
      simp only [hturn] at hrun
      have hlater : run ∈ (after (pks.mapM (Boundary.runOne env parallel)) s₁).calls := by
        rw [after_bind] at hrun
        cases hlist : pks.mapM (Boundary.runOne env parallel) s₁ with
        | error e s₂ =>
          simp only [hlist] at hrun
          rwa [after_of_error hlist]
        | ok results s₂ =>
          simp only [hlist] at hrun
          rwa [after_of_ok hlist]
      rcases ih hlater with hold | ⟨pk', tenant, q, ⟨before, later, results, s₂, hsplit, hbefore, hcalled⟩, hof⟩
      · exact hfirst (after_of_ok hturn ▸ hold)
      · refine .inr ⟨pk', tenant, q, ⟨pk :: before, later, result :: results, s₂, ?_, ?_, hcalled⟩, hof⟩
        · rw [hsplit, List.cons_append]
        · rw [List.mapM_cons]
          exact bind_ok_iff.mpr ⟨result, s₁, hturn, bind_ok_iff.mpr ⟨results, s₂, hbefore, rfl⟩⟩

end

/-! ## Rows -/

section

variable [DecidableEq δ] {env : RunAllEnv σ} {parallel : Int} {pk : PrimaryKey} {tenant : TenantRef}
  {tenantPks : List PrimaryKey} {p q : CommandProcess σ} {s : Running σ}

/-- On every alias the command sees and may write its tenant's rows where the
tenant's scope covers the alias, and elsewhere no row. -/
def SeesOwnRows (st : Settings) (session : SqlSession δ) (pk : PrimaryKey) (tenant : TenantRef) (w : World) : Prop :=
  ∀ (env : RlsEnv δ) cat table tenantColumn pgType (t : Table δ) a, isPostgresql st a = true →
    (w.connections a).usable = true → PolicedIn st session env cat table tenantColumn pgType t → ∀ row,
      let covers := decide (a ∈ aliasesFor st (.some (w.tenants tenant)) "default")
      let guard := (session.on (w.connections a)).guard cat table t
      guard.visible row = (covers && isOfKey session pgType tenantColumn (.some pk) row) ∧
        guard.writable row = (covers && isOfKey session pgType tenantColumn (.some pk) row)

theorem seesOwnRows_of_calledIn (session : SqlSession δ) (hset : env.settings.setDbSessionVar = true)
    (hwrap : env.settings.wrapAtomic = true) (hdistinct : env.settings.dbSessionVar ≠ env.settings.adminFlagVar)
    (h : AtRest s.state.world) (hcalled : CalledIn env s pk tenant q) :
    SeesOwnRows env.settings session pk tenant q.world := by
  intro rls cat table tenantColumn pgType t a hpg hu hpoliced row
  obtain ⟨p, scope, hget, henter, -⟩ := hcalled
  have hentered := sessionState_of_entered hset hwrap hdistinct hpg (h.getTenant hget) henter hu
  have hworld := (usingEnter_spec henter).1
  have htenant : q.world.contextVars.currentTenant = .some tenant := by rw [hworld]; rfl
  have hkey : (q.world.tenants tenant).pk = pk := by
    rw [hworld]
    exact (getTenant_ok hget).2 tenant rfl
  have hpermitted : permitted env.settings session pgType tenantColumn ⟨q.world, []⟩ a row =
      (decide (a ∈ aliasesFor env.settings (.some (q.world.tenants tenant)) "default") &&
        isOfKey session pgType tenantColumn (.some pk) row) := by
    unfold permitted activeTenantId isOfKey
    rw [htenant, ← hkey]
    by_cases hcovers : a ∈ aliasesFor env.settings (.some (q.world.tenants tenant)) "default"
    · simp [openBypasses, hcovers]
    · simp [openBypasses, hcovers]
  simp only [← hpermitted]
  exact hpoliced.guard hentered row

/-- In either mode, every call of the command is one that its list comes to, of
a tenant, and in it the command sees the rows of that tenant and no other,
whatever the tenants before it left. -/
theorem commands_seeOwnRows (pool : Pool σ) (session : SqlSession δ) (hset : env.settings.setDbSessionVar = true)
    (hwrap : env.settings.wrapAtomic = true) (hdistinct : env.settings.dbSessionVar ≠ env.settings.adminFlagVar)
    (hcommand : LeavesTransactions env.callCommand)
    (hrest : ∀ batch ∈ batches pool parallel tenantPks p, AtRest batch.1.world) :
    ∀ batch ∈ batches pool parallel tenantPks p,
      ∀ run ∈ (after (batch.2.mapM (runOne env parallel)) ⟨batch.1, []⟩).calls, ∃ pk tenant q,
        CallsOf env parallel batch.2 ⟨batch.1, []⟩ pk tenant q ∧ run = CommandRun.of q (env.callCommand q) ∧
          SeesOwnRows env.settings session pk tenant q.world := by
  intro batch hbatch run hrun
  rcases callsOf_of_list hrun with hnone | ⟨pk, tenant, q, hcalls, hof⟩
  · exact absurd hnone List.not_mem_nil
  refine ⟨pk, tenant, q, hcalls, hof, ?_⟩
  obtain ⟨before, later, results, s, -, hbefore, hcalled⟩ := hcalls
  have hreached : AtRest s.state.world :=
    mapM_keeps (fun s : Running σ => AtRest s.state.world) (fun _ _ _ _ hturn hs => hs.runOne hcommand hturn) hbefore
      (hrest batch hbatch)
  exact seesOwnRows_of_calledIn session hset hwrap hdistinct hreached hcalled

end

/-! ## A command of the shop -/

namespace TwoRegions

/-- A command that raises for tenant 0 and returns for any other. -/
def raisesForFirst : RunAllEnv Unit where
  settings := settings
  find := exiting.find
  find_pk := exiting.find_pk
  slug := exiting.slug
  str := exiting.str
  callCommand p := if p.world.contextVars.currentTenant = .some 0 then .error (.other "ValueError") p else .ok () p

end TwoRegions

theorem raisesForFirst_leavesTransactions : LeavesTransactions TwoRegions.raisesForFirst.callCommand := by
  have hsame : ∀ p, after TwoRegions.raisesForFirst.callCommand p = p := fun p => by
    unfold after TwoRegions.raisesForFirst
    simp only
    split
    · next h =>
      split at h
      · cases h
      · cases h
        rfl
    · next h =>
      split at h
      · cases h
        rfl
      · cases h
  exact fun p a => by rw [hsame]

/-- After the command has raised for tenant 0 it sees the rows of tenant 1, on
the aliases its scope covers. -/
theorem commands_seeOwnRows_shop :
    let list := [PrimaryKey.int 1, PrimaryKey.int 2]
    let calls := (after (list.mapM (runOne TwoRegions.raisesForFirst 1)) ⟨⟨TwoRegions.autocommit, ()⟩, []⟩).calls
    calls.map (fun run => (run.key, run.raised.isSome)) = [(.some (.int 1), true), (.some (.int 2), false)] ∧
      ∀ run ∈ calls, ∃ pk tenant q,
        CallsOf TwoRegions.raisesForFirst 1 list ⟨⟨TwoRegions.autocommit, ()⟩, []⟩ pk tenant q ∧
          run = CommandRun.of q (TwoRegions.raisesForFirst.callCommand q) ∧
          ∀ a, isPostgresql TwoRegions.settings a = true → (q.world.connections a).usable = true → ∀ row,
            ((shopSession.on (q.world.connections a)).guard adoptedShop.catalogue "shop_widget"
              (shopWidgets.definition a)).visible row =
                (decide (a ∈ aliasesFor TwoRegions.settings (.some (q.world.tenants tenant)) "default") &&
                  isOfKey shopSession "bigint" "tenant_id" (.some pk) row) := by
  refine ⟨by decide +kernel, fun run hrun => ?_⟩
  have hbatch : ((⟨TwoRegions.autocommit, ()⟩, [.int 1, .int 2]) : CommandProcess Unit × List PrimaryKey) ∈
      batches TwoRegions.onePerChunk 1 [.int 1, .int 2] ⟨TwoRegions.autocommit, ()⟩ := List.mem_cons_self
  have hrest : ∀ batch ∈ batches TwoRegions.onePerChunk 1 [.int 1, .int 2] ⟨TwoRegions.autocommit, ()⟩,
      AtRest batch.1.world := fun batch h => by
    obtain rfl := List.mem_singleton.mp h
    exact ⟨rfl, fun a => rfl⟩
  obtain ⟨pk, tenant, q, hcalls, hof, hsees⟩ := commands_seeOwnRows TwoRegions.onePerChunk shopSession rfl rfl
    (by decide) raisesForFirst_leavesTransactions hrest _ hbatch run hrun
  refine ⟨pk, tenant, q, hcalls, hof, fun a hpg hu row => ?_⟩
  exact (hsees _ _ _ _ _ _ a hpg hu (shopWidgets_policed.inDatabase hpg) row).1

end Boundary
