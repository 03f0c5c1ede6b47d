/-
A request's work on `default`: what of the rows a view writes is there when
the request has been answered.

The request is the one of `Scopes`, with the rows of `default` beside the
session of its connection. Django's part is what the code under the middleware
adds: `make_view_atomic` (with `ATOMIC_REQUESTS`) runs the view in a
`transaction.atomic`, and `convert_exception_to_response` makes a response of an
exception the view lets out, so that the middleware sees a response either way.
It is such a response that decides: the transaction of the middleware is
committed with it, and without `ATOMIC_REQUESTS` nothing else takes the rows
back.

Middleware runs outside any transaction (the comment in `__call__` counts on
it), and the statements on `default` fail where its connection's `faults` say.
-/
import Boundary.Views

namespace Boundary

open Exec TenantContext Stocking

/-- `TenantMiddleware.__call__`, over the rows of `default`. -/
def TenantMiddleware.callOverRows {δ : Type} (st : Settings) (conf : MiddlewareSettings) (resolvers : List Resolver)
    (receivers : Receivers) (getResponse : Request → Stocking δ (Except Exc Response)) (request : Request) :
    Stocking δ (Except Exc Response) := do
  match ← around (lift (resolveTenant st resolvers)) with
  | .none =>
    if conf.required then do
      around (send receivers.tenantResolutionFailed)
      pure (.ok (.notFound (conf.labelTitle ++ " not found.")))
    else calledWith request (getResponse request)
  | .some tenant =>
    let t ← around (lift (TenantContext.attributes tenant))
    if t.isActive = .some false then pure (.ok (.forbidden (conf.labelTitle ++ " is inactive.")))
    else
      around (send receivers.tenantResolved)
      let request := setAttributes conf request tenant
      ensuringAtomic st do
        let token ← around (lift (TenantContext.set st (.some tenant) "default"))
        ensuring (calledWith request (getResponse request)) fun _ =>
          around (lift (TenantContext.clear st token "default"))

/-- The request over the rows of `default` is the request of `Scopes`, and the
rows. -/
theorem TenantMiddleware.callOverRows_projects {δ : Type} (st : Settings) (conf : MiddlewareSettings)
    (resolvers : List Resolver) (receivers : Receivers) (convert : Exc → Response) (atomicRequests : Bool)
    (view : Request → View δ) (request : Request) :
    Projects Stocked.served (respond convert)
      (callOverRows st conf resolvers receivers (fun request => View.getResponse atomicRequests (view request)) request)
      (call st conf resolvers receivers (fun request => View.onWorld convert atomicRequests (view request)) request) := by
  have hview : ∀ request, Projects Stocked.served (respond convert)
      (calledWith request (View.getResponse atomicRequests (view request)))
      (called (request, ·) (View.onWorld convert atomicRequests (view request))) := fun request =>
    calledWith_projects request (View.getResponse_projects convert atomicRequests (view request))
  refine Projects.bind (around_projects _) fun tenant => ?_
  cases tenant with
  | none =>
    simp only [id]
    cases conf.required with
    | false => exact hview request
    | true => exact Projects.bind (around_projects _) fun _ => Projects.pure _ _ _
  | some tenant =>
    refine Projects.bind (around_projects _) fun t => ?_
    simp only [id]
    split
    · exact Projects.pure _ _ _
    · refine Projects.bind (around_projects _) fun _ => ?_
      refine ensuringAtomic_projects st ?_
      refine Projects.bind (around_projects _) fun token => ?_
      exact (hview _).ensuring fun _ => around_projects _

/-! ## A connection as its statements fail -/

/-- One of the next `count` statements fails. -/
def failsWithin (faults : List Bool) (count : Nat) : Bool := (faults.take count).any id

theorem failsWithin_one (faults : List Bool) : failsWithin faults 1 = faults.headD false := by
  unfold failsWithin
  cases faults <;> simp

theorem failsWithin_add (faults : List Bool) (m n : Nat) :
    failsWithin faults (m + n) = (failsWithin faults m || failsWithin (faults.drop m) n) := by
  unfold failsWithin
  rw [List.take_add, List.any_append]

namespace Connection

/-- In the blocks `frames` the connection takes the next statement. -/
structure Taking (frames : List (Option SessionVars)) (faults : List Bool) (c : Connection) : Prop where
  frames : c.frames = frames
  usable : c.usable = true
  faults : c.faults = faults

/-- In the blocks `frames`, the connection takes no more. -/
structure Refusing (frames : List (Option SessionVars)) (c : Connection) : Prop where
  frames : c.frames = frames
  usable : c.usable = false

/-- What `count` statements leave of a connection that takes them. -/
def After (frames : List (Option SessionVars)) (faults : List Bool) (count : Nat) (c : Connection) : Prop :=
  if failsWithin faults count then c.Refusing frames else c.Taking frames (faults.drop count)

variable {fs : List (Option SessionVars)} {faults : List Bool} {count : Nat} {c c' : Connection}

theorem Taking.after_none (h : c.Taking fs faults) : c.After fs faults 0 := h

theorem After.frames (h : c.After fs faults count) : c.frames = fs := by
  unfold After at h
  split at h
  · exact h.frames
  · exact h.frames

theorem After.usable (h : c.After fs faults count) : c.usable = !failsWithin faults count := by
  unfold After at h
  split at h
  · next hfails => rw [hfails, h.usable]; rfl
  · next hfails => rw [Bool.not_eq_true] at hfails; rw [hfails, h.usable]; rfl

theorem After.taking (h : c.After fs faults count) (hu : c.usable = true) : c.Taking fs (faults.drop count) := by
  have hfails := h.usable
  rw [hu] at hfails
  unfold After at h
  rw [if_neg (by simpa using hfails.symm)] at h
  exact h

/-- Statements after statements. -/
theorem After.then {m n : Nat} (h : c.After fs faults m)
    (htaking : c.Taking fs (faults.drop m) → c'.After fs (faults.drop m) n)
    (hrefusing : c.Refusing fs → c'.Refusing fs) : c'.After fs faults (m + n) := by
  unfold After at h ⊢
  rw [failsWithin_add]
  cases hm : failsWithin faults m with
  | true =>
    rw [hm, if_pos rfl] at h
    simpa using hrefusing h
  | false =>
    rw [hm, if_neg (by simp)] at h
    simpa [After] using htaking h

theorem opened_of_frames (h : c.frames = fs) (hopen : fs ≠ []) : c.opened = true :=
  opened_of_inAtomicBlock (inAtomicBlock_iff.mpr (by rw [h]; exact hopen))

/-- A statement, in a transaction. -/
theorem Taking.run (h : c.Taking fs faults) (hopen : fs ≠ []) (f : SessionVars → SessionVars) :
    (c.run f).2.After fs faults 1 := by
  have hhead : failsWithin faults 1 = c.faults.headD false := by rw [failsWithin_one, h.faults]
  unfold After
  rcases hr : c.run f with ⟨r, c'⟩
  cases r with
  | ok u =>
    obtain ⟨hran, haccepts, husable, hfaults⟩ := run_ok hr
    have hno : failsWithin faults 1 = false := by
      simp only [accepts, Bool.and_eq_true, Bool.not_eq_true'] at haccepts
      rw [hhead, haccepts.2]
    rw [hno]
    refine ⟨hran.frames.trans h.frames, husable, ?_⟩
    rw [hfaults, h.faults, List.drop_one]
  | error e =>
    obtain ⟨hran, hno, hdead⟩ := run_error hr
    have hyes : failsWithin faults 1 = true := by
      have haccepts := hno (opened_of_frames h.frames hopen)
      rw [accepts, h.usable, Bool.true_and, Bool.not_eq_false'] at haccepts
      rw [hhead, haccepts]
    rw [hyes]
    refine ⟨hran.frames.trans h.frames, hdead ?_⟩
    rw [inAtomicBlock_iff, h.frames]
    exact hopen

theorem Refusing.run (h : c.Refusing fs) (f : SessionVars → SessionVars) : (c.run f).2.Refusing fs := by
  have hran : Ran f c (c.run f).2 := by
    rcases hr : c.run f with ⟨r, c'⟩
    cases r with
    | ok u => exact (run_ok hr).1
    | error e => exact (run_error hr).1
  refine ⟨hran.frames.trans h.frames, ?_⟩
  rw [Bool.eq_false_iff]
  intro hu
  have husable := hran.usable hu
  rw [h.usable] at husable
  cases husable

end Connection

/-! ## The statements of the scope -/

/-- How many statements a write of the session variable is on `default`. -/
def sessionStatements (st : Settings) : Nat := if writesVar st "default" then 1 else 0

/-- How many there are on `default` when the scope ends. -/
def clearStatements (st : Settings) (previous : Option TenantRef) : Nat :=
  sessionStatements st + if previous.isSome then sessionStatements st else 0

section

variable {fs : List (Option SessionVars)} {faults : List Bool} {c c' : Connection} {st : Settings}

theorem setDbSessionOn_eq (st : Settings) (a : Alias) (value : String) (c : Connection) :
    setDbSessionOn st a value c =
      if writesVar st a && c.opened then c.run (setConfig st.dbSessionVar value) else (.ok (), c) := by
  unfold setDbSessionOn writesVar
  cases st.setDbSessionVar <;> cases isPostgresql st a <;> simp

theorem setDbSessionOn_after (st : Settings) (h : c.Taking fs faults) (hopen : fs ≠ []) (value : String) :
    (setDbSessionOn st "default" value c).2.After fs faults (sessionStatements st) := by
  rw [setDbSessionOn_eq, Connection.opened_of_frames h.frames hopen, Bool.and_true]
  unfold sessionStatements
  split
  · exact h.run hopen _
  · exact h.after_none

theorem setDbSessionOn_refusing (h : c.Refusing fs) (a : Alias) (value : String) :
    (setDbSessionOn st a value c).2.Refusing fs := by
  rw [setDbSessionOn_eq]
  split
  · exact h.run _
  · exact h

/-- The end of a scope, whichever aliases it and the tenant before it cover
beside `default`. -/
theorem restoreOn_refusing (h : c.Refusing fs) (aliases : List Alias) (again : Option (String × List Alias))
    (a : Alias) : (restoreOn st aliases again a c).Refusing fs := by
  have hcleared : (if a ∈ aliases then (setDbSessionOn st a "" c).2 else c).Refusing fs := by
    split
    · exact setDbSessionOn_refusing h a ""
    · exact h
  unfold restoreOn
  cases again with
  | none => exact hcleared
  | some p =>
    simp only
    split
    · exact setDbSessionOn_refusing hcleared a p.1
    · exact hcleared

theorem restoreOn_after {aliases : List Alias} {again : Option (String × List Alias)} (h : c.Taking fs faults)
    (hopen : fs ≠ []) (haliases : "default" ∈ aliases) (hagain : ∀ p, again = .some p → "default" ∈ p.2) :
    (restoreOn st aliases again "default" c).After fs faults
      (sessionStatements st + if again.isSome then sessionStatements st else 0) := by
  unfold restoreOn
  rw [if_pos haliases]
  have hcleared := setDbSessionOn_after st h hopen ""
  cases again with
  | none => exact hcleared
  | some p =>
    simp only [if_pos (hagain p rfl), Option.isSome_some, if_true]
    exact hcleared.then (fun htaking => setDbSessionOn_after st htaking hopen p.1)
      fun hrefusing => setDbSessionOn_refusing hrefusing "default" p.1

theorem clear_after (st : Settings) (token : Token) {w : World} (h : (w.connections "default").Taking fs faults)
    (hopen : fs ≠ []) :
    ((after (TenantContext.clear st token "default") w).connections "default").After fs faults
      (clearStatements st token) := by
  rw [after_of_ok (clear_run w)]
  have hcount : clearStatements st token =
      sessionStatements st + if (againOf st w.tenants "default" token).isSome then sessionStatements st else 0 := by
    cases token <;> rfl
  rw [hcount]
  refine restoreOn_after h hopen ?_ fun p hp => ?_
  · split
    · exact mem_aliasesFor.mpr (.inl rfl)
    · exact List.mem_singleton_self _
  · cases token with
    | none => cases hp
    | some previous =>
      cases hp
      exact mem_aliasesFor.mpr (.inl rfl)

theorem clear_ok (st : Settings) (token : Token) (w : World) :
    TenantContext.clear st token "default" w = .ok () (after (TenantContext.clear st token "default") w) := by
  rw [after_of_ok (clear_run w)]
  exact clear_run w

theorem clear_refusing (st : Settings) (token : Token) {w : World} (h : (w.connections "default").Refusing fs) :
    ((after (TenantContext.clear st token "default") w).connections "default").Refusing fs := by
  rw [after_of_ok (clear_run w)]
  exact restoreOn_refusing h _ _ _

/-- `clear` stays in the blocks it is called in, and they take statements after it
where they did and none of its own has failed. -/
theorem clear_left (st : Settings) (token : Token) {w : World} (h : (w.connections "default").frames = fs)
    (hopen : fs ≠ []) :
    ((after (TenantContext.clear st token "default") w).connections "default").frames = fs ∧
      ((after (TenantContext.clear st token "default") w).connections "default").usable =
        ((w.connections "default").usable &&
          !failsWithin (w.connections "default").faults (clearStatements st token)) := by
  cases hu : (w.connections "default").usable with
  | true =>
    have hafter := clear_after st token ⟨h, hu, rfl⟩ hopen
    exact ⟨hafter.frames, hafter.usable⟩
  | false =>
    have hrefusing := clear_refusing st token ⟨h, hu⟩
    exact ⟨hrefusing.frames, hrefusing.usable⟩

/-- `set`, where it does not raise. -/
theorem set_taking {w w' : World} {t : TenantRef} {token : Token}
    (hset : TenantContext.set st (.some t) "default" w = .ok token w')
    (h : (w.connections "default").Taking fs faults) (hopen : fs ≠ []) :
    token = w.contextVars.currentTenant ∧
      (w'.connections "default").Taking fs (faults.drop (sessionStatements st)) := by
  obtain ⟨rfl, cs, hcs, rfl⟩ := set_ok hset
  have hwrote := (setAll_ok hcs).1 "default" (mem_aliasesFor.mpr (.inl rfl))
  have hafter := setDbSessionOn_after st h hopen (w.tenants t).pk.str
  rw [hwrote] at hafter
  exact ⟨rfl, hafter.taking ((setDbSessionOn_ok hwrote).2.1 h.usable)⟩

theorem Connection.Taking.atomicEnter {v : SessionVars} (h : c.Taking fs faults)
    (he : c.atomicEnter true = (.ok (), c')) (hv : v = c.vars) : c'.Taking (.some v :: fs) faults := by
  obtain ⟨henter, hfaults⟩ := Connection.atomicEnter_ok he
  obtain ⟨hframes, husable⟩ := Txn.Session.enter_of_usable h.usable henter
  refine ⟨?_, husable, hfaults.trans h.faults⟩
  rw [hv, ← h.frames]
  exact hframes

end

/-! ## The view's answer -/

section

variable {δ : Type} {fs : List (Option SessionVars)} {faults : List Bool} {s : Stocked δ}

/-- A connection that takes statements in a transaction is one a program is
embedded in. -/
theorem exists_embed (h : s.connection.Taking fs faults) (hopen : fs ≠ []) :
    ∃ t, s = s.embed t { rows := s.ledger.rows, faults } := by
  obtain ⟨hframes, husable, hfaults⟩ := h
  have hin := Connection.inAtomicBlock_iff.mpr (hframes ▸ hopen)
  rcases hc : s.connection with ⟨handle, reachable, faults'⟩
  rw [hc] at hin husable hfaults
  cases handle with
  | none => cases hin
  | some session =>
    cases session with
    | autocommit => cases hin
    | transaction t =>
      simp only [Connection.usable_mk, Txn.Session.usable, Bool.and_eq_true, Bool.not_eq_true'] at husable
      refine ⟨t, ?_⟩
      have hsame : s.withDefault s.connection s.ledger = s := by
        simp [Stocked.withDefault, Stocked.connection]
      conv_lhs => rw [← hsame]
      rw [Stocked.embed, hc]
      obtain ⟨current, savepoints, aborted, needsRollback⟩ := t
      obtain ⟨rfl, rfl⟩ := husable
      cases hfaults
      rfl

theorem frames_embed (t : Txn.Open SessionVars) (a b : InTransaction δ) :
    (s.embed t a).connection.frames = (s.embed t b).connection.frames := by
  rw [connection_embed, connection_embed]
  rfl

theorem usable_embed (t : Txn.Open SessionVars) (a : InTransaction δ) : (s.embed t a).connection.usable = a.usable := by
  rw [connection_embed]
  rfl

theorem View.answered_of_ok {atomicRequests : Bool} {view : View δ} {a left : InTransaction δ} {response : Response}
    (h : (view.makeViewAtomic atomicRequests).ends a = .ok response left) :
    (view.answered atomicRequests).ends a = .ok (.ok response) left := by
  rw [answered, Work.ends, tryCatch_run, Work.ends, bind_run, h]
  rfl

theorem View.answered_of_error {atomicRequests : Bool} {view : View δ} {a left : InTransaction δ} {e : Exc}
    (h : (view.makeViewAtomic atomicRequests).ends a = .error e left) :
    (view.answered atomicRequests).ends a = .ok (.error e) left := by
  rw [answered, Work.ends, tryCatch_run, Work.ends, bind_run, h]
  rfl

/-- Answered, the view has left what it comes to, or the savepoint around it was
taken back. -/
theorem View.answered_spec (atomicRequests : Bool) (view : View δ) (rows : δ) (faults : List Bool) :
    ∃ answer left, (view.answered atomicRequests).ends { rows, faults } = .ok answer left ∧
      match view.ends { rows, faults } with
      | .ok _ ended => if ended.usable then left = ended else left.usable = true → left.rows = rows
      | .error _ ended => if atomicRequests then left.rows = rows else left = ended := by
  cases atomicRequests with
  | false =>
    cases hends : view.ends { rows, faults } with
    | ok response ended =>
      refine ⟨_, ended, answered_of_ok hends, ?_⟩
      cases husable : ended.usable <;> simp [husable]
    | error e ended => exact ⟨_, ended, answered_of_error hends, rfl⟩
  | true =>
    cases hends : view.ends { rows, faults } with
    | error e ended =>
      refine ⟨_, { rows, faults := ended.faults }, answered_of_error (e := e) ?_, rfl⟩
      simp [makeViewAtomic, Work.ends, InTransaction.atomic, hends]
    | ok response ended =>
      obtain ⟨rows', aborted, needsRollback, faults'⟩ := ended
      cases needsRollback with
      | true =>
        have hview : (makeViewAtomic true view).ends { rows, faults } = .ok response { rows, faults := faults' } := by
          simp [makeViewAtomic, Work.ends, InTransaction.atomic, hends]
        refine ⟨_, _, answered_of_ok hview, ?_⟩
        simp [InTransaction.usable]
      | false =>
        cases aborted with
        | true =>
          refine ⟨_, { rows, faults := faults' }, answered_of_error (e := .databaseError) ?_, ?_⟩
          · simp [makeViewAtomic, Work.ends, InTransaction.atomic, hends]
          · simp [InTransaction.usable]
        | false =>
          have hview : (makeViewAtomic true view).ends { rows, faults } =
              .ok response { rows := rows', faults := faults' } := by
            simp [makeViewAtomic, Work.ends, InTransaction.atomic, hends]
          exact ⟨_, _, answered_of_ok hview, rfl⟩

end

/-! ## A request's rows -/

section

variable {δ α : Type} {fs : List (Option SessionVars)} {faults : List Bool} {s : Stocked δ} {st : Settings}

/-- The same in another world. -/
def Stocked.inWorld (s : Stocked δ) (w : World) : Stocked δ := { s with served := { s.served with state := w } }

theorem around_lift_ok {x : M α} {a : α} {w : World} (h : x s.served.state = .ok a w) :
    around (lift x) s = .ok a (s.inWorld w) := by
  unfold around lift zoom
  rw [h]
  rfl

theorem around_lift_error {x : M α} {e : Exc} {w : World} (h : x s.served.state = .error e w) :
    around (lift x) s = .error e (s.inWorld w) := by
  unfold around lift zoom
  rw [h]
  rfl

theorem set_error_frames {t : Option TenantRef} {w w' : World} {e : Exc}
    (h : TenantContext.set st t "default" w = .error e w') :
    (w'.connections "default").frames = (w.connections "default").frames := by
  obtain ⟨u, pre, x, post, -, -, -, hpre, hx, hrest⟩ := set_error_spec h
  by_cases hin : "default" ∈ pre
  · exact (setDbSessionOn_ok (hpre _ hin)).1.frames
  · by_cases hdefault : "default" = x
    · subst hdefault
      exact (setDbSessionOn_error hx).1.frames
    · rw [hrest _ hin hdefault]

/-- What `TenantMiddleware` runs in the transaction it opens. -/
def inScope (st : Settings) (tenant : TenantRef) (request : Request) (getResponse : Stocking δ α) : Stocking δ α := do
  let token ← around (lift (TenantContext.set st (.some tenant) "default"))
  ensuring (calledWith request getResponse) fun _ => around (lift (TenantContext.clear st token "default"))

/-- The scope ends with what the answered view has left, and its transaction takes
statements if it did for the view and none of the scope's own has failed. -/
theorem inScope_spec (st : Settings) (tenant : TenantRef) (request : Request) (view : View δ) (atomicRequests : Bool)
    (hopen : fs ≠ []) (h : s.connection.Taking fs faults) :
    (∃ e s', inScope st tenant request (view.getResponse atomicRequests) s = .error e s' ∧
      s'.connection.frames = fs ∧ s'.ledger = s.ledger ∧ s'.served.calls = s.served.calls) ∨
    ∃ answer s', inScope st tenant request (view.getResponse atomicRequests) s = .ok answer s' ∧
      s'.connection.frames = fs ∧ s'.ledger.entered = s.ledger.entered ∧
      ∀ answer' left, (view.answered atomicRequests).ends
          { rows := s.ledger.rows, faults := faults.drop (sessionStatements st) } = .ok answer' left →
        s'.ledger.rows = left.rows ∧ s'.connection.usable = (left.usable &&
          !failsWithin left.faults (clearStatements st s.served.state.contextVars.currentTenant)) := by
  cases hset : TenantContext.set st (.some tenant) "default" s.served.state with
  | error e w =>
    refine .inl ⟨e, s.inWorld w, ?_, (set_error_frames hset).trans h.frames, rfl, rfl⟩
    rw [inScope, bind_run, around_lift_error hset]
  | ok token w =>
    obtain ⟨rfl, htaking⟩ := set_taking hset h hopen
    obtain ⟨s₁, htaking₁, hledger₁, hrun⟩ : ∃ s₁ : Stocked δ,
        s₁.connection.Taking fs (faults.drop (sessionStatements st)) ∧
        s₁.ledger = s.ledger ∧ inScope st tenant request (view.getResponse atomicRequests) s =
          ensuring (view.getResponse atomicRequests)
            (fun _ => around (lift (TenantContext.clear st s.served.state.contextVars.currentTenant "default"))) s₁ := by
      refine ⟨{ s.inWorld w with served := { state := w, calls := s.served.calls ++ [(request, w)] } }, htaking, rfl, ?_⟩
      rw [inScope, bind_run, around_lift_ok hset]
      rfl
    obtain ⟨t, hembed⟩ := exists_embed htaking₁ hopen
    obtain ⟨answer, left, hends, -⟩ := view.answered_spec atomicRequests s.ledger.rows (faults.drop (sessionStatements st))
    have hview : view.getResponse atomicRequests s₁ = .ok answer (s₁.embed t left) := by
      have hrun₁ := Work.run_embeds (view.answered atomicRequests) s₁ t
        { rows := s₁.ledger.rows, faults := faults.drop (sessionStatements st) }
      rw [← hembed, hledger₁, hends] at hrun₁
      exact hrun₁
    have hframes : (s₁.embed t left).connection.frames = fs := by
      rw [frames_embed t left { rows := s₁.ledger.rows, faults := faults.drop (sessionStatements st) }, ← hembed]
      exact htaking₁.frames
    have hclear := around_lift_ok (s := s₁.embed t left)
      (clear_ok st s.served.state.contextVars.currentTenant (s₁.embed t left).served.state)
    obtain ⟨hframes', husable⟩ := clear_left st s.served.state.contextVars.currentTenant
      (w := (s₁.embed t left).served.state) hframes hopen
    refine .inr ⟨answer, _, hrun.trans (ensuring_of_ok hview hclear), hframes', ?_, fun answer' left' hends' => ?_⟩
    · rw [← hledger₁]
      rfl
    · rw [hends] at hends'
      cases hends'
      refine ⟨rfl, husable.trans ?_⟩
      have hconnection : (s₁.embed t left).served.state.connections "default" = (s₁.embed t left).connection := rfl
      rw [hconnection, usable_embed, connection_embed]

/-- The rows as a block is left: those it was entered with, where it raised or
its transaction takes no more. -/
theorem leaveRows_run {v : SessionVars} {l : Txn.Ledger δ} (failed : Bool)
    (hframes : s.connection.frames = .some v :: fs) (hentered : s.ledger.entered = l.enter.entered) :
    leaveRows failed s = .ok () { s with
      ledger := ⟨if failed || !s.connection.usable then l.rows else s.ledger.rows, l.entered⟩ } := by
  have hback : s.connection.session.takesBack failed = (failed || !s.connection.usable) :=
    Txn.Session.takesBack_of_frames failed hframes
  unfold leaveRows
  rw [Txn.Ledger.leave_of_entered _ hentered, hback]

/-- The end of the transaction `_ensure_atomic` opened. -/
theorem leaveOpened_run {v : SessionVars} {l : Txn.Ledger δ} (failed : Bool)
    (hframes : s.connection.frames = .some v :: fs) (hentered : s.ledger.entered = l.enter.entered) :
    ∃ s', (do leaveRows failed; around (lift (db (exitAtomics failed ["default"]))) : Stocking δ Unit) s = .ok () s' ∧
      s'.ledger = ⟨if failed || !s.connection.usable then l.rows else s.ledger.rows, l.entered⟩ ∧
      s'.served.calls = s.served.calls := by
  have hexit : db (exitAtomics failed ["default"]) s.served.state =
      .ok () (after (db (exitAtomics failed ["default"])) s.served.state) := by
    have hrun : db (exitAtomics failed ["default"]) s.served.state = .ok () _ :=
      db_ok_iff.mpr ⟨_, exitAtomics_run s.served.state.connections (List.nodup_singleton "default"), rfl⟩
    rw [after_of_ok hrun]
    exact hrun
  have hrows := leaveRows_run failed hframes hentered
  have hdone := around_lift_ok (s := { s with
    ledger := ⟨if failed || !s.connection.usable then l.rows else s.ledger.rows, l.entered⟩ }) hexit
  refine ⟨_, Eq.trans ?_ hdone, rfl, rfl⟩
  rw [bind_run, hrows]

/-- The request: where the view was not called, the rows are as they were, and
where it was, as the transaction left them. -/
theorem ensuringAtomic_spec (tenant : TenantRef) (request : Request) (view : View δ) (atomicRequests : Bool)
    (hwrap : st.wrapAtomic = true) (hdefault : (st.databases "default").isSome = true)
    (hautocommit : s.connection.inAtomicBlock = false) :
    (∃ e s', ensuringAtomic st (inScope st tenant request (view.getResponse atomicRequests)) s = .error e s' ∧
      s'.ledger = s.ledger ∧ s'.served.calls = s.served.calls) ∨
    ∃ answer s', ensuringAtomic st (inScope st tenant request (view.getResponse atomicRequests)) s = .ok answer s' ∧
      ∀ answer' left, (view.answered atomicRequests).ends
          { rows := s.ledger.rows, faults := s.connection.faults.drop (sessionStatements st) } = .ok answer' left →
        s'.ledger.rows = if left.usable &&
          !failsWithin left.faults (clearStatements st s.served.state.contextVars.currentTenant)
          then left.rows else s.ledger.rows := by
  cases hopen : ensureAtomic st "default" s.served.state.connections with
  | error e cs =>
    have hlift := around_lift_error (s := s) (db_error_iff.mpr ⟨cs, hopen, rfl⟩)
    refine .inl ⟨e, s.inWorld { s.served.state with connections := cs }, ?_, rfl, rfl⟩
    rw [ensuringAtomic, bind_run, hlift]
  | ok mine cs =>
    obtain ⟨hmine, -, -, henter⟩ := ensureAtomic_ok hopen
    have hopens : opensAtomic st s.served.state.connections "default" = true := by
      unfold Stocked.connection at hautocommit
      simp [opensAtomic, hdefault, hwrap, hautocommit]
    rw [hopens] at hmine
    subst hmine
    have hlift := around_lift_ok (s := s) (db_ok_iff.mpr ⟨cs, hopen, rfl⟩)
    have htaking : (cs "default").Taking [.some s.connection.vars] s.connection.faults := by
      have hstart : s.connection.Taking [] s.connection.faults :=
        ⟨frames_eq_nil hautocommit, (Connection.autocommit hautocommit).1, rfl⟩
      exact hstart.atomicEnter (henter rfl) rfl
    obtain ⟨s₁, htaking₁, hledger₁, hcalls₁, hcontext₁, hrun⟩ : ∃ s₁ : Stocked δ,
        s₁.connection.Taking [.some s.connection.vars] s.connection.faults ∧ s₁.ledger = s.ledger.enter ∧
        s₁.served.calls = s.served.calls ∧ s₁.served.state.contextVars = s.served.state.contextVars ∧
        ensuringAtomic st (inScope st tenant request (view.getResponse atomicRequests)) s =
          ensuring (inScope st tenant request (view.getResponse atomicRequests))
            (fun failed => do
              leaveRows failed
              around (lift (db (exitAtomics failed ["default"])))) s₁ := by
      refine ⟨{ s.inWorld { s.served.state with connections := cs } with ledger := s.ledger.enter }, htaking, rfl, rfl,
        rfl, ?_⟩
      rw [ensuringAtomic, bind_run, hlift]
      rfl
    rcases inScope_spec st tenant request view atomicRequests (by simp) htaking₁ with
      ⟨e, s₂, hraised, hframes, hledger₂, hcalls₂⟩ | ⟨answer, s₂, hanswered, hframes, hentered, hserved⟩
    · obtain ⟨s', hleave, hledger, hcalls⟩ := leaveOpened_run (l := s.ledger) true hframes (by rw [hledger₂, hledger₁])
      refine .inl ⟨e, s', hrun.trans (ensuring_of_error hraised hleave), hledger, ?_⟩
      rw [hcalls, hcalls₂, hcalls₁]
    · obtain ⟨s', hleave, hledger, -⟩ := leaveOpened_run (l := s.ledger) false hframes (by rw [hentered, hledger₁])
      refine .inr ⟨answer, s', hrun.trans (ensuring_of_ok hanswered hleave), fun answer' left hends => ?_⟩
      rw [hcontext₁, hledger₁] at hserved
      obtain ⟨hrows, husable⟩ := hserved answer' left hends
      rw [hledger, hrows, husable]
      cases left.usable && !failsWithin left.faults (clearStatements st s.served.state.contextVars.currentTenant) <;> rfl

/-- The work of a request's view, in a transaction where the statements `faults`
fail, is a unit: what it comes to is there, where the view returns, and nothing of
it, where it raises. -/
def AsUnit (view : View δ) (rows : δ) (faults : List Bool) (rows' : δ) : Prop :=
  match view.ends { rows, faults } with
  | .ok _ ended => rows' = ended.rows
  | .error _ _ => rows' = rows

/-- When it is one: it changes nothing; or the view returns with a transaction that
takes statements, and those that end the scope go through; or the view raises and
something takes its writes back, be it the savepoint of `ATOMIC_REQUESTS`, a
statement of its own that failed, or one that ends the scope. -/
def EndsAsUnit (atomicRequests : Bool) (view : View δ) (rows : δ) (faults : List Bool) (ending : Nat) : Prop :=
  match view.ends { rows, faults } with
  | .ok _ ended => ended.rows = rows ∨ ended.usable = true ∧ failsWithin ended.faults ending = false
  | .error _ ended =>
    ended.rows = rows ∨ atomicRequests = true ∨ ended.usable = false ∨ failsWithin ended.faults ending = true

theorem asUnit_iff {view : View δ} {atomicRequests : Bool} {rows : δ} {ending : Nat} {answer : Except Exc Response}
    {left : InTransaction δ} (h : (view.answered atomicRequests).ends { rows, faults } = .ok answer left) :
    AsUnit view rows faults (if left.usable && !failsWithin left.faults ending then left.rows else rows) ↔
      EndsAsUnit atomicRequests view rows faults ending := by
  obtain ⟨_, _, hends, hleft⟩ := view.answered_spec atomicRequests rows faults
  rw [h] at hends
  cases hends
  unfold AsUnit EndsAsUnit
  cases hview : view.ends { rows, faults } with
  | ok response ended =>
    simp only [hview] at hleft ⊢
    cases husable : ended.usable with
    | true =>
      rw [husable, if_pos rfl] at hleft
      rw [hleft, husable]
      cases failsWithin ended.faults ending <;> simp [eq_comm]
    | false =>
      rw [husable, if_neg (by simp)] at hleft
      have hkept : (if left.usable && !failsWithin left.faults ending then left.rows else rows) = rows := by
        split
        next hboth => exact hleft (Bool.and_eq_true_iff.mp hboth).1
        next => rfl
      rw [hkept]
      simp only [Bool.false_eq_true, false_and, or_false]
      exact eq_comm
  | error e ended =>
    simp only [hview] at hleft ⊢
    cases atomicRequests with
    | true =>
      rw [if_pos rfl] at hleft
      simp [hleft]
    | false =>
      rw [if_neg (by simp)] at hleft
      rw [hleft]
      cases ended.usable <;> cases failsWithin ended.faults ending <;> simp

end

/-! ## A view that raises -/

namespace TwoRegions

/-- Between requests, with no rows yet. -/
def stocked : Stocked Nat := ⟨⟨autocommit, []⟩, ⟨0, []⟩⟩

/-- A view that adds a row and raises, on a request for tenant 0. -/
def raising : View Nat := .bind (.write (· + 1)) fun _ => .raise (.other "ViewError")

def forFirst : List Resolver := [⟨[], .ok (.some 0)⟩]

/-- Whether the answer is the view's, and the rows. -/
def report : EStateM.Result Exc (Stocked Nat) (Except Exc Response) → Option (Bool × Nat)
  | .ok answer s => .some (answer.isOk, s.ledger.rows)
  | .error _ _ => .none

end TwoRegions

end Boundary
