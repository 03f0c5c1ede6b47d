/-
What a view may see of a table with row security, in any sequence of requests
on one worker: the rows of the tenant its own request was resolved to, and none
where no resolver found one.

A view's bypass blocks are closed when it returns, as its atomic blocks are.
-/
import Boundary.RequestIsolation
import Boundary.VisibleRows

namespace Boundary

open Exec TenantContext

variable {δ : Type}

/-! ## The bypass flag between requests -/

/-- The bypass flag is not in force. -/
def FlagDown (st : Settings) (c : Connection) : Prop := c.usable = true → c.vars st.adminFlagVar ≠ "true"

/-- A view that leaves its scopes, bypass blocks too. -/
structure ClosesItsScopes {α : Type} (st : Settings) (frames : List (Option SessionVars)) (x : M α) : Prop extends
    Balanced st frames x where
  flag : ∀ w, FlagDown st (w.connections "default") → FlagDown st ((after x w).connections "default")

/-- A row of the tenant a request was resolved to. -/
def isOf [DecidableEq δ] (s : SqlSession δ) (pgType tenantColumn : String) (tenants : TenantRef → Tenant)
    (tenant : Option TenantRef) (r : SqlRow δ) : Bool :=
  (tenant.bind fun t => s.cast pgType (tenants t).pk.str).any fun key => decide (r tenantColumn = .some key)

section

variable {st : Settings} {conf : MiddlewareSettings} {frames : List (Option SessionVars)} {w w₂ : World}
  {t : TenantRef} {c c' : Connection}

/-- Statements that change only the tenant's variable. -/
theorem FlagDown.of_ran {f : SessionVars → SessionVars} (h : FlagDown st c) (hran : Connection.Ran f c c')
    (hdistinct : st.dbSessionVar ≠ st.adminFlagVar) (hf : ChangesOnly st.dbSessionVar f) : FlagDown st c' := by
  intro hu
  rw [hran.other hf hdistinct.symm hu]
  exact h (hran.usable hu)

theorem FlagDown.of_autocommit (h : c.session = .autocommit) : FlagDown st c := fun _ => by
  rw [Connection.vars, h]
  show "" ≠ "true"
  decide

theorem FlagDown.enter {opened : Bool} {cs : Connections} (h : FlagDown st (w.connections "default"))
    (hopen : ensureAtomic st "default" w.connections = .ok opened cs) : FlagDown st (cs "default") := by
  obtain ⟨-, -, hno, hyes⟩ := ensureAtomic_ok hopen
  cases opened with
  | false =>
    rw [hno rfl]
    exact h
  | true =>
    obtain ⟨-, hvars, husable⟩ := Connection.atomicEnter_spec (hyes rfl)
    intro hu
    rw [hvars]
    exact h (husable hu)

theorem FlagDown.exit {opened failed : Bool} {cs : Connections}
    (hopen : ensureAtomic st "default" w.connections = .ok opened cs)
    (hframes : (w₂.connections "default").frames = (cs "default").frames) (h : FlagDown st (w₂.connections "default")) :
    FlagDown st
      ((after (db (exitAtomics failed (if opened then ["default"] else []))) w₂).connections "default") := by
  obtain ⟨hopened, -, -, hyes⟩ := ensureAtomic_ok hopen
  rw [after_db, after_of_ok (exitAtomics_run _ (by split <;> simp))]
  cases opened with
  | false => exact h
  | true => exact .of_autocommit (session_left (not_inAtomicBlock_of_opensAtomic hopened.symm) (hyes rfl) hframes)

/-- A `set` that raises has run the statements it ran. -/
theorem flagDown_of_set_error {e : Exc} (hdistinct : st.dbSessionVar ≠ st.adminFlagVar)
    (h : FlagDown st (w.connections "default")) (hraised : TenantContext.set st (.some t) "default" w = .error e w₂) :
    FlagDown st (w₂.connections "default") ∧ (w₂.connections "default").frames = (w.connections "default").frames := by
  obtain ⟨u, pre, x, post, -, -, -, hpre, hx, hrest⟩ := set_error_spec hraised
  by_cases hdp : "default" ∈ pre
  · have hran := (setDbSessionOn_ok (hpre _ hdp)).1
    exact ⟨h.of_ran hran hdistinct (changesOnly_writeVar _ _ _), hran.frames⟩
  · by_cases hdx : "default" = x
    · subst hdx
      have hran := (setDbSessionOn_error hx).1
      exact ⟨h.of_ran hran hdistinct (changesOnly_writeVar _ _ _), hran.frames⟩
    · rw [hrest _ hdp hdx]
      exact ⟨h, rfl⟩

/-- What one request leaves, and what it calls its view with, of the flag. -/
structure FlagStaysDown (st : Settings) (s : Traced World (Request × World)) : Prop where
  called : ∀ call ∈ s.calls, FlagDown st (call.2.connections "default")
  left : FlagDown st (s.state.connections "default")

theorem FlagStaysDown.of_no_call (h : FlagDown st (w.connections "default")) : FlagStaysDown st ⟨w, []⟩ :=
  ⟨fun _ hcall => absurd hcall List.not_mem_nil, h⟩

/-- The transaction, `set`, the view and `clear`. -/
theorem flagStaysDown_scope {x : Request → M Response} (hdistinct : st.dbSessionVar ≠ st.adminFlagVar)
    (hcloses : ∀ request, ClosesItsScopes st frames (x request)) (h : FlagDown st (w.connections "default"))
    (incoming : Request) :
    FlagStaysDown st (after (withEnsureAtomic st "default" do
        let token ← lift (TenantContext.set st (.some t) "default")
        ensuring (called (incoming, ·) (x incoming)) fun _ => lift (TenantContext.clear st token "default"))
      ⟨w, []⟩) := by
  rcases after_withEnsureAtomic st "default" (do
      let token ← lift (TenantContext.set st (.some t) "default")
      ensuring (called (incoming, ·) (x incoming)) fun _ => lift (TenantContext.clear st token "default")) ⟨w, []⟩ with
    ⟨_, hafter, -⟩ | ⟨opened, cs, failed, hopen, hafter⟩
  · rw [hafter]
    exact .of_no_call h
  rw [hafter]
  have hentered : FlagDown st (cs "default") := h.enter hopen
  rcases after_startThenCalled (TenantContext.set st (.some t) "default")
      (fun token => TenantContext.clear st token "default") (incoming, ·) (x incoming)
      ⟨{ w with connections := cs }, []⟩ with
    ⟨e, w₂, hraised, hinner⟩ | ⟨token, w₁, hok, hinner⟩
  · rw [hinner]
    obtain ⟨hdown, hframes⟩ := flagDown_of_set_error hdistinct hentered hraised
    exact .of_no_call (.exit hopen hframes hdown)
  rw [hinner]
  obtain ⟨-, -, hran⟩ := set_spec hok
  have hcalled : FlagDown st (w₁.connections "default") :=
    FlagDown.of_ran hentered (hran "default").1 hdistinct (changesOnly_entryVars _ _ _ _)
  have hview := (hcloses incoming).flag w₁ hcalled
  refine ⟨fun call hcall => ?_, ?_⟩
  · obtain rfl := List.mem_singleton.mp hcall
    exact hcalled
  · have hclear := fun aliases => restoreOn_ran st aliases (againOf st (after (x incoming) w₁).tenants "default" token)
      "default" ((after (x incoming) w₁).connections "default")
    simp only [after_of_ok (clear_run _)]
    refine .exit hopen ?_ (hview.of_ran (hclear _) hdistinct (changesOnly_restoreVars _ _ _ _))
    exact (hclear _).frames.trans (((hcloses incoming).blocks w₁).trans (hran "default").1.frames)

theorem serve_flagStaysDown (conf : MiddlewareSettings) {r : Incoming} (hdistinct : st.dbSessionVar ≠ st.adminFlagVar)
    (hcloses : ∀ request, ClosesItsScopes st frames (r.view request)) (h : FlagDown st (w.connections "default")) :
    FlagStaysDown st (serve st conf w r) := by
  obtain ⟨w', hw', hran⟩ := resolveTenant_run st r.resolvers w
  have hresolved : FlagDown st (w'.connections "default") :=
    h.of_ran (hran.connections "default") hdistinct (changesOnly_id _)
  unfold serve TenantMiddleware.call
  have hresolve : lift (TenantMiddleware.resolveTenant st r.resolvers)
      (⟨w, []⟩ : Traced World (Request × World)) = .ok (firstResolved r.resolvers) ⟨w', []⟩ :=
    lift_ok_iff.mpr ⟨w', hw', rfl⟩
  simp only [after_bind, hresolve]
  cases firstResolved r.resolvers with
  | none =>
    simp only
    split
    · cases r.receivers.tenantResolutionFailed with
      | some e => exact .of_no_call hresolved
      | none => exact .of_no_call hresolved
    · rw [after_called]
      exact ⟨fun call hcall => List.mem_singleton.mp hcall ▸ hresolved, (hcloses {}).flag w' hresolved⟩
  | some t =>
    have hattributes : lift (attributes t) (⟨w', []⟩ : Traced World (Request × World)) =
        .ok (w'.tenants t) ⟨w', []⟩ := rfl
    simp only [after_bind, hattributes]
    split
    · exact .of_no_call hresolved
    · cases r.receivers.tenantResolved with
      | some e => exact .of_no_call hresolved
      | none =>
        simp only [after_bind, send, pure_run]
        exact flagStaysDown_scope hdistinct hcloses hresolved _

theorem serveAll_flagDown {requests : List Incoming} (hdistinct : st.dbSessionVar ≠ st.adminFlagVar)
    (hcloses : ∀ r ∈ requests, ∀ request, ClosesItsScopes st frames (r.view request))
    (h : FlagDown st (w.connections "default")) :
    FlagDown st ((serveAll st conf w requests).connections "default") := by
  induction requests generalizing w with
  | nil => exact h
  | cons r requests ih =>
    have hone := serve_flagStaysDown conf hdistinct (hcloses r List.mem_cons_self) h
    exact ih (fun r' hr' => hcloses r' (List.mem_cons_of_mem _ hr')) hone.left

end

/-! ## Rows -/

section

variable [DecidableEq δ] {st : Settings} {conf : MiddlewareSettings} {frames : List (Option SessionVars)} {w : World}
  {s : SqlSession δ} {env : RlsEnv δ} {cat : Catalogue δ} {table tenantColumn pgType : String} {t : Table δ}

omit [DecidableEq δ] in
/-- A view, called with the flag down. -/
theorem sessionState_of_sees {tenant : Option TenantRef} {request : Request} (hsees : Sees st conf tenant request w)
    (hflag : FlagDown st (w.connections "default")) (hu : (w.connections "default").usable = true) :
    SessionState st ⟨w, []⟩ "default" := by
  have hdatabase := hsees.database
  refine ⟨?_, fun h => absurd h (hflag hu), fun h => absurd h (Nat.lt_irrefl 0)⟩
  rw [activeKey, hsees.context]
  cases tenant with
  | none => exact hdatabase hu
  | some u => exact hdatabase.2.trans (if_pos (mem_aliasesFor.mpr (.inl rfl))).symm

/-- The rows it is to see are its tenant's. -/
theorem permitted_of_sees {tenant : Option TenantRef} {request : Request} (hsees : Sees st conf tenant request w)
    (r : SqlRow δ) :
    permitted st s pgType tenantColumn ⟨w, []⟩ "default" r = isOf s pgType tenantColumn w.tenants tenant r := by
  unfold permitted activeTenantId isOf
  rw [hsees.context]
  cases tenant with
  | none => rfl
  | some u =>
    have hcovered : "default" ∈ aliasesFor st (.some (w.tenants u)) "default" := mem_aliasesFor.mpr (.inl rfl)
    simp [openBypasses, hcovered]

/-- Of a table with row security, whatever was served before, a view is shown
and may write the rows of its own request's tenant, and of no other; where no
resolver found one, no row. -/
theorem requests_seeOwnRows {before : List Incoming} {r : Incoming} (hset : st.setDbSessionVar = true)
    (hwrap : st.wrapAtomic = true) (hdistinct : st.dbSessionVar ≠ st.adminFlagVar)
    (hpg : isPostgresql st "default" = true) (halone : Alone st frames)
    (hcloses : ∀ r' ∈ r :: before, ∀ request, ClosesItsScopes st frames (r'.view request)) (h : Clean st frames w)
    (hflag : FlagDown st (w.connections "default")) (hpoliced : PolicedIn st s env cat table tenantColumn pgType t) :
    ∀ call ∈ (serve st conf (serveAll st conf w before) r).calls,
      (call.2.connections "default").usable = true → ∀ row,
        let guard := (s.on (call.2.connections "default")).guard cat table t
        guard.visible row = isOf s pgType tenantColumn call.2.tenants (firstResolved r.resolvers) row ∧
          guard.writable row = isOf s pgType tenantColumn call.2.tenants (firstResolved r.resolvers) row := by
  intro call hcall hu row
  have hbalanced : ∀ r' ∈ r :: before, ∀ request, Balanced st frames (r'.view request) :=
    fun r' hr' request => (hcloses r' hr' request).toBalanced
  have hclean : Clean st frames (serveAll st conf w before) :=
    serveAll_clean hset hwrap hpg halone (fun r' hr' => hbalanced r' (List.mem_cons_of_mem _ hr')) h
  have hsees := (serve_isolated conf hset hwrap hpg halone (hbalanced r List.mem_cons_self) hclean).sees call hcall
  have hdown : FlagDown st ((serveAll st conf w before).connections "default") :=
    serveAll_flagDown hdistinct (fun r' hr' => hcloses r' (List.mem_cons_of_mem _ hr')) hflag
  have hcalled := (serve_flagStaysDown conf hdistinct (hcloses r List.mem_cons_self) hdown).called call hcall
  simp only [← permitted_of_sees hsees row]
  exact hpoliced.guard (sessionState_of_sees hsees hcalled hu) row

end

theorem closes_of_same {α : Type} {st : Settings} {frames : List (Option SessionVars)} {x : M α}
    (h : ∀ w, after x w = w) : ClosesItsScopes st frames x where
  toBalanced := balanced_of_same h
  flag w hdown := by
    rw [h]
    exact hdown

/-- A request of the tenant 1, after one that no resolver finds a tenant for and
two whose view raises. -/
def ofFirst : Incoming where
  resolvers := [⟨[("default", true)], .ok (.some 0)⟩]
  view _ := pure (.view "ok")

theorem requests_seeOwnRows_shop :
    let calls := (serve TwoRegions.settings { required := false } (serveAll TwoRegions.settings { required := false }
      TwoRegions.autocommit [TwoRegions.anonymous, TwoRegions.failing, TwoRegions.failing]) ofFirst).calls
    calls.length = 1 ∧ ∀ call ∈ calls, (call.2.connections "default").usable = true → ∀ row,
      ((shopSession.on (call.2.connections "default")).guard adoptedShop.catalogue "shop_widget"
        (shopWidgets.definition "default")).visible row =
          isOf shopSession "bigint" "tenant_id" call.2.tenants (.some 0) row := by
  refine ⟨by decide +kernel, fun call hcall hu row => ?_⟩
  have hpoliced := shopWidgets_policed.inDatabase (show isPostgresql TwoRegions.settings "default" = true from rfl)
  refine (requests_seeOwnRows rfl rfl (by decide) rfl (.inl rfl) (fun r' hr' request => ?_) ⟨rfl, rfl, fun _ => rfl⟩
    (.of_autocommit rfl) hpoliced call hcall hu row).1
  simp only [List.mem_cons, List.not_mem_nil, or_false] at hr'
  rcases hr' with rfl | rfl | rfl | rfl
  · exact closes_of_same fun _ => rfl
  · exact closes_of_same fun _ => rfl
  · exact closes_of_same fun _ => rfl
  · exact closes_of_same fun _ => rfl

end Boundary
