/-
Requests served one after another on one worker do not see each other: the
view runs at most once, under the tenant of the first resolver that found
one, and whatever happened the context variable and the session variable are
back to no tenant.
-/
import Boundary.Scopes
import Boundary.Agreement

namespace Boundary

open Exec TenantContext

/-- A request of the sequence. -/
structure Incoming where
  resolvers : List Resolver
  receivers : Receivers := {}
  view : Request → M Response

def serve (st : Settings) (conf : MiddlewareSettings) (w : World) (r : Incoming) : Traced World (Request × World) :=
  after (TenantMiddleware.call st conf r.resolvers r.receivers r.view {}) ⟨w, []⟩

/-- The world after a sequence of requests. -/
def serveAll (st : Settings) (conf : MiddlewareSettings) (w : World) (requests : List Incoming) : World :=
  requests.foldl (fun w r => (serve st conf w r).state) w

/-- The view leaves the active tenant and the blocks open on `default` as it
found them; where it is called with no tenant, under `frames` only, it also
leaves the session variable. -/
structure Balanced {α : Type} (st : Settings) (frames : List (Option SessionVars)) (x : M α) : Prop where
  currentTenant : ∀ w, (after x w).contextVars.currentTenant = w.contextVars.currentTenant
  blocks : ∀ w, ((after x w).connections "default").frames = (w.connections "default").frames
  vars : ∀ w, (w.connections "default").frames = frames → w.contextVars.currentTenant = .none →
    ((after x w).connections "default").usable = true → (w.connections "default").usable = true ∧
      ((after x w).connections "default").vars st.dbSessionVar = (w.connections "default").vars st.dbSessionVar

/-- No tenant: not in the context, and not on `default`, which has `frames`
open. -/
structure Clean (st : Settings) (frames : List (Option SessionVars)) (w : World) : Prop where
  currentTenant : w.contextVars.currentTenant = .none
  blocks : (w.connections "default").frames = frames
  vars : (w.connections "default").usable = true → (w.connections "default").vars st.dbSessionVar = ""

/-- Between requests `default` is in autocommit, or it is the one connection
that speaks PostgreSQL. -/
def Alone (st : Settings) (frames : List (Option SessionVars)) : Prop :=
  frames = [] ∨ ∀ t : Tenant, ∀ a ∈ aliasesFor st (.some t) "default", isPostgresql st a = true → a = "default"

/-- What a view called with this request in this world sees. -/
structure Sees (st : Settings) (conf : MiddlewareSettings) (tenant : Option TenantRef) (request : Request)
    (w : World) : Prop where
  required : conf.required = true → tenant ≠ .none
  active : ∀ t, tenant = .some t → (w.tenants t).isActive ≠ .some false
  context : w.contextVars.currentTenant = tenant
  request : request.tenant = tenant
  database : match tenant with
    | .some t => (w.connections "default").usable = true ∧
        (w.connections "default").vars st.dbSessionVar = (w.tenants t).pk.str
    | .none => (w.connections "default").usable = true → (w.connections "default").vars st.dbSessionVar = ""

/-- What one request leaves. -/
structure Isolated (st : Settings) (conf : MiddlewareSettings) (frames : List (Option SessionVars))
    (tenant : Option TenantRef) (s : Traced World (Request × World)) : Prop where
  once : s.calls.length ≤ 1
  sees : ∀ call ∈ s.calls, Sees st conf tenant call.1 call.2
  clean : Clean st frames s.state

section

variable {st : Settings} {conf : MiddlewareSettings} {frames : List (Option SessionVars)} {w w' w₂ : World}
  {t : TenantRef}

theorem Clean.of_ran (h : Clean st frames w) (hran : World.Ran w w') : Clean st frames w' where
  currentTenant := by rw [hran.contextVars]; exact h.currentTenant
  blocks := (hran.connections "default").frames.trans h.blocks
  vars hu := by
    rw [(hran.connections "default").vars hu]
    simpa using h.vars ((hran.connections "default").usable hu)

theorem Clean.of_autocommit (hcontext : w.contextVars.currentTenant = .none)
    (hsession : (w.connections "default").session = .autocommit) : Clean st [] w where
  currentTenant := hcontext
  blocks := by rw [Connection.frames, hsession]; rfl
  vars _ := by rw [Connection.vars, hsession]; rfl

theorem Isolated.of_no_call {tenant : Option TenantRef} (h : Clean st frames w) :
    Isolated st conf frames tenant ⟨w, []⟩ :=
  ⟨Nat.zero_le _, fun _ hcall => absurd hcall List.not_mem_nil, h⟩

/-- Leaving the transaction the middleware opened, or staying in the one
around the requests. -/
theorem Clean.exit {opened failed : Bool} {cs : Connections} (h : Clean st frames w)
    (hopen : ensureAtomic st "default" w.connections = .ok opened cs)
    (hcontext : w₂.contextVars.currentTenant = .none)
    (hframes : (w₂.connections "default").frames = (cs "default").frames)
    (hvars : opened = false → (w₂.connections "default").usable = true →
      (w₂.connections "default").vars st.dbSessionVar = "") :
    Clean st frames (after (db (exitAtomics failed (if opened then ["default"] else []))) w₂) := by
  obtain ⟨hopened, -, hno, hyes⟩ := ensureAtomic_ok hopen
  rw [after_db, after_of_ok (exitAtomics_run _ (by split <;> simp))]
  cases opened with
  | false =>
    simp only [Bool.false_eq_true, if_false, List.not_mem_nil]
    refine ⟨hcontext, ?_, hvars rfl⟩
    rw [hframes, hno rfl, h.blocks]
  | true =>
    have hauto : (w.connections "default").inAtomicBlock = false := not_inAtomicBlock_of_opensAtomic hopened.symm
    rw [← h.blocks, frames_eq_nil hauto]
    exact .of_autocommit hcontext (session_left hauto (hyes rfl) hframes)

/-- In the transaction around the requests, a refused `set` leaves `default`
refusing. -/
theorem clean_of_set_error {e : Exc} {opened failed : Bool} {cs : Connections}
    (hwrap : st.wrapAtomic = true) (hpg : isPostgresql st "default" = true) (halone : Alone st frames)
    (h : Clean st frames w) (hopen : ensureAtomic st "default" w.connections = .ok opened cs)
    (hraised : TenantContext.set st (.some t) "default" { w with connections := cs } = .error e w₂) :
    Clean st frames (after (db (exitAtomics failed (if opened then ["default"] else []))) w₂) := by
  obtain ⟨u, pre, x, post, -, hsplit, hw₂, hpre, hx, hrest⟩ := set_error_spec hraised
  refine h.exit hopen (by rw [hw₂]; exact h.currentTenant) ?_ ?_
  · by_cases hdp : "default" ∈ pre
    · exact (setDbSessionOn_ok (hpre _ hdp)).1.frames
    · by_cases hdx : "default" = x
      · subst hdx
        exact (setDbSessionOn_error hx).1.frames
      · rw [hrest _ hdp hdx]
  · intro hnot hu
    obtain ⟨hopened, -, hno, -⟩ := ensureAtomic_ok hopen
    have hin : (w.connections "default").inAtomicBlock = true := by
      rw [hnot] at hopened
      simpa [opensAtomic, hwrap, isSome_of_isPostgresql hpg] using hopened.symm
    rcases halone with hnil | honly
    · rw [Connection.inAtomicBlock_iff, h.blocks] at hin
      exact absurd hnil hin
    · have hwrites := (setDbSessionOn_error hx).2.1
      obtain rfl : x = "default" :=
        honly _ x (by rw [hsplit]; simp) (writesVar_eq_true.mp hwrites).2
      rw [(setDbSessionOn_error hx).2.2.2.2 (by simp only [hno hnot]; exact hin)] at hu
      cases hu

/-- `set` for the view's tenant, seen from the view. -/
theorem set_sees {opened : Bool} {cs : Connections} {token : Token} {w₁ : World}
    (hset : st.setDbSessionVar = true) (hwrap : st.wrapAtomic = true)
    (hpg : isPostgresql st "default" = true) (hopen : ensureAtomic st "default" w.connections = .ok opened cs)
    (hok : TenantContext.set st (.some t) "default" { w with connections := cs } = .ok token w₁) :
    (w₁.connections "default").usable = true ∧
      (w₁.connections "default").vars st.dbSessionVar = (w.tenants t).pk.str := by
  have hw : writesVar st "default" = true := writesVar_eq_true.mpr ⟨hset, hpg⟩
  obtain ⟨-, cs₁, hcs₁, rfl⟩ := set_ok hok
  have hd : "default" ∈ aliasesFor st (.some (w.tenants t)) "default" := mem_aliasesFor.mpr (.inl rfl)
  obtain ⟨hran, hkeeps, haccepts⟩ := setDbSessionOn_ok ((setAll_ok hcs₁).1 "default" hd)
  have hin : (cs "default").inAtomicBlock = true := by
    obtain ⟨hopened, -, hno, hyes⟩ := ensureAtomic_ok hopen
    cases opened with
    | true => exact (Connection.atomicEnter_spec (hyes rfl)).1
    | false =>
      rw [hno rfl]
      simpa [opensAtomic, hwrap, isSome_of_isPostgresql hpg] using hopened.symm
  have hu : (cs₁ "default").usable = true :=
    hkeeps (Connection.usable_of_accepts (haccepts hw (Connection.opened_of_inAtomicBlock hin)))
  refine ⟨hu, ?_⟩
  have hv := hran.vars hu
  simp only [hin, if_true] at hv
  simp only [World.withTenant]
  rw [hv]
  exact writeVar_apply _ hw

/-- `clear` after a balanced view leaves no tenant. -/
theorem clear_clean {x : M Response} {w₁ : World} (hset : st.setDbSessionVar = true)
    (hpg : isPostgresql st "default" = true) (hbalanced : Balanced st frames x)
    (hactive : w₁.contextVars.currentTenant = .some t) (hin : (w₁.connections "default").inAtomicBlock = true) :
    let w₂ := after (TenantContext.clear st .none "default") (after x w₁)
    w₂.contextVars.currentTenant = .none ∧
      (w₂.connections "default").frames = (w₁.connections "default").frames ∧
      ((w₂.connections "default").usable = true → (w₂.connections "default").vars st.dbSessionVar = "") := by
  have hw : writesVar st "default" = true := writesVar_eq_true.mpr ⟨hset, hpg⟩
  have hstill : (after x w₁).contextVars.currentTenant = .some t := (hbalanced.currentTenant w₁).trans hactive
  have hran := restoreOn_ran st (aliasesFor st (.some ((after x w₁).tenants t)) "default") .none "default"
    ((after x w₁).connections "default")
  have hframes := hbalanced.blocks w₁
  have hinside : ((after x w₁).connections "default").inAtomicBlock = true := by
    rw [Connection.inAtomicBlock_iff, hframes, ← Connection.inAtomicBlock_iff]
    exact hin
  simp only [after_of_ok (clear_run _), hstill, againOf, World.withTenant, Option.map_none]
  refine ⟨trivial, hran.frames.trans hframes, fun hu => ?_⟩
  rw [hran.vars hu, if_pos hinside, restoreVars_eq _ _ _ _ _ hw]
  simp [mem_aliasesFor]

/-! ## One request, then any number of them -/

theorem setAttributes_tenant (conf : MiddlewareSettings) (incoming : Request) (t : TenantRef) :
    (TenantMiddleware.setAttributes conf incoming t).tenant = .some t := by
  unfold TenantMiddleware.setAttributes Request.tenant
  cases conf.requestAttr with
  | none => simp
  | some attr =>
    simp only
    split
    · next h => simp [Function.update_of_ne (Ne.symm h.2)]
    · simp

/-- The transaction, `set`, the view and `clear`, for a tenant that is not
inactive. -/
theorem isolated_scope {x : Request → M Response} (hset : st.setDbSessionVar = true) (hwrap : st.wrapAtomic = true)
    (hpg : isPostgresql st "default" = true) (halone : Alone st frames)
    (hbalanced : ∀ request, Balanced st frames (x request)) (h : Clean st frames w)
    (hactive : (w.tenants t).isActive ≠ .some false) (incoming : Request)
    (hrequest : incoming.tenant = .some t) :
    Isolated st conf frames (.some t) (after (withEnsureAtomic st "default" do
      let token ← lift (TenantContext.set st (.some t) "default")
      ensuring (called (incoming, ·) (x incoming)) fun _ => lift (TenantContext.clear st token "default")) ⟨w, []⟩) := by
  rcases after_withEnsureAtomic st "default" (do
      let token ← lift (TenantContext.set st (.some t) "default")
      ensuring (called (incoming, ·) (x incoming)) fun _ => lift (TenantContext.clear st token "default")) ⟨w, []⟩ with
    ⟨_, hafter, -⟩ | ⟨opened, cs, failed, hopen, hafter⟩
  · rw [hafter]
    exact .of_no_call h
  rw [hafter]
  rcases after_startThenCalled (TenantContext.set st (.some t) "default")
      (fun token => TenantContext.clear st token "default") (incoming, ·) (x incoming)
      ⟨{ w with connections := cs }, []⟩ with
    ⟨e, w₂, hraised, hinner⟩ | ⟨token, w₁, hok, hinner⟩
  · rw [hinner]
    exact .of_no_call (clean_of_set_error hwrap hpg halone h hopen hraised)
  rw [hinner]
  obtain ⟨hu, hv⟩ := set_sees hset hwrap hpg hopen hok
  obtain ⟨rfl, hw₁, hran⟩ := set_spec hok
  have hcontext : w₁.contextVars.currentTenant = .some t := by rw [hw₁]; rfl
  have htenants : w₁.tenants = w.tenants := by rw [hw₁]; rfl
  have hframes : (w₁.connections "default").frames = (cs "default").frames := (hran "default").1.frames
  have hin : (w₁.connections "default").inAtomicBlock = true := by
    by_contra hauto
    rw [Bool.not_eq_true] at hauto
    rw [(Connection.autocommit hauto).2] at hv
    exact PrimaryKey.str_ne_empty _ hv.symm
  rw [show w.contextVars.currentTenant = .none from h.currentTenant]
  obtain ⟨hnone, hblocks, hempty⟩ := clear_clean hset hpg (hbalanced incoming) hcontext hin
  refine ⟨by simp, fun call hcall => ?_, h.exit hopen hnone (hblocks.trans hframes) fun _ => hempty⟩
  obtain rfl := List.mem_singleton.mp hcall
  refine ⟨by simp, fun u hu' => ?_, hcontext, hrequest, ?_⟩
  · cases hu'
    rw [htenants]
    exact hactive
  · simp only
    rw [htenants]
    exact ⟨hu, hv⟩

/-- One request, from a clean worker. -/
theorem serve_isolated (conf : MiddlewareSettings) {r : Incoming} (hset : st.setDbSessionVar = true)
    (hwrap : st.wrapAtomic = true)
    (hpg : isPostgresql st "default" = true) (halone : Alone st frames)
    (hbalanced : ∀ request, Balanced st frames (r.view request)) (h : Clean st frames w) :
    Isolated st conf frames (firstResolved r.resolvers) (serve st conf w r) := by
  obtain ⟨w', hw', hran⟩ := resolveTenant_run st r.resolvers w
  have hclean : Clean st frames w' := h.of_ran hran
  unfold serve TenantMiddleware.call
  cases ht : firstResolved r.resolvers with
  | none =>
    rw [ht] at hw'
    have hresolve : lift (TenantMiddleware.resolveTenant st r.resolvers)
        (⟨w, []⟩ : Traced World (Request × World)) = .ok .none ⟨w', []⟩ := lift_ok_iff.mpr ⟨w', hw', rfl⟩
    simp only [after_bind, hresolve]
    split
    · cases hsend : r.receivers.tenantResolutionFailed with
      | some e => exact .of_no_call hclean
      | none => exact .of_no_call hclean
    · next hrequired =>
      rw [after_called]
      have hb := hbalanced {}
      refine ⟨by simp, fun call hcall => ?_, ?_, ?_, fun hu => ?_⟩
      · obtain rfl := List.mem_singleton.mp hcall
        exact ⟨fun hr => absurd hr hrequired, (fun _ hn => by cases hn), hclean.currentTenant, rfl, hclean.vars⟩
      · exact (hb.currentTenant w').trans hclean.currentTenant
      · exact (hb.blocks w').trans hclean.blocks
      · obtain ⟨hbefore, hsame⟩ := hb.vars w' hclean.blocks hclean.currentTenant hu
        simp only
        rw [hsame]
        exact hclean.vars hbefore
  | some t =>
    rw [ht] at hw'
    have hresolve : lift (TenantMiddleware.resolveTenant st r.resolvers)
        (⟨w, []⟩ : Traced World (Request × World)) = .ok (.some t) ⟨w', []⟩ := lift_ok_iff.mpr ⟨w', hw', rfl⟩
    have hattributes : lift (attributes t) (⟨w', []⟩ : Traced World (Request × World)) =
        .ok (w'.tenants t) ⟨w', []⟩ := rfl
    simp only [after_bind, hresolve, hattributes]
    split
    · exact .of_no_call hclean
    · next hactive =>
      cases hsend : r.receivers.tenantResolved with
      | some e => exact .of_no_call hclean
      | none =>
        simp only [after_bind, send, pure_run]
        exact isolated_scope hset hwrap hpg halone hbalanced hclean hactive _ (setAttributes_tenant conf {} t)

/-- A worker that starts clean is clean after any number of requests. -/
theorem serveAll_clean {requests : List Incoming} (hset : st.setDbSessionVar = true) (hwrap : st.wrapAtomic = true)
    (hpg : isPostgresql st "default" = true) (halone : Alone st frames)
    (hbalanced : ∀ r ∈ requests, ∀ request, Balanced st frames (r.view request)) (h : Clean st frames w) :
    Clean st frames (serveAll st conf w requests) := by
  induction requests generalizing w with
  | nil => exact h
  | cons r requests ih =>
    have hone := serve_isolated conf hset hwrap hpg halone (hbalanced r List.mem_cons_self) h
    exact ih (fun r' hr' => hbalanced r' (List.mem_cons_of_mem _ hr')) hone.clean

/-- Requests on a reused worker are isolated: each calls its view at most
once, under its own tenant, and leaves no tenant behind. -/
theorem requests_isolated {before : List Incoming} {r : Incoming} (hset : st.setDbSessionVar = true)
    (hwrap : st.wrapAtomic = true) (hpg : isPostgresql st "default" = true) (halone : Alone st frames)
    (hbalanced : ∀ r' ∈ r :: before, ∀ request, Balanced st frames (r'.view request)) (h : Clean st frames w) :
    Isolated st conf frames (firstResolved r.resolvers) (serve st conf (serveAll st conf w before) r) :=
  serve_isolated conf hset hwrap hpg halone (hbalanced r List.mem_cons_self)
    (serveAll_clean hset hwrap hpg halone (fun r' hr' => hbalanced r' (List.mem_cons_of_mem _ hr')) h)

end

theorem balanced_of_same {α : Type} {st : Settings} {frames : List (Option SessionVars)} {x : M α}
    (h : ∀ w, after x w = w) : Balanced st frames x where
  currentTenant w := by rw [h]
  blocks w := by rw [h]
  vars w _ _ hu := by
    rw [h] at hu ⊢
    exact ⟨hu, rfl⟩

namespace TwoRegions

/-- A request for tenant 1 whose view raises, and one no resolver finds a
tenant for. -/
def failing : Incoming where
  resolvers := [⟨[("default", true)], .error (.other "ValueError")⟩, ⟨[("default", true)], .ok (.some 1)⟩]
  view _ := throw (.other "ViewError")

def anonymous : Incoming where
  resolvers := [⟨[], .ok .none⟩]
  view _ := pure (.view "ok")

theorem requests_isolated_autocommit : Isolated settings { required := false } [] (firstResolved anonymous.resolvers)
    (serve settings { required := false } (serveAll settings { required := false } autocommit [failing, failing])
      anonymous) :=
  requests_isolated rfl rfl rfl (.inl rfl)
    (fun r' hr' request => by
      simp only [List.mem_cons, List.not_mem_nil, or_false, or_self] at hr'
      rcases hr' with rfl | rfl
      · exact balanced_of_same fun _ => rfl
      · exact balanced_of_same fun _ => rfl)
    ⟨rfl, rfl, fun _ => rfl⟩

end TwoRegions

end Boundary
