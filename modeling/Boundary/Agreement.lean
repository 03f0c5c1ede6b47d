/-
The context and the database agree: while a tenant is active, the session
variable carries its key on every alias its queries can go to, over every
well-nested run of tenant scopes, transactions and failures.

One step breaks it. A scope's entry writes on `default` and then on the new
tenant's regional alias; when the regional write raises, the context variable
goes back to the tenant that was active, and the write on `default` stays.
-/
import Boundary.RunFacts

namespace Boundary

open Exec TenantContext

/-! ## What a scope writes -/

theorem writesVar_eq_true {st : Settings} {a : Alias} :
    writesVar st a = true ↔ st.setDbSessionVar = true ∧ isPostgresql st a = true := by
  simp [writesVar]

theorem entryVars_of_mem {st : Settings} {t : Tenant} {base a : Alias} (vars : SessionVars)
    (ha : a ∈ aliasesFor st (.some t) base) (hw : writesVar st a = true) :
    entryVars st (.some t) base a vars st.dbSessionVar = t.pk.str := by
  simp [entryVars, ha, writeVar, hw, setConfig]

theorem entryVars_of_not_mem {st : Settings} {t : Tenant} {base a : Alias} (vars : SessionVars)
    (ha : a ∉ aliasesFor st (.some t) base) : entryVars st (.some t) base a vars = vars := by
  simp [entryVars, ha]

theorem writeVar_apply {st : Settings} {a : Alias} {value : String} (vars : SessionVars)
    (hw : writesVar st a = true) : writeVar st a value vars st.dbSessionVar = value := by
  simp [writeVar, hw, setConfig]

theorem isSome_of_isPostgresql {st : Settings} {a : Alias} (h : isPostgresql st a = true) :
    (st.databases a).isSome = true := by
  unfold isPostgresql at h
  cases hd : st.databases a with
  | none => simp [hd] at h
  | some vendor => rfl

/-- The aliases a raising entry wrote on, with the base alias `default`. -/
theorem aliasesFor_default_split {st : Settings} {t : Option Tenant} {pre post : List Alias} {x : Alias}
    (h : aliasesFor st t "default" = pre ++ x :: post) :
    pre = [] ∨ (pre = ["default"] ∧ regionalAlias st t = .some x) := by
  rw [aliasesFor_default] at h
  cases pre with
  | nil => exact .inl rfl
  | cons y pre =>
    simp only [List.cons_append, List.cons.injEq] at h
    obtain ⟨rfl, h⟩ := h
    refine .inr ?_
    cases hr : regionalAlias st t with
    | none => simp [hr] at h
    | some r =>
      rw [hr] at h
      cases pre with
      | nil =>
        simp only [Option.toList_some, List.nil_append, List.cons.injEq] at h
        exact ⟨rfl, by rw [h.1]⟩
      | cons z pre => simp at h

/-! ## Agreement -/

/-- The session variable carries the active tenant's key. -/
def Agrees (st : Settings) (tenants : TenantRef → Tenant) : Guard := fun a v vars =>
  ∀ t, v.currentTenant = .some t → a ∈ aliasesFor st (.some (tenants t)) "default" →
    isPostgresql st a = true → vars st.dbSessionVar = (tenants t).pk.str

theorem agrees_regionBlind (st : Settings) (tenants : TenantRef → Tenant) : RegionBlind (Agrees st tenants) :=
  fun _ _ _ _ h => h

/-- Nothing is set on a connection in autocommit, so an alias of the active
tenant is in a transaction. -/
theorem Agrees.inAtomicBlock {st : Settings} {tenants : TenantRef → Tenant} {a : Alias} {v : ContextVars}
    {c : Connection} {t : TenantRef} (h : c.usable = true → Agrees st tenants a v c.vars)
    (ht : v.currentTenant = .some t) (ha : a ∈ aliasesFor st (.some (tenants t)) "default")
    (hpg : isPostgresql st a = true) : c.inAtomicBlock = true := by
  by_contra hauto
  rw [Bool.not_eq_true] at hauto
  obtain ⟨hu, hv⟩ := Connection.autocommit hauto
  have hkey := h hu t ht ha hpg
  rw [hv] at hkey
  exact PrimaryKey.str_ne_empty _ hkey.symm

/-- The runs of tenant scopes: the base alias is `default`, and `set` is
called inside transactions. -/
def tenantStep (st : Settings) (c : Config) : Action → Bool
  | .enterUsing _ using_ => using_ == "default"
  | .enterSet t using_ =>
    using_ == "default" &&
      match t with
      | .none => true
      | .some u => (aliasesFor st (.some (c.world.tenants u)) using_).all fun a =>
          !isPostgresql st a || (c.world.connections a).inAtomicBlock
  | .enterBypass _ _ => false
  | _ => true

/-- Entering a scope for the tenant `u` while another one is active: it is not
the case that `default` takes the new key and `u`'s regional alias refuses it. -/
def takesBoth (st : Settings) (w : World) (u : TenantRef) : Bool :=
  match w.contextVars.currentTenant with
  | .none => true
  | .some t =>
    (w.tenants t).pk.str == (w.tenants u).pk.str ||
      !(isPostgresql st "default" && (w.connections "default").accepts) ||
      (regionalAlias st (.some (w.tenants u))).all fun r => !isPostgresql st r || !(w.connections r).refuses

def entryTakesBoth (st : Settings) (c : Config) : Action → Bool
  | .enterUsing (.some u) _ => takesBoth st c.world u
  | .enterSet (.some u) _ => takesBoth st c.world u
  | _ => true

section

variable {st : Settings} {tenants : TenantRef → Tenant} {start : World} {c : Config} {w : World}

/-- What an entered scope for `t` leaves of a connection in a transaction. -/
theorem agrees_entry {t : Option TenantRef} {a : Alias} {v : ContextVars} {c c' : Connection}
    (hset : st.setDbSessionVar = true) (hv : v.currentTenant = t)
    (hran : Connection.Ran (entryVars st (t.map tenants) "default" a) c c') (hu : c'.usable = true)
    (hin : ∀ u, t = .some u → a ∈ aliasesFor st (.some (tenants u)) "default" → isPostgresql st a = true →
      c.inAtomicBlock = true) : Agrees st tenants a v c'.vars := by
  intro u hu' ha hpg
  obtain rfl : t = .some u := hv.symm.trans hu'
  rw [hran.vars hu, if_pos (hin u rfl ha hpg)]
  exact entryVars_of_mem _ ha (writesVar_eq_true.mpr ⟨hset, hpg⟩)

/-- A raising entry keeps the agreement where it wrote nothing that stays. -/
theorem agrees_of_raised {u : TenantRef} {pre post : List Alias} {x a : Alias} {e : Exc}
    {w' : World} (h : Inv st (Agrees st start.tenants) start c)
    (htakes : takesBoth st c.world u = true)
    (hsplit : aliasesFor st (.some (c.world.tenants u)) "default" = pre ++ x :: post)
    (hx : writesVar st x = true ∧ (c.world.connections x).refuses = true)
    (hwrote : a ∈ pre →
      setDbSessionOn st a (c.world.tenants u).pk.str (c.world.connections a) = (.ok (), w'.connections a))
    (hraised : a = x →
      setDbSessionOn st x (c.world.tenants u).pk.str (c.world.connections x) = (.error e, w'.connections x))
    (hrest : a ∉ pre → a ≠ x → (w'.connections a).session = (c.world.connections a).session)
    (hu : (w'.connections a).usable = true) :
    Agrees st start.tenants a c.world.contextVars (w'.connections a).vars := by
  intro t ht ha hpg
  have hin : (c.world.connections a).inAtomicBlock = true :=
    Agrees.inAtomicBlock (h.guarded a).of_vars ht ha hpg
  by_cases hax : a = x
  · subst hax
    rw [(setDbSessionOn_error (hraised rfl)).2.2.2.2 hin] at hu
    cases hu
  by_cases hap : a ∈ pre
  · obtain ⟨hran, -, haccepts⟩ := setDbSessionOn_ok (hwrote hap)
    have hset : st.setDbSessionVar = true := (writesVar_eq_true.mp hx.1).1
    have hw : writesVar st a = true := writesVar_eq_true.mpr ⟨hset, hpg⟩
    rcases aliasesFor_default_split hsplit with rfl | ⟨rfl, hr⟩
    · cases hap
    obtain rfl : a = "default" := List.mem_singleton.mp hap
    have hacc := haccepts hw (Connection.opened_of_inAtomicBlock hin)
    -- `default` took the new key, so it is the old one.
    simp only [takesBoth, ht, hr, hpg, hacc, (writesVar_eq_true.mp hx.1).2, hx.2, Option.all_some,
      Bool.and_self, Bool.not_true, Bool.or_false, beq_iff_eq] at htakes
    rw [hran.vars hu, if_pos hin, writeVar_apply _ hw, ← htakes, h.unchanged]
  · have hs := hrest hap hax
    have hvars : (w'.connections a).vars = (c.world.connections a).vars := by
      rw [Connection.vars, Connection.vars, hs]
    have husable : (w'.connections a).usable = (c.world.connections a).usable := by
      rw [Connection.usable, Connection.usable, hs]
    rw [hvars]
    exact (h.guarded a).of_vars (husable ▸ hu) t ht ha hpg

/-- An exit makes the previous tenant's key the settings' again. -/
theorem agrees_restore {b : Block} {rest : List Block} {token : Token} {aliases : List Alias} {a : Alias}
    {c' : Connection} (hset : st.setDbSessionVar = true)
    (h : Inv st (Agrees st start.tenants) start ⟨w, b :: rest⟩)
    (hout : b.outer w.contextVars = { w.contextVars with currentTenant := token })
    (hran : Connection.Ran (restoreVars st aliases (againOf st start.tenants "default" token) a) (w.connections a) c')
    (hu : c'.usable = true) :
    Agrees st start.tenants a { w.contextVars with currentTenant := token } c'.vars := by
  intro p hp ha hpg
  simp only at hp
  subst hp
  have hw : writesVar st a = true := writesVar_eq_true.mpr ⟨hset, hpg⟩
  cases hin : (w.connections a).inAtomicBlock with
  | true =>
    rw [hran.vars hu, if_pos hin, restoreVars_eq _ _ _ _ _ hw]
    simp [againOf, ha]
  | false =>
    have hnot : a ∉ b.opened := fun ho => by rw [h.inAtomicBlock ho] at hin; cases hin
    have hidle := h.guard_outside hnot hin
    rw [hout] at hidle
    rw [hran.vars hu, if_neg (by rw [hin]; simp), (Connection.autocommit hin).2]
    exact hidle p rfl ha hpg

theorem agrees_enterUsing {t : Option TenantRef} (hwrap : st.wrapAtomic = true)
    (hset : st.setDbSessionVar = true) (h : Inv st (Agrees st start.tenants) start c)
    (htakes : entryTakesBoth st c (.enterUsing t "default") = true) :
    Inv st (Agrees st start.tenants) start (step st c (.enterUsing t "default")) := by
  refine h.enterUsing ?_ ?_
  · intro scope w' hr a hu
    obtain ⟨hw', rfl, hconn⟩ := usingEnter_spec hr
    obtain ⟨c₁, henter, hsame, hran, -⟩ := hconn a
    rw [World.tenant?, h.unchanged] at hran
    refine agrees_entry hset (by rw [hw']; rfl) hran hu fun u ht ha hpg => ?_
    by_cases ho : opensAtomic st c.world.connections a = true
    · refine (Connection.atomicEnter_spec (henter (List.mem_filter.mpr ⟨?_, ho⟩))).1
      rw [World.tenant?, ht, h.unchanged]
      exact ha
    · rw [hsame fun hmem => ho (List.mem_filter.mp hmem).2]
      simpa [opensAtomic, hwrap, isSome_of_isPostgresql hpg] using ho
  · intro e w' hr a hu
    obtain ⟨-, hsame | ⟨u, pre, x, rfl, hrefused⟩⟩ := usingEnter_error_spec hr
    · have hg := (h.guarded a).of_session (hsame a)
      exact hg.of_vars hu
    · by_cases ho : opensAtomic st c.world.connections a = true
      · exact ((h.guarded a).of_session (hrefused.undone a ho)).of_vars hu
      · rw [Bool.not_eq_true] at ho
        obtain ⟨post, hsplit⟩ := hrefused.split
        exact agrees_of_raised h htakes hsplit ⟨hrefused.writes, hrefused.refused⟩ (fun hap => hrefused.wrote a hap ho)
          (fun hax => hrefused.raised (hax ▸ ho)) (hrefused.rest a) hu

theorem agrees_enterSet {t : Option TenantRef} (hset : st.setDbSessionVar = true)
    (h : Inv st (Agrees st start.tenants) start c)
    (hstep : tenantStep st c (.enterSet t "default") = true)
    (htakes : entryTakesBoth st c (.enterSet t "default") = true) :
    Inv st (Agrees st start.tenants) start (step st c (.enterSet t "default")) := by
  refine h.enterSet ?_ ?_
  · intro token w' hr a hu
    obtain ⟨-, hw', hran⟩ := set_spec hr
    have hrana := (hran a).1
    rw [World.tenant?, h.unchanged] at hrana
    refine agrees_entry hset (by rw [hw']; rfl) hrana hu fun u ht ha hpg => ?_
    subst ht
    simp only [tenantStep, beq_self_eq_true, Bool.true_and, List.all_eq_true, h.unchanged] at hstep
    simpa [hpg] using hstep a ha
  · intro e w' hr a hu
    obtain ⟨u, pre, x, post, rfl, hsplit, -, hpre, hx, hrest⟩ := set_error_spec hr
    obtain ⟨-, hwx, ho, hacc, -⟩ := setDbSessionOn_error hx
    exact agrees_of_raised h htakes hsplit ⟨hwx, Connection.refuses_of_not_accepts ho hacc⟩ (hpre a)
      (fun _ => hx) (fun hap hax => by rw [hrest a hap hax]) hu

/-- One step of a run of tenant scopes keeps the agreement, unless it enters a
scope whose regional alias refuses what `default` took. -/
theorem agrees_step {a : Action} (hwrap : st.wrapAtomic = true) (hset : st.setDbSessionVar = true)
    (h : Inv st (Agrees st start.tenants) start c) (hbase : ∀ b ∈ c.stack, b.TenantRun "default")
    (hstep : tenantStep st c a = true) (htakes : entryTakesBoth st c a = true) :
    Inv st (Agrees st start.tenants) start (step st c a) := by
  cases a with
  | statement x inOrder => exact h.statement
  | enterAtomic x savepoint => exact h.enterAtomic
  | enterUsing t using_ =>
    obtain rfl : using_ = "default" := by simpa [tenantStep] using hstep
    exact agrees_enterUsing hwrap hset h htakes
  | enterSet t using_ =>
    obtain rfl : using_ = "default" := by
      simp only [tenantStep, Bool.and_eq_true, beq_iff_eq] at hstep
      exact hstep.1
    exact agrees_enterSet hset h hstep htakes
  | enterBypass x receiver => simp [tenantStep] at hstep
  | enterRegion region => exact h.enterRegion (agrees_regionBlind st start.tenants)
  | leave failed =>
    obtain ⟨w, stack⟩ := c
    cases stack with
    | nil => exact h
    | cons b rest =>
      have hb := hbase b List.mem_cons_self
      cases b with
      | atomic x => exact h.leaveAtomic
      | usingScope scope =>
        simp only [Block.TenantRun] at hb
        exact h.leaveUsing fun a c' hran hu => agrees_restore hset h rfl (hb ▸ hran) hu
      | setScope token using_ =>
        simp only [Block.TenantRun] at hb
        subst hb
        exact h.leaveSet fun a c' hran hu => agrees_restore hset h rfl hran hu
      | bypass x scope => exact hb.elim
      | specificRegion token => exact h.leaveRegion (agrees_regionBlind st start.tenants)

theorem tenantRun_of_tenantStep {a : Action} (h : tenantStep st c a = true) : a.TenantRun "default" := by
  cases a with
  | enterUsing t using_ => simpa [tenantStep, Action.TenantRun] using h
  | enterSet t using_ =>
    simp only [tenantStep, Bool.and_eq_true, beq_iff_eq] at h
    exact h.1
  | enterBypass x receiver => simp [tenantStep] at h
  | _ => trivial

/-- Steps of a run of tenant scopes, none of which enters a scope whose
regional alias refuses what `default` took. -/
def agreementStep (st : Settings) (c : Config) (a : Action) : Bool := tenantStep st c a && entryTakesBoth st c a

theorem inv_of_agreement_run (hwrap : st.wrapAtomic = true) (hset : st.setDbSessionVar = true)
    (hstart : Holds (Agrees st w.tenants) w.contextVars w.connections)
    (hrun : Runs.Reaches (step st) (fun c a => agreementStep st c a = true) ⟨w, []⟩ c) :
    Inv st (Agrees st w.tenants) w c := by
  have hkeep := hrun.invariant
    (fun c => Inv st (Agrees st w.tenants) w c ∧
      ∀ b ∈ c.stack, b.TenantRun "default")
    ⟨.init hstart, fun b hb => by cases hb⟩ fun c a hinv hok => by
      simp only [agreementStep, Bool.and_eq_true] at hok
      exact ⟨agrees_step hwrap hset hinv.1 hinv.2 hok.1 hok.2,
        step_tenantRun hinv.2 (tenantRun_of_tenantStep hok.1)⟩
  exact hkeep.1

/-- The router sends a tenant's queries to an alias its scope covers. -/
theorem route_mem_aliasesFor {isTenantModel : Bool} {v : ContextVars} {t : TenantRef}
    (hoverride : v.regionOverride = .none) (ht : v.currentTenant = .some t) :
    RegionalRouter.route st isTenantModel v tenants ∈ aliasesFor st (.some (tenants t)) "default" := by
  rw [mem_aliasesFor]
  unfold RegionalRouter.route
  split
  · exact .inl rfl
  · exact .inl rfl
  next regions hne hregions =>
  rw [hoverride]
  simp only [RegionalRouter.route.routeTenant, ht]
  split
  · exact .inl rfl
  split
  · exact .inl rfl
  next region hregion =>
  split
  · exact .inl rfl
  next hin =>
  rw [not_or, not_not] at hin
  by_cases hd : region = "default"
  · exact .inl hd
  refine .inr (.inr ?_)
  cases regions with
  | nil => exact (hne rfl).elim
  | cons r rs => simp [regionalAlias, hregions, hregion, hin, hd]

/-- At this point of a run the active tenant's key is what row-level security
reads, wherever the tenant's queries go. -/
def ContextMatchesDatabase (st : Settings) (c : Config) : Prop :=
  ∀ t, c.world.contextVars.currentTenant = .some t →
    (∀ a ∈ aliasesFor st (.some (c.world.tenants t)) "default", isPostgresql st a = true →
      (c.world.connections a).usable = true →
      (c.world.connections a).vars st.dbSessionVar = (c.world.tenants t).pk.str) ∧
    (c.world.contextVars.regionOverride = .none → ∀ isTenantModel,
      RegionalRouter.route st isTenantModel c.world.contextVars c.world.tenants ∈
        aliasesFor st (.some (c.world.tenants t)) "default")

/-- Context and database agree over whole runs, where no entry writes on
`default` before the regional alias refuses. -/
theorem contextMatchesDatabase_of_run (hwrap : st.wrapAtomic = true) (hset : st.setDbSessionVar = true)
    (hstart : ContextMatchesDatabase st ⟨w, []⟩)
    (hrun : Runs.Reaches (step st) (fun c a => agreementStep st c a = true) ⟨w, []⟩ c) :
    ContextMatchesDatabase st c := by
  have hinv := inv_of_agreement_run hwrap hset (fun a hu t ht ha hpg => (hstart t ht).1 a ha hpg hu) hrun
  intro t ht
  refine ⟨fun a ha hpg hu => ?_, fun hoverride _ => route_mem_aliasesFor hoverride ht⟩
  rw [hinv.unchanged] at ha ⊢
  exact hinv.holds a hu t ht ha hpg

end

/-! ## Runs in a deployment with two regions -/

namespace TwoRegions

/-- Under tenant 0, a scope for tenant 1 is entered and left around a
statement in error, inside a savepoint. -/
def nestedRun : List Action :=
  [.enterUsing (.some 0) "default", .enterAtomic "default" true, .enterUsing (.some 1) "default",
    .statement "eu" false, .leave true, .leave true]

theorem contextMatchesDatabase_nestedRun :
    ContextMatchesDatabase settings (nestedRun.foldl (step settings) ⟨autocommit, []⟩) :=
  contextMatchesDatabase_of_run rfl rfl (fun _ ht => by cases ht) (.of_allowed (by decide))

/-- Under tenant 0, a statement fails on `eu` and is caught; then a scope for
tenant 1 is entered, which raises. -/
def refusedRun : List Action :=
  [.enterUsing (.some 0) "default", .enterAtomic "eu" true, .statement "eu" false, .enterUsing (.some 1) "default"]

/-- After it tenant 0 is active, and `default` carries tenant 1's key. -/
theorem refusedRun_breaks_contextMatchesDatabase :
    ¬ ∀ (st : Settings) (w : World) (c : Config), st.wrapAtomic = true → st.setDbSessionVar = true →
      ContextMatchesDatabase st ⟨w, []⟩ →
      Runs.Reaches (step st) (fun c a => tenantStep st c a = true) ⟨w, []⟩ c → ContextMatchesDatabase st c := by
  intro hclaim
  have hmatch := hclaim settings autocommit (refusedRun.foldl (step settings) ⟨autocommit, []⟩) rfl rfl
    (fun _ ht => by cases ht) (.of_allowed (by decide))
  have hdefault := (hmatch 0 (by decide)).1 "default" (by decide) (by decide) (by decide)
  exact absurd hdefault (by decide)

end TwoRegions

end Boundary
