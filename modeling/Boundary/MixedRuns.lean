/-
Tenant scopes and the admin bypass in one run, with transactions, regions and
failures between them: on every connection that takes statements, the two
settings are what the open blocks say.

Each of them is written under its own name. So a guard on the tenant is kept
by whatever the bypass does, and a guard on the flag by whatever a tenant's
scope does; the rest is what either does to its own.
-/
import Boundary.ForeignTenant
import Boundary.Bypass

namespace Boundary

open Exec TenantContext

/-! ## Settings that a step does not look at -/

/-- The change of the settings leaves all but the named one. -/
def ChangesOnly (name : String) (f : SessionVars → SessionVars) : Prop :=
  ∀ vars other, other ≠ name → f vars other = vars other

theorem changesOnly_id (name : String) : ChangesOnly name id := fun _ _ _ => rfl

theorem ChangesOnly.comp {name : String} {f g : SessionVars → SessionVars} (hf : ChangesOnly name f)
    (hg : ChangesOnly name g) : ChangesOnly name (f ∘ g) :=
  fun vars other hne => (hf (g vars) other hne).trans (hg vars other hne)

theorem changesOnly_setConfig (name value : String) : ChangesOnly name (setConfig name value) :=
  fun _ _ hne => Function.update_of_ne hne _ _

theorem changesOnly_writeVar (st : Settings) (a : Alias) (value : String) :
    ChangesOnly st.dbSessionVar (writeVar st a value) := by
  unfold writeVar
  split
  · exact changesOnly_setConfig _ _
  · exact changesOnly_id _

theorem changesOnly_entryVars (st : Settings) (t : Option Tenant) (base a : Alias) :
    ChangesOnly st.dbSessionVar (entryVars st t base a) := by
  unfold entryVars
  cases t with
  | none => exact changesOnly_id _
  | some u =>
    simp only
    split
    · exact changesOnly_writeVar st a _
    · exact changesOnly_id _

theorem changesOnly_restoreVars (st : Settings) (aliases : List Alias) (again : Option (String × List Alias))
    (a : Alias) : ChangesOnly st.dbSessionVar (restoreVars st aliases again a) := by
  unfold restoreVars
  refine .comp ?_ ?_
  · cases again with
    | none => exact changesOnly_id _
    | some p =>
      simp only
      split
      · exact changesOnly_writeVar st a _
      · exact changesOnly_id _
  · split
    · exact changesOnly_writeVar st a _
    · exact changesOnly_id _

/-- What a statement that changes only one setting leaves of the others. -/
theorem Connection.Ran.other {name other : String} {f : SessionVars → SessionVars} {c c' : Connection}
    (hf : ChangesOnly name f) (h : Ran f c c') (hne : other ≠ name) (hu : c'.usable = true) :
    c'.vars other = c.vars other := by
  rw [h.vars hu]
  split
  · exact hf _ _ hne
  · rfl

/-- The guard looks at no tenant and at no session variable. -/
def TenantBlind (st : Settings) (G : Guard) : Prop :=
  ∀ a v t vars vars', (∀ name, name ≠ st.dbSessionVar → vars' name = vars name) → G a v vars →
    G a { v with currentTenant := t } vars'

/-- The guard looks at no depth and at no flag. -/
def BypassBlind (st : Settings) (G : Guard) : Prop :=
  ∀ a v depth vars vars', (∀ name, name ≠ st.adminFlagVar → vars' name = vars name) → G a v vars →
    G a { v with adminBypassDepth := depth } vars'

section

variable {st : Settings} {G : Guard} {start : World} {c : Config} {w : World} {rest : List Block}

/-! ## A tenant's scopes, to a guard that is blind to them -/

theorem TenantBlind.of_ran {a : Alias} {v : ContextVars} {f : SessionVars → SessionVars} {c₁ c₂ : Connection}
    (hG : TenantBlind st G) (hf : ChangesOnly st.dbSessionVar f) (hran : Connection.Ran f c₁ c₂)
    (hbefore : c₁.usable = true → G a v c₁.vars) (t : Option TenantRef) (hu : c₂.usable = true) :
    G a { v with currentTenant := t } c₂.vars :=
  hG a v t c₁.vars c₂.vars (fun _ hne => hran.other hf hne hu) (hbefore (hran.usable hu))

/-- A raising `set` leaves the guard, wherever it wrote. -/
theorem TenantBlind.of_setDbSessionOn {a : Alias} {v : ContextVars} {value : String} {c₁ c₂ : Connection}
    {r : Except Exc Unit} (hG : TenantBlind st G) (h : setDbSessionOn st a value c₁ = (r, c₂))
    (hbefore : c₁.usable = true → G a v c₁.vars) (hu : c₂.usable = true) : G a v c₂.vars :=
  hG.of_ran (changesOnly_writeVar st a value) (setDbSessionOn_spec h).1 hbefore v.currentTenant hu

theorem Inv.enterUsing_of_blind (hG : TenantBlind st G) (h : Inv st G start c) (t : Option TenantRef) (base : Alias) :
    Inv st G start (step st c (.enterUsing t base)) := by
  refine h.enterUsing (fun scope w' hr a hu => ?_) (fun e w' hr a hu => ?_)
  · obtain ⟨hw', -, hconn⟩ := usingEnter_spec hr
    obtain ⟨c₁, henter, hsame, hran, -⟩ := hconn a
    have hbefore : c₁.usable = true → G a c.world.contextVars c₁.vars := by
      by_cases ha : a ∈ scope.opened
      · obtain ⟨-, hvars, husable⟩ := Connection.atomicEnter_spec (henter ha)
        rw [hvars]
        exact fun hu₁ => (h.guarded a).of_vars (husable hu₁)
      · rw [hsame ha]
        exact (h.guarded a).of_vars
    rw [hw']
    exact hG.of_ran (changesOnly_entryVars st _ base a) hran hbefore t hu
  · obtain ⟨-, hsame | ⟨u, pre, x, -, hrefused⟩⟩ := usingEnter_error_spec hr
    · exact ((h.guarded a).of_session (hsame a)).of_vars hu
    · by_cases ho : opensAtomic st c.world.connections a = true
      · exact ((h.guarded a).of_session (hrefused.undone a ho)).of_vars hu
      rw [Bool.not_eq_true] at ho
      by_cases hap : a ∈ pre
      · exact hG.of_setDbSessionOn (hrefused.wrote a hap ho) (h.guarded a).of_vars hu
      by_cases hax : a = x
      · subst hax
        exact hG.of_setDbSessionOn (hrefused.raised ho) (h.guarded a).of_vars hu
      · exact ((h.guarded a).of_session (hrefused.rest a hap hax)).of_vars hu

theorem Inv.enterSet_of_blind (hG : TenantBlind st G) (h : Inv st G start c) (t : Option TenantRef) (base : Alias) :
    Inv st G start (step st c (.enterSet t base)) := by
  refine h.enterSet (fun token w' hr a hu => ?_) (fun e w' hr a hu => ?_)
  · obtain ⟨-, hw', hran⟩ := set_spec hr
    rw [hw']
    exact hG.of_ran (changesOnly_entryVars st _ base a) (hran a).1 (h.guarded a).of_vars t hu
  · obtain ⟨u, pre, x, post, -, -, -, hpre, hx, hrest⟩ := set_error_spec hr
    by_cases hap : a ∈ pre
    · exact hG.of_setDbSessionOn (hpre a hap) (h.guarded a).of_vars hu
    by_cases hax : a = x
    · subst hax
      exact hG.of_setDbSessionOn hx (h.guarded a).of_vars hu
    · rw [hrest a hap hax] at hu ⊢
      exact (h.guarded a).of_vars hu

theorem Inv.leaveUsing_of_blind {scope : UsingScope} {failed : Bool} (hG : TenantBlind st G)
    (h : Inv st G start ⟨w, .usingScope scope :: rest⟩) :
    Inv st G start (step st ⟨w, .usingScope scope :: rest⟩ (.leave failed)) :=
  h.leaveUsing fun a _ hran hu => hG.of_ran (changesOnly_restoreVars st _ _ a) hran (h.guarded a).of_vars scope.token hu

theorem Inv.leaveSet_of_blind {token : Token} {base : Alias} {failed : Bool} (hG : TenantBlind st G)
    (h : Inv st G start ⟨w, .setScope token base :: rest⟩) :
    Inv st G start (step st ⟨w, .setScope token base :: rest⟩ (.leave failed)) :=
  h.leaveSet fun a _ hran hu => hG.of_ran (changesOnly_restoreVars st _ _ a) hran (h.guarded a).of_vars token hu

/-! ## Bypass blocks, to a guard that is blind to them -/

theorem BypassBlind.of_ran {a : Alias} {v : ContextVars} {f : SessionVars → SessionVars} {c₁ c₂ : Connection}
    (hG : BypassBlind st G) (hf : ChangesOnly st.adminFlagVar f) (hran : Connection.Ran f c₁ c₂)
    (hbefore : c₁.usable = true → G a v c₁.vars) (depth : Alias → Nat) (hu : c₂.usable = true) :
    G a { v with adminBypassDepth := depth } c₂.vars :=
  hG a v depth c₁.vars c₂.vars (fun _ hne => hran.other hf hne hu) (hbefore (hran.usable hu))

theorem Inv.enterBypass_of_blind (hG : BypassBlind st G) (h : Inv st G start c) (a : Alias) (receiver : Option Exc) :
    Inv st G start (step st c (.enterBypass a receiver)) := by
  refine h.enterBypass (fun hpg scope w' hr b hu => ?_) (fun hpg e w' hr b hu => ?_)
  · obtain ⟨opened, c₁, -, hw', hrest, hyes, hno, hran, -⟩ := adminBypassEnter_ok hpg hr
    rw [hw']
    by_cases hb : b = a
    · subst hb
      have hbefore : c₁.usable = true → G b c.world.contextVars c₁.vars := by
        cases opened with
        | false =>
          rw [hno rfl]
          exact (h.guarded b).of_vars
        | true =>
          obtain ⟨-, hvars, husable⟩ := Connection.atomicEnter_spec (hyes rfl)
          rw [hvars]
          exact fun hu₁ => (h.guarded b).of_vars (husable hu₁)
      exact hG.of_ran (changesOnly_setConfig _ _) hran hbefore _ hu
    · rw [hrest b hb] at hu ⊢
      exact hG b _ _ _ _ (fun _ _ => rfl) ((h.guarded b).of_vars hu)
  · obtain ⟨-, hrest, hconn⟩ := adminBypassEnter_error hpg hr
    by_cases hb : b = a
    · subst hb
      rcases hconn with hsame | ⟨hran, -⟩
      · exact ((h.guarded b).of_session hsame).of_vars hu
      · exact hG.of_ran (changesOnly_setConfig _ _) hran (h.guarded b).of_vars c.world.contextVars.adminBypassDepth hu
    · rw [hrest b hb] at hu ⊢
      exact (h.guarded b).of_vars hu

theorem Inv.leaveBypass_of_blind {a : Alias} {scope : BypassScope} {failed : Bool} (hG : BypassBlind st G)
    (h : Inv st G start ⟨w, .bypass a scope :: rest⟩) :
    Inv st G start (step st ⟨w, .bypass a scope :: rest⟩ (.leave failed)) := by
  refine h.leaveBypass fun depthToken alreadyActive opened _ b c' hne heq hu => ?_
  by_cases hb : b = a
  · subst hb
    have hran := Connection.cleared_ran st alreadyActive (w.connections b)
    rw [← heq rfl] at hran
    refine hG.of_ran ?_ hran (h.guarded b).of_vars depthToken hu
    split
    · exact changesOnly_id _
    · exact changesOnly_setConfig _ _
  · rw [hne hb] at hu ⊢
    exact hG b _ _ _ _ (fun _ _ => rfl) ((h.guarded b).of_vars hu)

/-! ## Steps of any kind -/

/-- The block, if it is a tenant's scope, has the base alias `x`. -/
def Block.Based (x : Alias) : Block → Prop
  | .usingScope scope => scope.base = x
  | .setScope _ using_ => using_ = x
  | _ => True

/-- A step keeps the guard if entering and leaving scopes and bypass blocks do. -/
theorem Inv.anyStep {x : Action} (hG : RegionBlind G) (h : Inv st G start c)
    (henterUsing : ∀ t base, x = .enterUsing t base → Inv st G start (step st c (.enterUsing t base)))
    (henterSet : ∀ t base, x = .enterSet t base → Inv st G start (step st c (.enterSet t base)))
    (henterBypass : ∀ a receiver, x = .enterBypass a receiver → Inv st G start (step st c (.enterBypass a receiver)))
    (hleaveUsing : ∀ w scope rest failed, c = ⟨w, .usingScope scope :: rest⟩ →
      Inv st G start (step st ⟨w, .usingScope scope :: rest⟩ (.leave failed)))
    (hleaveSet : ∀ w token base rest failed, c = ⟨w, .setScope token base :: rest⟩ →
      Inv st G start (step st ⟨w, .setScope token base :: rest⟩ (.leave failed)))
    (hleaveBypass : ∀ w a scope rest failed, c = ⟨w, .bypass a scope :: rest⟩ →
      Inv st G start (step st ⟨w, .bypass a scope :: rest⟩ (.leave failed))) :
    Inv st G start (step st c x) := by
  cases x with
  | statement y inOrder => exact h.statement
  | enterAtomic y savepoint => exact h.enterAtomic
  | enterUsing t base => exact henterUsing t base rfl
  | enterSet t base => exact henterSet t base rfl
  | enterBypass y receiver => exact henterBypass y receiver rfl
  | enterRegion region => exact h.enterRegion hG
  | leave failed =>
    obtain ⟨w, stack⟩ := c
    cases stack with
    | nil => exact h
    | cons b rest =>
      cases b with
      | atomic y => exact h.leaveAtomic
      | usingScope scope => exact hleaveUsing w scope rest failed rfl
      | setScope token base => exact hleaveSet w token base rest failed rfl
      | bypass y scope => exact hleaveBypass w y scope rest failed rfl
      | specificRegion token => exact h.leaveRegion hG

theorem Inv.step_of_tenantBlind {x : Action} (hG : TenantBlind st G) (hregion : RegionBlind G) (h : Inv st G start c)
    (henterBypass : ∀ a receiver, x = .enterBypass a receiver → Inv st G start (step st c (.enterBypass a receiver)))
    (hleaveBypass : ∀ w a scope rest failed, c = ⟨w, .bypass a scope :: rest⟩ →
      Inv st G start (step st ⟨w, .bypass a scope :: rest⟩ (.leave failed))) :
    Inv st G start (step st c x) :=
  h.anyStep hregion (fun t base _ => h.enterUsing_of_blind hG t base) (fun t base _ => h.enterSet_of_blind hG t base)
    henterBypass (fun _ _ _ _ hc => (hc ▸ h).leaveUsing_of_blind hG) (fun _ _ _ _ _ hc => (hc ▸ h).leaveSet_of_blind hG)
    hleaveBypass

theorem Inv.step_of_bypassBlind {x : Action} (hG : BypassBlind st G) (hregion : RegionBlind G) (h : Inv st G start c)
    (henterUsing : ∀ t base, x = .enterUsing t base → Inv st G start (step st c (.enterUsing t base)))
    (henterSet : ∀ t base, x = .enterSet t base → Inv st G start (step st c (.enterSet t base)))
    (hleaveUsing : ∀ w scope rest failed, c = ⟨w, .usingScope scope :: rest⟩ →
      Inv st G start (step st ⟨w, .usingScope scope :: rest⟩ (.leave failed)))
    (hleaveSet : ∀ w token base rest failed, c = ⟨w, .setScope token base :: rest⟩ →
      Inv st G start (step st ⟨w, .setScope token base :: rest⟩ (.leave failed))) :
    Inv st G start (step st c x) :=
  h.anyStep hregion henterUsing henterSet (fun a receiver _ => h.enterBypass_of_blind hG a receiver) hleaveUsing
    hleaveSet (fun _ _ _ _ _ hc => (hc ▸ h).leaveBypass_of_blind hG)

theorem step_based {x : Action} {base : Alias} (h : ∀ b ∈ c.stack, b.Based base)
    (husing : ∀ t u, x = .enterUsing t u → u = base) (hset : ∀ t u, x = .enterSet t u → u = base) :
    ∀ b ∈ (step st c x).stack, b.Based base := by
  refine step_stack h (fun _ _ _ => trivial) ?_ ?_ (fun _ _ _ _ => trivial) (fun _ _ _ => trivial)
  · intro t u scope w' hact hr
    obtain ⟨-, rfl, -⟩ := usingEnter_spec hr
    exact husing t u hact
  · exact fun t u token hact => hset t u hact

/-! ## Which guards look at what -/

theorem agrees_bypassBlind (hnames : st.dbSessionVar ≠ st.adminFlagVar) (tenants : TenantRef → Tenant) :
    BypassBlind st (Agrees st tenants) := by
  intro a v depth vars vars' hsame h t ht ha hpg
  rw [hsame _ hnames]
  exact h t ht ha hpg

theorem ownKey_bypassBlind (hnames : st.dbSessionVar ≠ st.adminFlagVar) (tenants : TenantRef → Tenant) :
    BypassBlind st (OwnKey st tenants) := by
  intro a v depth vars vars' hsame h hpg
  rw [hsame _ hnames]
  exact h hpg

theorem flagOn_tenantBlind (hnames : st.dbSessionVar ≠ st.adminFlagVar) : TenantBlind st (FlagOn st) := by
  intro a v t vars vars' hsame h hdepth
  rw [hsame _ hnames.symm]
  exact h hdepth

theorem flagOff_tenantBlind (hnames : st.dbSessionVar ≠ st.adminFlagVar) : TenantBlind st (FlagOff st) := by
  intro a v t vars vars' hsame h hpg hdepth
  rw [hsame _ hnames.symm]
  exact h hpg hdepth

/-! ## Runs of both -/

/-- Tenant scopes whose entries' statements succeed, each covering what the one
around it covers, and bypass blocks as in `receiverQuiet`. -/
def mixedStep (st : Settings) (c : Config) (x : Action) : Bool :=
  match x with
  | .enterBypass _ _ => receiverQuiet st c x
  | _ => tenantStep st c x && succeedingStep st c x && coversActive st c x

/-- Where every statement of the entry succeeds, no alias refuses what another took. -/
theorem takesBoth_of_writesSucceed {u : TenantRef} (h : writesSucceed st w (.some u) = true) :
    takesBoth st w u = true := by
  unfold takesBoth
  split
  · rfl
  · have hregional : (regionalAlias st (.some (w.tenants u))).all
        (fun r => !isPostgresql st r || !(w.connections r).refuses) = true := by
      rw [Option.all_eq_true]
      intro r hr
      have haccepts := List.all_eq_true.mp h r (mem_aliasesFor.mpr (.inr (.inr hr)))
      cases hpg : isPostgresql st r with
      | false => rfl
      | true =>
        rw [hpg] at haccepts
        simp only [Bool.not_true, Bool.false_or] at haccepts
        simp [Connection.refuses, haccepts]
    rw [hregional, Bool.or_true]

theorem entryTakesBoth_of_mixedStep {x : Action} (hok : mixedStep st c x = true) : entryTakesBoth st c x = true := by
  cases x with
  | enterUsing t base =>
    cases t with
    | none => rfl
    | some u =>
      simp only [mixedStep, succeedingStep, Bool.and_eq_true] at hok
      exact takesBoth_of_writesSucceed hok.1.2.2
  | enterSet t base =>
    cases t with
    | none => rfl
    | some u =>
      simp only [mixedStep, succeedingStep, Bool.and_eq_true] at hok
      exact takesBoth_of_writesSucceed hok.1.2.2
  | _ => rfl

/-- What the session variable carries on an alias: the active tenant's key,
where its scope covers the alias. -/
def activeKey (st : Settings) (w : World) (a : Alias) : String :=
  match w.contextVars.currentTenant with
  | .none => ""
  | .some t => if a ∈ aliasesFor st (.some (w.tenants t)) "default" then (w.tenants t).pk.str else ""

/-- The two settings of a connection are what the open blocks say. -/
structure SessionState (st : Settings) (c : Config) (a : Alias) : Prop where
  tenant : (c.world.connections a).vars st.dbSessionVar = activeKey st c.world a
  bypass : (c.world.connections a).vars st.adminFlagVar = "true" ↔ 0 < openBypasses a c.stack

/-- A task before its first block: no tenant, no bypass. -/
structure Idle (st : Settings) (w : World) : Prop extends NoTenant st w where
  depth : ∀ a, w.contextVars.adminBypassDepth a = 0
  flags : ∀ a, isPostgresql st a = true → (w.connections a).usable = true →
    (w.connections a).vars st.adminFlagVar ≠ "true"

theorem Idle.agrees (h : Idle st w) : Holds (Agrees st w.tenants) w.contextVars w.connections :=
  fun _ _ t ht => by rw [h.currentTenant] at ht; cases ht

theorem Idle.ownKey (h : Idle st w) : Holds (OwnKey st w.tenants) w.contextVars w.connections :=
  fun a hu hpg => .inl (h.vars a hpg hu)

/-- What a mixed run keeps. -/
structure MixedInv (st : Settings) (start : World) (c : Config) : Prop where
  agrees : Inv st (Agrees st start.tenants) start c
  ownKey : Inv st (OwnKey st start.tenants) start c
  flagOn : Inv st (FlagOn st) start c
  flagOff : Inv st (FlagOff st) start c
  based : ∀ b ∈ c.stack, b.Based "default"

theorem Idle.mixedInv (h : Idle st w) : MixedInv st w ⟨w, []⟩ where
  agrees := .init h.agrees
  ownKey := .init h.ownKey
  flagOn := .init fun a _ hdepth => by rw [h.depth a] at hdepth; omega
  flagOff := .init fun a hu hpg _ => h.flags a hpg hu
  based b hb := by cases hb

/-- An allowed step enters scopes on the base alias `default` alone. -/
theorem base_of_mixedStep {x : Action} (hok : mixedStep st c x = true) :
    (∀ t u, x = .enterUsing t u → u = "default") ∧ ∀ t u, x = .enterSet t u → u = "default" := by
  constructor
  · rintro t u rfl
    simp only [mixedStep, Bool.and_eq_true] at hok
    exact tenantRun_of_succeedingStep hok.1.2
  · rintro t u rfl
    simp only [mixedStep, Bool.and_eq_true] at hok
    exact tenantRun_of_succeedingStep hok.1.2

theorem MixedInv.step_agrees {x : Action} (hwrap : st.wrapAtomic = true) (hset : st.setDbSessionVar = true)
    (hnames : st.dbSessionVar ≠ st.adminFlagVar) (h : MixedInv st start c) (hok : mixedStep st c x = true) :
    Inv st (Agrees st start.tenants) start (step st c x) := by
  have hbase := base_of_mixedStep hok
  refine h.agrees.step_of_bypassBlind (agrees_bypassBlind hnames _) (agrees_regionBlind st _) ?_ ?_ ?_ ?_
  · intro t base hx
    obtain rfl := hbase.1 t base hx
    subst hx
    exact agrees_enterUsing hwrap hset h.agrees (entryTakesBoth_of_mixedStep hok)
  · intro t base hx
    obtain rfl := hbase.2 t base hx
    subst hx
    have htakes := entryTakesBoth_of_mixedStep hok
    simp only [mixedStep, Bool.and_eq_true] at hok
    exact agrees_enterSet hset h.agrees hok.1.1 htakes
  · intro w scope rest failed hc
    have hinv := hc ▸ h.agrees
    have hb : scope.base = "default" := h.based (.usingScope scope) (by rw [hc]; exact List.mem_cons_self)
    exact hinv.leaveUsing fun a c' hran hu => agrees_restore hset hinv rfl (hb ▸ hran) hu
  · intro w token base rest failed hc
    have hinv := hc ▸ h.agrees
    obtain rfl : base = "default" := h.based (.setScope token base) (by rw [hc]; exact List.mem_cons_self)
    exact hinv.leaveSet fun a c' hran hu => agrees_restore hset hinv rfl hran hu

theorem MixedInv.step_ownKey {x : Action} (hset : st.setDbSessionVar = true)
    (hnames : st.dbSessionVar ≠ st.adminFlagVar) (h : MixedInv st start c) (hok : mixedStep st c x = true) :
    Inv st (OwnKey st start.tenants) start (step st c x) := by
  have hbase := base_of_mixedStep hok
  refine h.ownKey.step_of_bypassBlind (ownKey_bypassBlind hnames _) (ownKey_regionBlind st _) ?_ ?_ ?_ ?_
  · intro t base hx
    obtain rfl := hbase.1 t base hx
    subst hx
    simp only [mixedStep, succeedingStep, Bool.and_eq_true] at hok
    exact ownKey_enterUsing hset h.ownKey hok.1.2.2 hok.2
  · intro t base hx
    obtain rfl := hbase.2 t base hx
    subst hx
    simp only [mixedStep, succeedingStep, Bool.and_eq_true] at hok
    exact ownKey_enterSet hset h.ownKey hok.1.2.2 hok.2
  · intro w scope rest failed hc
    have hinv := hc ▸ h.ownKey
    have hb : scope.base = "default" := h.based (.usingScope scope) (by rw [hc]; exact List.mem_cons_self)
    obtain ⟨⟨-, haliases, -⟩, -⟩ := hinv.sound
    exact hinv.leaveUsing fun a c' hran hu => ownKey_restore hset (hinv.guarded a).of_vars
      (fun t ht => by rw [haliases, ht, hb]; rfl) (hb ▸ hran) hu
  · intro w token base rest failed hc
    have hinv := hc ▸ h.ownKey
    obtain rfl : base = "default" := h.based (.setScope token base) (by rw [hc]; exact List.mem_cons_self)
    exact hinv.leaveSet fun a c' hran hu =>
      ownKey_restore hset (hinv.guarded a).of_vars (fun t ht => by rw [ht]) hran hu

theorem MixedInv.step {x : Action} (hwrap : st.wrapAtomic = true) (hset : st.setDbSessionVar = true)
    (hnames : st.dbSessionVar ≠ st.adminFlagVar) (h : MixedInv st start c) (hok : mixedStep st c x = true) :
    MixedInv st start (step st c x) where
  agrees := h.step_agrees hwrap hset hnames hok
  ownKey := h.step_ownKey hset hnames hok
  flagOn :=
    h.flagOn.step_of_tenantBlind (flagOn_tenantBlind hnames) (flagOn_regionBlind st)
      (fun _ _ _ => flagOn_enterBypass h.flagOn) fun _ _ _ _ _ hc => flagOn_leaveBypass (hc ▸ h.flagOn)
  flagOff :=
    h.flagOff.step_of_tenantBlind (flagOff_tenantBlind hnames) (flagOff_regionBlind st)
      (fun _ _ hx => flagOff_enterBypass h.flagOff (by subst hx; exact hok))
      fun _ _ _ _ _ hc => flagOff_leaveBypass (hc ▸ h.flagOff)
  based := step_based h.based (base_of_mixedStep hok).1 (base_of_mixedStep hok).2

/-- A run of both, of a task that starts with neither: each scope sets a variable
of its own, in a transaction. -/
structure MixedRun (st : Settings) (w : World) (c : Config) : Prop where
  wrapAtomic : st.wrapAtomic = true
  setDbSessionVar : st.setDbSessionVar = true
  distinct : st.dbSessionVar ≠ st.adminFlagVar
  idle : Idle st w
  run : Runs.Reaches (step st) (fun c x => mixedStep st c x = true) ⟨w, []⟩ c

theorem MixedRun.inv (h : MixedRun st w c) : MixedInv st w c :=
  h.run.invariant (MixedInv st w) h.idle.mixedInv fun _ _ hinv hok =>
    hinv.step h.wrapAtomic h.setDbSessionVar h.distinct hok

/-- Both guards together say exactly what the connection carries. -/
theorem MixedInv.sessionState {a : Alias} (hstart : Idle st start) (h : MixedInv st start c)
    (hpg : isPostgresql st a = true) (hu : (c.world.connections a).usable = true) : SessionState st c a where
  tenant := by
    have hagrees := h.agrees.holds a hu
    have hown := h.ownKey.holds a hu hpg
    unfold activeKey
    rw [h.agrees.unchanged]
    cases ht : c.world.contextVars.currentTenant with
    | none =>
      rcases hown with hempty | ⟨t, hsome, -⟩
      · exact hempty
      · rw [ht] at hsome
        cases hsome
    | some t =>
      simp only
      split
      · next ha => exact hagrees t ht ha hpg
      · next ha =>
        rcases hown with hempty | ⟨u, hsome, hau, -⟩
        · exact hempty
        · rw [ht] at hsome
          cases hsome
          exact absurd hau ha
  bypass := by
    have hdepth : c.world.contextVars.adminBypassDepth a = openBypasses a c.stack := by
      rw [h.flagOn.sound.depth_eq, hstart.depth a, Nat.zero_add]
    constructor
    · intro hflag
      by_contra hclosed
      exact h.flagOff.holds a hu hpg (by omega) hflag
    · intro hopen
      exact h.flagOn.holds a hu (hdepth ▸ hopen)

theorem MixedRun.sessionState {a : Alias} (h : MixedRun st w c) (hpg : isPostgresql st a = true)
    (hu : (c.world.connections a).usable = true) : SessionState st c a := h.inv.sessionState h.idle hpg hu

/-- Over every run that mixes them, tenant scopes and bypass blocks leave each
other's setting alone: both are what the open blocks say. -/
theorem sessionState_of_run (hrun : MixedRun st w c) (a : Alias) (hpg : isPostgresql st a = true)
    (hu : (c.world.connections a).usable = true) : SessionState st c a := hrun.sessionState hpg hu

end

/-! ## A run in a deployment with two regions -/

namespace TwoRegions

theorem autocommit_idle : Idle settings autocommit where
  currentTenant := rfl
  vars _ _ _ := rfl
  depth _ := rfl
  flags a _ _ := autocommit_flag_off a

/-- Under tenant 1 a bypass block on `eu` is left around a statement in error,
inside a savepoint. -/
def mixedRun : List Action :=
  [.enterUsing (.some 1) "default", .enterBypass "eu" .none, .enterAtomic "eu" true, .statement "eu" false,
    .leave true, .enterUsing (.some 1) "default", .leave true]

theorem sessionState_mixedRun : SessionState settings (mixedRun.foldl (step settings) ⟨autocommit, []⟩) "eu" :=
  sessionState_of_run (w := autocommit) ⟨rfl, rfl, by decide, autocommit_idle, .of_allowed (by decide)⟩ "eu"
    (by decide) (by decide)

end TwoRegions

end Boundary
