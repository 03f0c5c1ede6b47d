/-
What each step of `boundary_deprovision` does when it returns: every step works
on the alias its model is routed to, which with no tenant active is one alias, in
the context it was called in; a question leaves the databases as they are, and a
deletion leaves rows there were, but for columns that are set.
-/
import Boundary.Deprovision
import Boundary.Bypass
import Boundary.Scopes

namespace Boundary

open Exec

variable {δ : Type}

/-! ## Where the command works -/

/-- The alias a model is routed to. -/
def routedAlias (env : DeprovisionEnv δ) (isTenantModel : Bool) (w : World) : Alias :=
  RegionalRouter.route env.settings isTenantModel w.contextVars w.tenants

/-- The alias every model is routed to with no tenant active. -/
def home (env : DeprovisionEnv δ) (v : ContextVars) : Alias :=
  RegionalRouter.route env.settings false v fun _ => ⟨.int 0, .none, .none⟩

theorem route_of_no_tenant {st : Settings} {v : ContextVars} (hnone : v.currentTenant = .none) (b b' : Bool)
    (tenants tenants' : TenantRef → Tenant) :
    RegionalRouter.route st b v tenants = RegionalRouter.route st b' v tenants' := by
  have htenant : ∀ (b : Bool) (tenants : TenantRef → Tenant) (regions : List String),
      RegionalRouter.route.routeTenant b v tenants regions = "default" := fun b tenants regions => by
    unfold RegionalRouter.route.routeTenant
    rw [hnone]
    cases b <;> rfl
  unfold RegionalRouter.route
  simp only [htenant]

theorem routedAlias_eq_home {env : DeprovisionEnv δ} {w : World} (hnone : w.contextVars.currentTenant = .none)
    (isTenantModel : Bool) : routedAlias env isTenantModel w = home env w.contextVars :=
  route_of_no_tenant hnone _ _ _ _

/-! ## What a step leaves -/

/-- The settings on the alias are those of a session with no tenant and no
bypass, if it takes statements. -/
structure Quiet (env : DeprovisionEnv δ) (a : Alias) (d : Deployment δ) : Prop where
  depth : d.world.contextVars.adminBypassDepth a = 0
  flag : (d.world.connections a).usable = true → (d.world.connections a).vars env.settings.adminFlagVar ≠ "true"
  tenant : (d.world.connections a).usable = true → (d.world.connections a).vars env.settings.dbSessionVar = ""

/-- The context of the command is kept. -/
structure Kept (env : DeprovisionEnv δ) (d d' : Deployment δ) : Prop where
  contextVars : d'.world.contextVars = d.world.contextVars
  tenants : d'.world.tenants = d.world.tenants
  frames : ∀ a, (d'.world.connections a).frames = (d.world.connections a).frames
  quiet : ∀ a, Quiet env a d → Quiet env a d'

/-- A step worked on the alias, and left its database so. -/
structure Acted (env : DeprovisionEnv δ) (a : Alias) (cat : Catalogue δ) (d d' : Deployment δ) : Prop
    extends Kept env d d' where
  databases : d'.databases = Function.update d.databases a cat
  output : d'.output = d.output
  files : d'.files = d.files

/-- Statements ran on the alias, in the settings in force. -/
structure RanOn (a : Alias) (cat : Catalogue δ) (d d' : Deployment δ) : Prop where
  world : World.Ran d.world d'.world
  others : ∀ b, b ≠ a → d'.world.connections b = d.world.connections b
  usable : (d'.world.connections a).usable = true
  databases : d'.databases = Function.update d.databases a cat
  output : d'.output = d.output
  files : d'.files = d.files

variable {env : DeprovisionEnv δ} {a : Alias} {cat cat' : Catalogue δ} {d d' d'' : Deployment δ} {tenant : TenantRef}
  {m : AppModel}

theorem Kept.refl (d : Deployment δ) : Kept env d d := ⟨rfl, rfl, fun _ => rfl, fun _ h => h⟩

theorem Kept.trans (h : Kept env d d') (h' : Kept env d' d'') : Kept env d d'' where
  contextVars := h'.contextVars.trans h.contextVars
  tenants := h'.tenants.trans h.tenants
  frames a := (h'.frames a).trans (h.frames a)
  quiet a hquiet := h'.quiet a (h.quiet a hquiet)

/-- What reads and writes neither the world nor the databases. -/
theorem Kept.of_world (h : d'.world = d.world) : Kept env d d' where
  contextVars := by rw [h]
  tenants := by rw [h]
  frames a := by rw [h]
  quiet a hquiet := ⟨h ▸ hquiet.depth, h ▸ hquiet.flag, h ▸ hquiet.tenant⟩

theorem Kept.inAtomicBlock (h : Kept env d d') (a : Alias) :
    (d'.world.connections a).inAtomicBlock = (d.world.connections a).inAtomicBlock := by
  rw [Bool.eq_iff_iff, Connection.inAtomicBlock_iff, Connection.inAtomicBlock_iff, h.frames a]

theorem Acted.here (h : Acted env a cat d d') : d'.databases a = cat := by
  rw [h.databases, Function.update_self]

theorem Acted.unchanged (h : Acted env a (d.databases a) d d') : d'.databases = d.databases := by
  rw [h.databases, Function.update_eq_self]

theorem RanOn.connections (h : RanOn a cat d d') (b : Alias) :
    Connection.Ran id (d.world.connections b) (d'.world.connections b) := h.world.connections b

theorem vars_of_ran_id {c c' : Connection} (h : Connection.Ran id c c') (hu : c'.usable = true) : c'.vars = c.vars := by
  rw [h.vars hu]
  split <;> rfl

/-- An alias stays quiet where its settings stay, or lose the flag. -/
theorem Quiet.kept (h : Quiet env a d) (hcontext : d'.world.contextVars = d.world.contextVars)
    (hsettings : (d'.world.connections a).usable = true → (d.world.connections a).usable = true ∧
      ((d'.world.connections a).vars = (d.world.connections a).vars ∨
        (d'.world.connections a).vars = setConfig env.settings.adminFlagVar "" (d.world.connections a).vars)) :
    Quiet env a d' := by
  refine ⟨hcontext ▸ h.depth, fun hu => ?_, fun hu => ?_⟩
  · obtain ⟨hu', hvars | hvars⟩ := hsettings hu
    · rw [hvars]
      exact h.flag hu'
    · rw [hvars]
      simp [setConfig]
  · obtain ⟨hu', hvars | hvars⟩ := hsettings hu
    · rw [hvars]
      exact h.tenant hu'
    · rw [hvars, setConfig, Function.update_apply]
      split
      · rfl
      · exact h.tenant hu'

theorem RanOn.acted (h : RanOn a cat d d') : Acted env a cat d d' where
  contextVars := h.world.contextVars
  tenants := h.world.tenants
  frames b := (h.connections b).frames
  quiet b hquiet := hquiet.kept h.world.contextVars fun hu =>
    ⟨(h.connections b).usable hu, .inl (vars_of_ran_id (h.connections b) hu)⟩
  databases := h.databases
  output := h.output
  files := h.files

/-! ## Statements -/

section

variable {α : Type} {act : SqlSession δ → Catalogue δ → Except Exc (α × Catalogue δ)} {x : α}
  {body : Commanding δ α} {e : Exc}

theorem onWorld_ok_iff {y : M α} : onWorld y d = .ok x d' ↔ ∃ w, y d.world = .ok x w ∧ d' = { d with world := w } :=
  zoom_ok_iff

theorem onDatabase_ok (h : onDatabase env a act d = .ok x d') :
    ∃ cat, act (env.session a (d.world.connections a).vars) (d.databases a) = .ok (x, cat) ∧ RanOn a cat d d' := by
  unfold onDatabase at h
  split at h
  · cases h
  obtain ⟨vars, d₂, hworld, h⟩ := bind_ok_iff.mp h
  obtain ⟨w, hdb, rfl⟩ := onWorld_ok_iff.mp hworld
  obtain ⟨cs, hcell, rfl⟩ := db_ok_iff.mp hdb
  obtain ⟨hexecute, hothers⟩ := onCell_ok_iff.mp hcell
  obtain ⟨hran, ⟨hvars, -, husable, -⟩ | ⟨⟨_, hno⟩, -⟩⟩ := Connection.execute_spec hexecute
  · cases hvars
    simp only [id] at h
    cases hact : act (env.session a (d.world.connections a).vars) (d.databases a) with
    | error e =>
      rw [hact] at h
      cases h
    | ok result =>
      obtain ⟨y, cat⟩ := result
      rw [hact] at h
      cases h
      refine ⟨cat, rfl, ⟨rfl, rfl, fun b => ?_⟩, hothers, husable, rfl, rfl, rfl⟩
      by_cases hb : b = a
      · subst hb
        exact hran
      · simp only [hothers b hb]
        exact .refl _
  · cases hno

theorem onDatabase_error (h : onDatabase env a act d = .error e d') : d'.databases = d.databases := by
  unfold onDatabase at h
  split at h
  · cases h
    rfl
  rcases bind_error_iff.mp h with h | ⟨vars, d₂, hworld, h⟩
  · obtain ⟨w, -, rfl⟩ := zoom_error_iff.mp h
    rfl
  · obtain ⟨w, -, rfl⟩ := onWorld_ok_iff.mp hworld
    simp only at h
    split at h <;> cases h
    rfl

/-! ## The bypass -/

/-- A block opens a transaction where none is open. -/
theorem autocommit_of_opened {st : Settings} {receiver : Option Exc} {w w' : World} {depth : Alias → Nat}
    {alreadyActive : Bool} (hpg : isPostgresql st a = true)
    (h : adminBypassEnter st a receiver w = .ok (.active depth alreadyActive true) w') :
    (w.connections a).inAtomicBlock = false := by
  unfold adminBypassEnter at h
  rw [if_neg (by simp [hpg])] at h
  simp only [getDepth, setDepth, bind_ok_iff, EStateM.Result.ok.injEq, onError_ok_iff, db_ok_iff, pure_run,
    BypassScope.active.injEq] at h
  obtain ⟨_, _, ⟨rfl, rfl⟩, _, _, ⟨-, rfl⟩, opened, _, ⟨cs, hopen, rfl⟩, _, _, -, ⟨-, -, rfl⟩, -⟩ := h
  exact not_inAtomicBlock_of_opensAtomic (ensureAtomic_ok hopen).1.symm

/-- The flag is set and cleared again: else the settings are as they were. -/
theorem vars_after_bypass {flag : String} {c c₁ c₂ c₃ : Connection} (hset : Connection.Ran (setConfig flag "true") c c₁)
    (hran : Connection.Ran id c₁ c₂) (hclear : Connection.Ran (setConfig flag "") c₂ c₃) (hu : c₃.usable = true) :
    c₃.vars = c.vars ∨ c₃.vars = setConfig flag "" c.vars := by
  have hall := (hset.trans hran).trans hclear
  rw [hall.vars hu]
  split
  · exact .inr (Function.update_idem _ _ _)
  · exact .inl rfl

/-- The body of a block that works on its alias runs with the flag set, and the
block leaves the context as it was. -/
theorem withAdminBypass_ok (h : withAdminBypass env a body d = .ok x d')
    (hbody : ∀ d₁ d₂, body d₁ = .ok x d₂ → ∃ cat, RanOn a cat d₁ d₂) :
    ∃ d₁ d₂ cat, body d₁ = .ok x d₂ ∧ RanOn a cat d₁ d₂ ∧ d₁.databases = d.databases ∧
      d₁.world.tenants = d.world.tenants ∧
      (isPostgresql env.settings a = true → (d₁.world.connections a).vars env.settings.adminFlagVar = "true") ∧
      Acted env a cat d d' := by
  unfold withAdminBypass at h
  obtain ⟨scope, d₁, hworld, h⟩ := bind_ok_iff.mp h
  obtain ⟨w₁, henter, rfl⟩ := onWorld_ok_iff.mp hworld
  obtain ⟨d₂, hrun, hlast⟩ := ensuring_ok h
  obtain ⟨w₃, hexit, rfl⟩ := onWorld_ok_iff.mp hlast
  obtain ⟨cat, hran⟩ := hbody _ _ hrun
  refine ⟨_, d₂, cat, hrun, hran, rfl, ?_⟩
  cases hpg : isPostgresql env.settings a with
  | false =>
    rw [adminBypassEnter_quiet hpg] at henter
    split at henter <;> cases henter
    cases hexit
    exact ⟨rfl, fun hno => (by cases hno), hran.acted⟩
  | true =>
    obtain ⟨opened, c, rfl, hw₁, hothers, hyes, hno, hset, husable, hflag⟩ := adminBypassEnter_ok hpg henter
    obtain ⟨cs, hleave, hothers', hhere⟩ :=
      adminBypassExit_run env.settings a d₂.world d.world.contextVars.adminBypassDepth
      (decide (d.world.contextVars.adminBypassDepth a > 0)) opened false
    rw [hleave] at hexit
    cases hexit
    have hcontext : d₂.world.contextVars = d.world.contextVars.deeper a := by
      rw [hran.world.contextVars, hw₁]
    have htenants : w₁.tenants = d.world.tenants := by rw [hw₁]
    have hclear := Connection.cleared_ran env.settings (decide (d.world.contextVars.adminBypassDepth a > 0))
      (d₂.world.connections a)
    have helse : ∀ b, b ≠ a → cs b = d.world.connections b := fun b hb =>
      (hothers' b hb).trans ((hran.others b hb).trans (hothers b hb))
    have hcontextVars : ({ d₂.world.contextVars with adminBypassDepth := d.world.contextVars.adminBypassDepth } :
        ContextVars) = d.world.contextVars := by
      rw [hcontext]
      rfl
    -- A transaction of the block's own is left for autocommit.
    have hleft : opened = true → (cs a).session = .autocommit ∧ (d.world.connections a).session = .autocommit := by
      rintro rfl
      have hauto := autocommit_of_opened hpg henter
      rw [hhere, if_pos rfl]
      refine ⟨session_left hauto (hyes rfl) ?_, Txn.Session.eq_autocommit hauto⟩
      rw [hclear.frames, (hran.connections a).frames]
      exact hset.frames
    refine ⟨htenants, fun _ => hflag, ⟨hcontextVars, hran.world.tenants.trans htenants, fun b => ?_, fun b hquiet => ?_⟩,
      hran.databases, hran.output, hran.files⟩
    · by_cases hb : b = a
      · subst hb
        cases opened with
        | true => simp only [Connection.frames, hleft rfl]
        | false =>
          simp only [hhere, Bool.false_eq_true, if_false]
          rw [hclear.frames, (hran.connections b).frames, ← hno rfl]
          exact hset.frames
      · exact congrArg Connection.frames (helse b hb)
    · by_cases hb : b = a
      · subst hb
        have hsettings : (cs b).usable = true → (d.world.connections b).usable = true ∧
            ((cs b).vars = (d.world.connections b).vars ∨
              (cs b).vars = setConfig env.settings.adminFlagVar "" (d.world.connections b).vars) := by
          cases opened with
          | true =>
            intro _
            rw [Connection.usable, Connection.vars, Connection.vars, (hleft rfl).1, (hleft rfl).2]
            exact ⟨rfl, .inl rfl⟩
          | false =>
            intro hu
            rw [hquiet.depth] at hclear hhere
            simp only [hhere, Bool.false_eq_true, if_false] at hu ⊢
            rw [hno rfl] at hset
            exact ⟨hset.usable ((hran.connections b).usable (hclear.usable hu)),
              vars_after_bypass hset (hran.connections b) hclear hu⟩
        exact hquiet.kept hcontextVars hsettings
      · have hsame : cs b = d.world.connections b := helse b hb
        exact hquiet.kept hcontextVars fun hu => ⟨hsame ▸ hu, .inl (congrArg Connection.vars hsame)⟩

/-- A block that raises raised in its body. -/
theorem withAdminBypass_error (h : withAdminBypass env a body d = .error e d')
    (hbody : ∀ d₁ e d₂, body d₁ = .error e d₂ → d₂.databases = d₁.databases) : d'.databases = d.databases := by
  unfold withAdminBypass at h
  rcases bind_error_iff.mp h with hworld | ⟨scope, d₁, hworld, hensuring⟩
  · obtain ⟨w, -, rfl⟩ := zoom_error_iff.mp hworld
    rfl
  obtain ⟨w₁, henter, rfl⟩ := onWorld_ok_iff.mp hworld
  have hexit : ∀ failed (d₂ : Deployment δ), ∃ w, onWorld (adminBypassExit env.settings a scope failed) d₂ =
      .ok () { d₂ with world := w } := fun failed d₂ => by
    cases scope with
    | quiet => exact ⟨d₂.world, rfl⟩
    | active depthToken alreadyActive opened =>
      obtain ⟨cs, hrun, -⟩ := adminBypassExit_run env.settings a d₂.world depthToken alreadyActive opened failed
      exact ⟨_, zoom_ok_iff.mpr ⟨_, hrun, rfl⟩⟩
  unfold ensuring at hensuring
  cases hrun : body { d with world := w₁ } with
  | ok y d₂ =>
    obtain ⟨w, hw⟩ := hexit false d₂
    simp only [hrun, hw] at hensuring
    cases hensuring
  | error e' d₂ =>
    obtain ⟨w, hw⟩ := hexit true d₂
    simp only [hrun, hw] at hensuring
    cases hensuring
    have hsame := hbody _ _ _ hrun
    exact hsame

end

/-! ## Questions -/

/-- The tenant's key, as the database holds it. -/
def DeprovisionEnv.keyOf (env : DeprovisionEnv δ) (tenant : TenantRef) (d : Deployment δ) : δ :=
  env.key (d.world.tenants tenant).pk

theorem Kept.keyOf (h : Kept env d d') : env.keyOf tenant d' = env.keyOf tenant d := by
  rw [DeprovisionEnv.keyOf, h.tenants]
  rfl

theorem Kept.home (h : Kept env d d') : home env d'.world.contextVars = home env d.world.contextVars := by
  rw [h.contextVars]

theorem Kept.routedAlias (h : Kept env d d') (isTenantModel : Bool) :
    routedAlias env isTenantModel d'.world = routedAlias env isTenantModel d.world := by
  rw [Boundary.routedAlias, h.contextVars, h.tenants]
  rfl

/-- The settings are those inside the bypass, if there is one. -/
def Bypassed (env : DeprovisionEnv δ) (a : Alias) (vars : SessionVars) : Prop :=
  isPostgresql env.settings a = true → vars env.settings.adminFlagVar = "true"

/-- The settings are those of no tenant and no bypass, if the alias was quiet. -/
def Plain (env : DeprovisionEnv δ) (a : Alias) (d : Deployment δ) (vars : SessionVars) : Prop :=
  Quiet env a d → vars env.settings.adminFlagVar ≠ "true" ∧ vars env.settings.dbSessionVar = ""

theorem Plain.of_kept {vars : SessionVars} (h : Kept env d d') (hplain : Plain env a d' vars) : Plain env a d vars :=
  fun hquiet => hplain (h.quiet a hquiet)

theorem RanOn.plain (h : RanOn a cat d d') : Plain env a d (d.world.connections a).vars := fun hquiet =>
  have husable := (h.connections a).usable h.usable
  ⟨hquiet.flag husable, hquiet.tenant husable⟩

section

variable [DecidableEq δ] {rows : List (SqlRow δ)} {n : Nat} {path : String}

omit [DecidableEq δ] in
theorem tenantKey_bind {α : Type} (f : δ → Commanding δ α) :
    (tenantKey env tenant >>= f) d = f (env.keyOf tenant d) d := rfl

omit [DecidableEq δ] in
theorem routed_bind {α : Type} (isTenantModel : Bool) (f : Alias → Commanding δ α) :
    (routed env isTenantModel >>= f) d = f (routedAlias env isTenantModel d.world) d := rfl

omit [DecidableEq δ] in
theorem inTransaction_bind {α : Type} (f : Bool → Commanding δ α) :
    (inTransaction a >>= f) d = f (d.world.connections a).inAtomicBlock d := rfl

omit [DecidableEq δ] in
theorem requireTable_bind_ok {α : Type} {x : Except Exc α} {y : α}
    (h : (requireTable cat m >>= fun _ => x) = .ok y) : x = .ok y := by
  unfold requireTable at h
  split at h
  · cases h
  · exact h

omit [DecidableEq δ] in
theorem requireTenantId_bind_ok {α : Type} {x : Except Exc α} {y : α}
    (h : (requireTenantId cat m >>= fun _ => x) = .ok y) : x = .ok y := by
  unfold requireTenantId at h
  split at h
  · cases h
  split at h
  · cases h
  · exact h

theorem queryScoped_ok (h : queryScoped env tenant m d = .ok rows d') :
    let a := routedAlias env m.isTenantModel d.world
    ∃ vars, Plain env a d vars ∧
      rows = scopedRows env (env.session a vars) (d.databases a) m (env.keyOf tenant d) ∧
      Acted env a (d.databases a) d d' := by
  rw [queryScoped, tenantKey_bind, routed_bind] at h
  obtain ⟨cat, hact, hran⟩ := onDatabase_ok h
  cases requireTable_bind_ok hact
  exact ⟨_, hran.plain, rfl, hran.acted⟩

theorem queryAdopted_ok (h : queryAdopted env tenant m a d = .ok rows d') :
    rows = adoptedRows (env.session a (d.world.connections a).vars) (d.databases a) m (env.keyOf tenant d) ∧
      RanOn a (d.databases a) d d' := by
  unfold queryAdopted at h
  obtain ⟨key, d₁, hkey, h⟩ := bind_ok_iff.mp h
  cases hkey
  obtain ⟨cat, hact, hran⟩ := onDatabase_ok h
  cases requireTenantId_bind_ok hact
  exact ⟨rfl, hran⟩

/-- The rows a query inside the bypass gives. -/
theorem bypassed_queryAdopted_ok (tenant : TenantRef) (m : AppModel) {body : Commanding δ (List (SqlRow δ))}
    (h : withAdminBypass env a body d = .ok rows d')
    (hbody : ∀ d₁ d₂, body d₁ = .ok rows d₂ → queryAdopted env tenant m a d₁ = .ok rows d₂) :
    ∃ vars, Bypassed env a vars ∧
      rows = adoptedRows (env.session a vars) (d.databases a) m (env.keyOf tenant d) ∧
      Acted env a (d.databases a) d d' := by
  obtain ⟨d₁, d₂, cat, hrun, hran, hdatabases, htenants, hflag, hacted⟩ :=
    withAdminBypass_ok h fun d₁ d₂ hrun => ⟨_, (queryAdopted_ok (hbody d₁ d₂ hrun)).2⟩
  obtain ⟨hrows, hasked⟩ := queryAdopted_ok (hbody _ _ hrun)
  have hcat : cat = d.databases a := by
    rw [← hacted.here, ← hdatabases]
    have hhere := congrFun (hran.databases.symm.trans hasked.databases) a
    rw [Function.update_self, Function.update_self] at hhere
    rw [hacted.here]
    exact hhere
  rw [hcat] at hacted
  refine ⟨_, hflag, ?_, hacted⟩
  rw [hrows, hdatabases, DeprovisionEnv.keyOf, htenants]
  rfl

theorem countScopedRows_ok (h : countScopedRows env tenant m d = .ok n d') :
    let a := routedAlias env m.isTenantModel d.world
    ∃ vars, Plain env a d vars ∧
      n = (scopedRows env (env.session a vars) (d.databases a) m (env.keyOf tenant d)).length ∧
      Acted env a (d.databases a) d d' := by
  obtain ⟨rows, d₁, hquery, h⟩ := bind_ok_iff.mp h
  cases h
  obtain ⟨vars, hplain, rfl, hacted⟩ := queryScoped_ok hquery
  exact ⟨vars, hplain, rfl, hacted⟩

theorem countAdoptedRows_ok (h : countAdoptedRows env tenant m d = .ok n d') :
    let a := routedAlias env m.isTenantModel d.world
    ∃ vars, Bypassed env a vars ∧
      n = (adoptedRows (env.session a vars) (d.databases a) m (env.keyOf tenant d)).length ∧
      Acted env a (d.databases a) d d' := by
  rw [countAdoptedRows, routed_bind] at h
  obtain ⟨rows, d₁, hquery, h⟩ := bind_ok_iff.mp h
  cases h
  obtain ⟨vars, hflag, rfl, hacted⟩ := bypassed_queryAdopted_ok tenant m hquery fun _ _ hrun => hrun
  exact ⟨vars, hflag, rfl, hacted⟩

/-- Lines were written to the file, and nothing else was. -/
structure Exported (env : DeprovisionEnv δ) (path : String) (lines : List (ExportLine δ)) (d d' : Deployment δ) : Prop
    extends Kept env d d' where
  databases : d'.databases = d.databases
  files : d'.files = Function.update d.files path (.some ((d.files path).getD [] ++ lines))

omit [DecidableEq δ] in
theorem Exported.of_acted {lines : List (ExportLine δ)} (hacted : Acted env a (d.databases a) d d')
    (h : appendLines path lines d' = .ok () d'') : Exported env path lines d d'' := by
  cases h
  refine ⟨hacted.toKept.trans (.of_world rfl), hacted.unchanged, ?_⟩
  simp only [hacted.files]

theorem exportScopedRows_ok (h : exportScopedRows env tenant path m d = .ok () d') :
    let a := routedAlias env m.isTenantModel d.world
    ∃ vars, Plain env a d vars ∧
      Exported env path ((scopedRows env (env.session a vars) (d.databases a) m (env.keyOf tenant d)).map (⟨m, false, ·⟩))
        d d' := by
  obtain ⟨rows, d₁, hquery, h⟩ := bind_ok_iff.mp h
  obtain ⟨vars, hplain, rfl, hacted⟩ := queryScoped_ok hquery
  exact ⟨vars, hplain, .of_acted hacted h⟩

theorem exportAdoptedRows_ok (h : exportAdoptedRows env tenant path m d = .ok () d') :
    let a := routedAlias env m.isTenantModel d.world
    ∃ vars, Bypassed env a vars ∧
      Exported env path ((adoptedRows (env.session a vars) (d.databases a) m (env.keyOf tenant d)).map (⟨m, true, ·⟩))
        d d' := by
  rw [exportAdoptedRows, routed_bind] at h
  obtain ⟨rows, d₁, hquery, h⟩ := bind_ok_iff.mp h
  obtain ⟨vars, hflag, rfl, hacted⟩ := bypassed_queryAdopted_ok tenant m hquery fun _ _ hrun => by
    split at hrun
    · cases hrun
    · exact hrun
  exact ⟨vars, hflag, .of_acted hacted h⟩

/-! ## Deletions -/

theorem deleting_ok {s : SqlSession δ} {delete : (String → SqlRow δ → Bool) → Sql.Contents String String δ →
      Except Sql.DeleteRefusal (Sql.Contents String String δ)} {u : Unit}
    (h : deleting s cat delete = .ok (u, cat')) :
    ∃ rows, delete (seesRow s cat) cat.contents = .ok rows ∧ cat' = cat.withContents rows := by
  unfold deleting at h
  split at h
  · next rows hrows =>
    cases h
    exact ⟨rows, hrows, rfl⟩
  · cases h

/-- A deletion by the ORM. -/
theorem deleteScopedRows_ok (h : deleteScopedRows env tenant m d = .ok () d') :
    let a := routedAlias env m.isTenantModel d.world
    let cat := d.databases a
    ∃ vars rows, Plain env a d vars ∧
      env.schema.delete (d.world.connections a).inAtomicBlock (seesRow (env.session a vars) cat) cat.contents
        ((scopedRows env (env.session a vars) cat m (env.keyOf tenant d)).map (m.dbTable, ·)) = .ok rows ∧
      Acted env a (cat.withContents rows) d d' := by
  rw [deleteScopedRows, tenantKey_bind, routed_bind, inTransaction_bind] at h
  obtain ⟨cat, hact, hran⟩ := onDatabase_ok h
  obtain ⟨rows, hrows, rfl⟩ := deleting_ok (requireTable_bind_ok hact)
  exact ⟨_, rows, hran.plain, hrows, hran.acted⟩

/-- A raw deletion, in the bypass. -/
theorem deleteAdoptedRows_ok (h : deleteAdoptedRows env tenant m d = .ok () d') :
    let a := routedAlias env m.isTenantModel d.world
    let cat := d.databases a
    ∃ vars rows, Bypassed env a vars ∧
      env.schema.erase (d.world.connections a).inAtomicBlock cat.contents m.dbTable
        (fun r => seesRow (env.session a vars) cat m.dbTable r && r "tenant_id" = .some (env.keyOf tenant d)) = .ok rows ∧
      Acted env a (cat.withContents rows) d d' := by
  rw [deleteAdoptedRows, tenantKey_bind, routed_bind, inTransaction_bind] at h
  obtain ⟨d₁, d₂, cat, hrun, hran, hdatabases, -, hflag, hacted⟩ :=
    withAdminBypass_ok h fun d₁ d₂ hrun => (onDatabase_ok hrun).imp fun _ => And.right
  obtain ⟨cat₂, hact, hran₂⟩ := onDatabase_ok hrun
  have hcat : cat₂ = cat := by
    have hhere := congrFun (hran₂.databases.symm.trans hran.databases) (routedAlias env m.isTenantModel d.world)
    rwa [Function.update_self, Function.update_self] at hhere
  subst hcat
  rw [hdatabases] at hact
  obtain ⟨rows, hrows, rfl⟩ := deleting_ok (requireTenantId_bind_ok hact)
  exact ⟨_, rows, hflag, hrows, hacted⟩

/-- `tenant.delete()`. -/
theorem deleteTenant_ok (h : deleteTenant env tenant d = .ok () d') :
    let a := routedAlias env false d.world
    let cat := d.databases a
    ∃ vars rows, Plain env a d vars ∧
      env.schema.delete (d.world.connections a).inAtomicBlock (seesRow (env.session a vars) cat) cat.contents
        (((cat.contents env.tenantTable).filter fun r =>
          r (env.schema.primaryKey env.tenantTable) = .some (env.keyOf tenant d)).map (env.tenantTable, ·)) = .ok rows ∧
      Acted env a (cat.withContents rows) d d' := by
  rw [deleteTenant, tenantKey_bind, routed_bind, inTransaction_bind] at h
  obtain ⟨cat, hact, hran⟩ := onDatabase_ok h
  obtain ⟨rows, hrows, rfl⟩ := deleting_ok hact
  exact ⟨_, rows, hran.plain, hrows, hran.acted⟩

end

/-! ## Contents -/

theorem contents_withContents {schema : Sql.Schema String String δ} {rows : Sql.Contents String String δ}
    (h : schema.Shrinks cat.contents rows) :
    (cat.withContents rows).contents = rows := by
  funext name
  unfold Catalogue.withContents Catalogue.contents
  cases ht : cat.tables name with
  | some t => simp [ht]
  | none =>
    have hnone : rows name = [] := by
      refine List.eq_nil_iff_forall_not_mem.mpr fun r hr => ?_
      obtain ⟨r', hr', -⟩ := h name r hr
      simp [Catalogue.contents, ht] at hr'
    simp [ht, hnone]

@[simp] theorem withContents_withContents (cat : Catalogue δ) (rows rows' : Sql.Contents String String δ) :
    (cat.withContents rows).withContents rows' = cat.withContents rows' := by
  unfold Catalogue.withContents
  simp only [Option.map_map]
  rfl

@[simp] theorem withContents_contents (cat : Catalogue δ) : cat.withContents cat.contents = cat := by
  unfold Catalogue.withContents Catalogue.contents
  congr 1
  funext name
  cases cat.tables name <;> rfl

theorem tables_of_mem_contents {name : String} {r : SqlRow δ} (h : r ∈ cat.contents name) :
    ∃ t, cat.tables name = .some t := by
  unfold Catalogue.contents at h
  cases ht : cat.tables name with
  | some t => exact ⟨t, rfl⟩
  | none => simp [ht] at h

/-- Rows were deleted on the alias, and columns set; nothing else was done. -/
structure Shrunk (env : DeprovisionEnv δ) (a : Alias) (d d' : Deployment δ) : Prop extends Kept env d d' where
  databases : ∃ rows, env.schema.Shrinks (d.databases a).contents rows ∧
    d'.databases = Function.update d.databases a ((d.databases a).withContents rows)
  files : d'.files = d.files

theorem Shrunk.of_acted {rows : Sql.Contents String String δ} (h : Acted env a ((d.databases a).withContents rows) d d')
    (hrows : env.schema.Shrinks (d.databases a).contents rows) : Shrunk env a d d' :=
  ⟨h.toKept, ⟨rows, hrows, h.databases⟩, h.files⟩

theorem Shrunk.refl (d : Deployment δ) : Shrunk env a d d :=
  ⟨.refl d, ⟨_, .refl _, by rw [withContents_contents, Function.update_eq_self]⟩, rfl⟩

theorem Shrunk.contents (h : Shrunk env a d d') :
    env.schema.Shrinks (d.databases a).contents (d'.databases a).contents := by
  obtain ⟨rows, hrows, hdatabases⟩ := h.databases
  rwa [hdatabases, Function.update_self, contents_withContents hrows]

theorem Shrunk.elsewhere (h : Shrunk env a d d') {b : Alias} (hb : b ≠ a) : d'.databases b = d.databases b := by
  obtain ⟨rows, -, hdatabases⟩ := h.databases
  rw [hdatabases, Function.update_of_ne hb]

/-- The tables keep what is not their rows. -/
theorem Shrunk.withContents (h : Shrunk env a d d') :
    d'.databases a = (d.databases a).withContents (d'.databases a).contents := by
  obtain ⟨rows, hrows, hdatabases⟩ := h.databases
  rw [hdatabases, Function.update_self, contents_withContents hrows]

theorem Shrunk.trans (h : Shrunk env a d d') (h' : Shrunk env a d' d'') : Shrunk env a d d'' := by
  refine ⟨h.toKept.trans h'.toKept, ⟨_, h.contents.trans h'.contents, ?_⟩, h'.files.trans h.files⟩
  funext b
  by_cases hb : b = a
  · subst hb
    rw [Function.update_self]
    exact h'.withContents.trans (by rw [h.withContents, withContents_withContents])
  · rw [Function.update_of_ne hb, h'.elsewhere hb, h.elsewhere hb]

/-! ## The tenant's rows -/

/-- The row of the table is the tenant's, by a tenant-scoped model's joins or as
an adopted table's. -/
def isTenants [DecidableEq δ] (env : DeprovisionEnv δ) (cat : Catalogue δ) (key : δ) (table : String)
    (r : SqlRow δ) : Bool :=
  ((scopedModels env).any fun m => m.dbTable = table && decide (0 < (env.lookup m).count cat.contents key r)) ||
    (decide (table ∈ adoptedTableSet env) && decide (r "tenant_id" = .some key))

theorem isTenants_of_tagged [DecidableEq δ] {key : δ} {table : String} {r : SqlRow δ}
    (htable : table ∈ adoptedTableSet env) (hr : r "tenant_id" = .some key) : isTenants env cat key table r = true := by
  simp [isTenants, htable, hr]

theorem mem_scopedRows_iff [DecidableEq δ] {s : SqlSession δ} {key : δ} {r : SqlRow δ} :
    r ∈ scopedRows env s cat m key ↔ r ∈ seen s cat m.dbTable ∧ 0 < (env.lookup m).count (seen s cat) key r := by
  unfold scopedRows
  rw [List.mem_flatMap]
  constructor
  · rintro ⟨r', hr', hmem⟩
    obtain ⟨hcount, rfl⟩ := List.mem_replicate.mp hmem
    exact ⟨hr', Nat.pos_of_ne_zero hcount⟩
  · rintro ⟨hr, hcount⟩
    exact ⟨r, hr, List.mem_replicate.mpr ⟨hcount.ne', rfl⟩⟩

theorem mem_contents_of_seen [DecidableEq δ] {s : SqlSession δ} {table : String} {r : SqlRow δ}
    (h : r ∈ seen s cat table) : r ∈ cat.contents table := (List.mem_filter.mp h).1

/-! ## Loops -/

section

variable [DecidableEq δ] {models : List AppModel} {affected : List (AppModel × Nat)}

omit [DecidableEq δ] in
/-- Every model is counted, and those with rows are kept. -/
theorem collectCounts_ok {count : AppModel → Commanding δ Nat} {I : Deployment δ → Prop} {P : AppModel → Nat → Prop}
    (hstep : ∀ m ∈ models, ∀ d n d', I d → count m d = .ok n d' → I d' ∧ P m n) (hI : I d)
    (h : collectCounts count models d = .ok affected d') :
    I d' ∧ ∃ counts : List (AppModel × Nat), counts.map Prod.fst = models ∧ (∀ p ∈ counts, P p.1 p.2) ∧
      affected = counts.filter (·.2 > 0) := by
  induction models generalizing d affected with
  | nil =>
    cases h
    exact ⟨hI, [], rfl, fun p hp => absurd hp List.not_mem_nil, rfl⟩
  | cons m models ih =>
    obtain ⟨n, d₁, hcount, h⟩ := bind_ok_iff.mp h
    obtain ⟨rest, d₂, hrest, h⟩ := bind_ok_iff.mp h
    cases h
    obtain ⟨hI₁, hP⟩ := hstep m List.mem_cons_self d n d₁ hI hcount
    obtain ⟨hI₂, counts, rfl, hall, rfl⟩ := ih (fun m hm => hstep m (List.mem_cons_of_mem _ hm)) hI₁ hrest
    refine ⟨hI₂, (m, n) :: counts, rfl, fun p hp => ?_, ?_⟩
    · rcases List.mem_cons.mp hp with rfl | hp
      · exact hP
      · exact hall p hp
    · rw [List.filter_cons]
      simp only [decide_eq_true_eq]

omit [DecidableEq δ] in
/-- What each turn of a loop over models preserves, of the models done. -/
theorem eachModel_ok {body : AppModel → Commanding δ Unit} {I : List AppModel → Deployment δ → Prop}
    (hstep : ∀ done m d d', m ∈ models → I done d → body m d = .ok () d' → I (done ++ [m]) d') (hI : I [] d)
    (h : eachModel body models d = .ok () d') : I models d' := by
  suffices hall : ∀ (rest done : List AppModel) (d : Deployment δ), (∀ m ∈ rest, m ∈ models) → I done d →
      eachModel body rest d = .ok () d' → I (done ++ rest) d' from hall models [] d (fun _ => id) hI h
  intro rest
  induction rest with
  | nil =>
    intro done d _ hdone h
    cases h
    rwa [List.append_nil]
  | cons m rest ih =>
    intro done d hmem hdone h
    obtain ⟨_, d₁, hbody, h⟩ := bind_ok_iff.mp h
    have hnext := hstep done m d d₁ (hmem m List.mem_cons_self) hdone hbody
    have hrest := ih (done ++ [m]) d₁ (fun m' hm' => hmem m' (List.mem_cons_of_mem _ hm')) hnext h
    rwa [List.append_assoc, List.singleton_append] at hrest

/-- What is done for a model in the loop that deletes. -/
def deleteModel (env : DeprovisionEnv δ) (tenant : TenantRef) (m : AppModel) : Commanding δ Unit :=
  if m.dbTable ∈ adoptedTableSet env then deleteAdoptedRows env tenant m else deleteScopedRows env tenant m

theorem deleteAffected_cons (m : AppModel) (n : Nat) (affected : List (AppModel × Nat)) :
    deleteAffected env tenant ((m, n) :: affected) =
      (deleteModel env tenant m >>= fun _ => deleteAffected env tenant affected) := by
  unfold deleteModel
  rw [deleteAffected]
  split <;> rfl

/-- The loop that deletes is a loop over the models. -/
theorem deleteAffected_eq (affected : List (AppModel × Nat)) :
    deleteAffected env tenant affected = eachModel (deleteModel env tenant) (affected.map Prod.fst) := by
  induction affected with
  | nil => rfl
  | cons p affected ih => rw [deleteAffected_cons, ih, List.map_cons, eachModel]

theorem deleteModel_shrunk (h : deleteModel env tenant m d = .ok () d') :
    Shrunk env (routedAlias env m.isTenantModel d.world) d d' := by
  unfold deleteModel at h
  split at h
  · obtain ⟨vars, rows, -, hrows, hacted⟩ := deleteAdoptedRows_ok h
    exact .of_acted hacted (Sql.Schema.shrinks_of_erase hrows)
  · obtain ⟨vars, rows, -, hrows, hacted⟩ := deleteScopedRows_ok h
    exact .of_acted hacted (Sql.Schema.shrinks_of_delete hrows)

theorem deleteTenant_shrunk (h : deleteTenant env tenant d = .ok () d') :
    Shrunk env (routedAlias env false d.world) d d' := by
  obtain ⟨vars, rows, -, hrows, hacted⟩ := deleteTenant_ok h
  exact .of_acted hacted (Sql.Schema.shrinks_of_delete hrows)

/-! ## The command -/

/-- Nothing is changed but what is written. -/
structure Asked (env : DeprovisionEnv δ) (d d' : Deployment δ) : Prop extends Kept env d d' where
  databases : d'.databases = d.databases

omit [DecidableEq δ] in
theorem Asked.refl (d : Deployment δ) : Asked env d d := ⟨.refl d, rfl⟩

omit [DecidableEq δ] in
theorem Asked.trans (h : Asked env d d') (h' : Asked env d' d'') : Asked env d d'' :=
  ⟨h.toKept.trans h'.toKept, h'.databases.trans h.databases⟩

/-- Nothing is changed. -/
structure Silent (env : DeprovisionEnv δ) (d d' : Deployment δ) : Prop extends Asked env d d' where
  output : d'.output = d.output
  files : d'.files = d.files

omit [DecidableEq δ] in
theorem Silent.refl (d : Deployment δ) : Silent env d d := ⟨.refl d, rfl, rfl⟩

omit [DecidableEq δ] in
theorem Silent.trans (h : Silent env d d') (h' : Silent env d' d'') : Silent env d d'' :=
  ⟨h.toAsked.trans h'.toAsked, h'.output.trans h.output, h'.files.trans h.files⟩

omit [DecidableEq δ] in
theorem Acted.silent (h : Acted env a (d.databases a) d d') : Silent env d d' :=
  ⟨⟨h.toKept, h.unchanged⟩, h.output, h.files⟩

omit [DecidableEq δ] in
theorem Kept.noTenant (h : Kept env d d') (hnone : d.world.contextVars.currentTenant = .none) :
    d'.world.contextVars.currentTenant = .none := h.contextVars ▸ hnone

/-- What is counted is of a tenant-scoped model or an adopted one. -/
theorem collectAffected_models (h : collectAffected env tenant d = .ok affected d') :
    Silent env d d' ∧ ∀ m ∈ affected.map Prod.fst, m ∈ scopedModels env ∨ m ∈ expectedAdoptedModels env := by
  unfold collectAffected at h
  obtain ⟨counted, d₁, hcounted, h⟩ := bind_ok_iff.mp h
  obtain ⟨adopted, d₂, hadopted, h⟩ := bind_ok_iff.mp h
  cases h
  obtain ⟨hsilent, counted, hmodels, -, rfl⟩ := collectCounts_ok (I := Silent env d) (P := fun _ _ => True)
    (fun m _ d₁ n d₂ hsilent hcount => by
      obtain ⟨-, -, -, hacted⟩ := countScopedRows_ok hcount
      exact ⟨hsilent.trans hacted.silent, trivial⟩) (.refl d) hcounted
  obtain ⟨hsilent', adopted, hmodels', -, rfl⟩ := collectCounts_ok (I := Silent env d) (P := fun _ _ => True)
    (fun m _ d₁ n d₂ hsilent hcount => by
      obtain ⟨-, -, -, hacted⟩ := countAdoptedRows_ok hcount
      exact ⟨hsilent.trans hacted.silent, trivial⟩) hsilent hadopted
  refine ⟨hsilent', fun m hm => ?_⟩
  rw [← hmodels, ← hmodels']
  obtain ⟨p, hp, rfl⟩ := List.mem_map.mp hm
  exact (List.mem_append.mp hp).imp (fun hp => List.mem_map_of_mem (List.mem_filter.mp hp).1)
    fun hp => List.mem_map_of_mem (List.mem_filter.mp hp).1

/-- The counts of a model's rows, by the branch that counts it. -/
theorem collectAffected_ok (hnone : d.world.contextVars.currentTenant = .none)
    (h : collectAffected env tenant d = .ok affected d') :
    let a := home env d.world.contextVars
    let key := env.keyOf tenant d
    let cat := d.databases a
    Silent env d d' ∧ ∃ counted adopted : List (AppModel × Nat),
      affected = counted.filter (·.2 > 0) ++ adopted.filter (·.2 > 0) ∧
      counted.map Prod.fst = scopedModels env ∧ adopted.map Prod.fst = expectedAdoptedModels env ∧
      (∀ p ∈ counted, ∃ vars, Plain env a d vars ∧ p.2 = (scopedRows env (env.session a vars) cat p.1 key).length) ∧
      ∀ p ∈ adopted, ∃ vars, Bypassed env a vars ∧ p.2 = (adoptedRows (env.session a vars) cat p.1 key).length := by
  unfold collectAffected at h
  obtain ⟨counted, d₁, hcounted, h⟩ := bind_ok_iff.mp h
  obtain ⟨adopted, d₂, hadopted, h⟩ := bind_ok_iff.mp h
  cases h
  obtain ⟨hasked₁, counted, hmodels, hcounts, rfl⟩ := collectCounts_ok (I := Silent env d)
    (P := fun m n => ∃ vars, Plain env (home env d.world.contextVars) d vars ∧
      n = (scopedRows env (env.session (home env d.world.contextVars) vars) (d.databases (home env d.world.contextVars)) m
        (env.keyOf tenant d)).length)
    (fun m _ d₁ n d₂ hasked hcount => by
      obtain ⟨vars, hplain, rfl, hacted⟩ := countScopedRows_ok hcount
      rw [routedAlias_eq_home (hasked.noTenant hnone)] at hplain hacted ⊢
      rw [hasked.home] at hplain
      refine ⟨hasked.trans hacted.silent, vars, hplain.of_kept hasked.toKept, ?_⟩
      rw [hasked.databases, hasked.home, hasked.keyOf]) (.refl d) hcounted
  obtain ⟨hasked₂, adopted, hmodels', hcounts', rfl⟩ := collectCounts_ok (I := Silent env d)
    (P := fun m n => ∃ vars, Bypassed env (home env d.world.contextVars) vars ∧
      n = (adoptedRows (env.session (home env d.world.contextVars) vars) (d.databases (home env d.world.contextVars)) m
        (env.keyOf tenant d)).length)
    (fun m _ d₁ n d₂ hasked hcount => by
      obtain ⟨vars, hflag, rfl, hacted⟩ := countAdoptedRows_ok hcount
      rw [routedAlias_eq_home (hasked.noTenant hnone)] at hflag hacted ⊢
      rw [hasked.home] at hflag
      refine ⟨hasked.trans hacted.silent, vars, hflag, ?_⟩
      rw [hasked.databases, hasked.home, hasked.keyOf]) hasked₁ hadopted
  exact ⟨hasked₂, counted, adopted, rfl, hmodels, hmodels', hcounts, hcounts'⟩

omit [DecidableEq δ] in
theorem Asked.of_written {line : String} (h : write line d = .ok () d') : Asked env d d' := by
  cases h
  exact ⟨.of_world rfl, rfl⟩

theorem exportData_asked (h : exportData env tenant path d = .ok () d') : Asked env d d' := by
  unfold exportData at h
  obtain ⟨_, d₁, hopen, h⟩ := bind_ok_iff.mp h
  obtain ⟨_, d₂, hscoped, h⟩ := bind_ok_iff.mp h
  obtain ⟨_, d₃, hadopted, hwrite⟩ := bind_ok_iff.mp h
  have hopened : Asked env d d₁ := by
    cases hopen
    exact ⟨.of_world rfl, rfl⟩
  have hexported : Asked env d d₂ := eachModel_ok (I := fun _ => Asked env d) (fun _ m d₁ d₂ _ hasked hbody =>
    have ⟨_, _, hlines⟩ := exportScopedRows_ok hbody
    hasked.trans ⟨hlines.toKept, hlines.databases⟩) hopened hscoped
  have hexported' : Asked env d d₃ := eachModel_ok (I := fun _ => Asked env d) (fun _ m d₁ d₂ _ hasked hbody =>
    have ⟨_, _, hlines⟩ := exportAdoptedRows_ok hbody
    hasked.trans ⟨hlines.toKept, hlines.databases⟩) hexported hadopted
  exact hexported'.trans (.of_written hwrite)

theorem exportIfAsked_asked {options : DeprovisionOptions} (h : exportIfAsked env tenant options d = .ok () d') :
    Asked env d d' := by
  unfold exportIfAsked at h
  cases hpath : options.exportTo with
  | none =>
    rw [hpath] at h
    cases h
    exact .refl _
  | some path =>
    simp only [hpath] at h
    split at h
    · cases h
      exact .refl _
    · exact exportData_asked h

omit [DecidableEq δ] in
theorem resolveTenantOption_asked {identifier : String} (h : resolveTenantOption env identifier d = .ok tenant d') :
    Asked env d d' := by
  have hselect : ∀ {a d d'} {u : Unit}, onDatabase env a (fun _ cat => .ok ((), cat)) d = .ok u d' → Asked env d d' :=
    fun hquery => by
      obtain ⟨cat, hact, hran⟩ := onDatabase_ok hquery
      cases hact
      exact hran.acted.silent.toAsked
  unfold resolveTenantOption at h
  rw [routed_bind] at h
  obtain ⟨_, d₁, hquery, h⟩ := bind_ok_iff.mp h
  rcases hpk : env.getByPk identifier with e | _ | found <;> rw [hpk] at h
  · simp only at h
    split at h
    · obtain ⟨_, d₂, hbySlug, hfound⟩ := bind_ok_iff.mp h
      rcases hslug : env.getBySlug identifier with e | _ | found <;> rw [hslug] at hfound <;> cases hfound
      exact (hselect hquery).trans (hselect hbySlug)
    · cases h
  · obtain ⟨_, d₂, hbySlug, hfound⟩ := bind_ok_iff.mp h
    rcases hslug : env.getBySlug identifier with e | _ | found <;> rw [hslug] at hfound <;> cases hfound
    exact (hselect hquery).trans (hselect hbySlug)
  · cases h
    exact hselect hquery

/-- A confirmed run: it counts, exports if it is to, deletes model by model and
then the tenant. -/
theorem deprovision_ok {options : DeprovisionOptions} {databases : Alias → Catalogue δ} (hyes : options.yes = true)
    (hdry : options.dryRun = false) (hhook : env.preDeprovisionHook tenant d.databases = .ok databases)
    (h : deprovision env tenant options d = .ok () d') :
    ∃ affected d₁ d₂ d₃ d₄, collectAffected env tenant { d with databases } = .ok affected d₁ ∧
      exportIfAsked env tenant options d₁ = .ok () d₂ ∧ deleteAffected env tenant affected d₂ = .ok () d₃ ∧
      deleteTenant env tenant d₃ = .ok () d₄ ∧ write "Tenant None deleted." d₄ = .ok () d' := by
  unfold deprovision at h
  obtain ⟨_, d₀, hran, h⟩ := bind_ok_iff.mp h
  unfold runHook at hran
  rw [hhook] at hran
  cases hran
  obtain ⟨affected, d₁, hcollect, h⟩ := bind_ok_iff.mp h
  rw [hdry, hyes] at h
  simp only [Bool.false_eq_true, if_false, if_true] at h
  obtain ⟨confirmed, d₁', hconfirmed, h⟩ := bind_ok_iff.mp h
  cases hconfirmed
  simp only [if_true] at h
  unfold exportThenDelete at h
  obtain ⟨_, d₂, hexport, h⟩ := bind_ok_iff.mp h
  obtain ⟨_, d₃, hdelete, h⟩ := bind_ok_iff.mp h
  obtain ⟨_, d₄, htenant, hwrite⟩ := bind_ok_iff.mp h
  exact ⟨affected, d₁, d₂, d₃, d₄, hcollect, hexport, hdelete, htenant, hwrite⟩

/-- A line of the counts. -/
def countLine (env : DeprovisionEnv δ) (p : AppModel × Nat) : String :=
  "  " ++ describe env p.1 ++ ": " ++ toString p.2 ++ " rows"

omit [DecidableEq δ] in
theorem writeCounts_ok (h : writeCounts env affected d = .ok () d') :
    d'.output = d.output ++ affected.map (countLine env) := by
  induction affected generalizing d with
  | nil =>
    cases h
    simp
  | cons p affected ih =>
    obtain ⟨_, d₁, hwrite, h⟩ := bind_ok_iff.mp h
    cases hwrite
    rw [ih h]
    simp [countLine]

/-- A dry run prints what it has counted. -/
theorem deprovision_dryRun_ok {options : DeprovisionOptions} {databases : Alias → Catalogue δ}
    (hdry : options.dryRun = true) (hnone : d.world.contextVars.currentTenant = .none)
    (hhook : env.preDeprovisionHook tenant d.databases = .ok databases)
    (h : deprovision env tenant options d = .ok () d') :
    ∃ affected d₁, collectAffected env tenant { d with databases } = .ok affected d₁ ∧
      d'.output = d.output ++ ("[DRY RUN] Would delete tenant: " ++ env.str (d.world.tenants tenant)) ::
        affected.map (countLine env) := by
  unfold deprovision at h
  obtain ⟨_, d₀, hran, h⟩ := bind_ok_iff.mp h
  unfold runHook at hran
  rw [hhook] at hran
  cases hran
  obtain ⟨affected, d₁, hcollect, h⟩ := bind_ok_iff.mp h
  have hsilent := (collectAffected_ok (d := { d with databases }) hnone hcollect).1
  rw [hdry] at h
  simp only [if_true] at h
  obtain ⟨name, d₂, hname, h⟩ := bind_ok_iff.mp h
  cases hname
  obtain ⟨_, d₃, hheader, hcounts⟩ := bind_ok_iff.mp h
  cases hheader
  refine ⟨affected, d₁, hcollect, ?_⟩
  rw [writeCounts_ok hcounts]
  simp only [hsilent.output, hsilent.tenants, List.append_assoc, List.singleton_append]

end

/-! ## A shop -/

/-- A role that row security does not restrict. -/
def superuser : SqlSession Nat where
  currentSetting _ := .none
  bypassRls := true
  cast _ _ := .none
  condition _ _ := .none
  value _ := .none
  indexKey _ _ _ := .none
  covers _ _ := true
  checks _ _ := true

def shopModel (name table : String) : AppModel := { appLabel := "shop", name, dbTable := table, isTenantModel := true }

/-- A deployment with one database, of tenant-scoped models whose tables refer to
each other so. -/
def deprovisionShop (role : SqlSession Nat) (installed : List AppModel)
    (relations : List (Sql.Relation String String Nat)) : DeprovisionEnv Nat where
  settings := { databases := fun a => if a = "default" then .some .postgresql else .none }
  conf := { tenantModel := "shop.Tenant", tenantAppLabel := "shop", tenantName := "Tenant" }
  apps := ⟨fun _ => .none⟩
  installed
  lookup _ := .column "tenant_id"
  tenantTable := "shop_tenant"
  schema := { primaryKey := fun _ => "id", relations }
  role _ := role
  key pk := match pk with
    | .int value => value.toNat
    | .uuid value => value.toNat
  str tenant := tenant.pk.str
  getByPk _ := .ok (.some 0)
  getBySlug _ := .ok .none

def rowOf (columns : List (String × Nat)) : SqlRow Nat := fun column => columns.lookup column

def tablesOf (tables : List (String × List (SqlRow Nat))) : Catalogue Nat where
  tables name := (tables.lookup name).map fun rows => { columns := [], rows }
  constraints := []
  names := List.nodup_nil

def deploymentOf (cat : Catalogue Nat) : Deployment Nat where
  world := { tenants := fun _ => ⟨.int 7, .none, .none⟩, connections := fun _ => ⟨.none, true, []⟩ }
  databases _ := cat

end Boundary
