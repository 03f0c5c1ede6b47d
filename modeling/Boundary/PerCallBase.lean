/-
Scopes with a base alias of their own each (`using(t, using=b)`), nested to
any depth where nothing fails. The exit of a scope clears its aliases and
makes the previous tenant's key the settings' again on the previous tenant's
aliases with the base alias of the scope that ends, not with the previous
scope's own. What it writes is right just where it is what the scopes around
it rely on.
-/
import Boundary.Ready

namespace Boundary

open Exec TenantContext

/-! ## What scopes write, and what they rely on -/

section

variable (st : Settings) (tenants : TenantRef → Tenant)

/-- What entering a scope writes on the alias. -/
def entryWrites (t : Option TenantRef) (base a : Alias) : Option String :=
  match t with
  | .none => .none
  | .some u => if a ∈ aliasesFor st (.some (tenants u)) base then .some (tenants u).pk.str else .none

/-- What leaving it writes there. -/
def exitWrites (t previous : Option TenantRef) (base a : Alias) : Option String :=
  match entryWrites st tenants previous base a with
  | .some pk => .some pk
  | .none => if a ∈ aliasesFor st (t.map tenants) base then .some "" else .none

/-- What the open scopes rely on the alias to carry: the innermost scope that
covers it, its own key; outside all of them, nothing set. A scope that writes
there on its way out relies on nothing. -/
def reliedOn (a : Alias) : List Block → Option TenantRef → Option String
  | .usingScope scope :: rest, t =>
    match entryWrites st tenants t scope.base a with
    | .some pk => .some pk
    | .none =>
      match exitWrites st tenants t scope.previous scope.base a with
      | .some _ => .none
      | .none => reliedOn a rest scope.token
  | _, _ => .some ""

end

/-- The value is what is relied on, if anything is. -/
def Meets (relied : Option String) (value : String) : Prop := ∀ r, relied = .some r → value = r

/-- What the exit of the scope will write is what the scopes around it rely
on. -/
def exitMeets (st : Settings) (c : Config) (t : Option TenantRef) (base : Alias) : Bool :=
  let previous := c.world.contextVars.currentTenant
  (aliasesFor st (t.map c.world.tenants) base ++ aliasesFor st (previous.map c.world.tenants) base).all fun a =>
    !isPostgresql st a ||
      match exitWrites st c.world.tenants t previous base a, reliedOn st c.world.tenants a c.stack previous with
      | .some value, .some relied => value == relied
      | _, _ => true

/-- The runs of `using`. -/
def usingStep : Action → Bool
  | .enterUsing _ _ => true
  | .leave _ => true
  | _ => false

def entryMeets (st : Settings) (c : Config) : Action → Bool
  | .enterUsing t base => exitMeets st c t base
  | _ => true

section

variable {st : Settings} {tenants : TenantRef → Tenant} {c : Config} {w : World} {t previous : Option TenantRef}
  {base a : Alias}

theorem mem_of_exitWrites {value : String} (h : exitWrites st tenants t previous base a = .some value) :
    a ∈ aliasesFor st (t.map tenants) base ++ aliasesFor st (previous.map tenants) base := by
  unfold exitWrites at h
  rw [List.mem_append]
  split at h
  · next pk hentry =>
    unfold entryWrites at hentry
    split at hentry
    · cases hentry
    · split at hentry
      · next ha => exact .inr ha
      · cases hentry
  · split at h
    · next ha => exact .inl ha
    · cases h

theorem entryWrites_of_exitWrites_none (h : exitWrites st tenants t previous base a = .none) :
    entryWrites st tenants t base a = .none := by
  unfold exitWrites at h
  split at h
  · cases h
  · split at h
    · cases h
    · next ha =>
      cases t with
      | none => rfl
      | some u =>
        simp only [Option.map_some] at ha
        simp [entryWrites, ha]

theorem entryVars_eq (vars : SessionVars) (hw : writesVar st a = true) :
    entryVars st (t.map tenants) base a vars st.dbSessionVar =
      (entryWrites st tenants t base a).getD (vars st.dbSessionVar) := by
  cases t with
  | none => rfl
  | some u =>
    by_cases ha : a ∈ aliasesFor st (.some (tenants u)) base
    · simp only [Option.map_some, entryVars_of_mem _ ha hw, entryWrites, if_pos ha, Option.getD_some]
    · simp only [Option.map_some, entryVars_of_not_mem _ ha, entryWrites, if_neg ha, Option.getD_none]

theorem exitVars_eq (vars : SessionVars) (hw : writesVar st a = true) :
    restoreVars st (aliasesFor st (t.map tenants) base) (againOf st tenants base previous) a vars st.dbSessionVar =
      (exitWrites st tenants t previous base a).getD (vars st.dbSessionVar) := by
  rw [restoreVars_eq _ _ _ _ _ hw]
  unfold exitWrites entryWrites againOf
  cases previous with
  | none =>
    simp only [Option.map_none]
    split <;> rfl
  | some p =>
    simp only [Option.map_some]
    by_cases hp : a ∈ aliasesFor st (.some (tenants p)) base
    · simp [hp]
    · simp only [if_neg hp]
      split <;> rfl

/-- The open scopes, from the tenant active inside them: each relies only on
what the exits inside it write. -/
def ScopesSound (st : Settings) (tenants : TenantRef → Tenant) : List Block → Option TenantRef → Prop
  | [], t => t = .none
  | .usingScope scope :: rest, t =>
    scope.previous = scope.token ∧ scope.aliases = aliasesFor st (t.map tenants) scope.base ∧ scope.opened = [] ∧
      (∀ a value, isPostgresql st a = true →
        exitWrites st tenants t scope.previous scope.base a = .some value →
        Meets (reliedOn st tenants a rest scope.token) value) ∧
      ScopesSound st tenants rest scope.token
  | _ :: _, _ => False

structure ScopesInv (st : Settings) (tenants : TenantRef → Tenant) (c : Config) : Prop where
  unchanged : c.world.tenants = tenants
  ready : c.world.Ready st
  sound : ScopesSound st tenants c.stack c.world.contextVars.currentTenant
  meets : ∀ a, isPostgresql st a = true →
    Meets (reliedOn st tenants a c.stack c.world.contextVars.currentTenant)
      ((c.world.connections a).vars st.dbSessionVar)

theorem ScopesInv.enterUsing (hset : st.setDbSessionVar = true) (h : ScopesInv st tenants c)
    (hmeets : exitMeets st c t base = true) : ScopesInv st tenants (step st c (.enterUsing t base)) := by
  obtain ⟨w', hr, hw', hready, hvars⟩ := usingEnter_ready t base h.ready
  have hv : w'.contextVars.currentTenant = t := by rw [hw']; rfl
  have ht : w'.tenants = tenants := by rw [hw']; exact h.unchanged
  simp only [step, hr, Config.entered]
  refine ⟨ht, hready, ?_, fun a hpg => ?_⟩
  · rw [hv]
    refine ⟨rfl, by rw [World.tenant?, h.unchanged], rfl, fun a value hpg hwrites r hr' => ?_, h.sound⟩
    have hall := hmeets
    simp only [exitMeets, List.all_eq_true, h.unchanged] at hall
    have ha := hall a (mem_of_exitWrites hwrites)
    simpa [hpg, hwrites, hr'] using ha
  · have hw : writesVar st a = true := writesVar_eq_true.mpr ⟨hset, hpg⟩
    rw [hv, hvars a, World.tenant?, h.unchanged, entryVars_eq _ hw]
    unfold reliedOn
    intro r hr'
    cases hentry : entryWrites st tenants t base a with
    | some pk =>
      simp only [hentry, Option.some.injEq] at hr'
      simpa using hr'
    | none =>
      simp only [hentry] at hr'
      split at hr'
      · cases hr'
      · exact h.meets a hpg r hr'

theorem ScopesInv.leave {failed : Bool} (hset : st.setDbSessionVar = true) (h : ScopesInv st tenants c) :
    ScopesInv st tenants (step st c (.leave failed)) := by
  obtain ⟨w, stack⟩ := c
  cases stack with
  | nil => exact h
  | cons b rest =>
    cases b with
    | usingScope scope =>
      obtain ⟨hprev, haliases, hopened, hexit, hsound⟩ := h.sound
      have ht : w.tenants = tenants := h.unchanged
      have hnodup : scope.aliases.Nodup := by rw [haliases]; exact nodup_aliasesFor st _ _
      obtain ⟨w', hr, hw', hready, hvars⟩ := usingExit_ready _ failed h.ready hnodup hopened
      simp only at hr hw' hvars
      have hv : w'.contextVars.currentTenant = scope.token := by rw [hw']; rfl
      simp only [step, Block.exit, after_of_ok hr]
      refine ⟨by rw [hw']; exact h.unchanged, hready, by rw [hv]; exact hsound, fun a hpg => ?_⟩
      have hw : writesVar st a = true := writesVar_eq_true.mpr ⟨hset, hpg⟩
      rw [hv, hvars a, haliases, ht, exitVars_eq _ hw]
      cases hwrites : exitWrites st tenants w.contextVars.currentTenant scope.previous scope.base a with
      | some value => exact hexit a value hpg hwrites
      | none =>
        -- The scope left the alias alone, so what it carried is what was relied on around it.
        have hold := h.meets a hpg
        simpa only [reliedOn, entryWrites_of_exitWrites_none hwrites, hwrites, Option.getD_none] using hold
    | _ => exact h.sound.elim

/-- The scope around carries its key on its own aliases; outside all scopes
nothing is carried. -/
def ScopeCarried (st : Settings) (c : Config) : Prop :=
  match c.stack with
  | [] => ∀ a, isPostgresql st a = true → (c.world.connections a).vars st.dbSessionVar = ""
  | .usingScope scope :: _ => ∀ u, c.world.contextVars.currentTenant = .some u →
      ∀ a ∈ aliasesFor st (.some (c.world.tenants u)) scope.base, isPostgresql st a = true →
        (c.world.connections a).vars st.dbSessionVar = (c.world.tenants u).pk.str
  | _ => True

theorem ScopesInv.carried (h : ScopesInv st tenants c) : ScopeCarried st c := by
  have hmeets := h.meets
  have ht := h.unchanged
  unfold ScopeCarried
  split
  · next hstack =>
    intro a hpg
    rw [hstack] at hmeets
    exact hmeets a hpg "" rfl
  · next scope rest hstack =>
    intro u hu a ha hpg
    rw [hstack, hu] at hmeets
    rw [ht] at ha ⊢
    exact hmeets a hpg _ (by simp [reliedOn, entryWrites, ha])
  · trivial

/-- After every exit the scope around is as it was entered, and after the
outermost one nothing is left, where each exit writes what is relied on. -/
theorem scopeCarried_of_run (hset : st.setDbSessionVar = true) (hready : w.Ready st)
    (hnone : w.contextVars.currentTenant = .none)
    (hempty : ∀ a, isPostgresql st a = true → (w.connections a).vars st.dbSessionVar = "")
    (hrun : Runs.Reaches (step st) (fun c a => (usingStep a && entryMeets st c a) = true) ⟨w, []⟩ c) :
    ScopeCarried st c := by
  have hinv : ScopesInv st w.tenants c := hrun.invariant (ScopesInv st w.tenants)
    ⟨rfl, hready, hnone, fun a hpg r hr => by cases hr; exact hempty a hpg⟩ fun c a hinv hok => by
      rw [Bool.and_eq_true] at hok
      cases a with
      | enterUsing t base => exact hinv.enterUsing hset hok.2
      | leave failed => exact hinv.leave hset
      | _ => simp [usingStep] at hok
  exact hinv.carried

end

/-! ## Runs in a deployment with two regions -/

namespace TwoRegions

/-- Nested scopes that share the base alias `eu`. -/
def sharedBase : List Action :=
  [.enterUsing (.some 0) "eu", .enterUsing (.some 1) "eu", .leave false, .enterUsing .none "default", .leave true]

theorem scopeCarried_sharedBase : ScopeCarried settings (sharedBase.foldl (step settings) ⟨ambient, []⟩) :=
  scopeCarried_of_run rfl ambient_ready rfl (fun _ _ => rfl) (.of_allowed (by decide))

/-- Tenant 0 with the base alias `default`, and inside it with `eu`. -/
def otherBase : List Action :=
  [.enterUsing (.some 0) "default", .enterUsing (.some 0) "eu", .leave false, .leave false]

/-- Outside both, `eu` carries tenant 0's key. -/
theorem otherBase_leaves_key :
    ¬ ∀ (st : Settings) (w : World) (c : Config), st.setDbSessionVar = true → w.Ready st →
      w.contextVars.currentTenant = .none →
      (∀ a, isPostgresql st a = true → (w.connections a).vars st.dbSessionVar = "") →
      Runs.Reaches (step st) (fun _ a => usingStep a = true) ⟨w, []⟩ c → ScopeCarried st c := by
  intro hclaim
  have hcarried := hclaim settings ambient (otherBase.foldl (step settings) ⟨ambient, []⟩) rfl ambient_ready rfl
    (fun _ _ => rfl) (.of_allowed (by decide))
  exact absurd (hcarried "eu" (by decide)) (by decide)

end TwoRegions

end Boundary
