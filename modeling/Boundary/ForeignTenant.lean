/-
No connection carries a foreign tenant's key, over every well-nested run in
which each scope covers what the scope around it covers.

A scope writes only on its own tenant's aliases. A scope for a tenant in
another region, or for no tenant, leaves the outer tenant's key on the outer
tenant's regional alias while it is open.
-/
import Boundary.Agreement

namespace Boundary

open Exec TenantContext

/-- The session variable is empty, or carries the active tenant's key on one
of its aliases. -/
def OwnKey (st : Settings) (tenants : TenantRef → Tenant) : Guard := fun a v vars =>
  isPostgresql st a = true →
    vars st.dbSessionVar = "" ∨ ∃ t, v.currentTenant = .some t ∧ a ∈ aliasesFor st (.some (tenants t)) "default" ∧
      vars st.dbSessionVar = (tenants t).pk.str

theorem ownKey_regionBlind (st : Settings) (tenants : TenantRef → Tenant) : RegionBlind (OwnKey st tenants) :=
  fun _ _ _ _ h => h

/-- The next statement succeeds wherever a scope for the tenant writes. -/
def writesSucceed (st : Settings) (w : World) : Option TenantRef → Bool
  | .none => true
  | .some t => (aliasesFor st (.some (w.tenants t)) "default").all fun a =>
      !isPostgresql st a || (w.connections a).accepts

/-- The runs of tenant scopes whose entries' statements succeed; the base
alias is `default`. -/
def succeedingStep (st : Settings) (c : Config) : Action → Bool
  | .enterUsing t using_ => using_ == "default" && writesSucceed st c.world t
  | .enterSet t using_ => using_ == "default" && writesSucceed st c.world t
  | .enterBypass _ _ => false
  | _ => true

/-- A scope for the tenant covers every PostgreSQL alias the active tenant
covers. -/
def covers (st : Settings) (w : World) (t : Option TenantRef) : Bool :=
  match w.contextVars.currentTenant with
  | .none => true
  | .some u => (aliasesFor st (.some (w.tenants u)) "default").all fun a =>
      !isPostgresql st a ||
        match t with
        | .none => false
        | .some t => a ∈ aliasesFor st (.some (w.tenants t)) "default"

def coversActive (st : Settings) (c : Config) : Action → Bool
  | .enterUsing t _ => covers st c.world t
  | .enterSet t _ => covers st c.world t
  | _ => true

section

variable {st : Settings} {start : World} {c : Config} {w w' : World} {t : Option TenantRef}

/-- What the connections carried before an entry is still the active tenant's
own after it. -/
theorem ownKey_entry {a : Alias} {v : ContextVars} {c₀ c₁ c₂ : Connection} (hset : st.setDbSessionVar = true)
    (hv : v.currentTenant = t) (hcovers : covers st w t = true)
    (hbefore : c₀.usable = true → OwnKey st w.tenants a w.contextVars c₀.vars)
    (henter : (c₁.usable = true → c₀.usable = true) ∧ c₁.vars = c₀.vars)
    (hran : Connection.Ran (entryVars st (t.map w.tenants) "default" a) c₁ c₂) (hu : c₂.usable = true) :
    OwnKey st w.tenants a v c₂.vars := by
  intro hpg
  have hw : writesVar st a = true := writesVar_eq_true.mpr ⟨hset, hpg⟩
  cases hin : c₁.inAtomicBlock with
  | false =>
    rw [hran.vars hu, if_neg (by rw [hin]; simp), (Connection.autocommit hin).2]
    exact .inl rfl
  | true =>
    rw [hran.vars hu, if_pos hin, henter.2]
    have hold := hbefore (henter.1 (hran.usable hu)) hpg
    -- An alias that carries a key is the active tenant's, so the new one covers it.
    have hkey : ∀ u, w.contextVars.currentTenant = .some u → a ∈ aliasesFor st (.some (w.tenants u)) "default" →
        ∃ t', t = .some t' ∧ a ∈ aliasesFor st (.some (w.tenants t')) "default" := fun u hu' ha => by
      simp only [covers, hu', List.all_eq_true] at hcovers
      have := hcovers a ha
      cases t with
      | none => simp [hpg] at this
      | some t' => exact ⟨t', rfl, by simpa [hpg] using this⟩
    cases t with
    | none =>
      rcases hold with hempty | ⟨u, hu', ha, -⟩
      · exact .inl hempty
      · obtain ⟨_, hn, -⟩ := hkey u hu' ha
        cases hn
    | some t' =>
      by_cases ha : a ∈ aliasesFor st (.some (w.tenants t')) "default"
      · exact .inr ⟨t', hv, ha, entryVars_of_mem _ ha hw⟩
      · simp only [Option.map_some, entryVars_of_not_mem _ ha]
        rcases hold with hempty | ⟨u, hu', hau, -⟩
        · exact .inl hempty
        · obtain ⟨_, ht, hat⟩ := hkey u hu' hau
          cases ht
          exact absurd hat ha

theorem ownKey_enterUsing (hset : st.setDbSessionVar = true) (h : Inv st (OwnKey st start.tenants) start c)
    (hsucceed : writesSucceed st c.world t = true) (hcovers : covers st c.world t = true) :
    Inv st (OwnKey st start.tenants) start (step st c (.enterUsing t "default")) := by
  have htenants := h.unchanged
  refine h.enterUsing (fun scope w' hr a hu => ?_) (fun e w' hr => ?_)
  · obtain ⟨hw', rfl, hconn⟩ := usingEnter_spec hr
    obtain ⟨c₁, henter, hsame, hran, -⟩ := hconn a
    have hentered : (c₁.usable = true → (c.world.connections a).usable = true) ∧
        c₁.vars = (c.world.connections a).vars := by
      by_cases ha : a ∈ (aliasesFor st (c.world.tenant? t) "default").filter (opensAtomic st c.world.connections)
      · obtain ⟨-, hvars, hu₁⟩ := Connection.atomicEnter_spec (henter ha)
        exact ⟨hu₁, hvars⟩
      · rw [hsame ha]
        exact ⟨id, rfl⟩
    rw [← htenants]
    exact ownKey_entry hset (by rw [hw']; rfl) hcovers
      (fun hu₀ => by rw [htenants]; exact (h.guarded a).of_vars hu₀) hentered hran hu
  · obtain ⟨-, hsame | ⟨u, pre, x, rfl, hrefused⟩⟩ := usingEnter_error_spec hr
    · exact fun a => ((h.guarded a).of_session (hsame a)).of_vars
    · obtain ⟨post, hsplit⟩ := hrefused.split
      have hrefuses := hrefused.refused
      simp only [writesSucceed, List.all_eq_true] at hsucceed
      have hx := hsucceed x (by rw [hsplit]; simp)
      simp [(writesVar_eq_true.mp hrefused.writes).2] at hx
      simp [Connection.refuses, hx] at hrefuses

theorem ownKey_enterSet (hset : st.setDbSessionVar = true) (h : Inv st (OwnKey st start.tenants) start c)
    (hsucceed : writesSucceed st c.world t = true) (hcovers : covers st c.world t = true) :
    Inv st (OwnKey st start.tenants) start (step st c (.enterSet t "default")) := by
  have htenants := h.unchanged
  refine h.enterSet (fun token w' hr a hu => ?_) (fun e w' hr => ?_)
  · obtain ⟨-, hw', hran⟩ := set_spec hr
    rw [← htenants]
    exact ownKey_entry hset (by rw [hw']; rfl) hcovers
      (fun hu₀ => by rw [htenants]; exact (h.guarded a).of_vars hu₀) ⟨id, rfl⟩ (hran a).1 hu
  · obtain ⟨u, pre, x, post, rfl, hsplit, -, -, hx, -⟩ := set_error_spec hr
    obtain ⟨-, hwrites, -, hacc, -⟩ := setDbSessionOn_error hx
    simp only [writesSucceed, List.all_eq_true] at hsucceed
    have hxs := hsucceed x (by rw [hsplit]; simp)
    simp [(writesVar_eq_true.mp hwrites).2, hacc] at hxs

/-- An exit clears what the scope carried and brings the previous tenant's key
back. -/
theorem ownKey_restore {a : Alias} {token : Token} {aliases : List Alias} {c' : Connection}
    (hset : st.setDbSessionVar = true)
    (hinside : (w.connections a).usable = true → OwnKey st start.tenants a w.contextVars (w.connections a).vars)
    (haliases : ∀ t, w.contextVars.currentTenant = .some t → aliases = aliasesFor st (.some (start.tenants t)) "default")
    (hran : Connection.Ran (restoreVars st aliases (againOf st start.tenants "default" token) a) (w.connections a) c')
    (hu : c'.usable = true) : OwnKey st start.tenants a { w.contextVars with currentTenant := token } c'.vars := by
  intro hpg
  have hw : writesVar st a = true := writesVar_eq_true.mpr ⟨hset, hpg⟩
  have hold := hinside (hran.usable hu) hpg
  cases hin : (w.connections a).inAtomicBlock with
  | false =>
    rw [hran.vars hu, if_neg (by rw [hin]; simp), (Connection.autocommit hin).2]
    exact .inl rfl
  | true =>
    rw [hran.vars hu, if_pos hin, restoreVars_eq _ _ _ _ _ hw]
    have hcleared : (if a ∈ aliases then "" else (w.connections a).vars st.dbSessionVar) = "" := by
      split
      · rfl
      · next ha =>
        rcases hold with hempty | ⟨t, ht, hat, -⟩
        · exact hempty
        · exact absurd (haliases t ht ▸ hat) ha
    cases token with
    | none => exact .inl hcleared
    | some p =>
      simp only [againOf, Option.map_some]
      by_cases hap : a ∈ aliasesFor st (.some (start.tenants p)) "default"
      · rw [if_pos hap]
        exact .inr ⟨p, rfl, hap, rfl⟩
      · rw [if_neg hap]
        exact .inl hcleared

theorem ownKey_leave {failed : Bool} (hset : st.setDbSessionVar = true)
    (h : Inv st (OwnKey st start.tenants) start c) (hstack : ∀ b ∈ c.stack, b.TenantRun "default") :
    Inv st (OwnKey st start.tenants) start (step st c (.leave failed)) := by
  obtain ⟨w, stack⟩ := c
  cases stack with
  | nil => exact h
  | cons b rest =>
    have hb := hstack b List.mem_cons_self
    cases b with
    | atomic x => exact h.leaveAtomic
    | usingScope scope =>
      simp only [Block.TenantRun] at hb
      obtain ⟨⟨-, haliases, -⟩, -⟩ := h.sound
      exact h.leaveUsing fun a c' hran hu => ownKey_restore hset (h.guarded a).of_vars
        (fun t ht => by rw [haliases, ht, hb]; rfl) (hb ▸ hran) hu
    | setScope token using_ =>
      simp only [Block.TenantRun] at hb
      subst hb
      exact h.leaveSet fun a c' hran hu => ownKey_restore hset (h.guarded a).of_vars
        (fun t ht => by rw [ht]) hran hu
    | bypass x scope => exact hb.elim
    | specificRegion token => exact h.leaveRegion (ownKey_regionBlind st start.tenants)

theorem ownKey_step {a : Action} (hset : st.setDbSessionVar = true) (h : Inv st (OwnKey st start.tenants) start c)
    (hstack : ∀ b ∈ c.stack, b.TenantRun "default") (hstep : succeedingStep st c a = true)
    (hcovers : coversActive st c a = true) : Inv st (OwnKey st start.tenants) start (step st c a) := by
  cases a with
  | statement x inOrder => exact h.statement
  | enterAtomic x savepoint => exact h.enterAtomic
  | enterUsing t using_ =>
    simp only [succeedingStep, Bool.and_eq_true, beq_iff_eq] at hstep
    obtain ⟨rfl, hsucceed⟩ := hstep
    exact ownKey_enterUsing hset h hsucceed hcovers
  | enterSet t using_ =>
    simp only [succeedingStep, Bool.and_eq_true, beq_iff_eq] at hstep
    obtain ⟨rfl, hsucceed⟩ := hstep
    exact ownKey_enterSet hset h hsucceed hcovers
  | enterBypass x receiver => simp [succeedingStep] at hstep
  | enterRegion region => exact h.enterRegion (ownKey_regionBlind st start.tenants)
  | leave failed => exact ownKey_leave hset h hstack

theorem tenantRun_of_succeedingStep {a : Action} (h : succeedingStep st c a = true) : a.TenantRun "default" := by
  cases a with
  | enterUsing t using_ =>
    simp only [succeedingStep, Bool.and_eq_true, beq_iff_eq] at h
    exact h.1
  | enterSet t using_ =>
    simp only [succeedingStep, Bool.and_eq_true, beq_iff_eq] at h
    exact h.1
  | enterBypass x receiver => simp [succeedingStep] at h
  | _ => trivial

/-- No tenant, anywhere. -/
structure NoTenant (st : Settings) (w : World) : Prop where
  currentTenant : w.contextVars.currentTenant = .none
  vars : ∀ a, isPostgresql st a = true → (w.connections a).usable = true →
    (w.connections a).vars st.dbSessionVar = ""

/-- Every connection that takes statements carries nothing, or the active
tenant's key; with no active tenant, nothing. -/
def NoForeignTenant (st : Settings) (w : World) : Prop :=
  ∀ a, isPostgresql st a = true → (w.connections a).usable = true →
    (w.connections a).vars st.dbSessionVar =  "" ∨
      ∃ t, w.contextVars.currentTenant = .some t ∧ (w.connections a).vars st.dbSessionVar = (w.tenants t).pk.str

/-- Where each scope covers what the scope around it covers, no connection
carries a foreign tenant. -/
theorem noForeignTenant_of_run (hset : st.setDbSessionVar = true) (hstart : NoTenant st w)
    (hrun : Runs.Reaches (step st) (fun c a => (succeedingStep st c a && coversActive st c a) = true) ⟨w, []⟩ c) :
    NoForeignTenant st c.world := by
  have hkeep := hrun.invariant
    (fun c => Inv st (OwnKey st w.tenants) w c ∧ ∀ b ∈ c.stack, b.TenantRun "default")
    ⟨.init fun a hu hpg => .inl (hstart.vars a hpg hu), fun b hb => by cases hb⟩ fun c a hinv hok => by
      rw [Bool.and_eq_true] at hok
      exact ⟨ownKey_step hset hinv.1 hinv.2 hok.1 hok.2,
        step_tenantRun hinv.2 (tenantRun_of_succeedingStep hok.1)⟩
  intro a hpg hu
  rcases hkeep.1.holds a hu hpg with hempty | ⟨t, ht, -, hkey⟩
  · exact .inl hempty
  · exact .inr ⟨t, ht, by rw [hkeep.1.unchanged]; exact hkey⟩

end

/-! ## Runs in a deployment with two regions -/

namespace TwoRegions

theorem ambient_noTenant : NoTenant settings ambient := ⟨rfl, fun _ _ _ => rfl⟩

/-- Tenant 0 is in no region, so tenant 1's scope covers its aliases. -/
def growingRun : List Action := [.enterSet (.some 0) "default", .enterUsing (.some 1) "default"]

theorem noForeignTenant_growingRun :
    NoForeignTenant settings (growingRun.foldl (step settings) ⟨ambient, []⟩).world :=
  noForeignTenant_of_run rfl ambient_noTenant (.of_allowed (by decide))

/-- Only scopes, with the base alias `default`. -/
def scopesOnly : Action → Bool
  | .enterUsing _ using_ => using_ == "default"
  | .enterSet _ using_ => using_ == "default"
  | .leave _ => true
  | _ => false

/-- Every connection is in a transaction, takes statements, and will. -/
def AllSucceed (w : World) : Prop :=
  ∀ a, (w.connections a).inAtomicBlock = true ∧ (w.connections a).usable = true ∧ (w.connections a).faults = []

/-- Inside a scope for tenant 2, in `us`, the alias `eu` carries tenant 1. -/
theorem otherRegion_carries_foreign :
    ¬ ∀ (st : Settings) (w : World) (c : Config), st.setDbSessionVar = true → NoTenant st w → AllSucceed w →
      Runs.Reaches (step st) (fun _ a => scopesOnly a = true) ⟨w, []⟩ c → NoForeignTenant st c.world := by
  intro hclaim
  have hforeign := hclaim settings ambient
    ([.enterUsing (.some 1) "default", .enterUsing (.some 2) "default"].foldl (step settings) ⟨ambient, []⟩) rfl
    ambient_noTenant (fun _ => ⟨rfl, rfl, rfl⟩) (.of_allowed (by decide))
  rcases hforeign "eu" (by decide) (by decide) with hempty | ⟨t, ht, hkey⟩
  · exact absurd hempty (by decide)
  · cases ht
    exact absurd hkey (by decide)

end TwoRegions

end Boundary
