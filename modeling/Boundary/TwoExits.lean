/-
The two ways to hold a tenant around a body where nothing fails: `using`,
whose exit clears the aliases it remembers from its entry, and `set` with
`clear`, which works out the aliases again from what the tenant is at the
exit. They differ on an alias only one of them clears.
-/
import Boundary.Ready

namespace Boundary

open Exec TenantContext

section

variable {α : Type} {st : Settings} {t : Option TenantRef} {base : Alias} {body : M α} {w w₁ w₂ : World} {r : α}

/-- What `clear` clears in the world `w`, the tenant `t` being active. -/
def clearedAliases (st : Settings) (w : World) (t : Option TenantRef) (base : Alias) : List Alias :=
  match t with
  | .some u => aliasesFor st (.some (w.tenants u)) base
  | .none => [base]

/-- In `w₂`, where the body ends, the aliases that only one of the exits
clears are covered by the previous tenant or carry nothing. -/
def ExitsAgree (st : Settings) (w w₂ : World) (t : Option TenantRef) (base : Alias) : Prop :=
  ∀ a, writesVar st a = true →
    (∀ p, w.contextVars.currentTenant = .some p → a ∉ aliasesFor st (.some (w₂.tenants p)) base) →
    (a ∈ aliasesFor st (w.tenant? t) base ↔ a ∈ clearedAliases st w₂ t base) ∨
      (w₂.connections a).vars st.dbSessionVar = ""

/-- The same context variables, and the same session variable everywhere. -/
def SameEnd (st : Settings) (w w' : World) : Prop :=
  w.contextVars = w'.contextVars ∧
    ∀ a, (w.connections a).vars st.dbSessionVar = (w'.connections a).vars st.dbSessionVar

/-- A `using` block around a body that completes. -/
theorem withUsing_ready (h : w.Ready st) (hset : TenantContext.set st t base w = .ok w.contextVars.currentTenant w₁)
    (hbody : body w₁ = .ok r w₂) (h₂ : w₂.Ready st) :
    ∃ w', withUsing st t base body w = .ok r w' ∧ w'.Ready st ∧
      w'.contextVars = { w₂.contextVars with currentTenant := w.contextVars.currentTenant } ∧
      ∀ a, (w'.connections a).vars = restoreVars st (aliasesFor st (w.tenant? t) base)
        (againOf st w₂.tenants base w.contextVars.currentTenant) a (w₂.connections a).vars := by
  obtain ⟨w₁', henter, -⟩ := usingEnter_ready t base h
  -- The entry is the one of `set`, nothing being opened.
  have hsame : w₁' = w₁ := by
    obtain ⟨cs, hcs, hset', -⟩ := usingEnter_ok henter
    rw [enterAtomics_ready h.ambient] at hcs
    cases hcs
    have := hset'.symm.trans hset
    simp only [EStateM.Result.ok.injEq, true_and] at this
    exact this
  subst hsame
  obtain ⟨w', hexit, hw', hready, hvars⟩ := usingExit_ready
    ⟨w.contextVars.currentTenant, w.contextVars.currentTenant, base, aliasesFor st (w.tenant? t) base, []⟩ false h₂
    (nodup_aliasesFor st (w.tenant? t) base) rfl
  refine ⟨w', ?_, hready, by rw [hw']; rfl, hvars⟩
  rw [withUsing, bind_run, henter]
  simp only [ensuring, hbody, hexit]

/-- `set`, a body that completes and leaves the tenant active, and `clear`. -/
theorem after_setThenClear (hset : TenantContext.set st t base w = .ok w.contextVars.currentTenant w₁)
    (hbody : body w₁ = .ok r w₂) (h₂ : w₂.Ready st) (hactive : w₂.contextVars.currentTenant = t) :
    ∃ w', after (setThenClear st t base body) w = w' ∧
      w'.contextVars = { w₂.contextVars with currentTenant := w.contextVars.currentTenant } ∧
      ∀ a, (w'.connections a).vars = restoreVars st (clearedAliases st w₂ t base)
        (againOf st w₂.tenants base w.contextVars.currentTenant) a (w₂.connections a).vars := by
  obtain ⟨w', hclear, hw', -, hvars⟩ := clear_ready w.contextVars.currentTenant base h₂
  refine ⟨w', ?_, by rw [hw']; rfl, fun a => ?_⟩
  · rw [after, setThenClear, bind_run, hset]
    simp only [bind_run, hbody, hclear, pure_run]
  · rw [hvars a, hactive]
    cases t <;> rfl

/-- Restoring over two lists of aliases gives the same value. -/
theorem restoreVars_eq_iff {aliases aliases' : List Alias} {tenants : TenantRef → Tenant} {previous : Option TenantRef}
    {a : Alias} {vars : SessionVars} (hw : writesVar st a = true) :
    restoreVars st aliases (againOf st tenants base previous) a vars st.dbSessionVar =
        restoreVars st aliases' (againOf st tenants base previous) a vars st.dbSessionVar ↔
      ((∀ p, previous = .some p → a ∉ aliasesFor st (.some (tenants p)) base) →
        (a ∈ aliases ↔ a ∈ aliases') ∨ vars st.dbSessionVar = "") := by
  have hcleared : (if a ∈ aliases then "" else vars st.dbSessionVar) =
      (if a ∈ aliases' then "" else vars st.dbSessionVar) ↔
        (a ∈ aliases ↔ a ∈ aliases') ∨ vars st.dbSessionVar = "" := by
    by_cases h₁ : a ∈ aliases
    · by_cases h₂ : a ∈ aliases'
      · simp [h₁, h₂]
      · rw [if_pos h₁, if_neg h₂]
        exact ⟨fun he => .inr he.symm, fun he => (he.resolve_left fun hi => h₂ (hi.mp h₁)).symm⟩
    · by_cases h₂ : a ∈ aliases'
      · rw [if_neg h₁, if_pos h₂]
        exact ⟨.inr, fun he => he.resolve_left fun hi => h₁ (hi.mpr h₂)⟩
      · simp [h₁, h₂]
  rw [restoreVars_eq _ _ _ _ _ hw, restoreVars_eq _ _ _ _ _ hw]
  cases previous with
  | none =>
    simp only [againOf, Option.map_none, hcleared]
    simp
  | some p =>
    by_cases hp : a ∈ aliasesFor st (.some (tenants p)) base
    · simp [againOf, hp]
    · simp only [againOf, Option.map_some, if_neg hp, hcleared]
      simp [hp]

/-- `using` and `set` with `clear` end in the same way just when the exits
agree where the body ends. -/
theorem sameEnd_iff (h : w.Ready st) (hset : TenantContext.set st t base w = .ok w.contextVars.currentTenant w₁)
    (hbody : body w₁ = .ok r w₂) (h₂ : w₂.Ready st) (hactive : w₂.contextVars.currentTenant = t) :
    SameEnd st (after (withUsing st t base body) w) (after (setThenClear st t base body) w) ↔
      ExitsAgree st w w₂ t base := by
  obtain ⟨w', hw', -, hv', hvars'⟩ := withUsing_ready h hset hbody h₂
  obtain ⟨w'', hw'', hv'', hvars''⟩ := after_setThenClear hset hbody h₂ hactive
  rw [after_of_ok hw', hw'']
  have hcontext : w'.contextVars = w''.contextVars := hv'.trans hv''.symm
  simp only [SameEnd, hcontext, true_and, hvars', hvars'']
  constructor
  · exact fun hsame a hw => (restoreVars_eq_iff hw).mp (hsame a)
  · intro hagree a
    cases hw : writesVar st a with
    | true => exact (restoreVars_eq_iff hw).mpr (hagree a hw)
    | false =>
      -- Neither exit writes on the alias.
      have hquiet : ∀ aliases again, restoreVars st aliases again a (w₂.connections a).vars = (w₂.connections a).vars := by
        intro aliases again
        unfold restoreVars
        cases again <;> simp [writeVar, hw]
      rw [hquiet, hquiet]

end

/-! ## A body that moves its tenant to another region -/

namespace TwoRegions

/-- `tenant.region = "us"`. -/
def moveToUs : M Unit := fun w =>
  .ok () { w with tenants := Function.update w.tenants 1 { w.tenants 1 with region := .some "us" } }

/-- Where the body of a scope for tenant 1 starts. -/
def insideOne : World := after (TenantContext.set settings (.some 1) "default") ambient

theorem insideOne_ready : insideOne.Ready settings := by
  obtain ⟨w', hset, -, hready, -⟩ := set_ready (.some 1) "default" ambient_ready
  rw [insideOne, after_of_ok hset]
  exact hready

/-- A body with a scope of its own, for the other tenant. -/
def nested : M Unit := withUsing settings (.some 0) "default" (pure ())

theorem nested_ready : ∃ w₂, nested insideOne = .ok () w₂ ∧ w₂.Ready settings ∧
    w₂.contextVars.currentTenant = .some 1 ∧ w₂.tenants = insideOne.tenants := by
  obtain ⟨w₁, hset, -, hready, -⟩ := set_ready (.some 0) "default" insideOne_ready
  have hbody : (pure () : M Unit) w₁ = .ok () w₁ := rfl
  obtain ⟨w₂, hnested, hready₂, -, -⟩ := withUsing_ready insideOne_ready hset hbody hready
  refine ⟨w₂, hnested, hready₂, ?_, ?_⟩
  · rw [← after_of_ok hnested]
    rfl
  · rw [← after_of_ok hnested]
    rfl

/-- Around a body that nests a scope the exits end in the same way; around one
that moves the region of its tenant they do not agree. -/
theorem sameEnd_iff_nested_and_moved :
    SameEnd settings (after (withUsing settings (.some 1) "default" nested) ambient)
        (after (setThenClear settings (.some 1) "default" nested) ambient) ∧
      ¬ ExitsAgree settings ambient (after moveToUs insideOne) (.some 1) "default" := by
  have hset : TenantContext.set settings (.some 1) "default" ambient = .ok .none insideOne := rfl
  constructor
  · obtain ⟨w₂, hnested, hready, hactive, htenants⟩ := nested_ready
    refine (sameEnd_iff ambient_ready hset hnested hready hactive).mpr fun a _ _ => .inl ?_
    rw [clearedAliases, htenants]
    exact Iff.rfl
  · intro hagree
    have hmoved : (after moveToUs insideOne).Ready settings := ⟨insideOne_ready.ambient, insideOne_ready.succeeds⟩
    have hbody : moveToUs insideOne = .ok () (after moveToUs insideOne) := rfl
    have hsame := (sameEnd_iff ambient_ready hset hbody hmoved rfl).mpr hagree
    exact absurd (hsame.2 "eu") (by decide)

/-- After `set` and `clear` around it, `eu` carries tenant 1's key; after
`using` it does not. -/
theorem moveToUs_ends_apart :
    ¬ ∀ (st : Settings) (t : Option TenantRef) (base : Alias) (body : M Unit) (w w₁ w₂ : World), w.Ready st →
      w.contextVars.currentTenant = .none → (∀ a, (w.connections a).vars st.dbSessionVar = "") →
      TenantContext.set st t base w = .ok w.contextVars.currentTenant w₁ → body w₁ = .ok () w₂ →
      w₂ = { w₁ with tenants := w₂.tenants } → w₂.Ready st →
      SameEnd st (after (withUsing st t base body) w) (after (setThenClear st t base body) w) := by
  intro hclaim
  have hsame := hclaim settings (.some 1) "default" moveToUs ambient insideOne (after moveToUs insideOne)
    ambient_ready rfl (fun _ => rfl) rfl rfl rfl
    ⟨insideOne_ready.ambient, insideOne_ready.succeeds⟩
  exact absurd (hsame.2 "eu") (by decide)

end TwoRegions

end Boundary
