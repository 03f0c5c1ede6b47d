/-
What a raising `TenantContext.set` leaves. The context variable goes back;
what was written on the aliases before the one that refused stays. So nothing
has changed just when those aliases carried the tenant's key already.
-/
import Boundary.Agreement

namespace Boundary

open Exec TenantContext

/-- The write of the session variable on the alias raises. -/
def refusesWrite (st : Settings) (w : World) (a : Alias) : Bool :=
  writesVar st a && (w.connections a).opened && !(w.connections a).accepts

/-- The aliases `set` gets through before one refuses. -/
def beforeRefusal (st : Settings) (w : World) (t : TenantRef) (base : Alias) : List Alias :=
  (aliasesFor st (.some (w.tenants t)) base).takeWhile fun a => !refusesWrite st w a

/-- The PostgreSQL aliases of a tenant are in transactions that were open
already. -/
def Ambient (st : Settings) (w : World) (t : TenantRef) (base : Alias) : Prop :=
  ∀ a ∈ aliasesFor st (.some (w.tenants t)) base, isPostgresql st a = true → (w.connections a).inAtomicBlock = true

/-- The context variables, and the session variable wherever a transaction is
still usable, are as before. -/
def Untouched (st : Settings) (w w' : World) : Prop :=
  w'.contextVars = w.contextVars ∧ ∀ a, (w'.connections a).usable = true →
    (w'.connections a).vars st.dbSessionVar = (w.connections a).vars st.dbSessionVar

theorem beforeRefusal_eq {st : Settings} {w w' : World} {t : TenantRef} {base x : Alias} {pre post : List Alias}
    {e : Exc} (hsplit : aliasesFor st (.some (w.tenants t)) base = pre ++ x :: post)
    (hpre : ∀ a ∈ pre, setDbSessionOn st a (w.tenants t).pk.str (w.connections a) = (.ok (), w'.connections a))
    (hx : setDbSessionOn st x (w.tenants t).pk.str (w.connections x) = (.error e, w'.connections x)) :
    beforeRefusal st w t base = pre := by
  have hpassed : ∀ a ∈ pre, (!refusesWrite st w a) = true := fun a ha => by
    obtain ⟨-, -, haccepts⟩ := setDbSessionOn_ok (hpre a ha)
    simp only [refusesWrite, Bool.not_and, Bool.not_not, Bool.or_eq_true, Bool.not_eq_true']
    cases hw : writesVar st a with
    | false => exact .inl (.inl rfl)
    | true =>
      cases ho : (w.connections a).opened with
      | false => exact .inl (.inr rfl)
      | true => exact .inr (haccepts hw ho)
  have hrefused : (!refusesWrite st w x) = false := by
    obtain ⟨-, hw, ho, hacc, -⟩ := setDbSessionOn_error hx
    simp [refusesWrite, hw, ho, hacc]
  rw [beforeRefusal, hsplit, List.takeWhile_append_of_pos hpassed, List.takeWhile_cons, hrefused]
  simp

/-- `set` that raises is all-or-nothing just when every alias it wrote on, in
a transaction, carried the tenant's key before. -/
theorem set_untouched_iff {st : Settings} {w w' : World} {t : TenantRef} {base : Alias} {e : Exc}
    (hambient : Ambient st w t base) (h : TenantContext.set st (.some t) base w = .error e w') :
    Untouched st w w' ↔ ∀ a ∈ beforeRefusal st w t base, writesVar st a = true →
      (w.connections a).vars st.dbSessionVar = (w.tenants t).pk.str := by
  obtain ⟨_, pre, x, post, hu, hsplit, hw', hpre, hx, hrest⟩ := set_error_spec h
  cases hu
  rw [beforeRefusal_eq hsplit hpre hx]
  have hin : ∀ a ∈ pre, writesVar st a = true → (w.connections a).inAtomicBlock = true := fun a ha hw =>
    hambient a (by rw [hsplit]; exact List.mem_append_left _ ha) (writesVar_eq_true.mp hw).2
  constructor
  · intro ⟨_, hsame⟩ a ha hw
    obtain ⟨hran, hkeeps, haccepts⟩ := setDbSessionOn_ok (hpre a ha)
    have haccepted := haccepts hw (Connection.opened_of_inAtomicBlock (hin a ha hw))
    have hu := hkeeps (Connection.usable_of_accepts haccepted)
    rw [← hsame a hu, hran.vars hu, if_pos (hin a ha hw)]
    exact writeVar_apply _ hw
  · intro hcarried
    refine ⟨by rw [hw'], fun a hu => ?_⟩
    by_cases ha : a ∈ pre
    · obtain ⟨hran, -⟩ := setDbSessionOn_ok (hpre a ha)
      rw [hran.vars hu]
      cases hw : writesVar st a with
      | true => rw [if_pos (hin a ha hw), writeVar_apply _ hw, hcarried a ha hw]
      | false => simp [writeVar, hw]
    · by_cases hax : a = x
      · subst hax
        have hinx := hambient a (by rw [hsplit]; simp) (writesVar_eq_true.mp (setDbSessionOn_error hx).2.1).2
        rw [(setDbSessionOn_error hx).2.2.2.2 hinx] at hu
        cases hu
      · rw [hrest a ha hax]

namespace TwoRegions

/-- Every alias in a transaction, the one on `eu` aborted. -/
def aborted : World :=
  ambient.onConnection "eu" fun _ => { handle := .some (.transaction { current := .idle, aborted := true }) }

/-- The same, with tenant 1's key on `default` already. -/
def abortedUnderTenant : World :=
  aborted.onConnection "default" fun _ =>
    { handle := .some (.transaction { current := setConfig "app.current_tenant_id" "2" .idle }) }

theorem set_untouched_iff_abortedUnderTenant :
    Untouched settings abortedUnderTenant (after (TenantContext.set settings (.some 1) "default") abortedUnderTenant) ↔
      ∀ a ∈ beforeRefusal settings abortedUnderTenant 1 "default", writesVar settings a = true →
        (abortedUnderTenant.connections a).vars settings.dbSessionVar = (tenants 1).pk.str :=
  set_untouched_iff (e := .databaseError) (by unfold Ambient; decide) rfl

/-- `set` for tenant 1 raises on `eu`, and leaves its key on `default`. -/
theorem set_leaves_default_written :
    ¬ ∀ (st : Settings) (w w' : World) (t : TenantRef) (base : Alias) (e : Exc), Ambient st w t base →
      TenantContext.set st (.some t) base w = .error e w' → Untouched st w w' := by
  intro hclaim
  have huntouched := hclaim settings aborted (after (TenantContext.set settings (.some 1) "default") aborted) 1
    "default" .databaseError (by unfold Ambient; decide) rfl
  exact absurd (huntouched.2 "default" (by decide)) (by decide)

end TwoRegions

end Boundary
