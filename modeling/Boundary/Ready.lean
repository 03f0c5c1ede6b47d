/-
Scopes where nothing fails: every alias is in a transaction that outlives
them, and every statement succeeds. Entries and exits then always go through,
and what they do to the session variables is a function.
-/
import Boundary.Agreement

namespace Boundary

open Exec TenantContext

/-- Every configured connection is in a transaction, and those that speak
PostgreSQL take every statement to come. -/
structure World.Ready (st : Settings) (w : World) : Prop where
  ambient : ∀ a, (st.databases a).isSome = true → (w.connections a).inAtomicBlock = true
  succeeds : ∀ a, isPostgresql st a = true → (w.connections a).usable = true ∧ (w.connections a).faults = []

/-- The same of one connection. -/
def Connection.Ready (st : Settings) (a : Alias) (c : Connection) : Prop :=
  ((st.databases a).isSome = true → c.inAtomicBlock = true) ∧
    (isPostgresql st a = true → c.usable = true ∧ c.faults = [])

theorem World.ready_iff {st : Settings} {w : World} : w.Ready st ↔ ∀ a, (w.connections a).Ready st a :=
  ⟨fun h a => ⟨h.ambient a, h.succeeds a⟩, fun h => ⟨fun a => (h a).1, fun a => (h a).2⟩⟩

section

variable {st : Settings} {a : Alias} {c : Connection} {w : World}

theorem setDbSessionOn_ready (value : String) (h : c.Ready st a) :
    ∃ c', setDbSessionOn st a value c = (.ok (), c') ∧ c'.Ready st a ∧ c'.vars = writeVar st a value c.vars := by
  unfold setDbSessionOn
  split
  · next hset =>
    exact ⟨c, rfl, h, by simp at hset; simp [writeVar, writesVar, hset]⟩
  split
  · next hpg =>
    exact ⟨c, rfl, h, by simp at hpg; simp [writeVar, writesVar, hpg]⟩
  next hset hpg =>
  have hpg : isPostgresql st a = true := by simpa using hpg
  have hset : st.setDbSessionVar = true := by simpa using hset
  have hin := h.1 (isSome_of_isPostgresql hpg)
  obtain ⟨hu, hfaults⟩ := h.2 hpg
  rw [if_pos (Connection.opened_of_inAtomicBlock hin)]
  cases hr : c.run (setConfig st.dbSessionVar value) with
  | mk r c' =>
    cases r with
    | ok u =>
      obtain ⟨hran, -, hu', hfaults'⟩ := Connection.run_ok hr
      refine ⟨c', rfl, ⟨fun _ => hran.inAtomicBlock.trans hin, fun _ => ⟨hu', by rw [hfaults', hfaults]; rfl⟩⟩, ?_⟩
      rw [hran.vars hu', if_pos hin, writeVar, if_pos (writesVar_eq_true.mpr ⟨hset, hpg⟩)]
    | error e =>
      have hrefused := (Connection.run_error hr).2.1 (Connection.opened_of_inAtomicBlock hin)
      simp [Connection.accepts, hu, hfaults] at hrefused

theorem ensureAtomic_ready {cs : Connections} (h : ∀ a, (st.databases a).isSome = true → (cs a).inAtomicBlock = true) :
    ensureAtomic st a cs = .ok false cs := by
  unfold ensureAtomic
  split
  · rfl
  split
  · rfl
  next hconf _ =>
  have hin := h a (by simpa [Option.isSome_iff_ne_none] using hconf)
  simp [onCell, hin]

theorem enterAtomics_ready {cs : Connections} (h : ∀ a, (st.databases a).isSome = true → (cs a).inAtomicBlock = true) :
    ∀ as : List Alias, enterAtomics st as cs = .ok [] cs
  | [] => rfl
  | a :: as => by
    simp [enterAtomics, bind_run, ensureAtomic_ready h, onError, enterAtomics_ready h as]

/-- `set` goes through, and writes the key on the aliases of the tenant. -/
theorem set_ready (t : Option TenantRef) (base : Alias) (h : w.Ready st) :
    ∃ w', TenantContext.set st t base w = .ok w.contextVars.currentTenant w' ∧
      w' = w.withTenant t w'.connections ∧ w'.Ready st ∧
      ∀ a, (w'.connections a).vars = entryVars st (w.tenant? t) base a (w.connections a).vars := by
  have hready := World.ready_iff.mp h
  cases hr : TenantContext.set st t base w with
  | error e w' =>
    obtain ⟨u, pre, x, post, -, -, -, -, hx, -⟩ := set_error_spec hr
    obtain ⟨c', hok, -⟩ := setDbSessionOn_ready (w.tenants u).pk.str (hready x)
    rw [hok] at hx
    cases hx
  | ok token w' =>
    cases t with
    | none =>
      rw [set_none] at hr
      cases hr
      exact ⟨_, rfl, rfl, ⟨h.ambient, h.succeeds⟩, fun _ => rfl⟩
    | some u =>
      obtain ⟨rfl, cs, hcs, rfl⟩ := set_ok hr
      obtain ⟨hin, hout⟩ := setAll_ok hcs
      have heach : ∀ a, (cs a).Ready st a ∧
          (cs a).vars = entryVars st (.some (w.tenants u)) base a (w.connections a).vars := fun a => by
        by_cases ha : a ∈ aliasesFor st (.some (w.tenants u)) base
        · obtain ⟨c', hok, hready', hvars⟩ := setDbSessionOn_ready (w.tenants u).pk.str (hready a)
          obtain rfl : c' = cs a := by
            have := hok.symm.trans (hin a ha)
            simp only [Prod.mk.injEq, true_and] at this
            exact this
          exact ⟨hready', by rw [hvars, entryVars, if_pos ha]⟩
        · rw [hout a ha, entryVars_of_not_mem _ ha]
          exact ⟨hready a, rfl⟩
      exact ⟨_, rfl, rfl, World.ready_iff.mpr fun a => (heach a).1, fun a => (heach a).2⟩

theorem restoreOn_ready (aliases : List Alias) (again : Option (String × List Alias)) (h : c.Ready st a) :
    (restoreOn st aliases again a c).Ready st a ∧
      (restoreOn st aliases again a c).vars = restoreVars st aliases again a c.vars := by
  have hclear : (if a ∈ aliases then (setDbSessionOn st a "" c).2 else c).Ready st a ∧
      (if a ∈ aliases then (setDbSessionOn st a "" c).2 else c).vars =
        (if a ∈ aliases then writeVar st a "" else id) c.vars := by
    split
    · obtain ⟨c', hok, hready, hvars⟩ := setDbSessionOn_ready "" h
      rw [hok]
      exact ⟨hready, hvars⟩
    · exact ⟨h, rfl⟩
  unfold restoreOn restoreVars
  cases again with
  | none => exact hclear
  | some p =>
    obtain ⟨pk, as⟩ := p
    simp only [Function.comp_apply, ← hclear.2]
    split
    · obtain ⟨c', hok, hready, hvars⟩ := setDbSessionOn_ready pk hclear.1
      rw [hok]
      exact ⟨hready, hvars⟩
    · exact ⟨hclear.1, rfl⟩

/-- A scope is entered, no transaction opened. -/
theorem usingEnter_ready (t : Option TenantRef) (base : Alias) (h : w.Ready st) :
    ∃ w', usingEnter st t base w = .ok ⟨w.contextVars.currentTenant, w.contextVars.currentTenant, base,
        aliasesFor st (w.tenant? t) base, []⟩ w' ∧
      w' = w.withTenant t w'.connections ∧ w'.Ready st ∧
      ∀ a, (w'.connections a).vars = entryVars st (w.tenant? t) base a (w.connections a).vars := by
  obtain ⟨w', hset, hrest⟩ := set_ready t base h
  refine ⟨w', ?_, hrest⟩
  have hopen : db (enterAtomics st (aliasesFor st (w.tenant? t) base)) w = .ok [] w :=
    db_ok_iff.mpr ⟨_, enterAtomics_ready h.ambient _, rfl⟩
  have hentered : onError (TenantContext.set st t base) (db (exitAtomics true [])) w =
      .ok w.contextVars.currentTenant w' := onError_ok_iff.mpr hset
  simp only [usingEnter, bind_run, TenantContext.get, attributes?_run, hopen, hentered, pure_run]

/-- A scope that opened nothing is left. -/
theorem usingExit_ready (scope : UsingScope) (failed : Bool) (h : w.Ready st) (hn : scope.aliases.Nodup)
    (ho : scope.opened = []) :
    ∃ w', usingExit st scope failed w = .ok () w' ∧ w' = w.withTenant scope.token w'.connections ∧ w'.Ready st ∧
      ∀ a, (w'.connections a).vars =
        restoreVars st scope.aliases (againOf st w.tenants scope.base scope.previous) a (w.connections a).vars := by
  have hready := World.ready_iff.mp h
  have hrun := usingExit_run st failed w hn (by rw [ho]; exact List.nodup_nil)
  simp only [ho, List.not_mem_nil, if_false] at hrun
  exact ⟨_, hrun, rfl, World.ready_iff.mpr fun a => (restoreOn_ready _ _ (hready a)).1,
    fun a => (restoreOn_ready _ _ (hready a)).2⟩

/-- `clear` restores. -/
theorem clear_ready (token : Token) (base : Alias) (h : w.Ready st) :
    ∃ w', TenantContext.clear st token base w = .ok () w' ∧ w' = w.withTenant token w'.connections ∧ w'.Ready st ∧
      ∀ a, (w'.connections a).vars =
        restoreVars st
          (match w.contextVars.currentTenant with
          | .some t => aliasesFor st (.some (w.tenants t)) base
          | .none => [base]) (againOf st w.tenants base token) a (w.connections a).vars := by
  have hready := World.ready_iff.mp h
  exact ⟨_, clear_run w, rfl, World.ready_iff.mpr fun a => (restoreOn_ready _ _ (hready a)).1,
    fun a => (restoreOn_ready _ _ (hready a)).2⟩

end

theorem TwoRegions.ambient_ready : ambient.Ready settings := ⟨fun _ _ => rfl, fun _ _ => ⟨rfl, rfl⟩⟩

end Boundary
