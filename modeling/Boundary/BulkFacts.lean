/-
What the bulk writes of `Boundary.BulkWrites` leave in the table: one lemma an
operation.
-/
import Boundary.BulkWrites
import Boundary.ModelsFacts

namespace Boundary

open Exec TenantManager

variable {st : Settings} {m : ModelClass} {t : TenantRef} {s s' : Store}

/-! ## Transactions -/

theorem atomically_ok_iff {α : Type} {x : Orm α} {a : α} : atomically x s = .ok a s' ↔ x s = .ok a s' := by
  unfold atomically
  exact onError_ok_iff

/-- What has written to the table only is taken back as a whole. -/
theorem atomically_failsClean {α : Type} {x : Orm α}
    (h : ∀ s e s', x s = .error e s' → ∃ rows, s' = { s with rows }) : FailsClean (atomically x) := by
  intro s e s' herror
  unfold atomically at herror
  obtain ⟨s₁, hx, rfl⟩ := onError_error_iff.mp herror
  obtain ⟨rows, rfl⟩ := h s e s₁ hx
  rfl

/-! ## Inserting -/

/-- The row an instance is written to. -/
structure IsRowOf (m : ModelClass) (obj : Instance) (row : Row) : Prop where
  pk : ∀ pk, obj.pk = .some pk → row.pk = pk
  tenant : prepTenantId m obj.tenantId = .ok row.tenant
  columns : row.columns = obj.columns

/-- A null tenant column is of an instance without a tenant. -/
theorem IsRowOf.tenant_eq_none {obj : Instance} {row : Row} (h : IsRowOf m obj row) :
    row.tenant = .none ↔ obj.tenantId = .null := by
  constructor
  · exact (prepTenantId_ok (fun _ => ⟨.int 0, .none, .none⟩) h.tenant).2
  · intro hnull
    have hprep := h.tenant
    rw [hnull] at hprep
    exact (Except.ok.inj hprep).symm

theorem insertRow_eq {row row' : Row} (h : insertRow m row s = .ok row' s') :
    row' = row ∧ s' = { s with rows := s.rows ++ [row] } := by
  unfold insertRow at h
  split at h
  · cases h
  · cases h
    exact ⟨rfl, rfl⟩

theorem insertInstance_ok {obj : Instance} {row : Row} (h : insertInstance m obj s = .ok row s') :
    IsRowOf m obj row ∧ s' = { s with rows := s.rows ++ [row] } := by
  unfold insertInstance baseSave at h
  obtain ⟨tenant, s₁, hsent, hwrite⟩ := bind_ok_iff.mp h
  obtain ⟨hprep, rfl⟩ := ofExcept_ok_iff.mp hsent
  unfold writeRow at hwrite
  cases hpk : obj.pk with
  | none =>
    simp only [hpk] at hwrite
    obtain ⟨rfl, rfl⟩ := insertRow_eq hwrite
    refine ⟨⟨fun pk h => ?_, hprep, rfl⟩, rfl⟩
    rw [hpk] at h
    cases h
  | some pk =>
    simp only [hpk, Bool.true_or, if_true] at hwrite
    obtain ⟨rfl, rfl⟩ := insertRow_eq hwrite
    refine ⟨⟨fun pk' h => ?_, hprep, rfl⟩, rfl⟩
    rw [hpk] at h
    exact Option.some.inj h

theorem insertInstance_failsClean (obj : Instance) : FailsClean (insertInstance m obj) := by
  refine .bind (.ofExcept _) fun tenant s e s' h => ?_
  unfold writeRow at h
  split at h
  · exact insertRow_failsClean _ s e s' h
  · rw [Bool.true_or, if_pos rfl] at h
    exact insertRow_failsClean _ s e s' h

theorem insertInstances_ok : ∀ {objs : List Instance} {rows : List Row} {s : Store},
    objs.mapM (insertInstance m) s = .ok rows s' →
      List.Forall₂ (IsRowOf m) objs rows ∧ s' = { s with rows := s.rows ++ rows }
  | [], rows, s, h => by
    rw [List.mapM_nil] at h
    cases h
    exact ⟨.nil, by simp⟩
  | obj :: objs, rows, s, h => by
    rw [List.mapM_cons] at h
    obtain ⟨row, s₁, hrow, h⟩ := bind_ok_iff.mp h
    obtain ⟨rest, s₂, hrest, h⟩ := bind_ok_iff.mp h
    cases h
    obtain ⟨hof, rfl⟩ := insertInstance_ok hrow
    obtain ⟨hofs, rfl⟩ := insertInstances_ok hrest
    exact ⟨.cons hof hofs, by simp⟩

theorem insertInstances_error : ∀ {objs : List Instance} {e : Exc} {s : Store},
    objs.mapM (insertInstance m) s = .error e s' → ∃ rows, s' = { s with rows }
  | [], e, s, h => by
    rw [List.mapM_nil] at h
    cases h
  | obj :: objs, e, s, h => by
    rw [List.mapM_cons] at h
    rcases bind_error_iff.mp h with hrow | ⟨row, s₁, hrow, h⟩
    · rw [insertInstance_failsClean obj s e s' hrow]
      exact ⟨s.rows, rfl⟩
    · obtain ⟨-, rfl⟩ := insertInstance_ok hrow
      rcases bind_error_iff.mp h with hrest | ⟨rest, s₂, hrest, h⟩
      · obtain ⟨rows, rfl⟩ := insertInstances_error hrest
        exact ⟨rows, rfl⟩
      · cases h

/-- The order `bulk_create` inserts in. -/
def inOrder (objs : List Instance) : List Instance := objs.filter (·.pk.isSome) ++ objs.filter (·.pk.isNone)

theorem inOrder_perm (objs : List Instance) : (inOrder objs).Perm objs := by
  have hnone : (fun obj : Instance => obj.pk.isNone) = fun obj => !obj.pk.isSome := by
    funext obj
    cases obj.pk <;> rfl
  unfold inOrder
  rw [hnone]
  exact List.filter_append_perm _ objs

theorem inOrder_map {g : Instance → Instance} (hg : ∀ obj, (g obj).pk = obj.pk) (objs : List Instance) :
    inOrder (objs.map g) = (inOrder objs).map g := by
  have hcomp : ∀ p : Option PrimaryKey → Bool, (fun obj : Instance => p obj.pk) ∘ g = fun obj => p obj.pk := by
    intro p
    funext obj
    exact congrArg p (hg obj)
  unfold inOrder
  rw [List.filter_map, List.filter_map, List.map_append, hcomp Option.isSome, hcomp Option.isNone]

/-- Every instance gets a row of its own, after the rows there were. -/
theorem bulkCreate_ok {objs : List Instance} {written : List Row} (h : QuerySet.bulkCreate m objs s = .ok written s') :
    s' = { s with rows := s.rows ++ written } ∧ List.Forall₂ (IsRowOf m) (inOrder objs) written := by
  obtain ⟨withPk, s₁, hwith, h⟩ := bind_ok_iff.mp (atomically_ok_iff.mp h)
  obtain ⟨withoutPk, s₂, hwithout, h⟩ := bind_ok_iff.mp h
  cases h
  obtain ⟨hofWith, rfl⟩ := insertInstances_ok hwith
  obtain ⟨hofWithout, rfl⟩ := insertInstances_ok hwithout
  exact ⟨by simp, List.rel_append hofWith hofWithout⟩

theorem bulkCreate_failsClean (objs : List Instance) : FailsClean (QuerySet.bulkCreate m objs) := by
  refine atomically_failsClean fun s e s' h => ?_
  rcases bind_error_iff.mp h with hwith | ⟨withPk, s₁, hwith, h⟩
  · exact insertInstances_error hwith
  · obtain ⟨-, rfl⟩ := insertInstances_ok hwith
    rcases bind_error_iff.mp h with hwithout | ⟨withoutPk, s₂, hwithout, h⟩
    · obtain ⟨rows, rfl⟩ := insertInstances_error hwithout
      exact ⟨rows, rfl⟩
    · cases h

/-! ## What the table takes -/

/-- The row an instance is inserted as beside others, or why it is not. -/
def rowFor (m : ModelClass) (rows : List Row) (obj : Instance) : Except Exc Row :=
  match prepTenantId m obj.tenantId with
  | .error e => .error e
  | .ok tenant =>
    let row : Row := { pk := obj.pk.getD (m.nextKey rows), tenant, columns := obj.columns }
    if rows.any (·.pk == row.pk) || !m.constraints rows row then .error .integrityError else .ok row

/-- The table takes the instances, one after another. -/
def takes (m : ModelClass) : List Row → List Instance → Bool
  | _, [] => true
  | rows, obj :: objs =>
    match rowFor m rows obj with
    | .ok row => takes m (rows ++ [row]) objs
    | .error _ => false

theorem insertInstance_run (obj : Instance) (s : Store) :
    insertInstance m obj s = match rowFor m s.rows obj with
      | .ok row => .ok row { s with rows := s.rows ++ [row] }
      | .error e => .error e s := by
  unfold insertInstance baseSave rowFor
  cases hprep : prepTenantId m obj.tenantId with
  | error e => rfl
  | ok tenant =>
    simp only [bind_run, ofExcept_ok_run, writeRow, Bool.true_or, if_true]
    cases obj.pk with
    | none =>
      simp only [insertRow, Option.getD_none]
      split <;> rfl
    | some pk =>
      simp only [insertRow, Option.getD_some]
      split <;> rfl

theorem insertInstances_ok_iff : ∀ (objs : List Instance) (s : Store),
    (∃ rows s', objs.mapM (insertInstance m) s = .ok rows s') ↔ takes m s.rows objs = true
  | [], s => iff_of_true ⟨[], s, rfl⟩ rfl
  | obj :: objs, s => by
    rw [List.mapM_cons, bind_run, insertInstance_run, takes]
    cases rowFor m s.rows obj with
    | error e => simp
    | ok row =>
      have ih := insertInstances_ok_iff objs { s with rows := s.rows ++ [row] }
      simp only [bind_run]
      cases hrest : objs.mapM (insertInstance m) { s with rows := s.rows ++ [row] } with
      | ok rows s' =>
        rw [hrest] at ih
        exact iff_of_true ⟨row :: rows, s', rfl⟩ (ih.mp ⟨rows, s', rfl⟩)
      | error e s' =>
        rw [hrest] at ih
        refine iff_of_false (by simp) fun htakes => ?_
        obtain ⟨_, _, h⟩ := ih.mpr htakes
        cases h

theorem bulkCreate_ok_iff (objs : List Instance) :
    (∃ written s', QuerySet.bulkCreate m objs s = .ok written s') ↔ takes m s.rows (inOrder objs) = true := by
  rw [← insertInstances_ok_iff, inOrder, List.mapM_append]
  unfold QuerySet.bulkCreate
  constructor
  · rintro ⟨written, s', h⟩
    exact ⟨written, s', atomically_ok_iff.mp h⟩
  · rintro ⟨written, s', h⟩
    exact ⟨written, s', atomically_ok_iff.mpr h⟩

theorem after_bulkCreate (objs : List Instance) :
    (takes m s.rows (inOrder objs) = true ∧ ∃ written, List.Forall₂ (IsRowOf m) (inOrder objs) written ∧
      (after (QuerySet.bulkCreate m objs) s).rows = s.rows ++ written) ∨
    (takes m s.rows (inOrder objs) = false ∧ (after (QuerySet.bulkCreate m objs) s).rows = s.rows) := by
  cases hrun : QuerySet.bulkCreate m objs s with
  | ok written s' =>
    obtain ⟨rfl, hrows⟩ := bulkCreate_ok hrun
    rw [after_of_ok hrun]
    exact .inl ⟨(bulkCreate_ok_iff objs).mp ⟨written, _, hrun⟩, written, hrows, rfl⟩
  | error e s' =>
    rw [after_of_error hrun, bulkCreate_failsClean _ _ _ _ hrun]
    refine .inr ⟨?_, rfl⟩
    rw [← Bool.not_eq_true, ← bulkCreate_ok_iff, hrun]
    rintro ⟨_, _, h⟩
    cases h

/-! ## Updating -/

/-- The rows of an `UPDATE`: those `f` has a new version of in that version,
the others as they were. -/
def rewritten (f : Row → Option Row) (rows : List Row) : List Row := rows.map fun row => (f row).getD row

theorem updateFrom_eq {f : Row → Option Row} : ∀ {rows done rows' : List Row},
    updateFrom m f done rows = .some rows' → rows' = done ++ rewritten f rows
  | [], done, rows', h => by
    cases h
    simp [rewritten]
  | row :: rows, done, rows', h => by
    unfold updateFrom at h
    cases hf : f row with
    | none =>
      simp only [hf] at h
      rw [updateFrom_eq h]
      simp [rewritten, hf]
    | some row' =>
      simp only [hf] at h
      split at h
      · rw [updateFrom_eq h]
        simp [rewritten, hf]
      · cases h

theorem updateRows_failsClean (f : Row → Option Row) : FailsClean (updateRows m f) := by
  intro s e s' h
  unfold updateRows at h
  split at h
  · cases h
  · cases h
    rfl

theorem updateRows_ok_iff {f : Row → Option Row} {rows : List Row} :
    (∃ n, updateRows m f s = .ok n { s with rows }) ↔ updateFrom m f [] s.rows = .some rows := by
  unfold updateRows
  cases hrows : updateFrom m f [] s.rows with
  | none => simp
  | some rows' =>
    simp only [Option.some.injEq]
    constructor
    · rintro ⟨n, h⟩
      injection h with _ hs
      exact congrArg Store.rows hs
    · rintro rfl
      exact ⟨_, rfl⟩

theorem updateFrom_none : ∀ (rows done : List Row), updateFrom m (fun _ => .none) done rows = .some (done ++ rows)
  | [], done => by rw [updateFrom, List.append_nil]
  | row :: rows, done => by
    rw [updateFrom, updateFrom_none rows]
    simp

/-- An `UPDATE` that leaves out rows it would have left as they are goes through
where the whole of it does. -/
theorem updateFrom_of_kept {f g : Row → Option Row} : ∀ {rows done rows' : List Row},
    (∀ row ∈ rows, g row = f row ∨ g row = .none ∧ f row = .some row) →
      updateFrom m f done rows = .some rows' → updateFrom m g done rows = .some rows'
  | [], done, rows', _, h => h
  | row :: rows, done, rows', hkept, h => by
    have hrest : ∀ row ∈ rows, g row = f row ∨ g row = .none ∧ f row = .some row :=
      fun row' hrow' => hkept row' (List.mem_cons_of_mem _ hrow')
    unfold updateFrom at h ⊢
    rcases hkept row List.mem_cons_self with hsame | ⟨hout, hrow⟩
    · rw [hsame]
      cases hf : f row with
      | none =>
        simp only [hf] at h ⊢
        exact updateFrom_of_kept hrest h
      | some new =>
        simp only [hf] at h ⊢
        split at h
        next hfits =>
          rw [if_pos hfits]
          exact updateFrom_of_kept hrest h
        next => cases h
    · rw [hrow] at h
      simp only [hout]
      dsimp only at h
      split at h
      · exact updateFrom_of_kept hrest h
      · cases h

theorem bulkUpdate_failsClean {checkFields : List String → Except Exc Unit} {qs : QuerySet} {objs : List Instance}
    {fields : List String} : FailsClean (qs.bulkUpdate m checkFields objs fields) := by
  unfold QuerySet.bulkUpdate
  split
  · exact (ReadOnly.throw _).failsClean
  split
  · exact (ReadOnly.throw _).failsClean
  refine .bind (.ofExcept _) fun _ => ?_
  split
  · exact (ReadOnly.pure _).failsClean
  · exact .bind (.ofExcept _) fun objs => updateRows_failsClean _

/-- What is refused whatever the instances: no field, or a name that is not a
field's. -/
def FieldsRefused (checkFields : List String → Except Exc Unit) (fields : List String) : Prop :=
  fields = [] ∨ ∃ e, checkFields fields = .error e

/-- An update of nothing goes through, and leaves the table. -/
theorem bulkUpdate_nil {checkFields : List String → Except Exc Unit} (qs : QuerySet) {fields : List String}
    (h : ¬ FieldsRefused checkFields fields) : qs.bulkUpdate m checkFields [] fields s = .ok 0 s := by
  obtain ⟨hfields, hchecked⟩ := not_or.mp h
  unfold QuerySet.bulkUpdate
  rw [if_neg hfields, if_neg (by simp), bind_run]
  cases hc : checkFields fields with
  | error e => exact absurd ⟨e, hc⟩ hchecked
  | ok u => rfl

/-- An update goes through where the names are fields', every instance has a primary
key, and the table accepts the rows rewritten from them. -/
theorem bulkUpdate_ok_iff {checkFields : List String → Except Exc Unit} {qs : QuerySet} {objs : List Instance}
    {fields : List String} {rows : List Row} :
    (∃ n, qs.bulkUpdate m checkFields objs fields s = .ok n { s with rows }) ↔
      ¬ FieldsRefused checkFields fields ∧ (∀ obj ∈ objs, obj.pk ≠ .none) ∧
        ∃ prepared, objs.mapM (prepFields m fields) = .ok prepared ∧
          updateFrom m (updated m qs fields prepared) [] s.rows = .some rows := by
  unfold QuerySet.bulkUpdate FieldsRefused
  by_cases hfields : fields = []
  · simp [hfields, throw_run]
  rw [if_neg hfields]
  by_cases hkeys : ∀ obj ∈ objs, obj.pk ≠ .none
  swap
  · have hany : objs.any (·.pk.isNone) = true := by
      obtain ⟨obj, hobj, hnone⟩ := not_forall₂.mp hkeys
      exact List.any_eq_true.mpr ⟨obj, hobj, by rw [not_not.mp hnone]; rfl⟩
    rw [if_pos hany]
    exact iff_of_false (not_exists.mpr fun _ h => by cases h) fun h => hkeys h.2.1
  have hany : ¬ objs.any (·.pk.isNone) = true := by
    rw [List.any_eq_true]
    rintro ⟨obj, hobj, hnone⟩
    exact hkeys obj hobj (Option.isNone_iff_eq_none.mp hnone)
  rw [if_neg hany]
  cases hchecked : checkFields fields with
  | error e => exact iff_of_false (not_exists.mpr fun _ h => by cases h) fun h => h.1 (.inr ⟨e, rfl⟩)
  | ok u =>
    have hfine : ¬ (fields = [] ∨ ∃ e, Except.ok (ε := Exc) u = .error e) := by simp [hfields]
    rw [bind_run, ofExcept_ok_run]
    simp only [hfine, not_false_eq_true, true_and]
    split
    next hnil =>
      subst hnil
      have hnone : updated m qs fields [] = fun _ => .none := by
        funext row
        simp [updated]
      constructor
      · rintro ⟨n, h⟩
        injection h with _ hs
        refine ⟨by simp, [], rfl, ?_⟩
        rw [hnone, updateFrom_none]
        exact congrArg (fun s => Option.some s.rows) hs
      · rintro ⟨-, prepared, hprepared, h⟩
        obtain rfl := Except.ok.inj (List.mapM_nil.symm.trans hprepared)
        rw [hnone, updateFrom_none] at h
        cases h
        exact ⟨0, rfl⟩
    next =>
      rw [bind_run]
      cases hprepared : objs.mapM (prepFields m fields) with
      | error e =>
        refine iff_of_false (not_exists.mpr fun _ h => by cases h) ?_
        rintro ⟨-, _, h, -⟩
        cases h
      | ok prepared =>
        rw [ofExcept_ok_run]
        dsimp only
        rw [updateRows_ok_iff]
        constructor
        · intro h
          exact ⟨hkeys, prepared, rfl, h⟩
        · rintro ⟨-, _, hsame, h⟩
          cases hsame
          exact h

/-! ## The managers -/

section

variable {str : Value → String} {checkFields : List String → Except Exc Unit} {objs : Objs} {fields : List String}

theorem Objs.next_of_container (h : objs.oneShot = false) (items : List Instance) : objs.next items = items := by
  unfold Objs.next
  rw [h]
  rfl

theorem Objs.next_of_iterator (h : objs.oneShot = true) (items : List Instance) : objs.next items = [] := by
  unfold Objs.next
  rw [h]
  rfl

/-- A loop leaves everything of a container, and of an iterator that had
nothing. -/
theorem Objs.next_map (h : objs.oneShot = false ∨ objs.items = []) (g : Instance → Instance) :
    objs.next (objs.items.map g) = objs.items.map g := by
  rcases h with hcontainer | hempty
  · exact Objs.next_of_container hcontainer _
  · unfold Objs.next
    rw [hempty]
    split <;> rfl

/-- The query set of a tenant. -/
def ownRows (pk : PrimaryKey) : QuerySet := fun row => row.tenant == .some pk

/-- The tenant filled in where there is none. -/
def filled (pk : PrimaryKey) (obj : Instance) : Instance :=
  if obj.tenantId = .null then { obj with tenantId := .key pk } else obj

theorem filled_pk (pk : PrimaryKey) (obj : Instance) : (filled pk obj).pk = obj.pk := by
  unfold filled
  split <;> rfl

theorem filled_ne_null {pk : PrimaryKey} (obj : Instance) : (filled pk obj).tenantId ≠ .null := by
  unfold filled
  split
  · exact nofun
  · next h => exact h

theorem mapM_stamp (hm : m.hasTenantColumn = true) (tenants : TenantRef → Tenant) (t : TenantRef) (items : List Instance) :
    items.mapM (TenantManager.stamp m tenants t) = .ok (items.map (filled (tenants t).pk)) := by
  have hstamp : TenantManager.stamp m tenants t = fun obj => pure (filled (tenants t).pk obj) := by
    funext obj
    unfold TenantManager.stamp filled setattr
    rw [if_pos ((ModelClass.isFk_iff hm).mpr rfl)]
    split <;> rfl
  rw [hstamp, List.mapM_pure]
  rfl

/-- `bulk_create` of the tenant's manager is Django's, of what the iterable
gives after the loop. -/
theorem TenantManager.bulkCreate_run (st : Settings) (hm : m.hasTenantColumn = true)
    (ht : s.world.contextVars.currentTenant = .some t) (objs : Objs) :
    TenantManager.bulkCreate st m objs s =
      QuerySet.bulkCreate m (objs.next (objs.items.map (filled (s.world.tenants t).pk))) s := by
  unfold TenantManager.bulkCreate superBulkCreate
  rw [if_neg (by simp [hm])]
  simp only [bind_run, context_require ht, tenantsNow, mapM_stamp hm, ofExcept_ok_run, getQueryset_run hm ht]

theorem checkTenants_own {tenant : Tenant} : ∀ {items : List Instance}, (∀ obj ∈ items, obj.tenantId = .key tenant.pk) →
    TenantManager.checkTenants st m str tenant items = .ok ()
  | [], _ => rfl
  | obj :: items, h => by
    unfold TenantManager.checkTenants
    rw [if_neg (not_not_intro (h obj List.mem_cons_self))]
    exact checkTenants_own fun obj hobj => h obj (List.mem_cons_of_mem _ hobj)

theorem checkTenants_foreign (st : Settings) (m : ModelClass) (str : Value → String) {tenant : Tenant} :
    ∀ {items : List Instance}, (¬ ∀ obj ∈ items, obj.tenantId = .key tenant.pk) →
      ∃ obj ∈ items, TenantManager.checkTenants st m str tenant items =
        .error (TenantManager.crossTenant st m str tenant obj)
  | [], h => absurd (fun _ hobj => absurd hobj List.not_mem_nil) h
  | obj :: items, h => by
    unfold TenantManager.checkTenants
    by_cases hobj : obj.tenantId = .key tenant.pk
    · rw [if_neg (not_not_intro hobj)]
      have hrest : ¬ ∀ obj ∈ items, obj.tenantId = .key tenant.pk := fun hrest =>
        h fun obj' hobj' => (List.mem_cons.mp hobj').elim (· ▸ hobj) (hrest obj')
      obtain ⟨foreign, hmem, herror⟩ := checkTenants_foreign st m str hrest
      exact ⟨foreign, List.mem_cons_of_mem _ hmem, herror⟩
    · exact ⟨obj, List.mem_cons_self, if_pos hobj⟩

/-- `bulk_update` of instances that are all the tenant's is Django's, on the
tenant's rows, of what the iterable gives after the loop. -/
theorem TenantManager.bulkUpdate_own (st : Settings) (str : Value → String) (checkFields : List String → Except Exc Unit)
    (objs : Objs) (fields : List String) (hm : m.hasTenantColumn = true)
    (ht : s.world.contextVars.currentTenant = .some t)
    (hown : ∀ obj ∈ objs.items, obj.tenantId = .key (s.world.tenants t).pk) :
    TenantManager.bulkUpdate st m str checkFields objs fields s =
      (ownRows (s.world.tenants t).pk).bulkUpdate m checkFields (objs.next objs.items) fields s := by
  unfold TenantManager.bulkUpdate superBulkUpdate
  rw [if_neg (by simp [hm])]
  simp only [bind_run, context_require ht, tenantsNow, checkTenants_own hown, ofExcept_ok_run, getQueryset_run hm ht]
  rfl

theorem TenantManager.bulkUpdate_foreign (st : Settings) (str : Value → String)
    (checkFields : List String → Except Exc Unit) (objs : Objs) (fields : List String) (hm : m.hasTenantColumn = true)
    (ht : s.world.contextVars.currentTenant = .some t)
    (hforeign : ¬ ∀ obj ∈ objs.items, obj.tenantId = .key (s.world.tenants t).pk) :
    ∃ obj ∈ objs.items, TenantManager.bulkUpdate st m str checkFields objs fields s =
      .error (crossTenant st m str (s.world.tenants t) obj) s := by
  obtain ⟨obj, hobj, hcheck⟩ := checkTenants_foreign st m str hforeign
  refine ⟨obj, hobj, ?_⟩
  unfold TenantManager.bulkUpdate
  rw [if_neg (by simp [hm])]
  simp only [bind_run, context_require ht, tenantsNow, hcheck]
  rfl

/-- A `ValueError`, Django's own or the manager's. -/
def IsValueError (e : Exc) : Prop := e = .other "ValueError" ∨ ∃ message, e = .other ("ValueError: " ++ message)

theorem crossTenant_isValueError {tenant : Tenant} {obj : Instance} :
    IsValueError (TenantManager.crossTenant st m str tenant obj) := by
  unfold IsValueError TenantManager.crossTenant
  simp only [String.append_assoc]
  exact .inr ⟨_, rfl⟩

end

end Boundary
