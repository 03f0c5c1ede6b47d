/-
The routes to a bulk write that do not pass through the manager's overrides:
the asynchronous methods, which Django copies from the query set, and the
query set of `objects.all()`. Nothing there fills in a tenant or looks at one.
-/
import Boundary.BulkFacts
import Boundary.Stamping

namespace Boundary

open Exec TenantManager

section

variable (st : Settings) (m : ModelClass) (checkFields : List String → Except Exc Unit)

/-- `objects.all().bulk_create(objs)`. -/
def allBulkCreate (objs : List Instance) : Orm (List Row) := do
  let _ ← TenantManager.all st m
  QuerySet.bulkCreate m objs

/-- `objects.all().bulk_update(objs, fields)`. -/
def allBulkUpdate (objs : List Instance) (fields : List String) : Orm Nat := do
  let qs ← TenantManager.all st m
  qs.bulkUpdate m checkFields objs fields

end

/-- Both calls go through or neither does, and they leave the same rows. -/
structure InsertAlike (x y : Orm (List Row)) (s : Store) : Prop where
  succeeds : (∃ written s', x s = .ok written s') ↔ ∃ written s', y s = .ok written s'
  rows : (after x s).rows = (after y s).rows

/-- Both calls go through or neither does, a `ValueError` that writes nothing
comes from both or from neither, and they leave the same rows. -/
structure UpdateAlike (x y : Orm Nat) (s : Store) : Prop where
  succeeds : (∃ n s', x s = .ok n s') ↔ ∃ n s', y s = .ok n s'
  raises : (∃ e s', x s = .error e s' ∧ IsValueError e ∧ s'.rows = s.rows) ↔
    ∃ e s', y s = .error e s' ∧ IsValueError e ∧ s'.rows = s.rows
  rows : (after x s).rows = (after y s).rows

theorem InsertAlike.congr {x y z : Orm (List Row)} {s : Store} (h : y s = z s) :
    InsertAlike x y s ↔ InsertAlike x z s := by
  have hafter : after y s = after z s := by rw [after, h]; rfl
  constructor <;> rintro ⟨hsucceeds, hrows⟩
  · exact ⟨by rwa [h] at hsucceeds, by rwa [hafter] at hrows⟩
  · exact ⟨by rwa [h], by rwa [hafter]⟩

theorem UpdateAlike.congr {x y z : Orm Nat} {s : Store} (h : y s = z s) : UpdateAlike x y s ↔ UpdateAlike x z s := by
  have hafter : after y s = after z s := by rw [after, h]; rfl
  constructor <;> rintro ⟨hsucceeds, hraises, hrows⟩
  · exact ⟨by rwa [h] at hsucceeds, by rwa [h] at hraises, by rwa [hafter] at hrows⟩
  · exact ⟨by rwa [h], by rwa [h], by rwa [hafter]⟩

/-- What `bulk_update` of Django's looks at before it writes. -/
def updateChecks (m : ModelClass) (checkFields : List String → Except Exc Unit) (objs : List Instance)
    (fields : List String) : Except Exc Unit :=
  if fields = [] then .error (.other "ValueError")
  else if objs.any (·.pk.isNone) then .error (.other "ValueError")
  else do
    checkFields fields
    let _ ← objs.mapM (prepFields m fields)
    pure ()

section

variable {st : Settings} {m : ModelClass} {str : Value → String} {checkFields : List String → Except Exc Unit}
  {t : TenantRef} {s : Store} {objs : List Instance} {fields : List String}

/-! ## Inserting -/

theorem superBulkCreate_run (hm : m.hasTenantColumn = true) (ht : s.world.contextVars.currentTenant = .some t) :
    superBulkCreate st m objs s = QuerySet.bulkCreate m objs s := by
  unfold superBulkCreate
  rw [bind_run, getQueryset_run hm ht]

theorem filled_eq_self {pk : PrimaryKey} (hset : ∀ obj ∈ objs, obj.tenantId ≠ .null) : objs.map (filled pk) = objs := by
  conv_rhs => rw [← List.map_id objs]
  exact List.map_congr_left fun obj hobj => if_neg (hset obj hobj)

theorem exists_of_forall₂_both {α β : Type} {R S : α → β → Prop} : ∀ {as : List α} {bs : List β},
    List.Forall₂ R as bs → List.Forall₂ S as bs → ∀ a ∈ as, ∃ b, R a b ∧ S a b
  | _, _, .cons hr hrs, .cons hs hss, a, ha => by
    rcases List.mem_cons.mp ha with rfl | ha
    · exact ⟨_, hr, hs⟩
    · exact exists_of_forall₂_both hrs hss a ha

/-- Rows with the tenant filled in are not the rows without. -/
theorem written_ne {pk : PrimaryKey} {written written' : List Row} (hunset : ∃ obj ∈ objs, obj.tenantId = .null)
    (hfilled : List.Forall₂ (IsRowOf m) (inOrder (objs.map (filled pk))) written)
    (hplain : List.Forall₂ (IsRowOf m) (inOrder objs) written') : written ≠ written' := by
  rintro rfl
  obtain ⟨obj, hobj, hnull⟩ := hunset
  have hpk := filled_pk pk
  rw [inOrder_map hpk, List.forall₂_map_left_iff] at hfilled
  obtain ⟨row, hof, hof'⟩ := exists_of_forall₂_both hfilled hplain obj ((inOrder_perm objs).mem_iff.mpr hobj)
  exact filled_ne_null obj (hof.tenant_eq_none.mp (hof'.tenant_eq_none.mpr hnull))

theorem append_written_ne (hne : objs ≠ []) {written : List Row} (h : List.Forall₂ (IsRowOf m) (inOrder objs) written)
    (rows : List Row) : rows ++ written ≠ rows := by
  intro hsame
  rw [List.append_right_eq_self.mp hsame, List.forall₂_nil_right_iff] at h
  have hperm := inOrder_perm objs
  rw [h] at hperm
  exact hne (List.nil_perm.mp hperm)

/-- Django's `bulk_create` of the instances as they are does what the manager's
does when none lacks a tenant, or when the table takes them neither way. -/
theorem insertAlike_iff (hm : m.hasTenantColumn = true) (ht : s.world.contextVars.currentTenant = .some t) :
    InsertAlike (TenantManager.bulkCreate st m { items := objs }) (QuerySet.bulkCreate m objs) s ↔
      (∀ obj ∈ objs, obj.tenantId ≠ .null) ∨
        takes m s.rows (inOrder objs) = false ∧
          takes m s.rows (inOrder (objs.map (filled (s.world.tenants t).pk))) = false := by
  have hrun : TenantManager.bulkCreate st m { items := objs } s =
      QuerySet.bulkCreate m (objs.map (filled (s.world.tenants t).pk)) s := TenantManager.bulkCreate_run st hm ht _
  by_cases hset : ∀ obj ∈ objs, obj.tenantId ≠ .null
  · rw [filled_eq_self hset] at hrun
    exact iff_of_true ⟨by rw [hrun], by rw [after, hrun]; rfl⟩ (.inl hset)
  have hunset : ∃ obj ∈ objs, obj.tenantId = .null := by
    push Not at hset
    exact hset
  have hne : objs ≠ [] := by
    rintro rfl
    exact hset fun _ h => absurd h List.not_mem_nil
  have hafter : after (TenantManager.bulkCreate st m { items := objs }) s =
      after (QuerySet.bulkCreate m (objs.map (filled (s.world.tenants t).pk))) s := by
    rw [after, hrun]
    rfl
  have hfill := after_bulkCreate (m := m) (s := s) (objs.map (filled (s.world.tenants t).pk))
  rw [← hafter] at hfill
  rcases hfill with ⟨htakes, written, hwritten, hrows⟩ | ⟨hrefuses, hrows⟩ <;>
    rcases after_bulkCreate (m := m) (s := s) objs with ⟨htakes', written', hwritten', hrows'⟩ | ⟨hrefuses', hrows'⟩
  · refine iff_of_false (fun h => ?_) (by simp [hset, htakes])
    have hsame := h.rows
    rw [hrows, hrows', List.append_cancel_left_eq] at hsame
    exact written_ne hunset hwritten hwritten' hsame
  · refine iff_of_false (fun h => ?_) (by simp [hset, htakes])
    have hsame := h.rows
    rw [hrows, hrows'] at hsame
    exact append_written_ne (fun h => hne (List.map_eq_nil_iff.mp h)) hwritten _ hsame
  · refine iff_of_false (fun h => ?_) (by simp [hset, htakes'])
    have hsame := h.rows
    rw [hrows, hrows'] at hsame
    exact append_written_ne hne hwritten' _ hsame.symm
  · refine iff_of_true ⟨?_, hrows.trans hrows'.symm⟩ (.inr ⟨hrefuses', hrefuses⟩)
    rw [hrun, bulkCreate_ok_iff, bulkCreate_ok_iff, hrefuses, hrefuses']

/-! ## Updating -/

theorem superBulkUpdate_run (hm : m.hasTenantColumn = true) (ht : s.world.contextVars.currentTenant = .some t) :
    superBulkUpdate st m checkFields objs fields s =
      (ownRows (s.world.tenants t).pk).bulkUpdate m checkFields objs fields s := by
  unfold superBulkUpdate
  rw [bind_run, getQueryset_run hm ht]
  rfl

theorem not_isValueError_integrityError : ¬ IsValueError .integrityError := by
  rintro (h | ⟨message, h⟩) <;> cases h

/-- Django's `bulk_update` raises a `ValueError` in its checks or not at all. -/
theorem bulkUpdate_valueError_iff (qs : QuerySet) :
    (∃ e s', qs.bulkUpdate m checkFields objs fields s = .error e s' ∧ IsValueError e ∧ s'.rows = s.rows) ↔
      ∃ e, updateChecks m checkFields objs fields = .error e ∧ IsValueError e := by
  unfold QuerySet.bulkUpdate updateChecks
  split
  · exact iff_of_true ⟨_, s, rfl, .inl rfl, rfl⟩ ⟨_, rfl, .inl rfl⟩
  split
  · exact iff_of_true ⟨_, s, rfl, .inl rfl, rfl⟩ ⟨_, rfl, .inl rfl⟩
  cases hchecked : checkFields fields with
  | error e =>
    rw [bind_run]
    exact ⟨fun ⟨_, _, h, he, _⟩ => by cases h; exact ⟨e, rfl, he⟩,
      fun ⟨_, h, he⟩ => by cases h; exact ⟨e, s, rfl, he, rfl⟩⟩
  | ok u =>
    rw [bind_run, ofExcept_ok_run]
    simp only
    split
    · next hnil =>
      subst hnil
      exact iff_of_false (fun ⟨_, _, h, _⟩ => by cases h) (fun ⟨_, h, _⟩ => by cases h)
    rw [bind_run]
    cases hprepared : objs.mapM (prepFields m fields) with
    | error e =>
      exact ⟨fun ⟨_, _, h, he, _⟩ => by cases h; exact ⟨e, rfl, he⟩,
        fun ⟨_, h, he⟩ => by cases h; exact ⟨e, s, rfl, he, rfl⟩⟩
    | ok prepared =>
      rw [ofExcept_ok_run]
      refine iff_of_false ?_ (fun ⟨_, h, _⟩ => by cases h)
      rintro ⟨e, s', h, he, -⟩
      have h : updateRows m (updated m qs fields prepared) s = .error e s' := h
      unfold updateRows at h
      split at h
      · cases h
      · cases h
        exact not_isValueError_integrityError he

/-- Django's `bulk_update` of the tenant's rows does what the manager's does
when every instance is the tenant's, or when it raises a `ValueError` too. -/
theorem updateAlike_iff (hm : m.hasTenantColumn = true) (ht : s.world.contextVars.currentTenant = .some t) :
    UpdateAlike (TenantManager.bulkUpdate st m str checkFields { items := objs } fields)
        ((ownRows (s.world.tenants t).pk).bulkUpdate m checkFields objs fields) s ↔
      (∀ obj ∈ objs, obj.tenantId = .key (s.world.tenants t).pk) ∨
        ∃ e, updateChecks m checkFields objs fields = .error e ∧ IsValueError e := by
  by_cases hown : ∀ obj ∈ objs, obj.tenantId = .key (s.world.tenants t).pk
  · have hrun : TenantManager.bulkUpdate st m str checkFields { items := objs } fields s =
        (ownRows (s.world.tenants t).pk).bulkUpdate m checkFields objs fields s :=
      TenantManager.bulkUpdate_own st str checkFields { items := objs } fields hm ht hown
    exact iff_of_true ⟨by rw [hrun], by rw [hrun], by rw [after, hrun]; rfl⟩ (.inl hown)
  obtain ⟨obj, -, hrun⟩ := TenantManager.bulkUpdate_foreign st str checkFields { items := objs } fields hm ht hown
  rw [← bulkUpdate_valueError_iff (s := s) (ownRows (s.world.tenants t).pk)]
  constructor
  · intro h
    exact .inr (h.raises.mp ⟨_, s, hrun, crossTenant_isValueError, rfl⟩)
  · rintro (h | ⟨e, s', herror, he, hrows⟩)
    · exact absurd h hown
    · refine ⟨?_, iff_of_true ⟨_, s, hrun, crossTenant_isValueError, rfl⟩ ⟨e, s', herror, he, hrows⟩, ?_⟩
      · rw [hrun, herror]
        simp
      · rw [after_of_error hrun, after_of_error herror, hrows]

/-- Beside the manager's own methods: what `abulk_create`, `abulk_update` and
the query set of `all()` do. -/
theorem bulk_routes_iff (str : Value → String) (checkFields : List String → Except Exc Unit) (fields : List String)
    (hm : m.hasTenantColumn = true) (ht : s.world.contextVars.currentTenant = .some t) :
    (∀ route ∈ [abulkCreate st m objs, allBulkCreate st m objs],
      InsertAlike (TenantManager.bulkCreate st m { items := objs }) route s ↔
        (∀ obj ∈ objs, obj.tenantId ≠ .null) ∨
          takes m s.rows (inOrder objs) = false ∧
            takes m s.rows (inOrder (objs.map (filled (s.world.tenants t).pk))) = false) ∧
    (∀ route ∈ [abulkUpdate st m checkFields objs fields, allBulkUpdate st m checkFields objs fields],
      UpdateAlike (TenantManager.bulkUpdate st m str checkFields { items := objs } fields) route s ↔
        (∀ obj ∈ objs, obj.tenantId = .key (s.world.tenants t).pk) ∨
          ∃ e, updateChecks m checkFields objs fields = .error e ∧ IsValueError e) := by
  have hcreate : ∀ route ∈ [abulkCreate st m objs, allBulkCreate st m objs], route s = QuerySet.bulkCreate m objs s := by
    intro route hroute
    rcases List.mem_pair.mp hroute with rfl | rfl <;> exact superBulkCreate_run hm ht
  have hupdate : ∀ route ∈ [abulkUpdate st m checkFields objs fields, allBulkUpdate st m checkFields objs fields],
      route s = (ownRows (s.world.tenants t).pk).bulkUpdate m checkFields objs fields s := by
    intro route hroute
    rcases List.mem_pair.mp hroute with rfl | rfl <;> exact superBulkUpdate_run hm ht
  constructor
  · intro route hroute
    rw [InsertAlike.congr (hcreate route hroute)]
    exact insertAlike_iff hm ht
  · intro route hroute
    rw [UpdateAlike.congr (hupdate route hroute)]
    exact updateAlike_iff hm ht

end

/-! ## A product without a merchant -/

namespace TwoRegions

/-- `Product(sku="A1", merchant=...)`. -/
def ofMerchant (merchant : Value) : Instance := { tenantId := merchant, columns := AList.singleton "sku" (.text "A1") }

/-- A product of a merchant of its own is inserted alike. -/
theorem merchant_kept : InsertAlike (TenantManager.bulkCreate settings product { items := [ofMerchant (.key (.int 2))] })
    (abulkCreate settings product [ofMerchant (.key (.int 2))]) noRows := by
  refine ((bulk_routes_iff (t := 0) (fun _ => "") (fun _ => .ok ()) [] rfl rfl).1 _
    List.mem_cons_self).mpr (.inl fun obj hobj => ?_)
  rw [List.mem_singleton.mp hobj]
  exact nofun

/-- One without is inserted for tenant 0 by `bulk_create`, and for none by
`abulk_create`. -/
theorem merchant_not_filled_in : ¬ ∀ objs : List Instance,
    InsertAlike (TenantManager.bulkCreate settings product { items := objs })
      (abulkCreate settings product objs) noRows := by
  intro hclaim
  have hrows := (hclaim [ofMerchant .null]).rows
  have htenants :
      ((after (TenantManager.bulkCreate settings product { items := [ofMerchant .null] }) noRows).rows.map Row.tenant,
      (after (abulkCreate settings product [ofMerchant .null]) noRows).rows.map Row.tenant) =
        ([.some (.int 1)], [.none]) := rfl
  rw [hrows, Prod.mk.injEq] at htenants
  exact absurd (htenants.1.symm.trans htenants.2) (by decide)

end TwoRegions

end Boundary
