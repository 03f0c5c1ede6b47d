/-
Bulk writes of a container and of an iterator. The loops of `bulk_create` and
`bulk_update` go over the caller's iterable before Django does: of an iterator
nothing is left for Django to write, and the call goes through. And `bulk_update`
looks at the tenants of the instances, but writes to the tenant's rows: an instance
whose row is another's, or is gone, is not written either.
-/
import Boundary.BulkFacts
import Boundary.Stamping

namespace Boundary

open Exec

/-- Each instance, as the manager `prepare`s it, is inserted once; where the
call fails nothing is, and Django's own `bulk_create` of them fails so. -/
structure InsertsEach (m : ModelClass) (prepare : Instance → Instance) (objs : List Instance) (call : Orm (List Row))
    (s : Store) : Prop where
  inserted : ∀ written s', call s = .ok written s' → s' = { s with rows := s.rows ++ written } ∧
    ∃ inOrder : List Instance, inOrder.Perm objs ∧
      List.Forall₂ (fun obj row => IsRowOf m (prepare obj) row) inOrder written
  refused : ∀ e s', call s = .error e s' → s' = s ∧ QuerySet.bulkCreate m (objs.map prepare) s = .error e s

/-- Django's own `bulk_update`, which keeps every row, goes through. -/
def Accepts (m : ModelClass) (checkFields : List String → Except Exc Unit) (objs : List Instance) (fields : List String)
    (s : Store) : Prop :=
  ∃ n rows, QuerySet.bulkUpdate m checkFields (fun _ => true) objs fields s = .ok n { s with rows }

/-- Every instance has a row; a row holds the fields of each instance it is of, and
is as it was where it is of none. -/
structure UpdatesAll (m : ModelClass) (pk : PrimaryKey) (objs : List Instance) (fields : List String)
    (rows rows' : List Row) : Prop where
  found : ∀ obj ∈ objs, ∃ row ∈ rows, obj.pk = .some row.pk
  rows : List.Forall₂ (fun row row' =>
    (∀ obj ∈ objs, obj.pk = .some row.pk → row' = assignFields m fields obj (.some pk) row) ∧
      ((∀ obj ∈ objs, obj.pk ≠ .some row.pk) → row' = row)) rows rows'

/-- Instances that are all the tenant's, and that Django accepts, are updated, each;
with another's among them it is a `ValueError`; and where it raises, nothing is
written. -/
structure UpdatesEach (m : ModelClass) (checkFields : List String → Except Exc Unit) (pk : PrimaryKey)
    (objs : List Instance) (fields : List String) (call : Orm Nat) (s : Store) : Prop where
  updated : (∀ obj ∈ objs, obj.tenantId = .key pk) → Accepts m checkFields objs fields s →
    ∃ n rows, call s = .ok n { s with rows } ∧ UpdatesAll m pk objs fields s.rows rows
  foreign : (¬ ∀ obj ∈ objs, obj.tenantId = .key pk) → ∃ e, call s = .error e s ∧ IsValueError e
  raising : ∀ e s', call s = .error e s' → s' = s

/-- Every instance has a row. Instances with one primary key have the same fields,
and one whose row is not the tenant's has the fields that are there. -/
structure InOwnRows (m : ModelClass) (pk : PrimaryKey) (objs : List Instance) (fields : List String) (rows : List Row) :
    Prop where
  found : ∀ obj ∈ objs, ∃ row ∈ rows, obj.pk = .some row.pk
  agree : ∀ row ∈ rows, ∀ obj ∈ objs, ∀ obj' ∈ objs, obj.pk = .some row.pk → obj'.pk = .some row.pk →
    assignFields m fields obj (.some pk) row = assignFields m fields obj' (.some pk) row
  others : ∀ row ∈ rows, row.tenant ≠ .some pk → ∀ obj ∈ objs, obj.pk = .some row.pk →
    assignFields m fields obj (.some pk) row = row

section

variable {st : Settings} {m : ModelClass} {str : Value → String} {checkFields : List String → Except Exc Unit}
  {t : TenantRef} {s : Store} {objs : Objs} {fields : List String}

/-! ## Inserting -/

/-- A loop that prepares the instances and then Django's `bulk_create` of what
is left of the iterable. -/
theorem insertsEach_iff {prepare : Instance → Instance} (hprepare : ∀ obj, (prepare obj).pk = obj.pk) :
    InsertsEach m prepare objs.items (QuerySet.bulkCreate m (objs.next (objs.items.map prepare))) s ↔
      objs.oneShot = false ∨ objs.items = [] := by
  constructor
  · intro h
    by_contra hnot
    rw [not_or, Bool.not_eq_false] at hnot
    rw [Objs.next_of_iterator hnot.1] at h
    obtain ⟨-, inOrder, hperm, hrows⟩ := h.inserted [] s rfl
    cases hrows
    exact hnot.2 (List.nil_perm.mp hperm)
  · intro h
    rw [Objs.next_map h]
    refine ⟨fun written s' hrun => ?_, fun e s' hrun => ?_⟩
    · obtain ⟨hs', hrows⟩ := bulkCreate_ok hrun
      rw [inOrder_map hprepare, List.forall₂_map_left_iff] at hrows
      exact ⟨hs', inOrder objs.items, inOrder_perm _, hrows⟩
    · obtain rfl := bulkCreate_failsClean _ _ _ _ hrun
      exact ⟨rfl, hrun⟩

/-! ## Updating -/

theorem mapM_prepFields {pk : PrimaryKey} {items : List Instance} (hown : ∀ obj ∈ items, obj.tenantId = .key pk) :
    items.mapM (prepFields m fields) =
      .ok (items.map (·, if fields.any (isTenantField m) then .some pk else .none)) := by
  induction items with
  | nil => rfl
  | cons obj items ih =>
    have hobj : prepFields m fields obj = .ok (obj, if fields.any (isTenantField m) then .some pk else .none) := by
      unfold prepFields
      rw [hown obj List.mem_cons_self]
      split <;> rfl
    rw [List.mapM_cons, hobj, ih fun obj' hobj' => hown obj' (List.mem_cons_of_mem _ hobj')]
    rfl

/-- The tenant of the instances is written with the tenant's field only. -/
theorem assignFields_tenant (pk : PrimaryKey) (obj : Instance) (row : Row) :
    assignFields m fields obj (if fields.any (isTenantField m) then .some pk else .none) row =
      assignFields m fields obj (.some pk) row := by
  split
  next => rfl
  next hnone =>
    refine List.foldl_ext _ _ _ fun row' field hfield => ?_
    have hplain : ¬ isTenantField m field = true := fun h => hnone (List.any_eq_true.mpr ⟨field, hfield, h⟩)
    rw [assignField, assignField, if_neg hplain, if_neg hplain]

/-- The fields of the first instance with the row's key, where the row is kept. -/
theorem updated_eq {pk : PrimaryKey} (qs : QuerySet) (items : List Instance) (row : Row) :
    updated m qs fields (items.map (·, if fields.any (isTenantField m) then .some pk else .none)) row =
      if qs row then (items.find? (·.pk == .some row.pk)).map (assignFields m fields · (.some pk) row) else .none := by
  unfold updated
  rw [List.find?_map, Option.map_map]
  refine if_congr Iff.rfl (Option.map_congr fun obj _ => ?_) rfl
  exact assignFields_tenant pk obj row

/-- The rows of the tenant alone, rewritten, are all the instances' exactly where
each instance is in a row of the tenant's or changes none. -/
theorem updatesAll_ownRows_iff {pk : PrimaryKey} {items : List Instance} {rows : List Row} :
    UpdatesAll m pk items fields rows
        (rewritten (updated m (ownRows pk) fields
          (items.map (·, if fields.any (isTenantField m) then .some pk else .none))) rows) ↔
      InOwnRows m pk items fields rows := by
  simp only [rewritten, updated_eq]
  constructor
  · rintro ⟨hfound, hrows⟩
    rw [List.forall₂_map_right_iff, List.forall₂_same] at hrows
    refine ⟨hfound, fun row hrow obj hobj obj' hobj' hkey hkey' => ?_, fun row hrow hother obj hobj hkey => ?_⟩
    · exact ((hrows row hrow).1 obj hobj hkey).symm.trans ((hrows row hrow).1 obj' hobj' hkey')
    · have hsame := (hrows row hrow).1 obj hobj hkey
      rw [if_neg (by simpa [ownRows] using hother)] at hsame
      exact hsame.symm
  · intro h
    refine ⟨h.found, ?_⟩
    rw [List.forall₂_map_right_iff, List.forall₂_same]
    refine fun row hrow => ⟨fun obj hobj hkey => ?_, fun hnone => ?_⟩
    · split
      next =>
        cases hfind : items.find? (·.pk == .some row.pk) with
        | none => exact absurd (beq_iff_eq.mpr hkey) (List.find?_eq_none.mp hfind obj hobj)
        | some first =>
          have hfirst : first.pk = .some row.pk := by simpa using List.find?_some hfind
          exact h.agree row hrow first (List.mem_of_find?_eq_some hfind) obj hobj hfirst hkey
      next hother => exact (h.others row hrow (by simpa [ownRows] using hother) obj hobj hkey).symm
    · have hfind : items.find? (·.pk == .some row.pk) = .none :=
        List.find?_eq_none.mpr fun obj hobj hkey => hnone obj hobj (beq_iff_eq.mp hkey)
      rw [hfind]
      split <;> rfl

/-- What is written already is in rows of the tenant's or changes none. -/
theorem UpdatesAll.inOwnRows {pk : PrimaryKey} {items : List Instance} {rows : List Row}
    (h : UpdatesAll m pk items fields rows rows) : InOwnRows m pk items fields rows := by
  have hrows := List.forall₂_same.mp h.rows
  exact ⟨h.found, fun row hrow obj hobj obj' hobj' hkey hkey' =>
    ((hrows row hrow).1 obj hobj hkey).symm.trans ((hrows row hrow).1 obj' hobj' hkey'),
    fun row hrow _ obj hobj hkey => ((hrows row hrow).1 obj hobj hkey).symm⟩

/-- What Django accepts over every row it accepts over the tenant's, where no other
row would change. -/
theorem updateFrom_ownRows {pk : PrimaryKey} {items : List Instance} {rows rows' : List Row}
    (hin : InOwnRows m pk items fields rows)
    (h : updateFrom m (updated m (fun _ => true) fields
      (items.map (·, if fields.any (isTenantField m) then .some pk else .none))) [] rows = .some rows') :
    updateFrom m (updated m (ownRows pk) fields
      (items.map (·, if fields.any (isTenantField m) then .some pk else .none))) [] rows = .some rows' := by
  refine updateFrom_of_kept (fun row hrow => ?_) h
  rw [updated_eq, updated_eq, if_pos rfl]
  by_cases hown : ownRows pk row = true
  · rw [if_pos hown]
    exact .inl rfl
  rw [if_neg hown]
  cases hfind : items.find? (·.pk == .some row.pk) with
  | none => exact .inl rfl
  | some obj =>
    have hkey : obj.pk = .some row.pk := by simpa using List.find?_some hfind
    refine .inr ⟨rfl, congrArg Option.some ?_⟩
    exact hin.others row hrow (by simpa [ownRows] using hown) obj (List.mem_of_find?_eq_some hfind) hkey

theorem updatesEach_foreign (hm : m.hasTenantColumn = true) (ht : s.world.contextVars.currentTenant = .some t)
    (hforeign : ¬ ∀ obj ∈ objs.items, obj.tenantId = .key (s.world.tenants t).pk) :
    UpdatesEach m checkFields (s.world.tenants t).pk objs.items fields
      (TenantManager.bulkUpdate st m str checkFields objs fields) s := by
  obtain ⟨obj, -, hrun⟩ := TenantManager.bulkUpdate_foreign st str checkFields objs fields hm ht hforeign
  refine ⟨fun h => absurd h hforeign, fun _ => ⟨_, hrun, crossTenant_isValueError⟩, fun e s' h => ?_⟩
  rw [hrun] at h
  cases h
  rfl

/-- Of instances that are all the tenant's, only what Django accepts is promised. -/
theorem updatesEach_own_iff (hm : m.hasTenantColumn = true) (ht : s.world.contextVars.currentTenant = .some t)
    (hown : ∀ obj ∈ objs.items, obj.tenantId = .key (s.world.tenants t).pk) :
    UpdatesEach m checkFields (s.world.tenants t).pk objs.items fields
        (TenantManager.bulkUpdate st m str checkFields objs fields) s ↔
      (Accepts m checkFields objs.items fields s →
        ∃ rows, (∃ n, (ownRows (s.world.tenants t).pk).bulkUpdate m checkFields (objs.next objs.items) fields s =
            .ok n { s with rows }) ∧
          UpdatesAll m (s.world.tenants t).pk objs.items fields s.rows rows) := by
  have hrun := TenantManager.bulkUpdate_own st str checkFields objs fields hm ht hown
  constructor
  · intro h haccepts
    obtain ⟨n, rows, hok, hall⟩ := h.updated hown haccepts
    exact ⟨rows, ⟨n, hrun.symm.trans hok⟩, hall⟩
  · intro h
    refine ⟨fun _ haccepts => ?_, fun hforeign => absurd hown hforeign, fun e s' herror => ?_⟩
    · obtain ⟨rows, ⟨n, hok⟩, hall⟩ := h haccepts
      exact ⟨n, rows, hrun.trans hok, hall⟩
    · exact bulkUpdate_failsClean s e s' (hrun.symm.trans herror)

theorem updatesEach_iff (hm : m.hasTenantColumn = true) (ht : s.world.contextVars.currentTenant = .some t) :
    UpdatesEach m checkFields (s.world.tenants t).pk objs.items fields
        (TenantManager.bulkUpdate st m str checkFields objs fields) s ↔
      (¬ ∀ obj ∈ objs.items, obj.tenantId = .key (s.world.tenants t).pk) ∨ ¬ Accepts m checkFields objs.items fields s ∨
        UpdatesAll m (s.world.tenants t).pk objs.items fields s.rows s.rows ∨
          objs.oneShot = false ∧ InOwnRows m (s.world.tenants t).pk objs.items fields s.rows := by
  by_cases hown : ∀ obj ∈ objs.items, obj.tenantId = .key (s.world.tenants t).pk
  swap
  · exact iff_of_true (updatesEach_foreign hm ht hown) (.inl hown)
  rw [updatesEach_own_iff hm ht hown, or_iff_right (not_not_intro hown), ← imp_iff_not_or]
  refine imp_congr_right fun haccepts => ?_
  obtain ⟨n, rows, haccepts⟩ := haccepts
  obtain ⟨hfields, hkeys, prepared, hprepared, hrows⟩ := bulkUpdate_ok_iff.mp ⟨n, haccepts⟩
  rw [mapM_prepFields hown] at hprepared
  obtain rfl := Except.ok.inj hprepared
  cases hshot : objs.oneShot with
  | false =>
    rw [Objs.next_of_container hshot]
    constructor
    · rintro ⟨rows', hok, hall⟩
      obtain ⟨-, -, _, hsame, hrows'⟩ := bulkUpdate_ok_iff.mp hok
      rw [mapM_prepFields hown] at hsame
      obtain rfl := Except.ok.inj hsame
      rw [updateFrom_eq hrows', List.nil_append] at hall
      exact .inr ⟨rfl, updatesAll_ownRows_iff.mp hall⟩
    · intro h
      have hin : InOwnRows m (s.world.tenants t).pk objs.items fields s.rows := h.elim UpdatesAll.inOwnRows And.right
      have hwritten := updateFrom_ownRows hin hrows
      refine ⟨rows, bulkUpdate_ok_iff.mpr ⟨hfields, hkeys, _, mapM_prepFields hown, hwritten⟩, ?_⟩
      rw [updateFrom_eq hwritten]
      exact updatesAll_ownRows_iff.mpr hin
  | true =>
    -- Django is left with no instance.
    rw [Objs.next_of_iterator hshot, bulkUpdate_nil _ hfields]
    constructor
    · rintro ⟨rows', ⟨n', hok⟩, hall⟩
      injection hok with _ hsame
      have hkept : s.rows = rows' := congrArg Store.rows hsame
      rw [← hkept] at hall
      exact .inl hall
    · rintro (hall | ⟨h, -⟩)
      · exact ⟨s.rows, ⟨0, rfl⟩, hall⟩
      · cases h

end

/-! ## A generator of products -/

namespace TwoRegions

/-- `Product(sku="A1")`, from a list or a generator. -/
def oneProduct (oneShot : Bool) : Objs := { items := [{ columns := AList.singleton "sku" (.text "A1") }], oneShot }

/-- The tenant 0's product 1 in memory, its sku to be written. -/
def renamed : Instance :=
  { pk := .some (.int 1), tenantId := .key (.int 1), columns := AList.singleton "sku" (.text "A2") }

/-- The product 1, as a tenant's row. -/
def productRow (tenant : PrimaryKey) : Row := ⟨.int 1, .some tenant, AList.singleton "sku" (.text "A1")⟩

def rowOfTenant (tenant : PrimaryKey) : Store := { noRows with rows := [productRow tenant] }

theorem renamed_ne (tenant : PrimaryKey) :
    assignFields product ["sku"] renamed (.some (.int 1)) (productRow tenant) ≠ productRow tenant := by
  intro hsame
  have hsku := congrArg (fun row : Row => row.columns.lookup "sku") hsame
  have hkept : (productRow tenant).columns.lookup "sku" = .some (.text "A1") := rfl
  have hnew : (assignFields product ["sku"] renamed (.some (.int 1)) (productRow tenant)).columns.lookup "sku" =
      .some (.text "A2") := rfl
  rw [hnew, hkept] at hsku
  exact absurd hsku (by decide)

end TwoRegions

end Boundary
