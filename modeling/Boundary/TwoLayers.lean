/-
The ORM's filter and row-level security, side by side: outside every bypass
block they keep the same rows of a model with a tenant column, and what the
ORM saves is let through by the database exactly where it is the active
tenant's.
-/
import Boundary.VisibleRows
import Boundary.Stamping

namespace Boundary

open Exec TenantContext

variable {δ : Type} [DecidableEq δ]

/-- How the database holds the rows of a model: a tenant's key is cast from its
text, and the column tells apart the keys of its type. -/
structure HeldAs (s : SqlSession δ) (on : TableOn δ) (typed : PrimaryKey → Prop) (held : Row → SqlRow δ) : Prop where
  tenant : ∀ row, held row on.tenantColumn = row.tenant.bind fun pk => s.cast on.pgType pk.str
  cast : ∀ pk, typed pk → (s.cast on.pgType pk.str).isSome = true
  distinct : ∀ pk pk', typed pk → typed pk' → s.cast on.pgType pk.str = s.cast on.pgType pk'.str → pk = pk'

/-- On the alias the two layers keep the same rows, where the active tenant's
scope covers it: those of the manager's query set are those the policies show
and let be written, and what `save` stamps is among them. With no tenant the
one raises, in strict mode, and the other shows nothing. -/
structure LayersAgree (st : Settings) (m : ModelClass) (typed : PrimaryKey → Prop) (held : Row → SqlRow δ)
    (guard : Sql.Guard (SqlRow δ)) (a : Alias) (store : Store) : Prop where
  rows : ∀ t, store.world.contextVars.currentTenant = .some t →
    a ∈ aliasesFor st (.some (store.world.tenants t)) "default" →
    ∃ qs, TenantManager.getQueryset st m store = .ok qs store ∧
      ∀ row, (∀ pk ∈ row.tenant, typed pk) → guard.visible (held row) = qs row ∧ guard.writable (held row) = qs row
  stamped : ∀ t, store.world.contextVars.currentTenant = .some t →
    a ∈ aliasesFor st (.some (store.world.tenants t)) "default" →
    ∀ obj forceInsert row s', obj.tenantId = .null → obj.skipAutoPopulate = false →
      save st m obj forceInsert store = .ok row s' → guard.writable (held row) = true
  raises : store.world.contextVars.currentTenant = .none → st.strictMode = true →
    ∃ message, TenantManager.getQueryset st m store = .error (.tenantNotSetError message) store
  nothing : store.world.contextVars.currentTenant = .none → ∀ row, guard.visible (held row) = false

variable {env : RlsEnv δ} {s : SqlSession δ} {st : Settings} {c : Config} {w : World} {a : Alias} {on : TableOn δ}
  {m : ModelClass} {typed : PrimaryKey → Prop} {held : Row → SqlRow δ} {t : TenantRef} {row : Row}

/-- A row the policies let through is of the active tenant, and the other way. -/
theorem permitted_held (hheld : HeldAs s on typed held) (htyped : typed (c.world.tenants t).pk)
    (ht : c.world.contextVars.currentTenant = .some t) (ha : a ∈ aliasesFor st (.some (c.world.tenants t)) "default")
    (hclosed : openBypasses a c.stack = 0) (hrow : ∀ pk ∈ row.tenant, typed pk) :
    permitted st s on.pgType on.tenantColumn c a (held row) = (row.tenant == .some (c.world.tenants t).pk) := by
  obtain ⟨key, hkey⟩ := Option.isSome_iff_exists.mp (hheld.cast _ htyped)
  have hactive : activeTenantId st s on.pgType c a = .some key := by
    rw [activeTenantId, ht, Option.bind_some, if_pos ha, hkey]
  unfold permitted
  rw [hclosed, hactive, hheld.tenant]
  simp only [Nat.lt_irrefl, decide_false, Bool.false_or, Option.any_some]
  rw [Bool.eq_iff_iff, decide_eq_true_iff, beq_iff_eq]
  cases hpk : row.tenant with
  | none => simp
  | some pk =>
    rw [Option.bind_some, Option.some.injEq, ← hkey]
    constructor
    · exact hheld.distinct _ _ (hrow pk hpk) htyped
    · intro hsame
      rw [hsame]

/-- In every state of a mixed run, outside a bypass block, the two layers agree. -/
theorem layersAgree_of_run (hrun : MixedRun st w c) (hpg : isPostgresql st a = true)
    (hu : (c.world.connections a).usable = true) (hclosed : openBypasses a c.stack = 0)
    (hpoliced : Policed st s on env) (hheld : HeldAs s on typed held) (hm : m.hasTenantColumn = true)
    (htyped : ∀ t, c.world.contextVars.currentTenant = .some t → typed (c.world.tenants t).pk) {store : Store}
    (hstore : store.world = c.world) :
    LayersAgree st m typed held (s.guardOn on (c.world.connections a) a) a store := by
  have hstate := hrun.sessionState hpg hu
  have hguard := fun row => guard_of_sessionState hpoliced hpg hstate (held row)
  constructor
  · intro t ht ha
    rw [hstore] at ht ha
    refine ⟨_, TenantManager.getQueryset_run hm (hstore ▸ ht), fun row hrow => ?_⟩
    rw [(hguard row).1, (hguard row).2, permitted_held hheld (htyped t ht) ht ha hclosed hrow, hstore]
    exact ⟨rfl, rfl⟩
  · intro t ht ha obj forceInsert row s' hnull hskip hsave
    obtain ⟨htenant, -⟩ := save_ok hm ht hskip hsave
    rw [hnull] at htenant
    have htenant : row.tenant = .some (c.world.tenants t).pk := hstore ▸ htenant
    rw [hstore] at ht ha
    have hrow : ∀ pk ∈ row.tenant, typed pk := by
      intro pk hpk
      obtain rfl : (c.world.tenants t).pk = pk := Option.some.inj (htenant.symm.trans hpk)
      exact htyped t ht
    rw [(hguard row).2, permitted_held hheld (htyped t ht) ht ha hclosed hrow, htenant, beq_self_eq_true]
  · intro hnone hstrict
    refine ⟨"Query on " ++ m.name ++ " attempted with no active " ++ st.tenantLabel ++ ". Set a " ++ st.tenantLabel ++
      " via TenantContext.using() or TenantMiddleware.", ?_⟩
    simp only [TenantManager.getQueryset, bind_run, context, zoom, TenantContext.get, hnone, hstrict, if_true]
    rfl
  · intro hnone row
    rw [hstore] at hnone
    rw [(hguard row).1, permitted, hclosed, activeTenantId, hnone]
    rfl

/-! ## The shop's widgets, as rows of a model -/

/-- Sessions that cast the keys 1, 2 and 3. -/
def keyedSession : SqlSession Nat :=
  { shopSession with cast := fun _ text => [("1", 1), ("2", 2), ("3", 3)].lookup text }

def IsKey (pk : PrimaryKey) : Prop := pk ∈ [PrimaryKey.int 1, .int 2, .int 3]

/-- A widget, as the shop's table holds it. -/
def heldWidget (row : Row) : SqlRow Nat := fun column =>
  if column = "tenant_id" then row.tenant.bind fun pk => keyedSession.cast "bigint" pk.str else .none

theorem heldWidget_heldAs : HeldAs keyedSession shopWidgets IsKey heldWidget where
  tenant _ := rfl
  cast := by
    show ∀ pk ∈ [PrimaryKey.int 1, .int 2, .int 3], (keyedSession.cast shopWidgets.pgType pk.str).isSome = true
    decide
  distinct := by
    show ∀ pk pk', pk ∈ [PrimaryKey.int 1, .int 2, .int 3] → pk' ∈ [PrimaryKey.int 1, .int 2, .int 3] →
      keyedSession.cast shopWidgets.pgType pk.str = keyedSession.cast shopWidgets.pgType pk'.str → pk = pk'
    intro pk pk' hpk hpk'
    simp only [List.mem_cons, List.not_mem_nil, or_false] at hpk hpk'
    rcases hpk with rfl | rfl | rfl <;> rcases hpk' with rfl | rfl | rfl <;> decide

theorem layersAgree_of_run_shop :
    let c := widgetRun.foldl (step TwoRegions.settings) ⟨TwoRegions.autocommit, []⟩
    LayersAgree TwoRegions.settings TwoRegions.product IsKey heldWidget
      (keyedSession.guardOn shopWidgets (c.world.connections "default") "default") "default"
      ⟨c.world, fun _ => ∅, []⟩ := by
  have hpoliced : Policed TwoRegions.settings keyedSession shopWidgets shopRls :=
    { shopWidgets_policed with unset := fun _ => .inl rfl }
  refine layersAgree_of_run widgetRun_mixed (by decide) (by decide) (by decide) hpoliced heldWidget_heldAs rfl
    (fun t ht => ?_) rfl
  obtain rfl : 0 = t := Option.some.inj ht
  exact List.mem_cons_self

end Boundary
