/-
`UnscopedManager`, over the databases a router chooses between: which alias a
creation goes to, and whose row it is.

`create` is the manager's own, and `bulk_create`; the other two come from the
query set, which creates through `save` of an instance that no one has marked,
so that a missing tenant is filled in from the context there. A query set that
has written reads from where it writes; the manager itself reads and writes
where the router would have it read.
-/
import Boundary.BulkFacts
import Boundary.Stamping

namespace Boundary

open Exec TenantManager

/-- `Store`, with the model's table on every alias. -/
structure Fleet where
  world : World
  dicts : DictRef → Dict
  tables : Alias → List Row

def Fleet.store (f : Fleet) (a : Alias) : Store := { world := f.world, dicts := f.dicts, rows := f.tables a }

def Fleet.withStore (a : Alias) (s : Store) (f : Fleet) : Fleet :=
  { world := s.world, dicts := s.dicts, tables := Function.update f.tables a s.rows }

/-- What is run on one alias. -/
def onAlias {α : Type} (a : Alias) (x : Orm α) : EStateM Exc Fleet α := zoom (·.store a) (Fleet.withStore a) x

/-- A database router, asked about the model in the state of the world. -/
structure Router where
  dbForRead : World → Alias
  dbForWrite : World → Alias

inductive Creation where
  | create (kwargs : Dict)
  | bulkCreate (objs : Objs)
  | getOrCreate (defaults : Option Dict) (kwargs : Dict)
  | updateOrCreate (defaults createDefaults : Option Dict) (kwargs : Dict)

section

variable (st : Settings) (m : ModelClass) (router : Router)

namespace UnscopedManager

/-- `get_queryset` of a plain manager. -/
def getQueryset : QuerySet := fun _ => true

def create (kwargs : Dict) : Orm Row :=
  -- `Model() got unexpected keyword arguments`
  if !kwargs.keys.all m.hasField then throw (.other "TypeError")
  else do
    let tenants ← tenantsNow
    let instance_ ← ofExcept (instantiate m tenants kwargs)
    save st m { instance_ with skipAutoPopulate := true } true

end UnscopedManager

/-- Answers the rows it created. -/
def Creation.run (c : Creation) : EStateM Exc Fleet (List Row) := fun f =>
  match c with
  -- `using=self.db`
  | .create kwargs => onAlias (router.dbForRead f.world) ((fun row => [row]) <$> UnscopedManager.create st m kwargs) f
  | .bulkCreate objs => onAlias (router.dbForWrite f.world) (UnscopedManager.bulkCreate m objs) f
  | .getOrCreate defaults kwargs =>
    onAlias (router.dbForWrite f.world)
      ((fun found : Row × Bool => if found.2 then [found.1] else []) <$>
        UnscopedManager.getQueryset.getOrCreate st m defaults kwargs) f
  | .updateOrCreate defaults createDefaults kwargs =>
    onAlias (router.dbForWrite f.world)
      ((fun found : Row × Bool => if found.2 then [found.1] else []) <$>
        UnscopedManager.getQueryset.updateOrCreate st m defaults createDefaults kwargs) f

/-- The instances the caller asks to be created on a table, with what the
caller says of their tenant. -/
def Creation.asked (c : Creation) (tenants : TenantRef → Tenant) (rows : List Row) : Except Exc (List Instance) :=
  match c with
  | .create kwargs =>
    if !kwargs.keys.all m.hasField then .error (.other "TypeError") else ([·]) <$> instantiate m tenants kwargs
  | .bulkCreate objs => .ok objs.items
  | .getOrCreate defaults kwargs => lookedUp kwargs (defaults.getD ∅)
  | .updateOrCreate defaults createDefaults kwargs => lookedUp kwargs (createDefaults.getD (defaults.getD ∅))
where
  /-- Where the lookup finds no row. -/
  lookedUp (kwargs defaults : Dict) : Except Exc (List Instance) :=
    match matching m tenants rows UnscopedManager.getQueryset kwargs.entries with
    | .ok [] => do
      let params ← extractModelParams m defaults kwargs
      ([·]) <$> instantiate m tenants params
    | .ok _ => .ok []
    | .error e => .error e

/-- The alias the router has the model written on. -/
def Router.writes (f : Fleet) : Alias := router.dbForWrite f.world

/-- The creation puts the instances asked for, each with the tenant it was
given or none, on the alias written on, if the table there takes them; and
nothing else. -/
structure AsSupplied (c : Creation) (f : Fleet) : Prop where
  elsewhere : ∀ a, a ≠ router.writes f → (after (c.run st m router) f).tables a = f.tables a
  created : ∀ objs, c.asked m f.world.tenants (f.tables (router.writes f)) = .ok objs → objs ≠ [] →
    takes m (f.tables (router.writes f)) (inOrder objs) = true → ∃ rows f', c.run st m router f = .ok rows f' ∧
      f'.tables (router.writes f) = f.tables (router.writes f) ++ rows ∧ List.Forall₂ (IsRowOf m) (inOrder objs) rows
  nothingElse : ∀ rows f', c.run st m router f = .ok rows f' → rows ≠ [] →
    ∃ objs, c.asked m f.world.tenants (f.tables (router.writes f)) = .ok objs ∧ objs ≠ [] ∧
      takes m (f.tables (router.writes f)) (inOrder objs) = true

/-- The instance names its tenant, or the column has none; or the table takes
it neither so nor with the active tenant. -/
def TenantGiven (f : Fleet) (obj : Instance) : Prop :=
  m.hasTenantColumn = false ∨ obj.tenantId ≠ .null ∨
    takes m (f.tables (router.writes f)) [obj] = false ∧
      ∀ t, f.world.contextVars.currentTenant = .some t →
        takes m (f.tables (router.writes f)) [filled (f.world.tenants t).pk obj] = false

def Creation.Safe (c : Creation) (f : Fleet) : Prop :=
  match c with
  | .create _ =>
    router.dbForRead f.world = router.writes f ∨
      ∀ objs, c.asked m f.world.tenants (f.tables (router.writes f)) = .ok objs →
        takes m (f.tables (router.dbForRead f.world)) objs = false ∧ takes m (f.tables (router.writes f)) objs = false
  | .bulkCreate objs =>
    objs.oneShot = false ∨ objs.items = [] ∨ takes m (f.tables (router.writes f)) (inOrder objs.items) = false
  | .getOrCreate _ _ | .updateOrCreate _ _ _ =>
    ∀ obj, c.asked m f.world.tenants (f.tables (router.writes f)) = .ok [obj] → TenantGiven m router f obj

end

section

variable {st : Settings} {m : ModelClass} {router : Router} {c : Creation} {f : Fleet} {s s' : Store} {t : TenantRef}
  {obj : Instance}

/-! ## One alias -/

theorem onAlias_run {α : Type} (a : Alias) (x : Orm α) (f : Fleet) :
    onAlias a x f = match x (f.store a) with
      | .ok v s => .ok v (f.withStore a s)
      | .error e s => .error e (f.withStore a s) := by
  unfold onAlias zoom
  cases x (f.store a) <;> rfl

theorem after_onAlias_of_ne {α : Type} {a b : Alias} (hb : b ≠ a) (x : Orm α) (f : Fleet) :
    (after (onAlias a x) f).tables b = f.tables b := by
  unfold onAlias
  rw [after_zoom]
  exact Function.update_of_ne hb _ _

theorem withStore_store (a : Alias) (f : Fleet) : f.withStore a (f.store a) = f := by
  unfold Fleet.withStore Fleet.store
  rw [Function.update_eq_self]

theorem inOrder_singleton (obj : Instance) : inOrder [obj] = [obj] := by
  unfold inOrder
  cases hpk : obj.pk <;> simp [hpk]

theorem takes_singleton {rows : List Row} : takes m rows [obj] = true ↔ ∃ row, rowFor m rows obj = .ok row := by
  unfold takes
  cases rowFor m rows obj with
  | ok row => simp [takes]
  | error e => simp

theorem rowFor_isRowOf {rows : List Row} {row : Row} (h : rowFor m rows obj = .ok row) : IsRowOf m obj row := by
  unfold rowFor at h
  cases hprep : prepTenantId m obj.tenantId with
  | error e => simp [hprep] at h
  | ok tenant =>
    simp only [hprep] at h
    split at h
    · cases h
    · cases h
      exact ⟨fun pk hpk => by rw [hpk]; rfl, hprep, rfl⟩

/-! ## Creations that create nothing -/

/-- The run creates nothing, and leaves the other aliases. -/
structure CreatesNothing (st : Settings) (m : ModelClass) (router : Router) (c : Creation) (f : Fleet) : Prop where
  elsewhere : ∀ a, a ≠ router.writes f → (after (c.run st m router) f).tables a = f.tables a
  rows : ∀ rows f', c.run st m router f = .ok rows f' → rows = []

/-- To create nothing is right where nothing is asked for that the table
takes. -/
theorem CreatesNothing.asSupplied_iff (h : CreatesNothing st m router c f) :
    AsSupplied st m router c f ↔
      ∀ objs, c.asked m f.world.tenants (f.tables (router.writes f)) = .ok objs → objs ≠ [] →
        takes m (f.tables (router.writes f)) (inOrder objs) = false := by
  constructor
  · intro hsupplied objs hasked hne
    rw [← Bool.not_eq_true]
    intro htakes
    obtain ⟨rows, f', hrun, -, hrows⟩ := hsupplied.created objs hasked hne htakes
    rw [h.rows rows f' hrun, List.forall₂_nil_right_iff] at hrows
    have hperm := inOrder_perm objs
    rw [hrows] at hperm
    exact hne (List.nil_perm.mp hperm)
  · intro hnone
    refine ⟨h.elsewhere, fun objs hasked hne htakes => ?_, fun rows f' hrun hne => absurd (h.rows rows f' hrun) hne⟩
    rw [hnone objs hasked hne] at htakes
    cases htakes

/-! ## Creating one row -/

/-- `save` of a new instance: a missing tenant is the context's, unless the
instance is marked. -/
theorem save_run (st : Settings) (m : ModelClass) (obj : Instance) (s : Store) :
    save st m obj true s =
      if m.hasTenantColumn = true ∧ obj.tenantId = .null ∧ obj.skipAutoPopulate = false then
        match s.world.contextVars.currentTenant with
        | .some t => insertInstance m (filled (s.world.tenants t).pk obj) s
        | .none => (throw (.tenantNotSetError ("No " ++ st.tenantLabel ++ " is active in context. Set a " ++
            st.tenantLabel ++ " via TenantContext.using() or TenantMiddleware.")) : Orm Row) s
      else insertInstance m obj s := by
  unfold save
  by_cases hmissing : m.hasTenantColumn = true ∧ obj.tenantId = .null ∧ obj.skipAutoPopulate = false
  · obtain ⟨hm, hnull, hskip⟩ := hmissing
    rw [if_pos (by simp [hm, hnull, hskip]), if_pos ⟨hm, hnull, hskip⟩]
    cases ht : s.world.contextVars.currentTenant with
    | none => simp [bind_run, context, zoom, TenantContext.require, TenantContext.get, ht, throw_run]
    | some t =>
      have hset : setattr m s.world.tenants obj m.fkField (.tenant t) = .ok (filled (s.world.tenants t).pk obj) := by
        unfold setattr filled
        rw [if_pos ((ModelClass.isFk_iff hm).mpr rfl), if_pos hnull]
      simp only [bind_run, context_require ht, tenantsNow, hset, ofExcept_ok_run]
      rfl
  · rw [if_neg hmissing, if_neg (by simpa [and_assoc] using hmissing)]
    rfl

/-- Where the lookup finds nothing, `get_or_create` saves a new instance. -/
theorem getOrCreate_run (st : Settings) {qs : QuerySet} (defaults : Option Dict) {kwargs params : Dict}
    (hfound : matching m s.world.tenants s.rows qs kwargs.entries = .ok [])
    (hparams : extractModelParams m (defaults.getD ∅) kwargs = .ok params)
    (hobj : instantiate m s.world.tenants params = .ok obj) :
    qs.getOrCreate st m defaults kwargs s =
      match save st m obj true s with
      | .ok row s' => .ok (row, true) s'
      | .error e s' => .error e s' := by
  have hget : qs.get m kwargs s = .ok .none s := by
    unfold QuerySet.get
    rw [hfound]
  have hcreate : QuerySet.create st m params s = save st m obj true s := by
    unfold QuerySet.create
    simp only [bind_run, tenantsNow, hobj, ofExcept_ok_run]
  unfold QuerySet.getOrCreate
  rw [bind_run, hget]
  simp only [hparams, bind_run, ofExcept_ok_run, tryCatch_run, hcreate]
  cases hsave : save st m obj true s with
  | ok row s' => rfl
  | error e s' =>
    obtain rfl := save_failsClean obj true s e s' hsave
    simp only
    split
    · rw [bind_run, hget]
      rfl
    · rfl

theorem insertInstance_taken (htakes : takes m s.rows [obj] = true) :
    ∃ row, IsRowOf m obj row ∧ insertInstance m obj s = .ok row { s with rows := s.rows ++ [row] } := by
  obtain ⟨row, hrow⟩ := takes_singleton.mp htakes
  refine ⟨row, rowFor_isRowOf hrow, ?_⟩
  rw [insertInstance_run, hrow]

theorem insertInstance_refused (hrefuses : takes m s.rows [obj] = false) : ∃ e, insertInstance m obj s = .error e s := by
  cases hrow : rowFor m s.rows obj with
  | ok row =>
    rw [takes_singleton.mpr ⟨row, hrow⟩] at hrefuses
    cases hrefuses
  | error e =>
    refine ⟨e, ?_⟩
    rw [insertInstance_run, hrow]

/-! ## Looking up first -/

/-- The creation is a lookup on the alias written on, which creates through
`save` where it finds nothing. -/
structure LooksUp (st : Settings) (m : ModelClass) (router : Router) (c : Creation) (x : Orm (Row × Bool)) (f : Fleet) :
    Prop where
  run : c.run st m router f =
    onAlias (router.writes f) ((fun found : Row × Bool => if found.2 then [found.1] else []) <$> x) f
  asks : ∀ objs, c.asked m f.world.tenants (f.tables (router.writes f)) = .ok objs → objs ≠ [] → ∃ obj, objs = [obj] ∧
    (m.hasTenantColumn = true → obj.skipAutoPopulate = false) ∧
      x (f.store (router.writes f)) = match save st m obj true (f.store (router.writes f)) with
        | .ok row s' => .ok (row, true) s'
        | .error e s' => .error e s'
  asked : ∀ row s', x (f.store (router.writes f)) = .ok (row, true) s' →
    ∃ obj, c.asked m f.world.tenants (f.tables (router.writes f)) = .ok [obj]

namespace LooksUp

variable {x : Orm (Row × Bool)}

theorem elsewhere (h : LooksUp st m router c x f) (a : Alias) (ha : a ≠ router.writes f) :
    (after (c.run st m router) f).tables a = f.tables a := by
  rw [after, h.run]
  exact after_onAlias_of_ne ha _ f

theorem run_ok (h : LooksUp st m router c x f) {row : Row} {created : Bool}
    (hx : x (f.store (router.writes f)) = .ok (row, created) s') :
    c.run st m router f = .ok (if created then [row] else []) (f.withStore (router.writes f) s') := by
  rw [h.run, onAlias_run, map_run, hx]

theorem run_error (h : LooksUp st m router c x f) {e : Exc} (hx : x (f.store (router.writes f)) = .error e s') :
    c.run st m router f = .error e (f.withStore (router.writes f) s') := by
  rw [h.run, onAlias_run, map_run, hx]

/-- It fails: right if the table would have failed it. -/
theorem asSupplied_of_error (h : LooksUp st m router c x f)
    (hasked : c.asked m f.world.tenants (f.tables (router.writes f)) = .ok [obj]) {e : Exc}
    (hx : x (f.store (router.writes f)) = .error e s') :
    AsSupplied st m router c f ↔ takes m (f.tables (router.writes f)) [obj] = false := by
  have hnothing : CreatesNothing st m router c f := by
    refine ⟨h.elsewhere, fun rows f' hok => ?_⟩
    rw [h.run_error hx] at hok
    cases hok
  rw [hnothing.asSupplied_iff, hasked]
  constructor
  · intro hnone
    have hrefuses := hnone [obj] rfl (List.cons_ne_nil _ _)
    rwa [inOrder_singleton] at hrefuses
  · intro hrefuses objs hobjs _
    cases hobjs
    rwa [inOrder_singleton]

/-- It inserts what it was asked to. -/
theorem asSupplied_of_inserts (h : LooksUp st m router c x f)
    (hasked : c.asked m f.world.tenants (f.tables (router.writes f)) = .ok [obj]) {row : Row}
    (htakes : takes m (f.tables (router.writes f)) [obj] = true) (hof : IsRowOf m obj row)
    (hx : x (f.store (router.writes f)) = .ok (row, true)
      { f.store (router.writes f) with rows := f.tables (router.writes f) ++ [row] }) : AsSupplied st m router c f := by
  refine ⟨h.elsewhere, fun objs hobjs _ _ => ?_, fun _ _ _ _ => ⟨[obj], hasked, List.cons_ne_nil _ _, ?_⟩⟩
  · rw [hasked] at hobjs
    cases hobjs
    refine ⟨_, _, h.run_ok hx, ?_, ?_⟩
    · exact Function.update_self _ _ _
    · rw [inOrder_singleton]
      exact .cons hof .nil
  · rwa [inOrder_singleton]

/-- It inserts a row with a tenant no one gave. -/
theorem not_asSupplied_of_filled (h : LooksUp st m router c x f)
    (hasked : c.asked m f.world.tenants (f.tables (router.writes f)) = .ok [obj]) (hnull : obj.tenantId = .null)
    {pk : PrimaryKey} {row : Row} (hof : IsRowOf m (filled pk obj) row)
    (hx : x (f.store (router.writes f)) = .ok (row, true) s') : ¬ AsSupplied st m router c f := by
  intro hsupplied
  have hrun := h.run_ok hx
  obtain ⟨objs, hobjs, -, htakes⟩ := hsupplied.nothingElse _ _ hrun (List.cons_ne_nil _ _)
  obtain ⟨rows, f', hrun', -, hrows⟩ := hsupplied.created [obj] hasked (List.cons_ne_nil _ _) (by
    rw [hasked] at hobjs
    cases hobjs
    exact htakes)
  rw [hrun] at hrun'
  cases hrun'
  rw [inOrder_singleton] at hrows
  obtain ⟨hrow, -⟩ := List.forall₂_cons.mp hrows
  exact filled_ne_null obj (hof.tenant_eq_none.mp (hrow.tenant_eq_none.mpr hnull))

/-- Nothing was to be created. -/
theorem asSupplied_of_not_asked (h : LooksUp st m router c x f)
    (hasked : ¬ ∃ obj, c.asked m f.world.tenants (f.tables (router.writes f)) = .ok [obj]) :
    AsSupplied st m router c f := by
  have hnothing : CreatesNothing st m router c f := by
    refine ⟨h.elsewhere, fun rows f' hok => ?_⟩
    cases hx : x (f.store (router.writes f)) with
    | error e s' =>
      rw [h.run_error hx] at hok
      cases hok
    | ok found s' =>
      obtain ⟨row, created⟩ := found
      rw [h.run_ok hx] at hok
      cases hok
      cases created with
      | false => rfl
      | true => exact absurd (h.asked row s' hx) hasked
  refine hnothing.asSupplied_iff.mpr fun objs hobjs hne => ?_
  obtain ⟨obj, rfl, -⟩ := h.asks objs hobjs hne
  exact absurd ⟨obj, hobjs⟩ hasked

theorem asSupplied_iff_given (h : LooksUp st m router c x f)
    (hasked : c.asked m f.world.tenants (f.tables (router.writes f)) = .ok [obj]) :
    AsSupplied st m router c f ↔ TenantGiven m router f obj := by
  obtain ⟨_, hsame, hskip, hx⟩ := h.asks [obj] hasked (List.cons_ne_nil _ _)
  cases hsame
  rw [save_run] at hx
  by_cases hmissing : m.hasTenantColumn = true ∧ obj.tenantId = .null
  · obtain ⟨hm, hnull⟩ := hmissing
    have hgiven : TenantGiven m router f obj ↔ takes m (f.tables (router.writes f)) [obj] = false ∧
        ∀ t, f.world.contextVars.currentTenant = .some t →
          takes m (f.tables (router.writes f)) [filled (f.world.tenants t).pk obj] = false := by
      simp [TenantGiven, hm, hnull]
    have hworld : (f.store (router.writes f)).world = f.world := rfl
    rw [if_pos ⟨hm, hnull, hskip hm⟩, hworld] at hx
    rw [hgiven]
    cases ht : f.world.contextVars.currentTenant with
    | none =>
      rw [ht] at hx
      rw [h.asSupplied_of_error hasked hx]
      exact ⟨fun hrefuses => ⟨hrefuses, nofun⟩, And.left⟩
    | some t =>
      rw [ht] at hx
      simp only at hx
      by_cases htakes : takes m (f.tables (router.writes f)) [filled (f.world.tenants t).pk obj] = true
      · obtain ⟨row, hof, hinsert⟩ := insertInstance_taken (s := f.store (router.writes f)) htakes
        rw [hinsert] at hx
        refine iff_of_false (h.not_asSupplied_of_filled hasked hnull hof hx) fun hboth => ?_
        rw [hboth.2 t rfl] at htakes
        cases htakes
      · rw [Bool.not_eq_true] at htakes
        obtain ⟨e, hinsert⟩ := insertInstance_refused (s := f.store (router.writes f)) htakes
        rw [hinsert] at hx
        rw [h.asSupplied_of_error hasked hx]
        refine ⟨fun hrefuses => ⟨hrefuses, fun t' ht' => ?_⟩, And.left⟩
        cases ht'
        exact htakes
  · rw [if_neg fun hthree => hmissing ⟨hthree.1, hthree.2.1⟩] at hx
    have hgiven : TenantGiven m router f obj := by
      rw [not_and_or, Bool.not_eq_true] at hmissing
      exact hmissing.imp_right .inl
    refine iff_of_true ?_ hgiven
    by_cases htakes : takes m (f.tables (router.writes f)) [obj] = true
    · obtain ⟨row, hof, hinsert⟩ := insertInstance_taken (s := f.store (router.writes f)) htakes
      rw [hinsert] at hx
      exact h.asSupplied_of_inserts hasked htakes hof hx
    · rw [Bool.not_eq_true] at htakes
      obtain ⟨e, hinsert⟩ := insertInstance_refused (s := f.store (router.writes f)) htakes
      rw [hinsert] at hx
      exact (h.asSupplied_of_error hasked hx).mpr htakes

theorem asSupplied_iff (h : LooksUp st m router c x f) :
    AsSupplied st m router c f ↔
      ∀ obj, c.asked m f.world.tenants (f.tables (router.writes f)) = .ok [obj] → TenantGiven m router f obj := by
  by_cases hasked : ∃ obj, c.asked m f.world.tenants (f.tables (router.writes f)) = .ok [obj]
  · obtain ⟨obj, hasked⟩ := hasked
    rw [h.asSupplied_iff_given hasked]
    constructor
    · intro hgiven obj' hobj'
      rw [hasked] at hobj'
      cases hobj'
      exact hgiven
    · intro hgiven
      exact hgiven obj hasked
  · exact iff_of_true (h.asSupplied_of_not_asked hasked) fun obj hobj => absurd ⟨obj, hobj⟩ hasked

end LooksUp

/-- Of the instances a lookup that finds nothing asks for. -/
theorem lookedUp_ok {tenants : TenantRef → Tenant} {rows : List Row} {kwargs defaults : Dict} {objs : List Instance}
    (h : Creation.asked.lookedUp m tenants rows kwargs defaults = .ok objs) (hne : objs ≠ []) :
    ∃ params obj, objs = [obj] ∧ matching m tenants rows UnscopedManager.getQueryset kwargs.entries = .ok [] ∧
      extractModelParams m defaults kwargs = .ok params ∧ instantiate m tenants params = .ok obj := by
  unfold Creation.asked.lookedUp at h
  split at h
  · next hfound =>
    cases hparams : extractModelParams m defaults kwargs with
    | error e =>
      rw [hparams] at h
      cases h
    | ok params =>
      rw [hparams] at h
      cases hobj : instantiate m tenants params with
      | error e =>
        simp only [bind, Except.bind, hobj] at h
        cases h
      | ok obj =>
        simp only [bind, Except.bind, hobj] at h
        cases h
        exact ⟨params, obj, rfl, hfound, rfl, hobj⟩
  · cases h
    exact absurd rfl hne
  · cases h

theorem lookedUp_of_created {kwargs defaults params : Dict} {row : Row}
    (hfound : matching m s.world.tenants s.rows UnscopedManager.getQueryset kwargs.entries = .ok [])
    (hparams : extractModelParams m defaults kwargs = .ok params) (hcreate : QuerySet.create st m params s = .ok row s') :
    ∃ obj, Creation.asked.lookedUp m s.world.tenants s.rows kwargs defaults = .ok [obj] := by
  obtain ⟨obj, hobj, -⟩ := create_ok_saves hcreate
  refine ⟨obj, ?_⟩
  unfold Creation.asked.lookedUp
  rw [hfound]
  simp only [hparams, bind, Except.bind, hobj]
  rfl

theorem getOrCreate_looksUp (st : Settings) (m : ModelClass) (router : Router) (defaults : Option Dict) (kwargs : Dict)
    (f : Fleet) : LooksUp st m router (.getOrCreate defaults kwargs)
      (UnscopedManager.getQueryset.getOrCreate st m defaults kwargs) f where
  run := rfl
  asks objs hasked hne := by
    obtain ⟨params, obj, rfl, hfound, hparams, hobj⟩ := lookedUp_ok hasked hne
    refine ⟨obj, rfl, fun hm => (instantiate_ok hm hobj).1, ?_⟩
    exact getOrCreate_run (s := f.store (router.writes f)) st defaults hfound hparams hobj
  asked row s' h := by
    rcases getOrCreate_ok h with ⟨hfalse, -⟩ | ⟨-, hfound, params, hparams, hcreate⟩
    · cases hfalse
    · exact lookedUp_of_created hfound hparams hcreate

theorem updateOrCreate_looksUp (st : Settings) (m : ModelClass) (router : Router) (defaults createDefaults : Option Dict)
    (kwargs : Dict) (f : Fleet) : LooksUp st m router (.updateOrCreate defaults createDefaults kwargs)
      (UnscopedManager.getQueryset.updateOrCreate st m defaults createDefaults kwargs) f where
  run := rfl
  asks objs hasked hne := by
    obtain ⟨params, obj, rfl, hfound, hparams, hobj⟩ := lookedUp_ok hasked hne
    refine ⟨obj, rfl, fun hm => (instantiate_ok hm hobj).1, ?_⟩
    have hcreate := getOrCreate_run (s := f.store (router.writes f)) st
      (.some (createDefaults.getD (defaults.getD ∅))) hfound hparams hobj
    unfold QuerySet.updateOrCreate
    simp only
    rw [bind_run, hcreate]
    cases save st m obj true (f.store (router.writes f)) <;> rfl
  asked row s' h := by
    rcases updateOrCreate_ok h with ⟨hfalse, -⟩ | ⟨-, hfound, params, hparams, hcreate⟩
    · cases hfalse
    · exact lookedUp_of_created hfound hparams hcreate

/-! ## Without looking up -/

theorem takes_map {g : Instance → Instance} (hg : ∀ rows obj, rowFor m rows (g obj) = rowFor m rows obj) :
    ∀ (rows : List Row) (objs : List Instance), takes m rows (objs.map g) = takes m rows objs
  | _, [] => rfl
  | rows, obj :: objs => by
    rw [List.map_cons, takes, takes, hg]
    cases rowFor m rows obj with
    | error e => rfl
    | ok row => exact takes_map hg (rows ++ [row]) objs

theorem bulkCreate_asSupplied_iff (objs : Objs) :
    AsSupplied st m router (.bulkCreate objs) f ↔ Creation.Safe m router (.bulkCreate objs) f := by
  have helsewhere : ∀ a, a ≠ router.writes f →
      (after (Creation.run st m router (.bulkCreate objs)) f).tables a = f.tables a :=
    fun a ha => after_onAlias_of_ne ha _ f
  have hrun : Creation.run st m router (.bulkCreate objs) f = onAlias (router.writes f)
      (QuerySet.bulkCreate m (objs.next (objs.items.map ({ · with skipAutoPopulate := true })))) f := rfl
  have hpk : ∀ obj : Instance, { obj with skipAutoPopulate := true }.pk = obj.pk := fun _ => rfl
  have htaken : ∀ rows, takes m rows (inOrder (objs.items.map ({ · with skipAutoPopulate := true }))) =
      takes m rows (inOrder objs.items) := by
    intro rows
    rw [inOrder_map hpk]
    exact takes_map (g := ({ · with skipAutoPopulate := true })) (fun _ _ => rfl) rows _
  by_cases hwhole : objs.oneShot = false ∨ objs.items = []
  · rw [Objs.next_map hwhole, onAlias_run] at hrun
    refine iff_of_true ⟨helsewhere, fun instances hasked _ htakes => ?_, fun rows f' hok hne => ?_⟩
      (hwhole.imp_right .inl)
    · cases hasked
      rw [← htaken] at htakes
      obtain ⟨written, s', hwrite⟩ := (bulkCreate_ok_iff (s := f.store (router.writes f)) _).mpr htakes
      rw [hwrite] at hrun
      obtain ⟨rfl, hrows⟩ := bulkCreate_ok hwrite
      rw [inOrder_map hpk, List.forall₂_map_left_iff] at hrows
      exact ⟨written, _, hrun, Function.update_self _ _ _, hrows.imp fun _ _ h => ⟨h.pk, h.tenant, h.columns⟩⟩
    · rw [hrun] at hok
      cases hwrite : QuerySet.bulkCreate m (objs.items.map ({ · with skipAutoPopulate := true }))
          (f.store (router.writes f)) with
      | error e s' =>
        rw [hwrite] at hok
        cases hok
      | ok written s' =>
        have htakes := (bulkCreate_ok_iff _).mp ⟨written, s', hwrite⟩
        rw [htaken] at htakes
        refine ⟨objs.items, rfl, fun hempty => ?_, htakes⟩
        rw [hwrite] at hok
        cases hok
        obtain ⟨-, hrows⟩ := bulkCreate_ok hwrite
        rw [hempty] at hrows
        exact hne (List.forall₂_nil_left_iff.mp hrows)
  · obtain ⟨hiterator, hsome⟩ := not_or.mp hwhole
    rw [Bool.not_eq_false] at hiterator
    rw [Objs.next_of_iterator hiterator] at hrun
    have hnothing : CreatesNothing st m router (.bulkCreate objs) f := by
      refine ⟨helsewhere, fun rows f' hok => ?_⟩
      rw [hrun] at hok
      cases hok
      rfl
    rw [hnothing.asSupplied_iff]
    constructor
    · intro hnone
      exact .inr (.inr (hnone _ rfl hsome))
    · rintro (h | h | h) instances hasked hne
      · exact absurd (.inl h) hwhole
      · exact absurd (.inr h) hwhole
      · cases hasked
        exact h

theorem create_run_ok (st : Settings) {kwargs : Dict} {rows : List Row} {objs : List Instance}
    (hasked : Creation.asked m (.create kwargs) s.world.tenants rows = .ok objs) :
    ∃ obj, objs = [obj] ∧ UnscopedManager.create st m kwargs s = insertInstance m obj s := by
  unfold Creation.asked at hasked
  unfold UnscopedManager.create
  simp only at hasked
  split at hasked
  · cases hasked
  next hnames =>
  rw [if_neg hnames]
  cases hobj : instantiate m s.world.tenants kwargs with
  | error e =>
    rw [hobj] at hasked
    cases hasked
  | ok obj =>
    rw [hobj] at hasked
    cases hasked
    refine ⟨obj, rfl, ?_⟩
    simp only [bind_run, tenantsNow, hobj, ofExcept_ok_run]
    rw [save_run, if_neg (by simp)]
    rfl

theorem create_run_error (st : Settings) {kwargs : Dict} {rows : List Row} {e : Exc}
    (hasked : Creation.asked m (.create kwargs) s.world.tenants rows = .error e) :
    UnscopedManager.create st m kwargs s = .error e s := by
  unfold Creation.asked at hasked
  unfold UnscopedManager.create
  simp only at hasked
  split at hasked
  · next hnames =>
    rw [if_pos hnames]
    cases hasked
    rfl
  next hnames =>
  rw [if_neg hnames]
  cases hobj : instantiate m s.world.tenants kwargs with
  | error e' =>
    rw [hobj] at hasked
    cases hasked
    simp only [bind_run, tenantsNow, hobj]
    rfl
  | ok obj =>
    rw [hobj] at hasked
    cases hasked

theorem create_asSupplied_iff (kwargs : Dict) :
    AsSupplied st m router (.create kwargs) f ↔ Creation.Safe m router (.create kwargs) f := by
  have hrun : Creation.run st m router (.create kwargs) f =
      onAlias (router.dbForRead f.world) ((fun row => [row]) <$> UnscopedManager.create st m kwargs) f := rfl
  rw [onAlias_run, map_run] at hrun
  -- A refused creation leaves every alias.
  have hrefused : ∀ {e}, UnscopedManager.create st m kwargs (f.store (router.dbForRead f.world)) =
      .error e (f.store (router.dbForRead f.world)) → CreatesNothing st m router (.create kwargs) f := by
    intro e he
    simp only [he, withStore_store] at hrun
    refine ⟨fun a _ => by rw [after_of_error hrun], fun rows f' hok => ?_⟩
    rw [hrun] at hok
    cases hok
  cases hasked : Creation.asked m (.create kwargs) f.world.tenants (f.tables (router.writes f)) with
  | error e =>
    have hnothing := hrefused (create_run_error (s := f.store (router.dbForRead f.world)) st hasked)
    have hnone : ∀ objs, Creation.asked m (.create kwargs) f.world.tenants (f.tables (router.writes f)) ≠ .ok objs := by
      intro objs hobjs
      rw [hasked] at hobjs
      cases hobjs
    rw [hnothing.asSupplied_iff]
    exact iff_of_true (fun objs hobjs => absurd hobjs (hnone objs)) (.inr fun objs hobjs => absurd hobjs (hnone objs))
  | ok objs =>
    obtain ⟨obj, rfl, hcreate⟩ := create_run_ok (s := f.store (router.dbForRead f.world)) st hasked
    have honly : ∀ {objs}, Creation.asked m (.create kwargs) f.world.tenants (f.tables (router.writes f)) = .ok objs →
        objs = [obj] := by
      intro objs hobjs
      rw [hasked] at hobjs
      exact (Except.ok.inj hobjs).symm
    by_cases htakes : takes m (f.tables (router.dbForRead f.world)) [obj] = true
    · obtain ⟨row, hof, hinsert⟩ := insertInstance_taken (s := f.store (router.dbForRead f.world)) htakes
      rw [← hcreate] at hinsert
      simp only [hinsert] at hrun
      by_cases hsame : router.dbForRead f.world = router.writes f
      · refine iff_of_true ⟨fun a ha => ?_, fun objs hobjs _ _ => ?_, fun _ _ _ _ => ?_⟩ (.inl hsame)
        · rw [after_of_ok hrun]
          exact Function.update_of_ne (hsame ▸ ha) _ _
        · rw [honly hobjs, inOrder_singleton]
          refine ⟨[row], _, hrun, ?_, .cons hof .nil⟩
          rw [← hsame]
          exact Function.update_self _ _ _
        · refine ⟨[obj], hasked, List.cons_ne_nil _ _, ?_⟩
          rw [inOrder_singleton, ← hsame]
          exact htakes
      · refine iff_of_false (fun h => ?_) ?_
        · have helsewhere := h.elsewhere _ hsame
          rw [after_of_ok hrun] at helsewhere
          have hgrown : f.tables (router.dbForRead f.world) ++ [row] = f.tables (router.dbForRead f.world) :=
            (Function.update_self (router.dbForRead f.world) _ f.tables).symm.trans helsewhere
          exact List.cons_ne_nil _ _ (List.append_right_eq_self.mp hgrown)
        · rintro (h | h)
          · exact hsame h
          · rw [(h _ hasked).1] at htakes
            cases htakes
    · rw [Bool.not_eq_true] at htakes
      obtain ⟨e, hinsert⟩ := insertInstance_refused (s := f.store (router.dbForRead f.world)) htakes
      rw [← hcreate] at hinsert
      rw [(hrefused hinsert).asSupplied_iff]
      constructor
      · intro hnone
        refine .inr fun objs hobjs => ?_
        have hrefuses := hnone [obj] hasked (List.cons_ne_nil _ _)
        rw [inOrder_singleton] at hrefuses
        rw [honly hobjs]
        exact ⟨htakes, hrefuses⟩
      · intro hsafe objs hobjs _
        rw [honly hobjs, inOrder_singleton]
        rcases hsafe with hsame | hboth
        · rwa [← hsame]
        · exact (hboth _ hasked).2

/-- Through `unscoped`, a tenant comes from the caller alone and the row goes
where the router has it written: `create` if the router reads where it
writes, `bulk_create` of what a loop leaves, and the other two if they do not
create a row without a tenant. -/
theorem unscoped_asSupplied_iff (st : Settings) (m : ModelClass) (router : Router) (c : Creation) (f : Fleet) :
    AsSupplied st m router c f ↔ c.Safe m router f := by
  cases c with
  | create kwargs => exact create_asSupplied_iff kwargs
  | bulkCreate objs => exact bulkCreate_asSupplied_iff objs
  | getOrCreate defaults kwargs => exact (getOrCreate_looksUp st m router defaults kwargs f).asSupplied_iff
  | updateOrCreate defaults createDefaults kwargs =>
    exact (updateOrCreate_looksUp st m router defaults createDefaults kwargs f).asSupplied_iff

end

/-! ## A product through `unscoped` -/

namespace TwoRegions

/-- Products are written on `default` and read on `replica`. -/
def replicated : Router := ⟨fun _ => "replica", fun _ => "default"⟩

/-- No products, and tenant 0 active. -/
def noProducts : Fleet where
  world := under 0
  dicts _ := ∅
  tables _ := []

def sku : Dict := AList.singleton "sku" (.text "A1")

/-- `unscoped.get_or_create(sku="A1")` makes it tenant 0's, and
`unscoped.create(sku="A1")` puts it on the replica. -/
theorem product_not_asSupplied :
    ¬ AsSupplied settings product replicated (.getOrCreate .none sku) noProducts ∧
      ¬ AsSupplied settings product replicated (.create sku) noProducts := by
  constructor
  · intro h
    rcases (getOrCreate_looksUp _ _ _ _ _ _).asSupplied_iff.mp h { columns := sku } rfl with hcolumn | hgiven | hrefused
    · cases hcolumn
    · exact hgiven rfl
    · cases hrefused.1
  · intro h
    have helsewhere := h.elsewhere "replica" (by decide)
    have hgrown :
        ((after ((Creation.create sku).run settings product replicated) noProducts).tables "replica").length = 1 := rfl
    rw [helsewhere] at hgrown
    cases hgrown

end TwoRegions

end Boundary
