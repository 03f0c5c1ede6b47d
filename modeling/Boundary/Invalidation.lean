/-
Resolves and tenant updates of one process, interleaved. A resolve is a
locked read of the cache, a load from the database and a locked write of the
cache; an update is a commit followed by a locked invalidation. Every row
carries the number of the commit that wrote it.
-/
import Boundary.ResolverFacts
import Boundary.Lib.Runs

namespace Boundary

open Exec

/-- The other fields of a row, and the commit that wrote it. -/
structure Versioned (φ : Type) where
  version : Nat
  fields : φ

/-- A row that knows the commit that wrote it. -/
abbrev VersionedRow (φ : Type) := TenantRow (Versioned φ)

def TenantRow.version {φ : Type} (row : VersionedRow φ) : Nat := row.fields.version

/-- How far a resolve is. -/
inductive Resolving (φ ν : Type) where
  /-- It did not find its key in the cache. -/
  | missed (lookup : Lookup ν)
  | loaded (lookup : Lookup ν) (tenant : VersionedRow φ)
  | returned (tenant : Option (VersionedRow φ))
  | raised

/-- A resolve, with the commits the invalidations that had completed when it
started followed, the latest of each tenant. -/
structure Resolve (φ ν : Type) where
  floor : PrimaryKey → Nat
  stage : Resolving φ ν

structure Process (φ ν : Type) where
  table : TenantTable (Versioned φ)
  cache : TenantCache (Versioned φ)
  commits : Nat := 0
  /-- The updates that are committed and not yet invalidated. -/
  pending : List (PrimaryKey × Nat) := []
  /-- The latest commit of a tenant a completed invalidation followed. -/
  invalidated : PrimaryKey → Nat := fun _ => 0
  resolves : Nat → Option (Resolve φ ν) := fun _ => .none

/-- A step of an update, or of a resolve. -/
inductive ProcessEvent (φ ν : Type) where
  | save (pk : PrimaryKey) (slug : String) (fields : φ)
  | delete (pk : PrimaryKey)
  | invalidate (pk : PrimaryKey) (version : Nat)
  | readCache (id : Nat) (lookup : Lookup ν) (now : Int)
  | load (id : Nat)
  | writeCache (id : Nat) (now : Int)

namespace Process

variable {φ ν : Type}

/-- An update of `pk` commits the table it leaves. -/
def commit (c : Process φ ν) (pk : PrimaryKey) (table : TenantTable (Versioned φ)) : Process φ ν :=
  { c with table, commits := c.commits + 1, pending := (pk, c.commits + 1) :: c.pending }

def setStage (c : Process φ ν) (id : Nat) (floor : PrimaryKey → Nat) (stage : Resolving φ ν) : Process φ ν :=
  { c with resolves := Function.update c.resolves id (.some ⟨floor, stage⟩) }

/-- The commit of a `save()`. -/
def save (c : Process φ ν) (pk : PrimaryKey) (slug : String) (fields : φ) : Process φ ν :=
  match c.table.save ⟨pk, slug, c.commits + 1, fields⟩ with
  | .ok table => c.commit pk table
  | .error _ => c

/-- The invalidation that follows the commit `version`. -/
def invalidate (c : Process φ ν) (pk : PrimaryKey) (version : Nat) : Process φ ν :=
  if (pk, version) ∈ c.pending then
    { c with
      cache := after (cacheInvalidate pk) c.cache
      pending := c.pending.erase (pk, version)
      invalidated := Function.update c.invalidated pk (max (c.invalidated pk) version) }
  else c

/-- A resolve starts. -/
def readCache (conf : ResolverSettings ν) (c : Process φ ν) (id : Nat) (lookup : Lookup ν) (now : Int) : Process φ ν :=
  match c.resolves id with
  | .some _ => c
  | .none =>
    match cacheGet conf now (lookup.key conf) c.cache with
    | .ok (.some tenant) cache => { c with cache }.setStage id c.invalidated (.returned (.some tenant))
    | .ok .none cache => { c with cache }.setStage id c.invalidated (.missed lookup)
    | .error _ cache => { c with cache }.setStage id c.invalidated .raised

def load (conf : ResolverSettings ν) (c : Process φ ν) (id : Nat) : Process φ ν :=
  match c.resolves id with
  | .some ⟨floor, .missed lookup⟩ =>
    match lookup.load conf c.table with
    | .ok (.some tenant) => c.setStage id floor (.loaded lookup tenant)
    | .ok .none => c.setStage id floor (.returned .none)
    | .error _ => c.setStage id floor .raised
  | _ => c

def writeCache (conf : ResolverSettings ν) (c : Process φ ν) (id : Nat) (now : Int) : Process φ ν :=
  match c.resolves id with
  | .some ⟨floor, .loaded lookup tenant⟩ =>
    match cacheSet conf now (lookup.key conf) tenant c.cache with
    | .ok _ cache => { c with cache }.setStage id floor (.returned (.some tenant))
    | .error _ cache => { c with cache }.setStage id floor .raised
  | _ => c

/-- A step that cannot be taken changes nothing. -/
def step (conf : ResolverSettings ν) (c : Process φ ν) : ProcessEvent φ ν → Process φ ν
  | .save pk slug fields => c.save pk slug fields
  | .delete pk => c.commit pk (c.table.delete pk)
  | .invalidate pk version => c.invalidate pk version
  | .readCache id lookup now => c.readCache conf id lookup now
  | .load id => c.load conf id
  | .writeCache id now => c.writeCache conf id now

/-- A process that has resolved nothing yet. -/
def start (table : TenantTable (Versioned φ)) : Process φ ν where
  table := table
  cache := {}

/-- A resolve writes what it loaded into the cache before an invalidation that
followed a later commit completes. -/
def writesFresh (c : Process φ ν) : ProcessEvent φ ν → Bool
  | .writeCache id _ =>
    match c.resolves id with
    | .some ⟨_, .loaded _ tenant⟩ => c.invalidated tenant.pk ≤ tenant.version
    | _ => true
  | _ => true

end Process

/-- A resolve that runs alone is `Lookup.resolve`. -/
theorem Process.resolve_of_steps {φ ν : Type} (conf : ResolverSettings ν) (c : Process φ ν) {id : Nat}
    (lookup : Lookup ν) (now now' : Int) (hnew : c.resolves id = .none) :
    let c' := ((c.readCache conf id lookup now).load conf id).writeCache conf id now'
    match lookup.resolve conf c.table (now, now') c.cache with
    | .ok found cache => c'.cache = cache ∧ c'.resolves id = .some ⟨c.invalidated, .returned found⟩
    | .error _ cache => c'.cache = cache ∧ c'.resolves id = .some ⟨c.invalidated, .raised⟩ := by
  obtain ⟨found, cache, hget, -⟩ := cacheGet_spec conf now (lookup.key conf) c.cache
  unfold Lookup.resolve Process.readCache
  rw [hnew, bind_run, hget]
  cases found with
  | some tenant => simp [Process.load, Process.writeCache, Process.setStage]
  | none =>
    cases hload : lookup.load conf c.table with
    | error e => simp [Process.load, Process.writeCache, Process.setStage, Lookup.store, hload, throw_run]
    | ok found =>
      cases found with
      | none => simp [Process.load, Process.writeCache, Process.setStage, Lookup.store, hload]
      | some tenant =>
        rcases cacheSet_spec conf now' (lookup.key conf) tenant cache with ⟨e, hset⟩ | ⟨cache', hset, -⟩ <;>
          simp [Process.load, Process.writeCache, Process.setStage, Lookup.store, bind_run, hload, hset]

/-! ## The invariant -/

section

variable {φ ν : Type} {conf : ResolverSettings ν} {c : Process φ ν} {invalidated : PrimaryKey → Nat}

/-- What a resolve has in hand is no older than what it may return. -/
structure Resolve.Sound (invalidated : PrimaryKey → Nat) (r : Resolve φ ν) : Prop where
  floor : ∀ pk, r.floor pk ≤ invalidated pk
  loaded : ∀ lookup tenant, r.stage = .loaded lookup tenant → r.floor tenant.pk ≤ tenant.version
  returned : ∀ tenant, r.stage = .returned (.some tenant) → r.floor tenant.pk ≤ tenant.version

theorem Resolve.Sound.mono {r : Resolve φ ν} {invalidated' : PrimaryKey → Nat} (h : r.Sound invalidated)
    (hle : ∀ pk, invalidated pk ≤ invalidated' pk) : r.Sound invalidated' :=
  ⟨fun pk => (h.floor pk).trans (hle pk), h.loaded, h.returned⟩

/-- No row of the table, and none in the cache, is older than a commit a
completed invalidation followed. -/
structure NoneOlder (c : Process φ ν) : Prop where
  rows : ∀ row ∈ c.table.rows, c.invalidated row.pk ≤ row.version
  committed : ∀ row ∈ c.table.rows, ∀ p ∈ c.pending, p.1 = row.pk → p.2 ≤ row.version
  pending : ∀ p ∈ c.pending, p.2 ≤ c.commits
  invalidated : ∀ pk, c.invalidated pk ≤ c.commits
  cached : ∀ e ∈ c.cache.entries, c.invalidated e.2.1.pk ≤ e.2.1.version
  resolves : ∀ id r, c.resolves id = .some r → r.Sound c.invalidated

theorem NoneOlder.start (table : TenantTable (Versioned φ)) : NoneOlder (.start table : Process φ ν) where
  rows _ _ := Nat.zero_le _
  committed _ _ p hp := absurd hp List.not_mem_nil
  pending p hp := absurd hp List.not_mem_nil
  invalidated _ := Nat.zero_le _
  cached e he := absurd he List.not_mem_nil
  resolves _ _ h := by cases h

/-- A commit of `pk`, after which the rows are old ones of other tenants and
the one that was written. -/
theorem NoneOlder.commit {pk : PrimaryKey} {table : TenantTable (Versioned φ)} (h : NoneOlder c)
    (hrows : ∀ row ∈ table.rows, row.version = c.commits + 1 ∨ row ∈ c.table.rows ∧ row.pk ≠ pk) :
    NoneOlder (c.commit pk table) where
  rows row hrow := by
    rcases hrows row hrow with hnew | ⟨hold, -⟩
    · rw [hnew]
      exact (h.invalidated row.pk).trans (Nat.le_succ _)
    · exact h.rows row hold
  committed row hrow p hp hpk := by
    rcases List.mem_cons.mp hp with rfl | hp
    · rcases hrows row hrow with hnew | ⟨-, hne⟩
      · exact hnew.ge
      · exact absurd hpk.symm hne
    · rcases hrows row hrow with hnew | ⟨hold, -⟩
      · rw [hnew]
        exact (h.pending p hp).trans (Nat.le_succ _)
      · exact h.committed row hold p hp hpk
  pending p hp := by
    rcases List.mem_cons.mp hp with rfl | hp
    · exact le_rfl
    · exact (h.pending p hp).trans (Nat.le_succ _)
  invalidated pk := (h.invalidated pk).trans (Nat.le_succ _)
  cached := h.cached
  resolves := h.resolves

/-- An invalidation completes: no entry of the tenant is left. -/
theorem NoneOlder.invalidate {pk : PrimaryKey} {version : Nat} (h : NoneOlder c) :
    NoneOlder (c.invalidate pk version) := by
  unfold Process.invalidate
  split
  next hp =>
    constructor
    case rows =>
      intro row hrow
      by_cases hpk : row.pk = pk
      · subst hpk
        simpa using ⟨h.rows row hrow, h.committed row hrow _ hp rfl⟩
      · simpa [Function.update_of_ne hpk] using h.rows row hrow
    case committed => exact fun row hrow p hp => h.committed row hrow p (List.mem_of_mem_erase hp)
    case pending => exact fun p hp => h.pending p (List.mem_of_mem_erase hp)
    case invalidated =>
      intro pk'
      by_cases hpk : pk' = pk
      · subst hpk
        simpa using ⟨h.invalidated pk', h.pending _ hp⟩
      · simpa [Function.update_of_ne hpk] using h.invalidated pk'
    case cached =>
      intro e he
      obtain ⟨he, hne⟩ := mem_cacheInvalidate.mp he
      simpa [Function.update_of_ne hne] using h.cached e he
    case resolves =>
      intro id r hr
      refine (h.resolves id r hr).mono fun pk' => ?_
      by_cases hpk : pk' = pk
      · subst hpk
        simp
      · simp [Function.update_of_ne hpk]
  · exact h

/-- A resolve moves on, leaving entries of the cache that are not too old. -/
theorem NoneOlder.setStage {id : Nat} {floor : PrimaryKey → Nat} {stage : Resolving φ ν}
    {cache : TenantCache (Versioned φ)} (h : NoneOlder c)
    (hcache : ∀ e ∈ cache.entries, c.invalidated e.2.1.pk ≤ e.2.1.version)
    (hsound : Resolve.Sound c.invalidated (⟨floor, stage⟩ : Resolve φ ν)) :
    NoneOlder ({ c with cache }.setStage id floor stage) where
  rows := h.rows
  committed := h.committed
  pending := h.pending
  invalidated := h.invalidated
  cached := hcache
  resolves id' r hr := by
    by_cases hid : id' = id
    · subst hid
      simp only [Process.setStage, Function.update_self, Option.some.injEq] at hr
      rw [← hr]
      exact hsound
    · simp only [Process.setStage, Function.update_of_ne hid] at hr
      exact h.resolves id' r hr

/-- A stage at which nothing is in hand. -/
theorem Resolve.Sound.empty {floor : PrimaryKey → Nat} {stage : Resolving φ ν} (hfloor : ∀ pk, floor pk ≤ invalidated pk)
    (hloaded : ∀ lookup tenant, stage ≠ .loaded lookup tenant) (hreturned : ∀ tenant, stage ≠ .returned (.some tenant)) :
    Resolve.Sound invalidated (⟨floor, stage⟩ : Resolve φ ν) :=
  ⟨hfloor, fun lookup tenant h => absurd h (hloaded lookup tenant), fun tenant h => absurd h (hreturned tenant)⟩

/-! ## The steps -/

theorem NoneOlder.readCache {id : Nat} {lookup : Lookup ν} {now : Int} (h : NoneOlder c) :
    NoneOlder (c.readCache conf id lookup now) := by
  obtain ⟨found, cache, hget, hfound, hsub⟩ := cacheGet_spec conf now (lookup.key conf) c.cache
  unfold Process.readCache
  cases c.resolves id with
  | some r => exact h
  | none =>
    simp only [hget]
    have hcache : ∀ e ∈ cache.entries, c.invalidated e.2.1.pk ≤ e.2.1.version := fun e he => h.cached e (hsub e he)
    cases found with
    | none => exact h.setStage hcache (.empty (fun _ => le_rfl) (by simp) (by simp))
    | some tenant =>
      refine h.setStage hcache ⟨fun _ => le_rfl, (fun _ _ hstage => by cases hstage), fun t hstage => ?_⟩
      obtain ⟨ts, hmem⟩ := hfound tenant rfl
      cases hstage
      exact h.cached _ hmem

theorem NoneOlder.load {id : Nat} (h : NoneOlder c) : NoneOlder (c.load conf id) := by
  unfold Process.load
  cases hr : c.resolves id with
  | none => exact h
  | some r =>
    obtain ⟨floor, stage⟩ := r
    have hsound := h.resolves id _ hr
    cases stage with
    | loaded lookup tenant => exact h
    | returned tenant => exact h
    | raised => exact h
    | missed lookup =>
      simp only
      cases hload : lookup.load conf c.table with
      | error e => exact h.setStage h.cached (.empty hsound.floor (by simp) (by simp))
      | ok found =>
        cases found with
        | none => exact h.setStage h.cached (.empty hsound.floor (by simp) (by simp))
        | some tenant =>
          refine h.setStage h.cached ⟨hsound.floor, fun _ t hstage => ?_, fun _ hstage => by cases hstage⟩
          cases hstage
          exact (hsound.floor tenant.pk).trans (h.rows tenant (mem_of_load hload))

theorem NoneOlder.writeCache {id : Nat} {now : Int} (h : NoneOlder c)
    (hfresh : c.writesFresh (.writeCache id now) = true) : NoneOlder (c.writeCache conf id now) := by
  unfold Process.writeCache
  unfold Process.writesFresh at hfresh
  cases hr : c.resolves id with
  | none => exact h
  | some r =>
    obtain ⟨floor, stage⟩ := r
    have hsound := h.resolves id _ hr
    cases stage with
    | missed lookup => exact h
    | returned tenant => exact h
    | raised => exact h
    | loaded lookup tenant =>
      simp only [hr, decide_eq_true_iff] at hfresh
      simp only
      rcases cacheSet_spec conf now (lookup.key conf) tenant c.cache with ⟨e, hset⟩ | ⟨cache, hset, -, hsub⟩
      · rw [hset]
        exact h.setStage h.cached (.empty hsound.floor (by simp) (by simp))
      · rw [hset]
        refine h.setStage (fun e he => ?_) ⟨hsound.floor, (fun _ _ hstage => by cases hstage), fun t hstage => ?_⟩
        · rcases hsub e he with rfl | he
          · exact hfresh
          · exact h.cached e he
        · cases hstage
          exact hsound.loaded lookup tenant rfl

theorem NoneOlder.save {pk : PrimaryKey} {slug : String} {fields : φ} (h : NoneOlder c) :
    NoneOlder (c.save pk slug fields) := by
  unfold Process.save
  cases hsave : c.table.save ⟨pk, slug, c.commits + 1, fields⟩ with
  | error e => exact h
  | ok table =>
    refine h.commit fun row hrow => ?_
    rcases (TenantTable.mem_save hsave).mp hrow with rfl | hold
    · exact .inl rfl
    · exact .inr hold

theorem NoneOlder.step {e : ProcessEvent φ ν} (h : NoneOlder c) (hfresh : c.writesFresh e = true) :
    NoneOlder (c.step conf e) := by
  cases e with
  | save pk slug fields => exact h.save
  | delete pk => exact h.commit fun row hrow => .inr (TenantTable.mem_delete.mp hrow)
  | invalidate pk version => exact h.invalidate
  | readCache id lookup now => exact h.readCache
  | load id => exact h.load
  | writeCache id now => exact h.writeCache hfresh

/-- In every run in which no resolve writes the tenant it loaded into the
cache after an invalidation that followed a later commit, no resolve returns a
version older than the commit an invalidation followed that had completed
before the resolve started. -/
theorem returns_none_older_of_run {table : TenantTable (Versioned φ)} {id : Nat} {r : Resolve φ ν}
    {tenant : VersionedRow φ}
    (hrun : Runs.Reaches (Process.step conf) (fun c e => c.writesFresh e = true) (.start table) c)
    (hresolve : c.resolves id = .some r) (hreturned : r.stage = .returned (.some tenant)) :
    r.floor tenant.pk ≤ tenant.version :=
  ((hrun.invariant NoneOlder (.start table) fun _ _ h hfresh => h.step hfresh).resolves id r hresolve).returned
    tenant hreturned

/-- What a resolve writes too late is returned by the next resolve for the
same key. -/
theorem stale_of_late_write {id id' : Nat} {lookup : Lookup ν} {tenant : VersionedRow φ} {floor : PrimaryKey → Nat}
    {now now' : Int} {cache : TenantCache (Versioned φ)} (hloaded : c.resolves id = .some ⟨floor, .loaded lookup tenant⟩)
    (hlate : c.writesFresh (.writeCache id now) = false)
    (hset : cacheSet conf now (lookup.key conf) tenant c.cache = .ok () cache) (hnew : c.resolves id' = .none)
    (hne : id' ≠ id) (hfresh : now' - now ≤ conf.cacheTtl) :
    ∃ r, (((c.step conf (.writeCache id now)).step conf (.readCache id' lookup now')).resolves id') = .some r ∧
      r.stage = .returned (.some tenant) ∧ tenant.version < r.floor tenant.pk := by
  rcases cacheSet_spec conf now (lookup.key conf) tenant c.cache with ⟨e, herror⟩ | ⟨cache', hset', hget, -⟩
  · cases herror.symm.trans hset
  cases hset'.symm.trans hset
  have hread := cacheGet_fresh hget hfresh
  refine ⟨⟨c.invalidated, .returned (.some tenant)⟩, ?_, rfl, ?_⟩
  · simp [Process.step, Process.writeCache, Process.readCache, hloaded, hset, Process.setStage,
      Function.update_of_ne hne, hnew, hread]
  · simpa [Process.writesFresh, hloaded] using hlate

end

/-! ## A process with one tenant -/

namespace OneTenant

def conf : ResolverSettings String where
  uuid _ := .none
  readKey _ := .error .valueError
  truthy value := value ≠ ""
  str value := value

def row (version : Nat) : VersionedRow String := ⟨.int 1, "shop", version, "open"⟩

def table : TenantTable (Versioned String) where
  rows := [row 0]

/-- A resolve, an update, and a second resolve that starts after it. -/
def oneAfterTheOther : List (ProcessEvent String String) :=
  [.readCache 0 (.subdomain "shop") 0, .load 0, .writeCache 0 1, .save (.int 1) "shop" "closed",
    .invalidate (.int 1) 1, .readCache 1 (.subdomain "shop") 2, .load 1, .writeCache 1 3]

/-- The process after the steps. -/
def ranTo (events : List (ProcessEvent String String)) : Process String String :=
  events.foldl (Process.step conf) (.start table)

theorem returns_none_older_oneAfterTheOther :
    ∃ r tenant, (ranTo oneAfterTheOther).resolves 1 = .some r ∧ r.stage = .returned (.some tenant) ∧
      r.floor (.int 1) = 1 ∧ r.floor tenant.pk ≤ tenant.version := by
  have hrun : Runs.Allowed (Process.step conf) (fun c e => c.writesFresh e = true) oneAfterTheOther (.start table) := by
    decide
  have hresolve : (ranTo oneAfterTheOther).resolves 1 = .some ⟨_, .returned (.some ⟨.int 1, "shop", 1, "closed"⟩)⟩ := rfl
  exact ⟨_, _, hresolve, rfl, rfl, returns_none_older_of_run (.of_allowed hrun) hresolve rfl⟩

/-- The update falls between the first resolve's load and its write. -/
def updateWithin : List (ProcessEvent String String) :=
  [.readCache 0 (.subdomain "shop") 0, .load 0, .save (.int 1) "shop" "closed", .invalidate (.int 1) 1,
    .writeCache 0 1, .readCache 1 (.subdomain "shop") 2]

/-- The second resolve returns the tenant as it was before the update. -/
theorem updateWithin_breaks_returns_none_older :
    ¬ ∀ (conf : ResolverSettings String) (table : TenantTable (Versioned String)) (c : Process String String) (id : Nat)
      (r : Resolve String String) (tenant : VersionedRow String), 1 ≤ conf.cacheSize →
      Runs.Reaches (Process.step conf) (fun _ _ => True) (.start table) c → c.resolves id = .some r →
      r.stage = .returned (.some tenant) → r.floor tenant.pk ≤ tenant.version := by
  intro hclaim
  have hrun : Runs.Allowed (Process.step conf) (fun _ _ => True) updateWithin (.start table) := by decide
  have hfloor := hclaim conf table (ranTo updateWithin) 1 ⟨_, .returned (.some (row 0))⟩ (row 0) (by decide)
    (.of_allowed hrun) rfl rfl
  exact absurd hfloor (by decide)

end OneTenant

end Boundary
