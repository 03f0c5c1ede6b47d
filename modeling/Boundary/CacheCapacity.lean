/-
The resolvers' cache over runs of reads, writes, invalidations and clears: what
it holds at most, and what a read of it returns.

A write of a new key to a full cache evicts an entry first. A cache of capacity
zero is full when it is empty, and then there is none to evict: `min` raises.
-/
import Boundary.CacheEviction

namespace Boundary

open Exec

variable {φ ν : Type}

/-- A call, with the reading of the clock it makes, if it makes one. -/
inductive CacheOp (φ : Type) where
  | get (now : Int) (key : String)
  | set (now : Int) (key : String) (tenant : TenantRow φ)
  | invalidate (pk : PrimaryKey)
  | clear

namespace CacheOp

def now? : CacheOp φ → Option Int
  | get now _ | set now _ _ => .some now
  | invalidate _ | clear => .none

/-- What the call returns is a read's answer. -/
def run (conf : ResolverSettings ν) : CacheOp φ → Cached φ (Option (TenantRow φ))
  | get now key => cacheGet conf now key
  | set now key tenant => (fun _ => .none) <$> cacheSet conf now key tenant
  | invalidate pk => (fun _ => .none) <$> cacheInvalidate pk
  | clear => (fun _ => .none) <$> cacheClear

def IsGet : CacheOp φ → Prop
  | get _ _ => True
  | _ => False

def IsSet : CacheOp φ → Prop
  | set _ _ _ => True
  | _ => False

/-- With the call a tenant is no longer the one that is cached under the key: another
is set, or it is invalidated, or everything is cleared. -/
def Ends (key : String) (pk : PrimaryKey) : CacheOp φ → Prop
  | get _ _ => False
  | set _ key' _ => key' = key
  | invalidate pk' => pk' = pk
  | clear => True

end CacheOp

/-- The cache after the calls, from an empty one. A call that raises is over. -/
def cacheAfter (conf : ResolverSettings ν) (calls : List (CacheOp φ)) : TenantCache φ :=
  calls.foldl (fun cache call => after (call.run conf) cache) ⟨[], List.nodup_nil⟩

/-- The clock does not go back. -/
def NonDecreasing (calls : List (CacheOp φ)) : Prop := (calls.filterMap CacheOp.now?).Pairwise (· ≤ ·)

instance (calls : List (CacheOp φ)) : Decidable (NonDecreasing calls) := inferInstanceAs (Decidable (List.Pairwise _ _))

/-- The last set of the key was one of the tenant, at `ts`, and it has not been
invalidated or cleared since. -/
def LastSet (calls : List (CacheOp φ)) (key : String) (tenant : TenantRow φ) (ts : Int) : Prop :=
  ∃ pre post, calls = pre ++ .set ts key tenant :: post ∧ ∀ call ∈ post, ¬ call.Ends key tenant.pk

/-- What is asked of a call, after the calls before it. -/
structure CacheRespected (conf : ResolverSettings ν) (before : List (CacheOp φ)) (call : CacheOp φ) : Prop where
  returns : ∀ e, answer (call.run conf) (cacheAfter conf before) ≠ .error e
  bounded : (cacheAfter conf (before ++ [call])).size ≤ conf.cacheSize
  latest : ∀ now key tenant, call = .get now key →
    answer (call.run conf) (cacheAfter conf before) = .ok (.some tenant) →
      ∃ ts, LastSet before key tenant ts ∧ now - ts ≤ conf.cacheTtl
  /-- What was just set is read, whatever was read in between. -/
  justSet : 1 ≤ conf.cacheSize → ∀ pre ts key tenant gets now, before = pre ++ .set ts key tenant :: gets →
    (∀ get ∈ gets, get.IsGet) → call = .get now key → now - ts ≤ conf.cacheTtl →
      answer (call.run conf) (cacheAfter conf before) = .ok (.some tenant)

section

variable {conf : ResolverSettings ν} {calls : List (CacheOp φ)} {call : CacheOp φ} {cache cache' : TenantCache φ}
  {key key' : String} {tenant : TenantRow φ} {now ts : Int} {e : String × TenantRow φ × Int}

/-! ## One call -/

theorem cacheAfter_append (conf : ResolverSettings ν) (calls : List (CacheOp φ)) (call : CacheOp φ) :
    cacheAfter conf (calls ++ [call]) = after (call.run conf) (cacheAfter conf calls) := by
  rw [cacheAfter, List.foldl_append]
  rfl

theorem run_set : (CacheOp.set now key tenant).run conf = (fun _ => .none) <$> cacheSet conf now key tenant := rfl

theorem run_invalidate {pk : PrimaryKey} :
    (CacheOp.invalidate pk).run conf = (fun _ => .none : Unit → Option (TenantRow φ)) <$> cacheInvalidate pk := rfl

/-- A read takes at most the entry of its key out. -/
theorem after_cacheGet (conf : ResolverSettings ν) (now : Int) (key : String) (cache : TenantCache φ) :
    after (cacheGet conf now key) cache = cache ∨ after (cacheGet conf now key) cache = cache.erase key := by
  unfold after cacheGet
  rcases cache.get? key with _ | ⟨tenant, ts⟩
  · exact .inl rfl
  · by_cases hold : now - ts > conf.cacheTtl
    · exact .inr (by simp only [if_pos hold])
    · exact .inl (by simp only [if_neg hold])

/-- An eviction makes room for what is put. -/
theorem size_cacheSet (h : cacheSet conf now key tenant cache = .ok () cache') (hsize : cache.size ≤ conf.cacheSize) :
    cache'.size ≤ conf.cacheSize := by
  unfold OrderedDict.size at hsize ⊢
  rcases cacheSet_cases h with ⟨pre, old, post, hsplit, hput⟩ | ⟨-, ⟨hroom, hput⟩ | ⟨-, oldest, hmin, hput⟩⟩
  · rw [hput]
    simpa [hsplit] using hsize
  · rw [hput, List.length_append, List.length_singleton]
    exact hroom
  · obtain ⟨pre, post, hsplit, -, -⟩ := Recency.first_split hmin
    rw [hput, OrderedDict.erase_of_split hsplit]
    simpa [hsplit, Nat.add_assoc] using hsize

theorem size_filter_le (cache : TenantCache φ) (p : String → TenantRow φ × Int → Bool) :
    (cache.filter p).size ≤ cache.size :=
  List.length_filter_le _ _

/-- No call leaves more than the capacity. -/
theorem size_after (hsize : cache.size ≤ conf.cacheSize) : (after (call.run conf) cache).size ≤ conf.cacheSize := by
  cases call with
  | get now key =>
    rcases after_cacheGet conf now key cache with hrun | hrun
    · exact (congrArg OrderedDict.size hrun).trans_le hsize
    · exact (congrArg OrderedDict.size hrun).trans_le ((size_filter_le _ _).trans hsize)
  | set now key tenant =>
    rw [run_set, after_map]
    rcases cacheSet_spec conf now key tenant cache with ⟨err, hset⟩ | ⟨cache', hset, -⟩
    · rw [after_of_error hset]
      exact hsize
    · rw [after_of_ok hset]
      exact size_cacheSet hset hsize
  | invalidate pk =>
    rw [run_invalidate, after_map]
    exact (size_filter_le cache fun _ e => decide (e.1.pk ≠ pk)).trans hsize
  | clear => exact Nat.zero_le _

/-- An entry was put by the call, or was there and the call did not end it. -/
theorem mem_after (he : e ∈ (after (call.run conf) cache).entries) :
    call = .set e.2.2 e.1 e.2.1 ∨ e ∈ cache.entries ∧ ¬ call.Ends e.1 e.2.1.pk := by
  obtain ⟨key', tenant', ts'⟩ := e
  cases call with
  | get now key =>
    refine .inr ⟨?_, id⟩
    rcases after_cacheGet conf now key cache with hrun | hrun
    · exact congrArg OrderedDict.entries hrun ▸ he
    · exact (OrderedDict.mem_erase.mp (congrArg OrderedDict.entries hrun ▸ he)).1
  | set now key tenant =>
    rw [run_set, after_map] at he
    rcases cacheSet_spec conf now key tenant cache with ⟨err, hset⟩ | ⟨cache', hset, hget, hmem⟩
    · rw [after_of_error hset, (cacheSet_raises_iff.mp ⟨err, hset⟩).2] at he
      cases he
    · rw [after_of_ok hset] at he
      by_cases hkey : key = key'
      · subst hkey
        cases Option.some.inj (hget.symm.trans (OrderedDict.get?_eq_some_iff.mpr he))
        exact .inl rfl
      · refine .inr ⟨(hmem _ he).resolve_left fun hnew => hkey ?_, hkey⟩
        exact (congrArg Prod.fst hnew).symm
  | invalidate pk =>
    rw [run_invalidate, after_map] at he
    obtain ⟨hmem, hne⟩ := mem_cacheInvalidate.mp he
    exact .inr ⟨hmem, fun hpk => hne hpk.symm⟩
  | clear => cases he

/-! ## Runs -/

theorem lastSet_append (h : LastSet calls key tenant ts) (hends : ¬ call.Ends key tenant.pk) :
    LastSet (calls ++ [call]) key tenant ts := by
  obtain ⟨pre, post, rfl, hpost⟩ := h
  refine ⟨pre, post ++ [call], by simp, fun c hc => ?_⟩
  rcases List.mem_append.mp hc with hc | hc
  · exact hpost c hc
  · exact List.mem_singleton.mp hc ▸ hends

theorem lastSet_set : LastSet (calls ++ [.set ts key tenant]) key tenant ts :=
  ⟨calls, [], rfl, fun _ hc => absurd hc List.not_mem_nil⟩

/-- Every entry is of a set that is not over. -/
theorem lastSet_of_mem (he : e ∈ (cacheAfter conf calls).entries) : LastSet calls e.1 e.2.1 e.2.2 := by
  induction calls using List.reverseRecOn with
  | nil => cases he
  | append_singleton calls call ih =>
    rw [cacheAfter_append] at he
    rcases mem_after he with rfl | ⟨hmem, hends⟩
    · exact lastSet_set
    · exact lastSet_append (ih hmem) hends

theorem size_cacheAfter (conf : ResolverSettings ν) (calls : List (CacheOp φ)) :
    (cacheAfter conf calls).size ≤ conf.cacheSize := by
  induction calls using List.reverseRecOn with
  | nil => exact Nat.zero_le _
  | append_singleton calls call ih =>
    rw [cacheAfter_append]
    exact size_after ih

/-- With room for an entry, no call raises; with none, a set does. -/
theorem returns_iff : (∀ err, answer (call.run conf) (cacheAfter conf calls) ≠ .error err) ↔
    1 ≤ conf.cacheSize ∨ ¬ call.IsSet := by
  have hempty (hsize : conf.cacheSize = 0) : (cacheAfter conf calls).entries = [] :=
    List.eq_nil_of_length_eq_zero (Nat.le_zero.mp (hsize ▸ size_cacheAfter conf calls))
  cases call with
  | get now key =>
    obtain ⟨found, cache', hget, -⟩ := cacheGet_spec conf now key (cacheAfter conf calls)
    refine iff_of_true (fun err => ?_) (.inr id)
    simp [answer, CacheOp.run, hget]
  | set now key tenant =>
    rcases cacheSet_spec conf now key tenant (cacheAfter conf calls) with ⟨err, hset⟩ | ⟨cache', hset, -⟩
    · refine iff_of_false (fun h => h err (by simp [answer, run_set, map_run, hset])) ?_
      rintro (hsize | hnot)
      · have hzero := (cacheSet_raises_iff.mp ⟨err, hset⟩).1
        omega
      · exact hnot trivial
    · refine iff_of_true (fun err => by simp [answer, run_set, map_run, hset]) (.inl ?_)
      by_contra hsize
      have hzero : conf.cacheSize = 0 := by omega
      obtain ⟨err, hraised⟩ : ∃ err, cacheSet conf now key tenant (cacheAfter conf calls) =
          .error err (cacheAfter conf calls) := cacheSet_raises_iff.mpr ⟨hzero, hempty hzero⟩
      rw [hset] at hraised
      cases hraised
  | invalidate pk => exact iff_of_true (fun err h => by cases h) (.inr id)
  | clear => exact iff_of_true (fun err h => by cases h) (.inr id)

/-- What a read returns is of a set that is not over, and not too old. -/
theorem latest_of_get (h : answer ((CacheOp.get now key).run conf) (cacheAfter conf calls) = .ok (.some tenant)) :
    ∃ ts, LastSet calls key tenant ts ∧ now - ts ≤ conf.cacheTtl := by
  have hrun : answer (cacheGet conf now key) (cacheAfter conf calls) = .ok (.some tenant) := h
  unfold answer cacheGet at hrun
  rcases hget : (cacheAfter conf calls).get? key with _ | ⟨tenant', ts⟩
  · rw [hget] at hrun
    cases hrun
  · rw [hget] at hrun
    by_cases hold : now - ts > conf.cacheTtl
    · simp only [if_pos hold] at hrun
      cases hrun
    · simp only [if_neg hold] at hrun
      cases hrun
      exact ⟨ts, lastSet_of_mem (OrderedDict.get?_eq_some_iff.mp hget), by omega⟩

/-- A read leaves every entry that is not too old for it. -/
theorem get?_after_get {t : Int} (hget : cache.get? key = .some (tenant, ts)) (hfresh : t - ts ≤ conf.cacheTtl) :
    (after (cacheGet conf t key') cache).get? key = .some (tenant, ts) := by
  by_cases hkey : key = key'
  · subst hkey
    rw [after_of_ok (cacheGet_fresh hget hfresh)]
    exact hget
  · rcases after_cacheGet conf t key' cache with hrun | hrun
    · rw [hrun]
      exact hget
    · rw [hrun, OrderedDict.get?_eq_some_iff]
      exact OrderedDict.mem_erase.mpr ⟨OrderedDict.get?_eq_some_iff.mp hget, hkey⟩

theorem get?_after_gets {gets : List (CacheOp φ)} (hset : (cacheAfter conf calls).get? key = .some (tenant, ts))
    (hgets : ∀ get ∈ gets, get.IsGet ∧ ∀ t, get.now? = .some t → t - ts ≤ conf.cacheTtl) :
    (cacheAfter conf (calls ++ gets)).get? key = .some (tenant, ts) := by
  induction gets using List.reverseRecOn with
  | nil => simpa using hset
  | append_singleton gets get ih =>
    have hrest := ih fun g hg => hgets g (List.mem_append_left _ hg)
    obtain ⟨hget, hfresh⟩ := hgets get (by simp)
    rw [← List.append_assoc, cacheAfter_append]
    cases get with
    | get t key' => exact get?_after_get hrest (hfresh t rfl)
    | _ => cases hget

/-- An earlier call read the clock no later. -/
theorem NonDecreasing.le {before post : List (CacheOp φ)} {earlier : CacheOp φ} {t : Int}
    (h : NonDecreasing (before ++ call :: post)) (hmem : earlier ∈ before) (ht : earlier.now? = .some t)
    (hnow : call.now? = .some now) : t ≤ now := by
  unfold NonDecreasing at h
  rw [List.filterMap_append, List.pairwise_append] at h
  refine h.2.2 t (List.mem_filterMap.mpr ⟨earlier, hmem, ht⟩) now ?_
  exact List.mem_filterMap.mpr ⟨call, List.mem_cons_self, hnow⟩

/-- What was just set is read, within the time to live. -/
theorem justSet_of_clock {pre gets post : List (CacheOp φ)} (hsize : 1 ≤ conf.cacheSize)
    (hclock : NonDecreasing (pre ++ .set ts key tenant :: gets ++ .get now key :: post))
    (hgets : ∀ get ∈ gets, get.IsGet) (hfresh : now - ts ≤ conf.cacheTtl) :
    answer ((CacheOp.get now key).run conf) (cacheAfter conf (pre ++ .set ts key tenant :: gets)) =
      .ok (.some tenant) := by
  obtain ⟨cache', hset⟩ := cacheSet_ok hsize ts key tenant (cacheAfter conf pre)
  have hput : (cacheAfter conf (pre ++ [.set ts key tenant])).get? key = .some (tenant, ts) := by
    rw [cacheAfter_append, run_set, after_map, after_of_ok hset]
    rcases cacheSet_spec conf ts key tenant (cacheAfter conf pre) with ⟨err, hraised⟩ | ⟨cache'', hset', hget, -⟩
    · rw [hset] at hraised
      cases hraised
    · cases hset.symm.trans hset'
      exact hget
  have hkept : (cacheAfter conf (pre ++ [.set ts key tenant] ++ gets)).get? key = .some (tenant, ts) := by
    refine get?_after_gets hput fun get hmem => ⟨hgets get hmem, fun t ht => ?_⟩
    have hle : t ≤ now := hclock.le (by simp [hmem]) ht rfl
    omega
  rw [List.append_assoc, List.singleton_append] at hkept
  have hrun : answer (cacheGet conf now key) (cacheAfter conf (pre ++ .set ts key tenant :: gets)) =
      .ok (.some tenant) := by
    rw [answer, cacheGet_fresh hkept hfresh]
  exact hrun

/-- The cache respects its capacity in a run exactly when it has room for an entry,
or nothing is set. -/
theorem cacheRespected_iff (hclock : NonDecreasing calls) :
    (∀ before call post, calls = before ++ call :: post → CacheRespected conf before call) ↔
      1 ≤ conf.cacheSize ∨ ∀ call ∈ calls, ¬ call.IsSet := by
  constructor
  · intro h
    by_cases hsize : 1 ≤ conf.cacheSize
    · exact .inl hsize
    · refine .inr fun call hcall => ?_
      obtain ⟨before, post, hsplit⟩ := List.append_of_mem hcall
      exact (returns_iff.mp (h before call post hsplit).returns).resolve_left hsize
  · rintro h before call post rfl
    refine ⟨?_, size_cacheAfter conf _, ?_, ?_⟩
    · exact returns_iff.mpr (h.imp_right fun hnone => hnone call (by simp))
    · rintro now key tenant rfl hread
      exact latest_of_get hread
    · rintro hsize pre ts key tenant gets now rfl hgets rfl hfresh
      exact justSet_of_clock hsize hclock hgets hfresh

end

/-! ## A cache that keeps nothing -/

namespace TwoEntries

/-- One club is set, read, invalidated and cleared. -/
def everyCall : List (CacheOp Unit) :=
  [.set 0 "a" (club "a"), .get 1 "a", .invalidate (.int 1), .set 2 "a" (club "a"), .clear]

theorem cacheRespected_everyCall :
    NonDecreasing everyCall ∧
      ∀ before call post, everyCall = before ++ call :: post → CacheRespected conf before call :=
  ⟨by decide, (cacheRespected_iff (by decide)).mpr (.inl (by decide))⟩

/-- With a capacity of zero the first set raises. -/
theorem zeroCapacity_breaks_cacheRespected :
    ¬ ∀ (conf : ResolverSettings String) (calls : List (CacheOp Unit)), NonDecreasing calls →
      ∀ before call post, calls = before ++ call :: post → CacheRespected conf before call := by
  intro hclaim
  have hset := hclaim { conf with cacheSize := 0 } [.set 0 "a" (club "a")] (by decide) [] _ [] rfl
  exact hset.returns (.other "ValueError") rfl

end TwoEntries

end Boundary
