/-
Which entry the resolvers' cache evicts when it is full, in a run of reads and
writes of which no entry expires.

A write stamps its entry and a read does not, so that the entry to go is the one
that was set longest ago, and of those set at one reading of the clock the one
listed first. It is the least recently used one as long as that order is the
order of use: a read of an entry that was used last keeps it, and so does every
write but one of a key that another entry, listed after it, is stamped alike.
-/
import Boundary.CachedResolution
import Boundary.Lib.Recency
import Boundary.Lib.Runs
import Mathlib.Data.Fintype.EquivFin

namespace Boundary

open Recency Runs

variable {φ ν : Type}

/-- A call, at the reading of the clock it makes. -/
inductive CacheCall (φ : Type) where
  | get (now : Int) (key : String)
  | set (now : Int) (key : String) (tenant : TenantRow φ)

def CacheCall.now : CacheCall φ → Int
  | get now _ | set now _ _ => now

/-- The cache, the time of the last call, how many have been made, and which of
them was a key's last use: a set of it, or a get that returned it. -/
structure CacheUse (φ : Type) where
  cache : TenantCache φ
  time : Int
  calls : Nat := 0
  lastUse : String → Nat := fun _ => 0

namespace CacheUse

/-- Nothing is cached yet. -/
def start (time : Int) : CacheUse φ where
  cache := ⟨[], List.nodup_nil⟩
  time := time

def used (c : CacheUse φ) (now : Int) (key : String) (cache : TenantCache φ) : CacheUse φ :=
  ⟨cache, now, c.calls + 1, Function.update c.lastUse key (c.calls + 1)⟩

def unused (c : CacheUse φ) (now : Int) (cache : TenantCache φ) : CacheUse φ :=
  { c with cache, time := now, calls := c.calls + 1 }

def step (conf : ResolverSettings ν) (c : CacheUse φ) : CacheCall φ → CacheUse φ
  | .get now key =>
    match cacheGet conf now key c.cache with
    | .ok (.some _) cache => c.used now key cache
    | .ok .none cache => c.unused now cache
    | .error _ cache => c.unused now cache
  | .set now key tenant =>
    match cacheSet conf now key tenant c.cache with
    | .ok _ cache => c.used now key cache
    | .error _ cache => c.unused now cache

/-- The clock does not go back, and an entry that is asked for has not expired. -/
structure Clocked (conf : ResolverSettings ν) (c : CacheUse φ) (call : CacheCall φ) : Prop where
  time : c.time ≤ call.now
  fresh : ∀ now key tenant ts, call = .get now key → c.cache.get? key = .some (tenant, ts) → now - ts ≤ conf.cacheTtl

/-- A get that returns an entry returns the one used last, and a set of a key that
is cached is later than those of the entries listed after it. -/
def Refreshes (c : CacheUse φ) : CacheCall φ → Prop
  | .get _ key => (c.cache.get? key).isSome = true → ∀ e ∈ c.cache.entries, c.lastUse e.1 ≤ c.lastUse key
  | .set now key _ => ∀ pre e post, c.cache.entries = pre ++ (key, e) :: post → ∀ later ∈ post, later.2.2 < now

/-- An entry that a set evicts is the one whose last use is the oldest. -/
def EvictsLru (conf : ResolverSettings ν) (c : CacheUse φ) : Prop :=
  ∀ now key tenant cache', cacheSet conf now key tenant c.cache = .ok () cache' →
    ∀ evicted ∈ c.cache.entries, (∀ e ∈ cache'.entries, e.1 ≠ evicted.1) →
      ∀ e ∈ c.cache.entries, c.lastUse evicted.1 ≤ c.lastUse e.1

/-- A step of a run that keeps the order. -/
def InOrderCall (conf : ResolverSettings ν) (c : CacheUse φ) (call : CacheCall φ) : Prop :=
  Clocked conf c call ∧ c.Refreshes call

/-- When an entry was set. -/
abbrev setAt (e : String × TenantRow φ × Int) : Int := e.2.2

/-- The entries go in the order they were used. -/
structure Ordered (c : CacheUse φ) : Prop where
  stamps : ∀ e ∈ c.cache.entries, setAt e ≤ c.time
  uses : ∀ e ∈ c.cache.entries, c.lastUse e.1 ≤ c.calls
  order : InOrder setAt (fun e => c.lastUse e.1) c.cache.entries

end CacheUse

open CacheUse

section

variable {conf : ResolverSettings ν} {c : CacheUse φ} {call : CacheCall φ} {now : Int} {key : String}
  {tenant : TenantRow φ} {ts : Int} {cache cache' : TenantCache φ} {e : String × TenantRow φ × Int}

/-! ## The calls -/

/-- A set of a key that is cached replaces its entry; one of a new key adds an
entry, to a full cache in place of the first to go. -/
theorem cacheSet_cases (h : cacheSet conf now key tenant cache = .ok () cache') :
    (∃ pre old post, cache.entries = pre ++ (key, old) :: post ∧ cache'.entries = pre ++ (key, tenant, now) :: post) ∨
      cache.get? key = .none ∧
        (cache.size < conf.cacheSize ∧ cache'.entries = cache.entries ++ [(key, tenant, now)] ∨
          conf.cacheSize ≤ cache.size ∧ ∃ oldest, first setAt cache.entries = .some oldest ∧
            cache'.entries = (cache.erase oldest.1).entries ++ [(key, tenant, now)]) := by
  unfold cacheSet at h
  cases hget : cache.get? key with
  | some old =>
    rw [if_neg (by simp [hget])] at h
    obtain ⟨pre, post, hsplit⟩ := List.append_of_mem (OrderedDict.get?_eq_some_iff.mp hget)
    cases h
    exact .inl ⟨pre, old, post, hsplit, OrderedDict.put_of_split hsplit⟩
  | none =>
    refine .inr ⟨rfl, ?_⟩
    by_cases hfull : conf.cacheSize ≤ cache.size
    · rw [if_pos ⟨hfull, by simp [hget]⟩] at h
      have hfirst : cache.minKey Prod.snd = (first setAt cache.entries).map Prod.fst := rfl
      cases hmin : first setAt cache.entries with
      | none =>
        rw [hfirst, hmin] at h
        cases h
      | some oldest =>
        rw [hfirst, hmin] at h
        cases h
        refine .inr ⟨hfull, oldest, rfl, OrderedDict.put_of_new (OrderedDict.get?_eq_none_iff.mpr fun e he => ?_)⟩
        exact OrderedDict.get?_eq_none_iff.mp hget e (OrderedDict.mem_erase.mp he).1
    · rw [if_neg fun hboth => hfull hboth.1] at h
      cases h
      exact .inl ⟨Nat.lt_of_not_le hfull, OrderedDict.put_of_new hget⟩

/-- What a set of a new key evicts is the first to go. -/
theorem first_of_evicted (h : cacheSet conf now key tenant cache = .ok () cache') (he : e ∈ cache.entries)
    (hgone : ∀ e' ∈ cache'.entries, e'.1 ≠ e.1) : first setAt cache.entries = .some e := by
  rcases cacheSet_cases h with ⟨pre, old, post, hsplit, hput⟩ | ⟨-, ⟨-, hput⟩ | ⟨-, oldest, hmin, hput⟩⟩
  · rw [hsplit] at he
    rw [hput] at hgone
    rcases List.mem_append.mp he with he | he
    · exact absurd rfl (hgone e (List.mem_append_left _ he))
    · rcases List.mem_cons.mp he with rfl | he
      · exact absurd rfl (hgone (key, tenant, now) (by simp))
      · exact absurd rfl (hgone e (by simp [he]))
  · exact absurd rfl (hgone e (by simp [hput, he]))
  · have holdest : e.1 = oldest.1 := by
      by_contra hne
      refine hgone e ?_ rfl
      rw [hput]
      exact List.mem_append_left _ (OrderedDict.mem_erase.mpr ⟨he, hne⟩)
    rw [hmin, List.inj_on_of_nodup_map cache.nodup he (mem_of_first hmin) holdest]

namespace CacheUse

/-! ## Runs in order -/

/-- In order, what is evicted is what was used least recently. -/
theorem Ordered.evictsLru (h : c.Ordered) : EvictsLru conf c := by
  intro now key tenant cache' hset evicted hevicted hgone e he
  exact h.order.first_le (first_of_evicted hset hevicted hgone) he

theorem ordered_start (time : Int) : Ordered (start time : CacheUse φ) where
  stamps e he := by cases he
  uses e he := by cases he
  order x hx := by cases hx

theorem Ordered.unused (h : c.Ordered) (htime : c.time ≤ now) : (c.unused now c.cache).Ordered where
  stamps e he := (h.stamps e he).trans htime
  uses e he := (h.uses e he).trans (Nat.le_succ _)
  order := h.order

/-- A get returned the entry that was used last. -/
theorem Ordered.got (h : c.Ordered) (htime : c.time ≤ now) (hmem : (key, tenant, ts) ∈ c.cache.entries)
    (hlast : ∀ e ∈ c.cache.entries, c.lastUse e.1 ≤ c.lastUse key) : (c.used now key c.cache).Ordered where
  stamps e he := (h.stamps e he).trans htime
  uses e he := by
    by_cases hkey : e.1 = key
    · simp [CacheUse.used, hkey]
    · simpa [CacheUse.used, hkey] using (h.uses e he).trans (Nat.le_succ _)
  order := by
    refine h.order.use_again c.cache.nodup_entries (m := (key, tenant, ts)) hlast (fun e he => ?_) fun e he hne => ?_
    · simpa [CacheUse.used] using Nat.lt_succ_of_le (h.uses e he)
    · have hkey : e.1 ≠ key := fun hkey => hne (List.inj_on_of_nodup_map c.cache.nodup he hmem hkey)
      simp [CacheUse.used, hkey]

/-- A set put an entry in the place of its key, or last. -/
theorem Ordered.put {pre post : List (String × TenantRow φ × Int)} (h : c.Ordered) (htime : c.time ≤ now)
    (hput : cache'.entries = pre ++ (key, tenant, now) :: post) (hkept : (pre ++ post).Sublist c.cache.entries)
    (hpost : ∀ e ∈ post, setAt e < now) : (c.used now key cache').Ordered := by
  have hnodup := cache'.nodup_entries
  have hentries : (c.used now key cache').cache.entries = pre ++ (key, tenant, now) :: post := hput
  have hothers : ∀ e ∈ pre ++ post, e.1 ≠ key := OrderedDict.ne_of_split hput
  have hsplit : ∀ e ∈ pre ++ (key, tenant, now) :: post, e = (key, tenant, now) ∨ e ∈ pre ++ post :=
    fun e he => List.mem_cons.mp (List.perm_middle.mem_iff.mp he)
  have huse : ∀ e ∈ pre ++ post, (c.used now key cache').lastUse e.1 = c.lastUse e.1 :=
    fun e he => Function.update_of_ne (hothers e he) _ _
  have hself : (c.used now key cache').lastUse key = c.calls + 1 := Function.update_self _ _ _
  rw [hput] at hnodup
  refine ⟨fun e he => ?_, fun e he => ?_, ?_⟩
  · rw [hentries] at he
    rcases hsplit e he with rfl | he
    · exact le_refl _
    · exact (h.stamps e (hkept.subset he)).trans htime
  · rw [hentries] at he
    rcases hsplit e he with rfl | he
    · exact hself.le
    · rw [huse e he]
      exact (h.uses e (hkept.subset he)).trans (Nat.le_succ _)
  · rw [hentries]
    refine InOrder.insert hnodup ((h.order.sublist hkept).congr huse) (fun e he => ?_) hpost fun e he => ?_
    · exact (h.stamps e (hkept.subset (List.mem_append_left _ he))).trans htime
    · rw [huse e he, hself]
      exact Nat.lt_succ_of_le (h.uses e (hkept.subset he))

/-- What is left of the entries, and the new one, when a new key is set. -/
theorem set_new (hset : cacheSet conf now key tenant cache = .ok () cache') (hget : cache.get? key = .none) :
    ∃ kept, kept.Sublist cache.entries ∧ cache'.entries = kept ++ [(key, tenant, now)] := by
  rcases cacheSet_cases hset with ⟨pre, old, post, hsplit, -⟩ | ⟨-, ⟨-, hput⟩ | ⟨-, oldest, -, hput⟩⟩
  · exact absurd rfl (OrderedDict.get?_eq_none_iff.mp hget (key, old) (by simp [hsplit]))
  · exact ⟨_, List.Sublist.refl _, hput⟩
  · exact ⟨_, List.filter_sublist, hput⟩

/-- Every call that keeps the order keeps it. -/
theorem Ordered.step (h : c.Ordered) (hcall : InOrderCall conf c call) : (step conf c call).Ordered := by
  obtain ⟨⟨htime, hfresh⟩, hrefresh⟩ := hcall
  cases call with
  | get now key =>
    cases hget : c.cache.get? key with
    | none =>
      have hmiss : cacheGet conf now key c.cache = .ok .none c.cache := by rw [cacheGet, hget]
      simp only [CacheUse.step, hmiss]
      exact h.unused htime
    | some entry =>
      obtain ⟨tenant, ts⟩ := entry
      simp only [CacheUse.step, cacheGet_fresh hget (hfresh now key tenant ts rfl hget)]
      exact h.got htime (OrderedDict.get?_eq_some_iff.mp hget) (hrefresh (by simp [hget]))
  | set now key tenant =>
    rcases cacheSet_spec conf now key tenant c.cache with ⟨err, hset⟩ | ⟨cache', hset, -⟩
    · simp only [CacheUse.step, hset]
      exact h.unused htime
    · simp only [CacheUse.step, hset]
      cases hget : c.cache.get? key with
      | none =>
        obtain ⟨kept, hkept, hput⟩ := set_new hset hget
        exact h.put htime hput (by simpa using hkept) (by simp)
      | some old =>
        obtain ⟨pre, old', post, hsplit, hput⟩ | ⟨hnone, -⟩ := cacheSet_cases hset
        · refine h.put htime hput ?_ (hrefresh pre old' post hsplit)
          rw [hsplit]
          exact List.Sublist.append_left (List.sublist_cons_self _ _) pre
        · rw [hget] at hnone
          cases hnone

/-! ## Runs out of order -/

/-- `a` goes before `b`, and was used after it. -/
structure OutOfOrder (c : CacheUse φ) (a b : String × TenantRow φ × Int) : Prop where
  first : a ∈ c.cache.entries
  second : b ∈ c.cache.entries
  goes : GoesFirst setAt c.cache.entries a b
  used : c.lastUse b.1 < c.lastUse a.1
  stamps : ∀ e ∈ c.cache.entries, setAt e ≤ c.time

/-- How many new keys can be set before `a` goes. -/
def slack (conf : ResolverSettings ν) (c : CacheUse φ) (a : String × TenantRow φ × Int) : Nat :=
  (conf.cacheSize - c.cache.size) + c.cache.entries.countP fun e => setAt e ≤ setAt a

/-- A call that does not keep the order leaves two entries out of order. -/
theorem Ordered.outOfOrder (h : c.Ordered) (hclocked : Clocked conf c call) (hrefresh : ¬ c.Refreshes call) :
    ∃ a b, (CacheUse.step conf c call).OutOfOrder a b := by
  obtain ⟨htime, hfresh⟩ := hclocked
  cases call with
  | get now key =>
    simp only [Refreshes, not_forall, not_le] at hrefresh
    obtain ⟨hsome, b, hb, hlater⟩ := hrefresh
    obtain ⟨⟨tenant, ts⟩, hget⟩ := Option.isSome_iff_exists.mp hsome
    have ha : (key, tenant, ts) ∈ c.cache.entries := OrderedDict.get?_eq_some_iff.mp hget
    have hkey : b.1 ≠ key := by
      rintro rfl
      exact lt_irrefl _ hlater
    have hne : (key, tenant, ts) ≠ b := by
      rintro rfl
      exact hkey rfl
    refine ⟨(key, tenant, ts), b, ?_⟩
    simp only [CacheUse.step, cacheGet_fresh hget (hfresh now key tenant ts rfl hget)]
    refine ⟨ha, hb, ?_, ?_, fun e he => (h.stamps e he).trans htime⟩
    · exact (goesFirst_or ha hb hne).resolve_right fun hfirst =>
        absurd (h.order b hb (key, tenant, ts) ha hfirst) (not_lt_of_gt hlater)
    · simpa [CacheUse.used, hkey] using Nat.lt_succ_of_le (h.uses b hb)
  | set now key tenant =>
    simp only [Refreshes, not_forall, not_lt] at hrefresh
    obtain ⟨pre, old, post, hsplit, b, hb, hnot⟩ := hrefresh
    have hmem : b ∈ c.cache.entries := by simp [hsplit, hb]
    have hget : c.cache.get? key = .some old := OrderedDict.get?_eq_some_iff.mpr (by simp [hsplit])
    have hput : (c.cache.put key (tenant, now)).entries = pre ++ (key, tenant, now) :: post :=
      OrderedDict.put_of_split hsplit
    have hset : cacheSet conf now key tenant c.cache = .ok () (c.cache.put key (tenant, now)) := by
      rw [cacheSet, if_neg (by simp [hget])]
    have hkey : b.1 ≠ key := OrderedDict.ne_of_split hsplit b (List.mem_append_right _ hb)
    refine ⟨(key, tenant, now), b, ?_⟩
    simp only [CacheUse.step, hset]
    refine ⟨?_, ?_, ?_, ?_, fun e he => ?_⟩
    · simp [CacheUse.used, hput]
    · simp [CacheUse.used, hput, hb]
    · have hsub : [(key, tenant, now), b].Sublist (pre ++ (key, tenant, now) :: post) :=
        (List.cons_sublist_cons.mpr (List.singleton_sublist.mpr hb)).trans (List.sublist_append_right _ _)
      simp only [CacheUse.used, hput]
      exact (lt_or_eq_of_le hnot).imp id fun heq => ⟨heq, hsub⟩
    · simpa [CacheUse.used, hkey] using Nat.lt_succ_of_le (h.uses b hmem)
    · rcases OrderedDict.mem_of_mem_put he with rfl | he
      · exact le_refl _
      · exact (h.stamps e he).trans htime

/-- A new key is set, after everything else. -/
theorem inOrderCall_new (hget : c.cache.get? key = .none) : InOrderCall conf c (.set (c.time + 1) key tenant) := by
  refine ⟨⟨?_, fun _ _ _ _ h => by cases h⟩, fun pre old post hsplit => ?_⟩
  · simp only [CacheCall.now]
    omega
  · exact absurd rfl (OrderedDict.get?_eq_none_iff.mp hget (key, old) (by simp [hsplit]))

/-- Entries out of order that are kept stay so, while new keys are set. -/
theorem OutOfOrder.set_new {a b : String × TenantRow φ × Int} {kept : List (String × TenantRow φ × Int)}
    (h : c.OutOfOrder a b) (hnew : c.cache.get? key = .none) (hput : cache'.entries = kept ++ [(key, tenant, c.time + 1)])
    (hkept : kept.Sublist c.cache.entries) (ha : a ∈ kept) (hb : b ∈ kept) :
    (c.used (c.time + 1) key cache').OutOfOrder a b := by
  have hkeys := OrderedDict.get?_eq_none_iff.mp hnew
  refine ⟨by simp [CacheUse.used, hput, ha], by simp [CacheUse.used, hput, hb], ?_, ?_, fun e he => ?_⟩
  · simp only [CacheUse.used, hput]
    exact (h.goes.of_sublist c.cache.nodup_entries hkept ha hb).mono (List.sublist_append_left _ _)
  · simpa [CacheUse.used, hkeys a h.first, hkeys b h.second] using h.used
  · simp only [CacheUse.used, hput, List.mem_append, List.mem_singleton] at he
    rcases he with he | rfl
    · have hstamp := h.stamps e (hkept.subset he)
      simp only [CacheUse.used]
      omega
    · exact le_refl _

/-- A new key pushes out the entry that goes first, though it was used last; or
there is less slack, and both are kept. -/
theorem OutOfOrder.set_once {a b : String × TenantRow φ × Int} (hsize : 1 ≤ conf.cacheSize) (h : c.OutOfOrder a b)
    (hnew : c.cache.get? key = .none) (tenant : TenantRow φ) :
    ¬ EvictsLru conf c ∨ (CacheUse.step conf c (.set (c.time + 1) key tenant)).OutOfOrder a b ∧
      slack conf (CacheUse.step conf c (.set (c.time + 1) key tenant)) a < slack conf c a := by
  obtain ⟨cache', hset⟩ := cacheSet_ok hsize (c.time + 1) key tenant c.cache
  have hstep : CacheUse.step conf c (.set (c.time + 1) key tenant) = c.used (c.time + 1) key cache' := by
    simp only [CacheUse.step, hset]
  have hlate : ¬ setAt (key, tenant, c.time + 1) ≤ setAt a := by
    have hstamp := h.stamps a h.first
    simp only [setAt] at hstamp ⊢
    omega
  rw [hstep]
  rcases cacheSet_cases hset with ⟨pre, old, post, hsplit, -⟩ | ⟨-, ⟨hroom, hput⟩ | ⟨hfull, oldest, hmin, hput⟩⟩
  · exact absurd rfl (OrderedDict.get?_eq_none_iff.mp hnew (key, old) (by simp [hsplit]))
  · refine .inr ⟨h.set_new hnew hput (List.Sublist.refl _) h.first h.second, ?_⟩
    simp only [slack, CacheUse.used, OrderedDict.size, hput, List.length_append, List.length_singleton,
      List.countP_append, List.countP_singleton, hlate, decide_false, Bool.false_eq_true, if_false] at hroom ⊢
    omega
  · obtain ⟨pre, post, hsplit, -, -⟩ := first_split hmin
    rw [OrderedDict.erase_of_split hsplit] at hput
    by_cases holdest : oldest = a
    · refine .inl fun hlru => ?_
      have hgone : ∀ e ∈ cache'.entries, e.1 ≠ a.1 := by
        intro e he
        rw [hput] at he
        rcases List.mem_append.mp he with he | he
        · exact holdest ▸ OrderedDict.ne_of_split hsplit e he
        · obtain rfl := List.mem_singleton.mp he
          exact fun hsame => OrderedDict.get?_eq_none_iff.mp hnew a h.first hsame.symm
      exact absurd (hlru _ _ _ cache' hset a h.first hgone b h.second) (not_le_of_gt h.used)
    · have hfirst : GoesFirst setAt c.cache.entries oldest a :=
        goesFirst_of_first hmin h.first fun hsame => holdest hsame.symm
      have hother : oldest ≠ b := by
        rintro rfl
        exact h.goes.asymm c.cache.nodup_entries hfirst
      have hkeep : ∀ e ∈ c.cache.entries, oldest ≠ e → e ∈ pre ++ post := by
        intro e he hne
        rw [hsplit, List.perm_middle.mem_iff] at he
        exact (List.mem_cons.mp he).resolve_left (Ne.symm hne)
      have hkept : (pre ++ post).Sublist c.cache.entries := by
        rw [hsplit]
        exact List.Sublist.append_left (List.sublist_cons_self _ _) pre
      refine .inr ⟨h.set_new hnew hput hkept (hkeep a h.first holdest) (hkeep b h.second hother), ?_⟩
      have hold : setAt oldest ≤ setAt a := hfirst.stamp_le
      simp only [slack, CacheUse.used, OrderedDict.size, hput, hsplit, List.length_append, List.length_cons,
        List.length_nil, List.countP_append, List.countP_cons, List.countP_nil, hlate, hold, decide_false, decide_true,
        Bool.false_eq_true, if_false, if_true] at hfull ⊢
      omega

/-- New keys push the one that goes first out in the end. -/
theorem OutOfOrder.evicted {a b : String × TenantRow φ × Int} (hsize : 1 ≤ conf.cacheSize) (h : c.OutOfOrder a b) :
    ∃ c', Reaches (CacheUse.step conf) (InOrderCall conf) c c' ∧ ¬ EvictsLru conf c' := by
  induction hn : slack conf c a using Nat.strong_induction_on generalizing c with
  | _ n ih =>
    obtain ⟨key, hkey⟩ := Infinite.exists_notMem_finset (c.cache.entries.map Prod.fst).toFinset
    have hnew : c.cache.get? key = .none := by
      refine OrderedDict.get?_eq_none_iff.mpr fun e he hsame => hkey ?_
      rw [List.mem_toFinset]
      exact List.mem_map.mpr ⟨e, he, hsame⟩
    rcases h.set_once hsize hnew a.2.1 with hevicts | ⟨hout, hslack⟩
    · exact ⟨c, .refl, hevicts⟩
    · obtain ⟨c', hreaches, hevicts⟩ := ih _ (hn ▸ hslack) hout rfl
      exact ⟨c', (Reaches.step _ .refl (inOrderCall_new hnew)).trans hreaches, hevicts⟩

theorem reaches_ordered {time : Int} (h : Reaches (CacheUse.step conf) (InOrderCall conf) (start time) c) : c.Ordered :=
  h.invariant Ordered (ordered_start time) fun _ _ hordered hcall => hordered.step hcall

/-- In a run whose calls keep the order every set evicts the least recently used
entry; a call that does not can be followed by calls that do, to a set that does
not. -/
theorem evictsLru_of_run (hsize : 1 ≤ conf.cacheSize) {time : Int}
    (hrun : Reaches (CacheUse.step conf) (InOrderCall conf) (start time) c) :
    EvictsLru conf c ∧ ∀ call, Clocked conf c call →
      (c.Refreshes call ↔
        ∀ c', Reaches (CacheUse.step conf) (InOrderCall conf) (CacheUse.step conf c call) c' → EvictsLru conf c') := by
  have hordered := reaches_ordered hrun
  refine ⟨hordered.evictsLru, fun call hclocked => ⟨fun hrefresh c' hrest => ?_, fun hall => ?_⟩⟩
  · exact (reaches_ordered ((Reaches.step call hrun ⟨hclocked, hrefresh⟩).trans hrest)).evictsLru
  · by_contra hrefresh
    obtain ⟨a, b, hout⟩ := hordered.outOfOrder hclocked hrefresh
    obtain ⟨c', hreaches, hevicts⟩ := hout.evicted hsize
    exact hevicts (hall c' hreaches)

end CacheUse

end

/-! ## A cache of two entries -/

namespace TwoEntries

def conf : ResolverSettings String := { OneDigit.conf with cacheSize := 2 }

def club (slug : String) : TenantRow Unit := ⟨.int 1, slug, ()⟩

/-- Two sets, and a get of the second key. -/
def readLast : List (CacheCall Unit) := [.set 0 "a" (club "a"), .set 1 "b" (club "b"), .get 2 "b"]

/-- The same, and a get of the first. -/
def readFirst : List (CacheCall Unit) := [.set 0 "a" (club "a"), .set 1 "b" (club "b"), .get 2 "a"]

def ranTo (calls : List (CacheCall Unit)) : CacheUse Unit := calls.foldl (CacheUse.step conf) (.start 0)

/-- After the first, a set evicts the first key's entry. -/
theorem evictsLru_readLast : EvictsLru conf (ranTo readLast) := by
  have hrun : Runs.Allowed (CacheUse.step conf) (InOrderCall conf) readLast (.start 0) := by
    refine ⟨⟨⟨by decide, fun _ _ _ _ h => by cases h⟩, fun pre e post hsplit => ?_⟩,
      ⟨⟨by decide, fun _ _ _ _ h => by cases h⟩, fun pre e post hsplit => ?_⟩,
      ⟨⟨by decide, fun now key tenant ts hcall hget => ?_⟩, fun _ => by decide⟩, trivial⟩
    · have hempty : [] = pre ++ ("a", e) :: post := hsplit
      simp at hempty
    · have hmem : ("b", e) ∈ [("a", club "a", (0 : Int))] := by
        have hentries : [("a", club "a", (0 : Int))] = pre ++ ("b", e) :: post := hsplit
        simp [hentries]
      simp at hmem
    · cases hcall
      cases hget
      decide
  exact (CacheUse.evictsLru_of_run (by decide) (.of_allowed hrun)).1

/-- After the second, too, though it was used last. -/
theorem readFirst_breaks_evictsLru :
    ¬ ∀ (conf : ResolverSettings String) (time : Int) (c : CacheUse Unit), 1 ≤ conf.cacheSize →
      Runs.Reaches (CacheUse.step conf) (CacheUse.Clocked conf) (.start time) c → CacheUse.EvictsLru conf c := by
  intro hclaim
  have hrun : Runs.Allowed (CacheUse.step conf) (CacheUse.Clocked conf) readFirst (.start 0) := by
    refine ⟨⟨by decide, fun _ _ _ _ h => by cases h⟩, ⟨by decide, fun _ _ _ _ h => by cases h⟩,
      ⟨by decide, fun now key tenant ts hcall hget => ?_⟩, trivial⟩
    cases hcall
    cases hget
    decide
  have hentries : (ranTo readFirst).cache.entries = [("a", club "a", 0), ("b", club "b", 1)] := rfl
  have hlru := hclaim conf 0 (ranTo readFirst) (by decide) (.of_allowed hrun) 3 "c" (club "c") _ rfl ("a", club "a", 0)
    (by simp [hentries]) (by decide) ("b", club "b", 1) (by simp [hentries])
  exact absurd hlru (by decide)

end TwoEntries

end Boundary
