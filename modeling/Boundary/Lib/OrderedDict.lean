/-
Dictionaries that keep the order their keys were first put in, as Python's
do. Every key has one entry.
-/
import Mathlib.Data.List.MinMax
import Mathlib.Data.List.Nodup

structure OrderedDict (κ ν : Type) where
  entries : List (κ × ν) := []
  nodup : (entries.map Prod.fst).Nodup := by simp

namespace OrderedDict

variable {κ ν : Type} [DecidableEq κ] {d : OrderedDict κ ν} {k k' : κ} {v v' : ν}

def get? (d : OrderedDict κ ν) (k : κ) : Option ν := (d.entries.find? (·.1 = k)).map Prod.snd

def size (d : OrderedDict κ ν) : Nat := d.entries.length

/-- Keep the entries that satisfy `p`. -/
def filter (d : OrderedDict κ ν) (p : κ → ν → Bool) : OrderedDict κ ν where
  entries := d.entries.filter fun e => p e.1 e.2
  nodup := d.nodup.sublist (List.filter_sublist.map _)

/-- `del d[k]`. -/
def erase (d : OrderedDict κ ν) (k : κ) : OrderedDict κ ν := d.filter fun k' _ => k' ≠ k

/-- The entries of `d[k] = v`: the entry of `k` keeps its place. -/
def putEntries (k : κ) (v : ν) (entries : List (κ × ν)) : List (κ × ν) :=
  if k ∈ entries.map Prod.fst then entries.map fun e => if e.1 = k then (k, v) else e else entries ++ [(k, v)]

theorem nodup_putEntries {entries : List (κ × ν)} (h : (entries.map Prod.fst).Nodup) :
    ((putEntries k v entries).map Prod.fst).Nodup := by
  unfold putEntries
  split
  · have hkeys : (entries.map fun e => if e.1 = k then (k, v) else e).map Prod.fst = entries.map Prod.fst := by
      rw [List.map_map]
      refine List.map_congr_left fun e _ => ?_
      by_cases he : e.1 = k <;> simp [he]
    rw [hkeys]
    exact h
  · next hk =>
    rw [List.map_append, List.nodup_append]
    refine ⟨h, by simp, fun a ha b hb => ?_⟩
    rw [List.map_singleton, List.mem_singleton] at hb
    rw [hb]
    rintro rfl
    exact hk ha

/-- `d[k] = v`. -/
def put (d : OrderedDict κ ν) (k : κ) (v : ν) : OrderedDict κ ν := ⟨putEntries k v d.entries, nodup_putEntries d.nodup⟩

/-- `min(d, key=f)`, over the values; `none` for an empty dictionary, where
Python raises. -/
def minKey {α : Type} [LinearOrder α] (d : OrderedDict κ ν) (f : ν → α) : Option κ :=
  (d.entries.argmin fun e => f e.2).map Prod.fst

theorem get?_eq_some_iff : d.get? k = .some v ↔ (k, v) ∈ d.entries := by
  unfold get?
  constructor
  · intro h
    obtain ⟨e, he, rfl⟩ := Option.map_eq_some_iff.mp h
    have hk : e.1 = k := by simpa using List.find?_some he
    rw [← hk]
    exact List.mem_of_find?_eq_some he
  · intro h
    obtain ⟨e, he⟩ : ∃ e, d.entries.find? (·.1 = k) = .some e := by
      rw [← Option.isSome_iff_exists, List.find?_isSome]
      exact ⟨(k, v), h, by simp⟩
    have hk : e.1 = k := by simpa using List.find?_some he
    have heq : e = (k, v) := List.inj_on_of_nodup_map d.nodup (List.mem_of_find?_eq_some he) h hk
    rw [he, heq]
    rfl

omit [DecidableEq κ] in
theorem mem_filter {p : κ → ν → Bool} {e : κ × ν} : e ∈ (d.filter p).entries ↔ e ∈ d.entries ∧ p e.1 e.2 = true := by
  rw [filter, List.mem_filter]

theorem mem_erase {e : κ × ν} : e ∈ (d.erase k).entries ↔ e ∈ d.entries ∧ e.1 ≠ k := by
  rw [erase, mem_filter, decide_eq_true_iff]

theorem get?_erase_of_ne (h : k ≠ k') : (d.erase k').get? k = d.get? k := by
  refine Option.ext fun v => ?_
  rw [get?_eq_some_iff, get?_eq_some_iff, mem_erase]
  exact and_iff_left h

/-- An entry of `d[k] = v` is the new one, or an old one. -/
theorem mem_of_mem_put {e : κ × ν} (h : e ∈ (d.put k v).entries) : e = (k, v) ∨ e ∈ d.entries := by
  unfold put putEntries at h
  simp only at h
  split at h
  · obtain ⟨e', he', rfl⟩ := List.mem_map.mp h
    by_cases hk : e'.1 = k
    · simp [hk]
    · simp [hk, he']
  · rcases List.mem_append.mp h with h | h
    · exact .inr h
    · exact .inl (List.mem_singleton.mp h)

theorem get?_put_self : (d.put k v).get? k = .some v := by
  rw [get?_eq_some_iff]
  unfold put putEntries
  simp only
  split
  · next hk =>
    obtain ⟨e, he, hek⟩ := List.mem_map.mp hk
    exact List.mem_map.mpr ⟨e, he, by rw [if_pos hek]⟩
  · simp

theorem get?_eq_none_iff : d.get? k = .none ↔ ∀ e ∈ d.entries, e.1 ≠ k := by
  unfold get?
  rw [Option.map_eq_none_iff, List.find?_eq_none]
  simp

/-- A new key is put last. -/
theorem put_of_new (h : d.get? k = .none) : (d.put k v).entries = d.entries ++ [(k, v)] := by
  have hnew : k ∉ d.entries.map Prod.fst := by
    intro hmem
    obtain ⟨e, he, hk⟩ := List.mem_map.mp hmem
    exact get?_eq_none_iff.mp h e he hk
  exact if_neg hnew

omit [DecidableEq κ] in
/-- A key has one entry. -/
theorem ne_of_split {pre post : List (κ × ν)} (h : d.entries = pre ++ (k, v) :: post) : ∀ e ∈ pre ++ post, e.1 ≠ k := by
  have hnodup := d.nodup
  rw [h, (List.perm_middle.map Prod.fst).nodup_iff, List.map_cons, List.nodup_cons] at hnodup
  exact fun e he hk => hnodup.1 (List.mem_map.mpr ⟨e, he, hk⟩)

/-- A key that is there keeps its place. -/
theorem put_of_split {pre post : List (κ × ν)} (h : d.entries = pre ++ (k, v') :: post) :
    (d.put k v).entries = pre ++ (k, v) :: post := by
  have hne := ne_of_split h
  have hothers : ∀ es : List (κ × ν), (∀ e ∈ es, e.1 ≠ k) → (es.map fun e => if e.1 = k then (k, v) else e) = es := by
    intro es hes
    have hid : (es.map fun e => if e.1 = k then (k, v) else e) = es.map id :=
      List.map_congr_left fun e he => if_neg (hes e he)
    rw [hid, List.map_id]
  have hmem : k ∈ d.entries.map Prod.fst := by simp [h]
  have hput : (d.put k v).entries = d.entries.map fun e => if e.1 = k then (k, v) else e := if_pos hmem
  rw [hput, h, List.map_append, List.map_cons, if_pos rfl, hothers pre fun e he => hne e (List.mem_append_left _ he),
    hothers post fun e he => hne e (List.mem_append_right _ he)]

/-- `del` takes the one entry of the key out. -/
theorem erase_of_split {pre post : List (κ × ν)} (h : d.entries = pre ++ (k, v) :: post) :
    (d.erase k).entries = pre ++ post := by
  have hkeep : ∀ e ∈ pre ++ post, decide (e.1 ≠ k) = true := fun e he => decide_eq_true (ne_of_split h e he)
  have herase : (d.erase k).entries = d.entries.filter fun e => e.1 ≠ k := rfl
  rw [herase, h, List.filter_append, List.filter_cons_of_neg (by simp), ← List.filter_append]
  exact List.filter_eq_self.mpr hkeep

omit [DecidableEq κ] in
theorem nodup_entries (d : OrderedDict κ ν) : d.entries.Nodup := List.Nodup.of_map _ d.nodup

end OrderedDict
