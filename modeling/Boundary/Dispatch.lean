/-
The dispatching side of `boundary.celery`: `TenantTask.apply_async` puts the
active tenant into a headers dict, which may be the caller's own object, and
the message carries the items the dict holds then. A worker runs the message
later, in any order, through `TenantTask.__call__` (`Boundary.Scopes`).
-/
import Boundary.Models
import Boundary.Scopes

namespace Boundary

open Exec TenantContext

/-! ## Dispatching -/

def headerRegion : String := "boundary_region"

/-- The items of a headers dict. -/
abbrev HeaderItems := AList fun _ : String => String

/-- A message the broker was handed: its headers, and the world of the task
that dispatched it. -/
structure Message where
  items : HeaderItems
  dispatchedIn : World

/-- `headers.get(name)`. -/
def Message.headers (m : Message) : Headers := fun name => m.items.lookup name

/-- The tasks that dispatch: the world of the one that runs now, the dict
objects they share, and what the broker was handed. -/
structure Dispatcher where
  world : World
  dicts : DictRef → HeaderItems
  sent : List Message := []

/-- `_get_tenant_headers`. -/
def getTenantHeaders : M HeaderItems := do
  match ← TenantContext.get with
  | .none => pure ∅
  | .some tenant => do
    let tenant ← attributes tenant
    let headers : HeaderItems := (∅ : HeaderItems).insert headerTenantId tenant.pk.str
    match tenant.region with
    | .some region => pure (if region = "" then headers else headers.insert headerRegion region)
    | .none => pure headers

/-- `headers.update(mine)` and `super().apply_async(headers=headers)`, on the
caller's dict or a new one. -/
def handOver (dict : Option DictRef) (mine : HeaderItems) : EStateM Exc Dispatcher Unit := fun d =>
  match dict with
  | .some dict =>
    let items := mine ∪ d.dicts dict
    .ok () { d with dicts := Function.update d.dicts dict items, sent := d.sent ++ [⟨items, d.world⟩] }
  | .none => .ok () { d with sent := d.sent ++ [⟨mine ∪ ∅, d.world⟩] }

/-- `options.pop("headers", {}) or {}`: `none` is a new dict, which an empty
one is replaced by. -/
def headersOption (headers : Option DictRef) : EStateM Exc Dispatcher (Option DictRef) := fun d =>
  .ok (headers.filter fun dict => !(d.dicts dict).entries.isEmpty) d

/-- `TenantTask.apply_async`, given the `headers` option. -/
def TenantTask.applyAsync (headers : Option DictRef) : EStateM Exc Dispatcher Unit := do
  let headers ← headersOption headers
  let mine ← zoom Dispatcher.world (fun w d => { d with world := w }) getTenantHeaders
  handOver headers mine

/-- What the dispatching tasks do. -/
inductive Dispatch where
  /-- `apply_async(headers=...)` in a task whose world is `w`. -/
  | applyAsync (w : World) (headers : Option DictRef)
  /-- `dict[key] = value`, by the caller. -/
  | setItem (dict : DictRef) (key value : String)
  /-- `dict.pop(key, None)`, by the caller. -/
  | delItem (dict : DictRef) (key : String)

def Dispatch.run (d : Dispatcher) : Dispatch → Dispatcher
  | applyAsync w headers => after (TenantTask.applyAsync headers) { d with world := w }
  | setItem dict key value => { d with dicts := Function.update d.dicts dict ((d.dicts dict).insert key value) }
  | delItem dict key => { d with dicts := Function.update d.dicts dict ((d.dicts dict).erase key) }

/-- The caller puts none of the package's headers into a dict. -/
def Dispatch.OwnItems : Dispatch → Prop
  | setItem _ key _ => key ≠ headerTenantId ∧ key ≠ headerRegion
  | applyAsync .. | delItem .. => True

/-! ## What a message carries -/

/-- The primary key of the active tenant. -/
def World.activeKey (w : World) : Option PrimaryKey := (w.tenant? w.contextVars.currentTenant).map Tenant.pk

/-- The tenant the headers name; empty when they name none. -/
def namedTenant (headers : Headers) : String := (headers headerTenantId).getD ""

/-- The message names the tenant it was dispatched under, and no other. -/
def Message.Carries (m : Message) : Prop :=
  namedTenant m.headers = (m.dispatchedIn.activeKey.map PrimaryKey.str).getD ""

section

variable {d : Dispatcher} {w : World} {headers : Option DictRef}

theorem getTenantHeaders_run (w : World) :
    ∃ mine, getTenantHeaders w = .ok mine w ∧ mine.lookup headerTenantId = w.activeKey.map PrimaryKey.str := by
  have hregion : headerTenantId ≠ headerRegion := by decide
  unfold World.activeKey World.tenant?
  cases ht : w.contextVars.currentTenant with
  | none => exact ⟨∅, by simp [getTenantHeaders, bind_run, TenantContext.get, ht], by simp⟩
  | some t =>
    have hid : ((∅ : HeaderItems).insert headerTenantId (w.tenants t).pk.str).lookup headerTenantId =
        .some (w.tenants t).pk.str := AList.lookup_insert _
    simp only [getTenantHeaders, bind_run, TenantContext.get, ht, attributes, Option.map_some]
    cases (w.tenants t).region with
    | none => exact ⟨_, rfl, hid⟩
    | some region =>
      refine ⟨_, rfl, ?_⟩
      split
      · exact hid
      · rw [AList.lookup_insert_ne hregion]
        exact hid

theorem lookup_of_isEmpty {items : HeaderItems} (h : items.entries.isEmpty = true) (name : String) :
    items.lookup name = .none := by
  rw [AList.lookup_eq_none, AList.mem_keys, AList.keys, List.isEmpty_iff.mp h]
  exact List.not_mem_nil

theorem lookup_update {mine items : HeaderItems} (name : String) :
    (mine ∪ items).lookup name = (mine.lookup name).or (items.lookup name) := by
  cases hmine : mine.lookup name with
  | some value =>
    rw [AList.lookup_union_left (AList.lookup_isSome.mp (by rw [hmine]; rfl)), hmine]
    rfl
  | none =>
    rw [AList.lookup_union_right (AList.lookup_eq_none.mp hmine)]
    rfl

/-- The tenant header a dispatch with these headers finds in the dict it is
passed. -/
def leftover (d : Dispatcher) (headers : Option DictRef) : Option String :=
  headers.bind fun dict => (d.dicts dict).lookup headerTenantId

/-- `apply_async` hands over the caller's dict, if it has items, with the
tenant's written into it. -/
theorem applyAsync_run {mine : HeaderItems} (hmine : getTenantHeaders d.world = .ok mine d.world) :
    TenantTask.applyAsync headers d = handOver (headers.filter fun dict => !(d.dicts dict).entries.isEmpty) mine d := by
  simp only [TenantTask.applyAsync, bind_run, headersOption, zoom, hmine]

/-- One dispatch hands over one message, with the key of the active tenant, or
else what the dict already held. -/
theorem applyAsync_sent (d : Dispatcher) (w : World) (headers : Option DictRef) :
    ∃ m, (Dispatch.run d (.applyAsync w headers)).sent = d.sent ++ [m] ∧ m.dispatchedIn = w ∧
      m.headers headerTenantId = (w.activeKey.map PrimaryKey.str).or (leftover d headers) := by
  obtain ⟨mine, hmine, hid⟩ := getTenantHeaders_run w
  unfold Dispatch.run after
  simp only [applyAsync_run (d := { d with world := w }) hmine]
  cases headers with
  | none =>
    refine ⟨⟨mine ∪ ∅, w⟩, rfl, rfl, ?_⟩
    rw [Message.headers, lookup_update, hid]
    rfl
  | some dict =>
    cases hempty : (d.dicts dict).entries.isEmpty with
    | false =>
      refine ⟨⟨mine ∪ d.dicts dict, w⟩, by simp [handOver, Option.filter, hempty], rfl, ?_⟩
      rw [Message.headers, lookup_update, hid]
      rfl
    | true =>
      refine ⟨⟨mine ∪ ∅, w⟩, by simp [handOver, Option.filter, hempty], rfl, ?_⟩
      rw [Message.headers, lookup_update, hid]
      simp [leftover, lookup_of_isEmpty hempty]

theorem Message.carries_activeKey_iff {m : Message} (hw : m.dispatchedIn = w)
    (hid : m.headers headerTenantId = (w.activeKey.map PrimaryKey.str).or (leftover d headers)) :
    m.Carries ↔ (w.activeKey = .none → (leftover d headers).getD "" = "") := by
  rw [Message.Carries, namedTenant, hid, hw]
  cases w.activeKey <;> simp

/-- A dispatch with no tenant active is not passed a dict that holds a tenant
header already. -/
def Dispatch.Unmarked (d : Dispatcher) : Dispatch → Prop
  | applyAsync w headers => w.activeKey = .none → (leftover d headers).getD "" = ""
  | setItem .. | delItem .. => True

/-- Just the dispatches that find no tenant header when no tenant is active
send a message that names the right tenant. -/
theorem sent_carries_iff (steps : List Dispatch) (d : Dispatcher) :
    (∀ m ∈ (steps.foldl Dispatch.run d).sent, m.Carries) ↔
      (∀ m ∈ d.sent, m.Carries) ∧ Runs.Allowed Dispatch.run Dispatch.Unmarked steps d := by
  induction steps generalizing d with
  | nil => simp [Runs.Allowed]
  | cons step steps ih =>
    rw [List.foldl_cons, ih, Runs.Allowed]
    cases step with
    | setItem dict key value => simp [Dispatch.run, Dispatch.Unmarked]
    | delItem dict key => simp [Dispatch.run, Dispatch.Unmarked]
    | applyAsync w headers =>
      obtain ⟨m, hsent, hw, hid⟩ := applyAsync_sent d w headers
      rw [hsent, List.forall_mem_append, List.forall_mem_singleton, Message.carries_activeKey_iff hw hid, and_assoc]
      rfl

/-- A step by which a dict comes to hold a tenant header is a dispatch under a
tenant that is passed that dict. -/
theorem marked_by_step {step : Dispatch} {dict : DictRef} (hown : step.OwnItems)
    (hclean : (d.dicts dict).lookup headerTenantId = .none)
    (hmarked : ((step.run d).dicts dict).lookup headerTenantId ≠ .none) :
    ∃ w, step = .applyAsync w (.some dict) ∧ w.activeKey ≠ .none := by
  cases step with
  | setItem other key value =>
    simp only [Dispatch.run, Function.update_apply] at hmarked
    split at hmarked
    · next heq =>
      subst heq
      rw [AList.lookup_insert_ne (Ne.symm hown.1)] at hmarked
      exact absurd hclean hmarked
    · exact absurd hclean hmarked
  | delItem other key =>
    simp only [Dispatch.run, Function.update_apply] at hmarked
    split at hmarked
    · next heq =>
      subst heq
      by_cases hkey : headerTenantId = key
      · subst hkey
        exact absurd (AList.lookup_erase _ _) hmarked
      · rw [AList.lookup_erase_ne hkey] at hmarked
        exact absurd hclean hmarked
    · exact absurd hclean hmarked
  | applyAsync w headers =>
    obtain ⟨mine, hmine, hid⟩ := getTenantHeaders_run w
    unfold Dispatch.run after at hmarked
    simp only [applyAsync_run (d := { d with world := w }) hmine, handOver] at hmarked
    cases hheaders : headers.filter fun dict => !(d.dicts dict).entries.isEmpty with
    | none =>
      rw [hheaders] at hmarked
      exact absurd hclean hmarked
    | some other =>
      simp only [hheaders, Function.update_apply] at hmarked
      split at hmarked
      · next heq =>
        subst heq
        refine ⟨w, by rw [(Option.filter_eq_some_iff.mp hheaders).1], fun hkey => hmarked ?_⟩
        rw [lookup_update, hid, hkey, hclean]
        rfl
      · exact absurd hclean hmarked

/-- A dict that only ever got the caller's own items holds a tenant header
only after a dispatch under a tenant that was passed it. -/
theorem marked_by_dispatch {steps : List Dispatch} {dict : DictRef} (hown : ∀ step ∈ steps, step.OwnItems)
    (hclean : (d.dicts dict).lookup headerTenantId = .none)
    (hmarked : ((steps.foldl Dispatch.run d).dicts dict).lookup headerTenantId ≠ .none) :
    ∃ w, .applyAsync w (.some dict) ∈ steps ∧ w.activeKey ≠ .none := by
  induction steps generalizing d with
  | nil => exact absurd hclean hmarked
  | cons step steps ih =>
    by_cases hstep : ((step.run d).dicts dict).lookup headerTenantId = .none
    · obtain ⟨w, hmem, hactive⟩ := ih (fun s hs => hown s (List.mem_cons_of_mem _ hs)) hstep hmarked
      exact ⟨w, List.mem_cons_of_mem _ hmem, hactive⟩
    · obtain ⟨w, rfl, hactive⟩ := marked_by_step (hown step List.mem_cons_self) hclean hstep
      exact ⟨w, List.mem_cons_self, hactive⟩

end

end Boundary
