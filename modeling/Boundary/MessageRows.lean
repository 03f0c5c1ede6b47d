/-
From a dispatch to the rows: what a task's body, run from a message on any
worker, may see of a table with row security. It is the rows of the tenant the
message was dispatched under, and none where there was none.
-/
import Boundary.RequestRows
import Boundary.TaskRuns

namespace Boundary

open Exec TenantContext

variable {δ : Type}

/-- A row of the tenant with this key. -/
def isOfKey [DecidableEq δ] (s : SqlSession δ) (pgType tenantColumn : String) (key : Option PrimaryKey) (r : SqlRow δ) :
    Bool :=
  (key.bind fun pk => s.cast pgType pk.str).any fun value => decide (r tenantColumn = .some value)

section

variable {st : Settings} {find : String → Option TenantRef} {body : M Unit} {headers : Headers} {w w' : World}
  {t : TenantRef} {frames : List (Option SessionVars)}

/-- The body is called in the world the headers restored, inside the transaction. -/
theorem runRestored_calls {call : World} (hcall : call ∈ (after (runRestored st find body headers) ⟨w, []⟩).calls) :
    ∃ opened cs token, ensureAtomic st "default" w.connections = .ok opened cs ∧
      restoreTenantContext st find headers { w with connections := cs } = .ok token call := by
  unfold runRestored at hcall
  rcases after_withEnsureAtomic st "default" (do
      let token ← lift (restoreTenantContext st find headers)
      ensuring (called id body) fun _ => lift (clearRestored st token)) ⟨w, []⟩ with
    ⟨_, hafter, -⟩ | ⟨opened, cs, failed, hopen, hafter⟩
  · rw [hafter] at hcall
    exact absurd hcall List.not_mem_nil
  rw [hafter] at hcall
  rcases after_startThenCalled (restoreTenantContext st find headers) (clearRestored st) id body
      ⟨{ w with connections := cs }, []⟩ with ⟨e, w₂, -, hinner⟩ | ⟨token, w₁, hok, hinner⟩
  · rw [hinner] at hcall
    exact absurd hcall List.not_mem_nil
  · rw [hinner] at hcall
    obtain rfl := List.mem_singleton.mp hcall
    exact ⟨opened, cs, token, hopen, hok⟩

/-- Nothing is restored, or a tenant is set after a query. -/
theorem restoreTenantContext_set {token : Option Token} (h : restoreTenantContext st find headers w = .ok token w') :
    w' = w ∨ ∃ t w₁ token, World.Ran w w₁ ∧ TenantContext.set st (.some t) "default" w₁ = .ok token w' := by
  unfold restoreTenantContext at h
  cases hid : headers headerTenantId with
  | none =>
    rw [hid] at h
    cases h
    exact .inl rfl
  | some tenantId =>
    simp only [hid] at h
    split at h
    · cases h
      exact .inl rfl
    · obtain ⟨_, w₁, hquery, h⟩ := bind_ok_iff.mp h
      cases hfind : find tenantId with
      | none =>
        rw [hfind] at h
        cases h
      | some t =>
        simp only [hfind, bind_ok_iff, pure_run] at h
        obtain ⟨token', w₂, hset, hok⟩ := h
        cases hok
        exact .inr ⟨t, w₁, token', query_ran hquery, hset⟩

/-- `set` in a transaction is in force on `default`. -/
theorem set_default {token : Token} (hset : st.setDbSessionVar = true) (hpg : isPostgresql st "default" = true)
    (hin : (w.connections "default").inAtomicBlock = true)
    (hok : TenantContext.set st (.some t) "default" w = .ok token w') :
    (w'.connections "default").usable = true →
      (w'.connections "default").vars st.dbSessionVar = (w.tenants t).pk.str := by
  have hwrites : writesVar st "default" = true := writesVar_eq_true.mpr ⟨hset, hpg⟩
  obtain ⟨-, cs, hcs, rfl⟩ := set_ok hok
  have hd : "default" ∈ aliasesFor st (.some (w.tenants t)) "default" := mem_aliasesFor.mpr (.inl rfl)
  obtain ⟨hran, -, -⟩ := setDbSessionOn_ok ((setAll_ok hcs).1 "default" hd)
  intro hu
  have hvars := hran.vars hu
  rw [hin, if_pos rfl] at hvars
  rw [show (w.withTenant (.some t) cs).connections "default" = cs "default" from rfl, hvars]
  exact writeVar_apply _ hwrites

theorem inAtomicBlock_of_ensureAtomic {opened : Bool} {cs : Connections} (hwrap : st.wrapAtomic = true)
    (hpg : isPostgresql st "default" = true) (hopen : ensureAtomic st "default" w.connections = .ok opened cs) :
    (cs "default").inAtomicBlock = true := by
  obtain ⟨hopened, -, hno, hyes⟩ := ensureAtomic_ok hopen
  cases opened with
  | true => exact (Connection.atomicEnter_spec (hyes rfl)).1
  | false =>
    rw [hno rfl]
    simpa [opensAtomic, hwrap, isSome_of_isPostgresql hpg] using hopened.symm

/-- The settings `default` carries when the body is called. -/
theorem sessionState_of_restored {call : World} (hset : st.setDbSessionVar = true) (hwrap : st.wrapAtomic = true)
    (hdistinct : st.dbSessionVar ≠ st.adminFlagVar) (hpg : isPostgresql st "default" = true)
    (hclean : Clean st frames w) (hflag : FlagDown st (w.connections "default"))
    (hcall : call ∈ (after (runRestored st find body headers) ⟨w, []⟩).calls)
    (hu : (call.connections "default").usable = true) : SessionState st ⟨call, []⟩ "default" := by
  obtain ⟨opened, cs, token, hopen, hrestored⟩ := runRestored_calls hcall
  have hentered : FlagDown st (cs "default") := hflag.enter hopen
  rcases restoreTenantContext_set hrestored with rfl | ⟨t, w₁, token', hran, hok⟩
  · refine ⟨?_, fun h => absurd h (hentered hu), fun h => absurd h (Nat.lt_irrefl 0)⟩
    have hvars : (cs "default").vars st.dbSessionVar = "" := by
      obtain ⟨-, -, hno, hyes⟩ := ensureAtomic_ok hopen
      cases opened with
      | true =>
        obtain ⟨-, hsame, husable⟩ := Connection.atomicEnter_spec (hyes rfl)
        rw [hsame]
        exact hclean.vars (husable hu)
      | false =>
        rw [hno rfl]
        exact hclean.vars (hno rfl ▸ hu)
    rw [activeKey, show ({ w with connections := cs } : World).contextVars.currentTenant = .none from
      hclean.currentTenant]
    exact hvars
  · have hinside := inAtomicBlock_of_ensureAtomic hwrap hpg hopen
    have hqueried : (w₁.connections "default").inAtomicBlock = true := by
      rw [(hran.connections "default").inAtomicBlock]
      exact hinside
    have hdown : FlagDown st (w₁.connections "default") :=
      FlagDown.of_ran hentered (hran.connections "default") hdistinct (changesOnly_id _)
    obtain ⟨-, hw', hset'⟩ := set_spec hok
    have hcalled : FlagDown st (call.connections "default") :=
      hdown.of_ran ( hset' "default").1 hdistinct (changesOnly_entryVars _ _ _ _)
    refine ⟨?_, fun h => absurd h (hcalled hu), fun h => absurd h (Nat.lt_irrefl 0)⟩
    have hcontext : call.contextVars.currentTenant = .some t := by rw [hw']; rfl
    have htenants : call.tenants = w₁.tenants := by rw [hw']; rfl
    rw [activeKey, hcontext]
    simp only [if_pos (mem_aliasesFor.mpr (.inl rfl))]
    rw [htenants]
    exact set_default hset hpg hqueried hok hu

theorem permitted_of_activeKey (st : Settings) [DecidableEq δ] {s : SqlSession δ} {pgType tenantColumn : String}
    (r : SqlRow δ) :
    permitted st s pgType tenantColumn ⟨w, []⟩ "default" r = isOfKey s pgType tenantColumn w.activeKey r := by
  unfold permitted activeTenantId isOfKey World.activeKey World.tenant?
  cases w.contextVars.currentTenant with
  | none => rfl
  | some t =>
    have hcovered : "default" ∈ aliasesFor st (.some (w.tenants t)) "default" := mem_aliasesFor.mpr (.inl rfl)
    simp [openBypasses, hcovered]

/-- Where no dispatch without a tenant is passed a dict that holds a tenant
header, the body that a message runs is shown, on a usable default connection,
and may write there the rows of the tenant it was dispatched under, whatever
worker without a tenant runs it. -/
theorem messages_seeOwnRows [DecidableEq δ] {s : SqlSession δ} {env : RlsEnv δ} {cat : Catalogue δ}
    {table tenantColumn pgType : String} {definition : Table δ} {dicts : DictRef → HeaderItems} {w₀ : World}
    {steps : List Dispatch} (hset : st.setDbSessionVar = true) (hwrap : st.wrapAtomic = true)
    (hdistinct : st.dbSessionVar ≠ st.adminFlagVar) (hpg : isPostgresql st "default" = true)
    (hpoliced : PolicedIn st s env cat table tenantColumn pgType definition)
    (hunmarked : Runs.Allowed Dispatch.run Dispatch.Unmarked steps ⟨w₀, dicts, []⟩) :
    ∀ m ∈ (steps.foldl Dispatch.run ⟨w₀, dicts, []⟩).sent, ∀ find body worker,
      Clean st frames worker → FlagDown st (worker.connections "default") → FindsByKey worker.tenants find →
      ∀ call ∈ (after (TenantTask.call st find body m.headers) ⟨worker, []⟩).calls,
        (call.connections "default").usable = true → ∀ row,
          let guard := (s.on (call.connections "default")).guard cat table definition
          guard.visible row = isOfKey s pgType tenantColumn m.dispatchedIn.activeKey row ∧
            guard.writable row = isOfKey s pgType tenantColumn m.dispatchedIn.activeKey row := by
  intro m hm find body worker hclean hflag hfind call hcall hu row
  have hcarries : m.Carries :=
    (sent_carries_iff steps _).mpr ⟨fun _ h => absurd h List.not_mem_nil, hunmarked⟩ m hm
  have hruns : RunsUnder st find body m.headers m.dispatchedIn.activeKey worker :=
    runsUnder_of_names hcarries hclean.currentTenant hfind
  have hkey := hruns.tenant call hcall
  have hstate := sessionState_of_restored hset hwrap hdistinct hpg hclean hflag hcall hu
  simp only [← hkey, ← permitted_of_activeKey st row]
  exact hpoliced.guard hstate row

end

/-! ## A task of the shop -/

/-- A task in which the tenant 1 is active. -/
def forFirst : World := TwoRegions.autocommit.withTenant (.some 0) TwoRegions.autocommit.connections

/-- A dispatch under the tenant 1, then one with no tenant. -/
def firstThenNone : List Dispatch := [.applyAsync forFirst (.some 0), .applyAsync TwoRegions.autocommit (.some 1)]

def findFirst (tenantId : String) : Option TenantRef := if tenantId = "1" then .some 0 else .none

theorem repr_eq_one {n : Nat} (h : n.repr = "1") : n = 1 := by
  have hdigits : Nat.toDigits 10 n = ['1'] := by
    have htoList := congrArg String.toList h
    simpa [Nat.repr] using htoList
  rw [Nat.toDigits_eq_if (by decide)] at hdigits
  split at hdigits
  next hlt =>
    have hsmall : ∀ n < 10, Nat.digitChar n = '1' → n = 1 := by decide
    exact hsmall n hlt (List.singleton_inj.mp hdigits)
  · have hlength := congrArg List.length hdigits
    have hsome : 0 < (Nat.toDigits 10 (n / 10)).length := List.length_pos_iff.mpr Nat.toDigits_ne_nil
    simp only [List.length_append, List.length_singleton] at hlength
    omega

/-- The key that prints as `1`. -/
theorem str_eq_one {pk : PrimaryKey} (h : pk.str = "1") : pk = .int 1 := by
  cases pk with
  | int value =>
    cases value with
    | ofNat n =>
      rw [repr_eq_one h]
      rfl
    | negSucc n =>
      have hdash : '-' ∈ (PrimaryKey.int (.negSucc n)).str.toList := by simp [PrimaryKey.str, toString, Int.repr]
      rw [h] at hdash
      exact absurd hdash (by decide)
  | uuid value =>
    have hdash : '-' ∈ (PrimaryKey.uuid value).str.toList := by simp [PrimaryKey.str]
    rw [h] at hdash
    exact absurd hdash (by decide)

theorem findsByKey_first : FindsByKey TwoRegions.autocommit.tenants findFirst := by
  intro pk t hfound
  unfold findFirst at hfound
  split at hfound
  next hone =>
    cases hfound
    rw [str_eq_one hone]
    rfl
  · cases hfound

theorem messages_seeOwnRows_shop :
    let sent := (firstThenNone.foldl Dispatch.run
      ⟨TwoRegions.autocommit, fun _ => (∅ : HeaderItems).insert "priority" "high", []⟩).sent
    sent.map (fun m => m.dispatchedIn.activeKey) = [.some (.int 1), .none] ∧ ∀ m ∈ sent,
      ∀ call ∈ (after (TenantTask.call TwoRegions.settings findFirst (pure ()) m.headers)
          ⟨TwoRegions.autocommit, []⟩).calls,
        (call.connections "default").usable = true → ∀ row,
          ((shopSession.on (call.connections "default")).guard adoptedShop.catalogue "shop_widget"
            (shopWidgets.definition "default")).visible row =
              isOfKey shopSession "bigint" "tenant_id" m.dispatchedIn.activeKey row := by
  refine ⟨rfl, fun m hm call hcall hu row => ?_⟩
  have hpoliced := shopWidgets_policed.inDatabase (show isPostgresql TwoRegions.settings "default" = true from rfl)
  have hclean : Clean TwoRegions.settings [] TwoRegions.autocommit := ⟨rfl, rfl, fun _ => rfl⟩
  have hunmarked : Runs.Allowed Dispatch.run Dispatch.Unmarked firstThenNone
      ⟨TwoRegions.autocommit, fun _ => (∅ : HeaderItems).insert "priority" "high", []⟩ :=
    ⟨(fun h => by cases h), fun _ => rfl, trivial⟩
  exact (messages_seeOwnRows rfl rfl (by decide) rfl hpoliced hunmarked m hm
    findFirst (pure ()) TwoRegions.autocommit hclean (.of_autocommit rfl) findsByKey_first call hcall hu row).1

end Boundary
