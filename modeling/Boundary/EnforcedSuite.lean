/-
`boundary.testing.assert_rls_enforced`, which a test suite runs under, against
the startup check on the same connection.

The connection that the parameters open is asked what the check asks the default
connection; here no query fails.
-/
import Boundary.CheckFacts

namespace Boundary

open Exec

/-! ## The assertion -/

/-- What is raised: `RLSNotEnforcedError`, with its text. -/
def rlsNotEnforced (message : String) : Exc := .other ("RLSNotEnforcedError: " ++ message)

/-- `f"{b}"`. -/
def formatBool (b : Bool) : String := if b then "True" else "False"

def roleBypasses (user : String) (rolsuper rolbypassrls : Bool) : Exc :=
  rlsNotEnforced ("Role " ++ user ++ " connecting for RLS tests has rolsuper=" ++ formatBool rolsuper ++
    ", rolbypassrls=" ++ formatBool rolbypassrls ++ ". PostgreSQL exempts a superuser or BYPASSRLS role from every " ++
    "RLS policy, so isolation tests run as this role would pass without testing anything. Connect as a plain " ++
    "NOSUPERUSER NOBYPASSRLS role (see boundary.testing.provision_rls_test_role()).")

def noTableEnforced : Exc :=
  rlsNotEnforced ("No registered tenant-scoped table has Row Level Security both enabled and forced (relrowsecurity " ++
    "and relforcerowsecurity), counting adopted tables as well as column-bearing models. RLS-isolation tests would " ++
    "pass without any policy actually restricting rows. Run the EnableRLS/CreateTenantPolicy migration operations, " ++
    "re-apply the AdoptTenantApp migration for an adopted app, or see boundary.E006 and boundary.E007.")

/-- The connections of a suite: `connections[alias].vendor`, what
`psycopg.connect` raises, and `repr` of the parameters' user. -/
structure SuiteConnections where
  vendor : Alias → Except Exc Vendor
  connect : Except Exc Unit := .ok ()
  user : String

section

variable {δ : Type} (env : CheckEnv δ)

/-- The loop over tables; `checked` is `checked_any_table`, and nothing is left of
it when a table is found that enforces row security. -/
def CheckEnv.searchEnforced : Bool → List AppModel → Except Exc (Option Bool)
  | checked, [] => .ok (.some checked)
  | checked, m :: models => do
    match ← env.probe m.dbTable with
    | .none => CheckEnv.searchEnforced checked models
    | .some (enabled, forced) =>
      if enabled && forced then return .none else CheckEnv.searchEnforced true models

/-- `assert_rls_enforced`. The adopted tables are derived when the others have
been gone through. -/
def assertRlsEnforced (suite : SuiteConnections) (alias_ : Alias) : Except Exc Unit := do
  if (← suite.vendor alias_) ≠ .postgresql then return ()
  else
    suite.connect
    match ← env.role with
    | .some (rolsuper, rolbypassrls) =>
      if rolsuper || rolbypassrls then throw (roleBypasses suite.user rolsuper rolbypassrls)
      else tables
    | .none => tables
where
  tables : Except Exc Unit := do
    match ← env.searchEnforced false env.columnBearing with
    | .none => return ()
    | .some checked =>
      let expected ← env.expectedAdoptedTables
      match ← env.searchEnforced checked (unseen (env.columnBearing.map AppModel.dbTable) expected) with
      | .none => return ()
      | .some checked => if checked then throw noTableEnforced else return ()

end

/-! ## The assertion and the check -/

section

variable {δ : Type} {env : CheckEnv δ} {suite : SuiteConnections} {msgs : List CheckMessage}

/-- Where no probe fails, the loop ends at the first table that enforces row
security, or else knows whether there is a table. -/
theorem searchEnforced_eq (hprobes : ∀ table, env.probeFails table = .none) (checked : Bool) (models : List AppModel) :
    env.searchEnforced checked models =
      .ok (if models.any fun m => env.protected? m.dbTable = .some true then .none
        else .some (checked || models.any fun m => (env.protected? m.dbTable).isSome)) := by
  induction models generalizing checked with
  | nil => simp [CheckEnv.searchEnforced]
  | cons m models ih =>
    have hprobe : env.probe m.dbTable =
        .ok ((regclassTable env.toServer env.catalogue m.dbTable).map fun t =>
          (t.rowSecurity, t.forceRowSecurity)) := by
      rw [CheckEnv.probe, hprobes]
    rw [CheckEnv.searchEnforced, List.any_cons, List.any_cons]
    cases hfound : regclassTable env.toServer env.catalogue m.dbTable with
    | none =>
      have hnone : env.protected? m.dbTable = .none := by simp [CheckEnv.protected?, hprobe, hfound]
      rw [hprobe, hfound, hnone]
      exact (ih checked).trans (by simp)
    | some t =>
      have hsome : env.protected? m.dbTable = .some (t.rowSecurity && t.forceRowSecurity) := by
        simp [CheckEnv.protected?, hprobe, hfound]
      rw [hprobe, hfound, hsome]
      show (if t.rowSecurity && t.forceRowSecurity then pure .none else env.searchEnforced true models) = _
      cases t.rowSecurity && t.forceRowSecurity with
      | true => simp [pure, Except.pure]
      | false => exact (ih true).trans (by simp)

/-- The tables gone through in two parts are those of the check. -/
theorem tables_eq {targets : List (Bool × AppModel)} (hprobes : ∀ table, env.probeFails table = .none)
    (htargets : env.rlsProbeTargets = .ok targets) :
    assertRlsEnforced.tables env =
      if (targets.any fun t => (env.protected? t.2.dbTable).isSome) = true ∧
          (targets.any fun t => env.protected? t.2.dbTable = .some true) = false then .error noTableEnforced
      else .ok () := by
  unfold CheckEnv.rlsProbeTargets at htargets
  obtain ⟨expected, hexpected, rfl⟩ := exceptMap_ok_iff.mp htargets
  simp only [List.any_append, List.any_map, Function.comp_def]
  have hfirst := searchEnforced_eq hprobes false env.columnBearing
  have hsecond := fun checked =>
    searchEnforced_eq hprobes checked (unseen (env.columnBearing.map AppModel.dbTable) expected)
  unfold assertRlsEnforced.tables
  cases henforced : env.columnBearing.any fun m => env.protected? m.dbTable = .some true with
  | true =>
    rw [henforced, if_pos rfl] at hfirst
    rw [hfirst]
    exact (if_neg fun h => absurd h.2 (by simp)).symm
  | false =>
    rw [henforced, if_neg Bool.false_ne_true] at hfirst
    rw [hfirst, hexpected]
    simp only [bind, Except.bind, hsecond, Bool.false_or]
    cases (unseen (env.columnBearing.map AppModel.dbTable) expected).any fun m =>
        env.protected? m.dbTable = .some true with
    | true => exact (if_neg fun h => absurd h.2 (by simp)).symm
    | false =>
      simp only [if_neg Bool.false_ne_true, and_true]
      cases (env.columnBearing.any fun m => (env.protected? m.dbTable).isSome) ||
          (unseen (env.columnBearing.map AppModel.dbTable) expected).any fun m =>
            (env.protected? m.dbTable).isSome with
      | true => rfl
      | false => rfl

theorem w003_iff {role : Option (Bool × Bool)} {out : List CheckMessage} (hpg : env.vendor = .postgresql)
    (hrole : env.role = .ok role) (h : checkRlsBypassable env = .ok out) :
    reportsOf "boundary.W003" out ≠ [] ↔ role.any (fun r => r.1 || r.2) = true := by
  unfold checkRlsBypassable at h
  rw [if_neg (not_not.mpr hpg), hrole] at h
  rcases role with _ | ⟨rolsuper, rolbypassrls⟩
  · rw [← Except.ok.inj h]
    simp [reportsOf]
  · simp only at h
    split at h
    · next hnot =>
      rw [← Except.ok.inj h]
      simpa [reportsOf] using hnot
    · next hbypass =>
      have hany : (rolsuper || rolbypassrls) = true := by
        rwa [Bool.not_eq_true, Bool.not_eq_false'] at hbypass
      rw [← Except.ok.inj h, Option.any_some, hany]
      simp [reportsOf]

/-- Every table that is found is one without row security when as many are
reported as are found. -/
theorem disabled_length_eq_iff {targets : List (Bool × AppModel)} (hshares : SharesOut env msgs targets) :
    (reportsOf "boundary.E006" msgs).length = (targets.filter fun t => (env.protected? t.2.dbTable).isSome).length ↔
      (targets.any fun t => env.protected? t.2.dbTable = .some true) = false := by
  have hlength := length_filter_some (fun t : Bool × AppModel => env.protected? t.2.dbTable) targets
  rw [hshares.disabled, List.length_map, ← hlength, Nat.left_eq_add, List.length_eq_zero_iff, List.filter_eq_nil_iff,
    List.any_eq_false]

theorem raises_iff {alias_ : Alias} {role : Option (Bool × Bool)} (hrole : env.role = .ok role)
    (hvendor : suite.vendor alias_ = .ok .postgresql) (hconnect : suite.connect = .ok ()) :
    (∃ e, assertRlsEnforced env suite alias_ = .error e) ↔
      role.any (fun r => r.1 || r.2) = true ∨ ∃ e, assertRlsEnforced.tables env = .error e := by
  unfold assertRlsEnforced
  rw [hvendor, hconnect, hrole]
  rcases role with _ | ⟨_ | _, _ | _⟩
  · exact ⟨.inr, fun h => h.resolve_left Bool.false_ne_true⟩
  · exact ⟨.inr, fun h => h.resolve_left Bool.false_ne_true⟩
  · exact ⟨fun _ => .inl rfl, fun _ => ⟨_, rfl⟩⟩
  · exact ⟨fun _ => .inl rfl, fun _ => ⟨_, rfl⟩⟩
  · exact ⟨fun _ => .inl rfl, fun _ => ⟨_, rfl⟩⟩

/-- Where a startup check returns and no query fails, the assertion on the same
connection raises when the check reports `boundary.W003`, or finds tables and
reports `boundary.E006` of each; and else returns. -/
theorem assertRlsEnforced_raises_iff {alias_ : Alias} {role : Option (Bool × Bool)} (hpg : env.vendor = .postgresql)
    (htenant : env.settings.tenantModelString.isSome = true) (hprobes : ∀ table, env.probeFails table = .none)
    (hrole : env.role = .ok role) (hcheck : checkBoundaryConfiguration env = .ok msgs)
    (hvendor : suite.vendor alias_ = .ok .postgresql) (hconnect : suite.connect = .ok ()) :
    ∃ targets, SharesOut env msgs targets ∧
      ((∃ e, assertRlsEnforced env suite alias_ = .error e) ↔
        reportsOf "boundary.W003" msgs ≠ [] ∨
          (targets.filter fun t => (env.protected? t.2.dbTable).isSome) ≠ [] ∧
          (reportsOf "boundary.E006" msgs).length =
            (targets.filter fun t => (env.protected? t.2.dbTable).isSome).length) := by
  obtain ⟨_, _, _, _, _, hprobed⟩ := checkBoundaryConfiguration_ok hcheck
  obtain ⟨targets, hshares⟩ := sharesOut_of_probed hpg htenant hprobed
  refine ⟨targets, hshares, ?_⟩
  rw [raises_iff hrole hvendor hconnect, hprobed.reports_w003, w003_iff hpg hrole hprobed.role,
    disabled_length_eq_iff hshares, tables_eq hprobes hshares.probed]
  refine or_congr Iff.rfl ?_
  have hfound : (targets.filter fun t => (env.protected? t.2.dbTable).isSome) ≠ [] ↔
      (targets.any fun t => (env.protected? t.2.dbTable).isSome) = true := by
    simp only [ne_eq, List.filter_eq_nil_iff, List.any_eq_true, not_forall, not_not, exists_prop]
  rw [hfound]
  split
  · next hraises => exact ⟨fun _ => hraises, fun _ => ⟨_, rfl⟩⟩
  · next hreturns =>
    refine ⟨fun hraises => ?_, fun h => absurd h hreturns⟩
    obtain ⟨e, he⟩ := hraises
    cases he

/-- The suite's connections, as the shop's role. -/
def shopSuite : SuiteConnections where
  vendor _ := .ok .postgresql
  user := "'icv_app'"

/-- The shop's widgets without row security: reported, and raised for. -/
def openWidgets : Catalogue Nat where
  tables name := if name = "shop_widget" then .some { columns := [] } else .none
  constraints := []
  names := List.nodup_nil

theorem assertRlsEnforced_raises_iff_shop : ∃ msgs targets,
    checkBoundaryConfiguration (checkedShop shopSettings openWidgets) = .ok msgs ∧
      SharesOut (checkedShop shopSettings openWidgets) msgs targets ∧
      (reportsOf "boundary.W003" msgs ≠ [] ∨
        (targets.filter fun t => ((checkedShop shopSettings openWidgets).protected? t.2.dbTable).isSome) ≠ [] ∧
        (reportsOf "boundary.E006" msgs).length = (targets.filter fun t =>
          ((checkedShop shopSettings openWidgets).protected? t.2.dbTable).isSome).length) := by
  obtain ⟨msgs, h⟩ : ∃ msgs, checkBoundaryConfiguration (checkedShop shopSettings openWidgets) = .ok msgs :=
    except_exists_of_isOk (by decide +kernel)
  have hvendor : shopSuite.vendor "default" = .ok .postgresql := rfl
  obtain ⟨targets, hshares, hraises⟩ := assertRlsEnforced_raises_iff rfl rfl (fun _ => rfl) rfl h hvendor rfl
  refine ⟨msgs, targets, h, hshares, hraises.mp ?_⟩
  have hnot : (assertRlsEnforced (checkedShop shopSettings openWidgets) shopSuite "default").isOk = false := by
    decide +kernel
  cases hassert : assertRlsEnforced (checkedShop shopSettings openWidgets) shopSuite "default" with
  | error e => exact ⟨e, rfl⟩
  | ok u =>
    rw [hassert] at hnot
    cases hnot

end

end Boundary
