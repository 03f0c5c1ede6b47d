/-
Any sequence of `EnableRLS`, `CreateTenantPolicy` and `DropTenantPolicy`,
forwards and backwards, against a machine that knows of a table only its row
security, boundary's policies and its columns' types; and that what such a
sequence does, the sequence back undoes.

The operations leave the models as they are, so the two states of an operation
are one.
-/
import Boundary.Noninterference
import Boundary.Reversal

namespace Boundary

open Exec

/-! ## The machine -/

/-- What boundary's operations make of a table. -/
structure Protection where
  rowSecurity : Bool
  forced : Bool
  /-- Of its policies, boundary's. -/
  policies : List Policy
deriving DecidableEq

/-- Each table's protection, if it is there, and its columns' types, which stay;
and the helper, which all share. -/
@[ext] structure Protections where
  tables : String → Option Protection
  columnType : String → String → Option String
  helper : Option TenantIdHelper

inductive Protecting where
  | enable
  | disable
  | create (column : String) (helper : TenantIdHelper)
  | drop
deriving DecidableEq

/-- A column is compared with what the helper returns. -/
def Protections.compares (comparable : String → String → Bool) (ps : Protections) (table column : String)
    (helper : TenantIdHelper) : Bool :=
  (ps.columnType table column).any fun type => comparable type helper.returns

/-- Policies that are there, even one of them, are not created again, and none
are on a column that is not compared. -/
def Protecting.apply (adminFlagVar table : String) (compares : String → TenantIdHelper → Bool) :
    Protecting → Protection → Option Protection
  | enable, p => .some { p with rowSecurity := true, forced := true }
  | disable, _ => .some ⟨false, false, []⟩
  | create column helper, p =>
    if p.policies = [] ∧ compares column helper = true then
      .some { p with policies := [tenantIsolation table column, adminBypassPolicy adminFlagVar table] }
    else .none
  | drop, p => .some { p with policies := [] }

/-- An operation that goes back leaves the helper. -/
def Protecting.leavesHelper : Protecting → Option TenantIdHelper → Option TenantIdHelper
  | create _ helper, _ => .some helper
  | _, before => before

/-- An action on a table; a table that is not there fails it, but when policies
are dropped. -/
def Protections.step (adminFlagVar : String) (comparable : String → String → Bool) (ps : Protections) :
    Option (String × Protecting) → Option Protections
  | .none => .some ps
  | .some (table, act) =>
    match ps.tables table with
    | .none => if act = .drop then .some ps else .none
    | .some p => (act.apply adminFlagVar table (ps.compares comparable table) p).map fun p =>
      { ps with tables := Function.update ps.tables table (.some p), helper := act.leavesHelper ps.helper }

/-! ## The operations -/

inductive RlsOperation where
  | enableRLS (op : EnableRLS)
  | createTenantPolicy (op : CreateTenantPolicy)
  | dropTenantPolicy (op : DropTenantPolicy)

/-- An operation of an app's migration, in a direction. -/
structure RlsStep where
  operation : RlsOperation
  backwards : Bool := false
  appLabel : String
  apps : Apps

/-- The step the other way. -/
def RlsStep.reversed (x : RlsStep) : RlsStep := { x with backwards := !x.backwards }

section

variable {δ : Type} [DecidableEq δ]

def RlsStep.run (env : RlsEnv δ) (x : RlsStep) : Adopting δ (List String) :=
  match x.operation, x.backwards with
  | .enableRLS op, false => op.databaseForwards env x.appLabel x.apps
  | .enableRLS op, true => op.databaseBackwards env x.appLabel x.apps
  | .createTenantPolicy op, false => op.databaseForwards env x.appLabel x.apps
  | .createTenantPolicy op, true => op.databaseBackwards env x.appLabel x.apps
  | .dropTenantPolicy op, false => op.databaseForwards env x.appLabel x.apps
  | .dropTenantPolicy op, true => op.databaseBackwards env x.appLabel x.apps x.apps

/-- What a step leaves, if it does not raise. -/
def RlsStep.leaves (env : RlsEnv δ) (m : Migration δ) (x : RlsStep) : Option (Migration δ) :=
  match x.run env m with
  | .ok _ m' => .some m'
  | .error _ _ => .none

end

section

variable {δ : Type}

/-- What an operation does to a model's table, past the two gates. -/
def gatedAction (env : RlsEnv δ) (apps : Apps) (override : Option String) (appLabel modelName : String)
    (act : AppModel → Option Protecting) : Option (Option (String × Protecting)) :=
  match apps.getModel (targetAppLabel override appLabel) modelName with
  | .none => .none
  | .some m =>
    if env.allowMigrateModel m = false then .some .none
    else if env.vendor = .postgresql then (act m).map fun act => .some (m.dbTable, act)
    else .some .none

/-- The policies are created with the helper, whose type is the tenant field's. -/
def creating (env : RlsEnv δ) (tenantColumn : String) (m : AppModel) : Option Protecting :=
  (env.relatedPkDbType m (removeIdSuffix tenantColumn)).map fun dbType =>
    .create tenantColumn ⟨(pgTypeMap dbType).getD "bigint", env.conf.dbSessionVar, env.conf.functionLeakproof⟩

/-- What a step does, if it does not raise before its first statement. -/
def RlsStep.action (env : RlsEnv δ) (x : RlsStep) : Option (Option (String × Protecting)) :=
  match x.operation, x.backwards with
  | .enableRLS op, false => gatedAction env x.apps op.appLabel x.appLabel op.modelName fun _ => .some .enable
  | .enableRLS op, true => gatedAction env x.apps op.appLabel x.appLabel op.modelName fun _ => .some .disable
  | .createTenantPolicy op, false =>
    gatedAction env x.apps op.appLabel x.appLabel op.modelName (creating env op.tenantColumn)
  | .createTenantPolicy op, true => gatedAction env x.apps op.appLabel x.appLabel op.modelName fun _ => .some .drop
  | .dropTenantPolicy op, false => gatedAction env x.apps op.appLabel x.appLabel op.modelName fun _ => .some .drop
  | .dropTenantPolicy op, true =>
    gatedAction env x.apps op.appLabel x.appLabel op.modelName (creating env op.tenantColumn)

def RlsStep.protects (env : RlsEnv δ) (ps : Protections) (x : RlsStep) : Option Protections :=
  (x.action env).bind (ps.step env.conf.adminFlagVar env.comparable)

theorem Protections.step_some_iff {adminFlagVar table : String} {comparable : String → String → Bool}
    {ps ps' : Protections} {act : Protecting} :
    ps.step adminFlagVar comparable (.some (table, act)) = .some ps' ↔
      (act = .drop ∧ ps.tables table = .none ∧ ps' = ps) ∨
      ∃ p p', ps.tables table = .some p ∧ act.apply adminFlagVar table (ps.compares comparable table) p = .some p' ∧
        ps' = { ps with tables := Function.update ps.tables table (.some p'), helper := act.leavesHelper ps.helper } := by
  cases hp : ps.tables table with
  | none =>
    simp only [Protections.step, hp, reduceCtorEq, false_and, exists_false, or_false, true_and]
    split
    · next hdrop => simp [hdrop, eq_comm]
    · next hdrop => simp [hdrop]
  | some p =>
    simp only [Protections.step, hp, reduceCtorEq, false_and, and_false, false_or, Option.map_eq_some_iff,
      Option.some.injEq]
    constructor
    · rintro ⟨p', hp', rfl⟩
      exact ⟨p, p', rfl, hp', rfl⟩
    · rintro ⟨_, p', rfl, hp', rfl⟩
      exact ⟨p', hp', rfl⟩

/-! ## What the catalogue shows -/

def boundaryPolicies (policies : List Policy) : List Policy :=
  policies.filter fun p => p.name = "boundary_tenant_isolation" ∨ p.name = "boundary_admin_bypass"

def Catalogue.protections (cat : Catalogue δ) : Protections where
  tables table := (cat.tables table).map fun t =>
    ⟨t.rowSecurity, t.forceRowSecurity, boundaryPolicies (cat.policiesOf table)⟩
  columnType table column := (cat.tables table).bind fun t => (t.column? column).map Column.type
  helper := cat.helper

/-- But for its protection, the table is as it was. -/
structure SameButProtected (before now : TableView δ) : Prop where
  table : now.table.map (fun t => (t.columns, t.rows)) = before.table.map fun t => (t.columns, t.rows)
  constraints : now.constraints = before.constraints
  indexes : now.indexes = before.indexes
  others : AdoptTenantApp.otherPolicies now.policies = AdoptTenantApp.otherPolicies before.policies

theorem SameButProtected.refl (v : TableView δ) : SameButProtected v v := ⟨rfl, rfl, rfl, rfl⟩

theorem SameButProtected.trans {v v' v'' : TableView δ} (h : SameButProtected v v') (h' : SameButProtected v' v'') :
    SameButProtected v v'' :=
  ⟨h'.table.trans h.table, h'.constraints.trans h.constraints, h'.indexes.trans h.indexes, h'.others.trans h.others⟩

end

/-! ## What is executed -/

section

variable {δ α β : Type} [DecidableEq δ] {server : Server δ}

/-- The program returns `a` and has executed the statements, or it raises. -/
def Executes (server : Server δ) (x : Adopting δ α) (a : α) (ss : List (Statement δ)) : Prop :=
  ∀ m b m', x m = .ok b m' ↔ b = a ∧ Executed server m ss m'

theorem Executes.pure (a : α) : Executes server (Pure.pure a) a [] := fun m b m' => by
  rw [AdoptTenantApp.executed_nil_iff]
  constructor
  · intro h
    cases h
    exact ⟨rfl, rfl⟩
  · rintro ⟨rfl, rfl⟩
    rfl

theorem Executes.schemaExecute {env : AdoptionEnv δ} (hlive : env.editor = .live) (s : Statement δ) :
    Executes env.toServer (Boundary.schemaExecute env s) () [s] := fun _ _ _ =>
  ⟨fun h => ⟨rfl, schemaExecute_ok hlive h⟩, fun h => schemaExecute_of_executed hlive h.2⟩

theorem Executes.bind {x : Adopting δ α} {f : α → Adopting δ β} {a : α} {b : β} {ss ss' : List (Statement δ)}
    (hx : Executes server x a ss) (hf : Executes server (f a) b ss') :
    Executes server (x >>= f) b (ss ++ ss') := fun m b' m' => by
  rw [bind_ok_iff, executed_append_iff]
  constructor
  · rintro ⟨a', m₁, hfirst, hrest⟩
    obtain ⟨rfl, hss⟩ := (hx _ _ _).mp hfirst
    obtain ⟨hb, hss'⟩ := (hf _ _ _).mp hrest
    exact ⟨hb, m₁, hss, hss'⟩
  · rintro ⟨hb, m₁, hss, hss'⟩
    exact ⟨a, m₁, (hx _ _ _).mpr ⟨rfl, hss⟩, (hf _ _ _).mpr ⟨hb, hss'⟩⟩

end

section

variable {δ : Type} [DecidableEq δ]

def Protecting.script (adminFlagVar table : String) : Protecting → List (Statement δ)
  | enable => [.rowSecurity table true, .forceRowSecurity table true]
  | disable => AdoptTenantApp.securityOffScript table
  | create column helper =>
    [.createHelper helper, .createPolicy (tenantIsolation table column),
      .createPolicy (adminBypassPolicy adminFlagVar table)]
  | drop =>
    [.dropPolicyIfExists table "boundary_tenant_isolation", .dropPolicyIfExists table "boundary_admin_bypass"]

/-- The program raises at once, or executes nothing, or the statements of an
action. -/
def Performs (env : RlsEnv δ) (x : Adopting δ (List String)) : Option (Option (String × Protecting)) → Prop
  | .none => ∀ m, ∃ e, x m = .error e m
  | .some .none => ∀ m, ∃ lines, x m = .ok lines m
  | .some (.some (table, act)) => Executes env.toServer x [] (act.script env.conf.adminFlagVar table)

variable {env : RlsEnv δ} {x : RlsStep} {apps : Apps} {override : Option String} {appLabel modelName : String}

theorem performs_gated {operation : String} {run : AppModel → Adopting δ (List String)}
    {act : AppModel → Option Protecting}
    (hrun : ∀ m, gatedAction env apps override appLabel modelName act = (act m).map (fun a => .some (m.dbTable, a)) →
      Performs env (run m) ((act m).map fun a => .some (m.dbTable, a))) :
    Performs env (resolving apps override appLabel modelName fun m => gated env operation m (run m))
      (gatedAction env apps override appLabel modelName act) := by
  unfold gatedAction at hrun ⊢
  unfold resolving
  cases hmodel : apps.getModel (targetAppLabel override appLabel) modelName with
  | none => exact fun m => ⟨_, rfl⟩
  | some m =>
    have hrun' := hrun m
    simp only [hmodel] at hrun' ⊢
    unfold gated
    cases hallow : env.allowMigrateModel m with
    | false => exact fun m => ⟨_, rfl⟩
    | true =>
      cases hvendor : env.vendor with
      | other vendor => exact fun m => ⟨_, rfl⟩
      | postgresql =>
        simp only [hallow, hvendor] at hrun' ⊢
        exact hrun' rfl

theorem executes_dropBoundaryPolicies (hlive : env.editor = .live) (table : String) :
    Executes env.toServer (dropBoundaryPolicies env table) ()
      [.dropPolicyIfExists table "boundary_tenant_isolation", .dropPolicyIfExists table "boundary_admin_bypass"] :=
  (Executes.schemaExecute hlive _).bind (.schemaExecute hlive _)

theorem performs_create (hlive : env.editor = .live) (op : CreateTenantPolicy) :
    Performs env (op.databaseForwards env appLabel apps)
      (gatedAction env apps op.appLabel appLabel op.modelName (creating env op.tenantColumn)) := by
  refine performs_gated fun m _ => ?_
  unfold creating CreateTenantPolicy.detectTenantColumnType
  cases env.relatedPkDbType m (removeIdSuffix op.tenantColumn) with
  | none => exact fun m => ⟨_, rfl⟩
  | some dbType =>
    have hread : Executes env.toServer (reading fun _ => .ok ((pgTypeMap dbType).getD "bigint"))
        ((pgTypeMap dbType).getD "bigint") [] := Executes.pure _
    have hpolicies : Executes env.toServer (createTenantPolicies env.toAdoptionEnv m.dbTable op.tenantColumn) ()
        [.createPolicy (tenantIsolation m.dbTable op.tenantColumn),
          .createPolicy (adminBypassPolicy env.conf.adminFlagVar m.dbTable)] :=
      (Executes.schemaExecute hlive _).bind (.schemaExecute hlive _)
    exact hread.bind ((Executes.schemaExecute hlive _).bind (hpolicies.bind (.pure [])))

/-- Every operation, either way, performs its action. -/
theorem RlsStep.performs (hlive : env.editor = .live) : Performs env (x.run env) (x.action env) := by
  obtain ⟨operation, backwards, appLabel, apps⟩ := x
  cases operation with
  | enableRLS op =>
    cases backwards with
    | false =>
      exact performs_gated fun m _ =>
        (Executes.schemaExecute hlive _).bind ((Executes.schemaExecute hlive _).bind (.pure []))
    | true =>
      exact performs_gated fun m _ => (executes_dropBoundaryPolicies hlive _).bind
        ((Executes.schemaExecute hlive _).bind ((Executes.schemaExecute hlive _).bind (.pure [])))
  | createTenantPolicy op =>
    cases backwards with
    | false => exact performs_create hlive op
    | true => exact performs_gated fun m _ => (executes_dropBoundaryPolicies hlive _).bind (.pure [])
  | dropTenantPolicy op =>
    cases backwards with
    | false => exact performs_gated fun m _ => (executes_dropBoundaryPolicies hlive _).bind (.pure [])
    | true =>
      refine performs_gated fun m hgates => ?_
      -- The gates of the operation within are the same.
      rw [← hgates]
      exact performs_create hlive ⟨op.modelName, op.tenantColumn, op.appLabel⟩

end

/-! ## What the statements leave -/

section

theorem boundaryPolicies_eq_nil_iff {policies : List Policy} :
    boundaryPolicies policies = [] ↔
      ∀ p ∈ policies, p.name ≠ "boundary_tenant_isolation" ∧ p.name ≠ "boundary_admin_bypass" := by
  simp [boundaryPolicies, List.filter_eq_nil_iff]

end

section

variable {δ : Type} [DecidableEq δ] {server : Server δ} {cat cat' : Catalogue δ} {adminFlagVar table name : String}
  {before : TableView δ} {p p' : Protection} {act : Protecting}

theorem execAll_pair_ok_iff {s s' : Statement δ} :
    execAll server [s, s'] cat = .ok cat' ↔
      ∃ cat₁ n n', s.exec server cat = .ok (cat₁, n) ∧ s'.exec server cat₁ = .ok (cat', n') := by
  rw [execAll_cons_ok_iff]
  constructor
  · rintro ⟨cat₁, n, hs, hrest⟩
    obtain ⟨cat₂, n', hs', hnil⟩ := execAll_cons_ok_iff.mp hrest
    cases hnil
    exact ⟨cat₁, n, n', hs, hs'⟩
  · rintro ⟨cat₁, n, n', hs, hs'⟩
    exact ⟨cat₁, n, hs, AdoptTenantApp.execAll_singleton hs'⟩

theorem leaves_dropScript (hexec : execAll server (Protecting.drop.script adminFlagVar table) cat = .ok cat') :
    Leaves table { cat.view table with policies := AdoptTenantApp.otherPolicies (cat.policiesOf table) } cat cat' := by
  obtain ⟨cat₁, n, n', hisolation, hbypass⟩ := execAll_pair_ok_iff.mp hexec
  cases hisolation
  cases hbypass
  have hleaves₁ := leaves_dropPolicyIfExists cat table "boundary_tenant_isolation"
  have hleaves := hleaves₁.trans (leaves_dropPolicyIfExists _ table "boundary_admin_bypass")
  rw [policiesOf_of_view hleaves₁.here, hleaves₁.here] at hleaves
  simpa [AdoptTenantApp.otherPolicies, List.filter_filter, and_comm] using hleaves

omit [DecidableEq δ] in
/-- With the helper, the isolation policy's expression is taken just where its
column is compared. -/
theorem wellTyped_iff_compares {column : String} {helper : TenantIdHelper} :
    (∃ t, cat.tables table = .some t ∧
      ({ cat with helper := .some helper } : Catalogue δ).wellTyped server t (.isCurrentTenantId column) = true) ↔
    cat.protections.compares server.comparable table column helper = true := by
  simp only [Protections.compares, Catalogue.protections, Catalogue.wellTyped, Option.any_some]
  cases cat.tables table with
  | none => simp
  | some t => cases hcolumn : t.column? column <;> simp [hcolumn]

theorem leaves_createScript {column : String} {helper : TenantIdHelper}
    (hexec : execAll server ((Protecting.create column helper).script adminFlagVar table) cat = .ok cat') :
    (∃ t, cat.tables table = .some t) ∧ cat.protections.compares server.comparable table column helper = true ∧
      boundaryPolicies (cat.policiesOf table) = [] ∧
      Leaves table { cat.view table with
        policies := cat.policiesOf table ++ [tenantIsolation table column, adminBypassPolicy adminFlagVar table] }
        cat cat' ∧ cat'.helper = .some helper := by
  obtain ⟨cat₁, n₁, hhelper, hexec⟩ := execAll_cons_ok_iff.mp hexec
  cases hhelper
  obtain ⟨cat₂, n, n', hisolation, hbypass⟩ := execAll_pair_ok_iff.mp hexec
  obtain ⟨⟨t, ht, htyped, -⟩, hfresh, -⟩ := createPolicy_ok_iff.mp (map_pair_ok_iff.mp hisolation).1
  obtain ⟨-, hfresh', -⟩ := createPolicy_ok_iff.mp (map_pair_ok_iff.mp hbypass).1
  have hleaves₁ : Leaves table { cat.view table with
      policies := cat.policiesOf table ++ [tenantIsolation table column] } { cat with helper := .some helper } cat₂ :=
    createPolicy_ok (map_pair_ok_iff.mp hisolation).1 rfl
  have hpolicies : cat₂.policiesOf table = cat.policiesOf table ++ [tenantIsolation table column] :=
    policiesOf_of_view hleaves₁.here
  have hleaves₂ : Leaves table { cat₂.view table with
      policies := cat₂.policiesOf table ++ [adminBypassPolicy adminFlagVar table] } cat₂ cat' :=
    createPolicy_ok (map_pair_ok_iff.mp hbypass).1 rfl
  have hleaves := hleaves₁.trans hleaves₂
  rw [hpolicies, hleaves₁.here, List.append_assoc] at hleaves
  refine ⟨⟨t, ht⟩, wellTyped_iff_compares.mp ⟨t, ht, htyped⟩, ?_,
    ⟨hleaves.here, hleaves.elsewhere, hleaves.relations⟩, ?_⟩
  · refine boundaryPolicies_eq_nil_iff.mpr fun p hp => ⟨hfresh p hp, hfresh' p ?_⟩
    rw [show (adminBypassPolicy adminFlagVar table).table = table from rfl, hpolicies]
    exact List.mem_append_left _ hp
  · rw [helper_exec hbypass rfl, helper_exec hisolation rfl]

/-- The statements of an action fail on a table that is not there, but those
that drop policies. -/
theorem table_of_script (hexec : execAll server (act.script adminFlagVar table) cat = .ok cat') :
    act = .drop ∨ ∃ t, cat.tables table = .some t := by
  cases act with
  | enable =>
    obtain ⟨t, ht, -⟩ := AdoptTenantApp.leaves_enabling hexec
    exact .inr ⟨t, ht⟩
  | disable =>
    obtain ⟨t, ht, -⟩ := AdoptTenantApp.leaves_securityOffScript hexec
    exact .inr ⟨t, ht⟩
  | create column helper => exact .inr (leaves_createScript hexec).1
  | drop => exact .inl rfl

/-- The statements of an action change no other table. -/
theorem script_elsewhere (hexec : execAll server (act.script adminFlagVar table) cat = .ok cat') (hne : name ≠ table) :
    cat'.view name = cat.view name := by
  cases act with
  | enable =>
    obtain ⟨t, -, hleaves⟩ := AdoptTenantApp.leaves_enabling hexec
    exact hleaves.elsewhere name hne
  | disable =>
    obtain ⟨t, -, hleaves⟩ := AdoptTenantApp.leaves_securityOffScript hexec
    exact hleaves.elsewhere name hne
  | create column helper =>
    obtain ⟨-, -, -, hleaves, -⟩ := leaves_createScript hexec
    exact hleaves.elsewhere name hne
  | drop => exact (leaves_dropScript hexec).elsewhere name hne

theorem helper_execAll {ss : List (Statement δ)} (hexec : execAll server ss cat = .ok cat')
    (htable : ∀ s ∈ ss, s.table?.isSome = true) : cat'.helper = cat.helper := by
  induction ss generalizing cat with
  | nil =>
    cases hexec
    rfl
  | cons s ss ih =>
    obtain ⟨cat₁, n, hs, hss⟩ := execAll_cons_ok_iff.mp hexec
    exact (ih hss fun s' hs' => htable s' (List.mem_cons_of_mem _ hs')).trans
      (helper_exec hs (htable s (List.mem_cons_self ..)))

theorem script_helper (hexec : execAll server (act.script adminFlagVar table) cat = .ok cat') :
    cat'.helper = act.leavesHelper cat.helper := by
  cases act with
  | create column helper => exact (leaves_createScript hexec).2.2.2.2
  | enable => exact helper_execAll hexec (by simp [Protecting.script, Statement.table?])
  | disable =>
    exact helper_execAll hexec (by simp [Protecting.script, AdoptTenantApp.securityOffScript, Statement.table?])
  | drop => exact helper_execAll hexec (by simp [Protecting.script, Statement.table?])

omit [DecidableEq δ] in
@[simp] theorem boundaryPolicies_otherPolicies (policies : List Policy) :
    boundaryPolicies (AdoptTenantApp.otherPolicies policies) = [] := by
  rw [boundaryPolicies, AdoptTenantApp.otherPolicies, List.filter_filter, List.filter_eq_nil_iff]
  intro q _
  simp only [Bool.and_eq_true, decide_eq_true_eq]
  rintro ⟨hboundary, hisolation, hbypass⟩
  exact hboundary.elim hisolation hbypass

omit [DecidableEq δ] in
@[simp] theorem otherPolicies_otherPolicies (policies : List Policy) :
    AdoptTenantApp.otherPolicies (AdoptTenantApp.otherPolicies policies) = AdoptTenantApp.otherPolicies policies := by
  simp [AdoptTenantApp.otherPolicies, List.filter_filter]

omit [DecidableEq δ] in
theorem protections_eq_some_iff {p : Protection} :
    cat.protections.tables table = .some p ↔
      ∃ t, cat.tables table = .some t ∧
        p = ⟨t.rowSecurity, t.forceRowSecurity, boundaryPolicies (cat.policiesOf table)⟩ := by
  simp [Catalogue.protections, eq_comm]

/-- The statements of an action make of the table's protection what the machine
does. -/
theorem script_protects {t : Table δ} (ht : cat.tables table = .some t)
    (hexec : execAll server (act.script adminFlagVar table) cat = .ok cat') :
    ∃ p p', cat.protections.tables table = .some p ∧
      act.apply adminFlagVar table (cat.protections.compares server.comparable table) p = .some p' ∧
      cat'.protections.tables table = .some p' := by
  cases act with
  | enable =>
    obtain ⟨t, ht, hleaves⟩ := AdoptTenantApp.leaves_enabling hexec
    refine ⟨_, _, protections_eq_some_iff.mpr ⟨t, ht, rfl⟩, rfl,
      protections_eq_some_iff.mpr ⟨_, tables_of_view hleaves.here, ?_⟩⟩
    rw [policiesOf_of_view hleaves.here]
    rfl
  | disable =>
    obtain ⟨t, ht, hleaves⟩ := AdoptTenantApp.leaves_securityOffScript hexec
    refine ⟨_, _, protections_eq_some_iff.mpr ⟨t, ht, rfl⟩, rfl,
      protections_eq_some_iff.mpr ⟨_, tables_of_view hleaves.here, ?_⟩⟩
    rw [policiesOf_of_view hleaves.here, boundaryPolicies_otherPolicies]
  | create column helper =>
    obtain ⟨-, hcompares, hnone, hleaves, -⟩ := leaves_createScript hexec
    refine ⟨_, _, protections_eq_some_iff.mpr ⟨t, ht, rfl⟩, if_pos ⟨hnone, hcompares⟩,
      protections_eq_some_iff.mpr ⟨t, (tables_of_view hleaves.here).trans ht, ?_⟩⟩
    have hcreated : boundaryPolicies
        (cat.policiesOf table ++ [tenantIsolation table column, adminBypassPolicy adminFlagVar table]) =
          [tenantIsolation table column, adminBypassPolicy adminFlagVar table] := by
      rw [boundaryPolicies, List.filter_append, ← boundaryPolicies, hnone]
      rfl
    rw [policiesOf_of_view hleaves.here, hcreated]
  | drop =>
    have hleaves := leaves_dropScript hexec
    refine ⟨_, _, protections_eq_some_iff.mpr ⟨t, ht, rfl⟩, rfl,
      protections_eq_some_iff.mpr ⟨t, (tables_of_view hleaves.here).trans ht, ?_⟩⟩
    rw [policiesOf_of_view hleaves.here, boundaryPolicies_otherPolicies]

/-- They leave the rest of every table. -/
theorem sameButProtected_script (hexec : execAll server (act.script adminFlagVar table) cat = .ok cat')
    (name : String) : SameButProtected (cat.view name) (cat'.view name) := by
  by_cases hname : name = table
  · subst hname
    cases act with
    | enable =>
      obtain ⟨t, ht, hleaves⟩ := AdoptTenantApp.leaves_enabling hexec
      rw [hleaves.here]
      exact ⟨by simp [Catalogue.view, ht], rfl, rfl, rfl⟩
    | disable =>
      obtain ⟨t, ht, hleaves⟩ := AdoptTenantApp.leaves_securityOffScript hexec
      rw [hleaves.here]
      exact ⟨by simp [Catalogue.view, ht], rfl, rfl, otherPolicies_otherPolicies _⟩
    | create column helper =>
      obtain ⟨-, -, -, hleaves, -⟩ := leaves_createScript hexec
      rw [hleaves.here]
      refine ⟨rfl, rfl, rfl, ?_⟩
      simp [AdoptTenantApp.otherPolicies, tenantIsolation, adminBypassPolicy, Catalogue.view]
    | drop =>
      rw [(leaves_dropScript hexec).here]
      exact ⟨rfl, rfl, rfl, otherPolicies_otherPolicies _⟩
  · rw [script_elsewhere hexec hname]
    exact .refl _

omit [DecidableEq δ] in
theorem columnType_congr (h : ∀ name, SameButProtected (cat.view name) (cat'.view name)) :
    cat'.protections.columnType = cat.protections.columnType := by
  funext name column
  have hcolumns : (cat'.tables name).map Table.columns = (cat.tables name).map Table.columns := by
    have hrest := congrArg (Option.map Prod.fst) (h name).table
    rwa [Option.map_map, Option.map_map] at hrest
  have hread (cat : Catalogue δ) : cat.protections.columnType name column = ((cat.tables name).map Table.columns).bind
      fun columns => (columns.find? (·.name = column)).map Column.type := by
    rw [Option.bind_map]
    rfl
  rw [hread, hread, hcolumns]

/-- Where the machine takes an action, its statements succeed. -/
theorem script_succeeds {p p' : Protection} (hp : cat.protections.tables table = .some p)
    (hp' : act.apply adminFlagVar table (cat.protections.compares server.comparable table) p = .some p') :
    ∃ cat', execAll server (act.script adminFlagVar table) cat = .ok cat' := by
  obtain ⟨t, ht, rfl⟩ := protections_eq_some_iff.mp hp
  cases act with
  | enable =>
    obtain ⟨cat₁, henable⟩ := alterTable_succeeds (f := fun t => { t with rowSecurity := true }) ht
    obtain ⟨t₁, -, hleaves⟩ := alterTable_leaves henable
    obtain ⟨cat₂, hforce⟩ :=
      alterTable_succeeds (f := fun t => { t with forceRowSecurity := true }) (tables_of_view hleaves.here)
    exact ⟨cat₂, execAll_pair_ok_iff.mpr
      ⟨cat₁, 0, 0, map_pair_ok_iff.mpr ⟨henable, rfl⟩, map_pair_ok_iff.mpr ⟨hforce, rfl⟩⟩⟩
  | disable => exact AdoptTenantApp.securityOffScript_succeeds ht
  | create column helper =>
    have hallowed : boundaryPolicies (cat.policiesOf table) = [] ∧
        cat.protections.compares server.comparable table column helper = true := by
      by_contra hne
      rw [Protecting.apply, if_neg hne] at hp'
      cases hp'
    have hfresh := boundaryPolicies_eq_nil_iff.mp hallowed.1
    obtain ⟨t', ht', htyped⟩ := wellTyped_iff_compares.mpr hallowed.2
    obtain ⟨cat₁, hisolation⟩ : ∃ cat₁, Catalogue.createPolicy { cat with helper := .some helper } server
        (tenantIsolation table column) = .ok cat₁ :=
      ⟨_, createPolicy_ok_iff.mpr ⟨⟨t', ht', htyped, htyped⟩, fun q hq => (hfresh q hq).1, rfl⟩⟩
    have hleaves := createPolicy_ok hisolation (rfl : (tenantIsolation table column).table = table)
    obtain ⟨cat₂, hbypass⟩ : ∃ cat₂, cat₁.createPolicy server (adminBypassPolicy adminFlagVar table) = .ok cat₂ := by
      refine ⟨_, createPolicy_ok_iff.mpr
        ⟨⟨t, (tables_of_view hleaves.here).trans ht, rfl, rfl⟩, fun q hq => ?_, rfl⟩⟩
      have hpolicies : cat₁.policiesOf table = cat.policiesOf table ++ [tenantIsolation table column] :=
        policiesOf_of_view hleaves.here
      rcases List.mem_append.mp (hpolicies ▸ hq) with hq | hq
      · exact (hfresh q hq).2
      · rw [List.mem_singleton.mp hq]
        show "boundary_tenant_isolation" ≠ "boundary_admin_bypass"
        decide
    exact ⟨cat₂, execAll_cons_ok_iff.mpr ⟨_, 0, rfl, execAll_pair_ok_iff.mpr
      ⟨cat₁, 0, 0, map_pair_ok_iff.mpr ⟨hisolation, rfl⟩, map_pair_ok_iff.mpr ⟨hbypass, rfl⟩⟩⟩⟩
  | drop => exact ⟨_, rfl⟩

/-- The statements of an action are a step of the machine. -/
theorem step_of_script (hexec : execAll server (act.script adminFlagVar table) cat = .ok cat') :
    cat.protections.step adminFlagVar server.comparable (.some (table, act)) = .some cat'.protections := by
  have htypes := columnType_congr (sameButProtected_script hexec)
  have helsewhere (name : String) (hname : name ≠ table) :
      cat'.protections.tables name = cat.protections.tables name := by
    have hview := script_elsewhere hexec hname
    rw [Catalogue.protections, Catalogue.protections]
    simp only [tables_of_view hview, policiesOf_of_view hview]
    rfl
  rw [Protections.step_some_iff]
  cases ht : cat.tables table with
  | none =>
    have hmissing : cat.protections.tables table = .none := by simp [Catalogue.protections, ht]
    obtain rfl : act = .drop := by
      rcases table_of_script hexec with hdrop | ⟨t, ht'⟩
      · exact hdrop
      · simp [ht] at ht'
    refine .inl ⟨rfl, hmissing, Protections.ext (funext fun name => ?_) htypes (script_helper hexec)⟩
    by_cases hname : name = table
    · have hleft : cat'.tables table = .none := (tables_of_view (leaves_dropScript hexec).here).trans ht
      rw [hname, hmissing]
      simp [Catalogue.protections, hleft]
    · exact helsewhere name hname
  | some t =>
    obtain ⟨p, p', hp, hp', hleft⟩ := script_protects ht hexec
    refine .inr ⟨p, p', hp, hp', Protections.ext (funext fun name => ?_) htypes (script_helper hexec)⟩
    show cat'.protections.tables name = Function.update cat.protections.tables table (.some p') name
    by_cases hname : name = table
    · subst hname
      rw [Function.update_self, hleft]
    · rw [Function.update_of_ne hname, helsewhere name hname]

theorem script_succeeds_of_step {ps : Protections}
    (h : cat.protections.step adminFlagVar server.comparable (.some (table, act)) = .some ps) :
    ∃ cat', execAll server (act.script adminFlagVar table) cat = .ok cat' := by
  rcases Protections.step_some_iff.mp h with ⟨rfl, -⟩ | ⟨p, p', hp, hp', -⟩
  · exact ⟨_, rfl⟩
  · exact script_succeeds hp hp'

end

/-! ## Steps -/

section

variable {δ : Type} [DecidableEq δ] {env : RlsEnv δ} {x : RlsStep} {m m' m'' : Migration δ}

theorem leaves_eq_some_iff : x.leaves env m = .some m' ↔ ∃ lines, x.run env m = .ok lines m' := by
  unfold RlsStep.leaves
  cases x.run env m <;> simp

theorem leaves_eq_some_iff_of_action {table : String} {act : Protecting} (hlive : env.editor = .live)
    (haction : x.action env = .some (.some (table, act))) :
    x.leaves env m = .some m' ↔ Executed env.toServer m (act.script env.conf.adminFlagVar table) m' := by
  have hperforms := RlsStep.performs (x := x) hlive
  rw [haction] at hperforms
  rw [leaves_eq_some_iff]
  constructor
  · rintro ⟨lines, hrun⟩
    exact ((hperforms m lines m').mp hrun).2
  · exact fun h => ⟨[], (hperforms m [] m').mpr ⟨rfl, h⟩⟩

/-- A step raises, or leaves what the machine's step does. -/
theorem protections_leaves (hlive : env.editor = .live) (m : Migration δ) (x : RlsStep) :
    (x.leaves env m).map (·.catalogue.protections) = x.protects env m.catalogue.protections := by
  have hperforms := RlsStep.performs (x := x) hlive
  unfold RlsStep.protects
  cases haction : x.action env with
  | none =>
    rw [haction] at hperforms
    obtain ⟨e, hrun⟩ := hperforms m
    rw [RlsStep.leaves, hrun]
    rfl
  | some action =>
    cases action with
    | none =>
      rw [haction] at hperforms
      obtain ⟨lines, hrun⟩ := hperforms m
      rw [leaves_eq_some_iff.mpr ⟨lines, hrun⟩]
      rfl
    | some action =>
      obtain ⟨table, act⟩ := action
      rw [Option.bind_some]
      cases hleaves : x.leaves env m with
      | some m' =>
        have hexecuted := (leaves_eq_some_iff_of_action hlive haction).mp hleaves
        exact (step_of_script hexecuted.catalogue).symm
      | none =>
        cases hstep : m.catalogue.protections.step env.conf.adminFlagVar env.comparable (.some (table, act)) with
        | none => rfl
        | some ps =>
          obtain ⟨cat', hexec⟩ : ∃ cat', execAll env.toServer (act.script env.conf.adminFlagVar table) m.catalogue =
              .ok cat' := script_succeeds_of_step hstep
          have hexecuted : Executed env.toServer m (act.script env.conf.adminFlagVar table)
              ⟨cat', m.executed ++ act.script env.conf.adminFlagVar table, m.collected⟩ := ⟨hexec, rfl, rfl⟩
          rw [(leaves_eq_some_iff_of_action hlive haction).mpr hexecuted] at hleaves
          cases hleaves

theorem sameButProtected_leaves (hlive : env.editor = .live) (h : x.leaves env m = .some m') (name : String) :
    SameButProtected (m.catalogue.view name) (m'.catalogue.view name) := by
  have hperforms := RlsStep.performs (x := x) hlive
  cases haction : x.action env with
  | none =>
    rw [haction] at hperforms
    obtain ⟨e, hrun⟩ := hperforms m
    rw [RlsStep.leaves, hrun] at h
    cases h
  | some action =>
    cases action with
    | none =>
      rw [haction] at hperforms
      obtain ⟨lines, hrun⟩ := hperforms m
      rw [RlsStep.leaves, hrun] at h
      cases h
      exact .refl _
    | some action =>
      obtain ⟨table, act⟩ := action
      exact sameButProtected_script ((leaves_eq_some_iff_of_action hlive haction).mp h).catalogue name

/-! ## Runs -/

theorem sameButProtected_run (hlive : env.editor = .live) {xs : List RlsStep}
    (h : xs.foldlM (RlsStep.leaves env) m = .some m') (name : String) :
    SameButProtected (m.catalogue.view name) (m'.catalogue.view name) :=
  Runs.foldlM_keeps (R := fun m m' => SameButProtected (m.catalogue.view name) (m'.catalogue.view name))
    (fun _ => .refl _) SameButProtected.trans (fun h => sameButProtected_leaves hlive h name) h

/-- A run of operations raises where the machine fails, and else leaves what the
machine does, and all else as it was. -/
theorem protections_run (hlive : env.editor = .live) (m : Migration δ) (xs : List RlsStep) :
    (xs.foldlM (RlsStep.leaves env) m).map (·.catalogue.protections) =
        xs.foldlM (RlsStep.protects env) m.catalogue.protections ∧
      ∀ m', xs.foldlM (RlsStep.leaves env) m = .some m' →
        ∀ name, SameButProtected (m.catalogue.view name) (m'.catalogue.view name) :=
  ⟨Runs.map_foldlM (protections_leaves hlive) m xs, fun _ h name => sameButProtected_run hlive h name⟩

/-- The shop's widgets, that declare their tenant. -/
def declaredShop : RlsEnv Nat :=
  { shopRls with relatedPkDbType := fun _ name => if name = "tenant" then .some "bigint" else .none }

/-- Their table has the tenant's column. -/
def declaredWidgets : Migration Nat where
  catalogue :=
    { (AdoptTenantApp.shopOf "shop_widget").catalogue with
      tables := fun name =>
        if name = "shop_widget" then
          .some { columns := [⟨"id", "bigint", true, .none⟩, ⟨"sku", "text", true, .none⟩,
            ⟨"tenant_id", "bigint", true, .none⟩], rows := [fun _ => .some 7] }
        else .none }

def shopStep (operation : RlsOperation) : RlsStep where
  operation := operation
  appLabel := "shop"
  apps := AdoptTenantApp.shopApps (AdoptTenantApp.shopWidget "shop_widget")

def protectWidgets : List RlsStep :=
  [shopStep (.enableRLS ⟨"Widget", .none⟩), shopStep (.createTenantPolicy ⟨"Widget", "tenant_id", .none⟩)]

def protectedWidgets : Protection :=
  ⟨true, true, [tenantIsolation "shop_widget" "tenant_id", adminBypassPolicy "app.boundary_admin" "shop_widget"]⟩

theorem protectWidgets_protects :
    (protectWidgets.foldlM (RlsStep.protects declaredShop)
      declaredWidgets.catalogue.protections).bind (·.tables "shop_widget") =
        .some protectedWidgets := by
  decide +kernel

theorem protections_run_shop : ∃ m',
    protectWidgets.foldlM (RlsStep.leaves declaredShop) declaredWidgets = .some m' ∧
      m'.catalogue.protections.tables "shop_widget" = .some protectedWidgets := by
  have hlive : declaredShop.editor = .live := rfl
  have hrun := (protections_run hlive declaredWidgets protectWidgets).1
  have hmachine := protectWidgets_protects
  rw [← hrun, Option.bind_map] at hmachine
  exact Option.bind_eq_some_iff.mp hmachine

end

/-! ## The way back -/

section

variable {δ : Type}

/-- The model of an operation that both gates let through. -/
def Admitted (env : RlsEnv δ) (apps : Apps) (override : Option String) (appLabel modelName : String) (m : AppModel) :
    Prop :=
  apps.getModel (targetAppLabel override appLabel) modelName = .some m ∧ env.allowMigrateModel m = true ∧
    env.vendor = .postgresql

/-- The table has boundary's policies, on the column, and the model its field,
of a type that compares with the column's. -/
structure PolicedOn (env : RlsEnv δ) (ps : Protections) (tenantColumn : String) (m : AppModel) : Prop where
  field : ∃ helper, creating env tenantColumn m = .some (.create tenantColumn helper) ∧
    ps.compares env.comparable m.dbTable tenantColumn helper = true
  policies : ∃ p, ps.tables m.dbTable = .some p ∧
    p.policies = [tenantIsolation m.dbTable tenantColumn, adminBypassPolicy env.conf.adminFlagVar m.dbTable]

/-- The state a step is taken in is one that the step the other way makes. -/
def RlsStep.Undoable (env : RlsEnv δ) (ps : Protections) (x : RlsStep) : Prop :=
  match x.operation, x.backwards with
  | .enableRLS op, backwards => ∀ m, Admitted env x.apps op.appLabel x.appLabel op.modelName m →
    ps.tables m.dbTable = .some ⟨backwards, backwards, []⟩
  | .createTenantPolicy op, true | .dropTenantPolicy op, false =>
    ∀ m, Admitted env x.apps op.appLabel x.appLabel op.modelName m → PolicedOn env ps op.tenantColumn m
  | .createTenantPolicy _, false | .dropTenantPolicy _, true => True

variable {env : RlsEnv δ} {x : RlsStep} {apps : Apps} {override : Option String} {appLabel modelName : String}
  {ps ps' qs : Protections}

theorem gatedAction_cases (env : RlsEnv δ) (apps : Apps) (override : Option String) (appLabel modelName : String) :
    (∃ m, Admitted env apps override appLabel modelName m ∧
      ∀ act, gatedAction env apps override appLabel modelName act = (act m).map fun a => .some (m.dbTable, a)) ∨
    (∀ act, gatedAction env apps override appLabel modelName act = .none) ∨
    ∀ act, gatedAction env apps override appLabel modelName act = .some .none := by
  unfold gatedAction Admitted
  cases apps.getModel (targetAppLabel override appLabel) modelName with
  | none => exact .inr (.inl fun _ => rfl)
  | some m =>
    cases hallow : env.allowMigrateModel m with
    | false => exact .inr (.inr fun _ => by simp [hallow])
    | true =>
      cases hvendor : env.vendor with
      | other vendor => exact .inr (.inr fun _ => by simp [hallow])
      | postgresql => exact .inl ⟨m, ⟨rfl, hallow, rfl⟩, fun _ => by simp [hallow]⟩

/-- Of the tables and their columns, the machine's states agree. -/
def Protections.SameTables (ps qs : Protections) : Prop := qs.tables = ps.tables ∧ qs.columnType = ps.columnType

/-- An action between the gates, on a table that is there, is undone by one that
makes of what it leaves what it took. -/
theorem undo_gated {act act' : AppModel → Option Protecting}
    (hthere : ∀ m, Admitted env apps override appLabel modelName m → act m = .some .drop →
      ∃ p, ps.tables m.dbTable = .some p)
    (hundo : ∀ m, Admitted env apps override appLabel modelName m → ∀ a p p', act m = .some a →
      ps.tables m.dbTable = .some p →
      a.apply env.conf.adminFlagVar m.dbTable (ps.compares env.comparable m.dbTable) p = .some p' →
      ∃ a', act' m = .some a' ∧
        a'.apply env.conf.adminFlagVar m.dbTable (ps.compares env.comparable m.dbTable) p' = .some p)
    (h : (gatedAction env apps override appLabel modelName act).bind
      (ps.step env.conf.adminFlagVar env.comparable) = .some ps')
    (hlike : ps'.SameTables qs) :
    ∃ qs', (gatedAction env apps override appLabel modelName act').bind
        (qs.step env.conf.adminFlagVar env.comparable) = .some qs' ∧ ps.SameTables qs' := by
  rcases gatedAction_cases env apps override appLabel modelName with ⟨m, hm, hgated⟩ | hgated | hgated
  · rw [hgated] at h ⊢
    obtain ⟨action, haction, hstep⟩ := Option.bind_eq_some_iff.mp h
    obtain ⟨a, ha, rfl⟩ := Option.map_eq_some_iff.mp haction
    rcases Protections.step_some_iff.mp hstep with ⟨rfl, hmissing, -⟩ | ⟨p, p', hp, happly, rfl⟩
    · obtain ⟨p, hp⟩ := hthere m hm ha
      rw [hp] at hmissing
      cases hmissing
    · obtain ⟨a', ha', happly'⟩ := hundo m hm a p p' ha hp happly
      have hleft : qs.tables m.dbTable = .some p' := by
        rw [hlike.1]
        exact Function.update_self ..
      have hcompares : qs.compares env.comparable m.dbTable = ps.compares env.comparable m.dbTable := by
        funext column helper
        rw [Protections.compares, hlike.2]
        rfl
      refine ⟨{ qs with
        tables := Function.update qs.tables m.dbTable (.some p), helper := a'.leavesHelper qs.helper }, ?_, ?_, hlike.2⟩
      · rw [ha', Option.map_some, Option.bind_some]
        exact Protections.step_some_iff.mpr (.inr ⟨p', p, hleft, hcompares ▸ happly', rfl⟩)
      · show Function.update qs.tables m.dbTable (.some p) = ps.tables
        rw [hlike.1, Function.update_idem, ← hp, Function.update_eq_self]
  · rw [hgated] at h
    cases h
  · rw [hgated] at h ⊢
    obtain rfl := Option.some.inj h
    exact ⟨qs, rfl, hlike⟩

theorem apply_drop_of_creating {tenantColumn adminFlagVar table : String} {compares : String → TenantIdHelper → Bool}
    {m : AppModel} {a : Protecting} {p p' : Protection} (ha : creating env tenantColumn m = .some a)
    (h : a.apply adminFlagVar table compares p = .some p') :
    Protecting.drop.apply adminFlagVar table compares p' = .some p := by
  obtain ⟨dbType, -, rfl⟩ := Option.map_eq_some_iff.mp ha
  rw [Protecting.apply] at h
  split at h
  · next hallowed =>
    cases h
    rw [Protecting.apply, ← hallowed.1]
  · cases h

theorem apply_creating_of_drop {tenantColumn : String} {m : AppModel} {p p' : Protection}
    (hpoliced : PolicedOn env ps tenantColumn m) (hp : ps.tables m.dbTable = .some p)
    (h : Protecting.drop.apply env.conf.adminFlagVar m.dbTable (ps.compares env.comparable m.dbTable) p = .some p') :
    ∃ a, creating env tenantColumn m = .some a ∧
      a.apply env.conf.adminFlagVar m.dbTable (ps.compares env.comparable m.dbTable) p' = .some p := by
  obtain ⟨helper, hcreating, hcompares⟩ := hpoliced.field
  obtain ⟨q, hq, hpolicies⟩ := hpoliced.policies
  obtain rfl := Option.some.inj (hp.symm.trans hq)
  cases h
  refine ⟨_, hcreating, ?_⟩
  rw [Protecting.apply, if_pos ⟨rfl, hcompares⟩, ← hpolicies]

theorem not_drop_of_creating {tenantColumn : String} {m : AppModel} : creating env tenantColumn m ≠ .some .drop := by
  unfold creating
  cases env.relatedPkDbType m (removeIdSuffix tenantColumn) <;> simp

theorem undo_protects (hundo : x.Undoable env ps) (h : x.protects env ps = .some ps') (hlike : ps'.SameTables qs) :
    ∃ qs', x.reversed.protects env qs = .some qs' ∧ ps.SameTables qs' := by
  obtain ⟨operation, backwards, appLabel, apps⟩ := x
  cases operation with
  | enableRLS op =>
    cases backwards with
    | false =>
      refine undo_gated (fun m _ hdrop => ?_) (fun m hm a p p' ha hp h => ⟨.disable, rfl, ?_⟩) h hlike
      · cases hdrop
      · obtain rfl := Option.some.inj ha
        rw [Option.some.inj (hp.symm.trans (hundo m hm))]
        rfl
    | true =>
      refine undo_gated (fun m _ hdrop => ?_) (fun m hm a p p' ha hp h => ⟨.enable, rfl, ?_⟩) h hlike
      · cases hdrop
      · obtain rfl := Option.some.inj ha
        cases h
        rw [Option.some.inj (hp.symm.trans (hundo m hm))]
        rfl
  | createTenantPolicy op =>
    cases backwards with
    | false =>
      refine undo_gated (fun m _ hdrop => absurd hdrop not_drop_of_creating) (fun m _ a p p' ha _ h => ?_) h hlike
      exact ⟨.drop, rfl, apply_drop_of_creating ha h⟩
    | true =>
      refine undo_gated (fun m hm _ => ?_) (fun m hm a p p' ha hp h => ?_) h hlike
      · obtain ⟨p, hp, -⟩ := (hundo m hm).policies
        exact ⟨p, hp⟩
      · obtain rfl := Option.some.inj ha
        exact apply_creating_of_drop (hundo m hm) hp h
  | dropTenantPolicy op =>
    cases backwards with
    | false =>
      refine undo_gated (fun m hm _ => ?_) (fun m hm a p p' ha hp h => ?_) h hlike
      · obtain ⟨p, hp, -⟩ := (hundo m hm).policies
        exact ⟨p, hp⟩
      · obtain rfl := Option.some.inj ha
        exact apply_creating_of_drop (hundo m hm) hp h
    | true =>
      refine undo_gated (fun m _ hdrop => absurd hdrop not_drop_of_creating) (fun m _ a p p' ha _ h => ?_) h hlike
      exact ⟨.drop, rfl, apply_drop_of_creating ha h⟩

end

section

variable {δ : Type} [DecidableEq δ] {env : RlsEnv δ} {x : RlsStep} {m m' m₁ : Migration δ}

theorem policies_perm (policies : List Policy) :
    (boundaryPolicies policies ++ AdoptTenantApp.otherPolicies policies).Perm policies := by
  have hothers : AdoptTenantApp.otherPolicies policies = policies.filter fun p =>
      !decide (p.name = "boundary_tenant_isolation" ∨ p.name = "boundary_admin_bypass") := by
    rw [AdoptTenantApp.otherPolicies]
    congr 1
    funext p
    simp
  rw [hothers]
  exact List.filter_append_perm ..

omit [DecidableEq δ] in
/-- A table with the protection it had, and the rest as it was, is as it was, but
for the order of its policies. -/
theorem same_of_protections {cat cat' : Catalogue δ} {name : String} {t : Table δ} (ht : cat.tables name = .some t)
    (hsame : SameButProtected (cat.view name) (cat'.view name))
    (hprotected : cat'.protections.tables name = cat.protections.tables name) :
    cat'.tables name = .some t ∧ cat'.constraintsOf name = cat.constraintsOf name ∧
      cat'.indexesOf name = cat.indexesOf name ∧ (cat'.policiesOf name).Perm (cat.policiesOf name) := by
  rw [protections_eq_some_iff.mpr ⟨t, ht, rfl⟩] at hprotected
  obtain ⟨t', ht', hprotection⟩ := protections_eq_some_iff.mp hprotected
  have hrest : (cat'.tables name).map (fun t => (t.columns, t.rows)) =
      (cat.tables name).map fun t => (t.columns, t.rows) := hsame.table
  have hboundary : boundaryPolicies (cat'.policiesOf name) = boundaryPolicies (cat.policiesOf name) :=
    (congrArg Protection.policies hprotection).symm
  have hothers : AdoptTenantApp.otherPolicies (cat'.policiesOf name) =
      AdoptTenantApp.otherPolicies (cat.policiesOf name) := hsame.others
  refine ⟨?_, hsame.constraints, hsame.indexes, ?_⟩
  · obtain ⟨columns, rows, rowSecurity, forced⟩ := t
    obtain ⟨columns', rows', rowSecurity', forced'⟩ := t'
    rw [ht, ht'] at hrest
    cases hrest
    obtain ⟨rfl, rfl, -⟩ := Protection.mk.inj hprotection
    exact ht'
  · refine (policies_perm _).symm.trans (.trans ?_ (policies_perm _))
    rw [hboundary, hothers]

theorem undo_leaves (hlive : env.editor = .live) (hundo : x.Undoable env m.catalogue.protections)
    (h : x.leaves env m = .some m') (hlike : m'.catalogue.protections.SameTables m₁.catalogue.protections) :
    ∃ m₂, x.reversed.leaves env m₁ = .some m₂ ∧
      m.catalogue.protections.SameTables m₂.catalogue.protections := by
  have hprotects := protections_leaves hlive m x
  rw [h] at hprotects
  obtain ⟨qs, hqs, htables⟩ := undo_protects hundo hprotects.symm hlike
  rw [← protections_leaves hlive] at hqs
  obtain ⟨m₂, hleaves, rfl⟩ := Option.map_eq_some_iff.mp hqs
  exact ⟨m₂, hleaves, htables⟩

/-- A run of operations, each taken where its reverse leads back, is undone by
the reverses in the other order: every table is as it was. -/
theorem reversed_restores (hlive : env.editor = .live) {xs : List RlsStep}
    (hundo : Runs.Along (RlsStep.leaves env) (fun m x => x.Undoable env m.catalogue.protections) m xs)
    (hrun : xs.foldlM (RlsStep.leaves env) m = .some m') :
    ∃ m'', (xs.reverse.map RlsStep.reversed).foldlM (RlsStep.leaves env) m' = .some m'' ∧
      ∀ name t, m.catalogue.tables name = .some t → m''.catalogue.tables name = .some t ∧
        m''.catalogue.constraintsOf name = m.catalogue.constraintsOf name ∧
        m''.catalogue.indexesOf name = m.catalogue.indexesOf name ∧
        (m''.catalogue.policiesOf name).Perm (m.catalogue.policiesOf name) := by
  obtain ⟨m'', hback, htables⟩ := Runs.undo_foldlM
    (R := fun m₀ m₁ => m₀.catalogue.protections.SameTables m₁.catalogue.protections)
    (fun hundo h hlike => undo_leaves hlive hundo h hlike) hundo hrun ⟨rfl, rfl⟩
  refine ⟨m'', hback, fun name t ht => same_of_protections ht ?_ (congrFun htables.1 name)⟩
  exact (sameButProtected_run hlive hrun name).trans (sameButProtected_run hlive hback name)

def unpolicedWidgets : List RlsStep :=
  protectWidgets ++ [shopStep (.dropTenantPolicy ⟨"Widget", "tenant_id", .none⟩)]

theorem getModel_shop {m : AppModel} (h : (AdoptTenantApp.shopApps (AdoptTenantApp.shopWidget "shop_widget")).getModel
    (targetAppLabel .none "shop") "Widget" = .some m) : m = AdoptTenantApp.shopWidget "shop_widget" := by
  have hfound : (AdoptTenantApp.shopApps (AdoptTenantApp.shopWidget "shop_widget")).getModel
      (targetAppLabel .none "shop") "Widget" = .some (AdoptTenantApp.shopWidget "shop_widget") := by
    simp [Apps.getModel, AdoptTenantApp.shopApps, targetAppLabel, AdoptTenantApp.shopWidget]
  exact Option.some.inj (h.symm.trans hfound)

/-- A shop that is protected, its policies dropped, and then back. -/
theorem reversed_restores_shop : ∃ m' m'',
    unpolicedWidgets.foldlM (RlsStep.leaves declaredShop) declaredWidgets = .some m' ∧
      (unpolicedWidgets.reverse.map RlsStep.reversed).foldlM (RlsStep.leaves declaredShop) m' = .some m'' ∧
      ∀ name t, declaredWidgets.catalogue.tables name = .some t →
        m''.catalogue.tables name = .some t := by
  have hlive : declaredShop.editor = .live := rfl
  obtain ⟨m', hrun⟩ : ∃ m', unpolicedWidgets.foldlM (RlsStep.leaves declaredShop)
      declaredWidgets = .some m' := Option.isSome_iff_exists.mp (by decide +kernel)
  have hundo : Runs.Along (RlsStep.leaves declaredShop) (fun m x => x.Undoable declaredShop m.catalogue.protections)
      declaredWidgets unpolicedWidgets := by
    refine ⟨fun m hm => ?_, fun m₁ hm₁ => ⟨trivial, fun m₂ hm₂ => ⟨fun m hm => ?_, fun m₃ hm₃ => trivial⟩⟩⟩
    · obtain rfl := getModel_shop hm.1
      decide +kernel
    · obtain rfl := getModel_shop hm.1
      have hsteps : protectWidgets.foldlM (RlsStep.leaves declaredShop) declaredWidgets =
          .some m₂ :=
        Runs.foldlM_cons_some_iff.mpr ⟨m₁, hm₁, Runs.foldlM_cons_some_iff.mpr ⟨m₂, hm₂, rfl⟩⟩
      have hmachine := protectWidgets_protects
      rw [← Runs.map_foldlM (protections_leaves hlive), hsteps] at hmachine
      have htypes : m₂.catalogue.protections.columnType = declaredWidgets.catalogue.protections.columnType :=
        columnType_congr (sameButProtected_run hlive hsteps)
      refine ⟨⟨⟨"bigint", "app.current_tenant_id", false⟩, rfl, ?_⟩, protectedWidgets, hmachine, rfl⟩
      rw [Protections.compares, htypes]
      decide
  obtain ⟨m'', hback, hrestored⟩ := reversed_restores hlive hundo hrun
  exact ⟨m', m'', hrun, hback, fun name t ht => (hrestored name t ht).1⟩

end

end Boundary
