/-
Reversing an adoption, a table at a time: the statements a live reversal
executes, when they succeed, and what they leave.
-/
import Boundary.AdoptionFacts

namespace Boundary

open Exec

namespace AdoptTenantApp

variable {δ : Type}

/-! ## Scripts -/

def securityOffScript (table : String) : List (Statement δ) :=
  [.dropPolicyIfExists table "boundary_tenant_isolation", .dropPolicyIfExists table "boundary_admin_bypass",
    .rowSecurity table false, .forceRowSecurity table false]

/-- For each set of columns, the first composite that is read of them. -/
def replacements (env : AdoptionEnv δ) (table : String) (live : List UniqueConstraintRow)
    (columnSets : List (List String)) : List Replacement :=
  columnSets.filterMap fun columns =>
    (live.find? (·.columns = "tenant_id" :: columns)).map fun c => ⟨c.name, env.uniqueName table columns, columns⟩

def restoreScript (env : AdoptionEnv δ) (table : String) (live : List UniqueConstraintRow)
    (columnSets : List (List String)) : List (Statement δ) :=
  replaceScript table (replacements env table live columnSets)

def unadoptScript (env : AdoptionEnv δ) (cat : Catalogue δ) (model : AppModel) : List (Statement δ) :=
  securityOffScript model.dbTable ++
    (restoreScript env model.dbTable (uniqueConstraints env.toServer cat model.dbTable)
      (historicalUniqueColumnSets model) ++
      [.dropColumn model.dbTable "tenant_id"])

/-- The policies that are not boundary's. -/
def otherPolicies (policies : List Policy) : List Policy :=
  policies.filter fun p => p.name ≠ "boundary_tenant_isolation" ∧ p.name ≠ "boundary_admin_bypass"

variable [DecidableEq δ] {op : AdoptTenantApp δ} {env : AdoptionEnv δ} {server : Server δ} {cat cat' : Catalogue δ}
  {m m' : Migration δ} {model : AppModel} {table : String} {live : List UniqueConstraintRow}
  {columnSets : List (List String)}

omit [DecidableEq δ] in
theorem unadoptScript_table : ∀ s ∈ unadoptScript env cat model, s.table? = .some model.dbTable := by
  intro s hs
  simp only [unadoptScript, securityOffScript, List.mem_append, List.mem_cons, List.not_mem_nil, or_false] at hs
  rcases hs with (rfl | rfl | rfl | rfl) | hs | rfl
  · rfl
  · rfl
  · rfl
  · rfl
  · obtain ⟨r, -, rfl | rfl⟩ := mem_replaceScript hs <;> rfl
  · rfl

/-- Statements of one table change no other. -/
theorem execAll_elsewhere {ss : List (Statement δ)} (hexec : execAll server ss cat = .ok cat')
    (htable : ∀ s ∈ ss, s.table? = .some table) {name : String} (hne : name ≠ table) : cat'.view name = cat.view name := by
  induction ss generalizing cat with
  | nil =>
    cases hexec
    rfl
  | cons s ss ih =>
    obtain ⟨cat₁, n, hs, hss⟩ := execAll_cons_ok_iff.mp hexec
    obtain ⟨v, hleaves, -⟩ := exec_leaves hs (htable s (List.mem_cons_self ..))
    exact (ih hss fun s' hs' => htable s' (List.mem_cons_of_mem _ hs')).trans (hleaves.elsewhere name hne)

theorem execAll_singleton {s : Statement δ} {n : Nat} (h : s.exec server cat = .ok (cat', n)) :
    execAll server [s] cat = .ok cat' :=
  execAll_cons_ok_iff.mpr ⟨cat', n, h, rfl⟩

/-! ## The statements executed -/

theorem executed_nil_iff : Executed server m [] m' ↔ m' = m := by
  constructor
  · rintro ⟨hcatalogue, hexecuted, hcollected⟩
    obtain ⟨catalogue, executed, collected⟩ := m
    obtain ⟨catalogue', executed', collected'⟩ := m'
    cases hcatalogue
    cases hcollected
    simpa using hexecuted
  · rintro rfl
    exact .nil _ _

/-- A statement, and then a program that executes statements. -/
theorem schemaExecute_bind_ok_iff {s : Statement δ} {x : Adopting δ Unit} {ss : List (Statement δ)}
    (hlive : env.editor = .live)
    (hx : ∀ m₁, Executed env.toServer m [s] m₁ → (x m₁ = .ok () m' ↔ Executed env.toServer m₁ ss m')) :
    (schemaExecute env s >>= fun _ => x) m = .ok () m' ↔ Executed env.toServer m (s :: ss) m' := by
  rw [bind_ok_iff, ← List.singleton_append, executed_append_iff]
  constructor
  · rintro ⟨_, m₁, hs, hss⟩
    have hfirst := schemaExecute_ok hlive hs
    exact ⟨m₁, hfirst, (hx m₁ hfirst).mp hss⟩
  · rintro ⟨m₁, hs, hss⟩
    exact ⟨(), m₁, schemaExecute_of_executed hlive hs, (hx m₁ hs).mpr hss⟩

theorem restoreUniqueConstraints_ok_iff (hlive : env.editor = .live) :
    restoreUniqueConstraints env table live columnSets m = .ok () m' ↔
      Executed env.toServer m (restoreScript env table live columnSets) m' := by
  induction columnSets generalizing m with
  | nil =>
    rw [restoreScript, replacements, List.filterMap_nil, replaceScript, List.flatMap_nil, executed_nil_iff]
    constructor
    · intro h
      cases h
      rfl
    · rintro rfl
      rfl
  | cons columns columnSets ih =>
    unfold restoreScript replacements at ih ⊢
    rw [List.filterMap_cons]
    unfold restoreUniqueConstraints
    cases live.find? (·.columns = "tenant_id" :: columns) with
    | none => exact ih
    | some c => exact schemaExecute_bind_ok_iff hlive fun m₁ _ => schemaExecute_bind_ok_iff hlive fun m₂ _ => ih

/-- Securing and unsecuring a table are no constraint's business. -/
theorem leaves_securityOffScript (hexec : execAll server (securityOffScript table) cat = .ok cat') :
    ∃ t, cat.tables table = .some t ∧ Leaves table { cat.view table with
      table := .some { t with rowSecurity := false, forceRowSecurity := false }
      policies := otherPolicies (cat.policiesOf table) } cat cat' := by
  obtain ⟨cat₁, n₁, hisolation, hexec⟩ := execAll_cons_ok_iff.mp hexec
  obtain ⟨cat₂, n₂, hbypass, hexec⟩ := execAll_cons_ok_iff.mp hexec
  obtain ⟨cat₃, n₃, hdisable, hexec⟩ := execAll_cons_ok_iff.mp hexec
  obtain ⟨cat₄, n₄, hforce, hrest⟩ := execAll_cons_ok_iff.mp hexec
  obtain rfl := Except.ok.inj hrest
  cases hisolation
  cases hbypass
  have hleaves₁ := leaves_dropPolicyIfExists cat table "boundary_tenant_isolation"
  have hleaves₂ := leaves_dropPolicyIfExists (cat.dropPolicyIfExists table "boundary_tenant_isolation") table
    "boundary_admin_bypass"
  obtain ⟨t, ht, hleaves₃⟩ := alterTable_leaves (map_pair_ok_iff.mp hdisable).1
  obtain ⟨t₃, ht₃, hleaves₄⟩ := alterTable_leaves (map_pair_ok_iff.mp hforce).1
  obtain rfl := Option.some.inj (ht₃.symm.trans (tables_of_view hleaves₃.here))
  have htable : cat.tables table = .some t := by
    rw [← ht, tables_of_view hleaves₂.here, hleaves₁.here]
    rfl
  have hleaves := ((hleaves₁.trans hleaves₂).trans hleaves₃).trans hleaves₄
  rw [hleaves₃.here, hleaves₂.here, policiesOf_of_view hleaves₁.here, hleaves₁.here] at hleaves
  refine ⟨t, htable, ?_⟩
  simpa [otherPolicies, List.filter_filter, and_comm] using hleaves

omit [DecidableEq δ] in
theorem uniqueConstraints_congr {text : String} (h : ∀ name, cat'.constraintsOf name = cat.constraintsOf name) :
    uniqueConstraints server cat' text = uniqueConstraints server cat text := by
  unfold uniqueConstraints
  split
  · rfl
  · rw [h]

theorem unadoptTable_ok_iff {type : String} (hlive : env.editor = .live)
    (hcolumn : columnType env.toServer m.catalogue model.dbTable "tenant_id" = .some type) :
    unadoptTable env model m = .ok () m' ↔ Executed env.toServer m (unadoptScript env m.catalogue model) m' := by
  have hread : unadoptTable env model m = .ok () m' ↔ (do
      schemaExecute env (.dropPolicyIfExists model.dbTable "boundary_tenant_isolation")
      schemaExecute env (.dropPolicyIfExists model.dbTable "boundary_admin_bypass")
      schemaExecute env (.rowSecurity model.dbTable false)
      schemaExecute env (.forceRowSecurity model.dbTable false)
      let live ← reading fun cat => .ok (uniqueConstraints env.toServer cat model.dbTable)
      restoreUniqueConstraints env model.dbTable live (historicalUniqueColumnSets model)
      schemaExecute env (.dropColumn model.dbTable "tenant_id") : Adopting δ Unit) m = .ok () m' := by
    unfold unadoptTable
    rw [bind_run, reading]
    simp only [hcolumn]
  rw [hread]
  simp only [unadoptScript, securityOffScript, List.cons_append, List.nil_append]
  refine schemaExecute_bind_ok_iff hlive fun m₁ h₁ => ?_
  refine schemaExecute_bind_ok_iff hlive fun m₂ h₂ => ?_
  refine schemaExecute_bind_ok_iff hlive fun m₃ h₃ => ?_
  refine schemaExecute_bind_ok_iff hlive fun m₄ h₄ => ?_
  -- what is read now was there at first
  obtain ⟨t, -, hleaves⟩ := leaves_securityOffScript (((h₁.append h₂).append h₃).append h₄).catalogue
  have hsame : uniqueConstraints env.toServer m₄.catalogue model.dbTable =
      uniqueConstraints env.toServer m.catalogue model.dbTable := by
    refine uniqueConstraints_congr fun name => ?_
    by_cases hname : name = model.dbTable
    · rw [hname, constraintsOf_of_view hleaves.here]
      rfl
    · exact constraintsOf_of_view (hleaves.elsewhere name hname)
  rw [bind_run, reading]
  simp only [hsame]
  rw [executed_append_iff, bind_ok_iff]
  constructor
  · rintro ⟨_, m₅, hrestore, hdrop⟩
    exact ⟨m₅, (restoreUniqueConstraints_ok_iff hlive).mp hrestore, schemaExecute_ok hlive hdrop⟩
  · rintro ⟨m₅, hrestore, hdrop⟩
    exact ⟨(), m₅, (restoreUniqueConstraints_ok_iff hlive).mpr hrestore, schemaExecute_of_executed hlive hdrop⟩

/-- Of a table of which no column is read nothing is changed. -/
theorem unadoptTable_absent (hcolumn : columnType env.toServer m.catalogue model.dbTable "tenant_id" = .none) :
    unadoptTable env model m = .ok () m := by
  unfold unadoptTable
  simp only [bind_run, reading, hcolumn]
  rfl

/-! ## What the statements leave of their table -/

/-- The table a reversal leaves. -/
def unadopted (t : Table δ) : Table δ :=
  { t with columns := t.columns.filter (·.name ≠ "tenant_id"), rowSecurity := false, forceRowSecurity := false }

/-- The view a reversal leaves of its table, where `rs` were replaced. -/
def unadoptedView (cat : Catalogue δ) (table : String) (t : Table δ) (rs : List Replacement) : TableView δ where
  table := .some (unadopted t)
  constraints := ((cat.constraintsOf table).filter (·.name ∉ rs.map Replacement.dropped) ++
    rs.map (Replacement.constraint table)).filter fun c => "tenant_id" ∉ c.columns ++ c.included
  indexes := (cat.indexesOf table).filter fun i => "tenant_id" ∉ i.keys.filterMap id ++ i.included
  policies := otherPolicies (cat.policiesOf table)

omit [DecidableEq δ] in
theorem unadopted_column? (t : Table δ) : (unadopted t).column? "tenant_id" = .none := by
  rw [Table.column?, List.find?_eq_none]
  intro c hc
  simpa [unadopted] using (List.mem_filter.mp hc).2

theorem securityOffScript_succeeds {t : Table δ} (ht : cat.tables table = .some t) :
    ∃ cat', execAll server (securityOffScript table) cat = .ok cat' := by
  obtain ⟨cat₃, hdisable⟩ : ∃ cat₃, ((cat.dropPolicyIfExists table "boundary_tenant_isolation").dropPolicyIfExists table
      "boundary_admin_bypass").alterTable table (fun t => .ok { t with rowSecurity := false }) = .ok cat₃ :=
    alterTable_succeeds ht
  obtain ⟨t₃, -, hleaves₃⟩ := alterTable_leaves hdisable
  obtain ⟨cat₄, hforce⟩ : ∃ cat₄, cat₃.alterTable table (fun t => .ok { t with forceRowSecurity := false }) = .ok cat₄ :=
    alterTable_succeeds (tables_of_view hleaves₃.here)
  refine ⟨cat₄, ?_⟩
  refine execAll_cons_ok_iff.mpr ⟨_, 0, rfl, ?_⟩
  refine execAll_cons_ok_iff.mpr ⟨_, 0, rfl, ?_⟩
  refine execAll_cons_ok_iff.mpr ⟨cat₃, 0, map_pair_ok_iff.mpr ⟨hdisable, rfl⟩, ?_⟩
  exact execAll_singleton (map_pair_ok_iff.mpr ⟨hforce, rfl⟩)

theorem unadoptScript_succeeds {t : Table δ} (ht : cat.tables model.dbTable = .some t)
    (hcolumn : (t.column? "tenant_id").isSome = true)
    (hpolicies : ∀ p ∈ otherPolicies (cat.policiesOf model.dbTable), p.using_ ≠ .isCurrentTenantId "tenant_id")
    (hreplaceable : Replaceable cat model.dbTable t (replacements env model.dbTable
      (uniqueConstraints env.toServer cat model.dbTable) (historicalUniqueColumnSets model))) :
    ∃ cat', execAll env.toServer (unadoptScript env cat model) cat = .ok cat' := by
  obtain ⟨cat₁, hoff⟩ : ∃ cat₁, execAll env.toServer (securityOffScript model.dbTable) cat = .ok cat₁ :=
    securityOffScript_succeeds ht
  obtain ⟨t₁, ht₁, hleaves₁⟩ := leaves_securityOffScript hoff
  obtain rfl := Option.some.inj (ht.symm.trans ht₁)
  obtain ⟨cat₂, hrestore⟩ : ∃ cat₂, execAll env.toServer (restoreScript env model.dbTable
      (uniqueConstraints env.toServer cat model.dbTable) (historicalUniqueColumnSets model)) cat₁ = .ok cat₂ :=
    replaceScript_succeeds (tables_of_view hleaves₁.here) (hreplaceable.of_leaves hleaves₁ ht rfl rfl rfl rfl)
  have hleaves₂ := leaves_replaceScript hrestore hreplaceable.dropped fun name hname => by
    obtain ⟨r, hr, rfl⟩ := List.mem_map.mp hname
    obtain ⟨c, hc, hcname, -⟩ := hreplaceable.there r hr
    rw [constraintsOf_of_view hleaves₁.here]
    exact hcname ▸ List.mem_map_of_mem hc
  have ht₂ := (tables_of_view hleaves₂.here).trans (tables_of_view hleaves₁.here)
  have hpolicies₂ : cat₂.policiesOf model.dbTable = otherPolicies (cat.policiesOf model.dbTable) :=
    (policiesOf_of_view hleaves₂.here).trans (policiesOf_of_view hleaves₁.here)
  obtain ⟨cat₃, hdrop⟩ : ∃ cat₃, cat₂.dropColumn model.dbTable "tenant_id" = .ok cat₃ :=
    dropColumn_succeeds ht₂ hcolumn (hpolicies₂ ▸ hpolicies)
  refine ⟨cat₃, execAll_append_ok_iff.mpr ⟨cat₁, hoff, execAll_append_ok_iff.mpr ⟨cat₂, hrestore, ?_⟩⟩⟩
  exact execAll_singleton (map_pair_ok_iff.mpr ⟨hdrop, rfl⟩)

/-- A reversal takes a column that is there, and leaves the table's view. -/
theorem leaves_unadoptScript (hexec : execAll env.toServer (unadoptScript env cat model) cat = .ok cat')
    (hnodup : ((replacements env model.dbTable (uniqueConstraints env.toServer cat model.dbTable)
      (historicalUniqueColumnSets model)).map Replacement.dropped).Nodup)
    (hnames : ∀ name ∈ (replacements env model.dbTable (uniqueConstraints env.toServer cat model.dbTable)
      (historicalUniqueColumnSets model)).map Replacement.dropped,
      name ∈ (cat.constraintsOf model.dbTable).map UniqueConstraint.name) :
    ∃ t, cat.tables model.dbTable = .some t ∧ Leaves model.dbTable (unadoptedView cat model.dbTable t
      (replacements env model.dbTable (uniqueConstraints env.toServer cat model.dbTable)
        (historicalUniqueColumnSets model))) cat cat' := by
  obtain ⟨cat₁, hoff, hexec⟩ := execAll_append_ok_iff.mp hexec
  obtain ⟨cat₂, hrestore, hdrop⟩ := execAll_append_ok_iff.mp hexec
  obtain ⟨cat₃, n, hcolumn, hrest⟩ := execAll_cons_ok_iff.mp hdrop
  obtain rfl := Except.ok.inj hrest
  obtain ⟨t, ht, hleaves₁⟩ := leaves_securityOffScript hoff
  have hconstraints := constraintsOf_of_view hleaves₁.here
  have hleaves₂ := leaves_replaceScript hrestore hnodup (by rw [hconstraints]; exact hnames)
  obtain ⟨t₃, ht₃, -, hleaves₃⟩ := dropColumn_ok (map_pair_ok_iff.mp hcolumn).1
  obtain rfl := Option.some.inj (ht₃.symm.trans ((tables_of_view hleaves₂.here).trans (tables_of_view hleaves₁.here)))
  refine ⟨t, ht, ?_⟩
  have hleaves := (hleaves₁.trans hleaves₂).trans hleaves₃
  have hindexes : cat₂.indexesOf model.dbTable = cat.indexesOf model.dbTable :=
    (congrArg TableView.indexes hleaves₂.here).trans (congrArg TableView.indexes hleaves₁.here)
  have hpolicies : cat₂.policiesOf model.dbTable = otherPolicies (cat.policiesOf model.dbTable) :=
    (policiesOf_of_view hleaves₂.here).trans (congrArg TableView.policies hleaves₁.here)
  rw [constraintsOf_of_view hleaves₂.here, hconstraints, hindexes, hpolicies] at hleaves
  exact hleaves

/-- A table has its turn: its view is left, and no name comes but of what was
replaced. -/
theorem unadoptTable_succeeds {t : Table δ} {type : String} {rs : List Replacement} (hlive : env.editor = .live)
    (hread : columnType env.toServer m.catalogue model.dbTable "tenant_id" = .some type)
    (ht : m.catalogue.tables model.dbTable = .some t) (hcolumn : (t.column? "tenant_id").isSome = true)
    (hpolicies : ∀ p ∈ otherPolicies (m.catalogue.policiesOf model.dbTable), p.using_ ≠ .isCurrentTenantId "tenant_id")
    (hrs : replacements env model.dbTable (uniqueConstraints env.toServer m.catalogue model.dbTable)
      (historicalUniqueColumnSets model) = rs)
    (hreplaceable : Replaceable m.catalogue model.dbTable t rs) :
    ∃ m', unadoptTable env model m = .ok () m' ∧
      Leaves model.dbTable (unadoptedView m.catalogue model.dbTable t rs) m.catalogue m'.catalogue ∧
      ∀ name, m'.catalogue.nameInUse name = true →
        m.catalogue.nameInUse name = true ∨ ∃ r ∈ rs, Catalogue.clip r.added = name := by
  subst hrs
  obtain ⟨cat', hexec⟩ := unadoptScript_succeeds ht hcolumn hpolicies hreplaceable
  obtain ⟨t', ht', hleaves⟩ := leaves_unadoptScript hexec hreplaceable.dropped fun name hname => by
    obtain ⟨r, hr, rfl⟩ := List.mem_map.mp hname
    obtain ⟨c, hc, hcname, -⟩ := hreplaceable.there r hr
    exact hcname ▸ List.mem_map_of_mem hc
  obtain rfl := Option.some.inj (ht.symm.trans ht')
  refine ⟨⟨cat', m.executed ++ unadoptScript env m.catalogue model, m.collected⟩,
    (unadoptTable_ok_iff hlive hread).mpr ⟨hexec, rfl, rfl⟩, hleaves, fun name hname => ?_⟩
  rcases hleaves.nameInUse (fun _ => by simp [ht]) (fun i hi => List.mem_of_mem_filter hi) hname with hname | ⟨c, hc, rfl⟩
  · exact .inl hname
  · rcases List.mem_append.mp (List.mem_of_mem_filter hc) with hc | hc
    · have hmem := List.mem_of_mem_filter hc
      exact .inl (nameInUse_iff.mpr (.inr (.inl ⟨_, c, hmem, rfl⟩)))
    · obtain ⟨r, hr, rfl⟩ := List.mem_map.mp hc
      exact .inr ⟨r, hr, rfl⟩

/-- The table itself, whatever the catalogue the constraints were read of. -/
theorem tables_unadoptScript {base : Catalogue δ} (hexec : execAll server (unadoptScript env base model) cat = .ok cat') :
    ∃ t, cat.tables model.dbTable = .some t ∧ (t.column? "tenant_id").isSome = true ∧
      cat'.tables model.dbTable = .some (unadopted t) := by
  obtain ⟨cat₁, hoff, hexec⟩ := execAll_append_ok_iff.mp hexec
  obtain ⟨cat₂, hrestore, hdrop⟩ := execAll_append_ok_iff.mp hexec
  obtain ⟨cat₃, n, hdropped, hrest⟩ := execAll_cons_ok_iff.mp hdrop
  obtain rfl := Except.ok.inj hrest
  obtain ⟨t, ht, hleaves₁⟩ := leaves_securityOffScript hoff
  obtain ⟨t₂, ht₂, hsome, hleaves₃⟩ := dropColumn_ok (map_pair_ok_iff.mp hdropped).1
  have hsame : cat₂.tables model.dbTable = cat₁.tables model.dbTable := tables_replaceScript hrestore
  obtain rfl := Option.some.inj (ht₂.symm.trans (hsame.trans (tables_of_view hleaves₁.here)))
  exact ⟨t, ht, hsome, tables_of_view hleaves₃.here⟩

omit [DecidableEq δ] in
theorem not_hasTenantId_of_unadopted {t : Table δ} (h : cat.tables table = .some (unadopted t)) :
    ¬ HasTenantId cat table := by
  rintro ⟨t', ht', hcolumn⟩
  obtain rfl := Option.some.inj (ht'.symm.trans h)
  rw [unadopted_column?] at hcolumn
  cases hcolumn

/-- A table that has its turn has the column before, and not after. -/
theorem unadoptTable_ok {type : String} (hlive : env.editor = .live)
    (hread : columnType env.toServer m.catalogue model.dbTable "tenant_id" = .some type)
    (h : unadoptTable env model m = .ok () m') :
    HasTenantId m.catalogue model.dbTable ∧ ¬ HasTenantId m'.catalogue model.dbTable := by
  obtain ⟨hexec, -, -⟩ := (unadoptTable_ok_iff hlive hread).mp h
  obtain ⟨t, ht, hsome, ht'⟩ := tables_unadoptScript hexec
  exact ⟨⟨t, ht, hsome⟩, not_hasTenantId_of_unadopted ht'⟩

theorem unadoptTable_elsewhere {name : String} (hlive : env.editor = .live) (h : unadoptTable env model m = .ok () m')
    (hne : name ≠ model.dbTable) : m'.catalogue.view name = m.catalogue.view name := by
  cases hread : columnType env.toServer m.catalogue model.dbTable "tenant_id" with
  | none =>
    rw [unadoptTable_absent hread] at h
    cases h
    rfl
  | some type =>
    obtain ⟨hexec, -, -⟩ := (unadoptTable_ok_iff hlive hread).mp h
    exact execAll_elsewhere hexec unadoptScript_table hne

/-! ## Turns -/

section

omit [DecidableEq δ]

theorem columnType_eq_some_iff {table read : String} (hread : env.regclass table = .some read) :
    (∃ type, columnType env.toServer cat table "tenant_id" = .some type) ↔ HasTenantId cat read := by
  simp only [columnType, regclassTable, hread, Option.bind_some, HasTenantId]
  cases ht : cat.tables read with
  | none => simp
  | some t =>
    simp only [Option.bind_some, Option.some.injEq, exists_eq_left']
    cases t.column? "tenant_id" <;> simp

theorem columnType_of_unread {table : String} (hread : env.regclass table = .none) :
    columnType env.toServer cat table "tenant_id" = .none := by
  simp [columnType, regclassTable, hread]

end

section

variable {s s' : Migration δ} {todo done : List AppModel} {read name : String}

theorem unadoptTables_cons : unadoptTables env (model :: todo) s = .ok () s' ↔
    ∃ s₁, unadoptTable env model s = .ok () s₁ ∧ unadoptTables env todo s₁ = .ok () s' := by
  have hcons : unadoptTables env (model :: todo) = unadoptTable env model >>= fun _ => unadoptTables env todo := rfl
  rw [hcons, bind_ok_iff]
  constructor
  · rintro ⟨_, s₁, hs₁, hs'⟩
    exact ⟨s₁, hs₁, hs'⟩
  · rintro ⟨s₁, hs₁, hs'⟩
    exact ⟨(), s₁, hs₁, hs'⟩

theorem unadoptTables_elsewhere {name : String} (hlive : env.editor = .live) (h : unadoptTables env todo s = .ok () s')
    (hname : name ∉ todo.map AppModel.dbTable) : s'.catalogue.view name = s.catalogue.view name := by
  induction todo generalizing s with
  | nil =>
    cases h
    rfl
  | cons model todo ih =>
    obtain ⟨s₁, hs₁, hs'⟩ := unadoptTables_cons.mp h
    rw [List.map_cons, List.mem_cons, not_or] at hname
    exact (ih hs' hname.2).trans (unadoptTable_elsewhere hlive hs₁ hname.1)

/-- Nothing is done where no column is read. -/
theorem unadoptTables_absent
    (hnone : ∀ model ∈ todo, columnType env.toServer s.catalogue model.dbTable "tenant_id" = .none) :
    unadoptTables env todo s = .ok () s := by
  induction todo with
  | nil => rfl
  | cons model todo ih =>
    exact unadoptTables_cons.mpr ⟨s, unadoptTable_absent (hnone model (List.mem_cons_self ..)),
      ih fun model hmodel => hnone model (List.mem_cons_of_mem _ hmodel)⟩

theorem unadoptTables_append : unadoptTables env (done ++ todo) s = .ok () s' ↔
    ∃ s₁, unadoptTables env done s = .ok () s₁ ∧ unadoptTables env todo s₁ = .ok () s' := by
  induction done generalizing s with
  | nil =>
    constructor
    · exact fun h => ⟨s, rfl, h⟩
    · rintro ⟨s₁, hs₁, h⟩
      cases hs₁
      exact h
  | cons model done ih =>
    rw [List.cons_append, unadoptTables_cons]
    constructor
    · rintro ⟨s₁, hs₁, h⟩
      obtain ⟨s₂, hs₂, h⟩ := ih.mp h
      exact ⟨s₂, unadoptTables_cons.mpr ⟨s₁, hs₁, hs₂⟩, h⟩
    · rintro ⟨s₂, hs₂, h⟩
      obtain ⟨s₁, hs₁, hs₂⟩ := unadoptTables_cons.mp hs₂
      exact ⟨s₁, hs₁, ih.mpr ⟨s₂, hs₂, h⟩⟩

variable (hlive : env.editor = .live)

include hlive

/-- No turn adds the column. -/
theorem unadoptTable_lacks (h : unadoptTable env model s = .ok () s') (hlacks : ¬ HasTenantId s.catalogue name) :
    ¬ HasTenantId s'.catalogue name := by
  by_cases hname : name = model.dbTable
  · subst hname
    cases hread : columnType env.toServer s.catalogue model.dbTable "tenant_id" with
    | none =>
      rw [unadoptTable_absent hread] at h
      cases h
      exact hlacks
    | some type => exact (unadoptTable_ok hlive hread h).2
  · rw [hasTenantId_congr (unadoptTable_elsewhere hlive h hname)]
    exact hlacks

theorem unadoptTables_lacks (h : unadoptTables env todo s = .ok () s') (hlacks : ¬ HasTenantId s.catalogue name) :
    ¬ HasTenantId s'.catalogue name := by
  induction todo generalizing s with
  | nil =>
    cases h
    exact hlacks
  | cons model todo ih =>
    obtain ⟨s₁, hs₁, hs'⟩ := unadoptTables_cons.mp h
    exact ih hs' (unadoptTable_lacks hlive hs₁ hlacks)

/-- A table that is read as itself lacks the column after a turn of its own. -/
theorem unadoptTables_takes (h : unadoptTables env todo s = .ok () s') (hself : env.regclass name = .some name)
    (hmem : name ∈ todo.map AppModel.dbTable) : ¬ HasTenantId s'.catalogue name := by
  induction todo generalizing s with
  | nil => cases hmem
  | cons model todo ih =>
    obtain ⟨s₁, hs₁, hs'⟩ := unadoptTables_cons.mp h
    rw [List.map_cons, List.mem_cons] at hmem
    rcases hmem with rfl | hmem
    · refine unadoptTables_lacks hlive hs' ?_
      cases hread : columnType env.toServer s.catalogue model.dbTable "tenant_id" with
      | none =>
        refine unadoptTable_lacks hlive hs₁ fun hthere => ?_
        obtain ⟨type, htype⟩ := (columnType_eq_some_iff hself).mpr hthere
        rw [hread] at htype
        cases htype
      | some type => exact (unadoptTable_ok hlive hread hs₁).2
    · exact ih hs' hmem

/-- Turns of a table of which nothing is read leave it. -/
theorem unadoptTables_unread (h : unadoptTables env todo s = .ok () s') (hread : env.regclass table = .some read)
    (hlacks : ¬ HasTenantId s.catalogue read) : s'.catalogue.view table = s.catalogue.view table := by
  induction todo generalizing s with
  | nil =>
    cases h
    rfl
  | cons model todo ih =>
    obtain ⟨s₁, hs₁, hs'⟩ := unadoptTables_cons.mp h
    have hrest := ih hs' (unadoptTable_lacks hlive hs₁ hlacks)
    by_cases htable : table = model.dbTable
    · have hnone : columnType env.toServer s.catalogue model.dbTable "tenant_id" = .none := by
        refine Option.eq_none_iff_forall_ne_some.mpr fun type htype => hlacks ?_
        exact (columnType_eq_some_iff (htable ▸ hread)).mp ⟨type, htype⟩
      rw [unadoptTable_absent hnone] at hs₁
      cases hs₁
      exact hrest
    · exact hrest.trans (unadoptTable_elsewhere hlive hs₁ htable)

end

end AdoptTenantApp

end Boundary
