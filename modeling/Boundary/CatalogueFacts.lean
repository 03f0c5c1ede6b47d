/-
What each statement leaves of the table it changes, and that it changes no
other.
-/
import Boundary.Catalogue

namespace Boundary

/-- What the catalogue holds of one table. -/
@[ext] structure TableView (δ : Type) where
  table : Option (Table δ)
  constraints : List UniqueConstraint
  indexes : List UniqueIndex
  policies : List Policy

def Catalogue.view {δ : Type} (cat : Catalogue δ) (name : String) : TableView δ :=
  ⟨cat.tables name, cat.constraintsOf name, cat.indexesOf name, cat.policiesOf name⟩

/-- `cat'` holds `v` of the table, and of every other what `cat` does. -/
structure Leaves {δ : Type} (table : String) (v : TableView δ) (cat cat' : Catalogue δ) : Prop where
  here : cat'.view table = v
  elsewhere : ∀ name, name ≠ table → cat'.view name = cat.view name
  relations : cat'.relations = cat.relations

section

variable {δ : Type} {server : Server δ} {cat cat' : Catalogue δ} {table name : String} {n : Nat}

theorem Leaves.refl (table : String) (cat : Catalogue δ) : Leaves table (cat.view table) cat cat :=
  ⟨rfl, fun _ _ => rfl, rfl⟩

theorem Leaves.trans {v v' : TableView δ} {cat'' : Catalogue δ} (h : Leaves table v cat cat')
    (h' : Leaves table v' cat' cat'') : Leaves table v' cat cat'' :=
  ⟨h'.here, fun name hne => (h'.elsewhere name hne).trans (h.elsewhere name hne), h'.relations.trans h.relations⟩

theorem exceptMap_ok_iff {ε α β : Type} {x : Except ε α} {f : α → β} {b : β} :
    x.map f = .ok b ↔ ∃ a, x = .ok a ∧ f a = b := by
  cases x <;> simp [Except.map]

theorem map_pair_ok_iff {α β : Type} {x : Except Exc α} {b b' : β} {a : α} :
    x.map (·, b) = .ok (a, b') ↔ x = .ok a ∧ b = b' := by
  cases x <;> simp [Except.map]

theorem tables_of_view {v : TableView δ} (h : cat.view table = v) : cat.tables table = v.table := by
  rw [← h]
  rfl

theorem constraintsOf_of_view {v : TableView δ} (h : cat.view table = v) : cat.constraintsOf table = v.constraints := by
  rw [← h]
  rfl

theorem policiesOf_of_view {v : TableView δ} (h : cat.view table = v) : cat.policiesOf table = v.policies := by
  rw [← h]
  rfl

/-! ## The table -/

theorem alterTable_ok {alter : Table δ → Except Exc (Table δ)} (h : cat.alterTable table alter = .ok cat') :
    ∃ t t', cat.tables table = .some t ∧ alter t = .ok t' ∧
      cat' = { cat with tables := Function.update cat.tables table (.some t') } := by
  unfold Catalogue.alterTable at h
  cases ht : cat.tables table with
  | none =>
    rw [ht] at h
    cases h
  | some t =>
    rw [ht] at h
    cases halter : alter t with
    | error e =>
      simp only [halter, Except.map] at h
      cases h
    | ok t' =>
      simp only [halter, Except.map, Except.ok.injEq] at h
      exact ⟨t, t', rfl, halter, h.symm⟩

/-- What `nameInUse` says of constraints. -/
theorem not_mem_of_not_nameInUse (h : cat.nameInUse name = false) {c : UniqueConstraint} (hc : c ∈ cat.constraints) :
    c.name ≠ name := by
  simp only [Catalogue.nameInUse, Bool.or_eq_false_iff, List.any_eq_false, decide_eq_true_iff] at h
  exact h.1.1.2 c hc

theorem mem_constraintsOf {c : UniqueConstraint} :
    c ∈ cat.constraintsOf table ↔ c ∈ cat.constraints ∧ c.table = table := by
  rw [Catalogue.constraintsOf, List.mem_filter, decide_eq_true_iff]

/-- A name is one table's. -/
theorem constraint_table_unique {table' : String} {c c' : UniqueConstraint} (hc : c ∈ cat.constraintsOf table)
    (hc' : c' ∈ cat.constraintsOf table') (hname : c.name = c'.name) : table = table' := by
  obtain ⟨hmem, rfl⟩ := mem_constraintsOf.mp hc
  obtain ⟨hmem', rfl⟩ := mem_constraintsOf.mp hc'
  rw [List.inj_on_of_nodup_map cat.names hmem hmem' hname]

theorem nodup_constraintsOf : ((cat.constraintsOf table).map UniqueConstraint.name).Nodup :=
  cat.names.sublist (List.filter_sublist.map _)

theorem leaves_update (t : Table δ) :
    Leaves table { cat.view table with table := .some t } cat
      { cat with tables := Function.update cat.tables table (.some t) } where
  here := by simp [Catalogue.view, Catalogue.constraintsOf, Catalogue.indexesOf, Catalogue.policiesOf]
  elsewhere name hne := by
    simp [Catalogue.view, Catalogue.constraintsOf, Catalogue.indexesOf, Catalogue.policiesOf, hne]
  relations := rfl

theorem alterTable_leaves {f : Table δ → Table δ} (h : cat.alterTable table (fun t => .ok (f t)) = .ok cat') :
    ∃ t, cat.tables table = .some t ∧ Leaves table { cat.view table with table := .some (f t) } cat cat' := by
  obtain ⟨t, t', ht, halter, hcat⟩ := alterTable_ok h
  cases halter
  exact ⟨t, ht, hcat ▸ leaves_update _⟩

theorem addColumn_ok {column : Column} (h : cat.addColumn table server column = .ok cat') :
    ∃ t value, cat.tables table = .some t ∧ t.column? column.name = .none ∧
      Leaves table { cat.view table with
        table := .some { t with
          columns := t.columns ++ [column]
          rows := t.rows.map (Function.update · column.name value) } } cat cat' := by
  obtain ⟨t, t', ht, halter, hcat⟩ := alterTable_ok h
  simp only at halter
  generalize (if column.default = .some .currentTenantId then server.currentTenant else .none) = value at halter
  by_cases hsome : (t.column? column.name).isSome = true
  · rw [if_pos hsome] at halter
    cases halter
  · rw [if_neg hsome] at halter
    split at halter
    · cases halter
    · cases halter
      exact ⟨t, value, ht, by simpa using hsome, hcat ▸ leaves_update _⟩

theorem alterColumn_eq {column : String} {alter : Column → Column} (h : cat.alterColumn table column alter = .ok cat') :
    ∃ t, cat.tables table = .some t ∧ cat' = { cat with tables := Function.update cat.tables table (.some { t with
      columns := t.columns.map fun c => if c.name = column then alter c else c }) } := by
  obtain ⟨t, t', ht, halter, hcat⟩ := alterTable_ok h
  split at halter
  · cases halter
  · cases halter
    exact ⟨t, ht, hcat⟩

theorem alterColumn_ok {column : String} {alter : Column → Column} (h : cat.alterColumn table column alter = .ok cat') :
    ∃ t, cat.tables table = .some t ∧ Leaves table { cat.view table with
      table := .some { t with
        columns := t.columns.map fun c => if c.name = column then alter c else c } } cat cat' := by
  obtain ⟨t, ht, rfl⟩ := alterColumn_eq h
  exact ⟨t, ht, leaves_update _⟩

theorem setNotNull_eq {column : String} (h : cat.setNotNull table column = .ok cat') :
    ∃ t, cat.tables table = .some t ∧ cat' = { cat with tables := Function.update cat.tables table (.some { t with
      columns := t.columns.map fun c => if c.name = column then { c with notNull := true } else c }) } := by
  unfold Catalogue.setNotNull at h
  split at h
  · cases h
  · split at h
    · cases h
    · exact alterColumn_eq h

theorem setNotNull_ok {column : String} (h : cat.setNotNull table column = .ok cat') :
    ∃ t, cat.tables table = .some t ∧ Leaves table { cat.view table with
      table := .some { t with
        columns := t.columns.map fun c => if c.name = column then { c with notNull := true } else c } } cat cat' := by
  obtain ⟨t, ht, rfl⟩ := setNotNull_eq h
  exact ⟨t, ht, leaves_update _⟩

theorem updateAll_eq [DecidableEq δ] {column : String} {value : δ}
    (h : cat.updateAll table column value = .ok (cat', n)) :
    ∃ t, cat.tables table = .some t ∧ n = t.rows.length ∧ cat' = { cat with
      tables := Function.update cat.tables table (.some { t with
        rows := t.rows.map (Function.update · column (.some value)) }) } := by
  unfold Catalogue.updateAll at h
  split at h
  · cases h
  next t ht =>
    simp only at h
    split at h
    · cases h
    · split at h
      · cases h
        exact ⟨t, ht, rfl, rfl⟩
      · cases h

theorem updateAll_ok [DecidableEq δ] {column : String} {value : δ}
    (h : cat.updateAll table column value = .ok (cat', n)) :
    ∃ t, cat.tables table = .some t ∧ n = t.rows.length ∧ Leaves table { cat.view table with
      table := .some { t with rows := t.rows.map (Function.update · column (.some value)) } } cat cat' := by
  obtain ⟨t, ht, hn, rfl⟩ := updateAll_eq h
  exact ⟨t, ht, hn, leaves_update _⟩

/-! ## Constraints and policies -/

theorem constraintsOf_filter (p : UniqueConstraint → Bool) (cs : List UniqueConstraint) :
    (cs.filter p).filter (·.table = name) = (cs.filter (·.table = name)).filter p := by
  rw [List.filter_filter, List.filter_filter]
  congr 1
  funext c
  exact Bool.and_comm _ _

theorem dropConstraint_eq {dropped : String} (h : cat.dropConstraint table dropped = .ok cat') :
    (∃ c ∈ cat.constraintsOf table, c.name = dropped ∧ c.fkTargeted = false) ∧
      ∃ names, cat' = { cat with constraints := cat.constraints.filter fun c => c.name ≠ dropped, names } := by
  unfold Catalogue.dropConstraint at h
  split at h
  · cases h
  next c hfind =>
    split at h
    · cases h
    next htargeted =>
      cases h
      have hprop : c.table = table ∧ c.name = dropped := by simpa using List.find?_some hfind
      have hc : c ∈ cat.constraintsOf table := mem_constraintsOf.mpr ⟨List.mem_of_find?_eq_some hfind, hprop.1⟩
      exact ⟨⟨c, hc, hprop.2, by simpa using htargeted⟩, _, rfl⟩

theorem dropConstraint_ok {dropped : String} (h : cat.dropConstraint table dropped = .ok cat') :
    dropped ∈ (cat.constraintsOf table).map UniqueConstraint.name ∧
      Leaves table { cat.view table with constraints := (cat.constraintsOf table).filter (·.name ≠ dropped) }
        cat cat' := by
  obtain ⟨⟨c, hc, rfl, -⟩, -, rfl⟩ := dropConstraint_eq h
  refine ⟨List.mem_map_of_mem hc, ?_, fun name hne => ?_, rfl⟩
  · simp only [Catalogue.view, Catalogue.constraintsOf, Catalogue.indexesOf, Catalogue.policiesOf]
    rw [constraintsOf_filter]
  · simp only [Catalogue.view, Catalogue.constraintsOf, Catalogue.indexesOf, Catalogue.policiesOf]
    rw [constraintsOf_filter, List.filter_eq_self.mpr]
    intro c' hc'
    -- names are distinct over the whole schema
    have hname : c'.name ≠ c.name := fun heq => hne (constraint_table_unique hc' hc heq)
    simpa using hname

theorem addUnique_eq [DecidableEq δ] {added : String} {columns : List String}
    (h : cat.addUnique table added columns = .ok cat') :
    cat.nameInUse (Catalogue.clip added) = false ∧
      (∃ t, cat.tables table = .some t ∧ (∀ c ∈ columns, (t.column? c).isSome = true) ∧
        (Sql.UniqueKey.mk columns false).Admits t.rows) ∧
      ∃ names, cat' = { cat with
        constraints := cat.constraints ++ [{ name := Catalogue.clip added, table, columns }], names } := by
  unfold Catalogue.addUnique at h
  split at h
  · cases h
  next t ht =>
    split at h
    · cases h
    next hfree =>
      split at h
      · cases h
      next hcolumns =>
        split at h
        next hadmits =>
          cases h
          exact ⟨by simpa using hfree, ⟨t, ht, by simpa [Option.isSome_iff_ne_none] using hcolumns, hadmits⟩, _, rfl⟩
        · cases h

theorem addUnique_ok [DecidableEq δ] {added : String} {columns : List String}
    (h : cat.addUnique table added columns = .ok cat') :
    cat.nameInUse (Catalogue.clip added) = false ∧
      Leaves table { cat.view table with
        constraints := cat.constraintsOf table ++ [{ name := Catalogue.clip added, table, columns }] } cat cat' := by
  obtain ⟨hfree, -, -, rfl⟩ := addUnique_eq h
  refine ⟨hfree, ?_, fun name hne => ?_, rfl⟩
  · simp [Catalogue.view, Catalogue.constraintsOf, Catalogue.indexesOf, Catalogue.policiesOf]
  · simp [Catalogue.view, Catalogue.constraintsOf, Catalogue.indexesOf, Catalogue.policiesOf, hne.symm]

/-- A change of one table's column that drops what involves it. -/
theorem dropColumn_ok {column : String} (h : cat.dropColumn table column = .ok cat') :
    ∃ t, cat.tables table = .some t ∧ (t.column? column).isSome = true ∧ Leaves table
      { table := .some { t with columns := t.columns.filter (·.name ≠ column) }
        constraints := (cat.constraintsOf table).filter fun c => column ∉ c.columns ++ c.included
        indexes := (cat.indexesOf table).filter fun i => column ∉ i.keys.filterMap id ++ i.included
        policies := cat.policiesOf table } cat cat' := by
  unfold Catalogue.dropColumn at h
  split at h
  · cases h
  · obtain ⟨cat₁, halter, rfl⟩ := exceptMap_ok_iff.mp h
    obtain ⟨t, t', ht, ht', rfl⟩ := alterTable_ok halter
    split at ht'
    · cases ht'
    next hsome =>
      cases ht'
      refine ⟨t, ht, by simpa [Option.isSome_iff_ne_none] using hsome, ?_, fun name hne => ?_, rfl⟩
      · simp only [Catalogue.view, Catalogue.constraintsOf, Catalogue.indexesOf, Catalogue.policiesOf,
          Function.update_self, List.filter_filter, TableView.mk.injEq, true_and, and_true]
        constructor
        · refine List.filter_congr fun c _ => ?_
          by_cases hc : c.table = table <;> simp [hc]
        · refine List.filter_congr fun i _ => ?_
          by_cases hi : i.table = table <;> simp [hi]
      · simp only [Catalogue.view, Catalogue.constraintsOf, Catalogue.indexesOf, Catalogue.policiesOf,
          Function.update_of_ne hne, List.filter_filter, TableView.mk.injEq, true_and, and_true]
        constructor
        · refine List.filter_congr fun c _ => ?_
          by_cases hc : c.table = name <;> simp [hc, hne]
        · refine List.filter_congr fun i _ => ?_
          by_cases hi : i.table = name <;> simp [hi, hne]

/-- A policy is created on a table that is there, under a name no other policy
of it has, of expressions that the server takes. -/
theorem createPolicy_ok_iff {server : Server δ} {policy : Policy} :
    cat.createPolicy server policy = .ok cat' ↔
      (∃ t, cat.tables policy.table = .some t ∧ cat.wellTyped server t policy.using_ = true ∧
        policy.withCheck.all (cat.wellTyped server t) = true) ∧
      (∀ p ∈ cat.policiesOf policy.table, p.name ≠ policy.name) ∧
      cat' = { cat with policies := cat.policies ++ [policy] } := by
  unfold Catalogue.createPolicy
  cases cat.tables policy.table with
  | none => simp
  | some t =>
    simp only [Option.some.injEq, exists_eq_left', Bool.and_eq_true]
    split
    · next hused =>
      obtain ⟨p, hp, hname⟩ := List.any_eq_true.mp hused
      simp only [reduceCtorEq, false_iff, not_and]
      intro _ hfresh
      exact absurd (of_decide_eq_true hname) (hfresh p hp)
    · next hfresh =>
      have hnames : ∀ p ∈ cat.policiesOf policy.table, p.name ≠ policy.name := by simpa using hfresh
      split
      · next htyped => rw [Except.ok.injEq, eq_comm, and_iff_right htyped, and_iff_right hnames]
      · next htyped => simp [htyped]

theorem createPolicy_ok {server : Server δ} {policy : Policy} (h : cat.createPolicy server policy = .ok cat')
    (htable : policy.table = table) :
    Leaves table { cat.view table with policies := cat.policiesOf table ++ [policy] } cat cat' := by
  subst htable
  obtain ⟨-, -, rfl⟩ := createPolicy_ok_iff.mp h
  refine ⟨?_, fun name hne => ?_, rfl⟩
  · simp [Catalogue.view, Catalogue.constraintsOf, Catalogue.indexesOf, Catalogue.policiesOf]
  · simp [Catalogue.view, Catalogue.constraintsOf, Catalogue.indexesOf, Catalogue.policiesOf, hne.symm]

theorem leaves_dropPolicyIfExists (cat : Catalogue δ) (table policy : String) :
    Leaves table { cat.view table with policies := (cat.policiesOf table).filter (·.name ≠ policy) } cat
      (cat.dropPolicyIfExists table policy) := by
  refine ⟨?_, fun name hne => ?_, rfl⟩
  · simp only [Catalogue.view, Catalogue.dropPolicyIfExists, Catalogue.constraintsOf, Catalogue.indexesOf,
      Catalogue.policiesOf, List.filter_filter, TableView.mk.injEq, true_and]
    refine List.filter_congr fun p _ => ?_
    by_cases hp : p.table = table <;> simp [hp]
  · simp only [Catalogue.view, Catalogue.dropPolicyIfExists, Catalogue.constraintsOf, Catalogue.indexesOf,
      Catalogue.policiesOf, List.filter_filter, TableView.mk.injEq, true_and]
    refine List.filter_congr fun p _ => ?_
    by_cases hp : p.table = name <;> simp [hp, hne]

/-! ## Rows -/

theorem Leaves.rowCount_eq {v : TableView δ} (h : Leaves table v cat cat')
    (hlength : v.table.map (·.rows.length) = (cat.tables table).map (·.rows.length)) (name : String) :
    rowCount cat' name = rowCount cat name := by
  by_cases hname : name = table
  · subst hname
    rw [rowCount, rowCount, tables_of_view h.here]
    cases hv : v.table <;> cases ht : cat.tables name <;> simp_all
  · rw [rowCount, rowCount, tables_of_view (h.elsewhere name hname)]
    rfl

/-- A statement leaves the table it changes as many rows as it had. -/
theorem exec_leaves [DecidableEq δ] {s : Statement δ} (h : s.exec server cat = .ok (cat', n))
    (htable : s.table? = .some table) :
    ∃ v, Leaves table v cat cat' ∧ v.table.map (·.rows.length) = (cat.tables table).map (·.rows.length) := by
  cases s with
  | createHelper helper => cases htable
  | addColumn other column =>
    cases htable
    obtain ⟨t, value, ht, -, hleaves⟩ := addColumn_ok (map_pair_ok_iff.mp h).1
    exact ⟨_, hleaves, by simp [ht]⟩
  | updateAll other column value =>
    cases htable
    obtain ⟨t, ht, -, hleaves⟩ := updateAll_ok h
    exact ⟨_, hleaves, by simp [ht]⟩
  | setNotNull other column =>
    cases htable
    obtain ⟨t, ht, hleaves⟩ := setNotNull_ok (map_pair_ok_iff.mp h).1
    exact ⟨_, hleaves, by simp [ht]⟩
  | setDefault other column default =>
    cases htable
    obtain ⟨t, ht, hleaves⟩ := alterColumn_ok (map_pair_ok_iff.mp h).1
    exact ⟨_, hleaves, by simp [ht]⟩
  | dropColumn other column =>
    cases htable
    obtain ⟨t, ht, -, hleaves⟩ := dropColumn_ok (map_pair_ok_iff.mp h).1
    exact ⟨_, hleaves, by simp [ht]⟩
  | dropConstraint other dropped =>
    cases htable
    exact ⟨_, (dropConstraint_ok (map_pair_ok_iff.mp h).1).2, rfl⟩
  | addUnique other added columns =>
    cases htable
    exact ⟨_, (addUnique_ok (map_pair_ok_iff.mp h).1).2, rfl⟩
  | rowSecurity other enable =>
    cases htable
    obtain ⟨t, ht, hleaves⟩ := alterTable_leaves (map_pair_ok_iff.mp h).1
    exact ⟨_, hleaves, by simp [ht]⟩
  | forceRowSecurity other force =>
    cases htable
    obtain ⟨t, ht, hleaves⟩ := alterTable_leaves (map_pair_ok_iff.mp h).1
    exact ⟨_, hleaves, by simp [ht]⟩
  | createPolicy policy =>
    cases htable
    exact ⟨_, createPolicy_ok (map_pair_ok_iff.mp h).1 rfl, rfl⟩
  | dropPolicyIfExists other policy =>
    cases htable
    cases h
    exact ⟨_, leaves_dropPolicyIfExists cat _ policy, rfl⟩

theorem rowCount_exec [DecidableEq δ] {s : Statement δ} (h : s.exec server cat = .ok (cat', n)) (name : String) :
    rowCount cat' name = rowCount cat name := by
  cases htable : s.table? with
  | some table =>
    obtain ⟨v, hleaves, hlength⟩ := exec_leaves h htable
    exact hleaves.rowCount_eq hlength name
  | none =>
    cases s with
    | createHelper helper =>
      cases h
      rfl
    | _ => cases htable

/-- A statement of a table leaves the helper. -/
theorem helper_exec [DecidableEq δ] {s : Statement δ} (h : s.exec server cat = .ok (cat', n))
    (htable : s.table?.isSome = true) : cat'.helper = cat.helper := by
  have halter : ∀ {table : String} {alter : Table δ → Except Exc (Table δ)} {cat' : Catalogue δ},
      cat.alterTable table alter = .ok cat' → cat'.helper = cat.helper := by
    intro table alter cat' halter
    obtain ⟨t, t', -, -, rfl⟩ := alterTable_ok halter
    rfl
  cases s with
  | createHelper helper => cases htable
  | addColumn table column => exact halter (map_pair_ok_iff.mp h).1
  | updateAll table column value =>
    obtain ⟨t, -, -, rfl⟩ := updateAll_eq h
    rfl
  | setNotNull table column =>
    obtain ⟨t, -, rfl⟩ := setNotNull_eq (map_pair_ok_iff.mp h).1
    rfl
  | setDefault table column default => exact halter (map_pair_ok_iff.mp h).1
  | dropColumn table column =>
    have hdrop := (map_pair_ok_iff.mp h).1
    unfold Catalogue.dropColumn at hdrop
    split at hdrop
    · cases hdrop
    · obtain ⟨cat₁, hcolumn, rfl⟩ := exceptMap_ok_iff.mp hdrop
      have hsame : cat₁.helper = cat.helper := halter hcolumn
      exact hsame
  | dropConstraint table name =>
    obtain ⟨-, -, rfl⟩ := dropConstraint_eq (map_pair_ok_iff.mp h).1
    rfl
  | addUnique table name columns =>
    obtain ⟨-, -, -, rfl⟩ := addUnique_eq (map_pair_ok_iff.mp h).1
    rfl
  | rowSecurity table enable => exact halter (map_pair_ok_iff.mp h).1
  | forceRowSecurity table force => exact halter (map_pair_ok_iff.mp h).1
  | createPolicy policy =>
    obtain ⟨-, -, rfl⟩ := createPolicy_ok_iff.mp (map_pair_ok_iff.mp h).1
    rfl
  | dropPolicyIfExists table name =>
    cases h
    rfl

/-! ## What succeeds -/

theorem alterTable_succeeds {t : Table δ} {f : Table δ → Table δ} (ht : cat.tables table = .some t) :
    ∃ cat', cat.alterTable table (fun t => .ok (f t)) = .ok cat' := by
  unfold Catalogue.alterTable
  rw [ht]
  exact ⟨_, rfl⟩

theorem dropConstraint_succeeds {c : UniqueConstraint} (hc : c ∈ cat.constraintsOf table)
    (htargeted : c.fkTargeted = false) : ∃ cat', cat.dropConstraint table c.name = .ok cat' := by
  unfold Catalogue.dropConstraint
  obtain ⟨hmem, htable⟩ := mem_constraintsOf.mp hc
  cases hfind : cat.constraints.find? fun d => d.table = table ∧ d.name = c.name with
  | none =>
    have hnone := List.find?_eq_none.mp hfind c hmem
    simp [htable] at hnone
  | some d =>
    have hd : d.table = table ∧ d.name = c.name := by simpa using List.find?_some hfind
    obtain rfl := List.inj_on_of_nodup_map cat.names (List.mem_of_find?_eq_some hfind) hmem hd.2
    simp only [htargeted]
    exact ⟨_, rfl⟩

theorem addUnique_succeeds [DecidableEq δ] {t : Table δ} {added : String} {columns : List String}
    (ht : cat.tables table = .some t) (hfree : cat.nameInUse (Catalogue.clip added) = false)
    (hcolumns : ∀ c ∈ columns, (t.column? c).isSome = true) (hadmits : (Sql.UniqueKey.mk columns false).Admits t.rows) :
    ∃ cat', cat.addUnique table added columns = .ok cat' := by
  unfold Catalogue.addUnique
  have hnone : ¬ (columns.any fun c => (t.column? c).isNone) = true := by
    rw [List.any_eq_true]
    rintro ⟨c, hc, hnone⟩
    rw [Option.isNone_iff_eq_none] at hnone
    simpa [hnone] using hcolumns c hc
  split
  · next hmissing =>
    rw [ht] at hmissing
    cases hmissing
  · next t' ht' =>
    obtain rfl := Option.some.inj (ht.symm.trans ht')
    rw [dif_neg (by simp [hfree]), if_neg hnone, if_pos hadmits]
    exact ⟨_, rfl⟩

theorem dropColumn_succeeds {t : Table δ} {column : String} (ht : cat.tables table = .some t)
    (hcolumn : (t.column? column).isSome = true)
    (hpolicies : ∀ p ∈ cat.policiesOf table, p.using_ ≠ .isCurrentTenantId column) :
    ∃ cat', cat.dropColumn table column = .ok cat' := by
  unfold Catalogue.dropColumn
  have hnone : ¬ ((cat.policiesOf table).any fun p => p.using_ = .isCurrentTenantId column) = true := by
    rw [List.any_eq_true]
    rintro ⟨p, hp, husing⟩
    exact hpolicies p hp (of_decide_eq_true husing)
  have hsome : ¬ (t.column? column).isNone = true := by
    rw [Option.isNone_iff_eq_none]
    intro hmissing
    simp [hmissing] at hcolumn
  rw [if_neg hnone]
  unfold Catalogue.alterTable
  rw [ht]
  simp only [if_neg hsome]
  exact ⟨_, rfl⟩

/-! ## Names -/

theorem nameInUse_iff : cat.nameInUse name = true ↔
    (cat.tables name).isSome = true ∨ (∃ table, ∃ c ∈ cat.constraintsOf table, c.name = name) ∨
      (∃ table, ∃ i ∈ cat.indexesOf table, i.name = name) ∨ name ∈ cat.relations := by
  simp [Catalogue.nameInUse, Catalogue.constraintsOf, Catalogue.indexesOf, or_assoc]

/-- A change of one table that makes neither a table nor an index brings no name
but of its constraints. -/
theorem Leaves.nameInUse {v : TableView δ} (h : Leaves table v cat cat')
    (htable : v.table.isSome = true → (cat.tables table).isSome = true)
    (hindexes : ∀ i ∈ v.indexes, i ∈ cat.indexesOf table) (hname : cat'.nameInUse name = true) :
    cat.nameInUse name = true ∨ ∃ c ∈ v.constraints, c.name = name := by
  rw [nameInUse_iff] at hname ⊢
  rcases hname with hname | ⟨table', c, hc, hname⟩ | ⟨table', i, hi, hname⟩ | hname
  · by_cases hne : name = table
    · subst hne
      rw [tables_of_view h.here] at hname
      exact .inl (.inl (htable hname))
    · rw [tables_of_view (h.elsewhere name hne)] at hname
      exact .inl (.inl hname)
  · by_cases hne : table' = table
    · subst hne
      rw [constraintsOf_of_view h.here] at hc
      exact .inr ⟨c, hc, hname⟩
    · rw [constraintsOf_of_view (h.elsewhere table' hne)] at hc
      exact .inl (.inr (.inl ⟨table', c, hc, hname⟩))
  · by_cases hne : table' = table
    · subst hne
      have hmem : cat'.indexesOf table' = v.indexes := congrArg TableView.indexes h.here
      rw [hmem] at hi
      exact .inl (.inr (.inr (.inl ⟨table', i, hindexes i hi, hname⟩)))
    · have hmem : cat'.indexesOf table' = cat.indexesOf table' := congrArg TableView.indexes (h.elsewhere table' hne)
      rw [hmem] at hi
      exact .inl (.inr (.inr (.inl ⟨table', i, hi, hname⟩)))
  · rw [h.relations] at hname
    exact .inl (.inr (.inr (.inr hname)))

end

end Boundary
