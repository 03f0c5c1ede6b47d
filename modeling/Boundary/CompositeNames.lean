/-
The names of the composite constraints of one adoption: when the drops and adds
of all its tables go through, each name that is added being kept whole and free
by then.

The rewrites are taken one after another, from the tables with their column. In
the second pass a table is secured before the next one is come to, and what
secures it names no constraint.
-/
import Boundary.Lib.Renaming
import Boundary.PlanThenApply
import Boundary.Reversal

namespace Boundary

open Exec

namespace Catalogue

variable {δ : Type}

/-- A table, an index or another relation has the name. -/
def OtherName (cat : Catalogue δ) (name : String) : Prop :=
  (cat.tables name).isSome = true ∨ (∃ i ∈ cat.indexes, i.name = name) ∨ name ∈ cat.relations

def usedNames (cat : Catalogue δ) : Set String := {name | cat.nameInUse name = true}

/-- What PostgreSQL keeps of any database: a constraint is of columns of its
table, whose rows satisfy it, and its name is no other relation's. -/
structure Sound (cat : Catalogue δ) : Prop where
  constraints : ∀ c ∈ cat.constraints, ∃ t, cat.tables c.table = .some t ∧
    (∀ column ∈ c.columns, (t.column? column).isSome = true) ∧ c.key.Admits t.rows
  names : ∀ c ∈ cat.constraints, ¬ cat.OtherName c.name

end Catalogue

/-- A name that is added is short enough to be kept whole, and nothing's yet. -/
def Statement.AddsClear {δ : Type} (cat : Catalogue δ) : Statement δ → Prop
  | addUnique _ name _ => name.utf8ByteSize ≤ 63 ∧ cat.nameInUse name = false
  | _ => True

/-- The statements all execute, and every name they add is clear at that moment. -/
def ClearRun {δ : Type} [DecidableEq δ] (server : Server δ) : List (Statement δ) → Catalogue δ → Prop
  | [], _ => True
  | s :: ss, cat => s.AddsClear cat ∧ ∃ cat' n, s.exec server cat = .ok (cat', n) ∧ ClearRun server ss cat'

namespace AdoptTenantApp

variable {δ : Type}

/-! ## The rewrites of all tables -/

/-- Each planned table with its column. -/
def withTenantColumns (op : AdoptTenantApp δ) (plans : List AdoptionPlan) (cat : Catalogue δ) : Catalogue δ :=
  { cat with tables := fun name =>
      match plans.find? (·.table = name) with
      | .some plan => (cat.tables name).map (op.withTenantColumn plan.pgType)
      | .none => cat.tables name }

/-- `_apply_unique_rewrites`, of every table in turn. -/
def applyAllRewrites [DecidableEq δ] (env : AdoptionEnv δ) : List AdoptionPlan → Adopting δ Unit
  | [] => pure ()
  | plan :: plans => do
    applyUniqueRewrites env plan.table plan.rewrites
    applyAllRewrites env plans

section

variable [DecidableEq δ] (op : AdoptTenantApp δ) (env : AdoptionEnv δ) (plans : List AdoptionPlan) (m : Migration δ)

/-- The drops and adds of all tables run to completion, each new name at most 63
bytes long and free when it is added; and so do those of each table that the
second pass comes to, whatever else may stop it. -/
structure NeverCollides : Prop where
  completes : ∃ m' ss,
    applyAllRewrites env plans { m with catalogue := op.withTenantColumns plans m.catalogue } = .ok () m' ∧
    m'.executed = m.executed ++ ss ∧ ClearRun env.toServer ss (op.withTenantColumns plans m.catalogue)
  inPass : ∀ done plan rest, plans = done ++ plan :: rest →
    ∀ cat, execAll env.toServer (done.flatMap (op.adoptScript env) ++ op.addColumnScript plan) m.catalogue = .ok cat →
      ClearRun env.toServer (rewriteScript env plan.table plan.rewrites) cat

end

/-- A constraint to be rewritten, and the columns of its composite. -/
structure TableRewrite where
  table : String
  name : String
  columns : List String

def tableRewrites (plans : List AdoptionPlan) : List TableRewrite :=
  plans.flatMap fun plan => plan.rewrites.map fun (name, columns) => ⟨plan.table, name, columns⟩

namespace TableRewrite

/-- `_tenant` no longer fits, counted in characters. -/
def Long (r : TableRewrite) : Prop := 56 < r.name.length

instance (r : TableRewrite) : Decidable r.Long := inferInstanceAs (Decidable (56 < r.name.length))

def suffixed (r : TableRewrite) : String := r.name ++ "_tenant"

/-- Django's own name for an index of the columns. -/
def hashed (env : AdoptionEnv δ) (r : TableRewrite) : String := env.indexName r.table r.columns "_tenant"

end TableRewrite

/-- What the names of the constraints must be for their composites' never to
collide, and which table each is read of. -/
structure NamesApart (env : AdoptionEnv δ) (cat : Catalogue δ) (plans : List AdoptionPlan) : Prop where
  own : ∀ plan ∈ plans, env.regclass plan.table = .some plan.table ∨ plan.rewrites = []
  /-- Where characters are counted, there are no more bytes. -/
  short : ∀ r ∈ tableRewrites plans, ¬ r.Long → r.name.utf8ByteSize ≤ 56
  hashedShort : ∀ r ∈ tableRewrites plans, r.Long → (r.hashed env).utf8ByteSize ≤ 63
  distinct : (tableRewrites plans).Pairwise fun r r' =>
    (r.Long → r'.Long → r.hashed env ≠ r'.hashed env) ∧ (r.Long → ¬ r'.Long → r.hashed env ≠ r'.suffixed) ∧
      (¬ r.Long → r'.Long → r.suffixed ≠ r'.hashed env)
  /-- A name in use is that of a constraint that is dropped by then. -/
  free : ∀ done r rest, tableRewrites plans = done ++ r :: rest →
    (¬ r.Long → cat.nameInUse r.suffixed = true → r.suffixed ∈ (done ++ [r]).map TableRewrite.name) ∧
      (r.Long → cat.nameInUse (r.hashed env) = true → r.hashed env ∈ (done ++ [r]).map TableRewrite.name)

end AdoptTenantApp

/-! ## Names in use -/

section

variable {δ : Type} {server : Server δ} {cat cat' : Catalogue δ} {table name : String}

theorem clipChars_of_fits {cs : List Char} {limit : Nat} (h : (String.ofList cs).utf8ByteSize ≤ limit) :
    Catalogue.clipChars limit cs = cs := by
  induction cs generalizing limit with
  | nil => rfl
  | cons c cs ih =>
    have hsize : (String.ofList (c :: cs)).utf8ByteSize = c.utf8Size + (String.ofList cs).utf8ByteSize := by simp
    rw [hsize] at h
    rw [Catalogue.clipChars, if_pos (by omega), ih (by omega)]

theorem clip_of_short (h : name.utf8ByteSize ≤ 63) : Catalogue.clip name = name := by
  rw [Catalogue.clip, clipChars_of_fits (by rwa [String.ofList_toList]), String.ofList_toList]

theorem nameInUse_eq_true_iff :
    cat.nameInUse name = true ↔ name ∈ cat.constraints.map UniqueConstraint.name ∨ cat.OtherName name := by
  simp only [Catalogue.nameInUse, Catalogue.OtherName, Bool.or_eq_true, List.any_eq_true, decide_eq_true_eq,
    List.contains_iff_mem, List.mem_map]
  rw [or_assoc, or_assoc, or_left_comm]

theorem nameInUse_eq_false_iff : cat.nameInUse name = false ↔ name ∉ cat.usedNames := by
  rw [Catalogue.usedNames, Set.mem_ofPred_eq, Bool.not_eq_true]

/-- The same constraints, and nothing else named otherwise. -/
structure NamesKept (cat cat' : Catalogue δ) : Prop where
  constraints : ∀ c, c ∈ cat'.constraints ↔ c ∈ cat.constraints
  other : ∀ name, cat'.OtherName name ↔ cat.OtherName name

/-- What else is named is as it was. -/
structure SameOtherNames (cat cat' : Catalogue δ) : Prop where
  tables : cat'.tables = cat.tables
  indexes : cat'.indexes = cat.indexes
  relations : cat'.relations = cat.relations

theorem SameOtherNames.trans {cat'' : Catalogue δ} (h : SameOtherNames cat cat') (h' : SameOtherNames cat' cat'') :
    SameOtherNames cat cat'' :=
  ⟨h'.tables.trans h.tables, h'.indexes.trans h.indexes, h'.relations.trans h.relations⟩

theorem SameOtherNames.otherName_iff (h : SameOtherNames cat cat') : cat'.OtherName name ↔ cat.OtherName name := by
  rw [Catalogue.OtherName, Catalogue.OtherName, h.tables, h.indexes, h.relations]

theorem NamesKept.nameInUse_eq (h : NamesKept cat cat') : cat'.nameInUse name = cat.nameInUse name := by
  have hnames : name ∈ cat'.constraints.map UniqueConstraint.name ↔
      name ∈ cat.constraints.map UniqueConstraint.name := by
    rw [List.mem_map, List.mem_map]
    exact exists_congr fun c => and_congr_left fun _ => h.constraints c
  rw [Bool.eq_iff_iff, nameInUse_eq_true_iff, nameInUse_eq_true_iff, hnames, h.other]

theorem NamesKept.trans {cat'' : Catalogue δ} (h : NamesKept cat cat') (h' : NamesKept cat' cat'') :
    NamesKept cat cat'' :=
  ⟨fun c => (h'.constraints c).trans (h.constraints c), fun name => (h'.other name).trans (h.other name)⟩

/-- A change of one table that is of neither its constraints nor its indexes. -/
theorem NamesKept.of_leaves {v : TableView δ} (h : Leaves table v cat cat')
    (htable : v.table.isSome = (cat.tables table).isSome)
    (hconstraints : v.constraints = cat.constraintsOf table) (hindexes : v.indexes = cat.indexesOf table) :
    NamesKept cat cat' := by
  have hview (other : String) : (cat'.tables other).isSome = (cat.tables other).isSome ∧
      cat'.constraintsOf other = cat.constraintsOf other ∧ cat'.indexesOf other = cat.indexesOf other := by
    by_cases hother : other = table
    · subst hother
      exact ⟨(congrArg Option.isSome (tables_of_view h.here)).trans htable,
        (constraintsOf_of_view h.here).trans hconstraints, (congrArg TableView.indexes h.here).trans hindexes⟩
    · have hsame := h.elsewhere other hother
      exact ⟨congrArg Option.isSome (tables_of_view hsame), constraintsOf_of_view hsame,
        congrArg TableView.indexes hsame⟩
  constructor
  case constraints =>
    intro c
    have hmem : c ∈ cat'.constraintsOf c.table ↔ c ∈ cat.constraintsOf c.table := by rw [(hview c.table).2.1]
    simpa [mem_constraintsOf] using hmem
  case other =>
    intro name
    have hmem (i : UniqueIndex) : i ∈ cat'.indexes ↔ i ∈ cat.indexes := by
      have hof : i ∈ cat'.indexesOf i.table ↔ i ∈ cat.indexesOf i.table := by rw [(hview i.table).2.2]
      simpa [Catalogue.indexesOf] using hof
    rw [Catalogue.OtherName, Catalogue.OtherName, (hview name).1, h.relations]
    simp only [hmem]

theorem dropConstraint_names (h : cat.dropConstraint table name = .ok cat') :
    SameOtherNames cat cat' ∧ cat'.constraints = cat.constraints.filter (·.name ≠ name) := by
  obtain ⟨-, -, rfl⟩ := dropConstraint_eq h
  exact ⟨⟨rfl, rfl, rfl⟩, rfl⟩

theorem addUnique_names [DecidableEq δ] {columns : List String} (h : cat.addUnique table name columns = .ok cat') :
    SameOtherNames cat cat' ∧
      cat'.constraints = cat.constraints ++ [{ name := Catalogue.clip name, table, columns }] := by
  obtain ⟨-, -, -, rfl⟩ := addUnique_eq h
  exact ⟨⟨rfl, rfl, rfl⟩, rfl⟩

theorem NamesKept.dropConstraint {cat₁ cat₁' : Catalogue δ} (h : NamesKept cat cat₁)
    (hdrop : cat.dropConstraint table name = .ok cat') (hdrop₁ : cat₁.dropConstraint table name = .ok cat₁') :
    NamesKept cat' cat₁' := by
  obtain ⟨hsame, hconstraints⟩ := dropConstraint_names hdrop
  obtain ⟨hsame₁, hconstraints₁⟩ := dropConstraint_names hdrop₁
  constructor
  · intro c
    rw [hconstraints, hconstraints₁, List.mem_filter, List.mem_filter, h.constraints]
  · intro other
    rw [hsame.otherName_iff, hsame₁.otherName_iff, h.other]

theorem NamesKept.addUnique [DecidableEq δ] {cat₁ cat₁' : Catalogue δ} {columns : List String} (h : NamesKept cat cat₁)
    (hadd : cat.addUnique table name columns = .ok cat') (hadd₁ : cat₁.addUnique table name columns = .ok cat₁') :
    NamesKept cat' cat₁' := by
  obtain ⟨hsame, hconstraints⟩ := addUnique_names hadd
  obtain ⟨hsame₁, hconstraints₁⟩ := addUnique_names hadd₁
  constructor
  · intro c
    rw [hconstraints, hconstraints₁, List.mem_append, List.mem_append, h.constraints]
  · intro other
    rw [hsame.otherName_iff, hsame₁.otherName_iff, h.other]

/-- The name is given up, as nothing else has it. -/
theorem usedNames_dropConstraint (h : cat.dropConstraint table name = .ok cat') (halone : ¬ cat.OtherName name) :
    cat'.usedNames = cat.usedNames \ {name} := by
  obtain ⟨hsame, hconstraints⟩ := dropConstraint_names h
  have hkept (other : String) : other ∈ cat'.constraints.map UniqueConstraint.name ↔
      other ∈ cat.constraints.map UniqueConstraint.name ∧ other ≠ name := by
    rw [hconstraints, List.mem_map, List.mem_map]
    constructor
    · rintro ⟨c, hc, rfl⟩
      obtain ⟨hc, hne⟩ := List.mem_filter.mp hc
      exact ⟨⟨c, hc, rfl⟩, of_decide_eq_true hne⟩
    · rintro ⟨⟨c, hc, rfl⟩, hne⟩
      exact ⟨c, List.mem_filter.mpr ⟨hc, decide_eq_true hne⟩, rfl⟩
  ext other
  simp only [Catalogue.usedNames, Set.mem_ofPred_eq, Set.mem_sdiff, Set.mem_singleton_iff, nameInUse_eq_true_iff,
    hsame.otherName_iff, hkept, or_and_right]
  refine or_congr_right ⟨fun hother => ⟨hother, ?_⟩, And.left⟩
  rintro rfl
  exact halone hother

/-- The name, as it is kept, is taken. -/
theorem usedNames_addUnique [DecidableEq δ] {columns : List String} (h : cat.addUnique table name columns = .ok cat') :
    cat'.usedNames = insert (Catalogue.clip name) cat.usedNames := by
  obtain ⟨hsame, hconstraints⟩ := addUnique_names h
  ext other
  simp only [Catalogue.usedNames, Set.mem_ofPred_eq, Set.mem_insert_iff, nameInUse_eq_true_iff, hsame.otherName_iff,
    hconstraints, List.map_append, List.mem_append, List.map_singleton, List.mem_singleton]
  tauto

end

namespace AdoptTenantApp

section

variable {δ : Type} {env : AdoptionEnv δ} {op : AdoptTenantApp δ} {r : TableRewrite} {rs : List TableRewrite}
  {plan : AdoptionPlan} {plans : List AdoptionPlan} {cat base : Catalogue δ}

/-! ## The tables with their columns -/

theorem find?_of_table (htables : (plans.map AdoptionPlan.table).Nodup) (hplan : plan ∈ plans) :
    plans.find? (·.table = plan.table) = .some plan := by
  cases hfind : plans.find? (·.table = plan.table) with
  | none => simpa using List.find?_eq_none.mp hfind plan hplan
  | some other =>
    have htable : other.table = plan.table := by simpa using List.find?_some hfind
    rw [List.inj_on_of_nodup_map htables (List.mem_of_find?_eq_some hfind) hplan htable]

theorem tables_withTenantColumns (htables : (plans.map AdoptionPlan.table).Nodup) (hplan : plan ∈ plans) :
    (op.withTenantColumns plans cat).tables plan.table =
      (cat.tables plan.table).map (op.withTenantColumn plan.pgType) := by
  rw [withTenantColumns]
  simp only [find?_of_table htables hplan]

/-- Tables are altered, not made. -/
theorem otherName_withTenantColumns {name : String} :
    (op.withTenantColumns plans cat).OtherName name ↔ cat.OtherName name := by
  have hsome : ((op.withTenantColumns plans cat).tables name).isSome = (cat.tables name).isSome := by
    rw [withTenantColumns]
    simp only
    cases plans.find? (·.table = name) with
    | none => rfl
    | some plan => exact Option.isSome_map
  rw [Catalogue.OtherName, Catalogue.OtherName, hsome]
  exact Iff.rfl

theorem nameInUse_withTenantColumns {name : String} :
    (op.withTenantColumns plans cat).nameInUse name = true ↔ cat.nameInUse name = true := by
  rw [nameInUse_eq_true_iff, nameInUse_eq_true_iff, otherName_withTenantColumns]
  exact Iff.rfl

/-! ## The rewrites and their names -/

namespace TableRewrite

def newName (env : AdoptionEnv δ) (r : TableRewrite) : String := compositeConstraintName env r.table r.name r.columns

def script (env : AdoptionEnv δ) (r : TableRewrite) : List (Statement δ) :=
  [.dropConstraint r.table r.name, .addUnique r.table (r.newName env) r.columns]

def swap (env : AdoptionEnv δ) (r : TableRewrite) : Renaming.Swap String := ⟨r.name, r.newName env⟩

theorem length_suffixed : r.suffixed.length = r.name.length + 7 := by
  rw [suffixed, String.length_append]
  rfl

theorem utf8ByteSize_suffixed : r.suffixed.utf8ByteSize = r.name.utf8ByteSize + 7 := by
  rw [suffixed, String.utf8ByteSize_append]
  rfl

theorem newName_of_long (h : r.Long) : r.newName env = r.hashed env := by
  have hlength : ¬ r.suffixed.length ≤ 63 := by
    rw [length_suffixed, not_le]
    exact Nat.add_lt_add_right h 7
  exact if_neg hlength

theorem newName_of_not_long (h : ¬ r.Long) : r.newName env = r.suffixed := by
  have hlength : r.suffixed.length ≤ 63 := by
    rw [length_suffixed]
    exact Nat.add_le_add_right (not_lt.mp h) 7
  exact if_pos hlength

end TableRewrite

/-- The rewrites of one table. -/
def TableRewrite.ofPlan (plan : AdoptionPlan) : List TableRewrite :=
  plan.rewrites.map fun (name, columns) => ⟨plan.table, name, columns⟩

theorem tableRewrites_cons : tableRewrites (plan :: plans) = TableRewrite.ofPlan plan ++ tableRewrites plans := rfl

theorem mem_tableRewrites : r ∈ tableRewrites plans ↔
    ∃ plan ∈ plans, r.table = plan.table ∧ (r.name, r.columns) ∈ plan.rewrites := by
  obtain ⟨table, name, columns⟩ := r
  rw [tableRewrites, List.mem_flatMap]
  refine exists_congr fun plan => and_congr_right fun _ => ?_
  rw [List.mem_map]
  constructor
  · rintro ⟨rewrite, hrewrite, heq⟩
    cases heq
    exact ⟨rfl, hrewrite⟩
  · rintro ⟨rfl, hrewrite⟩
    exact ⟨_, hrewrite, rfl⟩

theorem script_ofPlan (env : AdoptionEnv δ) (plan : AdoptionPlan) :
    (TableRewrite.ofPlan plan).flatMap (TableRewrite.script env) = rewriteScript env plan.table plan.rewrites := by
  rw [TableRewrite.ofPlan, rewriteScript, replaceScript, List.flatMap_map, List.flatMap_map]
  rfl

theorem short_iff : (r.newName env).utf8ByteSize ≤ 63 ↔
    (¬ r.Long → r.name.utf8ByteSize ≤ 56) ∧ (r.Long → (r.hashed env).utf8ByteSize ≤ 63) := by
  by_cases hlong : r.Long
  · simp [TableRewrite.newName_of_long hlong, hlong]
  · simp [TableRewrite.newName_of_not_long hlong, hlong, TableRewrite.utf8ByteSize_suffixed]

theorem suffixed_inj {r' : TableRewrite} : r.suffixed = r'.suffixed ↔ r.name = r'.name := by
  constructor
  · intro h
    have htext : r.name.toList ++ "_tenant".toList = r'.name.toList ++ "_tenant".toList := by
      rw [← String.toList_append, ← String.toList_append]
      exact congrArg String.toList h
    exact String.toList_inj.mp (List.append_cancel_right htext)
  · intro h
    rw [TableRewrite.suffixed, h, TableRewrite.suffixed]

/-- Constraints with different names get different ones, unless one is hashed. -/
theorem newName_ne_iff {r' : TableRewrite} (hname : r.name ≠ r'.name) : r.newName env ≠ r'.newName env ↔
    (r.Long → r'.Long → r.hashed env ≠ r'.hashed env) ∧ (r.Long → ¬ r'.Long → r.hashed env ≠ r'.suffixed) ∧
      (¬ r.Long → r'.Long → r.suffixed ≠ r'.hashed env) := by
  by_cases hlong : r.Long
  · by_cases hlong' : r'.Long
    · simp [TableRewrite.newName_of_long hlong, TableRewrite.newName_of_long hlong', hlong, hlong']
    · simp [TableRewrite.newName_of_long hlong, TableRewrite.newName_of_not_long hlong', hlong, hlong']
  · by_cases hlong' : r'.Long
    · simp [TableRewrite.newName_of_not_long hlong, TableRewrite.newName_of_long hlong', hlong, hlong']
    · simp [TableRewrite.newName_of_not_long hlong, TableRewrite.newName_of_not_long hlong', hlong, hlong',
        suffixed_inj, hname]

theorem nodup_newNames_iff (hnames : (rs.map TableRewrite.name).Nodup) :
    (rs.map (TableRewrite.newName env)).Nodup ↔ rs.Pairwise fun r r' =>
      (r.Long → r'.Long → r.hashed env ≠ r'.hashed env) ∧ (r.Long → ¬ r'.Long → r.hashed env ≠ r'.suffixed) ∧
        (¬ r.Long → r'.Long → r.suffixed ≠ r'.hashed env) := by
  rw [List.Nodup, List.pairwise_map] at hnames ⊢
  constructor
  · intro h
    exact hnames.imp₂ (fun r r' hname hnew => (newName_ne_iff hname).mp hnew) h
  · intro h
    exact hnames.imp₂ (fun r r' hname hapart => (newName_ne_iff hname).mpr hapart) h

/-- The names in turn, as those that are suffixed and those that are hashed. -/
theorem inTurn_iff : Renaming.InTurn (rs.map (TableRewrite.swap env)) (op.withTenantColumns plans cat).usedNames ↔
    ∀ done r rest, rs = done ++ r :: rest →
      (¬ r.Long → cat.nameInUse r.suffixed = true → r.suffixed ∈ (done ++ [r]).map TableRewrite.name) ∧
        (r.Long → cat.nameInUse (r.hashed env) = true → r.hashed env ∈ (done ++ [r]).map TableRewrite.name) := by
  rw [Renaming.inTurn_map]
  refine forall₃_congr fun done r rest => imp_congr_right fun _ => ?_
  have hused : (r.swap env).new ∈ (op.withTenantColumns plans cat).usedNames ↔ cat.nameInUse (r.newName env) = true :=
    nameInUse_withTenantColumns
  have hold : (fun r => (TableRewrite.swap env r).old) = TableRewrite.name := rfl
  have hnew : (r.swap env).new = r.newName env := rfl
  rw [hused, hold, hnew]
  by_cases hlong : r.Long
  · simp [TableRewrite.newName_of_long hlong, hlong]
  · simp [TableRewrite.newName_of_not_long hlong, hlong]

/-! ## What was planned -/

/-- The constraints to be rewritten, each there and named as nothing else is;
and their composites, which the rows satisfy. -/
structure Rewritable (cat : Catalogue δ) (rs : List TableRewrite) : Prop where
  names : (rs.map TableRewrite.name).Nodup
  there : ∀ r ∈ rs, ∃ c ∈ cat.constraintsOf r.table, c.name = r.name ∧ c.fkTargeted = false
  alone : ∀ r ∈ rs, ¬ cat.OtherName r.name
  fits : ∀ r ∈ rs, ∃ t, cat.tables r.table = .some t ∧ (∀ column ∈ r.columns, (t.column? column).isSome = true) ∧
    (Sql.UniqueKey.mk r.columns false).Admits t.rows

theorem Rewritable.mem_usedNames (h : Rewritable cat rs) (hr : r ∈ rs) : r.name ∈ cat.usedNames := by
  obtain ⟨c, hc, hname, -⟩ := h.there r hr
  exact nameInUse_eq_true_iff.mpr (.inl (hname ▸ List.mem_map_of_mem (mem_constraintsOf.mp hc).1))

/-- A rewrite is of a constraint of its table. -/
theorem constraint_of_planned (hplanned : op.Planned env.toServer base plan)
    (hown : env.regclass plan.table = .some plan.table) {rewrite : String × List String}
    (hrewrite : rewrite ∈ plan.rewrites) :
    ∃ c ∈ base.constraintsOf plan.table, rewrite = (c.name, "tenant_id" :: c.columns) ∧ c.fkTargeted = false := by
  rw [hplanned.rewrites] at hrewrite
  obtain ⟨row, hrow, rfl⟩ := List.mem_map.mp hrewrite
  have htargeted := (hplanned.constraints row hrow).2
  rw [uniqueConstraints, hown] at hrow
  obtain ⟨c, hc, rfl⟩ := List.mem_map.mp ((List.mem_insertionSort _).mp hrow)
  exact ⟨c, hc, rfl, htargeted⟩

/-- No constraint is rewritten twice. -/
theorem nodup_names (htables : (plans.map AdoptionPlan.table).Nodup)
    (hplanned : ∀ plan ∈ plans, op.Planned env.toServer base plan)
    (hown : ∀ plan ∈ plans, env.regclass plan.table = .some plan.table ∨ plan.rewrites = []) :
    ((tableRewrites plans).map TableRewrite.name).Nodup := by
  induction plans with
  | nil => exact List.nodup_nil
  | cons plan plans ih =>
    rw [List.map_cons, List.nodup_cons] at htables
    rw [List.forall_mem_cons] at hplanned hown
    have hrest := ih htables.2 hplanned.2 hown.2
    rw [tableRewrites_cons, List.map_append]
    rcases hown.1 with hself | hnil
    · have hhere : (TableRewrite.ofPlan plan).map TableRewrite.name = plan.rewrites.map Prod.fst := by
        rw [TableRewrite.ofPlan, List.map_map]
        rfl
      have hperm := rewrites_perm base hself
      rw [← hplanned.1.rewrites] at hperm
      rw [hhere]
      refine (hperm.nodup_iff.mpr nodup_constraintsOf).append hrest ?_
      -- names are distinct over the whole schema
      rintro name hname hmem
      obtain ⟨rewrite, hrewrite, rfl⟩ := List.mem_map.mp hname
      obtain ⟨c, hc, rfl, -⟩ := constraint_of_planned hplanned.1 hself hrewrite
      obtain ⟨r, hr, hrname⟩ := List.mem_map.mp hmem
      obtain ⟨other, hother, -, hrewrite'⟩ := mem_tableRewrites.mp hr
      rcases hown.2 other hother with hself' | hnil
      · obtain ⟨c', hc', heq, -⟩ := constraint_of_planned (hplanned.2 other hother) hself' hrewrite'
        have htable := constraint_table_unique hc hc' (hrname.symm.trans (congrArg Prod.fst heq))
        exact htables.1 (htable ▸ List.mem_map_of_mem hother)
      · rw [hnil] at hrewrite'
        cases hrewrite'
    · rw [TableRewrite.ofPlan, hnil]
      exact hrest

/-- The table with its column has the columns of the composite, and its rows
satisfy it. -/
theorem composite_fits {t : Table δ} {c : UniqueConstraint} {pgType : String} (hlacks : t.column? "tenant_id" = .none)
    (hcolumns : ∀ column ∈ c.columns, (t.column? column).isSome = true) (hadmits : c.key.Admits t.rows) :
    (∀ column ∈ "tenant_id" :: c.columns, ((op.withTenantColumn pgType t).column? column).isSome = true) ∧
      (Sql.UniqueKey.mk ("tenant_id" :: c.columns) false).Admits (op.withTenantColumn pgType t).rows := by
  have hfound (column : String) : ((op.withTenantColumn pgType t).column? column).isSome = true ↔
      (t.column? column).isSome = true ∨ column = "tenant_id" := by
    have hadded : ([tenantColumn pgType].find? (·.name = column)).isSome = true ↔ column = "tenant_id" := by
      rw [List.find?_isSome, @eq_comm _ column]
      simp [tenantColumn]
    rw [Table.column?, withTenantColumn, List.find?_append, Option.isSome_or, Bool.or_eq_true, hadded]
    exact Iff.rfl
  -- the constraint is of none but the columns there were
  have hother : ∀ column ∈ c.columns, column ≠ "tenant_id" := by
    rintro column hcolumn rfl
    have hsome := hcolumns _ hcolumn
    rw [hlacks] at hsome
    cases hsome
  constructor
  · rw [List.forall_mem_cons]
    exact ⟨(hfound _).mpr (.inr rfl), fun column hcolumn => (hfound column).mpr (.inl (hcolumns column hcolumn))⟩
  · have hstamped : (Sql.UniqueKey.mk c.columns false).Admits (t.rows.map op.stamp) :=
      Sql.UniqueKey.Admits.map hadmits.distinct fun row column hcolumn => stamp_of_ne (hother column hcolumn)
    exact hstamped.cons

/-- With the columns added, what was planned may be rewritten. -/
theorem rewritable_of_planned (hsound : base.Sound) (htables : (plans.map AdoptionPlan.table).Nodup)
    (hplanned : ∀ plan ∈ plans, op.Planned env.toServer base plan)
    (hown : ∀ plan ∈ plans, env.regclass plan.table = .some plan.table ∨ plan.rewrites = []) :
    Rewritable (op.withTenantColumns plans base) (tableRewrites plans) := by
  have hof : ∀ r ∈ tableRewrites plans, ∃ plan ∈ plans, env.regclass plan.table = .some plan.table ∧
      ∃ c ∈ base.constraintsOf plan.table,
        r = ⟨plan.table, c.name, "tenant_id" :: c.columns⟩ ∧ c.fkTargeted = false := by
    rintro ⟨table, name, columns⟩ hr
    obtain ⟨plan, hplan, rfl, hrewrite⟩ := mem_tableRewrites.mp hr
    rcases hown plan hplan with hself | hnil
    · obtain ⟨c, hc, heq, htargeted⟩ := constraint_of_planned (hplanned plan hplan) hself hrewrite
      obtain ⟨rfl, rfl⟩ := Prod.mk.inj heq
      exact ⟨plan, hplan, hself, c, hc, rfl, htargeted⟩
    · rw [hnil] at hrewrite
      cases hrewrite
  constructor
  case names => exact nodup_names htables hplanned hown
  case there =>
    intro r hr
    obtain ⟨plan, -, -, c, hc, rfl, htargeted⟩ := hof r hr
    exact ⟨c, hc, rfl, htargeted⟩
  case alone =>
    intro r hr
    obtain ⟨plan, -, -, c, hc, rfl, -⟩ := hof r hr
    rw [otherName_withTenantColumns]
    exact hsound.names c (mem_constraintsOf.mp hc).1
  case fits =>
    intro r hr
    obtain ⟨plan, hplan, hself, c, hc, rfl, -⟩ := hof r hr
    obtain ⟨hmem, htable⟩ := mem_constraintsOf.mp hc
    obtain ⟨t, ht, hcolumns, hadmits⟩ := hsound.constraints c hmem
    rw [htable] at ht
    have hlacks : t.column? "tenant_id" = .none := by
      have hcolumn := (hplanned plan hplan).column
      rw [columnType, regclassTable, hself, Option.bind_some, ht, Option.bind_some] at hcolumn
      exact Option.map_eq_none_iff.mp hcolumn
    refine ⟨op.withTenantColumn plan.pgType t, ?_, composite_fits hlacks hcolumns hadmits⟩
    rw [tables_withTenantColumns htables hplan, ht, Option.map_some]

end

section

variable {δ : Type} [DecidableEq δ] {env : AdoptionEnv δ} {op : AdoptTenantApp δ} {r : TableRewrite}
  {rs : List TableRewrite} {plan : AdoptionPlan} {plans : List AdoptionPlan} {m m' : Migration δ}
  {server : Server δ} {cat cat₁ cat₂ base : Catalogue δ} {new : String}

/-! ## The statements executed -/

theorem applyUniqueRewrites_ok_iff {table : String} {rewrites : List (String × List String)}
    (hlive : env.editor = .live) :
    applyUniqueRewrites env table rewrites m = .ok () m' ↔
      Executed env.toServer m (rewriteScript env table rewrites) m' := by
  induction rewrites generalizing m with
  | nil =>
    rw [rewriteScript, List.map_nil, replaceScript, List.flatMap_nil, executed_nil_iff]
    constructor
    · intro h
      cases h
      rfl
    · rintro rfl
      rfl
  | cons rewrite rewrites ih =>
    exact schemaExecute_bind_ok_iff hlive fun m₁ _ => schemaExecute_bind_ok_iff hlive fun m₂ _ => ih

theorem applyAllRewrites_ok_iff (hlive : env.editor = .live) :
    applyAllRewrites env plans m = .ok () m' ↔
      Executed env.toServer m ((tableRewrites plans).flatMap (TableRewrite.script env)) m' := by
  induction plans generalizing m with
  | nil =>
    rw [tableRewrites, List.flatMap_nil, List.flatMap_nil, executed_nil_iff]
    constructor
    · intro h
      cases h
      rfl
    · rintro rfl
      rfl
  | cons plan plans ih =>
    rw [tableRewrites_cons, List.flatMap_append, script_ofPlan, executed_append_iff]
    constructor
    · intro h
      obtain ⟨u, m₁, hplan, hplans⟩ := bind_ok_iff.mp h
      exact ⟨m₁, (applyUniqueRewrites_ok_iff hlive).mp hplan, ih.mp hplans⟩
    · rintro ⟨m₁, hplan, hplans⟩
      exact bind_ok_iff.mpr ⟨(), m₁, (applyUniqueRewrites_ok_iff hlive).mpr hplan, ih.mpr hplans⟩

theorem execAll_of_clearRun {ss : List (Statement δ)} (h : ClearRun server ss cat) :
    ∃ cat', execAll server ss cat = .ok cat' := by
  induction ss generalizing cat with
  | nil => exact ⟨cat, rfl⟩
  | cons s ss ih =>
    obtain ⟨-, cat₁, n, hs, hss⟩ := h
    obtain ⟨cat', hexec⟩ := ih hss
    exact ⟨cat', execAll_cons_ok_iff.mpr ⟨cat₁, n, hs, hexec⟩⟩

/-- Of a live run it is enough to look at the statements. -/
theorem completes_iff_clearRun (hlive : env.editor = .live) :
    (∃ m' ss, applyAllRewrites env plans m = .ok () m' ∧ m'.executed = m.executed ++ ss ∧
        ClearRun env.toServer ss m.catalogue) ↔
      ClearRun env.toServer ((tableRewrites plans).flatMap (TableRewrite.script env)) m.catalogue := by
  constructor
  · rintro ⟨m', ss, happly, hexecuted, hclear⟩
    have hscript := ((applyAllRewrites_ok_iff hlive).mp happly).executed
    rw [hexecuted] at hscript
    rwa [List.append_cancel_left hscript] at hclear
  · intro hclear
    obtain ⟨cat', hexec⟩ := execAll_of_clearRun hclear
    refine ⟨⟨cat', m.executed ++ (tableRewrites plans).flatMap (TableRewrite.script env), m.collected⟩, _, ?_, rfl,
      hclear⟩
    exact (applyAllRewrites_ok_iff hlive).mpr ⟨hexec, rfl, rfl⟩

theorem clearRun_append_iff {ss ss' : List (Statement δ)} : ClearRun server (ss ++ ss') cat ↔
    ClearRun server ss cat ∧ ∃ cat', execAll server ss cat = .ok cat' ∧ ClearRun server ss' cat' := by
  induction ss generalizing cat with
  | nil => simp [ClearRun, execAll]
  | cons s ss ih =>
    rw [List.cons_append, ClearRun, ClearRun, and_assoc]
    refine and_congr_right fun _ => ?_
    constructor
    · rintro ⟨cat₁, n, hs, hrest⟩
      obtain ⟨hclear, cat', hexec, hclear'⟩ := ih.mp hrest
      exact ⟨⟨cat₁, n, hs, hclear⟩, cat', execAll_cons_ok_iff.mpr ⟨cat₁, n, hs, hexec⟩, hclear'⟩
    · rintro ⟨⟨cat₁, n, hs, hclear⟩, cat', hexec, hclear'⟩
      obtain ⟨cat₁', n', hs', hexec⟩ := execAll_cons_ok_iff.mp hexec
      cases hs.symm.trans hs'
      exact ⟨cat₁, n, hs, ih.mpr ⟨hclear, cat', hexec, hclear'⟩⟩

/-- A run that drops what was planned drops it from the table it was read of. -/
theorem own_of_execAll {cat' : Catalogue δ}
    (hexec : execAll env.toServer ((tableRewrites plans).flatMap (TableRewrite.script env)) cat = .ok cat')
    (htables : (plans.map AdoptionPlan.table).Nodup)
    (hplanned : ∀ plan ∈ plans, op.Planned env.toServer base plan)
    (hsame : ∀ plan ∈ plans, cat.constraintsOf plan.table = base.constraintsOf plan.table) :
    ∀ plan ∈ plans, env.regclass plan.table = .some plan.table ∨ plan.rewrites = [] := by
  induction plans generalizing cat with
  | nil => simp
  | cons plan plans ih =>
    rw [tableRewrites_cons, List.flatMap_append, script_ofPlan] at hexec
    obtain ⟨cat₁, hplan, hplans⟩ := execAll_append_ok_iff.mp hexec
    rw [List.map_cons, List.nodup_cons] at htables
    rw [List.forall_mem_cons] at hsame hplanned
    have hown : env.regclass plan.table = .some plan.table ∨ plan.rewrites = [] := by
      by_cases hself : env.regclass plan.table = .some plan.table
      · exact .inl hself
      · refine .inr (List.map_eq_nil_iff.mp (replacements_eq_nil hplan fun name hname => ?_))
        rw [List.map_map, hplanned.1.rewrites] at hname
        rw [hsame.1]
        exact rewrites_not_mem hself name hname
    refine List.forall_mem_cons.mpr ⟨hown, ih hplans htables.2 hplanned.2 fun other hother => ?_⟩
    have hne : other.table ≠ plan.table := fun heq => htables.1 (heq ▸ List.mem_map_of_mem hother)
    have hview := execAll_elsewhere hplan (fun s hs => by
      obtain ⟨r, -, rfl | rfl⟩ := mem_replaceScript hs <;> rfl) hne
    exact (congrArg TableView.constraints hview).trans (hsame.2 other hother)

/-! ## One rewrite after another -/

/-- What is left to be rewritten stays so. -/
theorem Rewritable.step (h : Rewritable cat (r :: rs)) (hdrop : cat.dropConstraint r.table r.name = .ok cat₁)
    (hadd : cat₁.addUnique r.table new r.columns = .ok cat₂) : Rewritable cat₂ rs := by
  obtain ⟨hsame₁, hconstraints₁⟩ := dropConstraint_names hdrop
  obtain ⟨hsame₂, hconstraints₂⟩ := addUnique_names hadd
  have hsame := hsame₁.trans hsame₂
  have hnames := h.names
  rw [List.map_cons, List.nodup_cons] at hnames
  constructor
  case names => exact hnames.2
  case there =>
    intro r' hr'
    obtain ⟨c, hc, hname, htargeted⟩ := h.there r' (List.mem_cons_of_mem _ hr')
    obtain ⟨hmem, htable⟩ := mem_constraintsOf.mp hc
    refine ⟨c, mem_constraintsOf.mpr ⟨?_, htable⟩, hname, htargeted⟩
    have hne : c.name ≠ r.name := fun heq => hnames.1 (heq ▸ hname ▸ List.mem_map_of_mem hr')
    rw [hconstraints₂, hconstraints₁]
    exact List.mem_append_left _ (List.mem_filter.mpr ⟨hmem, decide_eq_true hne⟩)
  case alone =>
    intro r' hr'
    rw [hsame.otherName_iff]
    exact h.alone r' (List.mem_cons_of_mem _ hr')
  case fits =>
    intro r' hr'
    rw [hsame.tables]
    exact h.fits r' (List.mem_cons_of_mem _ hr')

/-- A rewrite and what follows it. -/
theorem clearRun_script_iff {ss : List (Statement δ)} :
    ClearRun server (r.script env ++ ss) cat ↔ ∃ cat₁ cat₂, cat.dropConstraint r.table r.name = .ok cat₁ ∧
      (r.newName env).utf8ByteSize ≤ 63 ∧ cat₁.nameInUse (r.newName env) = false ∧
      cat₁.addUnique r.table (r.newName env) r.columns = .ok cat₂ ∧ ClearRun server ss cat₂ := by
  constructor
  · rintro ⟨-, cat₁, n₁, hdrop, ⟨hshort, hfree⟩, cat₂, n₂, hadd, hrest⟩
    exact ⟨cat₁, cat₂, (map_pair_ok_iff.mp hdrop).1, hshort, hfree, (map_pair_ok_iff.mp hadd).1, hrest⟩
  · rintro ⟨cat₁, cat₂, hdrop, hshort, hfree, hadd, hrest⟩
    exact ⟨trivial, cat₁, 0, map_pair_ok_iff.mpr ⟨hdrop, rfl⟩, ⟨hshort, hfree⟩, cat₂, 0,
      map_pair_ok_iff.mpr ⟨hadd, rfl⟩, hrest⟩

theorem execAll_script_iff {ss : List (Statement δ)} {cat' : Catalogue δ} :
    execAll server (r.script env ++ ss) cat = .ok cat' ↔ ∃ cat₁ cat₂, cat.dropConstraint r.table r.name = .ok cat₁ ∧
      cat₁.addUnique r.table (r.newName env) r.columns = .ok cat₂ ∧ execAll server ss cat₂ = .ok cat' := by
  constructor
  · intro hexec
    obtain ⟨cat₁, _, hdrop, hexec⟩ := execAll_cons_ok_iff.mp hexec
    obtain ⟨cat₂, _, hadd, hexec⟩ := execAll_cons_ok_iff.mp hexec
    exact ⟨cat₁, cat₂, (map_pair_ok_iff.mp hdrop).1, (map_pair_ok_iff.mp hadd).1, hexec⟩
  · rintro ⟨cat₁, cat₂, hdrop, hadd, hexec⟩
    exact execAll_cons_ok_iff.mpr ⟨cat₁, 0, map_pair_ok_iff.mpr ⟨hdrop, rfl⟩,
      execAll_cons_ok_iff.mpr ⟨cat₂, 0, map_pair_ok_iff.mpr ⟨hadd, rfl⟩, hexec⟩⟩

/-- The rewrites run clear when their names are short and are replaced without
collision. -/
theorem clearRun_iff (h : Rewritable cat rs) : ClearRun server (rs.flatMap (TableRewrite.script env)) cat ↔
    (∀ r ∈ rs, (r.newName env).utf8ByteSize ≤ 63) ∧ Renaming.Clear (rs.map (TableRewrite.swap env)) cat.usedNames := by
  induction rs generalizing cat with
  | nil => simp [ClearRun, Renaming.Clear]
  | cons r rs ih =>
    have hr : r ∈ r :: rs := List.mem_cons_self ..
    rw [List.flatMap_cons, clearRun_script_iff, List.forall_mem_cons, List.map_cons, Renaming.Clear]
    constructor
    · rintro ⟨cat₁, cat₂, hdrop, hshort, hfree, hadd, hrest⟩
      have hused₁ := usedNames_dropConstraint hdrop (h.alone r hr)
      have hused₂ := usedNames_addUnique hadd
      rw [clip_of_short hshort, hused₁] at hused₂
      obtain ⟨hshorts, hclear⟩ := (ih (h.step hdrop hadd)).mp hrest
      rw [nameInUse_eq_false_iff, hused₁] at hfree
      rw [hused₂] at hclear
      exact ⟨⟨hshort, hshorts⟩, h.mem_usedNames hr, hfree, hclear⟩
    · rintro ⟨⟨hshort, hshorts⟩, -, hfree, hclear⟩
      obtain ⟨c, hc, hname, htargeted⟩ := h.there r hr
      obtain ⟨cat₁, hdrop⟩ := dropConstraint_succeeds hc htargeted
      rw [hname] at hdrop
      have hused₁ := usedNames_dropConstraint hdrop (h.alone r hr)
      have hfree₁ : cat₁.nameInUse (r.newName env) = false := by
        rw [nameInUse_eq_false_iff, hused₁]
        exact hfree
      obtain ⟨t, ht, hcolumns, hadmits⟩ := h.fits r hr
      obtain ⟨cat₂, hadd⟩ := addUnique_succeeds ((congrFun (dropConstraint_names hdrop).1.tables _).trans ht)
        (by rw [clip_of_short hshort]; exact hfree₁) hcolumns hadmits
      have hused₂ := usedNames_addUnique hadd
      rw [clip_of_short hshort, hused₁] at hused₂
      refine ⟨cat₁, cat₂, hdrop, hshort, hfree₁, hadd, (ih (h.step hdrop hadd)).mpr ⟨hshorts, ?_⟩⟩
      rw [hused₂]
      exact hclear

/-! ## The second pass -/

theorem tables_of_rewrite {cat₁ cat₂ : Catalogue δ} (hdrop : cat.dropConstraint r.table r.name = .ok cat₁)
    (hadd : cat₁.addUnique r.table (r.newName env) r.columns = .ok cat₂) : cat₂.tables = cat.tables :=
  (addUnique_names hadd).1.tables.trans (dropConstraint_names hdrop).1.tables

theorem tables_of_rewrites {cat' : Catalogue δ}
    (hexec : execAll server (rs.flatMap (TableRewrite.script env)) cat = .ok cat') :
    cat'.tables = cat.tables := by
  induction rs generalizing cat with
  | nil =>
    cases hexec
    rfl
  | cons r rs ih =>
    rw [List.flatMap_cons, execAll_script_iff] at hexec
    obtain ⟨catDropped, catAdded, hdrop, hadd, hexec⟩ := hexec
    exact (ih hexec).trans (tables_of_rewrite hdrop hadd)

/-- A rewrite is done as well where the same is named and the table is the same. -/
theorem namesKept_rewrite {catDropped catAdded : Catalogue δ} (h : NamesKept cat cat₁)
    (htable : cat₁.tables r.table = cat.tables r.table) (hdrop : cat.dropConstraint r.table r.name = .ok catDropped)
    (hadd : catDropped.addUnique r.table (r.newName env) r.columns = .ok catAdded) :
    ∃ catDropped₁ catAdded₁, cat₁.dropConstraint r.table r.name = .ok catDropped₁ ∧
      catDropped₁.nameInUse (r.newName env) = catDropped.nameInUse (r.newName env) ∧
      catDropped₁.addUnique r.table (r.newName env) r.columns = .ok catAdded₁ ∧ NamesKept catAdded catAdded₁ := by
  obtain ⟨⟨c, hc, hname, htargeted⟩, -⟩ := dropConstraint_eq hdrop
  have hc₁ : c ∈ cat₁.constraintsOf r.table :=
    mem_constraintsOf.mpr ⟨(h.constraints c).mpr (mem_constraintsOf.mp hc).1, (mem_constraintsOf.mp hc).2⟩
  obtain ⟨catDropped₁, hdrop₁⟩ := dropConstraint_succeeds hc₁ htargeted
  rw [hname] at hdrop₁
  have hdropped := h.dropConstraint hdrop hdrop₁
  obtain ⟨hfree, ⟨t, ht, hcolumns, hadmits⟩, -⟩ := addUnique_eq hadd
  have ht₁ : catDropped₁.tables r.table = .some t := by
    rw [(dropConstraint_names hdrop₁).1.tables, htable, ← (dropConstraint_names hdrop).1.tables, ht]
  obtain ⟨catAdded₁, hadd₁⟩ := addUnique_succeeds ht₁ (by rw [hdropped.nameInUse_eq]; exact hfree) hcolumns hadmits
  exact ⟨catDropped₁, catAdded₁, hdrop₁, hdropped.nameInUse_eq, hadd₁, hdropped.addUnique hadd hadd₁⟩

/-- The rewrites run as clear where the same is named and the tables are the
same, and leave the same named. -/
theorem clearRun_congr (h : NamesKept cat cat₁) (htables : ∀ r ∈ rs, cat₁.tables r.table = cat.tables r.table)
    (hclear : ClearRun server (rs.flatMap (TableRewrite.script env)) cat) :
    ClearRun server (rs.flatMap (TableRewrite.script env)) cat₁ ∧
      ∃ cat' cat₁', execAll server (rs.flatMap (TableRewrite.script env)) cat = .ok cat' ∧
        execAll server (rs.flatMap (TableRewrite.script env)) cat₁ = .ok cat₁' ∧ NamesKept cat' cat₁' := by
  induction rs generalizing cat cat₁ with
  | nil => exact ⟨trivial, cat, cat₁, rfl, rfl, h⟩
  | cons r rs ih =>
    rw [List.forall_mem_cons] at htables
    rw [List.flatMap_cons, clearRun_script_iff] at hclear
    obtain ⟨catDropped, catAdded, hdrop, hshort, hfree, hadd, hrest⟩ := hclear
    obtain ⟨catDropped₁, catAdded₁, hdrop₁, hsame, hadd₁, hadded⟩ := namesKept_rewrite h htables.1 hdrop hadd
    have htables' : ∀ r' ∈ rs, catAdded₁.tables r'.table = catAdded.tables r'.table := by
      intro r' hr'
      rw [tables_of_rewrite hdrop₁ hadd₁, tables_of_rewrite hdrop hadd, htables.2 r' hr']
    obtain ⟨hclear₁, cat', cat₁', hexec, hexec₁, hkept⟩ := ih hadded htables' hrest
    rw [List.flatMap_cons, clearRun_script_iff]
    refine ⟨⟨catDropped₁, catAdded₁, hdrop₁, hshort, hsame.trans hfree, hadd₁, hclear₁⟩, cat', cat₁', ?_, ?_, hkept⟩
    · exact execAll_script_iff.mpr ⟨catDropped, catAdded, hdrop, hadd, hexec⟩
    · exact execAll_script_iff.mpr ⟨catDropped₁, catAdded₁, hdrop₁, hadd₁, hexec₁⟩

/-- A table's column brings no name, and makes the table one whose constraints
may be rewritten. -/
theorem namesKept_addColumnScript {cat' : Catalogue δ} (hplanned : op.Planned server base plan)
    (hbase : cat.tables plan.table = base.tables plan.table)
    (hexec : execAll server (op.addColumnScript plan) cat = .ok cat') :
    NamesKept cat cat' ∧ cat'.tables plan.table = (base.tables plan.table).map (op.withTenantColumn plan.pgType) := by
  have hcount : rowCount cat plan.table = .ok plan.existingRows := by
    rw [← hplanned.rows, rowCount, rowCount, hbase]
  obtain ⟨t, ht, -, hleaves⟩ := leaves_addColumnScript hexec hcount hplanned.backfill
  refine ⟨.of_leaves hleaves (by rw [ht]; rfl) rfl rfl, ?_⟩
  rw [tables_of_view hleaves.here, ← hbase, ht, Option.map_some]

theorem namesKept_securityScript {table : String} (hexec : execAll server (securityScript env table) cat = .ok cat₁) :
    NamesKept cat cat₁ := by
  obtain ⟨t, ht, hleaves⟩ := leaves_securityScript hexec
  exact .of_leaves hleaves (by rw [ht]; rfl) rfl rfl

/-- A table's own rewrites, once it has its column. -/
theorem clearRun_ofPlan {cat' cat₁' : Catalogue δ} (hplanned : op.Planned env.toServer base plan)
    (h : NamesKept cat cat₁)
    (hcolumn : cat.tables plan.table = (base.tables plan.table).map (op.withTenantColumn plan.pgType))
    (hbase : cat₁.tables plan.table = base.tables plan.table)
    (hclear : ClearRun env.toServer ((TableRewrite.ofPlan plan).flatMap (TableRewrite.script env)) cat)
    (hexec : execAll env.toServer ((TableRewrite.ofPlan plan).flatMap (TableRewrite.script env)) cat = .ok cat')
    (hadd : execAll env.toServer (op.addColumnScript plan) cat₁ = .ok cat₁') :
    ClearRun env.toServer (rewriteScript env plan.table plan.rewrites) cat₁' ∧
      ∃ cat₁'', execAll env.toServer (rewriteScript env plan.table plan.rewrites) cat₁' = .ok cat₁'' ∧
        NamesKept cat' cat₁'' := by
  obtain ⟨hkept, htable⟩ := namesKept_addColumnScript hplanned hbase hadd
  have hsame : ∀ r ∈ TableRewrite.ofPlan plan, cat₁'.tables r.table = cat.tables r.table := by
    intro r hr
    obtain ⟨rewrite, -, rfl⟩ := List.mem_map.mp hr
    exact htable.trans hcolumn.symm
  obtain ⟨hclear₁, cat'', cat₁'', hexec', hexec₁, hkept₁⟩ := clearRun_congr (h.trans hkept) hsame hclear
  cases hexec.symm.trans hexec'
  rw [script_ofPlan] at hclear₁ hexec₁
  exact ⟨hclear₁, cat₁'', hexec₁, hkept₁⟩

/-- Where the rewrites taken together run clear, those of each table do, when the
second pass comes to them. -/
theorem inPass_of_clearRun (htables : (plans.map AdoptionPlan.table).Nodup)
    (hplanned : ∀ plan ∈ plans, op.Planned env.toServer base plan) (h : NamesKept cat cat₁)
    (hcolumns : ∀ plan ∈ plans, cat.tables plan.table = (base.tables plan.table).map (op.withTenantColumn plan.pgType))
    (hbase : ∀ plan ∈ plans, cat₁.tables plan.table = base.tables plan.table)
    (hclear : ClearRun env.toServer ((tableRewrites plans).flatMap (TableRewrite.script env)) cat) :
    ∀ done plan rest, plans = done ++ plan :: rest →
      ∀ cat', execAll env.toServer (done.flatMap (op.adoptScript env) ++ op.addColumnScript plan) cat₁ = .ok cat' →
        ClearRun env.toServer (rewriteScript env plan.table plan.rewrites) cat' := by
  induction plans generalizing cat cat₁ with
  | nil =>
    intro done plan rest hsplit
    simp at hsplit
  | cons first plans ih =>
    rw [tableRewrites_cons, List.flatMap_append, clearRun_append_iff] at hclear
    obtain ⟨hhere, cat₂, hexec, hrest⟩ := hclear
    rw [List.map_cons, List.nodup_cons] at htables
    rw [List.forall_mem_cons] at hplanned hcolumns hbase
    intro done plan rest hsplit cat' hpass
    cases done with
    | nil =>
      obtain ⟨rfl, -⟩ := List.cons.inj hsplit
      exact (clearRun_ofPlan hplanned.1 h hcolumns.1 hbase.1 hhere hexec hpass).1
    | cons first' done =>
      obtain ⟨rfl, hsplit'⟩ := List.cons.inj hsplit
      rw [List.flatMap_cons, List.append_assoc] at hpass
      obtain ⟨cat₃, hfirst, hpass⟩ := execAll_append_ok_iff.mp hpass
      have helse : ∀ other ∈ plans, cat₃.tables other.table = cat₁.tables other.table := fun other hother =>
        tables_of_view (execAll_elsewhere hfirst adoptScript_table fun heq =>
          htables.1 (heq ▸ List.mem_map_of_mem hother))
      unfold adoptScript at hfirst
      obtain ⟨catRewritten, hfirst, hsecurity⟩ := execAll_append_ok_iff.mp hfirst
      obtain ⟨catColumn, hadd, hrewrites⟩ := execAll_append_ok_iff.mp hfirst
      obtain ⟨-, cat'', hexec'', hkept⟩ := clearRun_ofPlan hplanned.1 h hcolumns.1 hbase.1 hhere hexec hadd
      cases hrewrites.symm.trans hexec''
      refine ih htables.2 hplanned.2 (hkept.trans (namesKept_securityScript hsecurity)) (fun other hother => ?_)
        (fun other hother => (helse other hother).trans (hbase.2 other hother)) hrest done plan rest hsplit' cat' hpass
      rw [tables_of_rewrites hexec]
      exact hcolumns.2 other hother

end

namespace TwoConstraints

/-- A catalogue of one table, with a constraint besides its `sku_key`. -/
def shop (name : String) (hname : "sku_key" ≠ name) : Catalogue Nat where
  tables table := if table = "shop_widget" then
    .some { columns := [⟨"sku", "text", false, .none⟩, ⟨"slug", "text", false, .none⟩] } else .none
  constraints := [{ name := "sku_key", table := "shop_widget", columns := ["sku"] },
    { name, table := "shop_widget", columns := ["slug"] }]
  names := by simp [hname]

/-- What is planned for it. -/
def plans (name : String) : List AdoptionPlan :=
  [⟨"shop_widget", "shop.Widget", "bigint", 0, [("sku_key", ["tenant_id", "sku"]), (name, ["tenant_id", "slug"])]⟩]

theorem shop_sound {name : String} (hname : "sku_key" ≠ name) (htable : name ≠ "shop_widget") :
    (shop name hname).Sound := by
  constructor
  case constraints =>
    have htables : (shop name hname).tables "shop_widget" =
        .some { columns := [⟨"sku", "text", false, .none⟩, ⟨"slug", "text", false, .none⟩] } := rfl
    intro c hc
    simp only [shop, List.mem_cons, List.not_mem_nil, or_false] at hc
    rcases hc with rfl | rfl
    · exact ⟨_, htables, by decide, List.Pairwise.nil⟩
    · exact ⟨_, htables, by simp [Table.column?], List.Pairwise.nil⟩
  case names =>
    intro c hc
    simp only [shop, List.mem_cons, List.not_mem_nil, or_false] at hc
    rcases hc with rfl | rfl
    · simp [Catalogue.OtherName, shop]
    · simp [Catalogue.OtherName, shop, htable]

end TwoConstraints

end AdoptTenantApp

end Boundary
