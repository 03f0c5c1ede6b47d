/-
The statements a live adoption executes, as a list, and what executing the list
leaves of each table.
-/
import Boundary.Adoption
import Boundary.CatalogueFacts

namespace Boundary

open Exec

/-! ## Lists of statements -/

section

variable {δ : Type} [DecidableEq δ]

/-- Execute the statements in order. -/
def execAll (server : Server δ) : List (Statement δ) → Catalogue δ → Except Exc (Catalogue δ)
  | [], cat => .ok cat
  | s :: ss, cat =>
    match s.exec server cat with
    | .ok (cat', _) => execAll server ss cat'
    | .error e => .error e

variable {server : Server δ} {cat cat' : Catalogue δ} {s : Statement δ} {ss ss' : List (Statement δ)} {n : Nat}

theorem execAll_cons_ok_iff :
    execAll server (s :: ss) cat = .ok cat' ↔
      ∃ cat₁ n, s.exec server cat = .ok (cat₁, n) ∧ execAll server ss cat₁ = .ok cat' := by
  have hcons : execAll server (s :: ss) cat = match s.exec server cat with
    | .ok (cat', _) => execAll server ss cat'
    | .error e => .error e := rfl
  rw [hcons]
  cases s.exec server cat with
  | error e => simp
  | ok r =>
    obtain ⟨cat₁, n⟩ := r
    simp

theorem execAll_append_ok_iff :
    execAll server (ss ++ ss') cat = .ok cat' ↔
      ∃ cat₁, execAll server ss cat = .ok cat₁ ∧ execAll server ss' cat₁ = .ok cat' := by
  induction ss generalizing cat with
  | nil => simp [execAll]
  | cons s ss ih =>
    rw [List.cons_append, execAll_cons_ok_iff]
    constructor
    · rintro ⟨cat₁, n, hs, hss⟩
      obtain ⟨cat₂, hss, hss'⟩ := ih.mp hss
      exact ⟨cat₂, execAll_cons_ok_iff.mpr ⟨cat₁, n, hs, hss⟩, hss'⟩
    · rintro ⟨cat₂, hss, hss'⟩
      obtain ⟨cat₁, n, hs, hss⟩ := execAll_cons_ok_iff.mp hss
      exact ⟨cat₁, n, hs, ih.mpr ⟨cat₂, hss, hss'⟩⟩

/-- From `m` the statements were executed, and nothing else. -/
structure Executed (server : Server δ) (m : Migration δ) (ss : List (Statement δ)) (m' : Migration δ) : Prop where
  catalogue : execAll server ss m.catalogue = .ok m'.catalogue
  executed : m'.executed = m.executed ++ ss
  collected : m'.collected = m.collected

variable {m m' m'' : Migration δ}

/-- The list is executed in two parts. -/
theorem executed_append_iff :
    Executed server m (ss ++ ss') m'' ↔ ∃ m', Executed server m ss m' ∧ Executed server m' ss' m'' := by
  constructor
  · rintro ⟨hcatalogue, hexecuted, hcollected⟩
    obtain ⟨cat₁, hss, hss'⟩ := execAll_append_ok_iff.mp hcatalogue
    exact ⟨⟨cat₁, m.executed ++ ss, m.collected⟩, ⟨hss, rfl, rfl⟩, hss', by rw [hexecuted, List.append_assoc], hcollected⟩
  · rintro ⟨m', h, h'⟩
    exact ⟨execAll_append_ok_iff.mpr ⟨m'.catalogue, h.catalogue, h'.catalogue⟩,
      by rw [h'.executed, h.executed, List.append_assoc], h'.collected.trans h.collected⟩

theorem Executed.nil (server : Server δ) (m : Migration δ) : Executed server m [] m :=
  ⟨rfl, (List.append_nil _).symm, rfl⟩

theorem Executed.append (h : Executed server m ss m') (h' : Executed server m' ss' m'') :
    Executed server m (ss ++ ss') m'' :=
  executed_append_iff.mpr ⟨m', h, h'⟩

variable {env : AdoptionEnv δ}

theorem cursorExecute_ok (h : cursorExecute env s m = .ok n m') :
    s.exec env.toServer m.catalogue = .ok (m'.catalogue, n) ∧ Executed env.toServer m [s] m' := by
  unfold cursorExecute at h
  split at h
  next cat' affected hexec =>
    cases h
    refine ⟨hexec, ?_, rfl, rfl⟩
    exact execAll_cons_ok_iff.mpr ⟨cat', n, hexec, rfl⟩
  · cases h

theorem cursorExecute_error {e : AdoptionError} (h : cursorExecute env s m = .error e m') :
    ∃ e', e = .raised e' := by
  unfold cursorExecute at h
  split at h
  · cases h
  · cases h
    exact ⟨_, rfl⟩

theorem schemaExecute_ok {u : Unit} (hlive : env.editor = .live) (h : schemaExecute env s m = .ok u m') :
    Executed env.toServer m [s] m' := by
  unfold schemaExecute at h
  rw [hlive] at h
  obtain ⟨n, m₁, hcursor, hpure⟩ := bind_ok_iff.mp h
  cases hpure
  exact (cursorExecute_ok hcursor).2

theorem schemaExecute_of_executed (hlive : env.editor = .live) (h : Executed env.toServer m [s] m') :
    schemaExecute env s m = .ok () m' := by
  obtain ⟨cat₁, n, hexec, hrest⟩ := execAll_cons_ok_iff.mp h.catalogue
  have hm' : m' = { m with catalogue := cat₁, executed := m.executed ++ [s] } := by
    obtain ⟨catalogue, executed, collected⟩ := m'
    cases hrest
    cases h.executed
    cases h.collected
    rfl
  unfold schemaExecute
  rw [hlive, hm']
  simp only [bind_run, cursorExecute, hexec]
  rfl

end

section

variable {δ α : Type} {read : Catalogue δ → Except AdoptionError α} {m m' : Migration δ}

theorem reading_ok_iff {a : α} :
    reading read m = .ok a m' ↔ read m.catalogue = .ok a ∧ m' = m := by
  unfold reading
  cases read m.catalogue with
  | error e => simp
  | ok b => simp [eq_comm]

theorem reading_error_iff {e : AdoptionError} :
    reading read m = .error e m' ↔ read m.catalogue = .error e ∧ m' = m := by
  unfold reading
  cases read m.catalogue with
  | error e => simp [eq_comm]
  | ok b => simp

end

/-! ## Replacing unique constraints -/

/-- A unique constraint to drop, and one to add for it. -/
structure Replacement where
  dropped : String
  added : String
  columns : List String

/-- The constraint that comes. -/
def Replacement.constraint (table : String) (r : Replacement) : UniqueConstraint where
  name := Catalogue.clip r.added
  table := table
  columns := r.columns

def replaceScript {δ : Type} (table : String) (rs : List Replacement) : List (Statement δ) :=
  rs.flatMap fun r => [.dropConstraint table r.dropped, .addUnique table r.added r.columns]

section

variable {δ : Type} {table : String} {r : Replacement} {rs : List Replacement}

theorem replaceScript_cons :
    (replaceScript table (r :: rs) : List (Statement δ)) =
      .dropConstraint table r.dropped :: .addUnique table r.added r.columns :: replaceScript table rs := rfl

theorem mem_replaceScript {s : Statement δ} (hs : s ∈ replaceScript table rs) :
    ∃ r ∈ rs, s = .dropConstraint table r.dropped ∨ s = .addUnique table r.added r.columns := by
  obtain ⟨r, hr, hs⟩ := List.mem_flatMap.mp hs
  exact ⟨r, hr, by simpa using hs⟩

variable [DecidableEq δ] {server : Server δ} {cat cat' : Catalogue δ}

/-- The dropped go and the added come, when every one to be dropped is there. -/
theorem leaves_replaceScript (hexec : execAll server (replaceScript table rs) cat = .ok cat')
    (hnodup : (rs.map Replacement.dropped).Nodup)
    (hnames : ∀ name ∈ rs.map Replacement.dropped, name ∈ (cat.constraintsOf table).map UniqueConstraint.name) :
    Leaves table { cat.view table with
      constraints := (cat.constraintsOf table).filter (·.name ∉ rs.map Replacement.dropped) ++
        rs.map (Replacement.constraint table) } cat cat' := by
  induction rs generalizing cat with
  | nil =>
    cases hexec
    simpa [Catalogue.view] using Leaves.refl table _
  | cons r rs ih =>
    rw [replaceScript_cons] at hexec
    obtain ⟨cat₁, n₁, hdrop, hexec⟩ := execAll_cons_ok_iff.mp hexec
    obtain ⟨cat₂, n₂, hadd, hexec⟩ := execAll_cons_ok_iff.mp hexec
    obtain ⟨-, hleaves₁⟩ := dropConstraint_ok (map_pair_ok_iff.mp hdrop).1
    obtain ⟨hfresh, hleaves₂⟩ := addUnique_ok (map_pair_ok_iff.mp hadd).1
    rw [List.map_cons, List.nodup_cons] at hnodup
    have hdropped : cat₁.constraintsOf table = (cat.constraintsOf table).filter (·.name ≠ r.dropped) :=
      congrArg TableView.constraints hleaves₁.here
    have hadded : cat₂.constraintsOf table =
        (cat.constraintsOf table).filter (·.name ≠ r.dropped) ++ [r.constraint table] := by
      rw [← hdropped]
      exact congrArg TableView.constraints hleaves₂.here
    have hstill : ∀ n ∈ rs.map Replacement.dropped, n ∈ (cat₁.constraintsOf table).map UniqueConstraint.name := by
      intro n hn
      obtain ⟨c, hc, rfl⟩ := List.mem_map.mp (hnames n (List.mem_cons_of_mem _ hn))
      rw [hdropped]
      refine List.mem_map_of_mem (List.mem_filter.mpr ⟨hc, ?_⟩)
      have hne : c.name ≠ r.dropped := fun heq => hnodup.1 (heq ▸ hn)
      simpa using hne
    -- what was added is none of those still to be dropped
    have hnew : (r.constraint table).name ∉ rs.map Replacement.dropped := by
      intro hmem
      obtain ⟨c, hc, hname⟩ := List.mem_map.mp (hstill _ hmem)
      exact not_mem_of_not_nameInUse hfresh (mem_constraintsOf.mp hc).1 hname
    have hleaves := (hleaves₁.trans hleaves₂).trans (ih hexec hnodup.2 fun n hn => by
      rw [hadded, List.map_append]
      rw [hdropped] at hstill
      exact List.mem_append_left _ (hstill n hn))
    rw [hleaves₂.here, hleaves₁.here, hadded, List.filter_append, List.filter_filter] at hleaves
    have hkeep : [r.constraint table].filter (·.name ∉ rs.map Replacement.dropped) = [r.constraint table] := by
      rw [List.filter_cons_of_pos (by simpa using hnew), List.filter_nil]
    have hboth : ((cat.constraintsOf table).filter fun c =>
        decide (c.name ∉ rs.map Replacement.dropped) && decide (c.name ≠ r.dropped)) =
        (cat.constraintsOf table).filter (·.name ∉ (r :: rs).map Replacement.dropped) := by
      refine List.filter_congr fun c _ => ?_
      by_cases hc : c.name = r.dropped <;> simp [hc]
    rw [hkeep, hboth, List.append_assoc] at hleaves
    exact hleaves

/-- Each constraint to be dropped is there and may go; each to be added has a
free name, and the rows admit it. -/
structure Replaceable (cat : Catalogue δ) (table : String) (t : Table δ) (rs : List Replacement) : Prop where
  dropped : (rs.map Replacement.dropped).Nodup
  there : ∀ r ∈ rs, ∃ c ∈ cat.constraintsOf table, c.name = r.dropped ∧ c.fkTargeted = false
  added : (rs.map fun r => Catalogue.clip r.added).Nodup
  free : ∀ r ∈ rs, cat.nameInUse (Catalogue.clip r.added) = false
  columns : ∀ r ∈ rs, ∀ c ∈ r.columns, (t.column? c).isSome = true
  admits : ∀ r ∈ rs, (Sql.UniqueKey.mk r.columns false).Admits t.rows

omit [DecidableEq δ] in
/-- What may be replaced may be after a change that brings no constraint. -/
theorem Replaceable.of_leaves {t t' : Table δ} {v : TableView δ} {rs : List Replacement}
    (h : Replaceable cat table t rs) (hleaves : Leaves table v cat cat') (ht : cat.tables table = .some t)
    (hconstraints : v.constraints = cat.constraintsOf table) (hindexes : v.indexes = cat.indexesOf table)
    (hcolumns : t'.columns = t.columns) (hrows : t'.rows = t.rows) : Replaceable cat' table t' rs where
  dropped := h.dropped
  there r hr := by
    rw [constraintsOf_of_view hleaves.here, hconstraints]
    exact h.there r hr
  added := h.added
  free r hr := by
    by_contra huse
    rcases hleaves.nameInUse (fun _ => by simp [ht]) (fun i hi => hindexes ▸ hi) (by simpa using huse) with
      huse | ⟨d, hd, hused⟩
    · rw [h.free r hr] at huse
      cases huse
    · rw [hconstraints] at hd
      exact not_mem_of_not_nameInUse (h.free r hr) (mem_constraintsOf.mp hd).1 hused
  columns r hr c hc := by
    rw [Table.column?, hcolumns]
    exact h.columns r hr c hc
  admits r hr := by
    rw [hrows]
    exact h.admits r hr

theorem replaceScript_succeeds {t : Table δ} (ht : cat.tables table = .some t) (h : Replaceable cat table t rs) :
    ∃ cat', execAll server (replaceScript table rs) cat = .ok cat' := by
  induction rs generalizing cat with
  | nil => exact ⟨cat, rfl⟩
  | cons r rs ih =>
    have hmem : r ∈ r :: rs := List.mem_cons_self ..
    have hdropped := h.dropped
    rw [List.map_cons, List.nodup_cons] at hdropped
    have hadded := h.added
    rw [List.map_cons, List.nodup_cons] at hadded
    obtain ⟨c, hc, hname, htargeted⟩ := h.there r hmem
    obtain ⟨cat₁, hdrop⟩ := dropConstraint_succeeds hc htargeted
    obtain ⟨-, hleaves₁⟩ := dropConstraint_ok hdrop
    have ht₁ : cat₁.tables table = .some t := (tables_of_view hleaves₁.here).trans ht
    -- a name that was free is free still
    have hfree₁ : ∀ r' ∈ r :: rs, cat₁.nameInUse (Catalogue.clip r'.added) = false := by
      intro r' hr'
      by_contra huse
      rcases hleaves₁.nameInUse id (fun _ => id) (by simpa using huse) with huse | ⟨d, hd, hused⟩
      · rw [h.free r' hr'] at huse
        cases huse
      · have hd' : d ∈ cat.constraints := (mem_constraintsOf.mp (List.mem_of_mem_filter hd)).1
        exact not_mem_of_not_nameInUse (h.free r' hr') hd' hused
    obtain ⟨cat₂, hadd⟩ := addUnique_succeeds ht₁ (hfree₁ r hmem) (h.columns r hmem) (h.admits r hmem)
    obtain ⟨-, hleaves₂⟩ := addUnique_ok hadd
    have ht₂ : cat₂.tables table = .some t := (tables_of_view hleaves₂.here).trans ht₁
    have hrest : Replaceable cat₂ table t rs := by
      refine ⟨hdropped.2, fun r' hr' => ?_, hadded.2, fun r' hr' => ?_,
        fun r' hr' => h.columns r' (List.mem_cons_of_mem _ hr'), fun r' hr' => h.admits r' (List.mem_cons_of_mem _ hr')⟩
      · obtain ⟨d, hd, hdname, hdtargeted⟩ := h.there r' (List.mem_cons_of_mem _ hr')
        refine ⟨d, ?_, hdname, hdtargeted⟩
        have hne : d.name ≠ c.name := by
          intro heq
          exact hdropped.1 (hname ▸ heq ▸ hdname ▸ List.mem_map_of_mem hr')
        rw [constraintsOf_of_view hleaves₂.here, constraintsOf_of_view hleaves₁.here]
        exact List.mem_append_left _ (List.mem_filter.mpr ⟨hd, by simpa using hne⟩)
      · by_contra huse
        rcases hleaves₂.nameInUse id (fun _ => id) (by simpa using huse) with huse | ⟨d, hd, hused⟩
        · rw [hfree₁ r' (List.mem_cons_of_mem _ hr')] at huse
          cases huse
        · rcases List.mem_append.mp hd with hd | hd
          · exact not_mem_of_not_nameInUse (hfree₁ r' (List.mem_cons_of_mem _ hr')) (mem_constraintsOf.mp hd).1 hused
          · obtain rfl := List.mem_singleton.mp hd
            exact hadded.1 (List.mem_map.mpr ⟨r', hr', hused.symm⟩)
    obtain ⟨cat', hexec⟩ := ih ht₂ hrest
    refine ⟨cat', ?_⟩
    rw [replaceScript_cons, ← hname]
    refine execAll_cons_ok_iff.mpr ⟨cat₁, 0, map_pair_ok_iff.mpr ⟨hdrop, rfl⟩, ?_⟩
    exact execAll_cons_ok_iff.mpr ⟨cat₂, 0, map_pair_ok_iff.mpr ⟨hadd, rfl⟩, hexec⟩

/-- The table itself is not altered. -/
theorem tables_replaceScript (hexec : execAll server (replaceScript table rs) cat = .ok cat') :
    cat'.tables table = cat.tables table := by
  induction rs generalizing cat with
  | nil =>
    cases hexec
    rfl
  | cons r rs ih =>
    rw [replaceScript_cons] at hexec
    obtain ⟨cat₁, n₁, hdrop, hexec⟩ := execAll_cons_ok_iff.mp hexec
    obtain ⟨cat₂, n₂, hadd, hexec⟩ := execAll_cons_ok_iff.mp hexec
    obtain ⟨-, hleaves₁⟩ := dropConstraint_ok (map_pair_ok_iff.mp hdrop).1
    obtain ⟨-, hleaves₂⟩ := addUnique_ok (map_pair_ok_iff.mp hadd).1
    exact (ih hexec).trans ((tables_of_view hleaves₂.here).trans (tables_of_view hleaves₁.here))

/-- A name that is not there is not dropped. -/
theorem not_mem_dropped {name : String} (hexec : execAll server (replaceScript table rs) cat = .ok cat')
    (hname : name ∉ (cat.constraintsOf table).map UniqueConstraint.name)
    (hadded : ∀ r ∈ rs, Catalogue.clip r.added ≠ name) : name ∉ rs.map Replacement.dropped := by
  induction rs generalizing cat with
  | nil => exact List.not_mem_nil
  | cons r rs ih =>
    rw [replaceScript_cons] at hexec
    obtain ⟨cat₁, n₁, hdrop, hexec⟩ := execAll_cons_ok_iff.mp hexec
    obtain ⟨cat₂, n₂, hadd, hexec⟩ := execAll_cons_ok_iff.mp hexec
    obtain ⟨hthere, hleaves₁⟩ := dropConstraint_ok (map_pair_ok_iff.mp hdrop).1
    obtain ⟨-, hleaves₂⟩ := addUnique_ok (map_pair_ok_iff.mp hadd).1
    have hrest : name ∉ rs.map Replacement.dropped := by
      refine ih hexec ?_ fun r' hr' => hadded r' (List.mem_cons_of_mem _ hr')
      rw [constraintsOf_of_view hleaves₂.here, constraintsOf_of_view hleaves₁.here, List.map_append, List.mem_append]
      rintro (hmem | hmem)
      · exact hname ((List.filter_sublist.map _).subset hmem)
      · exact hadded r (List.mem_cons_self ..) (List.mem_singleton.mp hmem).symm
    rw [List.map_cons, List.mem_cons, not_or]
    exact ⟨fun heq => hname (heq ▸ hthere), hrest⟩

/-- No constraint is dropped twice. -/
theorem nodup_dropped (hexec : execAll server (replaceScript table rs) cat = .ok cat')
    (hadded : ∀ r ∈ rs, ∀ r' ∈ rs, Catalogue.clip r.added ≠ r'.dropped) : (rs.map Replacement.dropped).Nodup := by
  induction rs generalizing cat with
  | nil => exact List.nodup_nil
  | cons r rs ih =>
    rw [replaceScript_cons] at hexec
    obtain ⟨cat₁, n₁, hdrop, hexec⟩ := execAll_cons_ok_iff.mp hexec
    obtain ⟨cat₂, n₂, hadd, hexec⟩ := execAll_cons_ok_iff.mp hexec
    obtain ⟨-, hleaves₁⟩ := dropConstraint_ok (map_pair_ok_iff.mp hdrop).1
    obtain ⟨-, hleaves₂⟩ := addUnique_ok (map_pair_ok_iff.mp hadd).1
    have hrest := ih hexec fun r₁ h₁ r₂ h₂ => hadded r₁ (List.mem_cons_of_mem _ h₁) r₂ (List.mem_cons_of_mem _ h₂)
    rw [List.map_cons, List.nodup_cons]
    refine ⟨not_mem_dropped hexec ?_ fun r' hr' => hadded r' (List.mem_cons_of_mem _ hr') r (List.mem_cons_self ..), hrest⟩
    rw [constraintsOf_of_view hleaves₂.here, constraintsOf_of_view hleaves₁.here, List.map_append, List.mem_append]
    rintro (hmem | hmem)
    · obtain ⟨c, hc, hname⟩ := List.mem_map.mp hmem
      simpa [hname] using (List.mem_filter.mp hc).2
    · exact hadded r (List.mem_cons_self ..) r (List.mem_cons_self ..) (List.mem_singleton.mp hmem).symm

/-- Constraints of another table are not there to be dropped. -/
theorem replacements_eq_nil (hexec : execAll server (replaceScript table rs) cat = .ok cat')
    (hnames : ∀ name ∈ rs.map Replacement.dropped, name ∉ (cat.constraintsOf table).map UniqueConstraint.name) :
    rs = [] := by
  cases rs with
  | nil => rfl
  | cons r rs =>
    obtain ⟨cat₁, n₁, hdrop, -⟩ := execAll_cons_ok_iff.mp hexec
    exact absurd (dropConstraint_ok (map_pair_ok_iff.mp hdrop).1).1 (hnames _ (List.mem_cons_self ..))

end

/-! ## Scripts -/

namespace AdoptTenantApp

variable {δ : Type}

def addColumnScript (op : AdoptTenantApp δ) (plan : AdoptionPlan) : List (Statement δ) :=
  if plan.existingRows = 0 then [.addColumn plan.table (tenantColumn plan.pgType)]
  else
    .addColumn plan.table ⟨"tenant_id", plan.pgType, false, .none⟩ ::
      (op.backfillTenant.toList.map (.updateAll plan.table "tenant_id" ·) ++
        [.setNotNull plan.table "tenant_id", .setDefault plan.table "tenant_id" .currentTenantId])

/-- What a rewrite replaces, and with what. -/
def toReplacement (env : AdoptionEnv δ) (table : String) (rewrite : String × List String) : Replacement :=
  ⟨rewrite.1, compositeConstraintName env table rewrite.1 rewrite.2, rewrite.2⟩

def rewriteScript (env : AdoptionEnv δ) (table : String) (rewrites : List (String × List String)) :
    List (Statement δ) :=
  replaceScript table (rewrites.map (toReplacement env table))

def securityScript (env : AdoptionEnv δ) (table : String) : List (Statement δ) :=
  [.rowSecurity table true, .forceRowSecurity table true, .createPolicy (tenantIsolation table "tenant_id"),
    .createPolicy (adminBypassPolicy env.conf.adminFlagVar table)]

def adoptScript (op : AdoptTenantApp δ) (env : AdoptionEnv δ) (plan : AdoptionPlan) : List (Statement δ) :=
  op.addColumnScript plan ++ rewriteScript env plan.table plan.rewrites ++ securityScript env plan.table

/-- A row that existed, backfilled. -/
def stamp (op : AdoptTenantApp δ) (r : Sql.Tuple String δ) : Sql.Tuple String δ :=
  match op.backfillTenant with
  | .some tenant => Function.update r "tenant_id" (.some tenant)
  | .none => r

theorem stamp_of_ne {op : AdoptTenantApp δ} {r : Sql.Tuple String δ} {column : String} (hne : column ≠ "tenant_id") :
    op.stamp r column = r column := by
  unfold stamp
  cases op.backfillTenant with
  | none => rfl
  | some tenant => exact Function.update_of_ne hne _ _

/-- The table with its column, before it is secured. -/
def withTenantColumn (op : AdoptTenantApp δ) (pgType : String) (t : Table δ) : Table δ :=
  { t with columns := t.columns ++ [tenantColumn pgType], rows := t.rows.map op.stamp }

/-- What replaces a constraint. -/
def composite (env : AdoptionEnv δ) (table : String) (rewrite : String × List String) : UniqueConstraint :=
  (toReplacement env table rewrite).constraint table

theorem columns_alter {cs : List Column} {c : Column} {alter : Column → Column}
    (hnone : cs.find? (·.name = c.name) = .none) :
    (cs ++ [c]).map (fun d => if d.name = c.name then alter d else d) = cs ++ [alter c] := by
  rw [List.find?_eq_none] at hnone
  rw [List.map_append, List.map_singleton, if_pos rfl]
  congr 1
  have hother : ∀ d ∈ cs, (if d.name = c.name then alter d else d) = d := by
    intro d hd
    exact if_neg (by simpa using hnone d hd)
  rw [List.map_congr_left hother, List.map_id']

variable {server : Server δ} {cat cat' : Catalogue δ}

variable [DecidableEq δ] {op : AdoptTenantApp δ} {env : AdoptionEnv δ} {plan : AdoptionPlan} {m m' : Migration δ}
  {u : Unit}

theorem backfill_ok {updated : Nat} (h : op.backfill env plan m = .ok updated m') :
    Executed env.toServer m (op.backfillTenant.toList.map (.updateAll plan.table "tenant_id" ·)) m' := by
  unfold backfill at h
  cases hbackfill : op.backfillTenant with
  | none =>
    rw [hbackfill] at h
    cases h
    exact .nil _ _
  | some tenant =>
    rw [hbackfill] at h
    exact (cursorExecute_ok h).2

theorem addTenantColumn_ok (hlive : env.editor = .live) (h : op.addTenantColumn env plan m = .ok u m') :
    Executed env.toServer m (op.addColumnScript plan) m' := by
  unfold addTenantColumn at h
  unfold addColumnScript
  by_cases hrows : plan.existingRows = 0
  · rw [if_pos hrows] at h ⊢
    exact schemaExecute_ok hlive h
  rw [if_neg hrows] at h ⊢
  obtain ⟨_, m₁, hadd, h⟩ := bind_ok_iff.mp h
  rw [← List.singleton_append]
  refine (schemaExecute_ok hlive hadd).append ?_
  obtain ⟨updated, m₂, hupdate, h⟩ := bind_ok_iff.mp h
  refine (backfill_ok hupdate).append ?_
  split at h
  · obtain ⟨_, m₃, hnotNull, hdefault⟩ := bind_ok_iff.mp h
    exact (schemaExecute_ok hlive hnotNull).append (schemaExecute_ok hlive hdefault)
  · cases h

theorem applyUniqueRewrites_ok {table : String} {rewrites : List (String × List String)} (hlive : env.editor = .live)
    (h : applyUniqueRewrites env table rewrites m = .ok u m') :
    Executed env.toServer m (rewriteScript env table rewrites) m' := by
  induction rewrites generalizing m with
  | nil =>
    cases h
    exact .nil _ _
  | cons rewrite rewrites ih =>
    obtain ⟨_, m₁, hdrop, h⟩ := bind_ok_iff.mp h
    obtain ⟨_, m₂, hadd, h⟩ := bind_ok_iff.mp h
    exact (schemaExecute_ok hlive hdrop).append ((schemaExecute_ok hlive hadd).append (ih h))

theorem adoptTable_ok (hlive : env.editor = .live) (h : op.adoptTable env plan m = .ok u m') :
    Executed env.toServer m (op.adoptScript env plan) m' := by
  obtain ⟨_, m₁, hcolumn, h⟩ := bind_ok_iff.mp h
  obtain ⟨_, m₂, hrewrites, h⟩ := bind_ok_iff.mp h
  obtain ⟨_, m₃, henable, h⟩ := bind_ok_iff.mp h
  obtain ⟨_, m₄, hforce, h⟩ := bind_ok_iff.mp h
  obtain ⟨_, m₅, hisolation, hbypass⟩ := bind_ok_iff.mp h
  have hsecurity : Executed env.toServer m₂ (securityScript env plan.table) m' :=
    (schemaExecute_ok hlive henable).append ((schemaExecute_ok hlive hforce).append
      ((schemaExecute_ok hlive hisolation).append (schemaExecute_ok hlive hbypass)))
  exact ((addTenantColumn_ok hlive hcolumn).append (applyUniqueRewrites_ok hlive hrewrites)).append hsecurity

theorem adoptTables_ok {plans : List AdoptionPlan} (hlive : env.editor = .live)
    (h : op.adoptTables env plans m = .ok u m') :
    Executed env.toServer m (plans.flatMap (op.adoptScript env)) m' := by
  induction plans generalizing m with
  | nil =>
    cases h
    exact .nil _ _
  | cons plan plans ih =>
    obtain ⟨_, m₁, hplan, h⟩ := bind_ok_iff.mp h
    rw [List.flatMap_cons]
    exact (adoptTable_ok hlive hplan).append (ih h)

/-! ## What a script leaves of its table -/

theorem leaves_addColumnScript (hexec : execAll server (op.addColumnScript plan) cat = .ok cat')
    (hrows : rowCount cat plan.table = .ok plan.existingRows)
    (hbackfill : plan.existingRows ≠ 0 → op.backfillTenant.isSome = true) :
    ∃ t, cat.tables plan.table = .some t ∧ t.column? "tenant_id" = .none ∧
      Leaves plan.table { cat.view plan.table with table := .some (op.withTenantColumn plan.pgType t) } cat cat' := by
  unfold addColumnScript at hexec
  by_cases hzero : plan.existingRows = 0
  · rw [if_pos hzero] at hexec
    obtain ⟨cat₁, n, hadd, hrest⟩ := execAll_cons_ok_iff.mp hexec
    cases hrest
    obtain ⟨t, value, ht, hnone, hleaves⟩ := addColumn_ok (map_pair_ok_iff.mp hadd).1
    refine ⟨t, ht, hnone, ?_⟩
    have hempty : t.rows = [] := by
      rw [hzero, rowCount, ht] at hrows
      simpa using hrows
    rw [withTenantColumn, hempty]
    rw [hempty] at hleaves
    exact hleaves
  · rw [if_neg hzero] at hexec
    obtain ⟨tenant, htenant⟩ := Option.isSome_iff_exists.mp (hbackfill hzero)
    rw [htenant] at hexec
    obtain ⟨cat₁, n₁, hadd, hexec⟩ := execAll_cons_ok_iff.mp hexec
    obtain ⟨cat₂, n₂, hupdate, hexec⟩ := execAll_cons_ok_iff.mp hexec
    obtain ⟨cat₃, n₃, hnotNull, hexec⟩ := execAll_cons_ok_iff.mp hexec
    obtain ⟨cat₄, n₄, hdefault, hrest⟩ := execAll_cons_ok_iff.mp hexec
    cases hrest
    obtain ⟨t, value, ht, hnone, hleaves₁⟩ := addColumn_ok (map_pair_ok_iff.mp hadd).1
    obtain ⟨t₁, ht₁, -, hleaves₂⟩ := updateAll_ok hupdate
    obtain ⟨t₂, ht₂, hleaves₃⟩ := setNotNull_ok (map_pair_ok_iff.mp hnotNull).1
    obtain ⟨t₃, ht₃, hleaves₄⟩ := alterColumn_ok (map_pair_ok_iff.mp hdefault).1
    refine ⟨t, ht, hnone, ?_⟩
    -- each statement sees the table the one before it left
    obtain rfl := Option.some.inj (ht₁.symm.trans (tables_of_view hleaves₁.here))
    obtain rfl := Option.some.inj (ht₂.symm.trans (tables_of_view hleaves₂.here))
    obtain rfl := Option.some.inj (ht₃.symm.trans (tables_of_view hleaves₃.here))
    have hleaves := ((hleaves₁.trans hleaves₂).trans hleaves₃).trans hleaves₄
    rw [hleaves₃.here, hleaves₂.here, hleaves₁.here] at hleaves
    simp only at hleaves
    rw [columns_alter (c := ⟨"tenant_id", plan.pgType, false, .none⟩) hnone,
      columns_alter (c := ⟨"tenant_id", plan.pgType, true, .none⟩) hnone, List.map_map] at hleaves
    have hstamp : (fun r : Sql.Tuple String δ => Function.update r "tenant_id" (.some tenant)) ∘
        (fun r => Function.update r "tenant_id" value) = op.stamp := by
      funext r
      simp [stamp, htenant]
    rw [hstamp] at hleaves
    exact hleaves

theorem leaves_rewriteScript {table : String} {rewrites : List (String × List String)}
    (hexec : execAll server (rewriteScript env table rewrites) cat = .ok cat')
    (hnodup : (rewrites.map Prod.fst).Nodup)
    (hnames : ∀ name ∈ rewrites.map Prod.fst, name ∈ (cat.constraintsOf table).map UniqueConstraint.name) :
    Leaves table { cat.view table with
      constraints := (cat.constraintsOf table).filter (·.name ∉ rewrites.map Prod.fst) ++
        rewrites.map (composite env table) } cat cat' := by
  have hdropped : (rewrites.map (toReplacement env table)).map Replacement.dropped = rewrites.map Prod.fst := by
    rw [List.map_map]
    rfl
  have hadded : (rewrites.map (toReplacement env table)).map (Replacement.constraint table) =
      rewrites.map (composite env table) := by
    rw [List.map_map]
    rfl
  rw [← hdropped] at hnodup hnames ⊢
  rw [← hadded]
  exact leaves_replaceScript hexec hnodup hnames

theorem leaves_enabling {table : String}
    (hexec : execAll server [.rowSecurity table true, .forceRowSecurity table true] cat = .ok cat') :
    ∃ t, cat.tables table = .some t ∧ Leaves table { cat.view table with
      table := .some { t with rowSecurity := true, forceRowSecurity := true } } cat cat' := by
  obtain ⟨cat₁, n₁, henable, hexec⟩ := execAll_cons_ok_iff.mp hexec
  obtain ⟨cat₂, n₂, hforce, hrest⟩ := execAll_cons_ok_iff.mp hexec
  obtain rfl := Except.ok.inj hrest
  obtain ⟨t, ht, hleaves₁⟩ := alterTable_leaves (map_pair_ok_iff.mp henable).1
  obtain ⟨t₁, ht₁, hleaves₂⟩ := alterTable_leaves (map_pair_ok_iff.mp hforce).1
  obtain rfl := Option.some.inj (ht₁.symm.trans (tables_of_view hleaves₁.here))
  have hleaves := hleaves₁.trans hleaves₂
  rw [hleaves₁.here] at hleaves
  exact ⟨t, ht, hleaves⟩

theorem leaves_policies {table tenantColumn : String}
    (hexec : execAll server [.createPolicy (tenantIsolation table tenantColumn),
      .createPolicy (adminBypassPolicy env.conf.adminFlagVar table)] cat = .ok cat') :
    Leaves table { cat.view table with
      policies := cat.policiesOf table ++
        [tenantIsolation table tenantColumn, adminBypassPolicy env.conf.adminFlagVar table] } cat cat' := by
  obtain ⟨cat₁, n₁, hisolation, hexec⟩ := execAll_cons_ok_iff.mp hexec
  obtain ⟨cat₂, n₂, hbypass, hrest⟩ := execAll_cons_ok_iff.mp hexec
  obtain rfl := Except.ok.inj hrest
  have hleaves₁ : Leaves table { cat.view table with
      policies := cat.policiesOf table ++ [tenantIsolation table tenantColumn] } cat cat₁ :=
    createPolicy_ok (map_pair_ok_iff.mp hisolation).1 rfl
  have hleaves₂ : Leaves table { cat₁.view table with
      policies := cat₁.policiesOf table ++ [adminBypassPolicy env.conf.adminFlagVar table] } cat₁ cat₂ :=
    createPolicy_ok (map_pair_ok_iff.mp hbypass).1 rfl
  have hleaves := hleaves₁.trans hleaves₂
  rw [policiesOf_of_view hleaves₁.here, hleaves₁.here] at hleaves
  simpa using hleaves

theorem leaves_securityScript {table : String} (hexec : execAll server (securityScript env table) cat = .ok cat') :
    ∃ t, cat.tables table = .some t ∧ Leaves table { cat.view table with
      table := .some { t with rowSecurity := true, forceRowSecurity := true }
      policies := cat.policiesOf table ++
        [tenantIsolation table "tenant_id", adminBypassPolicy env.conf.adminFlagVar table] } cat cat' := by
  have hparts : securityScript env table = [.rowSecurity table true, .forceRowSecurity table true] ++
      [.createPolicy (tenantIsolation table "tenant_id"),
        .createPolicy (adminBypassPolicy env.conf.adminFlagVar table)] := rfl
  rw [hparts] at hexec
  obtain ⟨cat₁, henabling, hpolicies⟩ := execAll_append_ok_iff.mp hexec
  obtain ⟨t, ht, hleaves₁⟩ := leaves_enabling henabling
  have hleaves := hleaves₁.trans (leaves_policies hpolicies)
  rw [policiesOf_of_view hleaves₁.here, hleaves₁.here] at hleaves
  exact ⟨t, ht, hleaves⟩

end AdoptTenantApp

end Boundary
