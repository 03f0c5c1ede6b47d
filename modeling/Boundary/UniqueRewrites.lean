/-
The rewritten unique constraints keep the originals' uniqueness within each
tenant, and say nothing across tenants; but for an original whose nulls are not
distinct, which the rewrite makes distinct.
-/
import Boundary.AdoptionFacts

namespace Boundary

/-! ## What constraints say of rows -/

/-- The constraints admit the rows. -/
def Admit {δ : Type} (cs : List UniqueConstraint) (rows : List (Sql.Tuple String δ)) : Prop :=
  ∀ c ∈ cs, c.key.Admits rows

instance {δ : Type} [DecidableEq δ] (cs : List UniqueConstraint) (rows : List (Sql.Tuple String δ)) :
    Decidable (Admit cs rows) :=
  inferInstanceAs (Decidable (∀ c ∈ cs, c.key.Admits rows))

def rowsOf {δ : Type} [DecidableEq δ] (tenant : δ) (rows : List (Sql.Tuple String δ)) : List (Sql.Tuple String δ) :=
  rows.filter fun r => r "tenant_id" = .some tenant

namespace AdoptTenantApp

variable {δ : Type} [DecidableEq δ]

/-- `after` says of each tenant's rows what `before` would of those rows alone,
and nothing of two tenants' rows together. -/
structure KeepsUniqueness (before after : List UniqueConstraint) (rows : List (Sql.Tuple String δ)) : Prop where
  within : ∀ tenant, Admit after (rowsOf tenant rows) ↔ Admit before (rowsOf tenant rows)
  across : ∀ r ∈ rows, ∀ r' ∈ rows, r "tenant_id" ≠ r' "tenant_id" → ∀ c ∈ after, ¬ c.key.Conflict r r'

/-- Of no tenant two rows agree with a NULL on a constraint that has nulls not
distinct, or the rows would be refused with nulls distinct too. -/
def NoNullsMatched (before : List UniqueConstraint) (rows : List (Sql.Tuple String δ)) : Prop :=
  ∀ tenant, (∀ c ∈ before, (Sql.UniqueKey.mk c.columns false).Admits (rowsOf tenant rows)) →
    ∀ c ∈ before, c.nullsNotDistinct = true → (rowsOf tenant rows).Pairwise fun r r' =>
      ¬ (Sql.Agree c.columns r r' ∧ Sql.HasNull c.columns r)

variable {before after : List UniqueConstraint} {rows : List (Sql.Tuple String δ)} {tenant : δ}

theorem tenant_of_mem_rowsOf {r : Sql.Tuple String δ} (hr : r ∈ rowsOf tenant rows) : r "tenant_id" = .some tenant := by
  simpa using (List.mem_filter.mp hr).2

/-- Constraints led by the tenant's column, with nulls distinct, admit one
tenant's rows when the rest of their columns do. -/
theorem admit_rowsOf (hkeys : (after.map UniqueConstraint.key).Perm
      (before.map fun c => Sql.UniqueKey.mk ("tenant_id" :: c.columns) false)) :
    Admit after (rowsOf tenant rows) ↔
      ∀ c ∈ before, (Sql.UniqueKey.mk c.columns false).Admits (rowsOf tenant rows) := by
  have hafter : Admit after (rowsOf tenant rows) ↔
      ∀ key ∈ after.map UniqueConstraint.key, key.Admits (rowsOf tenant rows) := by
    simp [Admit]
  rw [hafter]
  have hmem : (∀ key ∈ after.map UniqueConstraint.key, key.Admits (rowsOf tenant rows)) ↔
      ∀ key ∈ before.map fun c => Sql.UniqueKey.mk ("tenant_id" :: c.columns) false, key.Admits (rowsOf tenant rows) :=
    forall_congr' fun key => imp_congr_left hkeys.mem_iff
  rw [hmem, List.forall_mem_map]
  exact forall_congr' fun c => imp_congr_right fun _ => Sql.UniqueKey.admits_cons fun r hr => tenant_of_mem_rowsOf hr

omit [DecidableEq δ] in
theorem admit_iff : Admit before rows ↔
    (∀ c ∈ before, (Sql.UniqueKey.mk c.columns false).Admits rows) ∧
      ∀ c ∈ before, c.nullsNotDistinct = true → rows.Pairwise fun r r' =>
        ¬ (Sql.Agree c.columns r r' ∧ Sql.HasNull c.columns r) := by
  unfold Admit
  rw [← forall₂_and]
  exact forall₂_congr fun c _ => Sql.UniqueKey.admits_iff

theorem keepsUniqueness_iff (hkeys : (after.map UniqueConstraint.key).Perm
      (before.map fun c => Sql.UniqueKey.mk ("tenant_id" :: c.columns) false)) :
    KeepsUniqueness before after rows ↔ NoNullsMatched before rows := by
  constructor
  · intro h tenant hdistinct
    exact (admit_iff.mp ((h.within tenant).mp ((admit_rowsOf hkeys).mpr hdistinct))).2
  · intro h
    constructor
    case within =>
      intro tenant
      rw [admit_rowsOf hkeys, admit_iff]
      exact ⟨fun hdistinct => ⟨hdistinct, h tenant hdistinct⟩, And.left⟩
    case across =>
      intro r _ r' _ hne c hc
      obtain ⟨c₀, -, hkey⟩ := List.mem_map.mp (hkeys.mem_iff.mp (List.mem_map_of_mem hc))
      rw [← hkey]
      exact Sql.UniqueKey.not_conflict_of_ne (List.mem_cons_self ..) hne

/-! ## What is planned, and what applying it leaves -/

variable {env : AdoptionEnv δ} {cat : Catalogue δ} {table name label : String} {rewrites : List (String × List String)}

omit [DecidableEq δ] in
theorem keys_of_plan (hread : env.regclass table = .some name)
    (hrewrites : rewrites = (uniqueConstraints env.toServer cat table).map toRewrite) :
    ((rewrites.map (composite env name)).map UniqueConstraint.key).Perm
      ((cat.constraintsOf name).map fun c => Sql.UniqueKey.mk ("tenant_id" :: c.columns) false) := by
  have hcolumns := (rewrites_columns cat hread).map fun columns => Sql.UniqueKey.mk columns false
  rw [← hrewrites, List.map_map, List.map_map] at hcolumns
  rw [List.map_map]
  exact hcolumns

/-- What applying a plan leaves of the table it was made of. -/
theorem constraintsOf_applied {m m' : Migration δ} (hlive : env.editor = .live)
    (hread : env.regclass table = .some name)
    (hrewrites : rewrites = (uniqueConstraints env.toServer cat table).map toRewrite)
    (hsame : m.catalogue.constraintsOf name = cat.constraintsOf name)
    (happly : applyUniqueRewrites env name rewrites m = .ok () m') :
    m'.catalogue.constraintsOf name = rewrites.map (composite env name) := by
  have hperm := rewrites_perm cat hread
  rw [← hrewrites] at hperm
  have hleaves := leaves_rewriteScript (applyUniqueRewrites_ok hlive happly).catalogue
    (hperm.nodup_iff.mpr nodup_constraintsOf) fun n hn => by
      rw [hsame]
      exact hperm.mem_iff.mp hn
  have hdropped := constraints_dropped cat hread
  rw [← hrewrites] at hdropped
  rw [constraintsOf_of_view hleaves.here, hsame]
  simp only [hdropped, List.nil_append]

/-- Of a table that is accepted: its only unique index is its primary key's; the
planned constraints, which are those that applying the plan leaves, keep the
uniqueness of any rows unless nulls that were not distinct come to matter. -/
theorem planUniqueRewrites_keepsUniqueness (hread : env.regclass table = .some name)
    (hplan : planUniqueRewrites env.toServer cat table label = .ok rewrites) :
    (∀ rows : List (Sql.Tuple String δ),
      KeepsUniqueness (cat.constraintsOf name) (rewrites.map (composite env name)) rows ↔
          NoNullsMatched (cat.constraintsOf name) rows) ∧
      (∀ i ∈ cat.indexesOf name, i.primary = true) ∧
      ∀ m m', env.editor = .live → m.catalogue.constraintsOf name = cat.constraintsOf name →
        applyUniqueRewrites env name rewrites m = .ok () m' →
        m'.catalogue.constraintsOf name = rewrites.map (composite env name) := by
  obtain ⟨hindexes, hrewrites, -⟩ := planUniqueRewrites_ok hplan
  exact ⟨fun rows => keepsUniqueness_iff (keys_of_plan hread hrewrites), primary_of_accepted hread hindexes,
    fun m m' hlive hsame happly => constraintsOf_applied hlive hread hrewrites hsame happly⟩

/-- A catalogue of one table with a unique `sku`. -/
def uniqueSku (nullsNotDistinct : Bool) : Catalogue Nat where
  tables name := if name = "shop_widget" then .some { columns := [⟨"sku", "text", false, .none⟩] } else .none
  constraints := [{ name := "shop_widget_sku_key", table := "shop_widget", columns := ["sku"], nullsNotDistinct }]

/-- Two rows of one tenant without a `sku`. -/
def twoNulls : List (Sql.Tuple String Nat) :=
  let row := Function.update (fun _ => .none) "tenant_id" (.some 1)
  [row, row]

/-- What is planned for it. -/
def tenantSku : List (String × List String) := [("shop_widget_sku_key", ["tenant_id", "sku"])]

theorem planUniqueRewrites_keepsUniqueness_sku :
    KeepsUniqueness ((uniqueSku false).constraintsOf "shop_widget")
      (tenantSku.map (composite (shopEnv (shopWidget "shop_widget")) "shop_widget")) twoNulls := by
  have hplan : planUniqueRewrites (shopEnv (shopWidget "shop_widget")).toServer (uniqueSku false) "shop_widget"
      "shop.Widget" = .ok tenantSku := by rfl
  refine ((planUniqueRewrites_keepsUniqueness (by decide +kernel) hplan).1 twoNulls).mpr fun tenant _ c hc hnulls => ?_
  obtain rfl := List.mem_singleton.mp (mem_constraintsOf.mp hc).1
  cases hnulls

/-- Where the original's nulls were not distinct, the rewritten constraint admits
two rows of one tenant that the original would not. -/
theorem planUniqueRewrites_keepsUniqueness_nulls :
    planUniqueRewrites (shopEnv (shopWidget "shop_widget")).toServer (uniqueSku true) "shop_widget" "shop.Widget" =
        .ok tenantSku ∧
      ¬ KeepsUniqueness ((uniqueSku true).constraintsOf "shop_widget")
        (tenantSku.map (composite (shopEnv (shopWidget "shop_widget")) "shop_widget")) twoNulls := by
  refine ⟨rfl, fun h => ?_⟩
  have hadmitted : Admit (tenantSku.map (composite (shopEnv (shopWidget "shop_widget")) "shop_widget"))
      (rowsOf 1 twoNulls) := by decide +kernel
  exact absurd ((h.within 1).mp hadmitted) (by decide +kernel)

end AdoptTenantApp

end Boundary
