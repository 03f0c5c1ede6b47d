/-
`RegionalRouter._route` with the warnings it logs of a tenant whose region is not
configured, over any sequence of queries of one process. Debug lines are left
out.
-/
import Boundary.Lib.Once
import Boundary.Routing

namespace Boundary

namespace RegionalRouter

/-! ## The router, warning -/

/-- `_MAX_UNMATCHED_REGION_WARNINGS`. -/
def maxUnmatchedRegionWarnings : Nat := 10000

/-- `_warned_unmatched_regions`, and the pairs of the warnings logged so far. -/
abbrev Warnings := Once.State (String × Option String)

/-- `_warn_unmatched_region_once`. -/
def warnUnmatchedRegionOnce (tenantPk : String) (region : Option String) (ws : Warnings) : Warnings :=
  Once.say maxUnmatchedRegionWarnings ws (tenantPk, region)

/-- `_route`, as `route` has it, and what it leaves of the warnings. -/
def routeWarning (st : Settings) (isTenantModel : Bool) (v : ContextVars) (tenants : TenantRef → Tenant)
    (ws : Warnings) : Alias × Warnings :=
  match st.regions with
  | .none | .some [] => ("default", ws)
  | .some regions =>
    match v.regionOverride with
    | .some override =>
      if override = "" then routeTenant regions else (if override ∈ regions then override else "default", ws)
    | .none => routeTenant regions
where
  routeTenant (regions : List String) : Alias × Warnings :=
    if !isTenantModel then ("default", ws)
    else
      match v.currentTenant with
      | .none => ("default", ws)
      | .some t =>
        match (tenants t).region with
        | .none => ("default", warnUnmatchedRegionOnce (tenants t).pk.str .none ws)
        | .some region =>
          if region = "" ∨ region ∉ regions then
            ("default", warnUnmatchedRegionOnce (tenants t).pk.str (.some region) ws)
          else (region, ws)

/-- A query of the ORM: its model is tenant-scoped or not, and the context it is
made in. -/
structure Query where
  isTenantModel : Bool
  context : ContextVars
  tenants : TenantRef → Tenant

/-- The aliases of a sequence of queries, and the warnings left. -/
def routeAll (st : Settings) (ws : Warnings) : List Query → List Alias × Warnings
  | [] => ([], ws)
  | q :: queries =>
    let (a, ws) := routeWarning st q.isTenantModel q.context q.tenants ws
    let (as, ws) := routeAll st ws queries
    (a :: as, ws)

/-! ## What is warned of -/

/-- No `specific_region` is in force. -/
def NoOverride (v : ContextVars) : Prop := v.regionOverride = .none ∨ v.regionOverride = .some ""

instance (v : ContextVars) : Decidable (NoOverride v) := inferInstanceAs (Decidable (_ ∨ _))

/-- The query is of a tenant-scoped model, under a tenant that `require_region`
raises for, and falls back to `default`; the tenant's key and its region. -/
def FallsBack (st : Settings) (q : Query) (pair : String × Option String) : Prop :=
  (∃ region regions, st.regions = .some (region :: regions)) ∧ NoOverride q.context ∧ q.isTenantModel = true ∧
    ∃ t, q.context.currentTenant = .some t ∧ pair = ((q.tenants t).pk.str, (q.tenants t).region) ∧
      ∀ repr pk, ∃ e, requireRegion st repr pk (q.tenants t).region = .error e

/-- The pair that a query falls back for. -/
def fallback (st : Settings) (q : Query) : Option (String × Option String) :=
  match st.regions with
  | .none | .some [] => .none
  | .some regions =>
    if NoOverride q.context ∧ q.isTenantModel = true then
      q.context.currentTenant.bind fun t =>
        if (q.tenants t).region.any (fun region => region ≠ "" ∧ region ∈ regions) then .none
        else .some ((q.tenants t).pk.str, (q.tenants t).region)
    else .none

section

variable {st : Settings} {q : Query} {ws : Warnings} {queries : List Query} {pair : String × Option String}

/-- `require_region` raises where the region is none of the configured ones. -/
theorem requireRegion_error_iff {region : String} {regions : List String} {own : Option String}
    (hregions : st.regions = .some (region :: regions)) :
    (∀ repr pk, ∃ e, requireRegion st repr pk own = .error e) ↔
      own.any (fun r => r ≠ "" ∧ r ∈ region :: regions) = false := by
  unfold requireRegion
  rw [hregions]
  cases own with
  | none => exact ⟨fun _ => rfl, fun _ _ _ => ⟨_, rfl⟩⟩
  | some r =>
    simp only [Option.any_some, decide_eq_false_iff_not, not_and]
    by_cases hr : r = "" ∨ r ∉ region :: regions
    · exact ⟨fun _ hne => hr.resolve_left hne, fun _ _ _ => ⟨_, if_pos hr⟩⟩
    · refine ⟨fun h => ?_, fun h => absurd (or_iff_not_imp_left.mpr h) hr⟩
      obtain ⟨e, he⟩ := h (fun _ => "") ""
      rw [if_neg hr] at he
      cases he

theorem fallback_eq_some_iff : fallback st q = .some pair ↔ FallsBack st q pair := by
  unfold fallback FallsBack
  rcases hregions : st.regions with _ | _ | ⟨region, regions⟩
  · simp
  · simp
  · by_cases hgate : NoOverride q.context ∧ q.isTenantModel = true
    · simp only [if_pos hgate]
      constructor
      · intro h
        obtain ⟨t, ht, h⟩ := Option.bind_eq_some_iff.mp h
        split at h
        · cases h
        next hnot =>
          exact ⟨⟨region, regions, rfl⟩, hgate.1, hgate.2, t, ht, (Option.some.inj h).symm,
            (requireRegion_error_iff hregions).mpr (Bool.eq_false_iff.mpr hnot)⟩
      · rintro ⟨-, -, -, t, ht, rfl, hraises⟩
        rw [ht, Option.bind_some, (requireRegion_error_iff hregions).mp hraises]
        rfl
    · simp only [if_neg hgate]
      exact ⟨fun h => (by cases h), fun h => absurd ⟨h.2.1, h.2.2.1⟩ hgate⟩

theorem fallback_of_override (hoverride : ¬ NoOverride q.context) : fallback st q = .none := by
  unfold fallback
  split
  · rfl
  · rfl
  · exact if_neg fun hgate => hoverride hgate.1

theorem routeTenant_eq {region : String} {regions : List String} (hregions : st.regions = .some (region :: regions))
    (hoverride : NoOverride q.context) :
    routeWarning.routeTenant q.isTenantModel q.context q.tenants ws (region :: regions) =
      (route.routeTenant q.isTenantModel q.context q.tenants (region :: regions),
        match fallback st q with
        | .none => ws
        | .some pair => Once.say maxUnmatchedRegionWarnings ws pair) := by
  have hfallback : fallback st q = if NoOverride q.context ∧ q.isTenantModel = true then
      q.context.currentTenant.bind fun t =>
        if (q.tenants t).region.any (fun r => r ≠ "" ∧ r ∈ region :: regions) then .none
        else .some ((q.tenants t).pk.str, (q.tenants t).region)
      else .none := by
    unfold fallback
    rw [hregions]
  unfold routeWarning.routeTenant route.routeTenant
  cases hmodel : q.isTenantModel with
  | false =>
    rw [hfallback.trans (if_neg fun hgate => Bool.false_ne_true (hmodel.symm.trans hgate.2))]
    rfl
  | true =>
    rw [hfallback.trans (if_pos ⟨hoverride, hmodel⟩)]
    cases q.context.currentTenant with
    | none => rfl
    | some t =>
      rw [Option.bind_some]
      cases hown : (q.tenants t).region with
      | none => simp [hown, warnUnmatchedRegionOnce]
      | some own =>
        by_cases hr : own = "" ∨ own ∉ region :: regions
        · have hnot : ¬ (own ≠ "" ∧ own ∈ region :: regions) := fun h => hr.elim h.1 fun hout => hout h.2
          simp only [if_pos hr, hown, Option.any_some, decide_eq_false hnot, warnUnmatchedRegionOnce]
          rfl
        · have hin : own ≠ "" ∧ own ∈ region :: regions := ⟨fun h => hr (.inl h), not_not.mp fun h => hr (.inr h)⟩
          simp only [if_neg hr, hown, Option.any_some, decide_eq_true hin]
          rfl

/-- The warnings are beside the routing. -/
theorem routeWarning_eq :
    routeWarning st q.isTenantModel q.context q.tenants ws =
      (route st q.isTenantModel q.context q.tenants,
        match fallback st q with
        | .none => ws
        | .some pair => Once.say maxUnmatchedRegionWarnings ws pair) := by
  unfold routeWarning route
  rcases hregions : st.regions with _ | _ | ⟨region, regions⟩
  · simp [fallback, hregions]
  · simp [fallback, hregions]
  · simp only
    cases hoverride : q.context.regionOverride with
    | none => exact routeTenant_eq hregions (.inl hoverride)
    | some override =>
      by_cases hempty : override = ""
      · simp only [if_pos hempty]
        exact routeTenant_eq hregions (.inr (hempty ▸ hoverride))
      · have hnot : ¬ NoOverride q.context := by
          rintro (hnone | hsome)
          · rw [hnone] at hoverride
            cases hoverride
          · exact hempty (Option.some.inj (hoverride.symm.trans hsome))
        simp only [if_neg hempty, fallback_of_override hnot]

theorem routeAll_eq : routeAll st ws queries =
    (queries.map fun q => route st q.isTenantModel q.context q.tenants,
      Once.sayAll maxUnmatchedRegionWarnings ws (queries.filterMap (fallback st))) := by
  induction queries generalizing ws with
  | nil => rfl
  | cons q queries ih =>
    rw [routeAll, routeWarning_eq]
    simp only [ih]
    cases hq : fallback st q with
    | none => rw [List.filterMap_cons_none hq, List.map_cons]
    | some pair =>
      rw [List.filterMap_cons_some hq, List.map_cons]
      rfl

end

/-- What the queries of a process are warned of. No pair is warned of twice in a
round of ten thousand. -/
structure WarnsOnce (st : Settings) (queries : List Query) (aliases : List Alias) (ws : Warnings) : Prop where
  routed : aliases = queries.map fun q => route st q.isTenantModel q.context q.tenants
  warned : ∀ pair, pair ∈ ws.said ↔ ∃ q ∈ queries, FallsBack st q pair
  inRounds : Once.InRounds maxUnmatchedRegionWarnings ws
  few : ∀ pairs : List (String × Option String), pairs.length ≤ maxUnmatchedRegionWarnings →
    (∀ q ∈ queries, ∀ pair, FallsBack st q pair → pair ∈ pairs) → ws.said.Nodup

theorem routeAll_warnsOnce (st : Settings) (queries : List Query) :
    WarnsOnce st queries (routeAll st {} queries).1 (routeAll st {} queries).2 := by
  have hbound : 0 < maxUnmatchedRegionWarnings := by decide
  have hstart : Once.InRounds maxUnmatchedRegionWarnings ({} : Warnings) := .start
  rw [routeAll_eq]
  refine ⟨rfl, fun pair => ?_, hstart.sayAll hbound _, fun pairs hfew hpairs => ?_⟩
  · rw [Once.mem_said_sayAll hbound hstart, List.mem_filterMap]
    simp [fallback_eq_some_iff]
  · rw [Once.said_eq_remembered hfew (fun pair hpair => ?_) List.nodup_nil (List.nil_subset _) rfl]
    · exact (hstart.sayAll hbound _).nodup
    · obtain ⟨q, hq, hfallback⟩ := List.mem_filterMap.mp hpair
      exact hpairs q hq pair (fallback_eq_some_iff.mp hfallback)

end RegionalRouter

end Boundary
