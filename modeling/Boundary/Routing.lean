/-
`boundary.routing`: which database alias a model's queries go to.
-/
import Boundary.Context

namespace Boundary

namespace RegionalRouter

/-- `_route`, for a model that is tenant-scoped or not
(`models.is_tenant_model`). -/
def route (st : Settings) (isTenantModel : Bool) (v : ContextVars) (tenants : TenantRef → Tenant) : Alias :=
  match st.regions with
  | .none | .some [] => "default"
  | .some regions =>
    match v.regionOverride with
    | .some override =>
      -- An empty override is no override.
      if override = "" then routeTenant regions else if override ∈ regions then override else "default"
    | .none => routeTenant regions
where
  routeTenant (regions : List String) : Alias :=
    if !isTenantModel then "default"
    else
      match v.currentTenant with
      | .none => "default"
      | .some t =>
        match (tenants t).region with
        | .none => "default"
        | .some region => if region = "" ∨ region ∉ regions then "default" else region

end RegionalRouter

/-- `f"{xs}"` of a list of strings. -/
def formatList (repr : Option String → String) (xs : List String) : String :=
  "[" ++ ", ".intercalate (xs.map fun x => repr (.some x)) ++ "]"

/-- `require_region`, of a tenant whose key prints as `pk`; `repr` is Python's,
of a string or of `None`. -/
def requireRegion (st : Settings) (repr : Option String → String) (pk : String) (region : Option String) :
    Except Exc Alias :=
  match st.regions with
  | .none | .some [] =>
    .error (.other "RegionNotConfiguredError: BOUNDARY_REGIONS is not configured; no regional routing is active.")
  | .some regions =>
    let unconfigured := Exc.other ("RegionNotConfiguredError: Tenant " ++ pk ++ " has region " ++ repr region ++
      ", which is not in BOUNDARY_REGIONS (" ++ formatList repr regions.mergeSort ++ ").")
    match region with
    | .none => .error unconfigured
    | .some region => if region = "" ∨ region ∉ regions then .error unconfigured else .ok region

end Boundary
