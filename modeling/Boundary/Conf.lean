/-
The settings and the tenants the package reads (`boundary.conf`, the tenant
model's instances).
-/
import Mathlib.Init

namespace Boundary

/-- The name of a connection in `DATABASES`. -/
abbrev Alias := String

/-- `connection.vendor`. -/
inductive Vendor where
  | postgresql
  | other (name : String)
deriving DecidableEq

/-- `boundary_settings`, with the databases of the deployment. -/
structure Settings where
  /-- `DATABASES`: the configured aliases. -/
  databases : Alias → Option Vendor
  /-- The keys of `BOUNDARY_REGIONS`. -/
  regions : Option (List String) := .none
  wrapAtomic : Bool := true
  setDbSessionVar : Bool := true
  dbSessionVar : String := "app.current_tenant_id"
  adminFlagVar : String := "app.boundary_admin"
  strictMode : Bool := true
  tenantLabel : String := "tenant"

/-- A tenant's primary key. -/
inductive PrimaryKey where
  | int (value : Int)
  | uuid (value : BitVec 128)
deriving DecidableEq

/-- The hexadecimal digits of the block of a UUID that ends `low` bits from
its end and is `digits` digits long. -/
def PrimaryKey.block (value : BitVec 128) (low digits : Nat) : String :=
  (value.extractLsb' low (4 * digits)).toHex

/-- `str(pk)`. -/
def PrimaryKey.str : PrimaryKey → String
  | .int value => toString value
  | .uuid value =>
    PrimaryKey.block value 96 8 ++ "-" ++ PrimaryKey.block value 80 4 ++ "-" ++
      PrimaryKey.block value 64 4 ++ "-" ++ PrimaryKey.block value 48 4 ++ "-" ++
      PrimaryKey.block value 0 12

/-- A tenant instance: its key, the value of the field `BOUNDARY_REGION_FIELD`
names (if it has that field), and its `is_active` (if it has one). -/
structure Tenant where
  pk : PrimaryKey
  region : Option String := .none
  isActive : Option Bool := .none

theorem PrimaryKey.str_ne_empty (pk : PrimaryKey) : pk.str ≠ "" := by
  cases pk with
  | int value =>
    cases value with
    | ofNat n => exact Nat.repr_ne_empty
    | negSucc n =>
      intro h
      simp [PrimaryKey.str, toString, Int.repr, String.append_eq_empty_iff] at h
  | uuid value =>
    intro h
    simp [PrimaryKey.str, String.append_eq_empty_iff] at h

end Boundary
