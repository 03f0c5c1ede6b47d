/-
Well-nested runs: a task that enters and leaves the package's scopes, the
admin bypass, `transaction.atomic` and `specific_region`, and issues
statements of its own, in any order that nests.

Every exception can be raised and caught anywhere. A block whose entry
raises is not entered and the run goes on where it was; an open block can
be left by an exception at any time (`leave true`), and the run goes on in
the block around it.
-/
import Boundary.Routing

namespace Boundary

open Exec

/-- A block the task is in, with what its exit needs. -/
inductive Block where
  | atomic (using_ : Alias)
  | usingScope (scope : TenantContext.UsingScope)
  /-- Between `token = set(tenant, using=base)` and `clear(token, using=base)`. -/
  | setScope (token : Token) (base : Alias)
  | bypass (using_ : Alias) (scope : BypassScope)
  | specificRegion (token : Option String)

inductive Action where
  /-- A statement of the task's own, in order or not. -/
  | statement (using_ : Alias) (inOrder : Bool)
  | enterAtomic (using_ : Alias) (savepoint : Bool)
  | enterUsing (tenant : Option TenantRef) (using_ : Alias)
  | enterSet (tenant : Option TenantRef) (using_ : Alias)
  | enterBypass (using_ : Alias) (receiver : Option Exc)
  | enterRegion (region : String)
  /-- Leave the innermost block, by an exception or not. -/
  | leave (failed : Bool)

structure Config where
  world : World
  /-- The open blocks, innermost first. -/
  stack : List Block

/-- The connection after a statement of the task on it, one the server finds
in order or one it finds in error. -/
def Connection.afterStatement (inOrder : Bool) (c : Connection) : Connection :=
  if inOrder then (c.execute id).2
  else { ({ c with faults := true :: c.faults }.execute id).2 with faults := c.faults }

def World.onConnection (w : World) (a : Alias) (f : Connection → Connection) : World :=
  { w with connections := Function.update w.connections a (f (w.connections a)) }

/-- A block that is entered is on the stack; one whose entry raises is not. -/
def Config.entered (c : Config) (block : α → Block) : EStateM.Result Exc World α → Config
  | .ok scope w => ⟨w, block scope :: c.stack⟩
  | .error _ w => ⟨w, c.stack⟩

/-- `with specific_region(region)`, entered. -/
def specificRegionEnter (region : String) : M (Option String) := fun w =>
  .ok w.contextVars.regionOverride { w with contextVars := { w.contextVars with regionOverride := .some region } }

def specificRegionExit (token : Option String) : M Unit := fun w =>
  .ok () { w with contextVars := { w.contextVars with regionOverride := token } }

/-- Leave a block. -/
def Block.exit (st : Settings) (failed : Bool) : Block → M Unit
  | .atomic a => db (onCell a (·.atomicExit failed))
  | .usingScope scope => TenantContext.usingExit st scope failed
  | .setScope token base => TenantContext.clear st token base
  | .bypass a scope => adminBypassExit st a scope failed
  | .specificRegion token => specificRegionExit token

def step (st : Settings) (c : Config) : Action → Config
  | .statement a inOrder =>
    if (st.databases a).isNone then c
    else { c with world := c.world.onConnection a (·.afterStatement inOrder) }
  | .enterAtomic a savepoint =>
    if (st.databases a).isNone then c
    else c.entered (fun _ => .atomic a) (db (onCell a (·.atomicEnter savepoint)) c.world)
  | .enterUsing t base => c.entered .usingScope (TenantContext.usingEnter st t base c.world)
  | .enterSet t base => c.entered (.setScope · base) (TenantContext.set st t base c.world)
  | .enterBypass a receiver => c.entered (.bypass a) (adminBypassEnter st a receiver c.world)
  | .enterRegion region => c.entered .specificRegion (specificRegionEnter region c.world)
  | .leave failed =>
    match c.stack with
    | [] => c
    | b :: rest => ⟨after (b.exit st failed) c.world, rest⟩

/-! ## What a stack of blocks says -/

namespace Block

/-- The aliases the block opened a transaction or a savepoint on. -/
def opened : Block → List Alias
  | .atomic a => [a]
  | .usingScope scope => scope.opened
  | .setScope _ _ => []
  | .bypass a (.active _ _ true) => [a]
  | .bypass _ _ => []
  | .specificRegion _ => []

/-- The context variables outside the block, given those inside it. -/
def outer (v : ContextVars) : Block → ContextVars
  | .atomic _ => v
  | .usingScope scope => { v with currentTenant := scope.token }
  | .setScope token _ => { v with currentTenant := token }
  | .bypass _ (.active depthToken _ _) => { v with adminBypassDepth := depthToken }
  | .bypass _ .quiet => v
  | .specificRegion token => { v with regionOverride := token }

end Block

/-- The contexts in which the open blocks opened a transaction or savepoint
on the alias, innermost first. -/
def contextsOf (a : Alias) : List Block → ContextVars → List ContextVars
  | [], _ => []
  | b :: rest, v =>
    if a ∈ b.opened then b.outer v :: contextsOf a rest (b.outer v) else contextsOf a rest (b.outer v)

/-! ## A deployment with two regions -/

namespace TwoRegions

def settings : Settings where
  databases a := if a ∈ ["default", "eu", "us"] then .some .postgresql else .none
  regions := .some ["eu", "us"]

/-- Tenant 0 in no region, tenant 1 in `eu`, the others in `us`. -/
def tenants : TenantRef → Tenant
  | 0 => { pk := .int 1 }
  | 1 => { pk := .int 2, region := .some "eu" }
  | _ => { pk := .int 3, region := .some "us" }

/-- Every connection open, in autocommit, and no tenant active. -/
def autocommit : World where
  tenants := tenants
  connections _ := { handle := .some .autocommit }

/-- Every connection in a transaction, nothing set, and no tenant active. -/
def ambient : World where
  tenants := tenants
  connections _ := { handle := .some (.transaction { current := .idle }) }

end TwoRegions

end Boundary
