/-
`boundary.context`: the active tenant of a task (a `ContextVar`) and the
session variable that row-level security reads, on every connection the
tenant's queries go to.

A context manager is modelled as its two halves (`usingEnter`, `usingExit`),
joined in `TenantContext.withUsing`. Logging is left out.
-/
import Boundary.Database

namespace Boundary

open Exec

/-- A tenant instance, by identity: its attributes are in `World.tenants`. -/
abbrev TenantRef := Nat

/-- What a `ContextVar.set` returns: the value it replaced. -/
abbrev Token := Option TenantRef

/-- The context variables of the running task: `_current_tenant`,
`_admin_bypass_depth` (an alias it does not hold counts 0) and
`routing._region_override`. -/
structure ContextVars where
  currentTenant : Option TenantRef := .none
  adminBypassDepth : Alias → Nat := fun _ => 0
  regionOverride : Option String := .none

structure World where
  contextVars : ContextVars := {}
  tenants : TenantRef → Tenant
  connections : Connections

abbrev M := EStateM Exc World

/-- Run what needs the connections alone. -/
def db (x : Db α) : M α := zoom World.connections (fun cs w => { w with connections := cs }) x

/-! ## Aliases -/

def regionalAlias (st : Settings) (tenant : Option Tenant) : Option Alias :=
  match tenant with
  | .none => .none
  | .some t =>
    match st.regions with
    | .none | .some [] => .none
    | .some regions =>
      match t.region with
      | .none => .none
      | .some region =>
        if region = "" ∨ region ∉ regions ∨ region = "default" then .none else .some region

def targetAliases (st : Settings) (tenant : Option Tenant) : List Alias :=
  let aliases := ["default"]
  match regionalAlias st tenant with
  | .some regional => if regional ∉ aliases then aliases ++ [regional] else aliases
  | .none => aliases

def isPostgresql (st : Settings) (using_ : Alias) : Bool :=
  match st.databases using_ with
  | .some vendor => vendor == .postgresql
  -- `ConnectionDoesNotExist`
  | .none => false

/-- `_ensure_atomic(using).__enter__`; answers whether it is the manager of
a transaction it opened, and not a `nullcontext`. -/
def ensureAtomic (st : Settings) (using_ : Alias) : Db Bool :=
  if (st.databases using_).isNone then pure false
  else if !st.wrapAtomic then pure false
  else onCell using_ fun c =>
    if c.inAtomicBlock then (.ok false, c)
    else
      match c.atomicEnter true with
      | (.ok _, c) => (.ok true, c)
      | (.error e, c) => (.error e, c)

/-- Leave the transactions opened on the aliases, the last opened first. -/
def exitAtomics (failed : Bool) (opened : List Alias) : Db Unit :=
  forM opened.reverse fun a => attempt (onCell a (·.atomicExit failed))

/-- `stack.enter_context(_ensure_atomic(alias))` for each alias, of an
`ExitStack`, which leaves what it holds when a later one fails. Answers the
aliases a transaction was opened on. -/
def enterAtomics (st : Settings) : List Alias → Db (List Alias)
  | [] => pure []
  | a :: aliases => do
    let mine ← ensureAtomic st a
    let opened ← onError (enterAtomics st aliases) (exitAtomics true (if mine then [a] else []))
    pure (if mine then a :: opened else opened)

/-! ## The session variable -/

/-- The gates of `_set_db_session` and `_clear_db_session`: the opt-out, the
vendor, and a connection that was opened. -/
def setDbSessionOn (st : Settings) (using_ : Alias) (value : String) (c : Connection) : Except Exc Unit × Connection :=
  if !st.setDbSessionVar then (.ok (), c)
  else if !isPostgresql st using_ then (.ok (), c)
  else if c.opened then c.run (setConfig st.dbSessionVar value)
  else (.ok (), c)

def setDbSession (st : Settings) (tenantId : String) (using_ : Alias) : Db Unit :=
  onCell using_ (setDbSessionOn st using_ tenantId)

def clearDbSession (st : Settings) (using_ : Alias) : Db Unit :=
  onCell using_ (setDbSessionOn st using_ "")

namespace TenantContext

def aliasesFor (st : Settings) (tenant : Option Tenant) (using_ : Alias) : List Alias :=
  (targetAliases st tenant).foldl
    (fun aliases a => if a ≠ using_ ∧ a ∉ aliases then aliases ++ [a] else aliases) [using_]

def get : M (Option TenantRef) := fun w => .ok w.contextVars.currentTenant w

def require (st : Settings) : M TenantRef := do
  match ← get with
  | .none =>
    throw <| .tenantNotSetError <|
      "No " ++ st.tenantLabel ++ " is active in context. Set a " ++ st.tenantLabel ++
        " via TenantContext.using() or TenantMiddleware."
  | .some tenant => pure tenant

/-- `_current_tenant.set`. -/
def setVar (tenant : Option TenantRef) : M Token := fun w =>
  .ok w.contextVars.currentTenant { w with contextVars := { w.contextVars with currentTenant := tenant } }

/-- `_current_tenant.reset`. -/
def resetVar (token : Token) : M Unit := fun w =>
  .ok () { w with contextVars := { w.contextVars with currentTenant := token } }

/-- A tenant instance's attributes, now. -/
def attributes (tenant : TenantRef) : M Tenant := fun w => .ok (w.tenants tenant) w

def set (st : Settings) (tenant : Option TenantRef) (using_ : Alias) : M Token := do
  let token ← setVar tenant
  onError
    (match tenant with
    | .none => pure ()
    | .some t => do
      let t ← attributes t
      db (forM (aliasesFor st (.some t) using_) (setDbSession st t.pk.str)))
    (resetVar token)
  pure token

/-- What `clear` and the exit of `using` do after resetting the context
variable: clear the session variable on the aliases of the scope that ends,
then make it the previous tenant's again. -/
def restore (st : Settings) (aliases : List Alias) (previous : Option TenantRef) (using_ : Alias) : M Unit := do
  db (forM aliases fun a => attempt (clearDbSession st a))
  match previous with
  | .none => pure ()
  | .some p => do
    let p ← attributes p
    db (forM (aliasesFor st (.some p) using_) fun a => attempt (setDbSession st p.pk.str a))

def clear (st : Settings) (token : Token) (using_ : Alias) : M Unit := do
  let active ← get
  resetVar token
  let previous ← get
  match active with
  | .some active => do
    let active ← attributes active
    restore st (aliasesFor st (.some active) using_) previous using_
  | .none => restore st [using_] previous using_

/-- What a `using` block holds between its entry and its exit. -/
structure UsingScope where
  previous : Option TenantRef
  token : Token
  base : Alias
  aliases : List Alias
  opened : List Alias

/-- The attributes of a tenant that may be `None`. -/
def attributes? : Option TenantRef → M (Option Tenant)
  | .none => pure .none
  | .some t => do
    let t ← attributes t
    pure (.some t)

def usingEnter (st : Settings) (tenant : Option TenantRef) (using_ : Alias) : M UsingScope := do
  let previous ← get
  let t ← attributes? tenant
  let aliases := aliasesFor st t using_
  let opened ← db (enterAtomics st aliases)
  let token ← onError (set st tenant using_) (db (exitAtomics true opened))
  pure { previous, token, base := using_, aliases, opened }

def usingExit (st : Settings) (scope : UsingScope) (failed : Bool) : M Unit := do
  resetVar scope.token
  restore st scope.aliases scope.previous scope.base
  db (exitAtomics failed scope.opened)

/-- `with TenantContext.using(tenant, using=using_): body`. -/
def withUsing (st : Settings) (tenant : Option TenantRef) (using_ : Alias) (body : M α) : M α := do
  let scope ← usingEnter st tenant using_
  ensuring body (usingExit st scope)

/-- `token = TenantContext.set(tenant, using=using_); body;
TenantContext.clear(token, using=using_)`. -/
def setThenClear (st : Settings) (tenant : Option TenantRef) (using_ : Alias) (body : M α) : M α := do
  let token ← set st tenant using_
  let result ← body
  clear st token using_
  pure result

end TenantContext

/-! ## The admin bypass -/

/-- What an `admin_bypass` block holds between its entry and its exit. -/
inductive BypassScope where
  /-- The alias does not speak PostgreSQL: nothing to undo. -/
  | quiet
  | active (depthToken : Alias → Nat) (alreadyActive opened : Bool)

def adminBypassNotActive (st : Settings) (using_ : Alias) : Exc :=
  .adminBypassNotActiveError <|
    "admin_bypass() set '" ++ st.adminFlagVar ++ "' on alias '" ++ using_ ++
      "' but the read-back did not confirm it is active. This usually means " ++
      "BOUNDARY_WRAP_ATOMIC=False and no transaction was already open, so the " ++
      "transaction-local setting had no scope to persist into. Wrap the call in " ++
      "transaction.atomic(using=...) explicitly, or leave BOUNDARY_WRAP_ATOMIC at its default."

/-- Set the flag and read it back, then `admin_bypass_activated.send`, which
raises what a receiver raises. -/
def activate (st : Settings) (using_ : Alias) (receiver : Option Exc) : Db Unit := do
  onCell using_ (·.run (setConfig st.adminFlagVar "true"))
  let active ← onCell using_ (·.readSetting st.adminFlagVar)
  if active ≠ "true" then throw (adminBypassNotActive st using_)
  match receiver with
  | .some e => throw e
  | .none => pure ()

def getDepth : M (Alias → Nat) := fun w => .ok w.contextVars.adminBypassDepth w

def setDepth (depth : Alias → Nat) : M Unit := fun w =>
  .ok () { w with contextVars := { w.contextVars with adminBypassDepth := depth } }

def adminBypassEnter (st : Settings) (using_ : Alias) (receiver : Option Exc) : M BypassScope :=
  if !isPostgresql st using_ then
    match receiver with
    | .some e => throw e
    | .none => pure .quiet
  else do
    let depth ← getDepth
    setDepth (Function.update depth using_ (depth using_ + 1))
    onError
      (do
        let opened ← db (ensureAtomic st using_)
        db (onError (activate st using_ receiver) (exitAtomics true (if opened then [using_] else [])))
        pure (.active depth (depth using_ > 0) opened))
      (setDepth depth)

def adminBypassExit (st : Settings) (using_ : Alias) (scope : BypassScope) (failed : Bool) : M Unit :=
  match scope with
  | .quiet => pure ()
  | .active depthToken alreadyActive opened => do
    -- Only the block that turned the flag on clears it.
    db (if alreadyActive then pure () else attempt (onCell using_ (·.run (setConfig st.adminFlagVar ""))))
    db (exitAtomics failed (if opened then [using_] else []))
    setDepth depthToken

end Boundary
