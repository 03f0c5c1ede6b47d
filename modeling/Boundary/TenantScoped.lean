/-
`tenant_scoped`: a function run inside `TenantContext.using` of one of its
arguments.

The call of a coroutine function or of a generator function makes an object and
returns it: the body runs when the object is resumed, in the caller's context
and after the scope was left. `coversBody_iff` says for which functions the
scope covers the body.

A body is any program of statements and pauses, and what the caller does between
the resumptions is any program too. `Signature.bind` follows the way Python
binds the arguments of a call.
-/
import Boundary.Run
import Boundary.ContextFacts
import Boundary.Lib.OrderedDict

namespace Boundary

open Exec TenantContext

/-! ## Signatures -/

inductive ParameterKind where
  | positionalOnly
  | positionalOrKeyword
  | varPositional
  | keywordOnly
  | varKeyword
deriving DecidableEq

/-- The kinds come in this order. -/
def ParameterKind.rank : ParameterKind → Nat
  | positionalOnly => 0
  | positionalOrKeyword => 1
  | varPositional => 2
  | keywordOnly => 3
  | varKeyword => 4

/-- `inspect.Parameter`. -/
structure Parameter (ν : Type) where
  name : String
  kind : ParameterKind
  default : Option ν := .none

/-- `inspect.Signature`. -/
structure Signature (ν : Type) where
  parameters : List (Parameter ν)
  nodup : (parameters.map Parameter.name).Nodup
  ordered : parameters.Pairwise fun p q => p.kind.rank ≤ q.kind.rank

/-- What a parameter is bound to. -/
inductive Bound (ν : Type) where
  | value (v : ν)
  | tuple (vs : List ν)
  | dict (items : OrderedDict String ν)

/-- `BoundArguments.arguments`. -/
abbrev BoundArguments (ν : Type) := List (String × Bound ν)

def typeError (message : String) : Exc := .other ("TypeError: " ++ message)

section

variable {ν : Type}

namespace Parameter

def positional (p : Parameter ν) : Bool := p.kind = .positionalOnly || p.kind = .positionalOrKeyword

def takesKeyword (p : Parameter ν) : Bool := p.kind = .positionalOrKeyword || p.kind = .keywordOnly

/-- No argument is left for the parameter. -/
def omitted (repr : String → String) (p : Parameter ν) (kwargs : OrderedDict String ν) :
    Except Exc (Option (Bound ν) × List ν × OrderedDict String ν) :=
  if p.default.isSome then .ok (.none, [], kwargs)
  else .error (typeError ("missing a required argument: " ++ repr p.name))

/-- What the parameter takes of the arguments, and those it leaves. -/
def take (repr : String → String) (p : Parameter ν) (args : List ν) (kwargs : OrderedDict String ν) :
    Except Exc (Option (Bound ν) × List ν × OrderedDict String ν) :=
  match p.kind, args with
  | .positionalOnly, a :: args => .ok (.some (.value a), args, kwargs)
  | .positionalOrKeyword, a :: args =>
    if (kwargs.get? p.name).isSome then .error (typeError ("multiple values for argument " ++ repr p.name))
    else .ok (.some (.value a), args, kwargs)
  | .varPositional, [] => .ok (.none, [], kwargs)
  | .varPositional, a :: args => .ok (.some (.tuple (a :: args)), [], kwargs)
  | .keywordOnly, _ :: _ | .varKeyword, _ :: _ => .error (typeError "too many positional arguments")
  | .positionalOnly, [] => p.omitted repr kwargs
  | .positionalOrKeyword, [] | .keywordOnly, [] =>
    match kwargs.get? p.name with
    | .some v => .ok (.some (.value v), [], kwargs.erase p.name)
    | .none => p.omitted repr kwargs
  -- The keywords no other parameter took.
  | .varKeyword, [] => .ok (if kwargs.entries = [] then .none else .some (.dict kwargs), [], ⟨[], List.nodup_nil⟩)

end Parameter

def bindParameters (repr : String → String) :
    List (Parameter ν) → List ν → OrderedDict String ν → Except Exc (BoundArguments ν)
  | [], _ :: _, _ => .error (typeError "too many positional arguments")
  | [], [], kwargs =>
    match kwargs.entries with
    | (name, _) :: _ => .error (typeError ("got an unexpected keyword argument " ++ repr name))
    | [] => .ok []
  | p :: ps, args, kwargs => do
    let (bound, args, kwargs) ← p.take repr args kwargs
    let rest ← bindParameters repr ps args kwargs
    pure ((bound.map (p.name, ·)).toList ++ rest)

/-- `sig.bind(*args, **kwargs)`. -/
def Signature.bind (repr : String → String) (sig : Signature ν) (args : List ν) (kwargs : OrderedDict String ν) :
    Except Exc (BoundArguments ν) := bindParameters repr sig.parameters args kwargs

/-- What stands for a parameter that nothing is bound to. -/
def Parameter.unbound (p : Parameter ν) : Option (Bound ν) :=
  match p.default, p.kind with
  | .some v, _ => .some (.value v)
  | .none, .varPositional => .some (.tuple [])
  | .none, .varKeyword => .some (.dict ⟨[], List.nodup_nil⟩)
  | .none, _ => .none

/-- `bound.apply_defaults()`. -/
def applyDefaults (parameters : List (Parameter ν)) (arguments : BoundArguments ν) : BoundArguments ν :=
  parameters.filterMap fun p => ((arguments.lookup p.name).or p.unbound).map (p.name, ·)

/-- The call passes `v` for the parameter: positionally, by keyword or by
default. -/
inductive Passes (sig : Signature ν) (args : List ν) (kwargs : OrderedDict String ν) (name : String) (v : ν) : Prop
  | positionally {i : Nat} {p : Parameter ν} : sig.parameters[i]? = .some p → p.name = name → p.positional = true →
      args[i]? = .some v → Passes sig args kwargs name v
  | byKeyword {p : Parameter ν} : p ∈ sig.parameters → p.name = name → p.takesKeyword = true →
      kwargs.get? name = .some v → Passes sig args kwargs name v
  | byDefault {i : Nat} {p : Parameter ν} : sig.parameters[i]? = .some p → p.name = name → p.default = .some v →
      (p.positional = true → args.length ≤ i) → (p.takesKeyword = true → kwargs.get? name = .none) →
      (p.positional = true ∨ p.takesKeyword = true) → Passes sig args kwargs name v

/-! ## Bodies -/

/-- What is left of a body to run; only one that `pauses` waits to be resumed,
with a value it is sent or an exception that is thrown into it. -/
inductive Body (ν : Type) : Bool → Type
  | finish {pauses : Bool} (result : ν) : Body ν pauses
  | raise {pauses : Bool} (e : Exc) : Body ν pauses
  | statement {pauses : Bool} (x : M ν) (next : ν → Body ν pauses) : Body ν pauses
  | pause (next : Except Exc ν → Body ν true) : Body ν true

/-- A statement that ran: the tenant active when it began, and when it was left. -/
structure StatementRun where
  began : Option TenantRef
  left : Option TenantRef
deriving DecidableEq

abbrev Scoping := EStateM Exc (Traced World StatementRun)

/-- How far a body came: to its result, or to a pause. -/
inductive Outcome (ν : Type) where
  | returned (result : ν)
  | suspended (next : Except Exc ν → Body ν true)

def StatementRun.of (w : World) (result : EStateM.Result Exc World ν) : StatementRun where
  began := w.contextVars.currentTenant
  left :=
    match result with
    | .ok _ w' | .error _ w' => w'.contextVars.currentTenant

/-- Run to the end, or to the next pause. -/
def Body.run {pauses : Bool} : Body ν pauses → Scoping (Outcome ν)
  | .finish result => pure (.returned result)
  | .raise e => throw e
  | .statement x next => do
    let v ← observed StatementRun.of x
    (next v).run
  | .pause next => pure (.suspended next)

/-- Code of a function, of its arguments. -/
inductive Code (ν : Type) where
  | plain (body : List ν → OrderedDict String ν → Body ν false)
  | coroutine (body : List ν → OrderedDict String ν → Body ν true)
  | generator (body : List ν → OrderedDict String ν → Body ν true)

structure Callable (ν : Type) where
  qualname : String
  signature : Signature ν
  code : Code ν

/-- A coroutine or a generator that was made and not begun. -/
def unstarted (body : Body ν true) : Except Exc ν → Body ν true
  | .ok _ => body
  | .error e => .raise e

/-- `func(*args, **kwargs)`. -/
def Code.call : Code ν → List ν → OrderedDict String ν → Scoping (Outcome ν)
  | .plain body, args, kwargs => (body args kwargs).run
  | .coroutine body, args, kwargs | .generator body, args, kwargs => pure (.suspended (unstarted (body args kwargs)))

/-! ## The decorator -/

structure ScopedEnv (ν : Type) where
  settings : Settings
  /-- `BOUNDARY_TENANT_FK_FIELD`. -/
  tenantFkField : String := "tenant"
  /-- A value as a tenant instance or `None`; or what `using` raises of it. -/
  asTenant : ν → Except Exc (Option TenantRef)
  repr : String → String

/-- `tenant_arg or boundary_settings.TENANT_FK_FIELD`. -/
def ScopedEnv.argName (env : ScopedEnv ν) (tenantArg : Option String) : String :=
  match tenantArg with
  | .none | .some "" => env.tenantFkField
  | .some name => name

/-- The argument as `using` takes it. -/
def ScopedEnv.tenantOf (env : ScopedEnv ν) : Bound ν → Except Exc (Option TenantRef)
  | .value v => env.asTenant v
  | .tuple _ => .error (.other "AttributeError: 'tuple' object has no attribute 'pk'")
  | .dict _ => .error (.other "AttributeError: 'dict' object has no attribute 'pk'")

/-- The tenant the wrapper finds among the arguments. -/
def scopeTenant (env : ScopedEnv ν) (func : Callable ν) (tenantArg : Option String) (args : List ν)
    (kwargs : OrderedDict String ν) : Except Exc (Option TenantRef) := do
  let argName := env.argName tenantArg
  let bound ← func.signature.bind env.repr args kwargs
  match (applyDefaults func.signature.parameters bound).lookup argName with
  | .none =>
    .error (typeError ("tenant_scoped: " ++ func.qualname ++ " has no argument " ++ env.repr argName ++
      " to scope by."))
  | .some tenant => env.tenantOf tenant

/-- `tenant_scoped(tenant_arg)(func)`, called. -/
def wrapper (env : ScopedEnv ν) (func : Callable ν) (tenantArg : Option String) (args : List ν)
    (kwargs : OrderedDict String ν) : Scoping (Outcome ν) := do
  let tenant ← ofExcept (scopeTenant env func tenantArg args kwargs)
  let scope ← lift (usingEnter env.settings tenant "default")
  ensuring (func.code.call args kwargs) fun failed => lift (usingExit env.settings scope failed)

/-! ## The caller -/

/-- What the caller does once it was given a coroutine or a generator: code of
its own, a switch to another task with it, or a resumption. -/
inductive CallerStep (ν : Type) where
  | own (x : M Unit)
  | resume (sent : Except Exc ν)

/-- A stretch in which the body ran: the tenant active before it and after it,
its statements, and whether the body has finished. -/
structure Activation where
  found : Option TenantRef
  statements : List StatementRun
  left : Option TenantRef
  finished : Bool

def Activation.of (w : World) (result : EStateM.Result Exc (Traced World StatementRun) (Outcome ν)) : Activation where
  found := w.contextVars.currentTenant
  statements :=
    match result with
    | .ok _ s | .error _ s => s.calls
  left :=
    match result with
    | .ok _ s | .error _ s => s.state.contextVars.currentTenant
  finished :=
    match result with
    | .ok (.suspended _) _ => false
    | .ok (.returned _) _ | .error _ _ => true

/-- The activations of an object, up to its end. -/
def activations : List (CallerStep ν) → (Except Exc ν → Body ν true) → World → List Activation
  | [], _, _ => []
  | .own x :: steps, next, w => activations steps next (after x w)
  | .resume sent :: steps, next, w =>
    Activation.of w ((next sent).run ⟨w, []⟩) ::
      match (next sent).run ⟨w, []⟩ with
      | .ok (.suspended next) s => activations steps next s.state
      | .ok (.returned _) _ | .error _ _ => []

/-- The activations of the body in a call of the decorated function, after which
the caller takes the steps. -/
def callActivations (env : ScopedEnv ν) (func : Callable ν) (tenantArg : Option String) (args : List ν)
    (kwargs : OrderedDict String ν) (steps : List (CallerStep ν)) (w : World) : List Activation :=
  match func.code, wrapper env func tenantArg args kwargs ⟨w, []⟩ with
  | .plain _, result => [Activation.of w result]
  | .coroutine _, .ok (.suspended next) s | .generator _, .ok (.suspended next) s => activations steps next s.state
  | .coroutine _, _ | .generator _, _ => []

/-! ## Covering the body -/

/-- No statement left another tenant active than it began with. -/
def LeftAlone (statements : List StatementRun) : Prop := ∀ r ∈ statements, r.left = r.began

/-- Every statement begins with the tenant active, as long as none before it has
changed the active tenant itself. -/
def BeginIn (tenant : Option TenantRef) (statements : List StatementRun) : Prop :=
  ∀ pre r post, statements = pre ++ r :: post → LeftAlone pre → r.began = tenant

/-- Every statement of the body, from its first to its last, begins with the
tenant active; and once the body has finished, the tenant active before its
first statement is so again. -/
structure CoversBody (tenant : Option TenantRef) (run : List Activation) : Prop where
  active : BeginIn tenant (run.flatMap Activation.statements)
  restored : ∀ first, run.find? (·.statements ≠ []) = .some first → ∀ a ∈ run, a.finished = true →
    a.left = first.found

/-- Whatever tenant a call passes, in whatever context it is made and whatever
the caller does then, the scope covers the body. -/
def ScopeCovers (env : ScopedEnv ν) (func : Callable ν) (tenantArg : Option String) : Prop :=
  ∀ args kwargs v tenant w steps, Passes func.signature args kwargs (env.argName tenantArg) v →
    env.asTenant v = .ok tenant → CoversBody tenant (callActivations env func tenantArg args kwargs steps w)

def Code.IsPlain : Code ν → Prop
  | .plain _ => True
  | .coroutine _ | .generator _ => False

/-- Resumed in some way, the body comes to a statement. -/
inductive Body.Reaches : Body ν true → Prop
  | statement (x : M ν) (next : ν → Body ν true) : Reaches (.statement x next)
  | pause (next : Except Exc ν → Body ν true) (sent : Except Exc ν) : Reaches (next sent) → Reaches (.pause next)

/-- The body a call runs later. -/
def Code.later : Code ν → List ν → OrderedDict String ν → Option (Body ν true)
  | .plain _, _, _ => .none
  | .coroutine body, args, kwargs | .generator body, args, kwargs => .some (body args kwargs)

/-- Some call that passes a tenant, and enters its scope, has a statement to run
later. -/
def RunsLater (env : ScopedEnv ν) (func : Callable ν) (tenantArg : Option String) : Prop :=
  ∃ args kwargs v tenant w scope w' bound body, Passes func.signature args kwargs (env.argName tenantArg) v ∧
    env.asTenant v = .ok tenant ∧ func.signature.bind env.repr args kwargs = .ok bound ∧
    usingEnter env.settings tenant "default" w = .ok scope w' ∧ func.code.later args kwargs = .some body ∧ body.Reaches

/-! ## Binding -/

section

variable {repr : String → String} {p q : Parameter ν} {ps : List (Parameter ν)} {args args' : List ν}
  {kwargs kwargs' : OrderedDict String ν} {bound : Option (Bound ν)} {arguments : BoundArguments ν} {v : ν} {i : Nat}

/-- What a parameter takes of the arguments, and what it leaves. -/
inductive Taken (p : Parameter ν) :
    List ν → OrderedDict String ν → Option (Bound ν) → List ν → OrderedDict String ν → Prop
  | positional {a : ν} {args : List ν} {kwargs : OrderedDict String ν} : p.positional = true →
      (p.takesKeyword = true → kwargs.get? p.name = .none) → Taken p (a :: args) kwargs (.some (.value a)) args kwargs
  | keyword {v : ν} {kwargs : OrderedDict String ν} : p.takesKeyword = true → kwargs.get? p.name = .some v →
      Taken p [] kwargs (.some (.value v)) [] (kwargs.erase p.name)
  | omitted {kwargs : OrderedDict String ν} : (p.takesKeyword = true → kwargs.get? p.name = .none) →
      Taken p [] kwargs .none [] kwargs
  | varPositional {args : List ν} {kwargs : OrderedDict String ν} {bound : Option (Bound ν)} :
      p.kind = .varPositional → Taken p args kwargs bound [] kwargs
  | varKeyword {kwargs : OrderedDict String ν} {bound : Option (Bound ν)} :
      p.kind = .varKeyword → Taken p [] kwargs bound [] ⟨[], List.nodup_nil⟩

theorem taken_of_omitted (hnot : p.takesKeyword = true → kwargs.get? p.name = .none)
    (h : p.omitted repr kwargs = .ok (bound, args', kwargs')) : Taken p [] kwargs bound args' kwargs' := by
  unfold Parameter.omitted at h
  split at h
  · cases h
    exact .omitted hnot
  · cases h

/-- With no positional argument left, a parameter that may be passed by keyword
is, or is left out. -/
theorem taken_of_keyword (hkeyword : p.takesKeyword = true) (h : p.take repr [] kwargs = .ok (bound, args', kwargs')) :
    Taken p [] kwargs bound args' kwargs' := by
  unfold Parameter.take at h
  cases hkind : p.kind with
  | positionalOrKeyword | keywordOnly =>
    simp only [hkind] at h
    split at h
    · next hget =>
      cases h
      exact .keyword hkeyword hget
    · next hget => exact taken_of_omitted (fun _ => hget) h
  | positionalOnly | varPositional | varKeyword => simp [Parameter.takesKeyword, hkind] at hkeyword

theorem taken_of_take (h : p.take repr args kwargs = .ok (bound, args', kwargs')) :
    Taken p args kwargs bound args' kwargs' := by
  cases hkind : p.kind with
  | positionalOnly =>
    have hnot : p.takesKeyword = false := by simp [Parameter.takesKeyword, hkind]
    cases args with
    | nil =>
      simp only [Parameter.take, hkind] at h
      exact taken_of_omitted (fun hkeyword => by simp [hnot] at hkeyword) h
    | cons a args =>
      simp only [Parameter.take, hkind] at h
      cases h
      exact .positional (by simp [Parameter.positional, hkind]) fun hkeyword => by simp [hnot] at hkeyword
  | positionalOrKeyword =>
    cases args with
    | nil => exact taken_of_keyword (by simp [Parameter.takesKeyword, hkind]) h
    | cons a args =>
      simp only [Parameter.take, hkind] at h
      split at h
      · cases h
      · next hget =>
        cases h
        exact .positional (by simp [Parameter.positional, hkind]) fun _ => by simpa using hget
  | varPositional =>
    cases args <;> simp only [Parameter.take, hkind] at h <;> cases h <;> exact .varPositional hkind
  | keywordOnly =>
    cases args with
    | nil => exact taken_of_keyword (by simp [Parameter.takesKeyword, hkind]) h
    | cons a args =>
      simp only [Parameter.take, hkind] at h
      cases h
  | varKeyword =>
    cases args with
    | nil =>
      simp only [Parameter.take, hkind] at h
      cases h
      exact .varKeyword hkind
    | cons a args =>
      simp only [Parameter.take, hkind] at h
      cases h

theorem bindParameters_cons (h : bindParameters repr (p :: ps) args kwargs = .ok arguments) :
    ∃ bound args' kwargs' rest, Taken p args kwargs bound args' kwargs' ∧
      bindParameters repr ps args' kwargs' = .ok rest ∧ arguments = (bound.map (p.name, ·)).toList ++ rest := by
  simp only [bindParameters] at h
  cases htake : p.take repr args kwargs with
  | error e =>
    rw [htake] at h
    cases h
  | ok taken =>
    obtain ⟨bound, args', kwargs'⟩ := taken
    rw [htake] at h
    cases hrest : bindParameters repr ps args' kwargs' with
    | error e =>
      simp only [bind, Except.bind, hrest] at h
      cases h
    | ok rest =>
      simp only [bind, Except.bind, hrest] at h
      cases h
      exact ⟨bound, args', kwargs', rest, taken_of_take htake, hrest, rfl⟩

theorem lookup_skip {name : String} {rest : BoundArguments ν} (hne : name ≠ p.name) :
    ((bound.map (p.name, ·)).toList ++ rest).lookup name = rest.lookup name := by
  cases bound with
  | none => rfl
  | some b =>
    have hbeq : (name == p.name) = false := by simpa using hne
    simp [List.lookup_cons, hbeq]

theorem bindParameters_nil (h : bindParameters repr [] args kwargs = .ok arguments) : args = [] ∧ arguments = [] := by
  cases args with
  | cons a args => cases h
  | nil =>
    simp only [bindParameters] at h
    split at h
    · cases h
    · cases h
      exact ⟨rfl, rfl⟩

/-- Only the parameters are bound. -/
theorem lookup_bindParameters_of_notMem {name : String} :
    ∀ {ps : List (Parameter ν)} {args : List ν} {kwargs : OrderedDict String ν} {arguments : BoundArguments ν},
      bindParameters repr ps args kwargs = .ok arguments → name ∉ ps.map Parameter.name → arguments.lookup name = .none
  | [], args, kwargs, arguments, h, _ => by
    rw [(bindParameters_nil h).2]
    rfl
  | p :: ps, args, kwargs, arguments, h, hnot => by
    obtain ⟨bound, args', kwargs', rest, -, hrest, rfl⟩ := bindParameters_cons h
    rw [List.map_cons, List.mem_cons, not_or] at hnot
    rw [lookup_skip hnot.1]
    exact lookup_bindParameters_of_notMem hrest hnot.2

theorem positional_rank (h : p.positional = true) : p.kind.rank ≤ 1 := by
  unfold Parameter.positional at h
  cases hkind : p.kind <;> simp [hkind, ParameterKind.rank] at h ⊢

theorem takesKeyword_rank (h : p.takesKeyword = true) : p.kind.rank ≤ 3 := by
  unfold Parameter.takesKeyword at h
  cases hkind : p.kind <;> simp [hkind, ParameterKind.rank] at h ⊢

/-- Positional arguments go to the positional parameters, one after another. -/
theorem lookup_bindParameters_positional :
    ∀ {ps : List (Parameter ν)} {args : List ν} {kwargs : OrderedDict String ν} {arguments : BoundArguments ν}
      {i : Nat}, (ps.map Parameter.name).Nodup → ps.Pairwise (fun p q => p.kind.rank ≤ q.kind.rank) →
      bindParameters repr ps args kwargs = .ok arguments → ps[i]? = .some p → p.positional = true →
      args[i]? = .some v → arguments.lookup p.name = .some (.value v)
  | [], _, _, _, _, _, _, _, hp, _, _ => by cases hp
  | q :: ps, args, kwargs, arguments, i, hnodup, hordered, h, hp, hpos, hv => by
    obtain ⟨bound, args', kwargs', rest, htaken, hrest, rfl⟩ := bindParameters_cons h
    rw [List.map_cons, List.nodup_cons] at hnodup
    rw [List.pairwise_cons] at hordered
    cases i with
    | zero =>
      cases hp
      cases htaken with
      | positional _ _ =>
        cases hv
        simp
      | keyword _ _ | omitted _ | varKeyword _ => cases hv
      | varPositional hkind =>
        have hrank := positional_rank hpos
        rw [hkind] at hrank
        cases hrank with | step h => cases h
    | succ i =>
      have hmem : p ∈ ps := List.mem_of_getElem? hp
      have hne : p.name ≠ q.name := fun he => hnodup.1 (he ▸ List.mem_map_of_mem hmem)
      rw [lookup_skip hne]
      cases htaken with
      | positional _ _ => exact lookup_bindParameters_positional hnodup.2 hordered.2 hrest hp hpos hv
      | keyword _ _ | omitted _ | varKeyword _ => cases hv
      | varPositional hkind =>
        have hrank := (hordered.1 p hmem).trans (positional_rank hpos)
        rw [hkind] at hrank
        cases hrank with | step h => cases h

/-- What is left of the keywords still has those of the parameters to come. -/
theorem Taken.get? {p' : Parameter ν} (h : Taken q args kwargs bound args' kwargs') (hne : p'.name ≠ q.name)
    (hrank : q.kind.rank ≤ p'.kind.rank) (hkeyword : p'.takesKeyword = true) :
    kwargs'.get? p'.name = kwargs.get? p'.name := by
  cases h with
  | positional _ _ | omitted _ | varPositional _ => rfl
  | keyword _ _ => exact OrderedDict.get?_erase_of_ne hne
  | varKeyword hkind =>
    have hle := hrank.trans (takesKeyword_rank hkeyword)
    rw [hkind] at hle
    exact absurd hle (by decide)

/-- A keyword goes to the parameter of its name. -/
theorem lookup_bindParameters_keyword :
    ∀ {ps : List (Parameter ν)} {args : List ν} {kwargs : OrderedDict String ν} {arguments : BoundArguments ν},
      (ps.map Parameter.name).Nodup → ps.Pairwise (fun p q => p.kind.rank ≤ q.kind.rank) →
      bindParameters repr ps args kwargs = .ok arguments → p ∈ ps → p.takesKeyword = true →
      kwargs.get? p.name = .some v → arguments.lookup p.name = .some (.value v)
  | [], _, _, _, _, _, _, hp, _, _ => by simp at hp
  | q :: ps, args, kwargs, arguments, hnodup, hordered, h, hp, hkeyword, hv => by
    obtain ⟨bound, args', kwargs', rest, htaken, hrest, rfl⟩ := bindParameters_cons h
    rw [List.map_cons, List.nodup_cons] at hnodup
    rw [List.pairwise_cons] at hordered
    rcases List.mem_cons.mp hp with rfl | hp
    · cases htaken with
      | positional _ hnot | omitted hnot =>
        rw [hnot hkeyword] at hv
        cases hv
      | keyword _ hget =>
        rw [hget] at hv
        cases hv
        simp
      | varPositional hkind | varKeyword hkind => simp [Parameter.takesKeyword, hkind] at hkeyword
    · have hne : p.name ≠ q.name := fun he => hnodup.1 (he ▸ List.mem_map_of_mem hp)
      rw [lookup_skip hne]
      rw [← htaken.get? hne (hordered.1 p hp) hkeyword] at hv
      exact lookup_bindParameters_keyword hnodup.2 hordered.2 hrest hp hkeyword hv

/-- A parameter that no argument is passed for is not bound. -/
theorem lookup_bindParameters_omitted :
    ∀ {ps : List (Parameter ν)} {args : List ν} {kwargs : OrderedDict String ν} {arguments : BoundArguments ν}
      {i : Nat}, (ps.map Parameter.name).Nodup → ps.Pairwise (fun p q => p.kind.rank ≤ q.kind.rank) →
      bindParameters repr ps args kwargs = .ok arguments → ps[i]? = .some p →
      (p.positional = true → args.length ≤ i) → (p.takesKeyword = true → kwargs.get? p.name = .none) →
      (p.positional = true ∨ p.takesKeyword = true) → arguments.lookup p.name = .none
  | [], _, _, _, _, _, _, _, hp, _, _, _ => by cases hp
  | q :: ps, args, kwargs, arguments, i, hnodup, hordered, h, hp, hpos, hkeyword, hone => by
    obtain ⟨bound, args', kwargs', rest, htaken, hrest, rfl⟩ := bindParameters_cons h
    rw [List.map_cons, List.nodup_cons] at hnodup
    rw [List.pairwise_cons] at hordered
    cases i with
    | zero =>
      cases hp
      cases htaken with
      | positional hp _ => exact absurd (hpos hp) (by simp)
      | keyword hk hget =>
        rw [hkeyword hk] at hget
        cases hget
      | omitted _ => exact lookup_bindParameters_of_notMem hrest hnodup.1
      | varPositional hkind | varKeyword hkind => simp [Parameter.positional, Parameter.takesKeyword, hkind] at hone
    | succ i =>
      have hmem : p ∈ ps := List.mem_of_getElem? hp
      have hne : p.name ≠ q.name := fun he => hnodup.1 (he ▸ List.mem_map_of_mem hmem)
      rw [lookup_skip hne]
      refine lookup_bindParameters_omitted hnodup.2 hordered.2 hrest hp (fun hp => ?_) (fun hk => ?_) hone
      · have hlength := hpos hp
        cases htaken with
        | positional _ _ => simpa using hlength
        | keyword _ _ | omitted _ | varPositional _ | varKeyword _ => simp
      · rw [htaken.get? hne (hordered.1 p hmem) hk]
        exact hkeyword hk

theorem applyDefaults_cons : applyDefaults (p :: ps) arguments =
    (((arguments.lookup p.name).or p.unbound).map (p.name, ·)).toList ++ applyDefaults ps arguments := by
  unfold applyDefaults
  rw [List.filterMap_cons]
  cases (arguments.lookup p.name).or p.unbound <;> rfl

/-- A parameter's default stands where nothing is bound. -/
theorem lookup_applyDefaults (h : arguments.lookup p.name = .some (.value v) ∨
    arguments.lookup p.name = .none ∧ p.default = .some v) :
    ∀ {ps : List (Parameter ν)}, (ps.map Parameter.name).Nodup → p ∈ ps →
      (applyDefaults ps arguments).lookup p.name = .some (.value v)
  | [], _, hp => by simp at hp
  | q :: ps, hnodup, hp => by
    rw [List.map_cons, List.nodup_cons] at hnodup
    rw [applyDefaults_cons]
    rcases List.mem_cons.mp hp with rfl | hp
    · have hbound : (arguments.lookup p.name).or p.unbound = .some (.value v) := by
        rcases h with hlookup | ⟨hlookup, hdefault⟩
        · rw [hlookup]
          rfl
        · simp [hlookup, Parameter.unbound, hdefault]
      simp [hbound]
    · have hne : p.name ≠ q.name := fun he => hnodup.1 (he ▸ List.mem_map_of_mem hp)
      rw [lookup_skip hne]
      exact lookup_applyDefaults h hnodup.2 hp

/-- The value a call passes is the one the wrapper finds. -/
theorem lookup_of_passes {sig : Signature ν} {name : String} (hbind : sig.bind repr args kwargs = .ok arguments)
    (h : Passes sig args kwargs name v) : (applyDefaults sig.parameters arguments).lookup name = .some (.value v) := by
  cases h with
  | positionally hp hname hpos hv =>
    subst hname
    exact lookup_applyDefaults (.inl (lookup_bindParameters_positional sig.nodup sig.ordered hbind hp hpos hv))
      sig.nodup (List.mem_of_getElem? hp)
  | byKeyword hp hname hkeyword hv =>
    subst hname
    exact lookup_applyDefaults (.inl (lookup_bindParameters_keyword sig.nodup sig.ordered hbind hp hkeyword hv))
      sig.nodup hp
  | byDefault hp hname hdefault hpos hkeyword hone =>
    subst hname
    exact lookup_applyDefaults
      (.inr ⟨lookup_bindParameters_omitted sig.nodup sig.ordered hbind hp hpos hkeyword hone, hdefault⟩)
      sig.nodup (List.mem_of_getElem? hp)

end

/-! ## Statements and scopes -/

variable {env : ScopedEnv ν} {func : Callable ν} {tenantArg : Option String} {args : List ν}
  {kwargs : OrderedDict String ν} {v : ν} {tenant : Option TenantRef} {w : World}

theorem BeginIn.nil (tenant : Option TenantRef) : BeginIn tenant [] := by
  intro pre r post h
  cases pre <;> cases h

theorem BeginIn.cons {r : StatementRun} {rest : List StatementRun} (hr : r.began = tenant)
    (hrest : r.left = r.began → BeginIn tenant rest) : BeginIn tenant (r :: rest) := by
  intro pre r' post h huntouched
  cases pre with
  | nil =>
    cases h
    exact hr
  | cons r₀ pre =>
    cases h
    exact hrest (huntouched r List.mem_cons_self) pre r' post rfl fun x hx => huntouched x (List.mem_cons_of_mem r hx)

/-- A body that runs begins in the tenant that is active, and goes on in it. -/
theorem run_statements {pauses : Bool} (body : Body ν pauses) (s : Traced World StatementRun) :
    ∃ statements, (after body.run s).calls = s.calls ++ statements ∧
      BeginIn s.state.contextVars.currentTenant statements := by
  induction body generalizing s with
  | finish result => exact ⟨[], by simp [Body.run, after], .nil _⟩
  | raise e => exact ⟨[], by simp [Body.run, after, throw_run], .nil _⟩
  | pause next ih => exact ⟨[], by simp [Body.run, after], .nil _⟩
  | statement x next ih =>
    rw [Body.run, after_bind]
    cases hx : x s.state with
    | error e w =>
      refine ⟨[⟨s.state.contextVars.currentTenant, w.contextVars.currentTenant⟩], ?_, .cons rfl fun _ => .nil _⟩
      simp only [observed, lift, zoom, hx]
      rfl
    | ok v w =>
      simp only [observed, lift, zoom, hx]
      obtain ⟨statements, hcalls, hbegin⟩ := ih v ⟨w, s.calls ++ [StatementRun.of s.state (.ok v w)]⟩
      refine ⟨StatementRun.of s.state (.ok v w) :: statements, ?_, .cons rfl fun hleft => ?_⟩
      · rw [hcalls]
        simp
      · have hsame : w.contextVars.currentTenant = s.state.contextVars.currentTenant := hleft
        rw [← hsame]
        exact hbegin

/-- The call of a function in a scope: what it comes to, with the tenant active
again that was so before. -/
theorem ensuring_usingExit {scope : UsingScope} {w' : World}
    (henter : usingEnter env.settings tenant "default" w = .ok scope w') (x : Scoping (Outcome ν))
    (s : Traced World StatementRun) :
    ∃ w₁, w₁.contextVars.currentTenant = w.contextVars.currentTenant ∧
      ensuring x (fun failed => lift (usingExit env.settings scope failed)) s =
        match x s with
        | .ok outcome s' => .ok outcome ⟨w₁, s'.calls⟩
        | .error e s' => .error e ⟨w₁, s'.calls⟩ := by
  obtain ⟨-, hscope, -⟩ := usingEnter_spec henter
  have hn : scope.aliases.Nodup := by
    rw [hscope]
    exact nodup_aliasesFor _ _ _
  have ho : scope.opened.Nodup := by
    rw [hscope]
    exact (nodup_aliasesFor _ _ _).filter _
  have hexit : ∀ failed w₁, ∃ w₂, usingExit env.settings scope failed w₁ = .ok () w₂ ∧
      w₂.contextVars.currentTenant = w.contextVars.currentTenant := fun failed w₁ =>
    ⟨_, usingExit_run _ failed w₁ hn ho, by rw [hscope]; rfl⟩
  cases hx : x s with
  | ok outcome s' =>
    obtain ⟨w₂, hrun, hback⟩ := hexit false s'.state
    exact ⟨w₂, hback, by simp only [ensuring, hx, lift, zoom, hrun]⟩
  | error e s' =>
    obtain ⟨w₂, hrun, hback⟩ := hexit true s'.state
    exact ⟨w₂, hback, by simp only [ensuring, hx, lift, zoom, hrun]⟩

theorem scopeTenant_of_passes {bound : BoundArguments ν} (hbind : func.signature.bind env.repr args kwargs = .ok bound)
    (hpasses : Passes func.signature args kwargs (env.argName tenantArg) v) (htenant : env.asTenant v = .ok tenant) :
    scopeTenant env func tenantArg args kwargs = .ok tenant := by
  simp only [scopeTenant, hbind]
  show (match (applyDefaults func.signature.parameters bound).lookup (env.argName tenantArg) with
    | .none => _
    | .some tenant => env.tenantOf tenant) = _
  rw [lookup_of_passes hbind hpasses]
  exact htenant

/-- The function is called in the scope of the tenant the call passes, and the
scope is left whatever the call comes to. -/
theorem wrapper_of_entered {bound : BoundArguments ν} {scope : UsingScope} {w' : World}
    (hbind : func.signature.bind env.repr args kwargs = .ok bound)
    (hpasses : Passes func.signature args kwargs (env.argName tenantArg) v) (htenant : env.asTenant v = .ok tenant)
    (henter : usingEnter env.settings tenant "default" w = .ok scope w') :
    ∃ w₁, w₁.contextVars.currentTenant = w.contextVars.currentTenant ∧
      wrapper env func tenantArg args kwargs ⟨w, []⟩ =
        match func.code.call args kwargs ⟨w', []⟩ with
        | .ok outcome s => .ok outcome ⟨w₁, s.calls⟩
        | .error e s => .error e ⟨w₁, s.calls⟩ := by
  obtain ⟨w₁, hback, hleft⟩ := ensuring_usingExit henter (func.code.call args kwargs) ⟨w', []⟩
  refine ⟨w₁, hback, ?_⟩
  rw [← hleft]
  simp only [wrapper, scopeTenant_of_passes hbind hpasses htenant, bind_run, ofExcept_ok_run, lift, zoom, henter]

/-- A call that passes a tenant and does not enter its scope does not call the
function. -/
theorem entered_or_raised (hpasses : Passes func.signature args kwargs (env.argName tenantArg) v)
    (htenant : env.asTenant v = .ok tenant) (w : World) :
    (∃ e w', wrapper env func tenantArg args kwargs ⟨w, []⟩ = .error e ⟨w', []⟩) ∨
      ∃ bound scope w', func.signature.bind env.repr args kwargs = .ok bound ∧
        usingEnter env.settings tenant "default" w = .ok scope w' := by
  cases hbind : func.signature.bind env.repr args kwargs with
  | error e =>
    refine .inl ⟨e, w, ?_⟩
    simp only [wrapper, scopeTenant, hbind, bind_run]
    rfl
  | ok bound =>
    cases henter : usingEnter env.settings tenant "default" w with
    | ok scope w' => exact .inr ⟨bound, scope, w', rfl, rfl⟩
    | error e w' =>
      refine .inl ⟨e, w', ?_⟩
      simp only [wrapper, scopeTenant_of_passes hbind hpasses htenant, bind_run, ofExcept_ok_run, lift, zoom, henter]

/-! ## Which functions are covered -/

/-- A body none of whose statements ran. -/
theorem coversBody_of_silent {run : List Activation} (h : ∀ a ∈ run, a.statements = []) : CoversBody tenant run where
  active := by
    have hnone : run.flatMap Activation.statements = [] := List.flatMap_eq_nil_iff.mpr h
    rw [hnone]
    exact .nil tenant
  restored := by
    intro first hfirst
    have hran := List.find?_some hfirst
    simp [h first (List.mem_of_find?_eq_some hfirst)] at hran

/-- One activation, as the call of a plain function is. -/
theorem coversBody_singleton {a : Activation} (hbegin : BeginIn tenant a.statements) (hleft : a.left = a.found) :
    CoversBody tenant [a] where
  active := by
    rw [List.flatMap_singleton]
    exact hbegin
  restored := by
    intro first hfirst b hb _
    rw [List.mem_singleton.mp hb, List.mem_singleton.mp (List.mem_of_find?_eq_some hfirst)]
    exact hleft

/-- A plain function runs in its scope. -/
theorem coversBody_of_plain {body : List ν → OrderedDict String ν → Body ν false} (hplain : func.code = .plain body)
    (hpasses : Passes func.signature args kwargs (env.argName tenantArg) v) (htenant : env.asTenant v = .ok tenant)
    (steps : List (CallerStep ν)) (w : World) :
    CoversBody tenant (callActivations env func tenantArg args kwargs steps w) := by
  have hrun : callActivations env func tenantArg args kwargs steps w =
      [Activation.of w (wrapper env func tenantArg args kwargs ⟨w, []⟩)] := by
    unfold callActivations
    rw [hplain]
  rw [hrun]
  rcases entered_or_raised hpasses htenant w with ⟨e, w', hraised⟩ | ⟨bound, scope, w', hbind, henter⟩
  · refine coversBody_of_silent fun a ha => ?_
    rw [List.mem_singleton.mp ha, hraised]
    rfl
  · obtain ⟨w₁, hback, hscoped⟩ := wrapper_of_entered hbind hpasses htenant henter
    obtain ⟨statements, hcalls, hbegin⟩ := run_statements (body args kwargs) ⟨w', []⟩
    have hactive : w'.contextVars.currentTenant = tenant := by rw [(usingEnter_spec henter).1]; rfl
    rw [hactive] at hbegin
    rw [hscoped, hplain, Code.call]
    cases hbody : (body args kwargs).run ⟨w', []⟩ with
    | ok outcome s =>
      rw [after_of_ok hbody] at hcalls
      refine coversBody_singleton ?_ hback
      show BeginIn tenant s.calls
      rw [hcalls]
      exact hbegin
    | error e s =>
      rw [after_of_error hbody] at hcalls
      refine coversBody_singleton ?_ hback
      show BeginIn tenant s.calls
      rw [hcalls]
      exact hbegin

/-- A body that comes to no statement. -/
theorem silent_of_not_reaches :
    ∀ (steps : List (CallerStep ν)) {next : Except Exc ν → Body ν true} (w : World), (∀ sent, ¬ (next sent).Reaches) →
      ∀ a ∈ activations steps next w, a.statements = []
  | [], _, _, _, a, ha => by simp [activations] at ha
  | .own x :: steps, next, w, h, a, ha => silent_of_not_reaches steps (after x w) h a ha
  | .resume sent :: steps, next, w, h, a, ha => by
    unfold activations at ha
    have hsent := h sent
    generalize next sent = body at ha hsent
    cases body with
    | finish result =>
      rw [List.mem_singleton.mp ha]
      rfl
    | raise e =>
      rw [List.mem_singleton.mp ha]
      rfl
    | statement x next => exact absurd (.statement x next) hsent
    | pause next =>
      rcases List.mem_cons.mp ha with rfl | ha
      · rfl
      · exact silent_of_not_reaches steps w (fun sent h => hsent (.pause next sent h)) a ha

theorem statements_resumeOnce (next : Except Exc ν → Body ν true) (sent : Except Exc ν) (w : World) :
    (activations [.resume sent] next w).flatMap Activation.statements = (after (next sent).run ⟨w, []⟩).calls := by
  unfold activations
  cases hrun : (next sent).run ⟨w, []⟩ with
  | error e s => simp [Activation.of, after, hrun]
  | ok outcome s =>
    cases outcome with
    | returned result => simp [Activation.of, after, hrun]
    | suspended next => simp [Activation.of, after, hrun, activations]

/-- A statement that is reached begins with whatever tenant the caller has
active. -/
theorem begins_of_reaches {body : Body ν true} (h : body.Reaches) :
    ∀ {next : Except Exc ν → Body ν true} {sent : Except Exc ν}, next sent = body →
      ∃ steps : List (CallerStep ν), ∀ w : World, ∃ r rest,
        (activations steps next w).flatMap Activation.statements = r :: rest ∧
          r.began = w.contextVars.currentTenant := by
  induction h with
  | statement x next' =>
    intro next sent hnext
    refine ⟨[.resume sent], fun w => ?_⟩
    obtain ⟨rest, hcalls⟩ : ∃ rest, (after (Body.statement x next').run ⟨w, []⟩).calls =
        StatementRun.of w (x w) :: rest := by
      rw [Body.run, after_bind]
      cases hx : x w with
      | error e w' => exact ⟨[], by simp [observed, lift, zoom, hx]⟩
      | ok v w' =>
        obtain ⟨rest, hcalls, -⟩ := run_statements (next' v) ⟨w', [StatementRun.of w (.ok v w')]⟩
        refine ⟨rest, ?_⟩
        simp only [observed, lift, zoom, hx, List.nil_append]
        rw [hcalls, List.singleton_append]
    refine ⟨StatementRun.of w (x w), rest, ?_, rfl⟩
    rw [statements_resumeOnce, hnext, hcalls]
  | pause next' sent' _ ih =>
    intro next sent hnext
    obtain ⟨steps, hsteps⟩ := ih rfl
    refine ⟨.resume sent :: steps, fun w => ?_⟩
    obtain ⟨r, rest, hstatements, hbegan⟩ := hsteps w
    refine ⟨r, rest, ?_, hbegan⟩
    unfold activations
    rw [hnext]
    exact hstatements

/-- A body that a call leaves for later is the caller's to run. -/
theorem callActivations_of_entered {body : Body ν true} {bound : BoundArguments ν} {scope : UsingScope} {w' : World}
    (hlater : func.code.later args kwargs = .some body)
    (hbind : func.signature.bind env.repr args kwargs = .ok bound)
    (hpasses : Passes func.signature args kwargs (env.argName tenantArg) v) (htenant : env.asTenant v = .ok tenant)
    (henter : usingEnter env.settings tenant "default" w = .ok scope w') (steps : List (CallerStep ν)) :
    ∃ w₁, callActivations env func tenantArg args kwargs steps w = activations steps (unstarted body) w₁ := by
  obtain ⟨w₁, -, hscoped⟩ := wrapper_of_entered hbind hpasses htenant henter
  refine ⟨w₁, ?_⟩
  unfold callActivations
  rw [hscoped]
  obtain ⟨qualname, signature, code⟩ := func
  cases code with
  | plain _ => cases hlater
  | coroutine make | generator make =>
    cases hlater
    rfl

theorem callActivations_of_raised {body : Body ν true} {e : Exc} {s : Traced World StatementRun}
    (hlater : func.code.later args kwargs = .some body)
    (hraised : wrapper env func tenantArg args kwargs ⟨w, []⟩ = .error e s) (steps : List (CallerStep ν)) :
    callActivations env func tenantArg args kwargs steps w = [] := by
  unfold callActivations
  rw [hraised]
  obtain ⟨qualname, signature, code⟩ := func
  cases code with
  | plain _ => cases hlater
  | coroutine make | generator make => rfl

/-- A function whose body runs later is not covered: the caller may switch to
another tenant before it resumes the body. -/
theorem not_scopeCovers (hlater : RunsLater env func tenantArg) : ¬ ScopeCovers env func tenantArg := by
  obtain ⟨args, kwargs, v, tenant, w, scope, w', bound, body, hpasses, htenant, hbind, henter, hlater, hreaches⟩ :=
    hlater
  intro hcovers
  obtain ⟨other, hother⟩ : ∃ other, other ≠ tenant := exists_ne tenant
  have hbegun : unstarted body (.ok v) = body := rfl
  obtain ⟨steps, hsteps⟩ := begins_of_reaches hreaches hbegun
  obtain ⟨w₁, hrun⟩ := callActivations_of_entered hlater hbind hpasses htenant henter (.own (resetVar other) :: steps)
  obtain ⟨r, rest, hstatements, hbegan⟩ := hsteps (after (resetVar other) w₁)
  have hactive := (hcovers args kwargs v tenant w (.own (resetVar other) :: steps) hpasses htenant).active
  rw [hrun, activations, hstatements] at hactive
  have hr : r.began = tenant := hactive [] r rest rfl fun x hx => by cases hx
  rw [hbegan] at hr
  exact hother hr

/-- The decorator's scope covers the body of a function, for every call, just
when it is a plain function, or has no statement to run after the call. -/
theorem scopeCovers_iff (env : ScopedEnv ν) (func : Callable ν) (tenantArg : Option String) :
    ScopeCovers env func tenantArg ↔ func.code.IsPlain ∨ ¬ RunsLater env func tenantArg := by
  constructor
  · exact fun hcovers => .inr fun hlater => not_scopeCovers hlater hcovers
  · rintro hwhen args kwargs v tenant w steps hpasses htenant
    cases hlater : func.code.later args kwargs with
    | none =>
      obtain ⟨body, hplain⟩ : ∃ body, func.code = .plain body := by
        cases hcode : func.code with
        | plain body => exact ⟨body, rfl⟩
        | coroutine _ | generator _ => simp [hcode, Code.later] at hlater
      exact coversBody_of_plain hplain hpasses htenant steps w
    | some body =>
      rcases entered_or_raised hpasses htenant w with ⟨e, w', hraised⟩ | ⟨bound, scope, w', hbind, henter⟩
      · rw [callActivations_of_raised hlater hraised]
        exact coversBody_of_silent fun a ha => by cases ha
      · obtain ⟨w₁, hrun⟩ := callActivations_of_entered hlater hbind hpasses htenant henter steps
        rw [hrun]
        refine coversBody_of_silent (silent_of_not_reaches steps w₁ fun sent => ?_)
        cases sent with
        | error e => exact fun h => by cases h
        | ok value =>
          intro hreaches
          rcases hwhen with hplain | hnot
          · cases hcode : func.code with
            | plain _ => simp [hcode, Code.later] at hlater
            | coroutine _ | generator _ => simp [hcode, Code.IsPlain] at hplain
          · exact hnot ⟨args, kwargs, v, tenant, w, scope, w', bound, body, hpasses, htenant, hbind, henter, hlater,
              hreaches⟩

end

/-! ## A generator -/

namespace TwoRegions

/-- Values that are tenants or `None`. -/
def byTenant : ScopedEnv (Option TenantRef) where
  settings := settings
  asTenant := .ok
  repr name := "'" ++ name ++ "'"

/-- A generator function of a tenant, with one statement. -/
def rows : Callable (Option TenantRef) where
  qualname := "rows"
  signature := ⟨[⟨"tenant", .positionalOrKeyword, .none⟩], List.nodup_singleton _, List.pairwise_singleton _ _⟩
  code := .generator fun _ _ => .statement (pure .none) fun _ => .finish .none

/-- Called with tenant 0 where no tenant is active and resumed at once, its
statement runs with no tenant active. -/
theorem generator_breaks_scopeCovers : ¬ ScopeCovers byTenant rows .none := by
  intro hcovers
  have hactive := (hcovers [.some 0] ⟨[], List.nodup_nil⟩ (.some 0) (.some 0) autocommit [.resume (.ok .none)]
    (.positionally (i := 0) rfl rfl rfl rfl) rfl).active
  have hran : (callActivations byTenant rows .none [.some 0] ⟨[], List.nodup_nil⟩ [.resume (.ok .none)]
      autocommit).flatMap Activation.statements = [⟨.none, .none⟩] := by decide +kernel
  rw [hran] at hactive
  exact absurd (hactive [] _ [] rfl fun r hr => by cases hr) (by decide)

end TwoRegions

end Boundary
