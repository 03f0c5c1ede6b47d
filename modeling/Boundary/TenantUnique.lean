/-
`boundary.models.tenant_unique`: a unique constraint that gains the tenant's
foreign key when a model that has one is prepared.

A constraint is copied by `clone()`, and by a migration that is written and
loaded: both build it anew from what `deconstruct()` returns. Whether it still
lacks the foreign key is read off its two field lists. Of Django's
`UniqueConstraint` the fields and the name are modelled, which are all that
`tenant_unique` gives it. A model lists its constraints by reference, and the
receiver of `class_prepared` changes the objects in place.
-/
import Boundary.Database

namespace Boundary

/-- A member of `_meta.constraints`: a `TenantUniqueConstraint`, by the place of its
object among all of them, or a constraint of another class. -/
inductive ModelConstraint where
  | tenantUnique (object : Nat)
  | other
deriving DecidableEq

/-- A prepared model class; one rendered from a migration's state has no
`_boundary_fk_field`. -/
structure PreparedModel where
  label : String
  boundaryFkField : Option String := .none
  constraints : List ModelConstraint := []

/-- `getattr(model, "_boundary_fk_field", None)`, when it is truthy. -/
def PreparedModel.fkField (model : PreparedModel) : Option String := model.boundaryFkField.filter (· ≠ "")

/-- The keyword arguments of a constraint. -/
structure ConstraintKwargs where
  tenantFields : List String
  fields : Option (List String) := .none
  name : String

/-- `UniqueConstraint` refuses an empty name and an empty field list. -/
structure TenantUniqueConstraint where
  tenantFields : List String
  fields : List String
  name : String
  named : name ≠ ""
  nonempty : fields ≠ []

namespace TenantUniqueConstraint

def init (kwargs : ConstraintKwargs) : Except Exc TenantUniqueConstraint :=
  let fields := kwargs.fields.getD kwargs.tenantFields
  if hname : kwargs.name = "" then .error (.other "ValueError: A unique constraint must be named.")
  else if hfields : fields = [] then
    .error (.other "ValueError: At least one field or expression is required to define a unique constraint.")
  else .ok ⟨kwargs.tenantFields, fields, kwargs.name, hname, hfields⟩

def deconstruct (c : TenantUniqueConstraint) : ConstraintKwargs where
  tenantFields := c.tenantFields
  fields := if c.fields = [] then .none else .some c.fields
  name := c.name

/-- `clone()`; what a migration loads is built in the same way. -/
def clone (c : TenantUniqueConstraint) : Except Exc TenantUniqueConstraint := init c.deconstruct

def noColumn (label : String) : Exc :=
  .other <| "ValueError: tenant_unique() cannot be used on " ++ label ++ ": it has no local tenant column. " ++
    "Per-tenant uniqueness needs a tenant column to lead the constraint with, so a path-scoped model " ++
    "(make_tenant_path_mixin) cannot express it. Use TenantMixin or make_tenant_mixin() if this model should own a " ++
    "tenant FK, or a plain UniqueConstraint if the uniqueness is genuinely global."

/-- `_resolve(model)`. -/
def resolve (c : TenantUniqueConstraint) (model : PreparedModel) : Except Exc TenantUniqueConstraint :=
  if c.fields ≠ c.tenantFields then .ok c
  else
    match model.fkField with
    | .none => .error (noColumn model.label)
    | .some fk => .ok { c with fields := fk :: c.tenantFields, nonempty := by simp }

end TenantUniqueConstraint

/-- `_derive_constraint_name`; `digest` is `names_digest`. -/
def deriveConstraintName (digest : List String → Nat → String) (fields : List String) : String :=
  "%(app_label)s_%(class)s_tenant_uniq_" ++ digest fields 8

def tenantUnique (digest : List String → Nat → String) (fields : List String) (name : Option String) :
    Except Exc TenantUniqueConstraint :=
  if fields = [] then .error (.other "ValueError: tenant_unique() requires at least one field name.")
  else TenantUniqueConstraint.init { tenantFields := fields, name := name.getD (deriveConstraintName digest fields) }

/-- The `TenantUniqueConstraint` objects made so far. -/
abbrev Objects := List TenantUniqueConstraint

/-- The `class_prepared` receiver. Where `_resolve` raises, the object is as it was,
and those listed after it are not reached. -/
def resolveTenantUniqueConstraints (sender : PreparedModel) (objects : Objects) : Objects × Option Exc :=
  loop sender.constraints objects
where
  loop : List ModelConstraint → Objects → Objects × Option Exc
    | [], objects => (objects, .none)
    | .other :: constraints, objects => loop constraints objects
    | .tenantUnique i :: constraints, objects =>
      match objects[i]? with
      | .none => loop constraints objects
      | .some c =>
        match c.resolve sender with
        | .error e => (objects, .some e)
        | .ok c' => loop constraints (objects.set i c')

/-! ## Constraints made, copied and prepared -/

/-- Where an object comes from: the author's arguments, and the models that it, and
before them what it was copied from, was prepared on. -/
structure Provenance where
  author : List String
  name : String
  prepared : List PreparedModel := []

/-- The foreign key of the first live model it was prepared on. -/
def Provenance.firstFk (p : Provenance) : Option String := p.prepared.findSome? PreparedModel.fkField

def Provenance.preparedOn (p : Provenance) (model : PreparedModel) : Provenance :=
  { p with prepared := p.prepared ++ [model] }

/-- The objects, and where each comes from, which the code does not know. -/
structure Made where
  objects : Objects := []
  provenance : List Provenance := []

inductive ConstraintEvent where
  | tenantUnique (fields : List String) (name : Option String)
  | clone (i : Nat)
  /-- A migration that has the constraint is written and loaded. -/
  | rebuild (i : Nat)
  | classPrepared (model : PreparedModel)

namespace Made

def copyOf (s : Made) (i : Nat) : Made :=
  match s.objects[i]?, s.provenance[i]? with
  | .some c, .some p =>
    match c.clone with
    | .error _ => s
    | .ok c' => ⟨s.objects ++ [c'], s.provenance ++ [p]⟩
  | _, _ => s

/-- The model's own constraints count as prepared on it, whatever the receiver does. -/
def step (digest : List String → Nat → String) (s : Made) : ConstraintEvent → Made
  | .tenantUnique fields name =>
    match Boundary.tenantUnique digest fields name with
    | .error _ => s
    | .ok c => ⟨s.objects ++ [c], s.provenance ++ [⟨fields, name.getD (deriveConstraintName digest fields), []⟩]⟩
  | .clone i => s.copyOf i
  | .rebuild i => s.copyOf i
  | .classPrepared model =>
    { objects := (resolveTenantUniqueConstraints model s.objects).1
      provenance := s.provenance.mapIdx fun i p =>
        if .tenantUnique i ∈ model.constraints then p.preparedOn model else p }

end Made

/-- The author's list, led by the foreign key of the first live model. -/
structure TenantUniqueConstraint.Settled (p : Provenance) (c : TenantUniqueConstraint) : Prop where
  tenantFields : c.tenantFields = p.author
  name : c.name = p.name
  fields : c.fields = p.firstFk.toList ++ p.author

/-- Every object has its provenance, and what it says of the object holds. -/
structure Made.Settled (s : Made) : Prop where
  length : s.provenance.length = s.objects.length
  settled : ∀ (i : Nat) (c : TenantUniqueConstraint) (p : Provenance),
    s.objects[i]? = .some c → s.provenance[i]? = .some p → c.Settled p

/-! ## What a copy and a delivery keep -/

namespace TenantUniqueConstraint

variable {c c' : TenantUniqueConstraint} {model : PreparedModel} {p : Provenance}

theorem init_ok {kwargs : ConstraintKwargs} (h : init kwargs = .ok c) :
    c.tenantFields = kwargs.tenantFields ∧ c.fields = kwargs.fields.getD kwargs.tenantFields ∧ c.name = kwargs.name := by
  unfold init at h
  dsimp only at h
  split_ifs at h
  cases h
  exact ⟨rfl, rfl, rfl⟩

/-- A copy is equal to the constraint it was made of. -/
theorem clone_eq (c : TenantUniqueConstraint) : c.clone = .ok c := by
  obtain ⟨tenantFields, fields, name, named, nonempty⟩ := c
  simp [clone, init, deconstruct, named, nonempty]

/-- A delivery changes nothing, prepends the foreign key, or raises. -/
theorem resolve_cases (c : TenantUniqueConstraint) (model : PreparedModel) :
    (c.fields ≠ c.tenantFields ∧ c.resolve model = .ok c) ∨
      (∃ fk, c.fields = c.tenantFields ∧ model.fkField = .some fk ∧
        c.resolve model = .ok { c with fields := fk :: c.tenantFields, nonempty := by simp }) ∨
      (c.fields = c.tenantFields ∧ model.fkField = .none ∧ c.resolve model = .error (noColumn model.label)) := by
  unfold resolve
  by_cases hresolved : c.fields ≠ c.tenantFields
  · exact .inl ⟨hresolved, if_pos hresolved⟩
  · rw [if_neg hresolved]
    cases hfk : model.fkField with
    | none => exact .inr (.inr ⟨not_not.mp hresolved, rfl, rfl⟩)
    | some fk => exact .inr (.inl ⟨fk, not_not.mp hresolved, rfl, rfl⟩)

/-- A delivery raises when the constraint is not resolved and the model has no
tenant column. -/
theorem resolve_raises_iff {e : Exc} :
    c.resolve model = .error e ↔ c.fields = c.tenantFields ∧ model.fkField = .none ∧ e = noColumn model.label := by
  rcases c.resolve_cases model with ⟨hne, hrun⟩ | ⟨fk, heq, hfk, hrun⟩ | ⟨heq, hfk, hrun⟩
  · simp [hrun, hne]
  · simp [hrun, hfk]
  · simp [hrun, heq, hfk, eq_comm]

/-- The object after `_resolve`, whether it raises or not. -/
def resolved (c : TenantUniqueConstraint) (model : PreparedModel) : TenantUniqueConstraint :=
  match c.resolve model with
  | .error _ => c
  | .ok c' => c'

theorem resolved_of_ok (h : c.resolve model = .ok c') : c.resolved model = c' := by
  rw [resolved, h]

/-- A second delivery of one model changes nothing. -/
theorem resolved_resolved (c : TenantUniqueConstraint) (model : PreparedModel) :
    (c.resolved model).resolved model = c.resolved model := by
  rcases c.resolve_cases model with ⟨-, hrun⟩ | ⟨fk, -, -, hrun⟩ | ⟨-, -, hrun⟩
  · rw [resolved_of_ok hrun, resolved_of_ok hrun]
  · rw [resolved_of_ok hrun]
    exact resolved_of_ok (if_pos (List.cons_ne_self fk c.tenantFields))
  · have hsame : c.resolved model = c := by rw [resolved, hrun]
    rw [hsame, hsame]

theorem resolved_of_fkField_none (hfk : model.fkField = .none) : c.resolved model = c := by
  rcases c.resolve_cases model with ⟨-, hrun⟩ | ⟨fk, -, hsome, -⟩ | ⟨-, -, hrun⟩
  · exact resolved_of_ok hrun
  · rw [hfk] at hsome
    cases hsome
  · rw [resolved, hrun]

/-- A settled constraint is unresolved while no live model has been prepared. -/
theorem Settled.unresolved_iff (h : c.Settled p) : c.fields = c.tenantFields ↔ p.firstFk = .none := by
  rw [h.fields, h.tenantFields]
  cases p.firstFk <;> simp

theorem firstFk_preparedOn : (p.preparedOn model).firstFk = p.firstFk.or model.fkField := by
  simp [Provenance.firstFk, Provenance.preparedOn, List.findSome?_append]

theorem Settled.resolved (h : c.Settled p) : (c.resolved model).Settled (p.preparedOn model) := by
  rcases c.resolve_cases model with ⟨hne, hrun⟩ | ⟨fk, heq, hfk, hrun⟩ | ⟨heq, hfk, hrun⟩
  -- A resolved constraint is one that a live model was prepared on.
  · rw [resolved_of_ok hrun]
    refine ⟨h.tenantFields, h.name, ?_⟩
    obtain ⟨fk, hfk⟩ := Option.ne_none_iff_exists'.mp fun hnone => hne (h.unresolved_iff.mpr hnone)
    rw [firstFk_preparedOn, h.fields, hfk]
    rfl
  · rw [resolved_of_ok hrun]
    refine ⟨h.tenantFields, h.name, ?_⟩
    rw [firstFk_preparedOn, h.unresolved_iff.mp heq, hfk]
    simp [h.tenantFields, Provenance.preparedOn]
  · rw [resolved_of_fkField_none hfk]
    refine ⟨h.tenantFields, h.name, ?_⟩
    rw [firstFk_preparedOn, hfk, Option.or_none]
    exact h.fields

/-- The constraint that the author wrote. -/
theorem settled_tenantUnique {digest : List String → Nat → String} {fields : List String} {name : Option String}
    (h : tenantUnique digest fields name = .ok c) :
    c.Settled ⟨fields, name.getD (deriveConstraintName digest fields), []⟩ := by
  unfold tenantUnique at h
  split at h
  · cases h
  · obtain ⟨htenant, hfields, hname⟩ := init_ok h
    exact ⟨htenant, hname, hfields⟩

end TenantUniqueConstraint

section

variable {model : PreparedModel} {constraints : List ModelConstraint} {objects : Objects} {s : Made}
  {digest : List String → Nat → String}

/-! ## The receiver -/

theorem loop_length : (resolveTenantUniqueConstraints.loop model constraints objects).1.length = objects.length := by
  fun_induction resolveTenantUniqueConstraints.loop with
  | case1 => rfl
  | case2 _ _ ih => exact ih
  | case3 _ _ _ _ ih => exact ih
  | case4 => rfl
  | case5 _ _ _ _ _ _ _ ih => rw [ih, List.length_set]

/-- The receiver resolves the listed objects, and no other. -/
theorem loop_getElem? (i : Nat) :
    (resolveTenantUniqueConstraints.loop model constraints objects).1[i]? =
      if .tenantUnique i ∈ constraints then objects[i]?.map (·.resolved model) else objects[i]? := by
  induction constraints generalizing objects with
  | nil => rfl
  | cons constraint constraints ih =>
    cases constraint with
    | other => simp [resolveTenantUniqueConstraints.loop, ih]
    | tenantUnique j =>
      simp only [resolveTenantUniqueConstraints.loop, List.mem_cons, ModelConstraint.tenantUnique.injEq]
      cases hj : objects[j]? with
      | none =>
        simp only [ih]
        by_cases hij : i = j
        · rw [hij, hj]
          simp
        · simp [hij]
      | some c =>
        cases hrun : c.resolve model with
        | error e =>
          -- Nothing is resolved on a model without a tenant column.
          have hfk := (TenantUniqueConstraint.resolve_raises_iff.mp hrun).2.1
          simp [hrun, TenantUniqueConstraint.resolved_of_fkField_none hfk]
        | ok c' =>
          have hresolved := TenantUniqueConstraint.resolved_of_ok hrun
          simp only [hrun, ih]
          by_cases hij : i = j
          · have hlt : j < objects.length := (List.getElem?_eq_some_iff.mp hj).1
            have htwice := c.resolved_resolved model
            rw [hresolved] at htwice
            rw [hij, List.getElem?_set_self hlt, hj]
            simp [hresolved, htwice]
          · simp [hij, List.getElem?_set_ne (Ne.symm hij)]

/-- It raises when a listed object is not resolved and the model has no tenant
column. -/
theorem loop_raises_iff {e : Exc} :
    (resolveTenantUniqueConstraints.loop model constraints objects).2 = .some e ↔
      (∃ i c, .tenantUnique i ∈ constraints ∧ objects[i]? = .some c ∧ c.fields = c.tenantFields) ∧
        model.fkField = .none ∧ e = TenantUniqueConstraint.noColumn model.label := by
  induction constraints generalizing objects with
  | nil => simp [resolveTenantUniqueConstraints.loop]
  | cons constraint constraints ih =>
    cases constraint with
    | other => simp [resolveTenantUniqueConstraints.loop, ih]
    | tenantUnique j =>
      simp only [resolveTenantUniqueConstraints.loop, List.mem_cons, ModelConstraint.tenantUnique.injEq]
      cases hj : objects[j]? with
      | none =>
        rw [ih]
        refine and_congr_left fun _ => ⟨?_, ?_⟩
        · rintro ⟨i, c, hi, hc⟩
          exact ⟨i, c, .inr hi, hc⟩
        · rintro ⟨i, c, rfl | hi, hc, hfields⟩
          · rw [hj] at hc
            cases hc
          · exact ⟨i, c, hi, hc, hfields⟩
      | some c =>
        rcases c.resolve_cases model with ⟨hne, hrun⟩ | ⟨fk, heq, hfk, hrun⟩ | ⟨heq, hfk, hrun⟩
        · have hset : objects.set j c = objects := by
            obtain ⟨hlt, rfl⟩ := List.getElem?_eq_some_iff.mp hj
            exact List.set_getElem_self hlt
          simp only [hrun, hset, ih]
          refine and_congr_left fun _ => ⟨?_, ?_⟩
          · rintro ⟨i, c', hi, hc'⟩
            exact ⟨i, c', .inr hi, hc'⟩
          · rintro ⟨i, c', rfl | hi, hc', hfields⟩
            · rw [hj] at hc'
              cases hc'
              exact absurd hfields hne
            · exact ⟨i, c', hi, hc', hfields⟩
        · simp [hrun, ih, hfk]
        · simp only [hrun, Option.some.injEq]
          constructor
          · rintro rfl
            exact ⟨⟨j, c, .inl rfl, hj, heq⟩, hfk, rfl⟩
          · rintro ⟨-, -, rfl⟩
            rfl

/-! ## Runs -/

theorem Made.Settled.append {c : TenantUniqueConstraint} {p : Provenance} (h : s.Settled) (hc : c.Settled p) :
    Made.Settled ⟨s.objects ++ [c], s.provenance ++ [p]⟩ := by
  refine ⟨by simp [h.length], fun i c' p' hc' hp' => ?_⟩
  by_cases hi : i < s.objects.length
  · rw [List.getElem?_append_left hi] at hc'
    rw [List.getElem?_append_left (h.length ▸ hi)] at hp'
    exact h.settled i c' p' hc' hp'
  · rw [List.getElem?_append_right (by omega), List.getElem?_singleton] at hc'
    rw [List.getElem?_append_right (by rw [h.length]; omega), h.length, List.getElem?_singleton] at hp'
    split_ifs at hc' hp'
    cases hc'
    cases hp'
    exact hc

theorem Made.Settled.copyOf (h : s.Settled) (i : Nat) : (s.copyOf i).Settled := by
  unfold Made.copyOf
  cases hc : s.objects[i]? with
  | none => exact h
  | some c =>
    cases hp : s.provenance[i]? with
    | none => exact h
    | some p =>
      simp only [c.clone_eq]
      exact h.append (h.settled i c p hc hp)

theorem Made.Settled.classPrepared (h : s.Settled) : (s.step digest (.classPrepared model)).Settled := by
  refine ⟨by simp [Made.step, resolveTenantUniqueConstraints, h.length, loop_length], fun i c' p' hc' hp' => ?_⟩
  simp only [Made.step, resolveTenantUniqueConstraints, loop_getElem?, List.getElem?_mapIdx,
    Option.map_eq_some_iff] at hc' hp'
  obtain ⟨p, hp, rfl⟩ := hp'
  by_cases hlisted : ModelConstraint.tenantUnique i ∈ model.constraints
  · rw [if_pos hlisted] at hc' ⊢
    obtain ⟨c, hc, rfl⟩ := Option.map_eq_some_iff.mp hc'
    exact (h.settled i c p hc hp).resolved
  · rw [if_neg hlisted] at hc' ⊢
    exact h.settled i c' p hc' hp

theorem Made.Settled.step (h : s.Settled) (event : ConstraintEvent) : (s.step digest event).Settled := by
  cases event with
  | tenantUnique fields name =>
    cases hmade : tenantUnique digest fields name with
    | error e =>
      simp only [Made.step, hmade]
      exact h
    | ok c =>
      simp only [Made.step, hmade]
      exact h.append (TenantUniqueConstraint.settled_tenantUnique hmade)
  | clone i => exact h.copyOf i
  | rebuild i => exact h.copyOf i
  | classPrepared model => exact h.classPrepared

/-- After any sequence of constraints made, copied and delivered models, each object
has its author's fields and name, the fields led once by the foreign key of the
first live model that it, or what it is a copy of, was prepared on. It can be
copied; and a model's delivery raises exactly when it lists an unresolved object
and has no tenant column. -/
theorem tenantUnique_run (digest : List String → Nat → String) (events : List ConstraintEvent) :
    let s := events.foldl (Made.step digest) {}
    s.Settled ∧ (∀ c ∈ s.objects, c.clone = .ok c) ∧
      ∀ model e, (resolveTenantUniqueConstraints model s.objects).2 = .some e ↔
        (∃ i p, .tenantUnique i ∈ model.constraints ∧ s.provenance[i]? = .some p ∧ p.firstFk = .none) ∧
          model.fkField = .none ∧ e = TenantUniqueConstraint.noColumn model.label := by
  have hsettled : (events.foldl (Made.step digest) {}).Settled :=
    List.foldlRecOn events (Made.step digest) ⟨rfl, by simp⟩ fun s h event _ => h.step event
  refine ⟨hsettled, fun c _ => c.clone_eq, fun model e => ?_⟩
  rw [resolveTenantUniqueConstraints, loop_raises_iff]
  refine and_congr_left fun _ => ⟨?_, ?_⟩
  · rintro ⟨i, c, hlisted, hc, hfields⟩
    have hlt : i < (events.foldl (Made.step digest) {}).provenance.length := by
      rw [hsettled.length]
      exact (List.getElem?_eq_some_iff.mp hc).1
    have hp := List.getElem?_eq_getElem hlt
    exact ⟨i, _, hlisted, hp, (hsettled.settled i c _ hc hp).unresolved_iff.mp hfields⟩
  · rintro ⟨i, p, hlisted, hp, hfk⟩
    have hlt : i < (events.foldl (Made.step digest) {}).objects.length := by
      rw [← hsettled.length]
      exact (List.getElem?_eq_some_iff.mp hp).1
    have hc := List.getElem?_eq_getElem hlt
    exact ⟨i, _, hlisted, hc, (hsettled.settled i _ p hc hp).unresolved_iff.mpr hfk⟩

end

/-- The author's constraint is cloned for a live model; the clone is written to a
migration, and loaded for the model rendered from its state. -/
example :
    let live : PreparedModel := ⟨"boundary_testapp.UniqueDoc", .some "tenant", [.other, .tenantUnique 1]⟩
    let rendered : PreparedModel := ⟨"boundary_testapp.UniqueDoc", .none, [.tenantUnique 2]⟩
    let s := [ConstraintEvent.tenantUnique ["slug"] (.some "uniq_slug"), .clone 0, .classPrepared live, .rebuild 1,
      .classPrepared rendered, .classPrepared live].foldl (Made.step fun _ _ => "") {}
    s.objects.map (·.fields) = [["slug"], ["tenant", "slug"], ["tenant", "slug"]] := by
  decide

end Boundary
