/-
The database connections the package works on: Django's `connections`, and
what `cursor.execute` and `transaction.atomic` do to one of them.

What is kept of a connection is what decides whether `set_config(_, _, true)`
takes effect and for how long: whether it has been opened, whether a
transaction is open on it and in what state, and the settings in force. A
connection also carries the answers its environment still has in store for
it (`reachable`, `faults`), so that a statement for every connection is one
for every pattern of failures.
-/
import Boundary.Conf
import Boundary.Lib.Transaction
import Boundary.Lib.Exec

namespace Boundary

/-- The exceptions of the modelled code. -/
inductive Exc where
  | operationalError
  | databaseError
  | transactionManagementError
  | integrityError
  | adminBypassNotActiveError (message : String)
  | tenantNotSetError (message : String)
  | tenantNotFoundError (message : String)
  | other (name : String)
deriving DecidableEq

/-- The values of the settings `set_config` and `current_setting` name; a
setting that was never made reads as empty. -/
abbrev SessionVars := String → String

/-- The settings of a session outside a transaction: `set_config(_, _, true)`
leaves nothing there. -/
def SessionVars.idle : SessionVars := fun _ => ""

/-- One of Django's `connections`. -/
structure Connection where
  /-- `connection.connection`: `none` when it was never opened. -/
  handle : Option (Txn.Session SessionVars)
  /-- Whether opening it would succeed. -/
  reachable : Bool := true
  /-- Which of the coming statements fail in the server (`true`). -/
  faults : List Bool := []

namespace Connection

/-- The session behind the connection. -/
def session (c : Connection) : Txn.Session SessionVars := c.handle.getD .autocommit

/-- `connection.connection is not None`. -/
def opened (c : Connection) : Bool := c.handle.isSome

/-- `connection.in_atomic_block`. -/
def inAtomicBlock (c : Connection) : Bool := c.session.inTransaction

/-- Statements are taken: no failed statement, and no failed inner block,
waits to be rolled back. -/
def usable (c : Connection) : Bool := c.session.usable

/-- The settings a statement on the connection sees. -/
def vars (c : Connection) : SessionVars := c.session.read .idle

def frames (c : Connection) : List (Option SessionVars) := c.session.frames .idle

/-- The next statement on the connection succeeds. -/
def accepts (c : Connection) : Bool := c.usable && !c.faults.headD false

/-- `cursor.execute` on an open connection, of a statement that changes the
settings by `f`; what it reads are the settings it leaves in force. -/
def executeOn (f : SessionVars → SessionVars) (s : Txn.Session SessionVars) (c : Connection) :
    Except Exc SessionVars × Connection :=
  match s with
  | .transaction { needsRollback := true, .. } =>
    -- Refused on the client's side, before the server sees it.
    (.error .transactionManagementError, { c with handle := .some s })
  | .transaction { aborted := true, .. } => (.error .databaseError, { c with handle := .some s })
  | s =>
    if c.faults.headD false then
      (.error .databaseError, { c with handle := .some s.abort, faults := c.faults.tail })
    else (.ok (f (s.read .idle)), { c with handle := .some (s.write f), faults := c.faults.tail })

/-- `cursor.execute`; taking the cursor opens the connection. -/
def execute (f : SessionVars → SessionVars) (c : Connection) : Except Exc SessionVars × Connection :=
  match c.handle with
  | .some s => executeOn f s c
  | .none => if c.reachable then executeOn f .autocommit c else (.error .operationalError, c)

/-- `cursor.execute`, of a statement whose answer nobody reads. -/
def run (f : SessionVars → SessionVars) (c : Connection) : Except Exc Unit × Connection :=
  match c.execute f with
  | (.ok _, c) => (.ok (), c)
  | (.error e, c) => (.error e, c)

/-- `SELECT current_setting(name, true)`. -/
def readSetting (name : String) (c : Connection) : Except Exc String × Connection :=
  match c.execute id with
  | (.ok vars, c) => (.ok (vars name), c)
  | (.error e, c) => (.error e, c)

/-- `transaction.atomic(savepoint=savepoint).__enter__`. -/
def atomicEnter (savepoint : Bool) (c : Connection) : Except Exc Unit × Connection :=
  if !c.opened && !c.reachable then (.error .operationalError, c)
  else
    match c.session.enter .idle savepoint with
    | .some s => (.ok (), { c with handle := .some s })
    | .none => (.error .databaseError, c)

/-- `transaction.atomic().__exit__`, told whether the block failed. -/
def atomicExit (failed : Bool) (c : Connection) : Except Exc Unit × Connection :=
  (if c.session.releaseRefused failed then .error .databaseError else .ok (),
    { c with handle := c.handle.map (·.leave failed) })

/-! ## What they do to the settings -/

section mk

variable (s : Txn.Session SessionVars) (r : Bool) (fs : List Bool)

@[simp] theorem session_mk : (mk (.some s) r fs).session = s := rfl
@[simp] theorem opened_mk : (mk (.some s) r fs).opened = true := rfl
@[simp] theorem inAtomicBlock_mk : (mk (.some s) r fs).inAtomicBlock = s.inTransaction := rfl
@[simp] theorem usable_mk : (mk (.some s) r fs).usable = s.usable := rfl
@[simp] theorem vars_mk : (mk (.some s) r fs).vars = s.read .idle := rfl
@[simp] theorem frames_mk : (mk (.some s) r fs).frames = s.frames .idle := rfl

end mk

theorem inAtomicBlock_iff {c : Connection} : c.inAtomicBlock = true ↔ c.frames ≠ [] :=
  Txn.Session.inTransaction_iff

theorem opened_of_inAtomicBlock {c : Connection} (h : c.inAtomicBlock = true) : c.opened = true := by
  unfold inAtomicBlock session at h
  unfold opened
  cases hh : c.handle with
  | none => simp [hh] at h
  | some s => rfl

/-- In autocommit a connection takes statements and nothing is set on it. -/
theorem autocommit {c : Connection} (h : c.inAtomicBlock = false) : c.usable = true ∧ c.vars = .idle := by
  have hs : c.session = .autocommit := Txn.Session.eq_autocommit h
  simp [usable, vars, hs]

theorem usable_of_accepts {c : Connection} (h : c.accepts = true) : c.usable = true := by
  simp only [accepts, Bool.and_eq_true] at h
  exact h.1

/-- What a statement leaves of a connection: the blocks open on it stay, and
if it takes statements afterwards, it did before, and the statement's change
is in force when a transaction is open, and lost when not. -/
structure Ran (f : SessionVars → SessionVars) (c c' : Connection) : Prop where
  frames : c'.frames = c.frames
  usable : c'.usable = true → c.usable = true
  vars : c'.usable = true → c'.vars = if c.inAtomicBlock then f c.vars else c.vars

theorem Ran.inAtomicBlock {f : SessionVars → SessionVars} {c c' : Connection} (h : Ran f c c') :
    c'.inAtomicBlock = c.inAtomicBlock := by
  rw [Bool.eq_iff_iff, inAtomicBlock_iff, inAtomicBlock_iff, h.frames]

theorem Ran.refl (c : Connection) : Ran id c c := ⟨rfl, fun h => h, fun _ => by simp⟩

theorem Ran.trans {f g : SessionVars → SessionVars} {c c' c'' : Connection} (h₁ : Ran f c c')
    (h₂ : Ran g c' c'') : Ran (g ∘ f) c c'' where
  frames := h₂.frames.trans h₁.frames
  usable hu := h₁.usable (h₂.usable hu)
  vars hu := by
    rw [h₂.vars hu, h₁.vars (h₂.usable hu), h₁.inAtomicBlock]
    split <;> rfl

theorem executeOn_spec {f : SessionVars → SessionVars} {c : Connection} {r : Except Exc SessionVars}
    {c' : Connection} (h : executeOn f c.session c = (r, c')) :
    Ran f c c' ∧ c'.opened = true ∧
      ((r = .ok (f c.vars) ∧ c.accepts = true ∧ c'.usable = true ∧ c'.faults = c.faults.tail) ∨
        ((∃ e, r = .error e) ∧ c.accepts = false ∧ (c.inAtomicBlock = true → c'.usable = false))) := by
  generalize hs : c.session = s at h
  have hframes : c.frames = s.frames .idle := by rw [← hs]; rfl
  have hvars : c.vars = s.read .idle := by rw [← hs]; rfl
  have husable : c.usable = s.usable := by rw [← hs]; rfl
  have hatomic : c.inAtomicBlock = s.inTransaction := by rw [← hs]; rfl
  unfold executeOn at h
  split at h
  · cases h
    simp only [Txn.Session.usable, Bool.not_true, Bool.and_false] at husable
    exact ⟨⟨by simp [hframes], by simp [Txn.Session.usable], by simp [Txn.Session.usable]⟩, rfl,
      .inr ⟨⟨_, rfl⟩, by simp [accepts, husable], by simp [Txn.Session.usable]⟩⟩
  · cases h
    simp only [Txn.Session.usable, Bool.not_true, Bool.false_and] at husable
    exact ⟨⟨by simp [hframes], by simp [Txn.Session.usable], by simp [Txn.Session.usable]⟩, rfl,
      .inr ⟨⟨_, rfl⟩, by simp [accepts, husable], by simp [Txn.Session.usable]⟩⟩
  · next hneeds haborted =>
    have hu : s.usable = true := by
      cases s with
      | autocommit => rfl
      | transaction t =>
        obtain ⟨current, savepoints, aborted, needsRollback⟩ := t
        cases needsRollback
        · cases aborted
          · rfl
          · exact absurd rfl (haborted _ _ _)
        · exact absurd rfl (hneeds _ _ _)
    split at h
    · next hfault =>
      cases h
      have hatomic' : c.inAtomicBlock = true → s.abort.usable = false := fun ht => by
        simp [Txn.Session.usable_abort, ← hatomic, ht]
      refine ⟨⟨by simp [hframes], fun _ => husable.trans hu, fun h' => ?_⟩, rfl,
        .inr ⟨⟨_, rfl⟩, by rw [accepts, hfault, Bool.not_true, Bool.and_false], hatomic'⟩⟩
      rw [usable_mk, Txn.Session.usable_abort, Bool.not_eq_true', ← hatomic] at h'
      simp [hvars, h']
    · next hfault =>
      cases h
      rw [Bool.not_eq_true] at hfault
      refine ⟨⟨by simp [hframes], fun _ => husable.trans hu, fun _ => ?_⟩, rfl,
        .inl ⟨by rw [hvars], by rw [accepts, hfault, husable, hu]; rfl, by simp [hu], rfl⟩⟩
      simp [hatomic, hvars, Txn.Session.read_write]

/-- A statement runs in the settings in force, if the connection can be had
and takes it; else it raises, and a transaction takes no more. -/
theorem execute_spec {f : SessionVars → SessionVars} {c : Connection} {r : Except Exc SessionVars}
    {c' : Connection} (h : c.execute f = (r, c')) :
    Ran f c c' ∧
      ((r = .ok (f c.vars) ∧ c.accepts = true ∧ c'.usable = true ∧ c'.faults = c.faults.tail) ∨
        ((∃ e, r = .error e) ∧ (c.opened = true → c.accepts = false) ∧
          (c.inAtomicBlock = true → c'.usable = false))) := by
  unfold execute at h
  cases hh : c.handle with
  | some s =>
    rw [hh] at h
    have hs : c.session = s := by simp [session, hh]
    obtain ⟨hran, -, hok | ⟨he, ha, hu⟩⟩ := executeOn_spec (hs ▸ h)
    · exact ⟨hran, .inl hok⟩
    · exact ⟨hran, .inr ⟨he, fun _ => ha, hu⟩⟩
  | none =>
    rw [hh] at h
    have hs : c.session = .autocommit := by simp [session, hh]
    simp only at h
    split at h
    · obtain ⟨hran, -, hok | ⟨he, ha, hu⟩⟩ := executeOn_spec (hs.symm ▸ h)
      · exact ⟨hran, .inl hok⟩
      · exact ⟨hran, .inr ⟨he, fun _ => ha, hu⟩⟩
    · cases h
      have hauto : c.inAtomicBlock = false := by simp [inAtomicBlock, hs]
      exact ⟨⟨rfl, fun h => h, fun _ => by simp [hauto]⟩,
        .inr ⟨⟨_, rfl⟩, by simp [opened, hh], by simp [hauto]⟩⟩

theorem run_ok {f : SessionVars → SessionVars} {c c' : Connection} {u : Unit} (h : c.run f = (.ok u, c')) :
    Ran f c c' ∧ c.accepts = true ∧ c'.usable = true ∧ c'.faults = c.faults.tail := by
  unfold run at h
  split at h
  · next hx =>
    cases h
    obtain ⟨hran, ⟨-, hrest⟩ | ⟨⟨_, hno⟩, -⟩⟩ := execute_spec hx
    · exact ⟨hran, hrest⟩
    · cases hno
  · cases h

theorem run_error {f : SessionVars → SessionVars} {c c' : Connection} {e : Exc} (h : c.run f = (.error e, c')) :
    Ran f c c' ∧ (c.opened = true → c.accepts = false) ∧ (c.inAtomicBlock = true → c'.usable = false) := by
  unfold run at h
  split at h
  · cases h
  · next hx =>
    cases h
    obtain ⟨hran, ⟨hno, -⟩ | ⟨-, hrest⟩⟩ := execute_spec hx
    · cases hno
    · exact ⟨hran, hrest⟩

theorem readSetting_ok {name value : String} {c c' : Connection} (h : c.readSetting name = (.ok value, c')) :
    Ran id c c' ∧ c.accepts = true ∧ c'.usable = true ∧ value = c.vars name := by
  unfold readSetting at h
  split at h
  · next hx =>
    cases h
    obtain ⟨hran, ⟨hok, haccepts, hu, -⟩ | ⟨⟨_, hno⟩, -⟩⟩ := execute_spec hx
    · simp only [Except.ok.injEq] at hok
      exact ⟨hran, haccepts, hu, by rw [hok]; rfl⟩
    · cases hno
  · cases h

theorem readSetting_error {name : String} {c c' : Connection} {e : Exc} (h : c.readSetting name = (.error e, c')) :
    Ran id c c' ∧ (c.inAtomicBlock = true → c'.usable = false) := by
  unfold readSetting at h
  split at h
  · cases h
  · next hx =>
    cases h
    obtain ⟨hran, ⟨hno, -⟩ | ⟨-, -, hdead⟩⟩ := execute_spec hx
    · cases hno
    · exact ⟨hran, hdead⟩

theorem atomicEnter_ok {savepoint : Bool} {c c' : Connection} {u : Unit}
    (h : c.atomicEnter savepoint = (.ok u, c')) :
    Txn.Session.enter .idle savepoint c.session = .some c'.session ∧ c'.faults = c.faults := by
  unfold atomicEnter at h
  split at h
  · cases h
  · split at h
    · next s hs =>
      cases h
      exact ⟨hs, rfl⟩
    · cases h

theorem atomicEnter_error {savepoint : Bool} {c c' : Connection} {e : Exc}
    (h : c.atomicEnter savepoint = (.error e, c')) : c' = c := by
  unfold atomicEnter at h
  split at h
  · cases h; rfl
  · split at h <;> cases h
    rfl

theorem session_atomicExit (failed : Bool) (c : Connection) :
    (c.atomicExit failed).2.session = c.session.leave failed := by
  cases hh : c.handle with
  | none => simp [atomicExit, session, hh, Txn.Session.leave]
  | some s => simp [atomicExit, session, hh]

end Connection

/-- `django.db.connections`. -/
abbrev Connections := Alias → Connection

/-- What runs on the connections alone. -/
abbrev Db := EStateM Exc Connections

/-- `SELECT set_config(name, value, true)`. -/
def setConfig (name value : String) : SessionVars → SessionVars := fun vars => Function.update vars name value

end Boundary
