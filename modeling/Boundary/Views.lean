/-
Views over the rows of `default`: programs that write, take savepoints and
handle the exceptions of their own statements, run on the connection of
`default` with the rows beside its session.

Inside an open transaction nothing of a view's run depends on the blocks around
it: it is a run over four things (`InTransaction`), the rows, the two marks of a
transaction that takes no more, and the statements still to fail.
`Work.run_embeds` carries the one to the other.
-/
import Boundary.Scopes

namespace Boundary

open Exec TenantContext

/-- What runs around a view, and the rows of `default`. -/
structure Stocked (δ : Type) where
  served : Traced World (Request × World)
  ledger : Txn.Ledger δ

abbrev Stocking (δ : Type) := EStateM Exc (Stocked δ)

/-- `connections["default"]`. -/
def Stocked.connection {δ : Type} (s : Stocked δ) : Connection := s.served.state.connections "default"

/-- `connection.set_rollback(rollback)`. -/
def Connection.setRollback (rollback : Bool) (c : Connection) : Except Exc Unit × Connection :=
  match c.handle with
  | .some (.transaction t) => (.ok (), { c with handle := .some (.transaction { t with needsRollback := rollback }) })
  | _ => (.error .transactionManagementError, c)

namespace Stocking

variable {δ α : Type}

/-- What touches no row. -/
def around (x : Serving (Request × World) α) : Stocking δ α :=
  zoom Stocked.served (fun served s => { s with served := served }) x

/-- A program on the connection of `default`. -/
def onDefault (f : Connection → Except Exc Unit × Connection) : Stocking δ Unit :=
  around (lift (db (onCell "default" f)))

def onLedger (f : Txn.Ledger δ → Txn.Ledger δ) : Stocking δ Unit := fun s => .ok () { s with ledger := f s.ledger }

/-- The rows, as the innermost block on `default` is about to be left. -/
def leaveRows (failed : Bool) : Stocking δ Unit := fun s =>
  .ok () { s with ledger := s.ledger.leave (s.connection.session.takesBack failed) }

/-- `with transaction.atomic(savepoint=savepoint): body`, on `default`. -/
def atomic (savepoint : Bool) (body : Stocking δ α) : Stocking δ α := do
  onDefault (·.atomicEnter savepoint)
  onLedger .enter
  ensuring body fun failed => do
    leaveRows failed
    onDefault (·.atomicExit failed)

/-- `with _ensure_atomic(): body`. -/
def ensuringAtomic (st : Settings) (body : Stocking δ α) : Stocking δ α := do
  let opened ← around (lift (db (ensureAtomic st "default")))
  onLedger (if opened then .enter else id)
  ensuring body fun failed => do
    (if opened then leaveRows failed else pure ())
    around (lift (db (exitAtomics failed (if opened then ["default"] else []))))

/-- A statement on `default` that changes the rows. -/
def writeRows (f : δ → δ) : Stocking δ Unit := do
  onDefault (·.run id)
  onLedger (·.write f)

/-- The call of `get_response`, recorded. -/
def calledWith (request : Request) (x : Stocking δ α) : Stocking δ α := fun s =>
  x { s with served := { s.served with calls := s.served.calls ++ [(request, s.served.state)] } }

end Stocking

open Stocking

/-! ## Views -/

/-- What a view does on `default`. A statement that only reads is one that leaves
the rows, and what a view makes of the rows it reads is, over given rows, one of
the ways it may go. -/
inductive Work (δ : Type) : Type → Type 1
  | pure {α : Type} (a : α) : Work δ α
  | raise {α : Type} (e : Exc) : Work δ α
  | write (f : δ → δ) : Work δ Unit
  /-- `transaction.set_rollback(rollback)`, which the ORM's own writes make, with
  `True`, where they fail. -/
  | setRollback (rollback : Bool) : Work δ Unit
  | bind {α β : Type} (first : Work δ α) (rest : α → Work δ β) : Work δ β
  /-- `with transaction.atomic(savepoint=savepoint): body`. -/
  | atomic {α : Type} (savepoint : Bool) (body : Work δ α) : Work δ α
  /-- `try: body`, `except Exception as e: handle(e)`. -/
  | tryCatch {α : Type} (body : Work δ α) (handle : Exc → Work δ α) : Work δ α

/-- A view, on one request. -/
abbrev View (δ : Type) := Work δ Response

namespace Work

variable {δ : Type}

def run {α : Type} : Work δ α → Stocking δ α
  | .pure a => Pure.pure a
  | .raise e => throw e
  | .write f => writeRows f
  | .setRollback rollback => onDefault (·.setRollback rollback)
  | .bind first rest => do
    let a ← first.run
    (rest a).run
  | .atomic savepoint body => Stocking.atomic savepoint body.run
  | .tryCatch body handle => MonadExcept.tryCatch body.run fun e => (handle e).run

/-- The same where no rows are kept: its statements. -/
def onWorld {α : Type} : Work δ α → M α
  | .pure a => Pure.pure a
  | .raise e => throw e
  | .write _ => db (onCell "default" (·.run id))
  | .setRollback rollback => db (onCell "default" (·.setRollback rollback))
  | .bind first rest => do
    let a ← first.onWorld
    (rest a).onWorld
  | .atomic savepoint body => do
    db (onCell "default" (·.atomicEnter savepoint))
    ensuring body.onWorld fun failed => db (onCell "default" (·.atomicExit failed))
  | .tryCatch body handle => MonadExcept.tryCatch body.onWorld fun e => (handle e).onWorld

end Work

namespace View

variable {δ : Type}

/-- `BaseHandler.make_view_atomic`. -/
def makeViewAtomic (atomicRequests : Bool) (view : View δ) : View δ :=
  if atomicRequests then .atomic true view else view

/-- `convert_exception_to_response`: the exception, where the response is made
of one. -/
def answered (atomicRequests : Bool) (view : View δ) : Work δ (Except Exc Response) :=
  .tryCatch (.bind (makeViewAtomic atomicRequests view) fun response => .pure (.ok response)) fun e => .pure (.error e)

def getResponse (atomicRequests : Bool) (view : View δ) : Stocking δ (Except Exc Response) :=
  (answered atomicRequests view).run

/-- The same where no rows are kept, and with the response Django makes of an
exception. -/
def onWorld (convert : Exc → Response) (atomicRequests : Bool) (view : View δ) : M Response :=
  (Work.tryCatch (makeViewAtomic atomicRequests view) fun e => .pure (convert e)).onWorld

end View

/-! ## The rows left out -/

/-- The response there is for an answer. -/
def respond (convert : Exc → Response) : Except Exc Response → Response
  | .ok response => response
  | .error e => convert e

section

variable {δ α β : Type}

theorem around_projects (x : Serving (Request × World) α) :
    Projects (@Stocked.served δ) id (around x) x :=
  Projects.zoom (fun _ _ => rfl) x

theorem onDefault_projects (f : Connection → Except Exc Unit × Connection) :
    Projects (@Stocked.served δ) id (onDefault f) (lift (db (onCell "default" f))) :=
  around_projects _

/-- What touches the rows alone, before a program that is seen. -/
theorem rows_then_projects {x : Stocking δ Unit} {y : Stocking δ α} {z : Serving (Request × World) β} {g : α → β}
    (hx : ∀ s, ∃ ledger, x s = .ok () { s with ledger := ledger }) (hy : Projects Stocked.served g y z) :
    Projects Stocked.served g (do x; y) z := by
  intro s
  obtain ⟨ledger, hrun⟩ := hx s
  rw [bind_run, hrun]
  exact hy { s with ledger := ledger }

theorem then_rows_projects {x : Stocking δ Unit} {y : Stocking δ Unit} {z : Serving (Request × World) Unit}
    (hx : Projects Stocked.served id x z) (hy : ∀ s, ∃ ledger, y s = .ok () { s with ledger := ledger }) :
    Projects Stocked.served id (do x; y) z := by
  intro s
  rw [hx s, bind_run]
  cases x s with
  | ok u s' =>
    obtain ⟨ledger, hrun⟩ := hy s'
    simp only [hrun, id]
  | error e s' => rfl

theorem writeRows_projects (f : δ → δ) :
    Projects Stocked.served id (writeRows f) (lift (db (onCell "default" (·.run id)))) :=
  then_rows_projects (onDefault_projects _) fun s => ⟨s.ledger.write f, rfl⟩

theorem atomic_projects (savepoint : Bool) {g : α → β} {body : Stocking δ α} {z : Serving (Request × World) β}
    (hbody : Projects Stocked.served g body z) :
    Projects Stocked.served g (atomic savepoint body) (do
      lift (db (onCell "default" (·.atomicEnter savepoint)))
      ensuring z fun failed => lift (db (onCell "default" (·.atomicExit failed)))) := by
  refine Projects.bind (onDefault_projects _) fun _ => ?_
  refine rows_then_projects (fun s => ⟨s.ledger.enter, rfl⟩) ?_
  refine hbody.ensuring fun failed => ?_
  exact rows_then_projects (fun s => ⟨_, rfl⟩) (onDefault_projects _)

theorem ensuringAtomic_projects (st : Settings) {g : α → β} {body : Stocking δ α} {z : Serving (Request × World) β}
    (hbody : Projects Stocked.served g body z) :
    Projects Stocked.served g (ensuringAtomic st body) (withEnsureAtomic st "default" z) := by
  refine Projects.bind (around_projects _) fun opened => ?_
  refine rows_then_projects (fun s => ⟨(if opened then Txn.Ledger.enter else id) s.ledger, rfl⟩) ?_
  refine hbody.ensuring fun failed => ?_
  refine rows_then_projects (fun s => ?_) (around_projects _)
  cases opened
  · exact ⟨s.ledger, rfl⟩
  · exact ⟨_, rfl⟩

theorem calledWith_projects {g : α → β} {x : Stocking δ α} {y : M β} (request : Request)
    (h : Projects Stocked.served g x (lift y)) :
    Projects Stocked.served g (calledWith request x) (called (request, ·) y) := fun s =>
  h { s with served := { s.served with calls := s.served.calls ++ [(request, s.served.state)] } }

/-- A view does to the world what its statements do. -/
theorem Work.run_projects (x : Work δ α) : Projects Stocked.served id x.run (lift x.onWorld) := by
  induction x with
  | pure a => exact Projects.pure _ _ a
  | raise e => exact fun _ => rfl
  | write f => exact writeRows_projects f
  | setRollback rollback => exact onDefault_projects _
  | bind first rest ihFirst ihRest =>
    rw [Work.onWorld, lift_bind]
    exact Projects.bind ihFirst ihRest
  | atomic savepoint body ih =>
    rw [Work.onWorld, lift_bind]
    simp only [lift_ensuring]
    exact atomic_projects savepoint ih
  | tryCatch body handle ihBody ihHandle =>
    rw [Work.onWorld, lift_tryCatch]
    exact Projects.tryCatch ihBody ihHandle

theorem View.getResponse_projects (convert : Exc → Response) (atomicRequests : Bool) (view : View δ) :
    Projects Stocked.served (respond convert) (view.getResponse atomicRequests)
      (lift (view.onWorld convert atomicRequests)) := by
  unfold View.onWorld View.getResponse View.answered
  rw [Work.onWorld, Work.run, lift_tryCatch]
  refine Projects.tryCatch ?_ fun e => Projects.pure _ _ (Except.error e)
  rw [Work.run, ← bind_pure (lift _)]
  exact Projects.bind (g := id) (Work.run_projects _) fun response => Projects.pure _ _ (Except.ok response)

end

/-! ## In an open transaction -/

/-- What a program finds in a transaction, and leaves: the rows, the marks of one
that takes no more statements, and which of the coming statements fail. -/
structure InTransaction (δ : Type) where
  rows : δ
  aborted : Bool := false
  needsRollback : Bool := false
  faults : List Bool := []

namespace InTransaction

variable {δ α : Type}

def usable (a : InTransaction δ) : Bool := !a.aborted && !a.needsRollback

def write (f : δ → δ) : EStateM Exc (InTransaction δ) Unit := fun a =>
  if a.needsRollback then .error .transactionManagementError a
  else if a.aborted then .error .databaseError a
  else if a.faults.headD false then .error .databaseError { a with aborted := true, faults := a.faults.tail }
  else .ok () { a with rows := f a.rows, faults := a.faults.tail }

def setRollback (rollback : Bool) : EStateM Exc (InTransaction δ) Unit := fun a =>
  .ok () { a with needsRollback := rollback }

/-- A block with a savepoint is taken back where it raises and where no more
statements were taken in it, and then the transaction takes them again. A block
without one, raising, marks the transaction. -/
def atomic (savepoint : Bool) (body : EStateM Exc (InTransaction δ) α) : EStateM Exc (InTransaction δ) α := fun a =>
  if savepoint && !a.needsRollback then
    if a.aborted then .error .databaseError a
    else
      match body a with
      | .error e left => .error e { a with faults := left.faults }
      | .ok v left =>
        if left.needsRollback then .ok v { a with faults := left.faults }
        else if left.aborted then .error .databaseError { a with faults := left.faults }
        else .ok v left
  else
    match body a with
    | .error e left => .error e { left with needsRollback := true }
    | .ok v left => .ok v left

end InTransaction

/-- What comes of a program in an open transaction. -/
def Work.ends {δ α : Type} : Work δ α → EStateM Exc (InTransaction δ) α
  | .pure a => Pure.pure a
  | .raise e => throw e
  | .write f => InTransaction.write f
  | .setRollback rollback => InTransaction.setRollback rollback
  | .bind first rest => do
    let a ← first.ends
    (rest a).ends
  | .atomic savepoint body => InTransaction.atomic savepoint body.ends
  | .tryCatch body handle => MonadExcept.tryCatch body.ends fun e => (handle e).ends

/-- The same with another connection to `default`, and other rows. -/
def Stocked.withDefault {δ : Type} (s : Stocked δ) (c : Connection) (ledger : Txn.Ledger δ) : Stocked δ where
  served := { s.served with state := { s.served.state with
    connections := Function.update s.served.state.connections "default" c } }
  ledger := ledger

/-- `t` is open on `default`, and what a program finds in it is `a`. -/
def Stocked.embed {δ : Type} (s : Stocked δ) (t : Txn.Open SessionVars) (a : InTransaction δ) : Stocked δ :=
  s.withDefault
    { s.connection with
      handle := .some (.transaction { t with aborted := a.aborted, needsRollback := a.needsRollback })
      faults := a.faults }
    ⟨a.rows, s.ledger.entered⟩

section

variable {δ α : Type} {s : Stocked δ} {t : Txn.Open SessionVars} {a : InTransaction δ}

@[simp] theorem connection_withDefault (s : Stocked δ) (c : Connection) (ledger : Txn.Ledger δ) :
    (s.withDefault c ledger).connection = c := by
  simp [Stocked.withDefault, Stocked.connection]

@[simp] theorem ledger_withDefault (s : Stocked δ) (c : Connection) (ledger : Txn.Ledger δ) :
    (s.withDefault c ledger).ledger = ledger := rfl

@[simp] theorem withDefault_withDefault (s : Stocked δ) (c c' : Connection) (ledger ledger' : Txn.Ledger δ) :
    (s.withDefault c ledger).withDefault c' ledger' = s.withDefault c' ledger' := by
  simp [Stocked.withDefault]

theorem onDefault_ok {f : Connection → Except Exc Unit × Connection} {c : Connection}
    (h : f s.connection = (.ok (), c)) : onDefault f s = .ok () (s.withDefault c s.ledger) := by
  unfold Stocked.connection at h
  unfold onDefault around lift db zoom onCell
  simp only [h]
  rfl

theorem onDefault_error {f : Connection → Except Exc Unit × Connection} {c : Connection} {e : Exc}
    (h : f s.connection = (.error e, c)) : onDefault f s = .error e (s.withDefault c s.ledger) := by
  unfold Stocked.connection at h
  unfold onDefault around lift db zoom onCell
  simp only [h]
  rfl

theorem connection_embed : (s.embed t a).connection =
    { s.connection with
      handle := .some (.transaction { t with aborted := a.aborted, needsRollback := a.needsRollback })
      faults := a.faults } :=
  connection_withDefault _ _ _

theorem write_embeds (s : Stocked δ) (t : Txn.Open SessionVars) (f : δ → δ) :
    Projects (s.embed t) id (InTransaction.write f) (writeRows f) := by
  intro a
  obtain ⟨rows, aborted, needsRollback, faults⟩ := a
  rcases hc : (s.embed t ⟨rows, aborted, needsRollback, faults⟩).connection.run id with ⟨r, c⟩
  have hrun := hc
  simp only [connection_embed, Connection.run, Connection.execute] at hrun
  unfold Connection.executeOn at hrun
  rw [writeRows, bind_run]
  cases needsRollback with
  | true =>
    cases hrun
    rw [onDefault_error hc]
    simp [InTransaction.write, Stocked.embed]
  | false =>
    cases aborted with
    | true =>
      cases hrun
      rw [onDefault_error hc]
      simp [InTransaction.write, Stocked.embed]
    | false =>
      unfold InTransaction.write
      simp only [Bool.false_eq_true, if_false] at hrun ⊢
      cases hfault : faults.headD false with
      | true =>
        simp only [hfault, if_true] at hrun ⊢
        cases hrun
        rw [onDefault_error hc]
        simp [Stocked.embed, Txn.Session.abort]
      | false =>
        simp only [hfault, Bool.false_eq_true, if_false] at hrun ⊢
        cases hrun
        rw [onDefault_ok hc]
        simp [Stocked.embed, Txn.Session.write, onLedger, Txn.Ledger.write, Stocked.withDefault]

theorem setRollback_embeds (s : Stocked δ) (t : Txn.Open SessionVars) (rollback : Bool) :
    Projects (s.embed t) id (InTransaction.setRollback rollback) (onDefault (·.setRollback rollback)) := by
  intro a
  have hset : (s.embed t a).connection.setRollback rollback =
      (.ok (), (s.embed t { a with needsRollback := rollback }).connection) := by
    rw [connection_embed, connection_embed]
    rfl
  rw [onDefault_ok hset]
  simp [InTransaction.setRollback, Stocked.embed]

/-- What is open once a block has been entered: a savepoint, or nothing of its own. -/
def entered (savepoint : Bool) (t : Txn.Open SessionVars) : Txn.Open SessionVars :=
  { t with savepoints := (if savepoint then .some t.current else .none) :: t.savepoints }

def Stocked.entering (s : Stocked δ) (rows : δ) : Stocked δ :=
  { s with ledger := { s.ledger with entered := rows :: s.ledger.entered } }

theorem enter_embed (savepoint : Bool) (htaken : (savepoint && !a.needsRollback && a.aborted) = false) :
    (do onDefault (·.atomicEnter savepoint); onLedger .enter : Stocking δ Unit) (s.embed t a) =
      .ok () ((s.entering a.rows).embed (entered (savepoint && !a.needsRollback) t) a) := by
  have henter : (s.embed t a).connection.atomicEnter savepoint = (.ok (),
      { s.connection with
        handle := .some (.transaction { entered (savepoint && !a.needsRollback) t with
          aborted := a.aborted, needsRollback := a.needsRollback })
        faults := a.faults }) := by
    rw [connection_embed]
    obtain ⟨rows, aborted, needsRollback, faults⟩ := a
    cases savepoint <;> cases needsRollback <;> cases aborted <;> first | rfl | cases htaken
  rw [bind_run, onDefault_ok henter]
  simp [Stocked.embed, Stocked.entering, onLedger, Txn.Ledger.enter, Stocked.withDefault, Stocked.connection]

/-- The end of a block: what it takes back of the rows, and its last statement. -/
theorem leaveBlock_run (failed : Bool) (s : Stocked δ) :
    (do leaveRows failed; onDefault (·.atomicExit failed) : Stocking δ Unit) s =
      match s.connection.atomicExit failed with
      | (.ok _, c) => .ok () (s.withDefault c (s.ledger.leave (s.connection.session.takesBack failed)))
      | (.error e, c) => .error e (s.withDefault c (s.ledger.leave (s.connection.session.takesBack failed))) := by
  have hleave : leaveRows failed s =
      .ok () { s with ledger := s.ledger.leave (s.connection.session.takesBack failed) } := rfl
  rw [bind_run, hleave]
  rcases hexit : s.connection.atomicExit failed with ⟨_ | _, c⟩
  · exact onDefault_error (s := { s with ledger := s.ledger.leave (s.connection.session.takesBack failed) }) hexit
  · exact onDefault_ok (s := { s with ledger := s.ledger.leave (s.connection.session.takesBack failed) }) hexit

theorem leave_embed (failed savepoint : Bool) (rows : δ) (left : InTransaction δ) :
    (do leaveRows failed; onDefault (·.atomicExit failed) : Stocking δ Unit)
        ((s.entering rows).embed (entered savepoint t) left) =
      if savepoint then
        if failed || left.needsRollback then .ok () (s.embed t { rows, faults := left.faults })
        else if left.aborted then .error .databaseError (s.embed t { rows, faults := left.faults })
        else .ok () (s.embed t left)
      else .ok () (s.embed t { left with needsRollback := failed || left.needsRollback }) := by
  obtain ⟨rows', aborted, needsRollback, faults⟩ := left
  rw [leaveBlock_run]
  simp only [Stocked.embed, connection_withDefault, ledger_withDefault, withDefault_withDefault]
  cases savepoint <;> cases failed <;> cases needsRollback <;> cases aborted <;> rfl

theorem atomic_embeds (savepoint : Bool) {x : EStateM Exc (InTransaction δ) α} {body : Stocking δ α}
    (hbody : ∀ s t, Projects (Stocked.embed s t) id x body) (s : Stocked δ) (t : Txn.Open SessionVars) :
    Projects (s.embed t) id (InTransaction.atomic savepoint x) (atomic savepoint body) := by
  intro a
  obtain hrefused | htaken := Bool.eq_false_or_eq_true (savepoint && !a.needsRollback && a.aborted)
  · obtain ⟨rows, aborted, needsRollback, faults⟩ := a
    simp only [Bool.and_eq_true, Bool.not_eq_true'] at hrefused
    obtain ⟨⟨rfl, rfl⟩, rfl⟩ := hrefused
    have henter : (s.embed t ⟨rows, true, false, faults⟩).connection.atomicEnter true =
        (.error .databaseError, (s.embed t ⟨rows, true, false, faults⟩).connection) := by
      rw [connection_embed]
      rfl
    rw [atomic, bind_run, onDefault_error henter, connection_embed]
    simp [InTransaction.atomic, Stocked.embed]
  have hrun : atomic savepoint body (s.embed t a) =
      ensuring body (fun failed => do leaveRows failed; onDefault (·.atomicExit failed))
        ((s.entering a.rows).embed (entered (savepoint && !a.needsRollback) t) a) := by
    have henter := enter_embed (s := s) (t := t) (a := a) savepoint htaken
    obtain ⟨u, s₁, hentered, hledger⟩ := bind_ok_iff.mp henter
    rw [atomic, bind_run, hentered]
    simp only
    rw [bind_run, hledger]
  rw [hrun]
  unfold ensuring InTransaction.atomic
  rw [hbody]
  cases hsavepoint : savepoint && !a.needsRollback with
  | true =>
    rw [hsavepoint, Bool.true_and] at htaken
    obtain ⟨rows, aborted, needsRollback, faults⟩ := a
    simp only [Bool.and_eq_true, Bool.not_eq_true'] at hsavepoint
    obtain ⟨rfl, rfl⟩ := hsavepoint
    subst htaken
    cases hx : x ⟨rows, false, false, faults⟩ with
    | ok v left =>
      simp only [leave_embed, if_true, Bool.false_or]
      cases left.needsRollback <;> cases left.aborted <;> rfl
    | error e left =>
      simp only [leave_embed, if_true, Bool.true_or]
      rfl
  | false =>
    cases hx : x a with
    | ok v left =>
      simp only [leave_embed]
      rfl
    | error e left =>
      simp only [leave_embed]
      rfl

/-- In an open transaction a program comes to what it comes to, whatever blocks
are open around it, and leaves them as they were. -/
theorem Work.run_embeds (x : Work δ α) (s : Stocked δ) (t : Txn.Open SessionVars) :
    Projects (s.embed t) id x.ends x.run := by
  induction x generalizing s t with
  | pure a => exact Projects.pure _ _ a
  | raise e => exact fun _ => rfl
  | write f => exact write_embeds s t f
  | setRollback rollback => exact setRollback_embeds s t rollback
  | bind first rest ihFirst ihRest => exact Projects.bind (ihFirst s t) fun a => ihRest a s t
  | atomic savepoint body ih => exact atomic_embeds savepoint ih s t
  | tryCatch body handle ihBody ihHandle => exact Projects.tryCatch (ihBody s t) fun e => ihHandle e s t

/-- A failed statement that is handled outside its savepoint leaves a transaction
that takes more, with the row written before it. -/
example :
    (Work.bind (.write (· + 1)) fun _ => .bind (.tryCatch (.atomic true (.write (· + 1))) fun _ => .pure ()) fun _ =>
      .raise (.other "ViewError") : View Nat).ends { rows := 0, faults := [false, true] } =
      .error (.other "ViewError") { rows := 1 } :=
  rfl

end

end Boundary
