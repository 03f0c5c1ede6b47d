/-
Transaction-local settings under savepoints, for settings of any type.

A session is in autocommit or in a transaction. A setting written inside a
transaction lasts to its end; rolling back to a savepoint brings back what
was in force when the savepoint was taken; a transaction in which a
statement failed takes no statement until it is rolled back. Blocks nest as
a client's transaction manager nests them: the outermost one is the
transaction, an inner one is a savepoint, or nothing of its own
(`Option σ`), and then its failure marks the whole transaction as needing
rollback.

`Guarded` is what the nesting is good for: when every block's entry is
recorded with a context in which a predicate held of the settings, the
predicate still holds of them, in the context of whatever block the session
is back in, however the blocks in between ended.

A `Ledger` keeps the rows that statements write beside a session: a block that
is left takes back what was written in it when the session has it so
(`takesBack`).
-/
import Mathlib.Data.List.Forall2

namespace Txn

/-- An open transaction: the settings in force, what each open block inside
it would roll back to (innermost first, `none` for a block that took no
savepoint), and whether it still takes statements. -/
structure Open (σ : Type) where
  current : σ
  savepoints : List (Option σ) := []
  aborted : Bool := false
  needsRollback : Bool := false

/-- A session: every statement its own transaction, or a transaction open. -/
inductive Session (σ : Type) where
  | autocommit
  | transaction (t : Open σ)

namespace Session

variable {σ γ : Type} (idle : σ)

/-- The settings a statement sees: the session's own outside a transaction. -/
def read : Session σ → σ
  | .autocommit => idle
  | .transaction t => t.current

/-- Whether statements are taken. -/
def usable : Session σ → Bool
  | .autocommit => true
  | .transaction t => !t.aborted && !t.needsRollback

def inTransaction : Session σ → Bool
  | .autocommit => false
  | .transaction _ => true

/-- What each open block would roll back to; the last is the transaction. -/
def frames : Session σ → List (Option σ)
  | .autocommit => []
  | .transaction t => t.savepoints ++ [.some idle]

/-- Enter a block. `none`: the savepoint was refused, by an aborted
transaction. -/
def enter (savepoint : Bool) : Session σ → Option (Session σ)
  | .autocommit => .some (.transaction { current := idle })
  | .transaction t =>
    if savepoint && !t.needsRollback then
      if t.aborted then .none
      else .some (.transaction { t with savepoints := .some t.current :: t.savepoints })
    else .some (.transaction { t with savepoints := .none :: t.savepoints })

/-- Whether leaving the innermost block without an exception asks to release
a savepoint of an aborted transaction. -/
def releaseRefused (failed : Bool) : Session σ → Bool
  | .transaction { savepoints := .some _ :: _, aborted := true, needsRollback := false, .. } => !failed
  | _ => false

/-- Leave the innermost block: commit or release it, or roll it back when it
`failed` or the transaction needs it. A refused release rolls back too. -/
def leave (failed : Bool) : Session σ → Session σ
  | .autocommit => .autocommit
  | .transaction t =>
    match t.savepoints with
    | [] => .autocommit
    | f :: fs =>
      if !failed && !t.needsRollback then
        match f with
        | .some v =>
          if t.aborted then .transaction { t with current := v, savepoints := fs, aborted := false }
          else .transaction { t with savepoints := fs }
        | .none => .transaction { t with savepoints := fs }
      else
        match f with
        | .some v => .transaction { current := v, savepoints := fs }
        | .none => .transaction { t with savepoints := fs, needsRollback := true }

/-- A statement changes the settings; outside a transaction the change ends
with the statement. -/
def write (f : σ → σ) : Session σ → Session σ
  | .autocommit => .autocommit
  | .transaction t => .transaction { t with current := f t.current }

/-- A statement fails; outside a transaction nothing is left of it. -/
def abort : Session σ → Session σ
  | .autocommit => .autocommit
  | .transaction t => .transaction { t with aborted := true }

/-! ## What each operation does -/

variable {idle}

@[simp] theorem read_autocommit : read idle .autocommit = idle := rfl
@[simp] theorem usable_autocommit : (autocommit : Session σ).usable = true := rfl
@[simp] theorem frames_autocommit : frames idle .autocommit = [] := rfl
@[simp] theorem inTransaction_autocommit : (autocommit : Session σ).inTransaction = false := rfl

@[simp] theorem frames_write (f : σ → σ) (s : Session σ) : frames idle (s.write f) = frames idle s := by
  cases s <;> rfl

@[simp] theorem usable_write (f : σ → σ) (s : Session σ) : (s.write f).usable = s.usable := by
  cases s <;> rfl

@[simp] theorem inTransaction_write (f : σ → σ) (s : Session σ) :
    (s.write f).inTransaction = s.inTransaction := by
  cases s <;> rfl

theorem read_write (f : σ → σ) (s : Session σ) :
    read idle (s.write f) = if s.inTransaction then f (read idle s) else read idle s := by
  cases s <;> rfl

@[simp] theorem frames_abort (s : Session σ) : frames idle s.abort = frames idle s := by
  cases s <;> rfl

@[simp] theorem inTransaction_abort (s : Session σ) : s.abort.inTransaction = s.inTransaction := by
  cases s <;> rfl

@[simp] theorem read_abort (s : Session σ) : read idle s.abort = read idle s := by
  cases s <;> rfl

/-- Only a session in autocommit survives a failed statement. -/
theorem usable_abort (s : Session σ) : s.abort.usable = !s.inTransaction := by
  cases s <;> simp [abort, usable, inTransaction]

theorem eq_autocommit {s : Session σ} (h : s.inTransaction = false) : s = .autocommit := by
  cases s with
  | autocommit => rfl
  | transaction t => simp [inTransaction] at h

theorem inTransaction_iff {s : Session σ} : s.inTransaction = true ↔ frames idle s ≠ [] := by
  cases s <;> simp [inTransaction, frames]

/-- Entering a block opens one frame and changes no setting; a frame that can
be rolled back to holds the settings in force, of a usable session. -/
theorem enter_spec {savepoint : Bool} {s s' : Session σ} (h : enter idle savepoint s = .some s') :
    ∃ f, frames idle s' = f :: frames idle s ∧ (∀ v, f = .some v → s.usable = true ∧ v = read idle s) ∧
      (s'.usable = true → s.usable = true) ∧ read idle s' = read idle s := by
  cases s with
  | autocommit =>
    simp only [enter, Option.some.injEq] at h
    subst h
    exact ⟨.some idle, by simp [frames], by simp, by simp, rfl⟩
  | transaction t =>
    simp only [enter] at h
    split at h
    · next htake =>
      split at h
      · cases h
      · next hab =>
        simp only [Option.some.injEq] at h
        subst h
        simp only [Bool.and_eq_true, Bool.not_eq_true'] at htake
        exact ⟨.some t.current, by simp [frames], by simp_all [usable, read], by simp [usable], rfl⟩
    · simp only [Option.some.injEq] at h
      subst h
      exact ⟨.none, by simp [frames], by simp, by simp [usable], rfl⟩

theorem enter_of_usable {s s' : Session σ} (hu : s.usable = true) (h : enter idle true s = .some s') :
    frames idle s' = .some (read idle s) :: frames idle s ∧ s'.usable = true := by
  cases s with
  | autocommit =>
    simp only [enter, Option.some.injEq] at h
    subst h
    exact ⟨rfl, rfl⟩
  | transaction t =>
    obtain ⟨current, savepoints, aborted, needsRollback⟩ := t
    simp only [usable, Bool.and_eq_true, Bool.not_eq_true'] at hu
    obtain ⟨rfl, rfl⟩ := hu
    simp only [enter, Bool.not_false, Bool.and_self, if_true, Bool.false_eq_true, if_false, Option.some.injEq] at h
    subst h
    exact ⟨rfl, rfl⟩

/-- Leaving a block closes its frame. A session usable afterwards is back at
what the frame held, or goes on with the settings it had. -/
theorem leave_spec {s : Session σ} {f : Option σ} {fs : List (Option σ)} (failed : Bool)
    (h : frames idle s = f :: fs) :
    frames idle (s.leave failed) = fs ∧
      ((s.leave failed).usable = true →
        f = .some (read idle (s.leave failed)) ∨
          (s.usable = true ∧ read idle (s.leave failed) = read idle s)) := by
  cases s with
  | autocommit => simp at h
  | transaction t =>
    obtain ⟨current, savepoints, aborted, needsRollback⟩ := t
    cases savepoints with
    | nil =>
      simp only [frames, List.nil_append, List.cons.injEq] at h
      obtain ⟨rfl, rfl⟩ := h
      simp [leave]
    | cons g gs =>
      simp only [frames, List.cons_append, List.cons.injEq] at h
      obtain ⟨rfl, rfl⟩ := h
      cases g <;> cases failed <;> cases aborted <;> cases needsRollback <;>
        simp [leave, frames, usable, read]

/-- The outermost block ends the transaction. -/
theorem leave_outermost (idle : σ) {failed : Bool} {s : Session σ} (h : (frames idle s).length ≤ 1) :
    s.leave failed = .autocommit := by
  cases s with
  | autocommit => rfl
  | transaction t =>
    have hnil : t.savepoints = [] := by
      simp only [frames, List.length_append, List.length_singleton] at h
      exact List.length_eq_zero_iff.mp (by omega)
    simp [leave, hnil]

/-! ## Settings guarded by the context a block was entered in -/

variable (idle) in
/-- Above the frames `base`, the blocks entered in the contexts `cs` are open
(innermost first), each able to roll back only to settings that are right in
its context; and the settings in force are right in the context `c`. -/
structure Guarded (G : γ → σ → Prop) (base : List (Option σ)) (cs : List γ) (c : γ) (s : Session σ) :
    Prop where
  stacked : ∃ fs, frames idle s = fs ++ base ∧ List.Forall₂ (fun c f => ∀ v, f = .some v → G c v) cs fs
  current : s.usable = true → G c (read idle s)

variable {G : γ → σ → Prop} {base : List (Option σ)} {cs : List γ} {c : γ} {s : Session σ}

theorem Guarded.start (h : s.usable = true → G c (read idle s)) :
    Guarded idle G (frames idle s) [] c s :=
  ⟨⟨[], rfl, .nil⟩, h⟩

/-- Whatever keeps the frames keeps the guard, if it sets what is right in
the context it leaves. -/
theorem Guarded.of_frames {s' : Session σ} {c' : γ} (h : Guarded idle G base cs c s)
    (hf : frames idle s' = frames idle s) (hc : s'.usable = true → G c' (read idle s')) :
    Guarded idle G base cs c' s' := by
  obtain ⟨fs, hfs, hall⟩ := h.stacked
  exact ⟨⟨fs, hf.trans hfs, hall⟩, hc⟩

theorem Guarded.enter {savepoint : Bool} {s' : Session σ} (h : Guarded idle G base cs c s)
    (he : Session.enter idle savepoint s = .some s') : Guarded idle G base (c :: cs) c s' := by
  obtain ⟨fs, hfs, hall⟩ := h.stacked
  obtain ⟨f, hf, hv, hu, hr⟩ := enter_spec he
  refine ⟨⟨f :: fs, by rw [hf, hfs]; rfl, .cons (fun v hfv => ?_) hall⟩, fun hs' => ?_⟩
  · obtain ⟨hus, rfl⟩ := hv v hfv
    exact h.current hus
  · rw [hr]
    exact h.current (hu hs')

/-- Back in the context a block was entered in, with the settings right for
it if the block leaves them, leaving the block keeps the guard. -/
theorem Guarded.leave {failed : Bool} (h : Guarded idle G base (c :: cs) c s) :
    Guarded idle G base cs c (s.leave failed) := by
  obtain ⟨fs, hfs, hall⟩ := h.stacked
  cases hall with
  | @cons _ f _ fs hf hall =>
    obtain ⟨hframes, hread⟩ := leave_spec failed hfs
    refine ⟨⟨fs, hframes, hall⟩, fun hu => ?_⟩
    rcases hread hu with hsaved | ⟨hus, hsame⟩
    · exact hf _ hsaved
    · rw [hsame]
      exact h.current hus

/-! ## What a block takes back -/

/-- Leaving the innermost block takes back what was written in it. Of the
outermost that is to roll back, or to commit what was aborted. -/
def takesBack (failed : Bool) : Session σ → Bool
  | .autocommit => false
  | .transaction t =>
    match t.savepoints with
    | [] | .some _ :: _ => failed || t.aborted || t.needsRollback
    | .none :: _ => false

theorem takesBack_of_frames {s : Session σ} {v : σ} {fs : List (Option σ)} (failed : Bool)
    (h : frames idle s = .some v :: fs) : s.takesBack failed = (failed || !s.usable) := by
  cases s with
  | autocommit => cases h
  | transaction t =>
    obtain ⟨current, savepoints, aborted, needsRollback⟩ := t
    cases savepoints with
    | nil => cases failed <;> cases aborted <;> cases needsRollback <;> rfl
    | cons f fs =>
      simp only [frames, List.cons_append, List.cons.injEq] at h
      obtain ⟨rfl, -⟩ := h
      cases failed <;> cases aborted <;> cases needsRollback <;> rfl

end Session

/-! ## Rows under a session -/

/-- The rows there are, and those there were when each open block was entered
(innermost first). -/
structure Ledger (δ : Type) where
  rows : δ
  entered : List δ := []

namespace Ledger

variable {δ : Type}

def enter (l : Ledger δ) : Ledger δ := { l with entered := l.rows :: l.entered }

def leave (back : Bool) (l : Ledger δ) : Ledger δ :=
  match l.entered with
  | [] => l
  | rows :: entered => ⟨if back then rows else l.rows, entered⟩

def write (f : δ → δ) (l : Ledger δ) : Ledger δ := { l with rows := f l.rows }

/-- A block taken back leaves the rows it was entered with, and any other
those there are. -/
theorem leave_of_entered {l l' : Ledger δ} (back : Bool) (h : l'.entered = l.enter.entered) :
    l'.leave back = ⟨if back then l.rows else l'.rows, l.entered⟩ := by
  unfold leave
  rw [h]
  rfl

/-- The rows there are, and all that an open block could take them back to. -/
def All (P : δ → Prop) (l : Ledger δ) : Prop := P l.rows ∧ ∀ rows ∈ l.entered, P rows

variable {P : δ → Prop} {l : Ledger δ}

theorem All.enter (h : l.All P) : l.enter.All P := by
  refine ⟨h.1, fun rows hrows => ?_⟩
  rcases List.mem_cons.mp hrows with rfl | hrows
  · exact h.1
  · exact h.2 rows hrows

theorem All.write {f : δ → δ} (h : l.All P) (hf : P (f l.rows)) : (l.write f).All P := ⟨hf, h.2⟩

/-- What holds of the rows, and held at each entry, holds of what a block
leaves, whether it takes them back or not. -/
theorem All.leave (back : Bool) (h : l.All P) : (l.leave back).All P := by
  unfold Ledger.leave
  split
  · exact h
  · next rows entered hentered =>
    have hfirst : P rows := h.2 rows (by rw [hentered]; exact List.mem_cons_self)
    refine ⟨?_, fun rows' hrows' => h.2 rows' (by rw [hentered]; exact List.mem_cons_of_mem _ hrows')⟩
    cases back with
    | true => exact hfirst
    | false => exact h.1

end Ledger

end Txn
