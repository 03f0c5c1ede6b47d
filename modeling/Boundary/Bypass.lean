/-
The admin bypass over whole runs: the flag is `true` on an alias inside a
block open on it, whatever happens in between, and it is not once no such
block is open.

One exit keeps the flag: a receiver of `admin_bypass_activated` that raises.
It runs after the flag is set and before the part of the block that clears
it, so in a transaction that was already open the flag stays.
-/
import Boundary.RunFacts

namespace Boundary

open Exec

/-! ## The entry of `admin_bypass` -/

/-- The connection takes two statements in a row. -/
def Connection.acceptsTwo (c : Connection) : Bool := c.accepts && !c.faults.tail.headD false

section

variable {st : Settings} {a : Alias} {receiver : Option Exc} {cs cs' : Connections} {e : Exc} {u : Unit}

theorem activate_ok (h : activate st a receiver cs = .ok u cs') :
    (∀ b, b ≠ a → cs' b = cs b) ∧ Connection.Ran (setConfig st.adminFlagVar "true") (cs a) (cs' a) ∧
      (cs' a).usable = true ∧ (cs' a).vars st.adminFlagVar = "true" := by
  simp only [activate, bind_ok_iff, onCell_ok_iff] at h
  obtain ⟨_, cs₁, ⟨hset, hrest₁⟩, active, cs₂, ⟨hread, hrest₂⟩, h⟩ := h
  split at h
  · cases h
  next hactive =>
  rw [not_not] at hactive
  obtain ⟨hran₁, -⟩ := Connection.run_ok hset
  obtain ⟨hran₂, -, hu, hvalue⟩ := Connection.readSetting_ok hread
  have hcs' : cs' = cs₂ := by
    split at h
    · cases h
    · cases h; rfl
  subst hcs'
  refine ⟨fun b hb => (hrest₂ b hb).trans (hrest₁ b hb), hran₁.trans hran₂, hu, ?_⟩
  rw [hran₂.vars hu, ← hactive, hvalue]
  simp

/-- A raising entry in a transaction leaves it refusing statements, unless it
is a receiver that raised, after both statements went through. -/
theorem activate_error (h : activate st a receiver cs = .error e cs') :
    (∀ b, b ≠ a → cs' b = cs b) ∧ Connection.Ran (setConfig st.adminFlagVar "true") (cs a) (cs' a) ∧
      ((cs a).inAtomicBlock = true → (cs' a).usable = true → receiver.isSome = true ∧ (cs a).acceptsTwo = true) := by
  simp only [activate, bind_error_iff, onCell_error_iff, onCell_ok_iff] at h
  rcases h with ⟨hset, hrest₁⟩ | ⟨_, cs₁, ⟨hset, hrest₁⟩, ⟨hread, hrest₂⟩ | ⟨active, cs₂, ⟨hread, hrest₂⟩, h⟩⟩
  · obtain ⟨hran, -, hdead⟩ := Connection.run_error hset
    refine ⟨hrest₁, hran, fun hin hu => ?_⟩
    rw [hdead hin] at hu
    cases hu
  · obtain ⟨hran₁, -⟩ := Connection.run_ok hset
    obtain ⟨hran₂, hdead⟩ := Connection.readSetting_error hread
    refine ⟨fun b hb => (hrest₂ b hb).trans (hrest₁ b hb), hran₁.trans hran₂, fun hin hu => ?_⟩
    rw [hdead (hran₁.inAtomicBlock.trans hin)] at hu
    cases hu
  · obtain ⟨hran₁, haccepts, hu₁, hfaults⟩ := Connection.run_ok hset
    obtain ⟨hran₂, haccepts₂, hu, hvalue⟩ := Connection.readSetting_ok hread
    have hcs' : cs' = cs₂ := by
      split at h
      · simp only [bind_error_iff] at h
        rcases h with h | ⟨_, _, h, -⟩
        · cases h; rfl
        · cases h
      · split at h
        · cases h; rfl
        · cases h
    subst hcs'
    refine ⟨fun b hb => (hrest₂ b hb).trans (hrest₁ b hb), hran₁.trans hran₂, fun hin _ => ⟨?_, ?_⟩⟩
    · -- In a transaction the flag reads back as set, so it is the receiver that raised.
      have hflag : active = "true" := by
        rw [hvalue, hran₁.vars hu₁, if_pos hin]
        simp [setConfig]
      simp only [hflag, ne_eq, not_true_eq_false, if_false] at h
      cases receiver with
      | some e => rfl
      | none => cases h
    · simp only [Connection.accepts, Bool.and_eq_true, hfaults] at haccepts₂
      rw [Connection.acceptsTwo, haccepts, haccepts₂.2]
      rfl

theorem adminBypassEnter_quiet {w : World} (hpg : isPostgresql st a = false) :
    adminBypassEnter st a receiver w =
      match receiver with
      | .some e => .error e w
      | .none => .ok .quiet w := by
  unfold adminBypassEnter
  rw [hpg]
  cases receiver <;> rfl

/-- The context with one more block open on the alias. -/
def ContextVars.deeper (v : ContextVars) (a : Alias) : ContextVars :=
  { v with adminBypassDepth := Function.update v.adminBypassDepth a (v.adminBypassDepth a + 1) }

theorem adminBypassEnter_ok {w w' : World} {scope : BypassScope} (hpg : isPostgresql st a = true)
    (h : adminBypassEnter st a receiver w = .ok scope w') :
    ∃ opened c, scope = .active w.contextVars.adminBypassDepth (decide (w.contextVars.adminBypassDepth a > 0)) opened ∧
      w' = { w with contextVars := w.contextVars.deeper a, connections := w'.connections } ∧
      (∀ b, b ≠ a → w'.connections b = w.connections b) ∧
      (opened = true → (w.connections a).atomicEnter true = (.ok (), c)) ∧
      (opened = false → c = w.connections a) ∧
      Connection.Ran (setConfig st.adminFlagVar "true") c (w'.connections a) ∧
      (w'.connections a).usable = true ∧ (w'.connections a).vars st.adminFlagVar = "true" := by
  unfold adminBypassEnter at h
  rw [if_neg (by simp [hpg])] at h
  simp only [getDepth, setDepth, bind_ok_iff, EStateM.Result.ok.injEq, onError_ok_iff, db_ok_iff, pure_run] at h
  obtain ⟨_, _, ⟨rfl, rfl⟩, _, _, ⟨-, rfl⟩, opened, _, ⟨cs, hopen, rfl⟩, _, _, ⟨cs', hactivate, rfl⟩, rfl, rfl⟩ := h
  obtain ⟨-, hrest, hno, hyes⟩ := ensureAtomic_ok hopen
  obtain ⟨hrest', hran, hu, hv⟩ := activate_ok hactivate
  exact ⟨opened, cs a, rfl, rfl, fun b hb => (hrest' b hb).trans (hrest b hb), hyes, hno, hran, hu, hv⟩

theorem after_setDepth (depth : Alias → Nat) (w : World) :
    after (setDepth depth) w = { w with contextVars := { w.contextVars with adminBypassDepth := depth } } := rfl

/-- A raising entry undoes the depth; what it leaves of the flag is left
where it opened no transaction of its own. -/
theorem adminBypassEnter_error {w w' : World} (hpg : isPostgresql st a = true)
    (h : adminBypassEnter st a receiver w = .error e w') :
    w' = { w with connections := w'.connections } ∧ (∀ b, b ≠ a → (w'.connections b) = (w.connections b)) ∧
      ((w'.connections a).session = (w.connections a).session ∨
        Connection.Ran (setConfig st.adminFlagVar "true") (w.connections a) (w'.connections a) ∧
          ((w.connections a).inAtomicBlock = true → (w'.connections a).usable = true →
            receiver.isSome = true ∧ (w.connections a).acceptsTwo = true)) := by
  unfold adminBypassEnter at h
  rw [if_neg (by simp [hpg])] at h
  simp only [getDepth, setDepth, bind_error_iff, EStateM.Result.ok.injEq, onError_error_iff, onError_ok_iff,
    db_ok_iff, db_error_iff, pure_run, reduceCtorEq, false_or, and_false, exists_const, exists_false, or_false] at h
  obtain ⟨_, _, ⟨rfl, rfl⟩, _, ⟨-, rfl⟩, _, h, rfl⟩ := h
  rcases h with ⟨cs, hopen, rfl⟩ | ⟨opened, _, ⟨cs, hopen, rfl⟩, cs₂, ⟨cs₁, hactivate, rfl⟩, rfl⟩
  · simp only [ensureAtomic_error hopen]
    exact ⟨rfl, fun _ _ => rfl, .inl rfl⟩
  · have hopen : ensureAtomic st a w.connections = .ok opened cs := hopen
    have hactivate : activate st a receiver cs = .error e cs₁ := hactivate
    obtain ⟨hopened, hrest, hno, hyes⟩ := ensureAtomic_ok hopen
    obtain ⟨hrest', hran, hwhy⟩ := activate_error hactivate
    simp only [after_setDepth, after_of_ok
      (exitAtomics_run cs₁ (by split <;> simp : (if opened = true then [a] else []).Nodup))]
    refine ⟨trivial, fun b hb => ?_, ?_⟩
    · have hnot : b ∉ (if opened = true then [a] else []) := by split <;> simp [hb]
      rw [if_neg hnot]
      exact (hrest' b hb).trans (hrest b hb)
    · cases opened with
      | true =>
        have hauto := not_inAtomicBlock_of_opensAtomic hopened.symm
        simp only [if_true, List.mem_singleton]
        rw [session_left hauto (hyes rfl) hran.frames]
        exact .inl (Txn.Session.eq_autocommit hauto).symm
      | false =>
        rw [hno rfl] at hran hwhy
        exact .inr ⟨hran, hwhy⟩

/-- The connection after the flag is cleared, by the block that set it. -/
def Connection.cleared (st : Settings) (alreadyActive : Bool) (c : Connection) : Connection :=
  if alreadyActive then c else (c.run (setConfig st.adminFlagVar "")).2

theorem adminBypassExit_run (st : Settings) (a : Alias) (w : World) (depthToken : Alias → Nat)
    (alreadyActive opened failed : Bool) :
    ∃ cs, adminBypassExit st a (.active depthToken alreadyActive opened) failed w =
        .ok () { w with
          contextVars := { w.contextVars with adminBypassDepth := depthToken }
          connections := cs } ∧
      (∀ b, b ≠ a → cs b = w.connections b) ∧
      cs a = if opened then (((w.connections a).cleared st alreadyActive).atomicExit failed).2
        else (w.connections a).cleared st alreadyActive := by
  have hclear : (if alreadyActive then pure () else attempt (onCell a (·.run (setConfig st.adminFlagVar ""))))
      w.connections = .ok () (Function.update w.connections a ((w.connections a).cleared st alreadyActive)) := by
    cases alreadyActive with
    | true => simp [Connection.cleared]
    | false =>
      simp only [Bool.false_eq_true, if_false, attempt_run, after_onCell]
      rfl
  have hnodup : (if opened then [a] else []).Nodup := by split <;> simp
  refine ⟨fun b =>
    if b ∈ (if opened then [a] else []) then
      ((Function.update w.connections a ((w.connections a).cleared st alreadyActive) b).atomicExit failed).2
    else Function.update w.connections a ((w.connections a).cleared st alreadyActive) b, ?_, fun b hb => ?_, ?_⟩
  · simp only [adminBypassExit, bind_run, db, zoom, hclear, exitAtomics_run _ hnodup]
    rfl
  · have hnot : b ∉ (if opened then [a] else []) := by split <;> simp [hb]
    simp only [if_neg hnot, Function.update_of_ne hb]
  · cases opened <;> simp

theorem Connection.cleared_ran (st : Settings) (alreadyActive : Bool) (c : Connection) :
    Connection.Ran (if alreadyActive then id else setConfig st.adminFlagVar "") c (c.cleared st alreadyActive) := by
  cases alreadyActive with
  | true => exact .refl c
  | false =>
    simp only [Connection.cleared, Bool.false_eq_true, if_false]
    cases hr : c.run (setConfig st.adminFlagVar "") with
    | mk r c' =>
      cases r with
      | ok u => exact (Connection.run_ok hr).1
      | error e => exact (Connection.run_error hr).1

end

/-! ## Runs of bypass blocks -/

section

variable {st : Settings} {G : Guard} {start : World} {c : Config} {w w' : World} {a : Alias}
  {receiver : Option Exc} {rest : List Block}

theorem Inv.enterBypass (h : Inv st G start c)
    (hok : isPostgresql st a = true → ∀ scope w', adminBypassEnter st a receiver c.world = .ok scope w' →
      Holds G w'.contextVars w'.connections)
    (herror : isPostgresql st a = true → ∀ e w', adminBypassEnter st a receiver c.world = .error e w' →
      Holds G c.world.contextVars w'.connections) :
    Inv st G start (step st c (.enterBypass a receiver)) := by
  simp only [step]
  cases hpg : isPostgresql st a with
  | false =>
    rw [adminBypassEnter_quiet hpg]
    cases receiver with
    | some e => exact h.stay rfl h.guarded
    | none => exact h.push rfl rfl trivial (fun b hb => absurd hb List.not_mem_nil) fun b _ => h.guarded b
  | true =>
    cases hr : adminBypassEnter st a receiver c.world with
    | ok scope w' =>
      have hG := hok hpg _ _ hr
      obtain ⟨opened, c₁, rfl, hw', hrest, hyes, hno, hran, -⟩ := adminBypassEnter_ok hpg hr
      have hv : w'.contextVars = c.world.contextVars.deeper a := by rw [hw']
      -- The other aliases only see the context change.
      have helse : ∀ b, b ≠ a → (w'.connections b).Guarded (G b) (start.connections b).frames
          (contextsOf b c.stack c.world.contextVars) w'.contextVars := fun b hb => by
        have hGb := hG b
        rw [hrest b hb] at hGb ⊢
        exact (h.guarded b).of_frames rfl hGb
      refine h.push (by rw [hw']) (by rw [hv]; rfl) ⟨hpg, by rw [hv]; rfl, rfl⟩ (fun b hb => ?_) (fun b hb => ?_)
      · cases opened with
        | false => exact absurd hb List.not_mem_nil
        | true =>
          obtain rfl : b = a := List.mem_singleton.mp hb
          exact ((h.guarded b).atomicEnter (hyes rfl)).of_ran hran (hG b)
      · by_cases hba : b = a
        · subst hba
          cases opened with
          | true => exact absurd (List.mem_singleton_self b) hb
          | false =>
            rw [hno rfl] at hran
            exact (h.guarded b).of_ran hran (hG b)
        · exact helse b hba
    | error e w' =>
      have hG := herror hpg _ _ hr
      obtain ⟨hw', hrest, hconn⟩ := adminBypassEnter_error hpg hr
      refine h.stay hw' fun b => ?_
      by_cases hb : b = a
      · subst hb
        rcases hconn with hsame | ⟨hran, -⟩
        · exact (h.guarded b).of_session hsame
        · exact (h.guarded b).of_ran hran (hG b)
      · rw [hrest b hb]
        exact h.guarded b

/-- Leaving a bypass block keeps the guard if clearing the flag makes the
settings right in the context outside. -/
theorem Inv.leaveBypass {scope : BypassScope} {failed : Bool} (h : Inv st G start ⟨w, .bypass a scope :: rest⟩)
    (hG : ∀ depthToken alreadyActive opened, scope = .active depthToken alreadyActive opened →
      ∀ b c', (b ≠ a → c' = w.connections b) → (b = a → c' = (w.connections a).cleared st alreadyActive) →
        c'.usable = true → G b { w.contextVars with adminBypassDepth := depthToken } c'.vars) :
    Inv st G start (step st ⟨w, .bypass a scope :: rest⟩ (.leave failed)) := by
  cases scope with
  | quiet => exact h.pop rfl rfl fun b => h.guarded_not_opened List.not_mem_nil
  | active depthToken alreadyActive opened =>
    obtain ⟨cs, hrun, hrest, ha⟩ :=
      adminBypassExit_run st a w depthToken alreadyActive opened failed
    simp only [step, Block.exit, after, hrun]
    refine h.pop rfl rfl fun b => ?_
    have hGb := hG depthToken alreadyActive opened rfl b
    by_cases hb : b = a
    · subst hb
      have hran := Connection.cleared_ran st alreadyActive (w.connections b)
      simp only [ha]
      cases opened with
      | true =>
        exact ((h.guarded_opened (List.mem_singleton_self b)).of_ran hran
          (hGb _ (fun hne => absurd rfl hne) fun _ => rfl)).atomicExit
      | false =>
        exact (h.guarded_not_opened (a := b) List.not_mem_nil).of_ran hran
          (hGb _ (fun hne => absurd rfl hne) fun _ => rfl)
    · have hnot : b ∉ (Block.bypass a (.active depthToken alreadyActive opened)).opened := by
        cases opened with
        | true => exact mt List.mem_singleton.mp hb
        | false => exact List.not_mem_nil
      simp only [hrest b hb]
      exact (h.guarded_not_opened hnot).of_frames rfl (hGb _ (fun _ => rfl) fun he => absurd he hb)

/-- The bypass blocks open on the alias. -/
def openBypasses (a : Alias) : List Block → Nat
  | [] => 0
  | .bypass b (.active _ _ _) :: rest => openBypasses a rest + if b = a then 1 else 0
  | _ :: rest => openBypasses a rest

/-- The depth map counts the open blocks. -/
theorem StackSound.depth_eq : ∀ {stack : List Block} {v : ContextVars}, StackSound st G start stack v →
    v.adminBypassDepth a = start.contextVars.adminBypassDepth a + openBypasses a stack
  | [], v, h => by
    rw [show v = start.contextVars from h]
    rfl
  | b :: rest, v, ⟨hb, _, hrest⟩ => by
    have hrec := StackSound.depth_eq hrest
    cases b with
    | bypass x scope =>
      cases scope with
      | quiet => exact hrec
      | active depthToken alreadyActive opened =>
        obtain ⟨-, hdepth, -⟩ := hb
        simp only [Block.outer] at hrec
        simp only [openBypasses, hdepth]
        by_cases hx : x = a
        · subst hx
          rw [Function.update_self, if_pos rfl, hrec]
          omega
        · rw [Function.update_of_ne (Ne.symm hx), if_neg hx, hrec]
          omega
    | _ => exact hrec

/-- A block of a run without tenant scopes. -/
def Block.BypassRun : Block → Prop
  | .usingScope _ => False
  | .setScope _ _ => False
  | _ => True

/-- The runs of bypass blocks, transactions and savepoints. -/
def bypassStep : Action → Bool
  | .enterUsing _ _ => false
  | .enterSet _ _ => false
  | _ => true

theorem step_bypassRun {x : Action} (h : ∀ b ∈ c.stack, b.BypassRun) (hx : bypassStep x = true) :
    ∀ b ∈ (step st c x).stack, b.BypassRun := by
  refine step_stack h ?_ ?_ ?_ ?_ ?_
  · exact fun _ _ _ => trivial
  · intro t using_ scope w' hact
    subst hact
    simp [bypassStep] at hx
  · intro t using_ token hact
    subst hact
    simp [bypassStep] at hx
  · exact fun _ _ _ _ => trivial
  · exact fun _ _ _ => trivial

/-- A step of a run of bypass blocks keeps the guard if entering and leaving
bypass blocks does. -/
theorem Inv.bypassStep {x : Action} (hG : RegionBlind G) (h : Inv st G start c)
    (hstack : ∀ b ∈ c.stack, b.BypassRun) (hx : bypassStep x = true)
    (hentered : ∀ a receiver, x = .enterBypass a receiver → Inv st G start (step st c (.enterBypass a receiver)))
    (hleft : ∀ w a scope rest failed, c = ⟨w, .bypass a scope :: rest⟩ →
      Inv st G start (step st ⟨w, .bypass a scope :: rest⟩ (.leave failed))) :
    Inv st G start (step st c x) := by
  cases x with
  | statement y inOrder => exact h.statement
  | enterAtomic y savepoint => exact h.enterAtomic
  | enterUsing t using_ => simp [Boundary.bypassStep] at hx
  | enterSet t using_ => simp [Boundary.bypassStep] at hx
  | enterBypass y receiver => exact hentered y receiver rfl
  | enterRegion region => exact h.enterRegion hG
  | leave failed =>
    obtain ⟨w, stack⟩ := c
    cases stack with
    | nil => exact h
    | cons b rest =>
      have hb := hstack b List.mem_cons_self
      cases b with
      | atomic y => exact h.leaveAtomic
      | usingScope scope => exact hb.elim
      | setScope token using_ => exact hb.elim
      | bypass y scope => exact hleft w y scope rest failed rfl
      | specificRegion token => exact h.leaveRegion hG

/-! ## Inside a block the flag is on -/

def FlagOn (st : Settings) : Guard := fun a v vars => 0 < v.adminBypassDepth a → vars st.adminFlagVar = "true"

theorem flagOn_regionBlind (st : Settings) : RegionBlind (FlagOn st) := fun _ _ _ _ h => h

theorem ContextVars.deeper_depth_of_ne {v : ContextVars} {b : Alias} (hb : b ≠ a) :
    (v.deeper a).adminBypassDepth b = v.adminBypassDepth b := by
  simp [deeper, Function.update_of_ne hb]

theorem flagOn_enterBypass (h : Inv st (FlagOn st) start c) :
    Inv st (FlagOn st) start (step st c (.enterBypass a receiver)) := by
  refine h.enterBypass (fun hpg scope w' hr b hu => ?_) (fun hpg e w' hr b hu => ?_)
  · obtain ⟨-, -, -, hw', hrest, -, -, -, -, hflag⟩ := adminBypassEnter_ok hpg hr
    by_cases hb : b = a
    · subst hb
      exact fun _ => hflag
    · have hv : w'.contextVars = c.world.contextVars.deeper a := by rw [hw']
      rw [hrest b hb] at hu ⊢
      have hold := (h.guarded b).of_vars hu
      rw [hv]
      intro hdepth
      rw [ContextVars.deeper_depth_of_ne hb] at hdepth
      exact hold hdepth
  · obtain ⟨-, hrest, hconn⟩ := adminBypassEnter_error hpg hr
    by_cases hb : b = a
    · subst hb
      rcases hconn with hsame | ⟨hran, -⟩
      · exact ((h.guarded b).of_session hsame).of_vars hu
      · rw [hran.vars hu]
        intro hdepth
        split
        · simp [setConfig]
        · exact (h.guarded b).of_vars (hran.usable hu) hdepth
    · rw [hrest b hb] at hu ⊢
      exact (h.guarded b).of_vars hu

/-- Inside an outer block the inner one does not clear the flag. -/
theorem flagOn_leaveBypass {scope : BypassScope} {failed : Bool}
    (h : Inv st (FlagOn st) start ⟨w, .bypass a scope :: rest⟩) :
    Inv st (FlagOn st) start (step st ⟨w, .bypass a scope :: rest⟩ (.leave failed)) := by
  refine h.leaveBypass fun depthToken alreadyActive opened hscope b c' hne heq hu hdepth => ?_
  subst hscope
  obtain ⟨⟨-, hinside, halready⟩, -⟩ := h.sound
  simp only at hinside hdepth
  have hopen : 0 < w.contextVars.adminBypassDepth b := by
    rw [hinside]
    by_cases hb : b = a
    · subst hb
      rw [Function.update_self]
      omega
    · rw [Function.update_of_ne hb]
      exact hdepth
  by_cases hb : b = a
  · have hactive : alreadyActive = true := by
      rw [halready, decide_eq_true_iff]
      exact hb ▸ hdepth
    have hc' : c' = w.connections b := by rw [heq hb, hactive, hb]; rfl
    rw [hc'] at hu ⊢
    exact h.holds b hu hopen
  · rw [hne hb] at hu ⊢
    exact h.holds b hu hopen

theorem flagOn_run (hstart : ∀ b, w.contextVars.adminBypassDepth b = 0)
    (hrun : Runs.Reaches (step st) (fun _ x => bypassStep x = true) ⟨w, []⟩ c) : Inv st (FlagOn st) w c := by
  have hkeep := hrun.invariant (fun c => Inv st (FlagOn st) w c ∧ ∀ b ∈ c.stack, b.BypassRun)
    ⟨.init fun b _ hdepth => by rw [hstart b] at hdepth; omega, fun b hb => by cases hb⟩ fun c x hinv hok =>
      ⟨hinv.1.bypassStep (flagOn_regionBlind st) hinv.2 hok (fun _ _ _ => flagOn_enterBypass hinv.1)
        (fun _ _ _ _ _ hc => flagOn_leaveBypass (hc ▸ hinv.1)), step_bypassRun hinv.2 hok⟩
  exact hkeep.1

/-- The bypass stays active for its whole block: wherever a block on the alias
is open and the connection takes statements, the flag reads `true`. -/
theorem flag_on_inside_blocks (hstart : ∀ b, w.contextVars.adminBypassDepth b = 0)
    (hrun : Runs.Reaches (step st) (fun _ x => bypassStep x = true) ⟨w, []⟩ c)
    (hopen : 0 < openBypasses a c.stack) (hu : (c.world.connections a).usable = true) :
    (c.world.connections a).vars st.adminFlagVar = "true" := by
  have hinv := flagOn_run hstart hrun
  have hdepth : c.world.contextVars.adminBypassDepth a = openBypasses a c.stack := by
    rw [hinv.sound.depth_eq, hstart a, Nat.zero_add]
  exact hinv.holds a hu (hdepth ▸ hopen)

/-! ## Outside every block the flag is off -/

def FlagOff (st : Settings) : Guard := fun a v vars =>
  isPostgresql st a = true → v.adminBypassDepth a = 0 → vars st.adminFlagVar ≠ "true"

theorem flagOff_regionBlind (st : Settings) : RegionBlind (FlagOff st) := fun _ _ _ _ h => h

/-- No receiver raises on entering a block that is the first one on its alias,
in a transaction that was already open and takes both statements. -/
def receiverQuiet (st : Settings) (c : Config) : Action → Bool
  | .enterBypass a (.some _) =>
    !(isPostgresql st a && (c.world.connections a).inAtomicBlock && c.world.contextVars.adminBypassDepth a == 0 &&
      (c.world.connections a).acceptsTwo)
  | _ => true

theorem flagOff_enterBypass (h : Inv st (FlagOff st) start c)
    (hquiet : receiverQuiet st c (.enterBypass a receiver) = true) :
    Inv st (FlagOff st) start (step st c (.enterBypass a receiver)) := by
  refine h.enterBypass (fun hpg scope w' hr b hu => ?_) (fun hpg e w' hr b hu => ?_)
  · obtain ⟨-, -, -, hw', hrest, -⟩ := adminBypassEnter_ok hpg hr
    have hv : w'.contextVars = c.world.contextVars.deeper a := by rw [hw']
    by_cases hb : b = a
    · subst hb
      intro _ hdepth
      rw [hv] at hdepth
      simp [ContextVars.deeper] at hdepth
    · rw [hrest b hb] at hu ⊢
      have hold := (h.guarded b).of_vars hu
      rw [hv]
      intro hpgb hdepth
      rw [ContextVars.deeper_depth_of_ne hb] at hdepth
      exact hold hpgb hdepth
  · obtain ⟨-, hrest, hconn⟩ := adminBypassEnter_error hpg hr
    by_cases hb : b = a
    · subst hb
      rcases hconn with hsame | ⟨hran, hwhy⟩
      · exact ((h.guarded b).of_session hsame).of_vars hu
      · intro _ hdepth
        cases hin : (c.world.connections b).inAtomicBlock with
        | true =>
          obtain ⟨hraised, htwo⟩ := hwhy hin hu
          obtain ⟨e', rfl⟩ := Option.isSome_iff_exists.mp hraised
          simp [receiverQuiet, hpg, hin, hdepth, htwo] at hquiet
        | false =>
          rw [hran.vars hu, if_neg (by rw [hin]; simp)]
          exact (h.guarded b).of_vars (hran.usable hu) hpg hdepth
    · rw [hrest b hb] at hu ⊢
      exact (h.guarded b).of_vars hu

/-- The outermost block clears the flag on its way out. -/
theorem flagOff_leaveBypass {scope : BypassScope} {failed : Bool}
    (h : Inv st (FlagOff st) start ⟨w, .bypass a scope :: rest⟩) :
    Inv st (FlagOff st) start (step st ⟨w, .bypass a scope :: rest⟩ (.leave failed)) := by
  refine h.leaveBypass fun depthToken alreadyActive opened hscope b c' hne heq hu hpg hdepth => ?_
  subst hscope
  obtain ⟨⟨-, hinside, halready⟩, -⟩ := h.sound
  simp only at hinside hdepth
  by_cases hb : b = a
  · subst hb
    have hactive : alreadyActive = false := by
      rw [halready, hdepth]
      rfl
    have hran := Connection.cleared_ran st alreadyActive (w.connections b)
    rw [← heq rfl, hactive] at hran
    rw [hran.vars hu]
    cases hin : (w.connections b).inAtomicBlock with
    | true => simp [setConfig]
    | false =>
      rw [(Connection.autocommit hin).2]
      simp [SessionVars.idle]
  · rw [hne hb] at hu ⊢
    refine h.holds b hu hpg ?_
    rw [hinside, Function.update_of_ne hb]
    exact hdepth

theorem flagOff_run (hstart : Holds (FlagOff st) w.contextVars w.connections)
    (hrun : Runs.Reaches (step st) (fun c x => (bypassStep x && receiverQuiet st c x) = true) ⟨w, []⟩ c) :
    Inv st (FlagOff st) w c := by
  have hkeep := hrun.invariant (fun c => Inv st (FlagOff st) w c ∧ ∀ b ∈ c.stack, b.BypassRun)
    ⟨.init hstart, fun b hb => by cases hb⟩ fun c x hinv hok => by
      rw [Bool.and_eq_true] at hok
      refine ⟨hinv.1.bypassStep (flagOff_regionBlind st) hinv.2 hok.1 (fun _ _ hx => ?_)
        (fun _ _ _ _ _ hc => flagOff_leaveBypass (hc ▸ hinv.1)), step_bypassRun hinv.2 hok.1⟩
      exact flagOff_enterBypass hinv.1 (hx ▸ hok.2)
  exact hkeep.1

/-- The bypass never outlives its block, where no receiver raises in a
transaction that was already open: wherever no block on the alias is open and
the connection takes statements, the flag is not `true`. -/
theorem flag_off_outside_blocks (hstart : ∀ b, w.contextVars.adminBypassDepth b = 0)
    (hoff : ∀ b, isPostgresql st b = true → (w.connections b).usable = true →
      (w.connections b).vars st.adminFlagVar ≠ "true")
    (hrun : Runs.Reaches (step st) (fun c x => (bypassStep x && receiverQuiet st c x) = true) ⟨w, []⟩ c)
    (hpg : isPostgresql st a = true) (hclosed : openBypasses a c.stack = 0)
    (hu : (c.world.connections a).usable = true) : (c.world.connections a).vars st.adminFlagVar ≠ "true" := by
  have hinv := flagOff_run (fun b hub hpgb _ => hoff b hpgb hub) hrun
  have hdepth : c.world.contextVars.adminBypassDepth a = openBypasses a c.stack := by
    rw [hinv.sound.depth_eq, hstart a, Nat.zero_add]
  exact hinv.holds a hu hpg (hdepth.trans hclosed)

end

/-! ## Runs in a deployment with two regions -/

namespace TwoRegions

/-- A block inside a block, around a savepoint that is rolled back. -/
def nestedBypass : List Action :=
  [.enterBypass "eu" .none, .enterAtomic "eu" true, .enterBypass "eu" .none, .statement "eu" false, .leave true,
    .leave true]

theorem autocommit_flag_off (b : Alias) : (autocommit.connections b).vars settings.adminFlagVar ≠ "true" := by
  show "" ≠ "true"
  decide

theorem flag_on_inside_nestedBypass :
    ((nestedBypass.foldl (step settings) ⟨autocommit, []⟩).world.connections "eu").vars settings.adminFlagVar =
      "true" :=
  flag_on_inside_blocks (w := autocommit) (fun _ => rfl) (.of_allowed (by decide)) (by decide) (by decide)

theorem flag_off_after_nestedBypass :
    (((nestedBypass ++ [Action.leave false]).foldl (step settings) ⟨autocommit, []⟩).world.connections "eu").vars
      settings.adminFlagVar ≠ "true" :=
  flag_off_outside_blocks (w := autocommit) (fun _ => rfl) (fun b _ _ => autocommit_flag_off b)
    (.of_allowed (by decide)) (by decide) (by decide) (by decide)

/-- In a transaction, a block whose receiver raises. -/
def raisingReceiver : List Action := [.enterAtomic "default" true, .enterBypass "default" (.some (.other "AuditError"))]

/-- No block is open after it, and the flag is on. -/
theorem raisingReceiver_keeps_flag :
    ¬ ∀ (st : Settings) (w : World) (c : Config) (a : Alias), (∀ b, w.contextVars.adminBypassDepth b = 0) →
      (∀ b, isPostgresql st b = true → (w.connections b).usable = true →
        (w.connections b).vars st.adminFlagVar ≠ "true") →
      Runs.Reaches (step st) (fun _ x => bypassStep x = true) ⟨w, []⟩ c → isPostgresql st a = true →
      openBypasses a c.stack = 0 → (c.world.connections a).usable = true →
      (c.world.connections a).vars st.adminFlagVar ≠ "true" := by
  intro hclaim
  have hoff := hclaim settings autocommit (raisingReceiver.foldl (step settings) ⟨autocommit, []⟩) "default"
    (fun _ => rfl) (fun b _ _ => autocommit_flag_off b) (.of_allowed (by decide)) (by decide)
    (by decide) (by decide)
  exact hoff (by decide)

end TwoRegions

end Boundary
