/-
What well-nested runs keep. A guard `G` says, for each alias, which settings
are right in a context; `Inv` says that they are right now on every
connection that takes statements, and will be right again, in the context
outside, whichever open blocks are left and however they end.

Each action keeps `Inv` for any guard, as far as transactions go; what is
left to a guard is what a scope's writes do to it.
-/
import Boundary.Run
import Boundary.ContextFacts
import Boundary.Lib.Runs

namespace Boundary

open Exec TenantContext

abbrev Guard := Alias → ContextVars → SessionVars → Prop

/-- What an entered block holds, in the context inside it. -/
def Block.Sound (st : Settings) (tenants : TenantRef → Tenant) (v : ContextVars) : Block → Prop
  | .usingScope scope =>
    scope.previous = scope.token ∧
      scope.aliases = aliasesFor st (v.currentTenant.map tenants) scope.base ∧ scope.opened.Nodup
  | .bypass a (.active depthToken alreadyActive _) =>
    isPostgresql st a = true ∧ v.adminBypassDepth = Function.update depthToken a (depthToken a + 1) ∧
      alreadyActive = decide (depthToken a > 0)
  | _ => True

/-- Every open block is sound, and where nothing is open on an alias outside
it, the guard holds there of an idle connection; outside all of them is the
context the run started in. -/
def StackSound (st : Settings) (G : Guard) (start : World) : List Block → ContextVars → Prop
  | [], v => v = start.contextVars
  | b :: rest, v =>
    b.Sound st start.tenants v ∧
      (∀ a, contextsOf a rest (b.outer v) = [] → (start.connections a).frames = [] → G a (b.outer v) .idle) ∧
      StackSound st G start rest (b.outer v)

/-- The connection's settings are guarded in the context `v`, inside the
blocks entered in the contexts `cs`. -/
abbrev Connection.Guarded (G : ContextVars → SessionVars → Prop) (base : List (Option SessionVars))
    (cs : List ContextVars) (v : ContextVars) (c : Connection) : Prop :=
  c.session.Guarded .idle G base cs v

/-- What a run from `start` keeps. -/
structure Inv (st : Settings) (G : Guard) (start : World) (c : Config) : Prop where
  unchanged : c.world.tenants = start.tenants
  sound : StackSound st G start c.stack c.world.contextVars
  guarded : ∀ a, (c.world.connections a).Guarded (G a) (start.connections a).frames
    (contextsOf a c.stack c.world.contextVars) c.world.contextVars

namespace Connection

variable {G : ContextVars → SessionVars → Prop} {base : List (Option SessionVars)} {cs : List ContextVars}
  {v v' : ContextVars} {c c' : Connection} {f : SessionVars → SessionVars}

theorem Guarded.of_session (h : c.Guarded G base cs v) (hs : c'.session = c.session) : c'.Guarded G base cs v := by
  unfold Guarded
  rw [hs]
  exact h

theorem Guarded.of_ran (h : c.Guarded G base cs v) (hr : Ran f c c') (hG : c'.usable = true → G v' c'.vars) :
    c'.Guarded G base cs v' :=
  h.of_frames hr.frames hG

theorem Guarded.of_vars (h : c.Guarded G base cs v) (hu : c.usable = true) : G v c.vars := h.current hu

theorem Guarded.frames_eq_nil (h : c.Guarded G base cs v) : c.frames = [] ↔ cs = [] ∧ base = [] := by
  obtain ⟨fs, hfs, hall⟩ := h.stacked
  have hframes : c.frames = fs ++ base := hfs
  rw [hframes, List.append_eq_nil_iff]
  constructor
  · intro ⟨h₁, h₂⟩
    subst h₁
    exact ⟨List.forall₂_nil_right_iff.mp hall, h₂⟩
  · intro ⟨h₁, h₂⟩
    subst h₁
    exact ⟨List.forall₂_nil_left_iff.mp hall, h₂⟩

theorem Guarded.idle (h : c.Guarded G base cs v) (hcs : cs = []) (hb : base = []) : G v .idle := by
  have hauto : c.inAtomicBlock = false := by
    rw [← Bool.not_eq_true, inAtomicBlock_iff, not_not]
    exact h.frames_eq_nil.mpr ⟨hcs, hb⟩
  obtain ⟨hu, hv⟩ := autocommit hauto
  rw [← hv]
  exact h.of_vars hu

theorem Guarded.inAtomicBlock (h : c.Guarded G base cs v) (hne : ¬(cs = [] ∧ base = [])) :
    c.inAtomicBlock = true :=
  inAtomicBlock_iff.mpr fun hnil => hne (h.frames_eq_nil.mp hnil)

theorem Guarded.atomicEnter {savepoint : Bool} {u : Unit} (h : c.Guarded G base cs v)
    (he : c.atomicEnter savepoint = (.ok u, c')) : c'.Guarded G base (v :: cs) v :=
  h.enter (atomicEnter_ok he).1

theorem Guarded.atomicExit {failed : Bool} (h : c.Guarded G base (v :: cs) v) :
    (c.atomicExit failed).2.Guarded G base cs v := by
  unfold Guarded
  rw [session_atomicExit]
  exact h.leave

end Connection

theorem contextsOf_opened {a : Alias} {b : Block} (rest : List Block) (v : ContextVars) (ha : a ∈ b.opened) :
    contextsOf a (b :: rest) v = b.outer v :: contextsOf a rest (b.outer v) := if_pos ha

theorem contextsOf_not_opened {a : Alias} {b : Block} (rest : List Block) (v : ContextVars) (ha : a ∉ b.opened) :
    contextsOf a (b :: rest) v = contextsOf a rest (b.outer v) := if_neg ha

section

variable {st : Settings} {G : Guard} {start : World} {c : Config} {w w' : World}
  {b : Block} {rest : List Block}

theorem Inv.init (h : ∀ a, (w.connections a).usable = true → G a w.contextVars (w.connections a).vars) :
    Inv st G w ⟨w, []⟩ :=
  ⟨rfl, rfl, fun a => .start (h a)⟩

/-! ## Entering and leaving a block -/

theorem Inv.push (h : Inv st G start c) (ht : w'.tenants = c.world.tenants)
    (hout : b.outer w'.contextVars = c.world.contextVars) (hb : b.Sound st start.tenants w'.contextVars)
    (hin : ∀ a ∈ b.opened, (w'.connections a).Guarded (G a) (start.connections a).frames
      (c.world.contextVars :: contextsOf a c.stack c.world.contextVars) w'.contextVars)
    (hnot : ∀ a, a ∉ b.opened → (w'.connections a).Guarded (G a) (start.connections a).frames
      (contextsOf a c.stack c.world.contextVars) w'.contextVars) :
    Inv st G start ⟨w', b :: c.stack⟩ where
  unchanged := ht.trans h.unchanged
  sound := by
    refine ⟨hb, ?_, ?_⟩
    · intro a hcs hbase
      rw [hout] at hcs ⊢
      exact (h.guarded a).idle hcs hbase
    · rw [hout]
      exact h.sound
  guarded a := by
    by_cases ha : a ∈ b.opened
    · rw [contextsOf_opened _ _ ha, hout]
      exact hin a ha
    · rw [contextsOf_not_opened _ _ ha, hout]
      exact hnot a ha

theorem Inv.pop (h : Inv st G start ⟨w, b :: rest⟩) (ht : w'.tenants = w.tenants)
    (hv : w'.contextVars = b.outer w.contextVars)
    (hg : ∀ a, (w'.connections a).Guarded (G a) (start.connections a).frames (contextsOf a rest (b.outer w.contextVars))
      (b.outer w.contextVars)) :
    Inv st G start ⟨w', rest⟩ where
  unchanged := ht.trans h.unchanged
  sound := by
    rw [hv]
    exact h.sound.2.2
  guarded a := by
    rw [hv]
    exact hg a

/-- Whatever leaves the stack and the context as they are. -/
theorem Inv.stay (h : Inv st G start c) (hw : w' = { c.world with connections := w'.connections })
    (hg : ∀ a, (w'.connections a).Guarded (G a) (start.connections a).frames (contextsOf a c.stack c.world.contextVars)
      c.world.contextVars) :
    Inv st G start ⟨w', c.stack⟩ := by
  rw [hw]
  exact ⟨h.unchanged, h.sound, hg⟩

theorem Inv.guarded_opened (h : Inv st G start ⟨w, b :: rest⟩) {a : Alias} (ha : a ∈ b.opened) :
    (w.connections a).Guarded (G a) (start.connections a).frames
      (b.outer w.contextVars :: contextsOf a rest (b.outer w.contextVars))
      w.contextVars := by
  have hg := h.guarded a
  rw [contextsOf_opened _ _ ha] at hg
  exact hg

theorem Inv.guarded_not_opened (h : Inv st G start ⟨w, b :: rest⟩) {a : Alias} (ha : a ∉ b.opened) :
    (w.connections a).Guarded (G a) (start.connections a).frames
      (contextsOf a rest (b.outer w.contextVars)) w.contextVars := by
  have hg := h.guarded a
  rw [contextsOf_not_opened _ _ ha] at hg
  exact hg

/-- Where a block opened nothing and no transaction is open, the guard holds
of an idle connection in the context outside. -/
theorem Inv.guard_outside (h : Inv st G start ⟨w, b :: rest⟩) {a : Alias} (ha : a ∉ b.opened)
    (hauto : (w.connections a).inAtomicBlock = false) : G a (b.outer w.contextVars) .idle := by
  have hg := h.guarded_not_opened ha
  by_cases hcs : contextsOf a rest (b.outer w.contextVars) = [] ∧ (start.connections a).frames = []
  · exact h.sound.2.1 a hcs.1 hcs.2
  · rw [hg.inAtomicBlock hcs] at hauto
    cases hauto

theorem Inv.inAtomicBlock (h : Inv st G start ⟨w, b :: rest⟩) {a : Alias} (ha : a ∈ b.opened) :
    (w.connections a).inAtomicBlock = true := by
  exact (h.guarded_opened ha).inAtomicBlock (by simp)

/-! ## Statements and transactions -/

theorem afterStatement_ran (inOrder : Bool) (c : Connection) : Connection.Ran id c (c.afterStatement inOrder) := by
  unfold Connection.afterStatement
  split
  · exact (Connection.execute_spec rfl).1
  · have hran : Connection.Ran id { c with faults := true :: c.faults }
        ({ c with faults := true :: c.faults }.execute id).2 := (Connection.execute_spec rfl).1
    exact ⟨hran.frames, hran.usable, hran.vars⟩

theorem Inv.statement {a : Alias} {inOrder : Bool} (h : Inv st G start c) :
    Inv st G start (step st c (.statement a inOrder)) := by
  simp only [step]
  split
  · exact h
  refine h.stay rfl fun x => ?_
  by_cases hx : x = a
  · subst hx
    have hran := afterStatement_ran inOrder (c.world.connections x)
    simp only [World.onConnection, Function.update_self]
    refine (h.guarded x).of_ran hran fun hu => ?_
    rw [hran.vars hu]
    simpa using (h.guarded x).of_vars (hran.usable hu)
  · simpa only [World.onConnection, Function.update_of_ne hx] using h.guarded x

theorem Inv.enterAtomic {a : Alias} {savepoint : Bool} (h : Inv st G start c) :
    Inv st G start (step st c (.enterAtomic a savepoint)) := by
  simp only [step]
  split
  · exact h
  cases hr : db (onCell a (·.atomicEnter savepoint)) c.world with
  | ok u w' =>
    obtain ⟨cs, hcs, rfl⟩ := db_ok_iff.mp hr
    rw [onCell_ok_iff] at hcs
    refine h.push rfl rfl trivial (fun x hx => ?_) (fun x hx => ?_)
    · obtain rfl : x = a := List.mem_singleton.mp hx
      exact (h.guarded x).atomicEnter hcs.1
    · have hne : x ≠ a := fun he => hx (List.mem_singleton.mpr he)
      simpa only [hcs.2 x hne] using h.guarded x
  | error e w' =>
    obtain ⟨cs, hcs, rfl⟩ := db_error_iff.mp hr
    rw [onCell_error_iff] at hcs
    refine h.stay rfl fun x => ?_
    by_cases hx : x = a
    · subst hx
      simpa only [Connection.atomicEnter_error hcs.1] using h.guarded x
    · simpa only [hcs.2 x hx] using h.guarded x

theorem Inv.leaveAtomic {a : Alias} {failed : Bool} (h : Inv st G start ⟨w, .atomic a :: rest⟩) :
    Inv st G start (step st ⟨w, .atomic a :: rest⟩ (.leave failed)) := by
  simp only [step, Block.exit, after_db, after_onCell]
  refine h.pop rfl rfl fun x => ?_
  by_cases hx : x = a
  · subst hx
    simpa only [Function.update_self] using (h.guarded_opened (List.mem_singleton_self x)).atomicExit
  · simp only [Function.update_of_ne hx]
    exact h.guarded_not_opened (mt List.mem_singleton.mp hx)

/-! ## The region override -/

/-- The guard does not look at the region override. -/
def RegionBlind (G : Guard) : Prop := ∀ a v o vars, G a v vars → G a { v with regionOverride := o } vars

theorem Inv.enterRegion {region : String} (hG : RegionBlind G) (h : Inv st G start c) :
    Inv st G start (step st c (.enterRegion region)) := by
  refine h.push rfl rfl trivial (fun a ha => absurd ha List.not_mem_nil) fun a _ => ?_
  exact (h.guarded a).of_frames rfl fun hu => hG _ _ _ _ ((h.guarded a).of_vars hu)

theorem Inv.leaveRegion {token : Option String} {failed : Bool} (hG : RegionBlind G)
    (h : Inv st G start ⟨w, .specificRegion token :: rest⟩) :
    Inv st G start (step st ⟨w, .specificRegion token :: rest⟩ (.leave failed)) := by
  refine h.pop rfl rfl fun a => ?_
  have hg := h.guarded_not_opened (a := a) List.not_mem_nil
  exact hg.of_frames rfl fun hu => hG _ _ _ _ (hg.of_vars hu)

/-! ## Tenant scopes -/

/-- The guard holds of every usable connection. -/
def Holds (G : Guard) (v : ContextVars) (cs : Connections) : Prop :=
  ∀ a, (cs a).usable = true → G a v (cs a).vars

theorem Inv.holds (h : Inv st G start c) : Holds G c.world.contextVars c.world.connections :=
  fun a hu => (h.guarded a).of_vars hu

theorem Inv.enterUsing {t : Option TenantRef} {using_ : Alias} (h : Inv st G start c)
    (hok : ∀ scope w', usingEnter st t using_ c.world = .ok scope w' → Holds G w'.contextVars w'.connections)
    (herror : ∀ e w', usingEnter st t using_ c.world = .error e w' → Holds G c.world.contextVars w'.connections) :
    Inv st G start (step st c (.enterUsing t using_)) := by
  simp only [step]
  cases hr : usingEnter st t using_ c.world with
  | ok scope w' =>
    have hG := hok _ _ hr
    obtain ⟨hw', rfl, hconn⟩ := usingEnter_spec hr
    have hv : w'.contextVars = { c.world.contextVars with currentTenant := t } := by rw [hw']; rfl
    refine h.push (by rw [hw']; rfl) ?_ ⟨rfl, ?_, ?_⟩ (fun a ha => ?_) (fun a ha => ?_)
    · rw [hv]; rfl
    · rw [hv, ← h.unchanged]; rfl
    · exact (nodup_aliasesFor st _ using_).filter _
    · obtain ⟨c₁, henter, -, hran, -⟩ := hconn a
      exact ((h.guarded a).atomicEnter (henter ha)).of_ran hran (hG a)
    · obtain ⟨c₁, -, hsame, hran, -⟩ := hconn a
      rw [hsame ha] at hran
      exact (h.guarded a).of_ran hran (hG a)
  | error e w' =>
    have hG := herror _ _ hr
    obtain ⟨hw', hsame | ⟨u, pre, x, -, hrefused⟩⟩ := usingEnter_error_spec hr
    · exact h.stay hw' fun a => (h.guarded a).of_session (hsame a)
    · refine h.stay hw' fun a => ?_
      by_cases ho : opensAtomic st c.world.connections a = true
      · exact (h.guarded a).of_session (hrefused.undone a ho)
      rw [Bool.not_eq_true] at ho
      by_cases hap : a ∈ pre
      · exact (h.guarded a).of_ran (setDbSessionOn_ok (hrefused.wrote a hap ho)).1 (hG a)
      by_cases hax : a = x
      · subst hax
        exact (h.guarded a).of_ran (setDbSessionOn_error (hrefused.raised ho)).1 (hG a)
      · exact (h.guarded a).of_session (hrefused.rest a hap hax)

theorem Inv.enterSet {t : Option TenantRef} {using_ : Alias} (h : Inv st G start c)
    (hok : ∀ token w', TenantContext.set st t using_ c.world = .ok token w' →
      Holds G w'.contextVars w'.connections)
    (herror : ∀ e w', TenantContext.set st t using_ c.world = .error e w' →
      Holds G c.world.contextVars w'.connections) :
    Inv st G start (step st c (.enterSet t using_)) := by
  simp only [step]
  cases hr : TenantContext.set st t using_ c.world with
  | ok token w' =>
    have hG := hok _ _ hr
    obtain ⟨rfl, hw', hran⟩ := set_spec hr
    refine h.push (by rw [hw']; rfl) (by rw [hw']; rfl) trivial (fun a ha => absurd ha List.not_mem_nil) ?_
    exact fun a _ => (h.guarded a).of_ran (hran a).1 (hG a)
  | error e w' =>
    have hG := herror _ _ hr
    obtain ⟨u, pre, x, post, -, -, hw', hpre, hx, hrest⟩ := set_error_spec hr
    refine h.stay hw' fun a => ?_
    by_cases hap : a ∈ pre
    · exact (h.guarded a).of_ran (setDbSessionOn_ok (hpre a hap)).1 (hG a)
    by_cases hax : a = x
    · subst hax
      exact (h.guarded a).of_ran (setDbSessionOn_error hx).1 (hG a)
    · rw [hrest a hap hax]
      exact h.guarded a

/-- Leaving a `using` block keeps the guard if its writes make the settings
right in the context outside. -/
theorem Inv.leaveUsing {scope : UsingScope} {failed : Bool}
    (h : Inv st G start ⟨w, .usingScope scope :: rest⟩)
    (hG : ∀ a c', Connection.Ran
        (restoreVars st scope.aliases (againOf st start.tenants scope.base scope.token) a) (w.connections a) c' →
      c'.usable = true → G a { w.contextVars with currentTenant := scope.token } c'.vars) :
    Inv st G start (step st ⟨w, .usingScope scope :: rest⟩ (.leave failed)) := by
  obtain ⟨⟨hprev, haliases, hopened⟩, -⟩ := h.sound
  have ht : w.tenants = start.tenants := h.unchanged
  have hnodup : scope.aliases.Nodup := by rw [haliases]; exact nodup_aliasesFor st _ _
  have hrun := usingExit_run st failed w hnodup hopened
  rw [hprev, ht] at hrun
  simp only [step, Block.exit, after, hrun]
  refine h.pop rfl rfl fun a => ?_
  have hran := restoreOn_ran st scope.aliases (againOf st start.tenants scope.base scope.token) a (w.connections a)
  simp only [World.withTenant]
  by_cases ha : a ∈ scope.opened
  · rw [if_pos ha]
    exact ((h.guarded_opened ha).of_ran hran (hG a _ hran)).atomicExit
  · rw [if_neg ha]
    exact (h.guarded_not_opened ha).of_ran hran (hG a _ hran)

theorem Inv.leaveSet {token : Token} {using_ : Alias} {failed : Bool}
    (h : Inv st G start ⟨w, .setScope token using_ :: rest⟩)
    (hG : ∀ a c', Connection.Ran
        (restoreVars st
          (match w.contextVars.currentTenant with
          | .some t => aliasesFor st (.some (start.tenants t)) using_
          | .none => [using_]) (againOf st start.tenants using_ token) a) (w.connections a) c' →
      c'.usable = true → G a { w.contextVars with currentTenant := token } c'.vars) :
    Inv st G start (step st ⟨w, .setScope token using_ :: rest⟩ (.leave failed)) := by
  have ht : w.tenants = start.tenants := h.unchanged
  simp only [step, Block.exit, after, clear_run, ht]
  refine h.pop rfl rfl fun a => ?_
  have hg := h.guarded_not_opened (a := a) List.not_mem_nil
  exact hg.of_ran (restoreOn_ran _ _ _ a (w.connections a)) (hG a _ (restoreOn_ran _ _ _ a (w.connections a)))

end

/-! ## Runs of tenant scopes -/

/-- A block of a run without the admin bypass, every scope with the base
alias `x`. -/
def Block.TenantRun (x : Alias) : Block → Prop
  | .usingScope scope => scope.base = x
  | .setScope _ using_ => using_ = x
  | .bypass _ _ => False
  | _ => True

def Action.TenantRun (x : Alias) : Action → Prop
  | .enterUsing _ using_ => using_ = x
  | .enterSet _ using_ => using_ = x
  | .enterBypass _ _ => False
  | _ => True

/-- What holds of the open blocks, and of the one the action enters, holds of
the open ones afterwards. -/
theorem step_stack {st : Settings} {c : Config} {a : Action} {P : Block → Prop} (h : ∀ b ∈ c.stack, P b)
    (hatomic : ∀ x savepoint, a = .enterAtomic x savepoint → P (.atomic x))
    (husing : ∀ t using_ scope w', a = .enterUsing t using_ → usingEnter st t using_ c.world = .ok scope w' →
      P (.usingScope scope))
    (hset : ∀ t using_ token, a = .enterSet t using_ → P (.setScope token using_))
    (hbypass : ∀ x receiver scope, a = .enterBypass x receiver → P (.bypass x scope))
    (hregion : ∀ region token, a = .enterRegion region → P (.specificRegion token)) :
    ∀ b ∈ (step st c a).stack, P b := by
  have hentered : ∀ {α : Type} {block : α → Block} {r : EStateM.Result Exc World α},
      (∀ s w', r = .ok s w' → P (block s)) → ∀ b ∈ (c.entered block r).stack, P b := by
    intro α block r hr b hb
    cases r with
    | ok s w' =>
      rcases List.mem_cons.mp hb with rfl | hb
      · exact hr s w' rfl
      · exact h b hb
    | error e w' => exact h b hb
  cases a with
  | statement x inOrder =>
    simp only [step]
    split
    · exact h
    · exact h
  | enterAtomic x savepoint =>
    simp only [step]
    split
    · exact h
    · exact hentered fun _ _ _ => hatomic x savepoint rfl
  | enterUsing t using_ => exact hentered fun scope w' hr => husing t using_ scope w' rfl hr
  | enterSet t using_ => exact hentered fun token _ _ => hset t using_ token rfl
  | enterBypass x receiver => exact hentered fun scope _ _ => hbypass x receiver scope rfl
  | enterRegion region => exact hentered fun token _ _ => hregion region token rfl
  | leave failed =>
    simp only [step]
    split
    · exact h
    · next b rest hstack =>
      intro b' hb'
      exact h b' (by rw [hstack]; exact List.mem_cons_of_mem _ hb')

theorem step_tenantRun {st : Settings} {c : Config} {a : Action} {x : Alias}
    (h : ∀ b ∈ c.stack, b.TenantRun x) (ha : a.TenantRun x) : ∀ b ∈ (step st c a).stack, b.TenantRun x := by
  refine step_stack h ?_ ?_ ?_ ?_ ?_
  · exact fun _ _ _ => trivial
  · intro t using_ scope w' hact hr
    subst hact
    obtain ⟨-, rfl, -⟩ := usingEnter_spec hr
    exact ha
  · intro t using_ token hact
    subst hact
    exact ha
  · intro y receiver scope hact
    subst hact
    exact ha.elim
  · exact fun _ _ _ => trivial

end Boundary
