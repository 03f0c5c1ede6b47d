/-
What a task reads and changes of a table over a whole run: rows of the tenants
it enters scopes for, and no other's, whatever fails and is rolled back in
between.

The rows are beside the connections. An open block holds the rows it was
entered with, and when it is left it may take them back: which blocks do is
arbitrary here, so the results hold for whatever the server rolls back. The
statements are the task's own; what they answer is kept.
-/
import Boundary.VisibleRows

namespace Boundary

open Exec TenantContext

variable {δ : Type}

/-! ## The contexts of a run -/

/-- The contexts of the open blocks, the innermost first. -/
def contextsIn : List Block → ContextVars → List ContextVars
  | [], v => [v]
  | b :: rest, v => v :: contextsIn rest (b.outer v)

/-- The tenant a scope is entered for. -/
def Action.tenant? : Action → Option TenantRef
  | .enterUsing t _ => t
  | .enterSet t _ => t
  | _ => .none

/-- What a step does to the context and the open blocks. -/
inductive ContextStep (x : Action) (c c' : Config) : Prop
  | stayed (stack : c'.stack = c.stack) (context : c'.world.contextVars = c.world.contextVars)
  | entered (b : Block) (stack : c'.stack = b :: c.stack)
      (outside : b.outer c'.world.contextVars = c.world.contextVars)
      (inside : c'.world.contextVars.currentTenant = c.world.contextVars.currentTenant ∨
        c'.world.contextVars.currentTenant = x.tenant?)
  | left (b : Block) (stack : c.stack = b :: c'.stack)
      (context : c'.world.contextVars = b.outer c.world.contextVars)

section

variable {st : Settings} {G : Guard} {start : World} {c : Config} {x : Action}

theorem contextStep_enterBypass {a : Alias} {receiver : Option Exc} :
    ContextStep (.enterBypass a receiver) c (step st c (.enterBypass a receiver)) := by
  simp only [step]
  cases hpg : isPostgresql st a with
  | false =>
    rw [adminBypassEnter_quiet hpg]
    cases receiver with
    | some e => exact .stayed rfl rfl
    | none => exact .entered _ rfl rfl (.inl rfl)
  | true =>
    cases hr : adminBypassEnter st a receiver c.world with
    | ok scope w' =>
      obtain ⟨opened, c₁, rfl, hw', -⟩ := adminBypassEnter_ok hpg hr
      rw [hw']
      exact .entered _ rfl rfl (.inl rfl)
    | error e w' =>
      obtain ⟨hw', -⟩ := adminBypassEnter_error hpg hr
      rw [hw']
      exact .stayed rfl rfl

theorem contextStep_leave {failed : Bool} (h : StackSound st G start c.stack c.world.contextVars) :
    ContextStep (.leave failed) c (step st c (.leave failed)) := by
  obtain ⟨w, stack⟩ := c
  cases stack with
  | nil => exact .stayed rfl rfl
  | cons b rest =>
    obtain ⟨hb, -, -⟩ := h
    refine .left b rfl ?_
    simp only [step]
    cases b with
    | atomic a => simp only [Block.exit, after_db, Block.outer]
    | usingScope scope =>
      obtain ⟨-, haliases, hopened⟩ := hb
      have hnodup : scope.aliases.Nodup := by rw [haliases]; exact nodup_aliasesFor st _ _
      simp only [Block.exit, after_of_ok (usingExit_run st failed w hnodup hopened), World.withTenant, Block.outer]
    | setScope token base => simp only [Block.exit, after_of_ok (clear_run w), World.withTenant, Block.outer]
    | bypass a scope =>
      cases scope with
      | quiet => rfl
      | active depthToken alreadyActive opened =>
        obtain ⟨cs, hrun, -⟩ := adminBypassExit_run st a w depthToken alreadyActive opened failed
        simp only [Block.exit, after_of_ok hrun, Block.outer]
    | specificRegion token => rfl

/-- Of any step, in a state whose blocks are sound. -/
theorem contextStep (h : StackSound st G start c.stack c.world.contextVars) : ContextStep x c (step st c x) := by
  cases x with
  | statement a inOrder =>
    simp only [step]
    split
    · exact .stayed rfl rfl
    · exact .stayed rfl rfl
  | enterAtomic a savepoint =>
    simp only [step]
    split
    · exact .stayed rfl rfl
    · cases hr : db (onCell a (·.atomicEnter savepoint)) c.world with
      | ok u w' =>
        obtain ⟨cs, -, rfl⟩ := db_ok_iff.mp hr
        exact .entered _ rfl rfl (.inl rfl)
      | error e w' =>
        obtain ⟨cs, -, rfl⟩ := db_error_iff.mp hr
        exact .stayed rfl rfl
  | enterUsing t base =>
    simp only [step]
    cases hr : usingEnter st t base c.world with
    | ok scope w' =>
      obtain ⟨hw', rfl, -⟩ := usingEnter_spec hr
      rw [hw']
      exact .entered _ rfl rfl (.inr rfl)
    | error e w' =>
      obtain ⟨hw', -⟩ := usingEnter_error_spec hr
      rw [hw']
      exact .stayed rfl rfl
  | enterSet t base =>
    simp only [step]
    cases hr : TenantContext.set st t base c.world with
    | ok token w' =>
      obtain ⟨rfl, hw', -⟩ := set_spec hr
      rw [hw']
      exact .entered _ rfl rfl (.inr rfl)
    | error e w' =>
      obtain ⟨_, _, _, _, -, -, hw', -⟩ := set_error_spec hr
      rw [hw']
      exact .stayed rfl rfl
  | enterBypass a receiver => exact contextStep_enterBypass
  | enterRegion region => exact .entered _ rfl rfl (.inl rfl)
  | leave failed => exact contextStep_leave h

/-- Every context of the run is of no tenant, or of one of `mine`. -/
def TenantsIn (mine : TenantRef → Bool) (c : Config) : Prop :=
  ∀ v ∈ contextsIn c.stack c.world.contextVars, ∀ t, v.currentTenant = .some t → mine t = true

theorem current_mem_contextsIn (stack : List Block) (v : ContextVars) : v ∈ contextsIn stack v := by
  cases stack with
  | nil => exact List.mem_singleton_self v
  | cons b rest => exact List.mem_cons_self

theorem TenantsIn.step {mine : TenantRef → Bool} (h : TenantsIn mine c)
    (hsound : StackSound st G start c.stack c.world.contextVars)
    (hmine : ∀ t, x.tenant? = .some t → mine t = true) : TenantsIn mine (step st c x) := by
  cases contextStep (x := x) hsound with
  | stayed hstack hcontext =>
    unfold TenantsIn
    rw [hstack, hcontext]
    exact h
  | entered b hstack houtside hinside =>
    unfold TenantsIn
    rw [hstack, contextsIn, houtside]
    intro v hv t ht
    rcases List.mem_cons.mp hv with rfl | hv
    · rcases hinside with hsame | hnew
      · exact h _ (current_mem_contextsIn _ _) t (hsame ▸ ht)
      · exact hmine t (hnew ▸ ht)
    · exact h v hv t ht
  | left b hstack hcontext =>
    intro v hv
    rw [hcontext] at hv
    refine h v ?_
    rw [hstack, contextsIn]
    exact List.mem_cons_of_mem _ hv

end

/-! ## Rows beside a run -/

/-- A task, with the rows of a table on each alias, and what its statements on
the table answered. -/
structure Working (δ : Type) where
  config : Config
  ledgers : Alias → Txn.Ledger (Sql.Heap (SqlRow δ))
  answers : List (SqlRow δ) := []

inductive RowAction (δ : Type) where
  /-- A step that touches no row of the table. A block it leaves takes the rows
  of an alias back where `back` says so. -/
  | block (x : Action) (back : Alias → Bool)
  | onTable (using_ : Alias) (stmt : RowStatement δ)

/-- The rows of an alias, as a block is entered or left on it. -/
def followBlocks (before after : List Block) (back : Bool) (a : Alias) (l : Txn.Ledger (Sql.Heap (SqlRow δ))) :
    Txn.Ledger (Sql.Heap (SqlRow δ)) :=
  if before.length < after.length then
    if after.head?.any fun b => a ∈ b.opened then l.enter else l
  else if after.length < before.length then
    if before.head?.any fun b => a ∈ b.opened then l.leave back else l
  else l

/-- The connection can be had, and takes the next statement. -/
def Connection.takes (c : Connection) : Bool := (c.opened || c.reachable) && c.accepts

section

variable [DecidableEq δ] (st : Settings) (s : SqlSession δ) (on : TableOn δ)

/-- What the statement does to the rows of an alias in the session of its connection. -/
def execOn (c : Connection) (a : Alias) (stmt : RowStatement δ) (h : Sql.Heap (SqlRow δ)) :
    Sql.Outcome (SqlRow δ) × Sql.Heap (SqlRow δ) :=
  (s.guardOn on c a).exec (stmt.toDml (s.on c) (on.cat a) (on.definition a) on.serial) h

def rowStep (w : Working δ) : RowAction δ → Working δ
  | .block x back =>
    let config := step st w.config x
    { w with config, ledgers := fun a => followBlocks w.config.stack config.stack (back a) a (w.ledgers a) }
  | .onTable a stmt =>
    let c := w.config.world.connections a
    if (st.databases a).isNone || !c.takes then { w with config := step st w.config (.statement a true) }
    else
      let r := execOn s on c a stmt (w.ledgers a).rows
      { config := step st w.config (.statement a r.1.inOrder)
        ledgers := Function.update w.ledgers a ((w.ledgers a).write fun _ => r.2)
        answers := w.answers ++ r.1.read }

/-- The steps of a mixed run whose scopes are for tenants of `mine`, and
statements on PostgreSQL aliases outside every bypass block. -/
def ownStep (mine : TenantRef → Bool) (w : Working δ) : RowAction δ → Bool
  | .block x _ => mixedStep st w.config x && x.tenant?.all mine
  | .onTable a _ => isPostgresql st a && openBypasses a w.config.stack == 0

end

/-- A row is of none of the tenants. -/
def OfOthers [DecidableEq δ] (s : SqlSession δ) (on : TableOn δ) (tenants : TenantRef → Tenant)
    (mine : TenantRef → Bool) (others : SqlRow δ → Bool) : Prop :=
  ∀ r, others r = true → ∀ t, mine t = true → ∀ key, s.cast on.pgType (tenants t).pk.str = .some key →
    r on.tenantColumn ≠ .some key

section

variable [DecidableEq δ] {st : Settings} {s : SqlSession δ} {on : TableOn δ} {env : RlsEnv δ}
  {mine : TenantRef → Bool} {others : SqlRow δ → Bool} {start : World} {w : Working δ} {a : Alias}

omit [DecidableEq δ] in
theorem followBlocks_all {P : Sql.Heap (SqlRow δ) → Prop} {l : Txn.Ledger (Sql.Heap (SqlRow δ))}
    (before after : List Block) (back : Bool) (h : l.All P) : (followBlocks before after back a l).All P := by
  unfold followBlocks
  split
  · split
    · exact h.enter
    · exact h
  split
  · split
    · exact h.leave back
    · exact h
  · exact h

/-- Outside every bypass block a task sees and writes rows of the tenants it
enters scopes for alone. -/
theorem within_mine (hpoliced : Policed st s on env) (hstart : Idle st start) (hinv : MixedInv st start w.config)
    (hmine : TenantsIn mine w.config) (hothers : OfOthers s on start.tenants mine others)
    (hpg : isPostgresql st a = true) (hclosed : openBypasses a w.config.stack = 0)
    (hu : (w.config.world.connections a).usable = true) :
    Sql.Within (s.guardOn on (w.config.world.connections a) a) (!others ·) := by
  have hguard := guard_of_sessionState hpoliced hpg (hinv.sessionState hstart hpg hu)
  have hown : ∀ r, permitted st s on.pgType on.tenantColumn w.config a r = true → (!others r) = true := by
    intro r hr
    simp only [permitted, hclosed, Nat.lt_irrefl, decide_false, Bool.false_or, Option.any_eq_true,
      decide_eq_true_eq] at hr
    obtain ⟨key, hkey, hrow⟩ := hr
    obtain ⟨t, ht, hcast⟩ := Option.bind_eq_some_iff.mp hkey
    rw [hinv.agrees.unchanged] at hcast
    split at hcast
    · rw [Bool.not_eq_true', ← Bool.not_eq_true]
      exact fun hother => hothers r hother t (hmine _ (current_mem_contextsIn _ _) t ht) key hcast hrow
    · cases hcast
  exact ⟨fun r hr => hown r ((hguard r).1 ▸ hr), fun r hr => hown r ((hguard r).2 ▸ hr)⟩

/-- What a run keeps: no row of others was read, and those there are, or could
be brought back, are those there were. -/
structure OwnInv (st : Settings) (start : World) (mine : TenantRef → Bool) (others : SqlRow δ → Bool)
    (untouched : Alias → List (SqlRow δ)) (w : Working δ) : Prop where
  mixed : MixedInv st start w.config
  tenants : TenantsIn mine w.config
  rows : ∀ a, (w.ledgers a).All fun h => h.rows.filter others = untouched a
  answers : ∀ r ∈ w.answers, others r = false

theorem OwnInv.step {untouched : Alias → List (SqlRow δ)} {x : RowAction δ} (hwrap : st.wrapAtomic = true)
    (hset : st.setDbSessionVar = true) (hdistinct : st.dbSessionVar ≠ st.adminFlagVar) (hstart : Idle st start)
    (hpoliced : Policed st s on env) (hothers : OfOthers s on start.tenants mine others)
    (h : OwnInv st start mine others untouched w) (hok : ownStep st mine w x = true) :
    OwnInv st start mine others untouched (rowStep st s on w x) := by
  cases x with
  | block x back =>
    simp only [ownStep, Bool.and_eq_true] at hok
    exact ⟨h.mixed.step hwrap hset hdistinct hok.1,
      h.tenants.step h.mixed.agrees.sound fun t ht => by simpa [ht] using hok.2,
      fun a => followBlocks_all _ _ _ (h.rows a), h.answers⟩
  | onTable a stmt =>
    simp only [ownStep, Bool.and_eq_true, beq_iff_eq] at hok
    have hstatement : ∀ inOrder, MixedInv st start (Boundary.step st w.config (.statement a inOrder)) ∧
        TenantsIn mine (Boundary.step st w.config (.statement a inOrder)) := fun inOrder =>
      ⟨h.mixed.step hwrap hset hdistinct rfl, h.tenants.step h.mixed.agrees.sound nofun⟩
    simp only [rowStep]
    split
    · exact ⟨(hstatement true).1, (hstatement true).2, h.rows, h.answers⟩
    next htaken =>
    rw [Bool.or_eq_true, not_or, Bool.not_eq_true', Bool.not_eq_false, Connection.takes, Bool.and_eq_true] at htaken
    have hu := Connection.usable_of_accepts htaken.2.2
    have hwithin := within_mine hpoliced hstart h.mixed h.tenants hothers hok.1 hok.2 hu
    obtain ⟨hread, hleft⟩ := Sql.exec_within hwithin
      (stmt.toDml (s.on (w.config.world.connections a)) (on.cat a) (on.definition a) on.serial) (w.ledgers a).rows
    simp only [Bool.not_not] at hread hleft
    refine ⟨(hstatement _).1, (hstatement _).2, fun b => ?_, fun r hr => ?_⟩
    · by_cases hb : b = a
      · subst hb
        simp only [Function.update_self]
        exact (h.rows b).write (hleft.trans (h.rows b).1)
      · simp only [Function.update_of_ne hb]
        exact h.rows b
    · rcases List.mem_append.mp hr with hr | hr
      · exact h.answers r hr
      · simpa using hread r hr

/-- A task that enters scopes for its own tenants alone and leaves the table
alone inside bypass blocks reads no row of another tenant and changes none, on
any alias, whatever fails and whatever is rolled back. -/
theorem others_untouched_of_run {w₀ w : Working δ} (hwrap : st.wrapAtomic = true) (hset : st.setDbSessionVar = true)
    (hdistinct : st.dbSessionVar ≠ st.adminFlagVar) (hstart : Idle st w₀.config.world) (hstack : w₀.config.stack = [])
    (hledgers : ∀ a, (w₀.ledgers a).entered = []) (hanswers : w₀.answers = []) (hpoliced : Policed st s on env)
    (hothers : OfOthers s on w₀.config.world.tenants mine others)
    (hrun : Runs.Reaches (rowStep st s on) (fun w x => ownStep st mine w x = true) w₀ w) :
    (∀ r ∈ w.answers, others r = false) ∧
      ∀ a, (w.ledgers a).rows.rows.filter others = (w₀.ledgers a).rows.rows.filter others := by
  obtain ⟨⟨world, stack⟩, ledgers, answers⟩ := w₀
  simp only at hstart hstack hledgers hanswers hothers
  subst hstack hanswers
  have hnone : TenantsIn mine ⟨world, []⟩ := by
    intro v hv t ht
    rw [List.mem_singleton.mp hv, hstart.currentTenant] at ht
    cases ht
  have hinv := hrun.invariant
    (OwnInv st world mine others fun a => (ledgers a).rows.rows.filter others)
    ⟨hstart.mixedInv, hnone, fun a => ⟨rfl, fun h hh => absurd hh (by simp [hledgers a])⟩, nofun⟩
    fun _ _ h hok => h.step hwrap hset hdistinct hstart hpoliced hothers hok
  exact ⟨hinv.answers, fun a => (hinv.rows a).1⟩

end

/-! ## A task on the shop's widgets -/

/-- The task on idle connections, and a widget of the tenant with the key 2. -/
def widgetTask : Working Nat where
  config := ⟨TwoRegions.autocommit, []⟩
  ledgers _ := { rows := ⟨[widgetRow 7 1 2], 8⟩ }

/-- In a scope for tenant 0 a widget is inserted, then all are deleted in a
savepoint that is rolled back, then all are read. -/
def ownWidgets : List (RowAction Nat) :=
  [.block (.enterUsing (.some 0) "default") fun _ => false, .onTable "default" (.insert fun _ => [[("sku", .some 5)]]),
    .block (.enterAtomic "default" true) fun _ => false, .onTable "default" (.delete fun _ _ => true),
    .block (.leave true) fun _ => true, .onTable "default" (.select fun _ _ => true)]

theorem others_untouched_of_run_shop :
    let w := ownWidgets.foldl (rowStep TwoRegions.settings shopSession shopWidgets) widgetTask
    (∀ r ∈ w.answers, (r "tenant_id" == .some 2) = false) ∧
      ∀ a, (w.ledgers a).rows.rows.filter (fun r => r "tenant_id" == .some 2) =
        (widgetTask.ledgers a).rows.rows.filter fun r => r "tenant_id" == .some 2 := by
  have hreaches : Runs.Reaches (rowStep TwoRegions.settings shopSession shopWidgets)
      (fun w x => ownStep TwoRegions.settings (fun t => t == 0) w x = true) widgetTask
      (ownWidgets.foldl (rowStep TwoRegions.settings shopSession shopWidgets) widgetTask) :=
    .of_allowed (by decide +kernel)
  refine others_untouched_of_run rfl rfl (by decide) TwoRegions.autocommit_idle rfl (fun _ => rfl) rfl
    shopWidgets_policed ?_ hreaches
  intro r hother t ht key hcast hrow
  obtain rfl : t = 0 := by simpa using ht
  obtain rfl : (1 : Nat) = key := Option.some.inj hcast
  have hcolumn : r "tenant_id" = .some 1 := hrow
  simp [hcolumn] at hother

end Boundary
