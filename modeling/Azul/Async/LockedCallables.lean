import Azul.Async.HarmlessCode
import Azul.Async.PrivateFutures

/-!
# Callables under the lock

A thread runs code of the library under the pool's `_mutex` twice: where `Execute` evaluates
`WhenAll`, and where a worker destroys its task at the end of an iteration of `ThreadLoop`. The
former touches futures that nobody is handed, and the latter the closures that are stored in the
future of the task. These were called before the lock was taken again, so those of a combinator
have released what they captured; a callable of the program is destroyed with them, and so is the
callable of a task that has thrown. `Execute` besides destroys the copy of the callable that it has
constructed the task from, which a worker does too that calls it inside a callable.
-/

namespace Azul.Async

open Foundation

variable {V ε : Type}

/-- Above code that holds `_mutex` everything is harmless. -/
def Heap.guards (h : Heap V ε) (hidden : StateId → Prop) (x : Instr V ε PoolCode)
    (below : Instr V ε PoolCode → Prop) : Prop :=
  ∀ c : PoolCode, c.isCritical = true → below (.external c) → x.Harmless h hidden

/-- No code of a stack holds `_mutex`. -/
def Unlocked (stack : List (Instr V ε PoolCode)) : Prop :=
  ∀ c : PoolCode, .external c ∈ stack → c.isCritical = false

section Guards

variable {h : Heap V ε} {hidden : StateId → Prop} {x : Instr V ε PoolCode}
  {code base : List (Instr V ε PoolCode)} {next : List PoolCode}

/-- What is not harmless is not above code that holds `_mutex`. -/
theorem unlocked_below (nested : Stacks.Nested (h.guards hidden) (x :: base))
    (harms : ¬ x.Harmless h hidden) : Unlocked base := by
  intro c inside
  cases critical : c.isCritical with
  | false => rfl
  | true => exact absurd (nested.1 c critical inside) harms

/-- Any code may be put where nobody holds `_mutex`, if none of it does. -/
theorem nested_unlocked (unlocked : Unlocked (code ++ base))
    (nested : Stacks.Nested (h.guards hidden) base) :
    Stacks.Nested (h.guards hidden) (code ++ base) := by
  apply Stacks.Nested.append_below _ nested
  intro before x after split c critical inside
  have still : .external c ∈ code ++ base := by
    rw [split]
    rw [List.append_assoc]
    exact List.mem_append_right _ (List.mem_cons_of_mem _ inside)
  rw [unlocked c still] at critical
  cases critical

/-- Harmless code may be put anywhere. -/
theorem nested_harmless (harmless : ∀ x ∈ code, x.Harmless h hidden)
    (nested : Stacks.Nested (h.guards hidden) base) :
    Stacks.Nested (h.guards hidden) (code ++ base) := by
  apply Stacks.Nested.append _ nested
  intro x inside _ _ _ _ _
  exact harmless x inside

/-- A statement puts the next one where nobody holds `_mutex`, and a library call above it. -/
theorem nested_statement (unlocked : Unlocked base) (single : next.length ≤ 1)
    (library : ∀ x ∈ code, x.code = none)
    (harmless : ∀ c ∈ next, c.isCritical = true → ∀ x ∈ code, x.Harmless h hidden)
    (nested : Stacks.Nested (h.guards hidden) base) :
    Stacks.Nested (h.guards hidden) (code ++ next.map .external ++ base) := by
  have plain {c : PoolCode} (inside : .external c ∈ code) : False := by
    cases library _ inside
  rw [List.append_assoc]
  cases next with
  | nil =>
    apply nested_unlocked _ nested
    intro c inside
    exact unlocked c ((List.mem_append.mp inside).resolve_left plain)
  | cons c rest =>
    have none : rest = [] := List.eq_nil_of_length_eq_zero (by simpa using single)
    have top : Stacks.Nested (h.guards hidden) (.external c :: base) := by
      refine ⟨fun c' critical inside => ?_, nested⟩
      rw [unlocked c' inside] at critical
      cases critical
    rw [none, List.map_singleton, List.singleton_append]
    cases critical : c.isCritical with
    | true => exact nested_harmless (harmless c List.mem_cons_self critical) top
    | false =>
      apply nested_unlocked _ top
      intro c' inside
      cases List.mem_cons.mp ((List.mem_append.mp inside).resolve_left plain) with
      | inl same =>
        rw [Instr.external.inj same]
        exact critical
      | inr below => exact unlocked c' below

end Guards

/-- A closure calls a callable of the program. -/
def Heap.isUser (h : Heap V ε) (d : StateId) : Bool :=
  match h.origin d with
  | some (.derived _ .user) => true
  | _ => false

theorem Heap.isUser_iff {h : Heap V ε} {d : StateId} :
    h.isUser d = true ↔ ∃ s, h.origin d = some (.derived s .user) := by
  unfold Heap.isUser
  constructor
  · intro user
    split at user
    case h_1 s origin => exact ⟨s, origin⟩
    case h_2 => cases user
  · intro ⟨s, origin⟩
    rw [origin]

theorem Heap.Joining.combined {h : Heap V ε} {hidden : StateId → Prop} {d : StateId}
    (joining : h.Joining hidden d) : h.isUser d = false := by
  obtain ⟨s, all, made, _⟩ := joining
  unfold Heap.isUser
  rw [made]

theorem Heap.Spent.combined {h : Heap V ε} {d : StateId} (spent : h.Spent d) :
    h.isUser d = false := by
  obtain ⟨_, s, callable, made, other, _⟩ := spent
  unfold Heap.isUser
  rw [made]
  cases callable with
  | user => exact absurd rfl other
  | release | fire => rfl

/-- The callable of a task has returned, and was released then. -/
def Pool.returned (pool : Pool V ε) (task : Task) : Bool :=
  match pool.results task.promise with
  | some (.ok _) => true
  | _ => false

/-- The thread that takes a step. -/
def PoolEvent.thread : PoolEvent V ε → Nat
  | .run thread _ | .ret thread _ | .call thread _ | .execute thread _ _ | .funcReturn thread _
  | .destroy thread => thread

namespace PoolConfig

/-- A worker destroys only tasks whose callable has returned, and only closures of combinators with
them. -/
def drops (σ : PoolConfig V ε) (event : PoolEvent V ε) : Bool :=
  match σ.executes event with
  | some (_, .release task) => σ.pool.returned task &&
    (σ.runtime.heap.cell task.promise).continuations.all fun d => !σ.runtime.heap.isUser d
  | _ => true

variable {workers : Nat} {σ σ' : PoolConfig V ε} {event : PoolEvent V ε} {task : Task}

/-- What a step finds over stays over. -/
theorem Ok.settles (ok : σ.Ok workers) (stepped : Stepped workers σ σ' event) :
    σ.runtime.heap.Settles σ'.runtime.heap := by
  obtain ⟨events, replayed⟩ := ok.replays stepped
  exact replay_settles ok.reached replayed

/-- When a worker releases its task, the closures of combinators that the future of the task stores
are spent. -/
theorem Ok.release_spent (ok : σ.Ok workers) (known : task ∈ σ.pool.made)
    (alive : σ.runtime.heap.destroyed task.promise = false)
    (received : σ.runtime.heap.received task.promise ≠ [])
    (ended : ∀ x ∈ σ.runtime.pending, x.completes task.promise = false)
    (combined : ∀ d ∈ (σ.runtime.heap.cell task.promise).continuations,
      ∀ s, σ.runtime.heap.origin d ≠ some (.derived s .user)) :
    σ.runtime.heap.Decided task.promise ∧
      ∀ d ∈ (σ.runtime.heap.cell task.promise).continuations, σ.runtime.heap.Spent d := by
  have inv := (Config.ok ok.reached).inv
  have origin := ok.made_origin known
  have kept : ¬ σ.runtime.heap.Retired task.promise := by
    intro retired
    rw [Heap.retired_promise origin, alive] at retired
    cases retired
  have undecided : Stacks.count σ.runtime.pending (Instr.decidesOn task.promise) = 0 := by
    apply Stacks.count_eq_zero.mpr
    intro x inside
    have quiet := ended x inside
    cases x with
    | setValue | resolve | setException => exact quiet
    | _ => rfl
  have walked : 0 < σ.runtime.heap.walks task.promise := by
    have some := inv.decisions.receivedGe task.promise (Or.inl origin) received
    rw [undecided, Nat.zero_add] at some
    exact some
  refine ⟨(inv.walked_iff.mp walked).1, fun d listed => ?_⟩
  exact spent_of_walked ok.reached kept ended walked listed (combined d listed)

/-- The library calls that a statement makes under the lock are harmless. -/
theorem Ok.statement_harmless (ok : σ.Ok workers) {thread woken : Nat} {c : PoolCode}
    {base code : List (Instr V ε PoolCode)} {pool : Pool V ε} {next : List PoolCode}
    {api : Option (Api V ε)} (drops : σ.drops (.run thread woken) = true)
    (taken : σ.step workers (.run thread woken) = some σ')
    (found : σ.runtime.threads[thread]? = some (.external c :: base))
    (ran : σ.pool.run σ.runtime.heap σ.finished workers thread woken c = some (pool, next, api))
    (begun : Begun σ.runtime.heap api σ'.runtime.heap code)
    (replaced : Replaced σ.runtime σ'.runtime thread [.external c] (code ++ next.map .external)
      base) :
    ∀ c' ∈ next, c'.isCritical = true → ∀ x ∈ code,
      x.Harmless σ'.runtime.heap σ'.Private := by
  have later := ok.later (ok.stepped taken)
  have settles := ok.settles (ok.stepped taken)
  have grows (s : StateId) (hidden : σ.Private s) : σ'.Private s := hidden.kept ok taken
  have owed := ok.statement_owed found (Pool.run_ran ran)
  obtain ⟨rest, before, after⟩ := codes_replaced replaced begun.spares.library
  intro c' follows critical x inside
  cases Pool.run_did ran with
  | @whenAll isVoid dependencies =>
    have hides : σ'.Private σ.runtime.heap.next := by
      refine Or.inr (Or.inr ⟨.makeTask isVoid dependencies σ.runtime.heap.next, ?_, rfl⟩)
      rw [after]
      exact Multiset.mem_add.mpr (Or.inl (Multiset.mem_coe.mpr List.mem_cons_self))
    exact begin_harmless begun hides x inside
  | @release task =>
    obtain ⟨_, made⟩ := Option.ite_none_right_eq_some.mp begun
    have one : [.aboutToDestroyPromise task.promise] = code :=
      (Prod.mk.inj (Option.some.inj made)).2
    rw [← one] at inside
    rw [List.mem_singleton.mp inside]
    obtain ⟨alive, ended⟩ := owed
    have pending : PoolCode.release task ∈ poolCode σ.runtime.pending := mem_poolCode.mpr
      (Stacks.mem_pending.mpr ⟨_, List.mem_of_getElem? found, List.mem_cons_self⟩)
    obtain ⟨known, finished⟩ := ok.ledger.held _ pending task .finished rfl
    obtain ⟨result, _, received⟩ := Pool.Finished.received finished
    unfold PoolConfig.drops at drops
    rw [executes_eq found] at drops
    have combined := List.all_eq_true.mp (Bool.and_eq_true_iff.mp drops).2
    have stores (d : StateId) (listed : d ∈ (σ.runtime.heap.cell task.promise).continuations)
        (s : StateId) : σ.runtime.heap.origin d ≠ some (.derived s .user) := by
      intro user
      have other := combined d listed
      rw [Heap.isUser_iff.mpr ⟨s, user⟩] at other
      cases other
    have completed : σ.runtime.heap.received task.promise ≠ [] := by
      rw [received]
      exact List.cons_ne_nil _ _
    have spent := ok.release_spent known alive completed ended stores
    have destroys : (Instr.aboutToDestroyPromise task.promise : Instr V ε PoolCode).Harmless
        σ.runtime.heap σ.Private := Or.inr spent
    exact destroys.kept later settles grows
  | @clears task rest' found' =>
    rw [List.mem_singleton.mp follows] at critical
    cases critical
  | makeTask =>
    have none : [] = code := (Prod.mk.inj (Option.some.inj begun)).2
    rw [← none] at inside
    cases inside
  | _ =>
    rw [begun.2] at inside
    cases inside

/-- Everything above code that holds `_mutex` is harmless, on every thread. -/
def Guarded (σ : PoolConfig V ε) : Prop :=
  ∀ stack ∈ σ.runtime.threads, Stacks.Nested (σ.runtime.heap.guards σ.Private) stack

namespace Guarded

variable {thread : Nat} {base : List (Instr V ε PoolCode)}

/-- Where the program is in control nobody holds `_mutex`. -/
theorem unlocked (guarded : σ.Guarded) (found : σ.runtime.threads[thread]? = some base)
    (control : σ.inProgram workers thread = true) : Unlocked base := by
  have nested := guarded base (List.mem_of_getElem? found)
  unfold inProgram at control
  rw [found] at control
  split at control
  case h_1 same =>
    cases same
    nofun
  case h_2 d rest same =>
    cases same
    intro c inside
    cases List.mem_cons.mp inside with
    | inl clash => cases clash
    | inr below => exact unlocked_below nested id c below
  case h_3 task rest same =>
    cases same
    intro c inside
    cases List.mem_cons.mp inside with
    | inl top =>
      rw [Instr.external.inj top]
      rfl
    | inr below => exact unlocked_below nested id c below
  case h_4 => cases control

/-- Every step keeps the code above the lock harmless. -/
theorem step (guarded : σ.Guarded) (ok : σ.Ok workers) (confined : σ.Confined)
    (drops : σ.drops event = true) (taken : σ.step workers event = some σ') : σ'.Guarded := by
  have later := ok.later (ok.stepped taken)
  have grows (s : StateId) (hidden : σ.Private s) : σ'.Private s := hidden.kept ok taken
  have settles := ok.settles (ok.stepped taken)
  have kept {thread : Nat} {old new base : List (Instr V ε PoolCode)}
      (replaced : Replaced σ.runtime σ'.runtime thread old new base)
      (fresh : Stacks.Nested (σ'.runtime.heap.guards σ'.Private) base →
        Stacks.Nested (σ'.runtime.heap.guards σ'.Private) (new ++ base)) : σ'.Guarded := by
    apply replaced.nested guarded _ fresh
    intro x _ below _ guards c critical inside
    exact (guards c critical inside).kept later settles grows
  cases ok.stepped taken with
  | @library event below thread old new base disciplined running same step reason =>
    have library : ∀ x ∈ new, x.code = none := step.spares.library
    have put (unlocked : Unlocked base)
        (nested : Stacks.Nested (σ'.runtime.heap.guards σ'.Private) base) :
        Stacks.Nested (σ'.runtime.heap.guards σ'.Private) (new ++ base) := by
      apply nested_unlocked _ nested
      intro c inside
      cases List.mem_append.mp inside with
      | inl fresh => cases library _ fresh
      | inr below => exact unlocked c below
    have top := guarded _ (List.mem_of_getElem? step.replaced.found)
    apply kept step.replaced
    cases reason with
    | run x woken =>
      by_cases harmless : x.Harmless σ.runtime.heap σ.Private
      · apply nested_harmless
        apply execute_harmless (step.executed running) harmless later settles grows
        · exact fun s hidden => confined.unlisted ok hidden
        · exact fun d s callable made other =>
            Or.inl (Heap.isInner_iff.mpr ⟨s, callable, made, other⟩)
      · exact put (unlocked_below top harmless)
    | ret => exact put (unlocked_below top id)
    | call api control => exact put (guarded.unlocked step.replaced.found control)
  | @statement thread woken c base pool next api found ran performed =>
    obtain ⟨code, replaced, same, begun⟩ := perform_statement found performed
    have unlocked := unlocked_below (guarded _ (List.mem_of_getElem? found)) id
    apply kept replaced
    apply nested_statement unlocked (Pool.run_ran ran).single begun.spares.library
    exact ok.statement_harmless drops taken found ran begun replaced
  | @funcReturn thread task base result found performed =>
    obtain ⟨code, replaced, same, begun⟩ := perform_statement found performed
    have unlocked := unlocked_below (guarded _ (List.mem_of_getElem? found)) id
    apply kept replaced
    have single : [PoolCode.relock task].length ≤ 1 := Nat.le_refl 1
    apply nested_statement unlocked single begun.spares.library
    intro c listed critical
    rw [List.mem_singleton.mp listed] at critical
    cases critical
  | @execute thread base isVoid dependencies found control allowed performed =>
    obtain ⟨replaced, same, heap⟩ := perform_entry found performed
    apply kept replaced
    apply nested_unlocked
    intro c inside
    cases List.mem_cons.mp inside with
    | inl top =>
      rw [Instr.external.inj top]
      rfl
    | inr below => exact guarded.unlocked found control c below
  | @destroy thread base found control outside first idle performed =>
    obtain ⟨replaced, same, heap⟩ := perform_entry found performed
    apply kept replaced
    apply nested_unlocked
    intro c inside
    cases List.mem_cons.mp inside with
    | inl top =>
      rw [Instr.external.inj top]
      rfl
    | inr below => exact guarded.unlocked found control c below

/-- While a thread holds `_mutex`, what it executes is harmless or holds `_mutex` itself. -/
theorem harmless (guarded : σ.Guarded) {x : Instr V ε PoolCode}
    (found : σ.runtime.threads[thread]? = some (x :: base)) (locked : ¬ Unlocked (x :: base))
    (plain : ∀ c : PoolCode, x = .external c → c.isCritical = false) :
    x.Harmless σ.runtime.heap σ.Private := by
  by_contra harms
  have below := unlocked_below (guarded _ (List.mem_of_getElem? found)) harms
  apply locked
  intro c inside
  cases List.mem_cons.mp inside with
  | inl top => exact plain c top.symm
  | inr under => exact below c under

end Guarded

/-- The owner of `_mutex` is in a critical section. -/
theorem Staffed.locked (staffed : σ.Staffed workers) {thread : Nat}
    (held : σ.pool.mutex = some thread) :
    ∃ stack, σ.runtime.threads[thread]? = some stack ∧ ¬ Unlocked stack := by
  have counted : 0 < Stacks.count (poolCode σ.runtime.pending) PoolCode.isCritical := by
    rw [staffed.exclusive, held]
    exact Nat.one_pos
  obtain ⟨c, pending, critical⟩ := Stacks.count_pos.mp counted
  obtain ⟨stack, member, inside⟩ := Stacks.mem_pending.mp (mem_poolCode.mp pending)
  obtain ⟨t, found⟩ := List.getElem?_of_mem member
  have owner := staffed.owner t stack found c inside critical
  rw [held] at owner
  refine ⟨stack, ?_, ?_⟩
  · rw [Option.some.inj owner]
    exact found
  · intro unlocked
    rw [unlocked c inside] at critical
    cases critical

/-! ## Runs -/

/-- The next instruction of a stack calls a callable of the program, or destroys a copy of one and
what that has captured. -/
def touches (σ : PoolConfig V ε) : List (Instr V ε PoolCode) → Bool
  | .invoke d _ :: _ | .destroyClosure d _ :: _ => σ.runtime.heap.isUser d
  | .external (.call _) :: _ | .external (.emplaceBack _) :: _ => true
  | .external (.release task) :: _ => !σ.pool.returned task
  | .external .shutdownDestroyRemainingTasks :: _ => !σ.pool.tasks.isEmpty
  | _ => false

/-- A callable of the program is called, goes on or ends, or a copy of one is destroyed. -/
def runsUser (σ : PoolConfig V ε) : PoolEvent V ε → Bool
  | .run thread _ => σ.runtime.threads[thread]?.any σ.touches
  | .ret _ _ | .call _ _ | .execute _ _ _ | .funcReturn _ _ | .destroy _ => true

/-- No worker that holds `_mutex` is about to run a callable or to destroy a copy of one. -/
def RunsOutside (workers : Nat) (system : System (PoolConfig V ε) (PoolEvent V ε))
    (σ : PoolConfig V ε) : Prop :=
  ∀ event σ', system.step σ event = some σ' → event.thread < workers →
    σ.pool.mutex = some event.thread → σ.runsUser event = false

/-- No worker calls `Execute`, from inside a callable that it runs. -/
def submitsOutside (workers : Nat) : PoolEvent V ε → Bool
  | .execute thread _ _ => workers ≤ thread
  | _ => true

/-- The program hands out futures that it was handed, its tasks return, it attaches nothing to
their futures but by `WhenAll`, `WhenAny` and the dependencies of other tasks, and its callables do
not call `Execute` on a worker. -/
def Careful (workers : Nat) (σ : PoolConfig V ε) (event : PoolEvent V ε) : Prop :=
  σ.Owns event ∧ σ.drops event = true ∧ submitsOutside workers event = true

instance (σ : PoolConfig V ε) (event : PoolEvent V ε) : Decidable (σ.Careful workers event) :=
  inferInstanceAs (Decidable (σ.Owns event ∧ σ.drops event = true ∧
    submitsOutside workers event = true))

/-- No worker is inside `Execute`. -/
def Unsubmitting (workers : Nat) (σ : PoolConfig V ε) : Prop :=
  ∀ (thread : Nat) (stack : List (Instr V ε PoolCode)), thread < workers →
    σ.runtime.threads[thread]? = some stack →
    ∀ c : PoolCode, .external c ∈ stack → c.isExecute = false

/-- Unless a worker calls it, none comes to be inside `Execute`. -/
theorem Unsubmitting.step (unsubmitting : σ.Unsubmitting workers)
    (outside : submitsOutside workers event = true) (stepped : Stepped workers σ σ' event) :
    σ'.Unsubmitting workers := by
  have replaced {thread : Nat} {old new base : List (Instr V ε PoolCode)}
      (replaced : Replaced σ.runtime σ'.runtime thread old new base)
      (fresh : thread < workers → ∀ c : PoolCode, .external c ∈ new → c.isExecute = false) :
      σ'.Unsubmitting workers := by
    intro t stack bound found c inside
    rw [replaced.threads] at found
    by_cases same : thread = t
    · rw [if_pos same] at found
      rw [← Option.some.inj found] at inside
      cases List.mem_append.mp inside with
      | inl new => exact fresh (same ▸ bound) c new
      | inr below =>
        exact unsubmitting thread _ (same ▸ bound) replaced.found c
          (List.mem_append_right _ below)
    · rw [if_neg same] at found
      exact unsubmitting t stack bound found c inside
  have listed {code : List (Instr V ε PoolCode)} {next : List PoolCode} {c : PoolCode}
      (library : ∀ x ∈ code, x.code = none) (new : .external c ∈ code ++ next.map .external) :
      c ∈ next := by
    cases List.mem_append.mp new with
    | inl early => cases library _ early
    | inr late =>
      obtain ⟨c', inside, same⟩ := List.mem_map.mp late
      rw [← Instr.external.inj same]
      exact inside
  cases stepped with
  | library disciplined running same step reason =>
    apply replaced step.replaced
    intro _ c new
    cases step.spares.library _ new
  | @statement thread woken c base pool next api found ran performed =>
    obtain ⟨code, stack, _, begun⟩ := perform_statement found performed
    apply replaced stack
    intro bound c' new
    rw [((Pool.run_ran ran).kind c' (listed begun.spares.library new)).1]
    exact unsubmitting thread _ bound found c List.mem_cons_self
  | funcReturn found performed =>
    obtain ⟨code, stack, _, begun⟩ := perform_statement found performed
    apply replaced stack
    intro _ c new
    rw [List.mem_singleton.mp (listed begun.spares.library new)]
    rfl
  | execute found control allowed performed =>
    obtain ⟨stack, _⟩ := perform_entry found performed
    apply replaced stack
    intro bound
    exact absurd bound (Nat.not_lt.mpr (of_decide_eq_true outside))
  | destroy found control away first idle performed =>
    obtain ⟨stack, _⟩ := perform_entry found performed
    apply replaced stack
    intro _ c new
    rw [Instr.external.inj (List.mem_singleton.mp new)]
    rfl

/-- What holds of every run of such a program. -/
theorem Careful.guarded (reached : ((poolSystem V ε workers).under (Careful workers)).Reachable σ) :
    (poolSystem V ε workers).Reachable σ ∧ σ.Confined ∧ σ.Guarded ∧ σ.Unsubmitting workers := by
  apply reached.invariant
  · intro σ initial
    refine ⟨.start initial, ?_⟩
    obtain ⟨outside, same⟩ := initial
    rw [same]
    refine ⟨start_confined outside, ?_, ?_⟩
    · intro stack member
      obtain ⟨thread, found⟩ := List.getElem?_of_mem member
      cases start_stack found with
      | inl loop =>
        rw [loop.1]
        exact ⟨nofun, trivial⟩
      | inr empty =>
        rw [empty]
        trivial
    · intro thread stack _ found c inside
      cases start_stack found with
      | inl loop =>
        rw [loop.1] at inside
        rw [Instr.external.inj (List.mem_singleton.mp inside)]
        rfl
      | inr empty =>
        rw [empty] at inside
        cases inside
  · intro σ event σ' _ holds stepped
    obtain ⟨reached, confined, guarded, unsubmitting⟩ := holds
    obtain ⟨⟨owns, drops, outside⟩, taken⟩ := System.under_step.mp stepped
    have ok := PoolConfig.ok reached
    exact ⟨reached.next taken, confined.step ok owns taken, guarded.step ok confined drops taken,
      unsubmitting.step outside (ok.stepped taken)⟩

end PoolConfig

/-- While a worker holds `_mutex` it neither runs a callable of the program nor destroys a copy of
one, if the program is careful. -/
theorem callables_outside_lock {workers : Nat} {σ : PoolConfig V ε}
    (reached : ((poolSystem V ε workers).under (PoolConfig.Careful workers)).Reachable σ) :
    σ.RunsOutside workers ((poolSystem V ε workers).under (PoolConfig.Careful workers)) := by
  obtain ⟨plain, _, guarded, unsubmitting⟩ := PoolConfig.Careful.guarded reached
  have ok := PoolConfig.ok plain
  intro event σ' stepped bound held
  obtain ⟨⟨_, drops, _⟩, taken⟩ := System.under_step.mp stepped
  obtain ⟨stack, found, locked⟩ := (PoolConfig.staffed plain).locked held
  have controlled (control : σ.inProgram workers event.thread = true) : False :=
    locked (guarded.unlocked found control)
  have executed {x : Instr V ε PoolCode} {base : List (Instr V ε PoolCode)}
      (top : σ.runtime.threads[event.thread]? = some (x :: base))
      (outside : ∀ c : PoolCode, x = .external c → c.isCritical = false) :
      x.Harmless σ.runtime.heap σ.Private := by
    rw [Option.some.inj (found.symm.trans top)] at locked
    exact guarded.harmless top locked outside
  have runs {thread woken : Nat} {x : Instr V ε PoolCode} {base : List (Instr V ε PoolCode)}
      (top : σ.runtime.threads[thread]? = some (x :: base)) :
      σ.runsUser (.run thread woken) = σ.touches (x :: base) := by
    change σ.runtime.threads[thread]?.any σ.touches = _
    rw [top, Option.any_some]
  cases ok.stepped taken with
  | @library _ below thread old new base disciplined running same step reason =>
    have top := step.replaced.found
    cases reason with
    | run x woken =>
      have library (c : PoolCode) (is : x = .external c) : c.isCritical = false := by
        have own := step.own x List.mem_cons_self
        rw [is] at own
        cases own
      have harmless := executed top library
      rw [runs top]
      cases x with
      | invoke d copy => exact harmless.combined
      | destroyClosure d copy =>
        have combined : σ.runtime.heap.isUser d = false := by
          cases harmless with
          | inl joining => exact joining.combined
          | inr spent => exact spent.2.combined
        exact combined
      | external c => exact harmless.elim
      | _ => rfl
    | ret d result => exact (executed top nofun).elim
    | call api control => exact (controlled control).elim
  | @statement thread woken c base pool next api top ran performed =>
    have outside (uncritical : c.isCritical = false) : False := by
      apply executed top
      intro c' same
      rw [← Instr.external.inj same]
      exact uncritical
    rw [runs top]
    cases c with
    | call | shutdownDestroyRemainingTasks => exact (outside rfl).elim
    | emplaceBack task =>
      cases unsubmitting thread _ bound top (.emplaceBack task) List.mem_cons_self
    | release task =>
      unfold PoolConfig.drops at drops
      rw [PoolConfig.executes_eq top] at drops
      have returned := (Bool.and_eq_true_iff.mp drops).1
      change (!σ.pool.returned task) = false
      rw [returned, Bool.not_true]
    | _ => rfl
  | @funcReturn thread task base result top performed =>
    exfalso
    apply executed top
    intro c same
    rw [← Instr.external.inj same]
    rfl
  | execute found control allowed performed => exact (controlled control).elim
  | destroy found control outside first idle performed => exact (controlled control).elim

/-- A task and one that depends on it: the first returns, and its future gives up the closure of the
`WhenAll`. -/
def carefulRun : List (PoolEvent Nat String) :=
  dependentRun ++ [PoolEvent.funcReturn 0 (.ok (.val 7))] ++ List.replicate 15 (PoolEvent.run 0 0)

/-- The run can be replayed, and it is careful. -/
theorem carefulRun_replays : (((poolSystem Nat String 1).under (PoolConfig.Careful 1)).replay
    (PoolConfig.start 1 1) carefulRun).isSome = true := by
  decide +kernel

/-- The configuration after the run. -/
def carefulEnd : PoolConfig Nat String :=
  (((poolSystem Nat String 1).under (PoolConfig.Careful 1)).replay
    (PoolConfig.start 1 1) carefulRun).get carefulRun_replays

/-- The worker holds `_mutex` while it destroys the closure. -/
theorem callables_outside_lock_dependent : carefulEnd.pool.mutex = some 0 ∧
    carefulEnd.RunsOutside 1 ((poolSystem Nat String 1).under (PoolConfig.Careful 1)) := by
  have initial : ((poolSystem Nat String 1).under (PoolConfig.Careful 1)).initial
      (PoolConfig.start 1 1) := ⟨1, rfl⟩
  exact ⟨by decide +kernel,
    callables_outside_lock (System.Reachable.of_replay initial carefulRun_replays)⟩

/-- A task throws, and the worker is about to destroy it. -/
def thrownRun : List (PoolEvent Nat String) :=
  [PoolEvent.execute 1 false []] ++ List.replicate 9 (PoolEvent.run 1 0) ++
    List.replicate 5 (PoolEvent.run 0 0) ++ [PoolEvent.funcReturn 0 (.error (.user "thrown"))] ++
    List.replicate 4 (PoolEvent.run 0 0)

/-- A callable is attached to the future of a task; both return, and the worker is about to destroy
the closure together with the task. -/
def attachedRun : List (PoolEvent Nat String) :=
  [PoolEvent.execute 1 false []] ++ List.replicate 9 (PoolEvent.run 1 0) ++
    [PoolEvent.call 1 (.then 1 false)] ++ List.replicate 3 (PoolEvent.run 1 0) ++
    List.replicate 5 (PoolEvent.run 0 0) ++ [PoolEvent.funcReturn 0 (.ok (.val 7))] ++
    List.replicate 3 (PoolEvent.run 0 0) ++ [PoolEvent.ret 0 (.ok (.val 8))] ++
    List.replicate 9 (PoolEvent.run 0 0)

/-- A task calls `Execute`, and the worker is about to destroy the temporary copy of the
callable. -/
def submittingRun : List (PoolEvent Nat String) :=
  [PoolEvent.execute 1 false []] ++ List.replicate 9 (PoolEvent.run 1 0) ++
    List.replicate 5 (PoolEvent.run 0 0) ++ [PoolEvent.execute 0 false []] ++
    List.replicate 7 (PoolEvent.run 0 0)

/-- The runs can be replayed. -/
theorem thrownRun_replays : (((poolSystem Nat String 1).under PoolConfig.Owns).replay
    (PoolConfig.start 1 1) thrownRun).isSome = true := by
  decide +kernel

theorem attachedRun_replays : (((poolSystem Nat String 1).under PoolConfig.Owns).replay
    (PoolConfig.start 1 1) attachedRun).isSome = true := by
  decide +kernel

theorem submittingRun_replays : (((poolSystem Nat String 1).under PoolConfig.Owns).replay
    (PoolConfig.start 1 1) submittingRun).isSome = true := by
  decide +kernel

/-- In these runs the worker is about to destroy the last copy of a callable, or a copy of its own,
while it holds `_mutex`. -/
theorem callables_inside_lock :
    let system := (poolSystem Nat String 1).under PoolConfig.Owns
    let thrown := (system.replay (PoolConfig.start 1 1) thrownRun).get thrownRun_replays
    let attached := (system.replay (PoolConfig.start 1 1) attachedRun).get attachedRun_replays
    let submitting := (system.replay (PoolConfig.start 1 1) submittingRun).get
      submittingRun_replays
    thrown.pool.mutex = some 0 ∧ thrown.runsUser (.run 0 0) = true ∧
      attached.pool.mutex = some 0 ∧ attached.runsUser (.run 0 0) = true ∧
      submitting.pool.mutex = some 0 ∧ submitting.runsUser (.run 0 0) = true ∧
      ¬ ∀ σ, system.Reachable σ → σ.RunsOutside 1 system := by
  intro system thrown attached submitting
  have held : thrown.pool.mutex = some 0 := by
    decide +kernel
  have releases : thrown.runsUser (.run 0 0) = true := by
    decide +kernel
  refine ⟨held, releases, by decide +kernel, by decide +kernel, by decide +kernel,
    by decide +kernel, fun outside => ?_⟩
  have initial : system.initial (PoolConfig.start 1 1) := ⟨1, rfl⟩
  have reached : system.Reachable thrown := System.Reachable.of_replay initial thrownRun_replays
  have enabled : (system.step thrown (.run 0 0)).isSome = true := by
    decide +kernel
  have clean := outside thrown reached _ _ (Option.some_get enabled).symm Nat.one_pos held
  rw [releases] at clean
  cases clean

end Azul.Async
