import Azul.Async.Dispatch
import Azul.Async.PoolWork

/-!
# The steps of a pool are accounted for

In every run the steps of the workers, of the threads inside `Execute` and the destructor, and of
the library below them are covered by what the program called, with one surcharge for each wait on
`_condition` that ends without a notification.
-/

namespace Azul.Async

open Foundation

variable {V ε : Type}

/-- A thread goes on in code of the library or the pool, or a callable returns. -/
def PoolEvent.continues : PoolEvent V ε → Bool
  | .run _ _ | .ret _ _ | .funcReturn _ _ => true
  | .call _ _ | .execute _ _ _ | .destroy _ => false

/-- What a call of the program is charged. -/
def PoolEvent.cost (workers size : Nat) : PoolEvent V ε → Nat
  | .call _ api => api.cost size
  | .execute _ _ dependencies => executeWork workers size dependencies
  | .destroy _ => PoolCode.shutdownNotifyThreads.weight workers size false
  | .run _ _ | .ret _ _ | .funcReturn _ _ => 0

/-- An instruction weighs the same when a call of the library has begun. -/
theorem Instr.weight_begun {X : Type} {h h' : Heap V ε} {x : Instr V ε X} (typed : x.Typed h)
    (later : h.Later h')
    (cells : ∀ s, (h'.cell s).continuations = (h.cell s).continuations) (size : Nat) :
    x.weight size h' = x.weight size h := by
  have attached {d : StateId} (derived : h.Derived d) : h'.antecedent d = h.antecedent d := by
    obtain ⟨s, callable, made⟩ := derived
    rw [Heap.antecedent_eq made, Heap.antecedent_eq (later.origin d _ made)]
  cases x with
  | walk s index | clear s => simp only [Instr.weight, cells]
  | invoke d copy => simp only [Instr.weight, attached typed.2]
  | destroyClosure d copy | registerThen d => simp only [Instr.weight, attached typed]
  | _ => rfl

/-- What the library is told to do is charged. -/
theorem Begun.charged {h h' : Heap V ε} {api : Option (Api V ε)} {size : Nat}
    {code : List (Instr V ε PoolCode)} (begun : Begun h api h' code) :
    weighCode size h' code ≤ api.elim 0 (Api.cost size) := by
  cases api with
  | none =>
    obtain ⟨-, none⟩ := begun
    rw [none]
    exact le_refl 0
  | some api => exact begin_charged begun

/-- A library call that has begun leaves the lists of continuations alone. -/
theorem Begun.cells {h h' : Heap V ε} {api : Option (Api V ε)}
    {code : List (Instr V ε PoolCode)} (begun : Begun h api h' code) : h'.cell = h.cell := by
  cases api with
  | none => rw [begun.1]
  | some api => exact begin_cell begun

/-- The states that a call of the library makes. -/
def Api.room : Api V ε → Nat
  | .newPromise _ | .then _ _ => 1
  | .whenAll inputs | .whenAny inputs => inputs.length + 1
  | .complete _ _ | .destroyPromise _ => 0

/-- A call of the library allocates states, or leaves it to its code. -/
theorem begin_allocates {X : Type} {h h' : Heap V ε} {api : Api V ε} {code : List (Instr V ε X)}
    (begun : h.begin api = some (h', code)) :
    code.countP Instr.allocates + h'.next = api.room + h.next := by
  have registers (inputs : List StateId) (callable : Callable) :
      (inputs.map fun s => (.thenFunc s callable : Instr V ε X)).countP Instr.allocates =
        inputs.length := by
    have all : ∀ x ∈ inputs.map fun s => (.thenFunc s callable : Instr V ε X),
        x.allocates = true := by
      intro x inside
      obtain ⟨s, -, same⟩ := List.mem_map.mp inside
      rw [← same]
      rfl
    rw [List.countP_eq_length.mpr all, List.length_map]
  cases api with
  | newPromise isVoid =>
    cases begun
    exact (Nat.zero_add _).trans (Nat.add_comm _ 1)
  | complete s result =>
    obtain ⟨-, made⟩ := Option.ite_none_right_eq_some.mp begun
    cases result <;> cases made <;> rfl
  | destroyPromise s =>
    obtain ⟨-, made⟩ := Option.ite_none_right_eq_some.mp begun
    cases made
    rfl
  | «then» s isVoid =>
    obtain ⟨-, made⟩ := Option.ite_none_right_eq_some.mp begun
    cases made
    exact (Nat.zero_add _).trans (Nat.add_comm _ 1)
  | whenAll inputs =>
    obtain ⟨-, made⟩ := Option.ite_none_right_eq_some.mp begun
    cases made
    rw [List.countP_append, registers]
    exact (Nat.add_assoc inputs.length h.next 1).symm.trans (Nat.add_right_comm _ _ _)
  | whenAny inputs =>
    obtain ⟨-, made⟩ := Option.ite_none_right_eq_some.mp begun
    cases made
    rw [registers]
    exact (Nat.add_assoc inputs.length h.next 1).symm.trans (Nat.add_right_comm _ _ _)

/-- A statement makes room for the states that its library call makes. -/
theorem Pool.run_allocates {pool pool' : Pool V ε} {h : Heap V ε} {finished : Nat → Bool}
    {workers thread woken : Nat} {c : PoolCode} {next : List PoolCode} {api : Option (Api V ε)}
    (ran : pool.run h finished workers thread woken c = some (pool', next, api)) :
    (next.map PoolCode.allocates).sum + api.elim 0 Api.room = c.allocates := by
  cases Pool.run_did ran with
  | @whenAll isVoid dependencies =>
    change 1 + 0 + (dependencies.length + 1) = dependencies.length + 2
    omega
  | _ => rfl

namespace PoolConfig

variable {workers : Nat} {σ σ' : PoolConfig V ε} {event : PoolEvent V ε}

/-- Room for the states that there are and for those that the calls in progress will make. -/
def size (σ : PoolConfig V ε) : Nat :=
  σ.runtime.size + Stacks.weigh PoolCode.allocates (poolCode σ.runtime.pending)

/-- The weight of all that is pending, and of what waits in the queue. -/
def work (workers size : Nat) (σ : PoolConfig V ε) : Nat :=
  σ.runtime.work size + Stacks.weigh (PoolCode.weight workers size σ.pool.shutdownInitiated)
    (poolCode σ.runtime.pending) + σ.pool.spare workers size

/-- A worker leaves its wait on `_condition` without having been notified. -/
def wakes (σ : PoolConfig V ε) : PoolEvent V ε → Bool
  | .run thread _ => thread ∈ σ.pool.sleeping
  | _ => false

/-- What an event is charged: what it costs, and the look for a task of a worker that it wakes. -/
def charge (workers size : Nat) (σ : PoolConfig V ε) (event : PoolEvent V ε) : Nat :=
  event.cost workers size + (σ.wakes event).toNat * (nap size + 1)

/-- No more tasks are queued than there are states. -/
theorem Ok.tasks_le (ok : σ.Ok workers) :
    @LE.le Nat _ σ.pool.tasks.length σ.runtime.heap.next := by
  have once : σ.pool.tasks.Nodup := List.nodup_iff_count_le_one.mpr fun task => by
    by_cases queued : task ∈ σ.pool.tasks
    · exact Nat.le_of_eq (ok.ledger.queued_alone queued).1
    · rw [List.count_eq_zero_of_not_mem queued]
      exact Nat.zero_le 1
  have known : σ.pool.tasks ⊆ σ.pool.made := fun task queued => (ok.ledger.queued task queued).1
  have promised : σ.pool.made.map Task.promise ⊆ List.range σ.runtime.heap.next := by
    intro s inside
    obtain ⟨task, made, same⟩ := List.mem_map.mp inside
    rw [← same]
    exact List.mem_range.mpr (ok.promise_lt made)
  calc σ.pool.tasks.length ≤ σ.pool.made.length := (once.subperm known).length_le
    _ = (σ.pool.made.map Task.promise).length := (List.length_map _).symm
    _ ≤ (List.range σ.runtime.heap.next).length :=
      (ok.ledger.distinct.subperm promised).length_le
    _ = σ.runtime.heap.next := List.length_range

/-- No more workers are asleep than there are. -/
theorem Staffed.sleeping_le (staffed : σ.Staffed workers) : σ.pool.sleeping.card ≤ workers := by
  have within : σ.pool.sleeping ⊆ Finset.range workers := fun w asleep =>
    Finset.mem_range.mpr (staffed.sleeping w asleep).1
  simpa using Finset.card_le_card within

section Placed

variable {thread : Nat} {base : List (Instr V ε PoolCode)} (left next : List PoolCode)
  (code : List (Instr V ε PoolCode)) (api : Option (Api V ε)) (size : Nat)

/-- The code of the pool changes like the stack. -/
theorem codes_placed
    (replaced : Replaced σ.runtime σ'.runtime thread (left.map .external)
      (code ++ next.map .external) base)
    (library : ∀ x ∈ code, x.code = none) :
    ∃ rest, poolCode σ.runtime.pending = (left : Multiset PoolCode) + rest ∧
      poolCode σ'.runtime.pending = (next : Multiset PoolCode) + rest := by
  obtain ⟨rest, before, after⟩ := replaced.pending
  refine ⟨poolCode rest, ?_, ?_⟩
  · rw [before, poolCode_add, poolCode_external]
  · rw [after, ← Multiset.coe_add, poolCode_add, poolCode_add, poolCode_library library, zero_add,
      poolCode_external]

/-- Code that is put on a stack, with a library call above it, changes the room by what it
reserves and by what the call makes. -/
theorem placed_size
    (replaced : Replaced σ.runtime σ'.runtime thread (left.map .external)
      (code ++ next.map .external) base)
    (begun : Begun σ.runtime.heap api σ'.runtime.heap code) :
    σ'.size + (left.map PoolCode.allocates).sum =
      σ.size + ((next.map PoolCode.allocates).sum + api.elim 0 Api.room) := by
  have silent (codes : List PoolCode) :
      (codes.map (.external : PoolCode → Instr V ε PoolCode)).countP Instr.allocates = 0 := by
    apply List.countP_eq_zero.mpr
    intro x inside
    obtain ⟨c, -, same⟩ := List.mem_map.mp inside
    rw [← same]
    exact Bool.false_ne_true
  obtain ⟨rest, before, after⟩ := replaced.pending
  obtain ⟨codes, was, now⟩ := codes_placed left next code replaced begun.spares.library
  have made : code.countP Instr.allocates + σ'.runtime.heap.next =
      api.elim 0 Api.room + σ.runtime.heap.next := by
    cases api with
    | none =>
      obtain ⟨same, none⟩ := begun
      rw [same, none]
      rfl
    | some api => exact begin_allocates begun
  unfold PoolConfig.size Config.size
  rw [was, now, before, after, Stacks.weigh_add, Stacks.weigh_add, Stacks.weigh_coe,
    Stacks.weigh_coe, Stacks.count_add, Stacks.count_add, Stacks.count_coe, Stacks.count_coe,
    List.countP_append, silent, silent]
  omega

/-- Code that is put on a stack, with a library call above it, adds its weight and the cost of the
call. -/
theorem Ok.placed_work (ok : σ.Ok workers)
    (replaced : Replaced σ.runtime σ'.runtime thread (left.map .external)
      (code ++ next.map .external) base)
    (begun : Begun σ.runtime.heap api σ'.runtime.heap code)
    (later : σ.runtime.heap.Later σ'.runtime.heap)
    (kept : σ.pool.shutdownInitiated = true → σ'.pool.shutdownInitiated = true) :
    σ'.work workers size +
        (left.map (PoolCode.weight workers size σ.pool.shutdownInitiated)).sum +
        σ.pool.spare workers size ≤
      σ.work workers size + follows workers size σ'.pool.shutdownInitiated next api +
        σ'.pool.spare workers size := by
  have layout := (Config.ok ok.reached).inv.layout
  obtain ⟨rest, before, after⟩ := replaced.pending
  obtain ⟨codes, was, now⟩ := codes_placed left next code replaced begun.spares.library
  have weightless (codes : List PoolCode) (h : Heap V ε) :
      ((codes.map (.external : PoolCode → Instr V ε PoolCode)).map (Instr.weight size h)).sum =
        0 := by
    apply List.sum_eq_zero
    intro weight inside
    rw [List.map_map] at inside
    obtain ⟨c, -, same⟩ := List.mem_map.mp inside
    exact same.symm
  have others : Stacks.weigh (Instr.weight size σ'.runtime.heap) rest ≤
      Stacks.weigh (Instr.weight size σ.runtime.heap) rest := by
    apply Stacks.weigh_le
    intro x inside
    have pending : x ∈ σ.runtime.pending := before ▸ Multiset.mem_add.mpr (Or.inr inside)
    have cells (s : StateId) : (σ'.runtime.heap.cell s).continuations =
        (σ.runtime.heap.cell s).continuations := by rw [begun.cells]
    exact Nat.le_of_eq (Instr.weight_begun (layout.typed x pending) later cells size)
  have shut : Stacks.weigh (PoolCode.weight workers size σ'.pool.shutdownInitiated) codes ≤
      Stacks.weigh (PoolCode.weight workers size σ.pool.shutdownInitiated) codes :=
    Stacks.weigh_le fun c _ => PoolCode.weight_shut kept c
  have charged : weighCode size σ'.runtime.heap code ≤ api.elim 0 (Api.cost size) := begun.charged
  unfold weighCode at charged
  unfold PoolConfig.work Config.work follows
  rw [was, now, before, after, Stacks.weigh_add, Stacks.weigh_add, Stacks.weigh_add,
    Stacks.weigh_add, Stacks.weigh_coe, Stacks.weigh_coe, Stacks.weigh_coe, Stacks.weigh_coe,
    List.map_append, List.sum_append, weightless, weightless]
  omega

end Placed

/-- A step of the library leaves the pool's code alone. -/
theorem LibraryStep.codes {thread : Nat} {next : Config V ε PoolCode}
    {old new base : List (Instr V ε PoolCode)}
    (step : LibraryStep workers σ thread next old new base) :
    poolCode next.pending = poolCode σ.runtime.pending := by
  obtain ⟨rest, before, after⟩ := step.replaced.pending
  rw [before, after, poolCode_add, poolCode_add, poolCode_library step.own,
    poolCode_library step.spares.library]

/-- A thread that is not inside its wait is not asleep. -/
theorem Staffed.awake (staffed : σ.Staffed workers) {thread : Nat} {x : Instr V ε PoolCode}
    {base : List (Instr V ε PoolCode)} (found : σ.runtime.threads[thread]? = some (x :: base))
    (other : x ≠ .external .waitFor) : thread ∉ σ.pool.sleeping := by
  intro asleep
  have waits := (staffed.sleeping thread asleep).2
  rw [found] at waits
  exact other (List.cons.inj (Option.some.inj waits)).1

/-- Going on keeps the room, and the program only adds to it. -/
theorem Ok.size_le (ok : σ.Ok workers) (taken : σ.step workers event = some σ') :
    σ.size ≤ σ'.size ∧ (event.continues = true → σ'.size = σ.size) := by
  cases ok.stepped taken with
  | @library _ below thread old new base disciplined running same step reason =>
    have kept := (Config.ok ok.reached).size_le disciplined running
    unfold PoolConfig.size
    rw [step.codes]
    cases reason with
    | run | ret =>
      rw [kept.2 rfl]
      exact ⟨le_refl _, fun _ => rfl⟩
    | call => exact ⟨Nat.add_le_add_right kept.1 _, nofun⟩
  | @statement thread woken c base pool next api found ran performed =>
    obtain ⟨code, replaced, -, begun⟩ := perform_statement found performed
    have placed := placed_size [c] next code api replaced begun
    have balance := Pool.run_allocates ran
    simp only [List.map_singleton, List.sum_singleton] at placed
    have same : σ'.size = σ.size := by omega
    exact ⟨Nat.le_of_eq same.symm, fun _ => same⟩
  | @funcReturn thread task base result found performed =>
    obtain ⟨code, replaced, -, begun⟩ := perform_statement found performed
    have placed := placed_size [.func task] [.relock task] code _ replaced begun
    have same : σ'.size = σ.size := placed
    exact ⟨Nat.le_of_eq same.symm, fun _ => same⟩
  | @execute thread base isVoid dependencies found control allowed performed =>
    obtain ⟨replaced, -, heap⟩ := perform_entry found performed
    have placed := placed_size [] [.execute isVoid dependencies] [] none replaced ⟨heap, rfl⟩
    refine ⟨?_, nofun⟩
    simp only [List.map_nil, List.sum_nil] at placed
    omega
  | @destroy thread base found control outside first idle performed =>
    obtain ⟨replaced, -, heap⟩ := perform_entry found performed
    have placed := placed_size [] [.shutdownNotifyThreads] [] none replaced ⟨heap, rfl⟩
    refine ⟨?_, nofun⟩
    simp only [List.map_nil, List.sum_nil] at placed
    omega

/-- Every step is accounted for. -/
theorem Ok.accounts (ok : σ.Ok workers) (staffed : σ.Staffed workers)
    (remains : σ'.Staffed workers) (taken : σ.step workers event = some σ') {size : Nat}
    (room : σ'.size ≤ size) :
    (if event.continues = true then 1 else 0) + σ'.work workers size ≤
      σ.work workers size + σ.charge workers size event := by
  have queue : σ.pool.tasks.length ≤ size := by
    have few := ok.tasks_le
    have grows := (ok.size_le taken).1
    unfold PoolConfig.size Config.size at grows room
    omega
  have later := ok.later (ok.stepped taken)
  cases ok.stepped taken with
  | @library _ below thread old new base disciplined running same step reason =>
    have within : σ'.runtime.size ≤ size := (Nat.le_add_right _ _).trans room
    have accounted := (Config.ok ok.reached).accounts disciplined running within
    unfold PoolConfig.work PoolConfig.charge
    rw [step.codes, same]
    cases reason with
    | run | ret =>
      simp only [Event.continues, Event.cost, PoolEvent.continues, PoolEvent.cost, if_true]
        at accounted ⊢
      omega
    | call =>
      simp only [Event.continues, Event.cost, PoolEvent.continues, PoolEvent.cost,
        Bool.false_eq_true, if_false] at accounted ⊢
      omega
  | @statement thread woken c base pool next api found ran performed =>
    obtain ⟨code, replaced, same, begun⟩ := perform_statement found performed
    rw [← same] at ran
    have kept := (Pool.run_did ran).initiated_kept
    have placed := ok.placed_work [c] next code api size replaced begun later kept
    have awake (other : c ≠ .waitFor) : thread ∉ σ.pool.sleeping :=
      staffed.awake found fun clash => other (Instr.external.inj clash)
    have pays := Pool.run_pays ran queue remains.sleeping_le awake
    have woken : σ.pool.surcharge size thread ≤
        (σ.wakes (.run thread woken)).toNat * (nap size + 1) := by
      unfold Pool.surcharge PoolConfig.wakes
      by_cases asleep : thread ∈ σ.pool.sleeping
      · simp [asleep]
      · simp [asleep]
    simp only [List.map_singleton, List.sum_singleton] at placed
    simp only [PoolEvent.continues, PoolConfig.charge, PoolEvent.cost, if_true]
    omega
  | @funcReturn thread task base result found performed =>
    obtain ⟨code, replaced, same, begun⟩ := perform_statement found performed
    have shut : σ'.pool.shutdownInitiated = σ.pool.shutdownInitiated := by rw [same]
    have spare : σ'.pool.spare workers size = σ.pool.spare workers size := by rw [same]; rfl
    have placed := ok.placed_work [.func task] [.relock task] code _ size replaced begun later
      fun initiated => shut.trans initiated
    simp only [List.map_singleton, List.sum_singleton, follows, PoolCode.weight, taskWork,
      Option.elim_some, Api.cost] at placed
    simp only [PoolEvent.continues, PoolConfig.charge, PoolEvent.cost, if_true]
    omega
  | @execute thread base isVoid dependencies found control allowed performed =>
    obtain ⟨replaced, same, heap⟩ := perform_entry found performed
    have placed := ok.placed_work [] [.execute isVoid dependencies] [] none size replaced
      ⟨heap, rfl⟩ later fun initiated => by rw [same]; exact initiated
    rw [same] at placed
    simp only [List.map_nil, List.map_singleton, List.sum_nil, List.sum_singleton, follows,
      PoolCode.weight, Option.elim_none] at placed
    simp only [PoolEvent.continues, PoolConfig.charge, PoolEvent.cost, Bool.false_eq_true,
      if_false]
    omega
  | @destroy thread base found control outside first idle performed =>
    obtain ⟨replaced, same, heap⟩ := perform_entry found performed
    have spare : σ'.pool.spare workers size = σ.pool.spare workers size := by rw [same]; rfl
    have placed := ok.placed_work [] [.shutdownNotifyThreads] [] none size replaced
      ⟨heap, rfl⟩ later fun initiated => by rw [same]; exact initiated
    simp only [List.map_nil, List.map_singleton, List.sum_nil, List.sum_singleton, follows,
      PoolCode.weight, Option.elim_none] at placed
    simp only [PoolEvent.continues, PoolConfig.charge, PoolEvent.cost, PoolCode.weight,
      Bool.false_eq_true, if_false]
    omega

/-- The steps of a run are covered by what was pending and by what its events are charged. -/
theorem replay_pays {last : PoolConfig V ε} {events : List (PoolEvent V ε)}
    (reached : (poolSystem V ε workers).Reachable σ)
    (replayed : (poolSystem V ε workers).replay σ events = some last) :
    events.countP PoolEvent.continues + last.work workers last.size ≤
      σ.work workers last.size +
        (poolSystem V ε workers).total (PoolConfig.charge workers last.size) σ events := by
  apply (reached.replay_accounts (fun state => state.size ≤ last.size)
    (fun state => state.work workers last.size) PoolEvent.continues
    (PoolConfig.charge workers last.size) _ _ replayed (le_refl _)).2
  · intro state event after old stepped room
    exact ((PoolConfig.ok old).size_le stepped).1.trans room
  · intro state event after old room stepped
    exact (PoolConfig.ok old).accounts (PoolConfig.staffed old)
      (PoolConfig.staffed (old.next stepped)) stepped room

/-- Going on keeps the room. -/
theorem size_kept {last : PoolConfig V ε} {events : List (PoolEvent V ε)}
    (reached : (poolSystem V ε workers).Reachable σ)
    (only : ∀ event ∈ events, event.continues = true)
    (replayed : (poolSystem V ε workers).replay σ events = some last) : last.size = σ.size := by
  apply reached.replay_keeps PoolConfig.size _ only replayed
  intro state event after old continues stepped
  exact ((PoolConfig.ok old).size_le stepped).2 continues

end PoolConfig

/-- Whatever the program submits, and in whatever order its threads go on: the steps that the
workers and the other threads make inside the pool and the library, together with the returns of
callables, are covered by what was pending and by what the calls are charged, and a wait that ends
without a notification is charged one look for a task. -/
theorem pool_steps_charged {workers : Nat} {σ last : PoolConfig V ε}
    {events : List (PoolEvent V ε)} (reached : (poolSystem V ε workers).Reachable σ)
    (replayed : (poolSystem V ε workers).replay σ events = some last) :
    events.countP PoolEvent.continues + last.work workers last.size ≤
      σ.work workers last.size + (events.map (PoolEvent.cost workers last.size)).sum +
        (poolSystem V ε workers).total (fun state event => (state.wakes event).toNat) σ events *
          (nap last.size + 1) := by
  have pays := PoolConfig.replay_pays reached replayed
  have parts : (poolSystem V ε workers).total (PoolConfig.charge workers last.size) σ events =
      (poolSystem V ε workers).total (fun _ => PoolEvent.cost workers last.size) σ events +
        (poolSystem V ε workers).total
          (fun state event => (state.wakes event).toNat * (nap last.size + 1)) σ events :=
    System.total_add _ _ σ events
  rw [parts, System.total_sum replayed, System.total_mul] at pays
  omega

/-- A worker goes to sleep, wakes up without a notification and goes to sleep again; then it is
notified of a task, whose callable returns. -/
def spuriousRun : List (PoolEvent Nat String) :=
  List.replicate 9 (PoolEvent.run 0 0) ++ [PoolEvent.execute 1 false []] ++
    List.replicate 9 (PoolEvent.run 1 0) ++ List.replicate 5 (PoolEvent.run 0 0) ++
    [PoolEvent.funcReturn 0 (.ok (.val 7))]

theorem spuriousRun_replays :
    ((poolSystem Nat String 1).replay (PoolConfig.start 1 1) spuriousRun).isSome = true := by
  decide +kernel

/-- Its 24 steps are paid for by the call of `Execute`, what the worker was about to do at first,
and one surcharge. -/
theorem pool_steps_charged_spurious :
    let last := ((poolSystem Nat String 1).replay (PoolConfig.start 1 1) spuriousRun).get
      spuriousRun_replays
    spuriousRun.countP PoolEvent.continues = 24 ∧
      (poolSystem Nat String 1).total (fun state event => (state.wakes event).toNat)
        (PoolConfig.start 1 1) spuriousRun = 1 ∧
      24 + last.work 1 last.size ≤
        (PoolConfig.start 1 1 : PoolConfig Nat String).work 1 last.size +
          executeWork 1 last.size [] + (nap last.size + 1) := by
  intro last
  have initial : (poolSystem Nat String 1).initial (PoolConfig.start 1 1) := ⟨1, rfl⟩
  have continues : spuriousRun.countP PoolEvent.continues = 24 := by rfl
  have woken : (poolSystem Nat String 1).total (fun state event => (state.wakes event).toNat)
      (PoolConfig.start 1 1) spuriousRun = 1 := by
    decide +kernel
  have costs : (spuriousRun.map (PoolEvent.cost 1 last.size)).sum =
      executeWork 1 last.size [] := by
    simp [spuriousRun, PoolEvent.cost]
  have charged := pool_steps_charged (.start initial) (Option.some_get spuriousRun_replays).symm
  rw [continues, woken, costs, Nat.one_mul] at charged
  exact ⟨continues, woken, charged⟩

end Azul.Async
