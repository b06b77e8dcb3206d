import Azul.Ipc.Win32Steps

/-!
# No waiter of the `win32` condition variable is stranded

A thread that has enqueued itself and is still blocked is on its way to be notified: its id is in
the queue, or the holder of the queue mutex has dequeued it and is about to release its semaphore,
or its semaphore is released. `GetSemaphore` resets a semaphore only for its own thread before that
enqueues itself, and for a notifier that releases it again.
-/

namespace Azul.Ipc.Win32

open Azul.Foundation Operation

namespace Phase

/-- The thread holds `_threadQueueMutex`. -/
def holds : Phase → Bool
  | outside | lockingWait _ | waiting _ | relocking _ _ | lockingNotify _ => false
  | gettingOwn _ | pushing _ | unlockingMutex _ | unlocking _ | relockingMutex _ _ | relocked _ _
  | notifying _ | getting _ _ | releasing _ _ | unwinding _ => true

/-- The thread has enqueued itself and its wait has not ended. -/
def enqueued : Phase → Bool
  | unlockingMutex _ | unlocking _ | waiting _ => true
  | outside | lockingWait _ | gettingOwn _ | pushing _ | relocking _ _ | relockingMutex _ _
  | relocked _ _ | lockingNotify _ | notifying _ | getting _ _ | releasing _ _
  | unwinding _ => false

/-- The object whose handle of its own semaphore a thread waits with. -/
def ownHandle : Phase → Option ObjectId
  | pushing call | unlockingMutex call | unlocking call | waiting call => some call.object
  | outside | lockingWait _ | gettingOwn _ | relocking _ _ | relockingMutex _ _ | relocked _ _
  | lockingNotify _ | notifying _ | getting _ _ | releasing _ _ | unwinding _ => none

/-- The thread that a notifier has dequeued and not yet signalled. -/
def signals : Phase → Option ThreadId
  | getting _ id | releasing _ id => some id
  | outside | lockingWait _ | gettingOwn _ | pushing _ | unlockingMutex _ | unlocking _ | waiting _
  | relocking _ _ | relockingMutex _ _ | relocked _ _ | lockingNotify _ | notifying _
  | unwinding _ => none

end Phase

/-! ## The invariant -/

variable {queue : Queue} {state after : State}

/-- A notification of a thread is under way: its id is in the queue, its semaphore is released, or
the holder of the queue mutex is between the one and the other. -/
def State.Reaches (state : State) (queue : Queue) (t : ThreadId) : Prop :=
  t ∈ state.memory.contents queue.size ∨ state.counts t = 1 ∨
    ∃ n, state.queueMutex = some n ∧ (state.threads n).signals = some t

/-- What holds of a thread by the phase it is in. -/
structure PhaseOk (queue : Queue) (state : State) (t : ThreadId) (phase : Phase) : Prop where
  holder : phase.holds = true → state.queueMutex = some t
  own : ∀ object, phase.ownHandle = some object → object ∈ state.handles t
  reached : phase.enqueued = true → state.Reaches queue t

/-- The invariant. -/
structure Ok (queue : Queue) (state : State) : Prop where
  valid : state.memory.Valid queue.size
  phases : ∀ t, PhaseOk queue state t (state.threads t)

/-- A phase in which a thread does not wait asks for the queue mutex at most. -/
theorem PhaseOk.awake {t : ThreadId} {phase : Phase}
    (holder : phase.holds = true → state.queueMutex = some t) (own : phase.ownHandle = none)
    (enqueued : phase.enqueued = false) : PhaseOk queue state t phase := by
  refine ⟨holder, ?_, ?_⟩
  · intro object handle
    rw [own] at handle
    cases handle
  · intro still
    rw [enqueued] at still
    cases still

/-- What a step of a thread leaves to the others. -/
structure Leaves (queue : Queue) (state after : State) (t : ThreadId) : Prop where
  threads : ∀ u, u ≠ t → after.threads u = state.threads u
  holder : ∀ u, u ≠ t → state.queueMutex = some u → after.queueMutex = some u
  own : ∀ u, u ≠ t → ∀ object, (state.threads u).ownHandle = some object →
    object ∈ state.handles u → object ∈ after.handles u
  reached : ∀ u, u ≠ t → (state.threads u).enqueued = true → state.Reaches queue u →
    after.Reaches queue u

/-- A step keeps the invariant if it leaves the others theirs and moves its thread to a phase it may
be in. -/
theorem Ok.leaves (ok : Ok queue state) {t : ThreadId} (left : Leaves queue state after t)
    (valid : after.memory.Valid queue.size)
    (moved : PhaseOk queue after t (after.threads t)) : Ok queue after where
  valid := valid
  phases u := by
    by_cases same : u = t
    · rw [same]
      exact moved
    · have phase := ok.phases u
      rw [left.threads u same]
      exact {
        holder := fun holds => left.holder u same (phase.holder holds)
        own := fun object handle => left.own u same object handle (phase.own object handle)
        reached := fun enqueued => left.reached u same enqueued (phase.reached enqueued) }

/-- A thread still is on its way to be notified if no id is taken from the queue, no count changes,
and the step is not that of a notifier that has dequeued an id. -/
theorem State.Reaches.kept {u t : ThreadId} (reached : state.Reaches queue u)
    (listed : u ∈ state.memory.contents queue.size → u ∈ after.memory.contents queue.size)
    (counts : state.counts u = 1 → after.counts u = 1)
    (silent : (state.threads t).signals = none)
    (threads : ∀ n, n ≠ t → after.threads n = state.threads n)
    (holder : ∀ n, n ≠ t → state.queueMutex = some n → after.queueMutex = some n) :
    after.Reaches queue u := by
  rcases reached with member | count | ⟨n, holds, signals⟩
  · exact Or.inl (listed member)
  · exact Or.inr (Or.inl (counts count))
  · have other : n ≠ t := by
      intro same
      rw [same, silent] at signals
      cases signals
    refine Or.inr (Or.inr ⟨n, holder n other holds, ?_⟩)
    rw [threads n other]
    exact signals

/-- A thread that goes on to another phase leaves the phases of the others. -/
theorem State.goes_other (state : State) {t u : ThreadId} (phase : Phase) (other : u ≠ t) :
    (state.goes t phase).threads u = state.threads u := by
  show Function.update state.threads t phase u = state.threads u
  rw [Function.update_of_ne other]

@[simp] theorem State.goes_self (state : State) (t : ThreadId) (phase : Phase) :
    (state.goes t phase).threads t = phase := by
  show Function.update state.threads t phase t = phase
  rw [Function.update_self]

/-- Only one thread holds the queue mutex. -/
theorem Ok.holder_unique (ok : Ok queue state) {t u : ThreadId}
    (first : (state.threads t).holds = true) (second : (state.threads u).holds = true) : t = u := by
  have holds := (ok.phases t).holder first
  rw [(ok.phases u).holder second] at holds
  exact (Option.some.inj holds).symm

/-- A step that changes its phase and the two kinds of mutexes at most. -/
theorem Ok.quiet (ok : Ok queue state) {t : ThreadId} {phase : Phase}
    {queueMutex : Option ThreadId} {mutexes : MutexId → Option ThreadId}
    (silent : (state.threads t).signals = none)
    (others : ∀ u, u ≠ t → state.queueMutex = some u → queueMutex = some u)
    (holder : phase.holds = true → queueMutex = some t)
    (own : ∀ object, phase.ownHandle = some object →
      (state.threads t).ownHandle = some object)
    (enqueued : phase.enqueued = true → (state.threads t).enqueued = true) :
    Ok queue ({ state with queueMutex := queueMutex, mutexes := mutexes }.goes t phase) := by
  have threads : ∀ n, n ≠ t → ({ state with queueMutex := queueMutex, mutexes := mutexes }.goes t
      phase).threads n = state.threads n := fun n => State.goes_other _ _
  have reaches : ∀ u, state.Reaches queue u →
      ({ state with queueMutex := queueMutex, mutexes := mutexes }.goes t phase).Reaches queue u :=
    fun u reached => reached.kept id id silent threads others
  apply ok.leaves (t := t)
  · exact {
      threads := threads
      holder := others
      own := fun u _ object _ member => member
      reached := fun u _ _ reached => reaches u reached }
  · exact ok.valid
  · rw [State.goes_self]
    exact {
      holder := holder
      own := fun object handle => (ok.phases t).own object (own object handle)
      reached := fun still => reaches t ((ok.phases t).reached (enqueued still)) }

/-- A quiet step to a phase in which the thread does not wait. -/
theorem Ok.quiet_awake (ok : Ok queue state) {t : ThreadId} {phase : Phase}
    {queueMutex : Option ThreadId} {mutexes : MutexId → Option ThreadId}
    (silent : (state.threads t).signals = none)
    (others : ∀ u, u ≠ t → state.queueMutex = some u → queueMutex = some u)
    (holder : phase.holds = true → queueMutex = some t) (own : phase.ownHandle = none)
    (enqueued : phase.enqueued = false) :
    Ok queue ({ state with queueMutex := queueMutex, mutexes := mutexes }.goes t phase) := by
  apply ok.quiet silent others holder
  · intro object handle
    rw [own] at handle
    cases handle
  · intro still
    rw [enqueued] at still
    cases still

/-! ## Steps that change the queue, the semaphores or the handles -/

/-- `GetSemaphore` of a waiter, which is not enqueued yet. -/
theorem Ok.gotOwn (ok : Ok queue state) {t : ThreadId} {call : WaitCall} {next : State}
    (at_t : state.threads t = .gettingOwn call) (gets : Gets state call.object t next) :
    Ok queue (next.goes t (.pushing call)) := by
  have threads : ∀ n, n ≠ t → (next.goes t (.pushing call)).threads n = state.threads n := by
    intro n other
    rw [State.goes_other _ _ other, gets.threads]
  have holder : ∀ n, n ≠ t → state.queueMutex = some n →
      (next.goes t (.pushing call)).queueMutex = some n := by
    intro n _ holds
    rw [← holds]
    exact gets.queueMutex
  apply ok.leaves (t := t)
  · refine ⟨threads, holder, fun u _ object _ => gets.handles u object, ?_⟩
    intro u other enqueued reached
    refine reached.kept ?_ ?_ (by rw [at_t]; rfl) threads holder
    · intro member
      show u ∈ next.memory.contents queue.size
      rw [gets.memory]
      exact member
    · intro count
      rw [← count]
      exact gets.counts u other
  · show next.memory.Valid queue.size
    rw [gets.memory]
    exact ok.valid
  · rw [State.goes_self]
    constructor
    · intro _
      rw [← (ok.phases t).holder (by rw [at_t]; rfl)]
      exact gets.queueMutex
    · intro object handle
      cases handle
      exact gets.known
    · intro enqueued
      cases enqueued

/-- `PushBack` of a waiter. -/
theorem Ok.pushed (ok : Ok queue state) {t : ThreadId} {call : WaitCall} {memory : Memory ThreadId}
    (at_t : state.threads t = .pushing call) (valid : memory.Valid queue.size)
    (appended : memory.contents queue.size = state.memory.contents queue.size ++ [t]) :
    Ok queue ({ state with memory := memory }.goes t (.unlockingMutex call)) := by
  have threads : ∀ n, n ≠ t → ({ state with memory := memory }.goes t
      (.unlockingMutex call)).threads n = state.threads n := fun n => State.goes_other _ _
  apply ok.leaves (t := t)
  · refine ⟨threads, fun _ _ holds => holds, fun _ _ _ _ member => member, ?_⟩
    intro u _ _ reached
    refine reached.kept ?_ (fun one => one) (by rw [at_t]; rfl) threads (fun _ _ holds => holds)
    intro member
    show u ∈ memory.contents queue.size
    rw [appended]
    exact List.mem_append_left [t] member
  · exact valid
  · rw [State.goes_self]
    constructor
    · intro _
      exact (ok.phases t).holder (by rw [at_t]; rfl)
    · intro object handle
      exact (ok.phases t).own object (by rw [at_t]; exact handle)
    · intro _
      left
      show t ∈ memory.contents queue.size
      rw [appended]
      exact List.mem_append_right _ (List.mem_singleton.mpr rfl)

/-- A wait that its semaphore ends. -/
theorem Ok.signalled (ok : Ok queue state) {t : ThreadId} {call : WaitCall}
    (at_t : state.threads t = .waiting call) (count : Nat) :
    Ok queue ({ state with counts := Function.update state.counts t count }.goes t
      (.relocking call .object0)) := by
  have threads : ∀ n, n ≠ t → ({ state with counts := Function.update state.counts t count }.goes t
      (.relocking call .object0)).threads n = state.threads n := fun n => State.goes_other _ _
  apply ok.leaves (t := t)
  · refine ⟨threads, fun _ _ holds => holds, fun _ _ _ _ member => member, ?_⟩
    intro u other _ reached
    refine reached.kept (fun member => member) ?_ (by rw [at_t]; rfl) threads
      (fun _ _ holds => holds)
    intro one
    show Function.update state.counts t count u = 1
    rw [Function.update_of_ne other]
    exact one
  · exact ok.valid
  · rw [State.goes_self]
    exact .awake nofun rfl rfl

/-- `Remove` takes the id of a thread whose wait has ended. -/
theorem Ok.removed (ok : Ok queue state) {t : ThreadId} {call : WaitCall} {result : WaitResult}
    {memory : Memory ThreadId} {outcome : Outcome}
    (at_t : state.threads t = .relocked call result) (valid : memory.Valid queue.size)
    (taken : (memory.contents queue.size).Perm ((state.memory.contents queue.size).erase t)) :
    Ok queue ({ state with memory := memory }.goes t (.unwinding outcome)) := by
  have threads : ∀ n, n ≠ t → ({ state with memory := memory }.goes t
      (.unwinding outcome)).threads n = state.threads n := fun n => State.goes_other _ _
  apply ok.leaves (t := t)
  · refine ⟨threads, fun _ _ holds => holds, fun _ _ _ _ member => member, ?_⟩
    intro u other _ reached
    refine reached.kept ?_ (fun one => one) (by rw [at_t]; rfl) threads (fun _ _ holds => holds)
    intro member
    show u ∈ memory.contents queue.size
    exact taken.mem_iff.mpr ((List.mem_erase_of_ne other).mpr member)
  · exact valid
  · rw [State.goes_self]
    exact .awake (fun _ => (ok.phases t).holder (by rw [at_t]; rfl)) rfl rfl

/-- `Front` and `Pop` of a notifier. -/
theorem Ok.popped (ok : Ok queue state) {t id : ThreadId} {call : NotifyCall}
    {memory : Memory ThreadId} (at_t : state.threads t = .notifying call)
    (valid : memory.Valid queue.size)
    (first : state.memory.contents queue.size = id :: memory.contents queue.size) :
    Ok queue ({ state with memory := memory }.goes t (.getting call id)) := by
  have threads : ∀ n, n ≠ t → ({ state with memory := memory }.goes t
      (.getting call id)).threads n = state.threads n := fun n => State.goes_other _ _
  have holds : state.queueMutex = some t := (ok.phases t).holder (by rw [at_t]; rfl)
  apply ok.leaves (t := t)
  · refine ⟨threads, fun _ _ holds => holds, fun _ _ _ _ member => member, ?_⟩
    intro u _ _ reached
    by_cases dequeued : u = id
    · exact Or.inr (Or.inr ⟨t, holds, by rw [State.goes_self, dequeued]; rfl⟩)
    · refine reached.kept ?_ (fun one => one) (by rw [at_t]; rfl) threads (fun _ _ holds => holds)
      intro member
      rw [first, List.mem_cons] at member
      exact member.resolve_left dequeued
  · exact valid
  · rw [State.goes_self]
    exact .awake (fun _ => holds) rfl rfl

/-- A step of a notifier with the id it has dequeued, which does not concern the others. -/
theorem Ok.notifies (ok : Ok queue state) {t id : ThreadId} {phase : Phase} {next : State}
    (holds : state.queueMutex = some t) (signals : (state.threads t).signals = some id)
    (memory : next.memory = state.memory) (queueMutex : next.queueMutex = state.queueMutex)
    (threads : next.threads = state.threads)
    (handles : ∀ u object, object ∈ state.handles u → object ∈ next.handles u)
    (counts : ∀ u, u ≠ id → next.counts u = state.counts u)
    (reached : (state.threads id).enqueued = true → (next.goes t phase).Reaches queue id)
    (own : phase.ownHandle = none) (enqueued : phase.enqueued = false) :
    Ok queue (next.goes t phase) := by
  apply ok.leaves (t := t)
  · constructor
    · intro u other
      rw [State.goes_other _ _ other, threads]
    · intro u _ held
      rw [← held]
      exact queueMutex
    · intro u _ object _ member
      exact handles u object member
    · intro u _ still before
      by_cases dequeued : u = id
      · rw [dequeued] at still ⊢
        exact reached still
      · rcases before with member | count | ⟨n, held, signalling⟩
        · left
          show u ∈ next.memory.contents queue.size
          rw [memory]
          exact member
        · right
          left
          show next.counts u = 1
          rw [counts u dequeued]
          exact count
        · rw [holds] at held
          rw [← Option.some.inj held, signals] at signalling
          exact absurd (Option.some.inj signalling).symm dequeued
  · show next.memory.Valid queue.size
    rw [memory]
    exact ok.valid
  · rw [State.goes_self]
    exact .awake (fun _ => queueMutex.trans holds) own enqueued

/-- A handle that is closed is not one that a thread waits with. -/
theorem Ok.closes (ok : Ok queue state) {object : ObjectId} {id : ThreadId}
    (may : state.MayClose object id) :
    Ok queue { state with
      handles := Function.update state.handles id ((state.handles id).erase object) } where
  valid := ok.valid
  phases u := {
    holder := (ok.phases u).holder
    own := by
      intro other handle
      have member := (ok.phases u).own other handle
      show other ∈ Function.update state.handles id ((state.handles id).erase object) u
      by_cases same : u = id
      · rw [same] at member handle ⊢
        rw [Function.update_self]
        apply (List.mem_erase_of_ne _).mpr member
        intro closing
        apply may.2.1
        rw [← closing]
        generalize state.threads id = phase at handle
        cases phase <;> first | exact handle | cases handle
      · rw [Function.update_of_ne same]
        exact member
    reached := (ok.phases u).reached }

/-! ## Runs -/

/-- A thread that gives the queue mutex back leaves it to no other. -/
theorem Ok.others (ok : Ok queue state) {t : ThreadId} (holds : (state.threads t).holds = true)
    {queueMutex : Option ThreadId} (u : ThreadId) (other : u ≠ t)
    (held : state.queueMutex = some u) : queueMutex = some u := by
  rw [(ok.phases t).holder holds] at held
  exact absurd (Option.some.inj held).symm other

/-- Every step keeps the invariant. -/
theorem Ok.moved (room : 3 * queue.size.toNat ≤ 2 ^ 32) (ok : Ok queue state) {event : Event}
    (moved : Moved queue state event after) : Ok queue after := by
  cases moved with
  | lockMutex at_t free =>
    exact ⟨ok.valid, fun u => ⟨(ok.phases u).holder, (ok.phases u).own, (ok.phases u).reached⟩⟩
  | unlockMutex at_t held =>
    exact ⟨ok.valid, fun u => ⟨(ok.phases u).holder, (ok.phases u).own, (ok.phases u).reached⟩⟩
  | wait at_t held | notify at_t | timedOut at_t timed | failed at_t =>
    exact ok.quiet_awake (by rw [at_t]; rfl) (fun _ _ holds => holds) nofun rfl rfl
  | closes may => exact ok.closes may
  | lockedWait at_t free | relocked at_t free | lockedNotify at_t free =>
    refine ok.quiet_awake (by rw [at_t]; rfl) ?_ (fun _ => rfl) rfl rfl
    intro u _ held
    rw [free] at held
    cases held
  | gotOwn at_t gets => exact ok.gotOwn at_t gets.gets
  | noneOwn at_t | full at_t | relockedMutex at_t | ended at_t | notified at_t =>
    exact ok.quiet_awake (by rw [at_t]; rfl) (fun _ _ holds => holds)
      (fun _ => (ok.phases _).holder (by rw [at_t]; rfl)) rfl rfl
  | pushed at_t pushes =>
    obtain ⟨valid, appended⟩ := pushed_contents room ok.valid pushes
    exact ok.pushed at_t valid appended
  | unlockedMutex at_t =>
    apply ok.quiet (by rw [at_t]; rfl) (fun _ _ holds => holds)
    · intro _
      exact (ok.phases _).holder (by rw [at_t]; rfl)
    · intro object handle
      rw [at_t]
      exact handle
    · intro _
      rw [at_t]
      rfl
  | unlocked at_t =>
    apply ok.quiet (by rw [at_t]; rfl) (ok.others (by rw [at_t]; rfl))
    · intro holds
      cases holds
    · intro object handle
      rw [at_t]
      exact handle
    · intro _
      rw [at_t]
      rfl
  | threw at_t throws => exact absurd throws (removes_returns room ok.valid _ _)
  | signalled at_t => exact ok.signalled at_t _
  | removed at_t removes =>
    obtain ⟨valid, taken⟩ := removed_contents room ok.valid removes
    exact ok.removed at_t valid taken
  | popped at_t pops =>
    obtain ⟨valid, first⟩ := popped_contents room ok.valid pops
    exact ok.popped at_t valid first
  | @got t call id next _ _ at_t gets =>
    have gets := gets.gets
    have holds := (ok.phases t).holder (by rw [at_t]; rfl)
    apply ok.notifies holds (by rw [at_t]; rfl) gets.memory gets.queueMutex gets.threads
      gets.handles gets.counts _ rfl rfl
    intro _
    exact Or.inr (Or.inr ⟨t, gets.queueMutex.trans holds, by rw [State.goes_self]; rfl⟩)
  | @noneGot t call id outcome _ _ at_t none =>
    have holds := (ok.phases t).holder (by rw [at_t]; rfl)
    apply ok.notifies holds (by rw [at_t]; rfl) rfl rfl rfl (fun _ _ member => member)
      (fun _ _ => rfl) _ rfl rfl
    intro enqueued
    have own : ∃ object, (state.threads id).ownHandle = some object := by
      generalize state.threads id = phase at enqueued
      cases phase <;> first | exact ⟨_, rfl⟩ | cases enqueued
    obtain ⟨object, handle⟩ := own
    have member := (ok.phases id).own object handle
    rw [none] at member
    exact absurd member List.not_mem_nil
  | @released t call id _ _ at_t =>
    have holds := (ok.phases t).holder (by rw [at_t]; rfl)
    have counts : ∀ u, u ≠ id → (state.releaseSemaphore id).counts u = state.counts u :=
      fun u other => Function.update_of_ne other _ _
    apply ok.notifies holds (by rw [at_t]; rfl)
      (show (state.releaseSemaphore id).memory = state.memory from rfl) rfl rfl
      (fun _ _ member => member) counts
    · intro _
      right
      left
      show Function.update state.counts id (min (state.counts id + 1) 1) id = 1
      rw [Function.update_self]
      omega
    · split_ifs <;> rfl
    · split_ifs <;> rfl
  | unwound at_t =>
    exact ok.quiet_awake (by rw [at_t]; rfl) (ok.others (by rw [at_t]; rfl)) nofun rfl rfl

/-- The invariant holds in every reachable state. -/
theorem reachable_ok {itemSize : Word32} {state : State}
    (reached : (conditionVariable itemSize).Reachable state) :
    Ok (threadQueue itemSize) state := by
  apply reached.invariant
  · intro initial starts
    obtain ⟨⟨before, constructed, constructs, memory⟩, free, _, _, outside⟩ := starts
    rw [Queue.construct_perform] at constructs
    obtain ⟨_, started⟩ := Prod.mk.inj constructs
    constructor
    · rw [← memory, ← started]
      exact Memory.valid_zero before.items _
    · intro t
      rw [outside t]
      exact .awake nofun rfl rfl
  · intro state event after _ ok stepped
    exact ok.moved (threadQueue_room itemSize) (step_moved stepped)

/-- A thread is past enqueueing itself and blocked on its semaphore. -/
def State.Blocked (state : State) (t : ThreadId) : Prop :=
  ∃ call, state.threads t = .waiting call

/-- When nobody holds the queue mutex, a blocked thread has its id in the queue or a semaphore with
a count of one. -/
theorem not_stranded {itemSize : Word32} {state : State}
    (reached : (conditionVariable itemSize).Reachable state) (free : state.queueMutex = none)
    {t : ThreadId} (blocked : state.Blocked t) :
    t ∈ state.memory.contents (threadQueue itemSize).size ∨
      state.handles t ≠ [] ∧ state.counts t = 1 := by
  have ok := reachable_ok reached
  obtain ⟨call, at_t⟩ := blocked
  have reaches := (ok.phases t).reached (by rw [at_t]; rfl)
  have handle := (ok.phases t).own call.object (by rw [at_t]; rfl)
  rcases reaches with member | count | ⟨n, held, _⟩
  · exact Or.inl member
  · exact Or.inr ⟨List.ne_nil_of_mem handle, count⟩
  · rw [free] at held
    cases held

/-- Fresh objects, before any call. -/
def start : State where
  memory := { items := fun _ => 0, readPosition := 0, writePosition := 0, count := 0 }
  queueMutex := none
  mutexes _ := none
  counts _ := 0
  handles _ := []
  threads _ := .outside

/-- The next steps of a thread, in which semaphores can be created and end waits. -/
def turns (t : ThreadId) (steps : Nat) : List Event :=
  List.replicate steps (.advance t true .object0)

/-- Thread 1 waits, and thread 2 notifies it through an object of another process. -/
def notifiedRun : List Event :=
  [Event.lockMutex 1 0, Event.wait 1 ⟨0, 0, false⟩] ++ turns 1 5 ++ [Event.notify 2 ⟨1, false⟩] ++
    turns 2 5

theorem start_initial : (conditionVariable 4).initial start :=
  ⟨⟨start.memory, _, Queue.construct_perform 4 (128 * 1024) start.memory, rfl⟩,
    rfl, fun _ => rfl, fun _ => rfl, fun _ => rfl⟩

theorem notifiedRun_replays : ((conditionVariable 4).replay start notifiedRun).isSome = true := by
  decide +kernel

/-- The state in which thread 2 has returned and thread 1 has not woken yet. -/
def notified : State := ((conditionVariable 4).replay start notifiedRun).get notifiedRun_replays

theorem not_stranded_notified :
    1 ∈ notified.memory.contents (threadQueue 4).size ∨
      notified.handles 1 ≠ [] ∧ notified.counts 1 = 1 :=
  not_stranded (System.Reachable.of_replay start_initial notifiedRun_replays)
    (by decide +kernel : notified.queueMutex = none)
    ⟨⟨0, 0, false⟩, by decide +kernel⟩

end Azul.Ipc.Win32
