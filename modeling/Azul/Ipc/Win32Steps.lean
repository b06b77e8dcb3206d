import Azul.Ipc.Win32ConditionVariable

/-!
# Steps of the `win32` condition variable

Everything a step can do, guards included, in one inductive predicate, so that an invariant is a
case analysis of it and never unfolds the step function. The operations on the shared queue are
used through what they do to its contents.
-/

namespace Azul.Ipc.Win32

open Azul.Foundation Operation

/-! ## Operations on the queue -/

section Queue

variable {queue : Queue} {memory : Memory ThreadId} {run : Run ThreadId} {id : ThreadId}
  (room : 3 * queue.size.toNat ≤ 2 ^ 32) (valid : memory.Valid queue.size)

include room valid

/-- `PushBack` appends the id. -/
theorem pushed_contents
    (pushed : (queue.pushBack id).perform (Run.new memory) = (.ok (), run)) :
    run.memory.Valid queue.size ∧
      run.memory.contents queue.size = memory.contents queue.size ++ [id] := by
  have refined := @Call.refines _ queue (Run.new memory) _ room valid (.pushBack id)
  rw [Call.operation, perform_bind pushed, perform_pure] at refined
  refine ⟨refined.valid, ?_⟩
  have meets := refined.meets
  rw [Call.Meets] at meets
  split_ifs at meets
  · cases meets.1
  · exact meets.2

/-- `Front` and `Pop` take the first id. -/
theorem popped_contents
    (popped : (do
        let id ← Queue.front
        queue.pop
        return id : Operation ThreadId ThreadId).perform (Run.new memory) = (.ok id, run)) :
    run.memory.Valid queue.size ∧
      memory.contents queue.size = id :: run.memory.contents queue.size := by
  by_cases available : 0 < memory.count
  · have at_front : 0 < (Run.new memory).memory.count := available
    have at_pop : 0 < ((Run.new memory).loaded
      [(Run.new memory).memory.readPosition.toNat]).memory.count := available
    rw [perform_bind (Queue.front_perform at_front)] at popped
    change (queue.pop >>= _).perform _ = _ at popped
    rw [perform_bind (Queue.pop_perform at_pop), perform_pure] at popped
    obtain ⟨first, rest⟩ := Prod.mk.inj popped
    rw [← Except.ok.inj first, ← rest]
    exact valid.popped room available
  · rw [perform_bind_throw (Queue.front_throws available)] at popped
    cases popped

/-- `Remove` takes one occurrence of the id, if there is one. -/
theorem removed_contents {removed : Bool}
    (removes : (queue.remove id).perform (Run.new memory) = (.ok removed, run)) :
    run.memory.Valid queue.size ∧
      (run.memory.contents queue.size).Perm ((memory.contents queue.size).erase id) := by
  have refined := @Call.refines _ queue (Run.new memory) _ room valid (.remove id)
  rw [Call.operation, perform_bind removes, perform_pure] at refined
  refine ⟨refined.valid, ?_⟩
  have meets := refined.meets
  rw [Call.Meets] at meets
  split_ifs at meets with listed
  · exact meets.2
  · have same : (memory.contents queue.size).erase id = memory.contents queue.size :=
      List.erase_of_not_mem listed
    rw [same]
    exact List.Perm.of_eq meets.2

/-- `Remove` does not throw. -/
theorem removes_returns (message : String) (after : Run ThreadId) :
    (queue.remove id).perform (Run.new memory) ≠ (.error message, after) := by
  intro throws
  have refined := @Call.refines _ queue (Run.new memory) _ room valid (.remove id)
  rw [Call.operation, perform_bind_throw throws] at refined
  have meets := refined.meets
  rw [Call.Meets] at meets
  split_ifs at meets
  · cases meets.1
  · cases meets.1

end Queue

/-! ## Steps -/

/-- What `GetSemaphore` does when it succeeds. -/
inductive Got (state : State) (object : ObjectId) (id : ThreadId) : State → Prop
  | reset (known : object ∈ state.handles id) : Got state object id
      { state with counts := Function.update state.counts id (state.counts id - 1) }
  | opened (others : state.handles id ≠ []) : Got state object id
      { state with handles := Function.update state.handles id (object :: state.handles id) }
  | created (none : state.handles id = []) : Got state object id { state with
      counts := Function.update state.counts id 0
      handles := Function.update state.handles id [object] }

/-- What a call of `GetSemaphore` that returns leaves: a handle, and everything but the count of its
semaphore. -/
structure Gets (state : State) (object : ObjectId) (id : ThreadId) (next : State) : Prop where
  memory : next.memory = state.memory
  queueMutex : next.queueMutex = state.queueMutex
  threads : next.threads = state.threads
  known : object ∈ next.handles id
  handles : ∀ u other, other ∈ state.handles u → other ∈ next.handles u
  counts : ∀ u, u ≠ id → next.counts u = state.counts u

theorem Got.gets {state next : State} {object : ObjectId} {id : ThreadId}
    (got : Got state object id next) : Gets state object id next := by
  cases got with
  | reset known =>
    exact {
      memory := rfl, queueMutex := rfl, threads := rfl, known := known
      handles := fun u other member => member
      counts := fun u other => Function.update_of_ne other _ _ }
  | opened others =>
    have known : object ∈ Function.update state.handles id (object :: state.handles id) id := by
      rw [Function.update_self]
      exact List.mem_cons_self
    refine {
      memory := rfl, queueMutex := rfl, threads := rfl, known := known
      handles := fun u other member => ?_
      counts := fun u other => rfl }
    show other ∈ Function.update state.handles id (object :: state.handles id) u
    by_cases same : u = id
    · rw [same] at member ⊢
      rw [Function.update_self]
      exact List.mem_cons_of_mem object member
    · rw [Function.update_of_ne same]
      exact member
  | created none =>
    have known : object ∈ Function.update state.handles id [object] id := by
      rw [Function.update_self]
      exact List.mem_cons_self
    refine {
      memory := rfl, queueMutex := rfl, threads := rfl, known := known
      handles := fun u other member => ?_
      counts := fun u other => Function.update_of_ne other _ _ }
    show other ∈ Function.update state.handles id [object] u
    by_cases same : u = id
    · rw [same, none] at member
      exact absurd member List.not_mem_nil
    · rw [Function.update_of_ne same]
      exact member

/-- A call of `GetSemaphore` that returns. -/
theorem got {state next : State} {object : ObjectId} {id : ThreadId} {creates : Bool}
    (gets : state.getSemaphore object id creates = .ok next) : Got state object id next := by
  unfold State.getSemaphore at gets
  split_ifs at gets with known others
  · rw [← Except.ok.inj gets]
    exact Got.reset known
  · rw [← Except.ok.inj gets]
    exact Got.opened others
  · rw [← Except.ok.inj gets]
    exact Got.created (not_not.mp others)

/-- A call of `GetSemaphore` throws only if the semaphore does not exist. -/
theorem got_none {state : State} {object : ObjectId} {id : ThreadId} {creates : Bool}
    {message : String} (gets : state.getSemaphore object id creates = .error message) :
    state.handles id = [] := by
  unfold State.getSemaphore at gets
  split_ifs at gets with known others
  exact not_not.mp others

/-- What a step does. -/
inductive Moved (queue : Queue) (state : State) : Event → State → Prop
  | lockMutex {t mutex} (at_t : state.threads t = .outside)
      (free : state.mutexes mutex = none) :
      Moved queue state (.lockMutex t mutex)
        { state with mutexes := Function.update state.mutexes mutex (some t) }
  | unlockMutex {t mutex} (at_t : state.threads t = .outside)
      (held : state.mutexes mutex = some t) :
      Moved queue state (.unlockMutex t mutex)
        { state with mutexes := Function.update state.mutexes mutex none }
  | wait {t call} (at_t : state.threads t = .outside) (held : state.mutexes call.mutex = some t) :
      Moved queue state (.wait t call) (state.goes t (.lockingWait call))
  | notify {t call} (at_t : state.threads t = .outside) :
      Moved queue state (.notify t call) (state.goes t (.lockingNotify call))
  | closes {object id} (may : state.MayClose object id) :
      Moved queue state (.closes object id) { state with
        handles := Function.update state.handles id ((state.handles id).erase object) }
  | lockedWait {t call creates ends} (at_t : state.threads t = .lockingWait call)
      (free : state.queueMutex = none) :
      Moved queue state (.advance t creates ends)
        ({ state with queueMutex := some t }.goes t (.gettingOwn call))
  | gotOwn {t call next creates ends} (at_t : state.threads t = .gettingOwn call)
      (gets : Got state call.object t next) :
      Moved queue state (.advance t creates ends) (next.goes t (.pushing call))
  | noneOwn {t call outcome creates ends} (at_t : state.threads t = .gettingOwn call)
      (none : state.handles t = []) :
      Moved queue state (.advance t creates ends) (state.goes t (.unwinding outcome))
  | pushed {t call run creates ends} (at_t : state.threads t = .pushing call)
      (pushes : (queue.pushBack t).perform (Run.new state.memory) = (.ok (), run)) :
      Moved queue state (.advance t creates ends)
        ({ state with memory := run.memory }.goes t (.unlockingMutex call))
  | full {t call outcome creates ends} (at_t : state.threads t = .pushing call) :
      Moved queue state (.advance t creates ends) (state.goes t (.unwinding outcome))
  | unlockedMutex {t call creates ends} (at_t : state.threads t = .unlockingMutex call) :
      Moved queue state (.advance t creates ends) ({ state with
        mutexes := Function.update state.mutexes call.mutex none }.goes t (.unlocking call))
  | unlocked {t call creates ends} (at_t : state.threads t = .unlocking call) :
      Moved queue state (.advance t creates ends)
        ({ state with queueMutex := none }.goes t (.waiting call))
  | signalled {t call creates} (at_t : state.threads t = .waiting call)
      (some_count : 0 < state.counts t) :
      Moved queue state (.advance t creates .object0) ({ state with
        counts := Function.update state.counts t (state.counts t - 1) }.goes t
          (.relocking call .object0))
  | timedOut {t call creates} (at_t : state.threads t = .waiting call) (timed : call.timed = true)
      (empty : state.counts t = 0) :
      Moved queue state (.advance t creates .timeout) (state.goes t (.relocking call .timeout))
  | failed {t call creates} (at_t : state.threads t = .waiting call) :
      Moved queue state (.advance t creates .failed) (state.goes t (.relocking call .failed))
  | relocked {t call result creates ends} (at_t : state.threads t = .relocking call result)
      (free : state.queueMutex = none) :
      Moved queue state (.advance t creates ends)
        ({ state with queueMutex := some t }.goes t (.relockingMutex call result))
  | relockedMutex {t call result creates ends}
      (at_t : state.threads t = .relockingMutex call result)
      (free : state.mutexes call.mutex = none) :
      Moved queue state (.advance t creates ends) ({ state with
        mutexes := Function.update state.mutexes call.mutex (some t) }.goes t
          (.relocked call result))
  | ended {t call result outcome creates ends} (at_t : state.threads t = .relocked call result)
      (regular : result ≠ .failed) :
      Moved queue state (.advance t creates ends) (state.goes t (.unwinding outcome))
  | threw {t call run message creates ends} (at_t : state.threads t = .relocked call .failed)
      (throws : (queue.remove t).perform (Run.new state.memory) = (.error message, run)) :
      Moved queue state (.advance t creates ends)
        (state.goes t (.unwinding (.thrown message)))
  | removed {t call run taken outcome creates ends}
      (at_t : state.threads t = .relocked call .failed)
      (removes : (queue.remove t).perform (Run.new state.memory) = (.ok taken, run)) :
      Moved queue state (.advance t creates ends)
        ({ state with memory := run.memory }.goes t (.unwinding outcome))
  | lockedNotify {t call creates ends} (at_t : state.threads t = .lockingNotify call)
      (free : state.queueMutex = none) :
      Moved queue state (.advance t creates ends)
        ({ state with queueMutex := some t }.goes t (.notifying call))
  | popped {t call id run creates ends} (at_t : state.threads t = .notifying call)
      (pops : (do
          let id ← Queue.front
          queue.pop
          return id : Operation ThreadId ThreadId).perform (Run.new state.memory) = (.ok id, run)) :
      Moved queue state (.advance t creates ends)
        ({ state with memory := run.memory }.goes t (.getting call id))
  | notified {t call outcome creates ends} (at_t : state.threads t = .notifying call) :
      Moved queue state (.advance t creates ends) (state.goes t (.unwinding outcome))
  | got {t call id next creates ends} (at_t : state.threads t = .getting call id)
      (gets : Got state call.object id next) :
      Moved queue state (.advance t creates ends) (next.goes t (.releasing call id))
  | noneGot {t call id outcome creates ends} (at_t : state.threads t = .getting call id)
      (none : state.handles id = []) :
      Moved queue state (.advance t creates ends) (state.goes t (.unwinding outcome))
  | released {t call id creates ends} (at_t : state.threads t = .releasing call id) :
      Moved queue state (.advance t creates ends) ((state.releaseSemaphore id).goes t
        (if call.all then .notifying call else .unwinding .returned))
  | unwound {t outcome creates ends} (at_t : state.threads t = .unwinding outcome) :
      Moved queue state (.advance t creates ends)
        ({ state with queueMutex := none }.goes t .outside)

variable {queue : Queue} {state after : State}

/-- The next step of a thread. -/
theorem advance_moved {t : ThreadId} {creates : Bool} {ends : WaitResult}
    (advanced : state.advance queue t creates ends = some after) :
    Moved queue state (.advance t creates ends) after := by
  unfold State.advance at advanced
  generalize at_t : state.threads t = phase at advanced
  cases phase with
  | outside => cases advanced
  | lockingWait call =>
    obtain ⟨free, same⟩ := Option.ite_none_right_eq_some.mp advanced
    rw [← Option.some.inj same]
    exact Moved.lockedWait at_t free
  | gettingOwn call =>
    dsimp only at advanced
    split at advanced
    · rename_i next gets
      rw [← Option.some.inj advanced]
      exact Moved.gotOwn at_t (Win32.got gets)
    · rename_i message gets
      rw [← Option.some.inj advanced]
      exact Moved.noneOwn at_t (got_none gets)
  | pushing call =>
    dsimp only at advanced
    split at advanced
    · rename_i run pushes
      rw [← Option.some.inj advanced]
      exact Moved.pushed at_t pushes
    · rw [← Option.some.inj advanced]
      exact Moved.full at_t
  | unlockingMutex call =>
    rw [← Option.some.inj advanced]
    exact Moved.unlockedMutex at_t
  | unlocking call =>
    rw [← Option.some.inj advanced]
    exact Moved.unlocked at_t
  | waiting call =>
    cases ends with
    | object0 =>
      obtain ⟨some_count, same⟩ := Option.ite_none_right_eq_some.mp advanced
      rw [← Option.some.inj same]
      exact Moved.signalled at_t some_count
    | timeout =>
      obtain ⟨timed, same⟩ := Option.ite_none_right_eq_some.mp advanced
      rw [← Option.some.inj same]
      exact Moved.timedOut at_t timed.1 timed.2
    | failed =>
      rw [← Option.some.inj advanced]
      exact Moved.failed at_t
  | relocking call result =>
    obtain ⟨free, same⟩ := Option.ite_none_right_eq_some.mp advanced
    rw [← Option.some.inj same]
    exact Moved.relocked at_t free
  | relockingMutex call result =>
    obtain ⟨free, same⟩ := Option.ite_none_right_eq_some.mp advanced
    rw [← Option.some.inj same]
    exact Moved.relockedMutex at_t free
  | relocked call result =>
    cases result with
    | object0 =>
      rw [← Option.some.inj advanced]
      exact Moved.ended at_t (by decide)
    | timeout =>
      rw [← Option.some.inj advanced]
      exact Moved.ended at_t (by decide)
    | failed =>
      dsimp only at advanced
      split at advanced
      · rename_i taken run removes
        rw [← Option.some.inj advanced]
        exact Moved.removed at_t removes
      · rename_i message run throws
        rw [← Option.some.inj advanced]
        exact Moved.threw at_t throws
  | lockingNotify call =>
    obtain ⟨free, same⟩ := Option.ite_none_right_eq_some.mp advanced
    rw [← Option.some.inj same]
    exact Moved.lockedNotify at_t free
  | notifying call =>
    dsimp only at advanced
    split_ifs at advanced
    · split at advanced
      · rename_i id run pops
        rw [← Option.some.inj advanced]
        exact Moved.popped at_t pops
      · rw [← Option.some.inj advanced]
        exact Moved.notified at_t
    · rw [← Option.some.inj advanced]
      exact Moved.notified at_t
  | getting call id =>
    dsimp only at advanced
    split at advanced
    · rename_i next gets
      rw [← Option.some.inj advanced]
      exact Moved.got at_t (Win32.got gets)
    · rename_i message gets
      rw [← Option.some.inj advanced]
      exact Moved.noneGot at_t (got_none gets)
  | releasing call id =>
    rw [← Option.some.inj advanced]
    exact Moved.released at_t
  | unwinding outcome =>
    rw [← Option.some.inj advanced]
    exact Moved.unwound at_t

/-- Every step is one of the listed ones. -/
theorem step_moved {event : Event} (stepped : state.step queue event = some after) :
    Moved queue state event after := by
  cases event with
  | lockMutex thread mutex =>
    obtain ⟨⟨at_t, free⟩, same⟩ := Option.ite_none_right_eq_some.mp stepped
    rw [← Option.some.inj same]
    exact Moved.lockMutex at_t free
  | unlockMutex thread mutex =>
    obtain ⟨⟨at_t, held⟩, same⟩ := Option.ite_none_right_eq_some.mp stepped
    rw [← Option.some.inj same]
    exact Moved.unlockMutex at_t held
  | wait thread call =>
    obtain ⟨⟨at_t, held⟩, same⟩ := Option.ite_none_right_eq_some.mp stepped
    rw [← Option.some.inj same]
    exact Moved.wait at_t held
  | notify thread call =>
    obtain ⟨at_t, same⟩ := Option.ite_none_right_eq_some.mp stepped
    rw [← Option.some.inj same]
    exact Moved.notify at_t
  | advance thread creates ends => exact advance_moved stepped
  | closes object id =>
    obtain ⟨may, same⟩ := Option.ite_none_right_eq_some.mp stepped
    rw [← Option.some.inj same]
    exact Moved.closes may

end Azul.Ipc.Win32
