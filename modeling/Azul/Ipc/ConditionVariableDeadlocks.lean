import Azul.Ipc.ConditionVariableLocks
import Azul.Ipc.DarwinSteps
import Azul.Ipc.Win32Waiters

/-!
# Deadlocks of the condition variables with the callers' mutexes

A woken waiter takes the queue mutex first and its caller's mutex second, so a thread that calls the
condition variable with that mutex held may close a circle, on both systems. Nobody does as long as
no thread calls the condition variable while it holds a mutex with which a wait is in progress. A
history keeps the waits in progress.
-/

namespace Azul.Ipc

open Azul.Foundation

namespace Win32

/-- What a thread is blocked on. -/
def Phase.stage : Phase → Stage
  | lockingWait _ | relocking _ _ | lockingNotify _ => .wantsQueue
  | relockingMutex call _ => .wantsMutex call.mutex
  | outside | gettingOwn _ | pushing _ | unlockingMutex _ | unlocking _ | waiting _ | relocked _ _
  | notifying _ | getting _ _ | releasing _ _ | unwinding _ => .free

/-- The mutexes of a state. -/
def State.locks (state : State) : Locks where
  queueMutex := state.queueMutex
  mutexes := state.mutexes
  stage t := (state.threads t).stage

/-- What a thread does with the condition variable. -/
def Phase.activity : Phase → Activity
  | outside => .outside
  | lockingWait call | gettingOwn call | pushing call | unlockingMutex call | unlocking call
  | waiting call | relocking call _ | relockingMutex call _ | relocked call _ => .waits call.mutex
  | lockingNotify _ | notifying _ | getting _ _ | releasing _ _ | unwinding _ => .calls

/-- The callers of a state. -/
def State.callers (state : State) : Callers :=
  .ofPhases Phase.activity state.mutexes state.threads

/-- The waits in progress after a step. -/
def State.recordWaiting (_ : State) (event : Event) (after : State) (waiting : Waiting) : Waiting :=
  match event with
  | .wait t _ | .notify t _ | .advance t _ _ => waiting.update t (after.threads t).activity
  | .lockMutex _ _ | .unlockMutex _ _ | .closes _ _ => waiting

/-- Nobody calls the condition variable with a mutex held with which a wait is in progress. -/
def Event.Considerate (state : State) (waiting : Waiting) : Event → Prop
  | .wait t _ | .notify t _ => Callers.Considerate state.mutexes waiting t
  | _ => True

instance (state : State) (waiting : Waiting) (event : Event) :
    Decidable (event.Considerate state waiting) := by
  unfold Event.Considerate
  split <;> infer_instance

/-- The condition variable with considerate callers. -/
def considerateCalls (itemSize : Word32) : System (State × Waiting) Event :=
  ((conditionVariable itemSize).recording [] State.recordWaiting).under
    fun pair event => event.Considerate pair.1 pair.2

/-- The thread of an event. -/
def Event.thread : Event → ThreadId
  | .lockMutex t _ | .unlockMutex t _ | .wait t _ | .notify t _ | .advance t _ _ | .closes _ t => t

section Steps

variable {queue : Queue} {state after : State} {event : Event} {waiting : Waiting}

/-- Every step with which nobody is inconsiderate is one of the callers. -/
theorem Moved.callStep (lists : state.callers.Lists waiting)
    (considerate : event.Considerate state waiting) (moved : Moved queue state event after) :
    CallStep state.callers event.thread after.callers := by
  cases moved with
  | lockMutex at_t _ =>
    refine Callers.outside_step (congrArg Phase.activity at_t) fun mutex owner held => ?_
    exact (Callers.takes_some held).imp_right And.left
  | unlockMutex at_t _ =>
    exact Callers.outside_step (congrArg Phase.activity at_t)
      fun mutex owner held => Or.inl (Callers.takes_none held)
  | closes may => exact Callers.same_step state.callers _
  | wait at_t held =>
    refine Callers.call_step lists considerate fun mutex own => ?_
    rw [← Activity.waits.inj own]
    exact held
  | notify at_t => exact Callers.call_step lists considerate nofun
  | lockedWait at_t _ | pushed at_t _ | unlocked at_t | signalled at_t _ | timedOut at_t _
  | failed at_t | relocked at_t _ =>
    exact Callers.inside_step at_t nofun (fun _ => id) fun _ _ => Or.inl
  | noneOwn at_t _ | full at_t | ended at_t _ | threw at_t _ | removed at_t _ | lockedNotify at_t _
  | popped at_t _ | notified at_t | noneGot at_t _ | unwound at_t =>
    exact Callers.inside_step at_t nofun nofun fun _ _ => Or.inl
  | gotOwn at_t gets =>
    cases gets <;> exact Callers.inside_step at_t nofun (fun _ => id) fun _ _ => Or.inl
  | got at_t gets =>
    cases gets <;> exact Callers.inside_step at_t nofun nofun fun _ _ => Or.inl
  | released at_t =>
    refine Callers.inside_step at_t nofun ?_ fun _ _ => Or.inl
    split_ifs <;> nofun
  | unlockedMutex at_t =>
    exact Callers.inside_step at_t nofun (fun _ => id)
      fun mutex owner held => Or.inl (Callers.takes_none held)
  | relockedMutex at_t _ =>
    refine Callers.inside_step at_t nofun (fun _ => id) fun mutex owner held => ?_
    exact (Callers.takes_some held).imp_right fun ⟨own, same⟩ => ⟨own, by rw [same]; rfl⟩

/-- The history has the waits in progress after every step. -/
theorem Moved.lists (lists : state.callers.Lists waiting)
    (step : CallStep state.callers event.thread after.callers)
    (moved : Moved queue state event after) :
    after.callers.Lists (state.recordWaiting event after waiting) := by
  cases event with
  | wait t call | notify t call | advance t creates ends => exact lists.update step.others
  | lockMutex t mutex | unlockMutex t mutex | closes object id =>
    cases moved
    exact lists

end Steps

/-- Considerate callers of the condition variable are safe. -/
theorem reachable_safe {itemSize : Word32} {pair : State × Waiting}
    (reached : (considerateCalls itemSize).Reachable pair) : pair.1.callers.Safe := by
  refine Callers.reachable_safe ?_ ?_ reached
  · intro state starts t
    exact congrArg Phase.activity (starts.2.2.2.2 t)
  · intro state event after waiting lists considerate stepped
    have moved := step_moved stepped
    have step := moved.callStep lists considerate
    exact ⟨⟨_, step⟩, moved.lists lists step⟩

end Win32

namespace Darwin

/-- What a thread is blocked on. -/
def Phase.stage : Phase → Stage
  | lockingWait _ | relocking _ _ _ | lockingNotify _ => .wantsQueue
  | relockingMutex call _ _ => .wantsMutex call.mutex
  | outside | creating _ | pushing _ | unlockingMutex _ _ | unlocking _ _ | reading _ _
  | relocked _ _ _ | removing _ | abandoning _ | notifying _ | opening _ _ | writing _ _
  | unwinding _ => .free

/-- The mutexes of a state. -/
def State.locks (state : State) : Locks where
  queueMutex := state.queueMutex
  mutexes := state.mutexes
  stage t := (state.threads t).stage

/-- What a thread does with the condition variable. -/
def Phase.activity : Phase → Activity
  | outside => .outside
  | lockingWait call | creating call | pushing call | unlockingMutex call _ | unlocking call _
  | reading call _ | relocking call _ _ | relockingMutex call _ _ | relocked call _ _ =>
    .waits call.mutex
  | removing _ | abandoning _ | lockingNotify _ | notifying _ | opening _ _ | writing _ _
  | unwinding _ => .calls

/-- The callers of a state. -/
def State.callers (state : State) : Callers :=
  .ofPhases Phase.activity state.mutexes state.threads

/-- The waits in progress after a step. -/
def State.recordWaiting (_ : State) (event : Event) (after : State) (waiting : Waiting) : Waiting :=
  match event with
  | .wait t _ | .notify t _ | .advance t _ => waiting.update t (after.threads t).activity
  | .lockMutex _ _ | .unlockMutex _ _ => waiting

/-- Nobody calls the condition variable with a mutex held with which a wait is in progress. -/
def Event.Considerate (state : State) (waiting : Waiting) : Event → Prop
  | .wait t _ | .notify t _ => Callers.Considerate state.mutexes waiting t
  | _ => True

instance (state : State) (waiting : Waiting) (event : Event) :
    Decidable (event.Considerate state waiting) := by
  unfold Event.Considerate
  split <;> infer_instance

/-- The condition variable with considerate callers. -/
def considerateCalls (itemSize : Word32) : System (State × Waiting) Event :=
  ((conditionVariable itemSize).recording [] State.recordWaiting).under
    fun pair event => event.Considerate pair.1 pair.2

/-- The thread of an event. -/
def Event.thread : Event → ThreadId
  | .lockMutex t _ | .unlockMutex t _ | .wait t _ | .notify t _ | .advance t _ => t

section Steps

variable {queue : Queue} {state after : State} {event : Event} {waiting : Waiting}

/-- Every step with which nobody is inconsiderate is one of the callers. -/
theorem Moved.callStep (lists : state.callers.Lists waiting)
    (considerate : event.Considerate state waiting) (moved : Moved queue state event after) :
    CallStep state.callers event.thread after.callers := by
  cases moved with
  | lockMutex at_t _ _ =>
    refine Callers.outside_step (congrArg Phase.activity at_t) fun mutex owner held => ?_
    exact (Callers.takes_some held).imp_right And.left
  | unlockMutex at_t _ =>
    exact Callers.outside_step (congrArg Phase.activity at_t)
      fun mutex owner held => Or.inl (Callers.takes_none held)
  | wait at_t held =>
    refine Callers.call_step lists considerate fun mutex own => ?_
    rw [← Activity.waits.inj own]
    exact held
  | notify at_t => exact Callers.call_step lists considerate nofun
  | lockedWait at_t _ _ | created at_t _ | pushed at_t _ | unlocked at_t _ | timedOut at_t _ _
  | relocked at_t _ _ _ | again at_t _ =>
    exact Callers.inside_step at_t nofun (fun _ => id) fun _ _ => Or.inl
  | notCreated at_t | leftBehind at_t _ | full at_t | notUnlockedMutex at_t _ | notUnlocked at_t _
  | threw at_t _ | ended at_t | removed at_t | abandoned at_t | lockedNotify at_t _ _
  | popped at_t _ | notPopped at_t _ _ | drained at_t _ | opened at_t _ | notOpened at_t _
  | unwound at_t =>
    exact Callers.inside_step at_t nofun nofun fun _ _ => Or.inl
  | notLockedWait at_t throws | notLockedNotify at_t throws | notRelocked at_t throws
  | notRelockedMutex at_t throws =>
    obtain ⟨left, same⟩ := throws.same
    rw [same]
    exact Callers.inside_step at_t nofun nofun fun _ _ => Or.inl
  | read at_t _ _ _ reads =>
    refine Callers.inside_step at_t nofun ?_ fun _ _ => Or.inl
    rcases reads with same | ⟨_, same⟩ | ⟨_, same⟩ <;> rw [same] <;> exact fun _ => id
  | written at_t _ | notWritten at_t _ =>
    refine Callers.inside_step at_t nofun ?_ fun _ _ => Or.inl
    split_ifs <;> nofun
  | unlockedMutex at_t =>
    exact Callers.inside_step at_t nofun (fun _ => id)
      fun mutex owner held => Or.inl (Callers.takes_none held)
  | relockedMutex at_t _ _ _ =>
    refine Callers.inside_step at_t nofun (fun _ => id) fun mutex owner held => ?_
    exact (Callers.takes_some held).imp_right fun ⟨own, same⟩ => ⟨own, by rw [same]; rfl⟩

/-- The history has the waits in progress after every step. -/
theorem Moved.lists (lists : state.callers.Lists waiting)
    (step : CallStep state.callers event.thread after.callers)
    (moved : Moved queue state event after) :
    after.callers.Lists (state.recordWaiting event after waiting) := by
  cases event with
  | wait t call | notify t call | advance t environment => exact lists.update step.others
  | lockMutex t mutex | unlockMutex t mutex =>
    cases moved
    exact lists

end Steps

/-- Considerate callers of the condition variable are safe. -/
theorem reachable_safe {itemSize : Word32} {pair : State × Waiting}
    (reached : (considerateCalls itemSize).Reachable pair) : pair.1.callers.Safe := by
  refine Callers.reachable_safe ?_ ?_ reached
  · intro state starts t
    exact congrArg Phase.activity (starts.2.2.2.2 t)
  · intro state event after waiting lists considerate stepped
    have moved := step_moved stepped
    have step := moved.callStep lists considerate
    exact ⟨⟨_, step⟩, moved.lists lists step⟩

end Darwin

/-! ## Runs -/

/-- If nobody calls the condition variable while it holds a mutex with which a wait is in progress,
no run reaches a deadlock. -/
theorem considerate_safe {itemSize itemSize' : Word32} {win32 : Win32.State × Waiting}
    {darwin : Darwin.State × Waiting}
    (reached : (Win32.considerateCalls itemSize).Reachable win32)
    (reached' : (Darwin.considerateCalls itemSize').Reachable darwin) :
    ¬ win32.1.locks.Deadlocked ∧ ¬ darwin.1.locks.Deadlocked := by
  constructor
  · refine (Win32.reachable_safe reached).not_deadlocked rfl ?_ ?_
    · intro t mutex wants
      change (win32.1.threads t).stage = _ at wants
      show (win32.1.threads t).activity = _
      generalize win32.1.threads t = phase at wants
      cases phase <;> cases wants
      rfl
    · intro t wants
      change (win32.1.threads t).stage = _ at wants
      show (win32.1.threads t).activity ≠ _
      generalize win32.1.threads t = phase at wants
      cases phase <;> cases wants <;> nofun
  · refine (Darwin.reachable_safe reached').not_deadlocked rfl ?_ ?_
    · intro t mutex wants
      change (darwin.1.threads t).stage = _ at wants
      show (darwin.1.threads t).activity = _
      generalize darwin.1.threads t = phase at wants
      cases phase <;> cases wants
      rfl
    · intro t wants
      change (darwin.1.threads t).stage = _ at wants
      show (darwin.1.threads t).activity ≠ _
      generalize darwin.1.threads t = phase at wants
      cases phase <;> cases wants <;> nofun

/-- Thread 1 waits, and thread 2 notifies it without a mutex; the waiter has taken the queue mutex
again while thread 2 holds the other mutex. -/
def Win32.considerateRun : List Win32.Event :=
  [Win32.Event.lockMutex 1 0, Win32.Event.wait 1 ⟨0, 0, false⟩] ++ turns 1 5 ++
    [Win32.Event.notify 2 ⟨1, false⟩] ++ turns 2 5 ++ [Win32.Event.lockMutex 2 0] ++ turns 1 2

theorem Win32.considerateRun_replays :
    ((considerateCalls 4).replay (start, []) considerateRun).isSome = true := by
  decide +kernel

def Win32.considerate : Win32.State × Waiting :=
  ((considerateCalls 4).replay (start, []) considerateRun).get considerateRun_replays

/-- The same on the other system. -/
def Darwin.considerateRun : List Darwin.Event :=
  [Darwin.Event.lockMutex 1 0, Darwin.Event.wait 1 ⟨0, false⟩] ++ turns 1 5 ++
    [Darwin.Event.notify 2 false] ++ turns 2 5 ++ [Darwin.Event.lockMutex 2 0] ++ turns 1 2

theorem Darwin.considerateRun_replays :
    ((considerateCalls 4).replay (start, []) considerateRun).isSome = true := by
  decide +kernel

def Darwin.considerate : Darwin.State × Waiting :=
  ((considerateCalls 4).replay (start, []) considerateRun).get considerateRun_replays

theorem considerate_safe_notified :
    (Win32.considerate.1.locks.stage 1 = .wantsMutex 0 ∧ ¬ Win32.considerate.1.locks.Deadlocked) ∧
    (Darwin.considerate.1.locks.stage 1 = .wantsMutex 0 ∧
      ¬ Darwin.considerate.1.locks.Deadlocked) := by
  have starts : (Win32.considerateCalls 4).initial (Win32.start, []) :=
    ⟨Win32.start_initial, rfl⟩
  have starts' : (Darwin.considerateCalls 4).initial (Darwin.start, []) :=
    ⟨Darwin.start_initial, rfl⟩
  have safe := considerate_safe (System.Reachable.of_replay starts Win32.considerateRun_replays)
    (System.Reachable.of_replay starts' Darwin.considerateRun_replays)
  exact ⟨⟨by decide +kernel, safe.1⟩, ⟨by decide +kernel, safe.2⟩⟩

/-- Thread 2 notifies a second time, when the waiter has the queue mutex and waits for the mutex of
thread 2. -/
def Win32.circleRun : List Win32.Event :=
  [Win32.Event.lockMutex 1 0, Win32.Event.wait 1 ⟨0, 0, false⟩] ++ turns 1 5 ++
    [Win32.Event.lockMutex 2 0, Win32.Event.notify 2 ⟨1, false⟩] ++ turns 2 5 ++ turns 1 2 ++
    [Win32.Event.notify 2 ⟨1, false⟩]

theorem Win32.circleRun_replays :
    ((conditionVariable 4).replay start circleRun).isSome = true := by
  decide +kernel

def Win32.circle : Win32.State :=
  ((conditionVariable 4).replay start circleRun).get circleRun_replays

def Darwin.circleRun : List Darwin.Event :=
  [Darwin.Event.lockMutex 1 0, Darwin.Event.wait 1 ⟨0, false⟩] ++ turns 1 5 ++
    [Darwin.Event.lockMutex 2 0, Darwin.Event.notify 2 false] ++ turns 2 5 ++ turns 1 2 ++
    [Darwin.Event.notify 2 false]

theorem Darwin.circleRun_replays :
    ((conditionVariable 4).replay start circleRun).isSome = true := by
  decide +kernel

def Darwin.circle : Darwin.State :=
  ((conditionVariable 4).replay start circleRun).get circleRun_replays

/-- A mutex that is held while the condition variable is called closes the circle. -/
theorem circle_deadlocked :
    ((Win32.conditionVariable 4).Reachable Win32.circle ∧ Win32.circle.locks.Deadlocked) ∧
    ((Darwin.conditionVariable 4).Reachable Darwin.circle ∧ Darwin.circle.locks.Deadlocked) :=
  ⟨⟨System.Reachable.of_replay Win32.start_initial Win32.circleRun_replays,
      ⟨1, 0, 2, by decide +kernel⟩⟩,
    ⟨System.Reachable.of_replay Darwin.start_initial Darwin.circleRun_replays,
      ⟨1, 0, 2, by decide +kernel⟩⟩⟩

end Azul.Ipc
