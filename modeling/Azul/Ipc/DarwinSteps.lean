import Azul.Ipc.DarwinConditionVariable
import Azul.Ipc.Win32Steps

/-!
# Steps of the `darwin` condition variable

Everything a step can do, guards included, in one inductive predicate, so that an invariant is a
case analysis of it and never unfolds the step function.
-/

namespace Azul.Ipc.Darwin

open Azul.Foundation Operation

/-- The front id of the queue, which is popped. -/
abbrev takeFront (queue : Queue) : Operation ThreadId ThreadId := do
  let id ← Queue.front
  queue.pop
  return id

namespace Phase

/-- The thread holds `_threadQueueMutex`. -/
def holds : Phase → Bool
  | outside | lockingWait _ | reading _ _ | relocking _ _ _ | abandoning _ | lockingNotify _ =>
    false
  | creating _ | pushing _ | unlockingMutex _ _ | unlocking _ _ | relockingMutex _ _ _
  | relocked _ _ _ | removing _ | notifying _ | opening _ _ | writing _ _ | unwinding _ => true

/-- The thread locks a mutex. -/
def locking : Phase → Bool
  | lockingWait _ | relocking _ _ _ | relockingMutex _ _ _ | lockingNotify _ => true
  | outside | creating _ | pushing _ | unlockingMutex _ _ | unlocking _ _ | reading _ _
  | relocked _ _ _ | removing _ | abandoning _ | notifying _ | opening _ _ | writing _ _
  | unwinding _ => false

end Phase

/-- How a lock throws: the thread has locked the mutex of its process already, or `flock` fails. -/
inductive LockThrows (state : State) (t : ThreadId) (mutex : LockId) (environment : Environment) :
    State → Prop
  | deadlocks (own : state.localOwner mutex (state.process t) = some t) :
    LockThrows state t mutex environment state
  | flockFails (free : state.localOwner mutex (state.process t) = none)
      (fails : environment.flocks = false) :
    LockThrows state t mutex environment (state.leaves t mutex)

/-- What a step does. -/
inductive Moved (queue : Queue) (state : State) : Event → State → Prop
  | lockMutex {t mutex} (at_t : state.threads t = .outside)
      (free : state.mutexes mutex = none)
      (unleft : state.left (some mutex, state.process t) = none) :
      Moved queue state (.lockMutex t mutex)
        { state with mutexes := Function.update state.mutexes mutex (some t) }
  | unlockMutex {t mutex} (at_t : state.threads t = .outside)
      (held : state.mutexes mutex = some t) :
      Moved queue state (.unlockMutex t mutex)
        { state with mutexes := Function.update state.mutexes mutex none }
  | wait {t call} (at_t : state.threads t = .outside) (held : state.mutexes call.mutex = some t) :
      Moved queue state (.wait t call) (state.goes t (.lockingWait call))
  | notify {t all} (at_t : state.threads t = .outside) :
      Moved queue state (.notify t all) (state.goes t (.lockingNotify all))
  | lockedWait {t call environment} (at_t : state.threads t = .lockingWait call)
      (free : state.queueMutex = none) (unleft : state.left (none, state.process t) = none) :
      Moved queue state (.advance t environment)
        ({ state with queueMutex := some t }.goes t (.creating call))
  | notLockedWait {t call next environment} (at_t : state.threads t = .lockingWait call)
      (throws : LockThrows state t none environment next) :
      Moved queue state (.advance t environment) (next.goes t .outside)
  | created {t call environment} (at_t : state.threads t = .creating call)
      (fresh : state.fifos t = none) :
      Moved queue state (.advance t environment) ((state.setFifo t (some 0)).goes t (.pushing call))
  | notCreated {t call message environment} (at_t : state.threads t = .creating call) :
      Moved queue state (.advance t environment) (state.goes t (.unwinding (.thrown message)))
  | leftBehind {t call message environment} (at_t : state.threads t = .creating call)
      (fresh : state.fifos t = none) :
      Moved queue state (.advance t environment)
        ((state.setFifo t (some 0)).goes t (.unwinding (.thrown message)))
  | pushed {t call run environment} (at_t : state.threads t = .pushing call)
      (pushes : (queue.pushBack t).perform (Run.new state.memory) = (.ok (), run)) :
      Moved queue state (.advance t environment)
        ({ state with memory := run.memory }.goes t (.unlockingMutex call messageSize))
  | full {t call message environment} (at_t : state.threads t = .pushing call) :
      Moved queue state (.advance t environment) (state.goes t (.removing (.thrown message)))
  | unlockedMutex {t call toRead environment}
      (at_t : state.threads t = .unlockingMutex call toRead) :
      Moved queue state (.advance t environment) ({ state with
        mutexes := Function.update state.mutexes call.mutex none }.goes t (.unlocking call toRead))
  | notUnlockedMutex {t call toRead message environment}
      (at_t : state.threads t = .unlockingMutex call toRead) (fails : environment.flocks = false) :
      Moved queue state (.advance t environment) (state.goes t (.removing (.thrown message)))
  | unlocked {t call toRead environment} (at_t : state.threads t = .unlocking call toRead)
      (flocks : environment.flocks = true) :
      Moved queue state (.advance t environment)
        ({ state with queueMutex := none }.goes t (.reading call toRead))
  | notUnlocked {t call toRead message environment}
      (at_t : state.threads t = .unlocking call toRead) (fails : environment.flocks = false) :
      Moved queue state (.advance t environment) (state.goes t (.removing (.thrown message)))
  | read {t call toRead count phase environment} (at_t : state.threads t = .reading call toRead)
      (bytes : environment.read = .bytes count) (some_count : 0 < count)
      (enough : count ≤ min ((state.fifos t).getD 0) toRead)
      (reads : phase = .relocking call toRead (some count) ∨
        (0 < toRead - count ∧ phase = .reading call (toRead - count)) ∨
        (toRead - count = 0 ∧ phase = .relocking call 0 (some 0))) :
      Moved queue state (.advance t environment)
        ((state.setFifo t ((state.fifos t).map (· - count))).goes t phase)
  | timedOut {t call toRead environment} (at_t : state.threads t = .reading call toRead)
      (timeout : environment.read = .timeout) (empty : (state.fifos t).getD 0 = 0) :
      Moved queue state (.advance t environment) (state.goes t (.relocking call toRead none))
  | threw {t call toRead message environment} (at_t : state.threads t = .reading call toRead)
      (fails : environment.read = .pollFails ∨ environment.read = .readFails) :
      Moved queue state (.advance t environment) (state.goes t (.abandoning (.thrown message)))
  | relocked {t call toRead result environment}
      (at_t : state.threads t = .relocking call toRead result) (free : state.queueMutex = none)
      (unleft : state.left (none, state.process t) = none) (flocks : environment.flocks = true) :
      Moved queue state (.advance t environment)
        ({ state with queueMutex := some t }.goes t (.relockingMutex call toRead result))
  | notRelocked {t call toRead result message next environment}
      (at_t : state.threads t = .relocking call toRead result)
      (throws : LockThrows state t none environment next) :
      Moved queue state (.advance t environment) (next.goes t (.abandoning (.thrown message)))
  | relockedMutex {t call toRead result environment}
      (at_t : state.threads t = .relockingMutex call toRead result)
      (free : state.mutexes call.mutex = none)
      (unleft : state.left (some call.mutex, state.process t) = none)
      (flocks : environment.flocks = true) :
      Moved queue state (.advance t environment) ({ state with
        mutexes := Function.update state.mutexes call.mutex (some t) }.goes t
          (.relocked call toRead result))
  | notRelockedMutex {t call toRead result message next environment}
      (at_t : state.threads t = .relockingMutex call toRead result)
      (throws : LockThrows state t (some call.mutex) environment next) :
      Moved queue state (.advance t environment) (next.goes t (.removing (.thrown message)))
  | again {t call toRead count environment}
      (at_t : state.threads t = .relocked call toRead (some count)) (more : 0 < toRead - count) :
      Moved queue state (.advance t environment)
        (state.goes t (.unlockingMutex call (toRead - count)))
  | ended {t call toRead result outcome environment}
      (at_t : state.threads t = .relocked call toRead result) :
      Moved queue state (.advance t environment) (state.goes t (.removing outcome))
  | removed {t outcome environment} (at_t : state.threads t = .removing outcome) :
      Moved queue state (.advance t environment)
        ((state.setFifo t none).goes t (.unwinding outcome))
  | abandoned {t outcome environment} (at_t : state.threads t = .abandoning outcome) :
      Moved queue state (.advance t environment) ((state.setFifo t none).goes t .outside)
  | lockedNotify {t all environment} (at_t : state.threads t = .lockingNotify all)
      (free : state.queueMutex = none) (unleft : state.left (none, state.process t) = none) :
      Moved queue state (.advance t environment)
        ({ state with queueMutex := some t }.goes t (.notifying all))
  | notLockedNotify {t all next environment} (at_t : state.threads t = .lockingNotify all)
      (throws : LockThrows state t none environment next) :
      Moved queue state (.advance t environment) (next.goes t .outside)
  | popped {t all id run environment} (at_t : state.threads t = .notifying all)
      (pops : (takeFront queue).perform (Run.new state.memory) = (.ok id, run)) :
      Moved queue state (.advance t environment)
        ({ state with memory := run.memory }.goes t (.opening all id))
  | notPopped {t all message run environment} (at_t : state.threads t = .notifying all)
      (listed : 0 < state.memory.count)
      (throws : (takeFront queue).perform (Run.new state.memory) = (.error message, run)) :
      Moved queue state (.advance t environment) (state.goes t (.unwinding (.thrown message)))
  | drained {t all environment} (at_t : state.threads t = .notifying all)
      (empty : ¬ 0 < state.memory.count) :
      Moved queue state (.advance t environment) (state.goes t (.unwinding .returned))
  | opened {t all id environment} (at_t : state.threads t = .opening all id)
      (exists_id : (state.fifos id).isSome = true) :
      Moved queue state (.advance t environment) (state.goes t (.writing all id))
  | notOpened {t all id message environment} (at_t : state.threads t = .opening all id)
      (fails : ¬ ((state.fifos id).isSome = true ∧ environment.opens = true)) :
      Moved queue state (.advance t environment) (state.goes t (.unwinding (.thrown message)))
  | written {t all id environment} (at_t : state.threads t = .writing all id)
      (writes : environment.writes = true) :
      Moved queue state (.advance t environment)
        ((state.setFifo id ((state.fifos id).map (· + messageSize))).goes t
          (if all then .notifying all else .unwinding .returned))
  | notWritten {t all id environment} (at_t : state.threads t = .writing all id)
      (fails : environment.writes = false) :
      Moved queue state (.advance t environment)
        (state.goes t (if all then .notifying all else .unwinding .returned))
  | unwound {t outcome environment} (at_t : state.threads t = .unwinding outcome) :
      Moved queue state (.advance t environment)
        ({ state with queueMutex := none }.goes t .outside)

variable {queue : Queue} {state after : State}

/-- A lock that throws changes nothing but who has left a mutex locked. -/
theorem LockThrows.same {t : ThreadId} {mutex : LockId} {environment : Environment} {next : State}
    (throws : LockThrows state t mutex environment next) :
    ∃ left, next = { state with left := left } := by
  cases throws with
  | deadlocks _ => exact ⟨state.left, rfl⟩
  | flockFails _ _ => exact ⟨_, rfl⟩

/-- How a lock ends. -/
theorem lock_cases {t : ThreadId} {mutex : LockId} {environment : Environment}
    {result : Except String Unit} {next : State}
    (locks : state.lock t mutex environment = some (result, next)) :
    (result = .ok () ∧ state.owner mutex = none ∧ state.left (mutex, state.process t) = none ∧
      environment.flocks = true ∧ next = state.takes t mutex) ∨
    ∃ message, result = .error message ∧ LockThrows state t mutex environment next := by
  unfold State.lock at locks
  cases own : state.localOwner mutex (state.process t) with
  | some owner =>
    simp only [own] at locks
    obtain ⟨same, thrown⟩ := Option.ite_none_right_eq_some.mp locks
    obtain ⟨message, unchanged⟩ := Prod.mk.inj (Option.some.inj thrown)
    rw [same] at own
    rw [← unchanged]
    exact Or.inr ⟨_, message.symm, .deadlocks own⟩
  | none =>
    simp only [own] at locks
    split_ifs at locks with fails free
    · obtain ⟨message, left⟩ := Prod.mk.inj (Option.some.inj locks)
      rw [← left]
      exact Or.inr ⟨_, message.symm, .flockFails own fails⟩
    · obtain ⟨taken, same⟩ := Prod.mk.inj (Option.some.inj locks)
      exact Or.inl ⟨taken.symm, free, (Option.or_eq_none_iff.mp own).1,
        Bool.eq_true_of_not_eq_false fails, same.symm⟩

/-- How a read goes on. -/
theorem reading_moved {t : ThreadId} {call : WaitCall} {toRead : Nat} {environment : Environment}
    (at_t : state.threads t = .reading call toRead)
    (advanced : state.advance queue t environment = some after) :
    Moved queue state (.advance t environment) after := by
  unfold State.advance at advanced
  rw [at_t] at advanced
  dsimp only at advanced
  cases reads : environment.read with
  | bytes count =>
    rw [reads] at advanced
    obtain ⟨⟨some_count, enough⟩, same⟩ := Option.ite_none_right_eq_some.mp advanced
    split_ifs at same with timed some_left
    · rw [← Option.some.inj same]
      exact Moved.read at_t reads some_count enough (Or.inl rfl)
    · rw [← Option.some.inj same]
      exact Moved.read at_t reads some_count enough (Or.inr (Or.inl ⟨some_left, rfl⟩))
    · rw [← Option.some.inj same]
      exact Moved.read at_t reads some_count enough (Or.inr (Or.inr ⟨by omega, rfl⟩))
  | timeout =>
    rw [reads] at advanced
    obtain ⟨⟨_, empty⟩, same⟩ := Option.ite_none_right_eq_some.mp advanced
    rw [← Option.some.inj same]
    exact Moved.timedOut at_t reads empty
  | pollFails =>
    rw [reads] at advanced
    rw [← Option.some.inj advanced]
    exact Moved.threw at_t (Or.inl reads)
  | readFails =>
    rw [reads] at advanced
    rw [← Option.some.inj advanced]
    exact Moved.threw at_t (Or.inr reads)

/-- How a wait ends or goes on once both mutexes are taken again. -/
theorem relocked_moved {t : ThreadId} {call : WaitCall} {toRead : Nat} {result : Option Nat}
    {environment : Environment} (at_t : state.threads t = .relocked call toRead result)
    (advanced : state.advance queue t environment = some after) :
    Moved queue state (.advance t environment) after := by
  unfold State.advance at advanced
  rw [at_t] at advanced
  cases result with
  | none =>
    rw [← Option.some.inj advanced]
    exact Moved.ended at_t
  | some count =>
    dsimp only at advanced
    split_ifs at advanced with more
    · rw [← Option.some.inj advanced]
      exact Moved.again at_t more
    · rw [← Option.some.inj advanced]
      exact Moved.ended at_t
    · rw [← Option.some.inj advanced]
      exact Moved.ended at_t

/-- How a pipe is created. -/
theorem creating_moved {t : ThreadId} {call : WaitCall} {environment : Environment}
    (at_t : state.threads t = .creating call)
    (advanced : state.advance queue t environment = some after) :
    Moved queue state (.advance t environment) after := by
  unfold State.advance State.createFifo at advanced
  rw [at_t] at advanced
  dsimp only at advanced
  by_cases fresh : state.fifos t = none
  · rw [if_pos fresh] at advanced
    cases creation : environment.creation with
    | succeeds =>
      rw [creation] at advanced
      rw [← Option.some.inj advanced]
      exact Moved.created at_t fresh
    | quotaExceeded | mkfifoFails =>
      rw [creation] at advanced
      rw [← Option.some.inj advanced]
      exact Moved.notCreated at_t
    | openFails =>
      rw [creation] at advanced
      rw [← Option.some.inj advanced]
      exact Moved.leftBehind at_t fresh
  · rw [if_neg fresh] at advanced
    rw [← Option.some.inj advanced]
    exact Moved.notCreated at_t

/-- How a notifier goes on. -/
theorem notifying_moved {t : ThreadId} {all : Bool} {environment : Environment}
    (at_t : state.threads t = .notifying all)
    (advanced : state.advance queue t environment = some after) :
    Moved queue state (.advance t environment) after := by
  unfold State.advance at advanced
  rw [at_t] at advanced
  dsimp only at advanced
  split_ifs at advanced with listed
  · split at advanced
    · rename_i id run pops
      rw [← Option.some.inj advanced]
      exact Moved.popped at_t pops
    · rename_i message run throws
      rw [← Option.some.inj advanced]
      exact Moved.notPopped at_t listed throws
  · rw [← Option.some.inj advanced]
    exact Moved.drained at_t listed

/-- How a lock of a mutex goes on. -/
theorem locking_moved {t : ThreadId} {phase : Phase} {environment : Environment}
    (at_t : state.threads t = phase) (locking : phase.locking = true)
    (advanced : state.advance queue t environment = some after) :
    Moved queue state (.advance t environment) after := by
  unfold State.advance at advanced
  rw [at_t] at advanced
  cases phase with
  | lockingWait call =>
    dsimp only at advanced
    split at advanced
    · cases advanced
    · rename_i next locks
      rcases lock_cases locks with ⟨_, free, unleft, _, same⟩ | ⟨_, failed, _⟩
      · rw [← Option.some.inj advanced, same]
        exact Moved.lockedWait at_t free unleft
      · cases failed
    · rename_i message next locks
      rcases lock_cases locks with ⟨taken, _⟩ | ⟨_, _, throws⟩
      · cases taken
      · rw [← Option.some.inj advanced]
        exact Moved.notLockedWait at_t throws
  | lockingNotify all =>
    dsimp only at advanced
    split at advanced
    · cases advanced
    · rename_i next locks
      rcases lock_cases locks with ⟨_, free, unleft, _, same⟩ | ⟨_, failed, _⟩
      · rw [← Option.some.inj advanced, same]
        exact Moved.lockedNotify at_t free unleft
      · cases failed
    · rename_i message next locks
      rcases lock_cases locks with ⟨taken, _⟩ | ⟨_, _, throws⟩
      · cases taken
      · rw [← Option.some.inj advanced]
        exact Moved.notLockedNotify at_t throws
  | relocking call toRead result =>
    dsimp only at advanced
    split at advanced
    · cases advanced
    · rename_i next locks
      rcases lock_cases locks with ⟨_, free, unleft, flocks, same⟩ | ⟨_, failed, _⟩
      · rw [← Option.some.inj advanced, same]
        exact Moved.relocked at_t free unleft flocks
      · cases failed
    · rename_i message next locks
      rcases lock_cases locks with ⟨taken, _⟩ | ⟨_, _, throws⟩
      · cases taken
      · rw [← Option.some.inj advanced]
        exact Moved.notRelocked at_t throws
  | relockingMutex call toRead result =>
    dsimp only at advanced
    split at advanced
    · cases advanced
    · rename_i next locks
      rcases lock_cases locks with ⟨_, free, unleft, flocks, same⟩ | ⟨_, failed, _⟩
      · rw [← Option.some.inj advanced, same]
        exact Moved.relockedMutex at_t free unleft flocks
      · cases failed
    · rename_i message next locks
      rcases lock_cases locks with ⟨taken, _⟩ | ⟨_, _, throws⟩
      · cases taken
      · rw [← Option.some.inj advanced]
        exact Moved.notRelockedMutex at_t throws
  | _ => cases locking

/-- The next step of a thread. -/
theorem advance_moved {t : ThreadId} {environment : Environment}
    (advanced : state.advance queue t environment = some after) :
    Moved queue state (.advance t environment) after := by
  generalize at_t : state.threads t = phase
  cases phase with
  | creating call => exact creating_moved at_t advanced
  | reading call toRead => exact reading_moved at_t advanced
  | relocked call toRead result => exact relocked_moved at_t advanced
  | notifying all => exact notifying_moved at_t advanced
  | outside =>
    unfold State.advance at advanced
    rw [at_t] at advanced
    cases advanced
  | lockingWait call | lockingNotify all | relocking call toRead result
  | relockingMutex call toRead result => exact locking_moved at_t rfl advanced
  | pushing call =>
    unfold State.advance at advanced
    rw [at_t] at advanced
    dsimp only at advanced
    split at advanced
    · rename_i run pushes
      rw [← Option.some.inj advanced]
      exact Moved.pushed at_t pushes
    · rw [← Option.some.inj advanced]
      exact Moved.full at_t
  | unlockingMutex call toRead =>
    unfold State.advance at advanced
    rw [at_t] at advanced
    dsimp only at advanced
    split_ifs at advanced with flocks
    · rw [← Option.some.inj advanced]
      exact Moved.unlockedMutex at_t
    · rw [← Option.some.inj advanced]
      exact Moved.notUnlockedMutex at_t (eq_false_of_ne_true flocks)
  | unlocking call toRead =>
    unfold State.advance at advanced
    rw [at_t] at advanced
    dsimp only at advanced
    split_ifs at advanced with flocks
    · rw [← Option.some.inj advanced]
      exact Moved.unlocked at_t flocks
    · rw [← Option.some.inj advanced]
      exact Moved.notUnlocked at_t (eq_false_of_ne_true flocks)
  | removing outcome =>
    unfold State.advance at advanced
    rw [at_t] at advanced
    rw [← Option.some.inj advanced]
    exact Moved.removed at_t
  | abandoning outcome =>
    unfold State.advance at advanced
    rw [at_t] at advanced
    rw [← Option.some.inj advanced]
    exact Moved.abandoned at_t
  | opening all id =>
    unfold State.advance at advanced
    rw [at_t] at advanced
    dsimp only at advanced
    split_ifs at advanced with opens
    · rw [← Option.some.inj advanced]
      exact Moved.opened at_t opens.1
    · rw [← Option.some.inj advanced]
      exact Moved.notOpened at_t opens
  | writing all id =>
    unfold State.advance at advanced
    rw [at_t] at advanced
    dsimp only at advanced
    cases writes : environment.writes with
    | true =>
      rw [writes, if_pos rfl] at advanced
      rw [← Option.some.inj advanced]
      exact Moved.written at_t writes
    | false =>
      rw [writes, if_neg Bool.false_ne_true] at advanced
      rw [← Option.some.inj advanced]
      exact Moved.notWritten at_t writes
  | unwinding outcome =>
    unfold State.advance at advanced
    rw [at_t] at advanced
    rw [← Option.some.inj advanced]
    exact Moved.unwound at_t

/-- Every step is one of the listed ones. -/
theorem step_moved {event : Event} (stepped : state.step queue event = some after) :
    Moved queue state event after := by
  cases event with
  | lockMutex thread mutex =>
    obtain ⟨⟨at_t, free, unleft⟩, same⟩ := Option.ite_none_right_eq_some.mp stepped
    rw [← Option.some.inj same]
    exact Moved.lockMutex at_t free unleft
  | unlockMutex thread mutex =>
    obtain ⟨⟨at_t, held⟩, same⟩ := Option.ite_none_right_eq_some.mp stepped
    rw [← Option.some.inj same]
    exact Moved.unlockMutex at_t held
  | wait thread call =>
    obtain ⟨⟨at_t, held⟩, same⟩ := Option.ite_none_right_eq_some.mp stepped
    rw [← Option.some.inj same]
    exact Moved.wait at_t held
  | notify thread all =>
    obtain ⟨at_t, same⟩ := Option.ite_none_right_eq_some.mp stepped
    rw [← Option.some.inj same]
    exact Moved.notify at_t
  | advance thread environment => exact advance_moved stepped

/-! ## Phases -/

section Phases

variable {t u : ThreadId}

/-- A thread that goes on to another phase leaves the phases of the others. -/
theorem State.goes_other (state : State) (phase : Phase) (other : u ≠ t) :
    (state.goes t phase).threads u = state.threads u := by
  show Function.update state.threads t phase u = state.threads u
  rw [Function.update_of_ne other]

@[simp] theorem State.goes_self (state : State) (t : ThreadId) (phase : Phase) :
    (state.goes t phase).threads t = phase := by
  show Function.update state.threads t phase t = phase
  rw [Function.update_self]

end Phases

/-! ## Runs -/

/-- Fresh objects, before any call. -/
def start : State where
  memory := { items := fun _ => 0, readPosition := 0, writePosition := 0, count := 0 }
  queueMutex := none
  mutexes _ := none
  process _ := 0
  left _ := none
  fifos _ := none
  threads _ := .outside

theorem start_initial : (conditionVariable 4).initial start :=
  ⟨⟨start.memory, _, Queue.construct_perform 4 (128 * 1024) start.memory, rfl⟩,
    rfl, fun _ => rfl, fun _ => rfl, fun _ => rfl⟩

/-- The next steps of a thread, in which the operating system does what it is asked for. -/
def turns (t : ThreadId) (steps : Nat) : List Event :=
  List.replicate steps (.advance t ⟨.succeeds, true, .bytes 4, true, true⟩)

end Azul.Ipc.Darwin
