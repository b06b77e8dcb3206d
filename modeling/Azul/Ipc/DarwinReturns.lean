import Azul.Ipc.DarwinSteps

/-!
# With which mutexes the waits of the `darwin` condition variable end

A wait that has enqueued its thread gives both mutexes back, and takes both again before it ends,
except if what it does in between throws: a read of its pipe, the unlock of the queue mutex before
it, or one of the locks after it. `Wait` and `WaitFor` then leave without the caller's mutex. A
history keeps the calls that the threads are in and whether something of that kind has failed.
-/

namespace Azul.Ipc.Darwin

open Azul.Foundation Operation

/-- A read that throws. -/
def ReadResult.Fails : ReadResult → Prop
  | .pollFails | .readFails => True
  | .bytes _ | .timeout => False

instance (result : ReadResult) : Decidable result.Fails := by
  unfold ReadResult.Fails
  split <;> infer_instance

/-- A wait that has enqueued its thread. -/
structure Enqueued where
  call : WaitCall
  /-- A read has failed, or a `flock` while the mutex of the caller was given back. -/
  failed : Bool
  deriving DecidableEq

/-- The waits that have enqueued their threads and have not ended. -/
abbrev Waits := ThreadId → Option Enqueued

/-- A read fails, or a `flock` while the mutex of the caller is given back. -/
def Environment.failsAt (environment : Environment) : Phase → Bool
  | .reading _ _ => decide environment.read.Fails
  | .unlocking _ _ | .relocking _ _ _ | .relockingMutex _ _ _ => !environment.flocks
  | _ => false

/-- The wait of a thread after a step of it. -/
def Enqueued.after (wait : Option Enqueued) (environment : Environment) :
    Phase → Phase → Option Enqueued
  | _, .outside => none
  | .pushing call, .unlockingMutex _ _ => some { call := call, failed := false }
  | before, _ =>
    if environment.failsAt before then
      wait.map fun enqueued => { enqueued with failed := true }
    else
      wait

section After

variable {wait : Option Enqueued} {environment : Environment} {before phase : Phase}

/-- A step with which nothing fails. -/
theorem Enqueued.after_kept (fine : environment.failsAt before = false)
    (pushed : ∀ call, before ≠ .pushing call) (stays : phase ≠ .outside) :
    Enqueued.after wait environment before phase = wait := by
  unfold Enqueued.after
  split
  · exact absurd rfl stays
  · exact absurd rfl (pushed _)
  · rw [fine]
    rfl

/-- A step with which something fails. -/
theorem Enqueued.after_failed {call : WaitCall} {failed : Bool}
    (fails : environment.failsAt before = true) (inside : wait = some ⟨call, failed⟩)
    (stays : phase ≠ .outside) :
    Enqueued.after wait environment before phase = some ⟨call, true⟩ := by
  unfold Enqueued.after
  split
  · exact absurd rfl stays
  · cases fails
  · rw [if_pos fails, inside]
    rfl

end After

/-- The waits after a step. -/
def Waits.record (state : State) (event : Event) (after : State) (waits : Waits) : Waits :=
  match event with
  | .advance t environment =>
    Function.update waits t
      (Enqueued.after (waits t) environment (state.threads t) (after.threads t))
  | _ => waits

/-- The objects of one name, with the waits that have enqueued their threads. -/
def recordedWaits (itemSize : Word32) : System (State × Waits) Event :=
  (conditionVariable itemSize).recording (fun _ => none) Waits.record

/-- What is known of a thread, by its phase, the wait it is in and the mutexes. -/
def Phase.Sound (mutexes : MutexId → Option ThreadId) (wait : Option Enqueued) (t : ThreadId) :
    Phase → Prop
  | .outside | .lockingNotify _ | .notifying _ | .opening _ _ | .writing _ _ => wait = none
  | .lockingWait call | .creating call | .pushing call =>
    wait = none ∧ mutexes call.mutex = some t
  | .unlockingMutex call _ | .relocked call _ _ =>
    wait = some ⟨call, false⟩ ∧ mutexes call.mutex = some t
  | .unlocking call _ | .reading call _ | .relocking call _ _ | .relockingMutex call _ _ =>
    wait = some ⟨call, false⟩ ∧ mutexes call.mutex ≠ some t
  | .removing _ | .unwinding _ =>
    ∀ enqueued, wait = some enqueued →
      (enqueued.failed = false ↔ mutexes enqueued.call.mutex = some t)
  | .abandoning _ => ∃ call, wait = some ⟨call, true⟩ ∧ mutexes call.mutex ≠ some t

/-! ## Mutexes that are left locked -/

namespace Phase

/-- The thread has taken the queue mutex in its call, and has not failed to take it again. -/
def entered : Phase → Bool
  | reading _ _ | relocking _ _ _ => true
  | phase => phase.holds

/-- The mutex that the thread has given back in its wait, and not taken again. -/
def lost : Phase → Option MutexId
  | unlocking call _ | reading call _ | relocking call _ _ | relockingMutex call _ _ =>
    some call.mutex
  | outside | lockingWait _ | creating _ | pushing _ | unlockingMutex _ _ | relocked _ _ _
  | removing _ | abandoning _ | lockingNotify _ | notifying _ | opening _ _ | writing _ _
  | unwinding _ => none

end Phase

/-- What is known of the mutexes of its process that a thread has left locked: it has taken none of
them since. -/
structure LeftOk (state : State) (t : ThreadId) (phase : Phase) : Prop where
  holder : state.queueMutex = some t → phase.holds = true
  queue : state.left (none, state.process t) = some t → phase.entered = false
  mutex : ∀ mutex, state.left (some mutex, state.process t) = some t →
    state.mutexes mutex ≠ some t ∧ phase.lost ≠ some mutex

section Left

variable {queue : Queue} {state next after : State} {t u : ThreadId} {phase : Phase}

/-- What is known of a thread that comes to hold no mutex and leaves none locked. -/
theorem LeftOk.kept (ok : LeftOk state u phase) (process : next.process = state.process)
    (left : ∀ lock, next.left lock = some u → state.left lock = some u)
    (holder : next.queueMutex = some u → state.queueMutex = some u)
    (mutexes : ∀ mutex, next.mutexes mutex = some u → state.mutexes mutex = some u) :
    LeftOk next u phase where
  holder held := ok.holder (holder held)
  queue own := by
    rw [process] at own
    exact ok.queue (left _ own)
  mutex mutex own := by
    rw [process] at own
    obtain ⟨unheld, apart⟩ := ok.mutex mutex (left _ own)
    exact ⟨fun held => unheld (mutexes mutex held), apart⟩

/-- A thread that goes on to another phase. -/
theorem LeftOk.moves {before : Phase} (ok : LeftOk state t before)
    (holds : before.holds = true → phase.holds = true)
    (entered : phase.entered = true → before.entered = true)
    (lost : ∀ mutex, phase.lost = some mutex → before.lost = some mutex) :
    LeftOk state t phase where
  holder held := holds (ok.holder held)
  queue own := by
    apply eq_false_of_ne_true
    intro inside
    have outside := ok.queue own
    rw [entered inside] at outside
    cases outside
  mutex mutex own := by
    obtain ⟨unheld, apart⟩ := ok.mutex mutex own
    exact ⟨unheld, fun given => apart (lost mutex given)⟩

/-- A step of one thread. -/
theorem LeftOk.advances (ok : ∀ u, LeftOk state u (state.threads u))
    (threads : next.threads = state.threads)
    (others : ∀ u, u ≠ t → ∀ phase, LeftOk state u phase → LeftOk next u phase)
    (own : LeftOk next t phase) (u : ThreadId) :
    LeftOk (next.goes t phase) u ((next.goes t phase).threads u) := by
  have same : ∀ phase', LeftOk next u phase' → LeftOk (next.goes t phase) u phase' :=
    fun _ known => ⟨known.holder, known.queue, known.mutex⟩
  by_cases itself : u = t
  · rw [itself, State.goes_self]
    rw [itself] at same
    exact same _ own
  · rw [State.goes_other _ _ itself, threads]
    exact same _ (others u itself _ (ok u))

/-- A step of one thread that takes no mutex and gives none back. -/
theorem LeftOk.quiet (ok : ∀ u, LeftOk state u (state.threads u)) {before : Phase}
    (at_t : state.threads t = before)
    (same : next.threads = state.threads ∧ next.process = state.process ∧
      next.left = state.left ∧ next.queueMutex = state.queueMutex ∧ next.mutexes = state.mutexes)
    (holds : before.holds = true → phase.holds = true)
    (entered : phase.entered = true → before.entered = true)
    (lost : ∀ mutex, phase.lost = some mutex → before.lost = some mutex) (u : ThreadId) :
    LeftOk (next.goes t phase) u ((next.goes t phase).threads u) := by
  obtain ⟨threads, process, left, queueMutex, mutexes⟩ := same
  have kept : ∀ u phase, LeftOk state u phase → LeftOk next u phase := by
    intro u phase own
    refine own.kept process ?_ ?_ ?_
    · rw [left]
      exact fun _ => id
    · rw [queueMutex]
      exact id
    · rw [mutexes]
      exact fun _ => id
  have own : LeftOk state t before := at_t ▸ ok t
  exact LeftOk.advances ok threads (fun u _ phase => kept u phase)
    (kept t phase (own.moves holds entered lost)) u

/-- A mutex that a thread holds after another one has come to be owned or free. -/
theorem held_before {mutexes : MutexId → Option ThreadId} {mutex other : MutexId}
    {owner : Option ThreadId} (held : Function.update mutexes mutex owner other = some u)
    (apart : owner ≠ some u) : mutexes other = some u := by
  by_cases same : other = mutex
  · rw [same, Function.update_self] at held
    exact absurd held apart
  · rwa [Function.update_of_ne same] at held

/-- A thread that locks a mutex of its process and finds it locked by itself. -/
theorem localOwner_own {mutex : LockId} {process : Nat}
    (own : state.localOwner mutex process = some t) :
    state.left (mutex, process) = some t ∨ state.owner mutex = some t := by
  rcases Option.or_eq_some_iff.mp own with left | ⟨_, owner⟩
  · exact Or.inl left
  · exact Or.inr (Option.filter_eq_some_iff.mp owner).1

/-- A lock that throws leaves other threads as they are. -/
theorem LeftOk.other_throws {mutex : LockId} {environment : Environment} (other : u ≠ t)
    (throws : LockThrows state t mutex environment next) (ok : LeftOk state u phase) :
    LeftOk next u phase := by
  cases throws with
  | deadlocks _ => exact ok
  | flockFails _ _ =>
    refine ok.kept rfl ?_ id fun _ => id
    intro lock left
    change Function.update state.left (mutex, state.process t) (some t) lock = some u at left
    by_cases same : lock = (mutex, state.process t)
    · rw [same, Function.update_self] at left
      exact absurd (Option.some.inj left).symm other
    · rwa [Function.update_of_ne same] at left

/-- A lock of the queue mutex that throws. -/
theorem LeftOk.queue_throws {before : Phase} {environment : Environment}
    (ok : LeftOk state t before) (unheld : before.holds = false)
    (throws : LockThrows state t none environment next) (outside : phase.entered = false)
    (none_lost : phase.lost = none) : LeftOk next t phase := by
  have lost : ∀ mutex, phase.lost ≠ some mutex := by
    intro mutex given
    rw [none_lost] at given
    cases given
  have not_holder : state.queueMutex ≠ some t := by
    intro held
    have holds := ok.holder held
    rw [unheld] at holds
    cases holds
  cases throws with
  | deadlocks _ =>
    exact ⟨fun held => absurd held not_holder, fun _ => outside,
      fun mutex own => ⟨(ok.mutex mutex own).1, lost mutex⟩⟩
  | flockFails _ _ =>
    refine ⟨fun held => absurd held not_holder, fun _ => outside, ?_⟩
    intro mutex own
    change Function.update state.left (none, state.process t) (some t)
      (some mutex, state.process t) = some t at own
    rw [Function.update_of_ne (by simp)] at own
    exact ⟨(ok.mutex mutex own).1, lost mutex⟩

end Left

section Steps

variable {queue : Queue} {state next after : State} {waits : Waits} {t : ThreadId} {phase : Phase}

/-- What is known of a thread depends on which mutexes it owns only. -/
theorem Phase.Sound.kept {mutexes mutexes' : MutexId → Option ThreadId} {wait : Option Enqueued}
    (sound : phase.Sound mutexes wait t)
    (owns : ∀ mutex, mutexes' mutex = some t ↔ mutexes mutex = some t) :
    phase.Sound mutexes' wait t := by
  cases phase with
  | outside | lockingNotify | notifying | opening | writing => exact sound
  | lockingWait call | creating call | pushing call | unlockingMutex call _ | relocked call _ _ =>
    exact ⟨sound.1, (owns call.mutex).mpr sound.2⟩
  | unlocking call _ | reading call _ | relocking call _ _ | relockingMutex call _ _ =>
    exact ⟨sound.1, (owns call.mutex).not.mpr sound.2⟩
  | removing | unwinding =>
    intro enqueued inside
    exact (sound enqueued inside).trans (owns _).symm
  | abandoning =>
    obtain ⟨call, inside, lost⟩ := sound
    exact ⟨call, inside, (owns _).not.mpr lost⟩

/-- What is known of all threads. -/
def State.Sound (state : State) (waits : Waits) : Prop :=
  ∀ t, (state.threads t).Sound state.mutexes (waits t) t

/-- A mutex comes to be owned by a thread, or free; before it was the other way. -/
theorem mutexes_kept {mutexes : MutexId → Option ThreadId} {mutex : MutexId}
    {before owner : Option ThreadId} {u : ThreadId} (was : mutexes mutex = before)
    (not_before : before ≠ some u) (not_after : owner ≠ some u) (other : MutexId) :
    Function.update mutexes mutex owner other = some u ↔ mutexes other = some u := by
  by_cases same : other = mutex
  · rw [same, Function.update_self, was]
    exact iff_of_false not_after not_before
  · rw [Function.update_of_ne same]

/-- A step of one thread keeps what is known of the others. -/
theorem State.Sound.advances (sound : state.Sound waits) {environment : Environment}
    (threads : next.threads = state.threads)
    (owns : ∀ u, u ≠ t → ∀ mutex, next.mutexes mutex = some u ↔ state.mutexes mutex = some u)
    (own : phase.Sound next.mutexes
      (Enqueued.after (waits t) environment (state.threads t) phase) t) :
    (next.goes t phase).Sound
      (Waits.record state (.advance t environment) (next.goes t phase) waits) := by
  intro u
  unfold Waits.record
  dsimp only
  rw [State.goes_self]
  by_cases same : u = t
  · rw [same, State.goes_self, Function.update_self]
    exact own
  · rw [State.goes_other _ _ same, Function.update_of_ne same, threads]
    exact (sound u).kept (owns u same)

/-- A step that changes the owner of no mutex. -/
theorem State.Sound.stays (sound : state.Sound waits) {environment : Environment}
    (threads : next.threads = state.threads) (mutexes : next.mutexes = state.mutexes)
    (own : phase.Sound state.mutexes
      (Enqueued.after (waits t) environment (state.threads t) phase) t) :
    (next.goes t phase).Sound
      (Waits.record state (.advance t environment) (next.goes t phase) waits) := by
  refine sound.advances threads ?_ ?_
  · intro u _ mutex
    rw [mutexes]
  · rw [mutexes]
    exact own

/-- A step of a thread that is in no wait which has enqueued it, and does not enqueue it. -/
theorem State.Sound.apart (sound : state.Sound waits) {environment : Environment}
    (threads : next.threads = state.threads) (mutexes : next.mutexes = state.mutexes)
    (unchanged : Enqueued.after (waits t) environment (state.threads t) phase = waits t)
    (own : phase.Sound state.mutexes (waits t) t) :
    (next.goes t phase).Sound
      (Waits.record state (.advance t environment) (next.goes t phase) waits) := by
  refine sound.stays threads mutexes ?_
  rw [unchanged]
  exact own

/-- A thread locks or unlocks a mutex outside of the condition variable. -/
theorem State.Sound.outside (sound : state.Sound waits) (none_before : waits t = none)
    (at_t : state.threads t = .outside) {mutexes : MutexId → Option ThreadId}
    (owns : ∀ u, u ≠ t → ∀ mutex, mutexes mutex = some u ↔ state.mutexes mutex = some u) :
    { state with mutexes := mutexes }.Sound waits := by
  intro u
  show (state.threads u).Sound mutexes (waits u) u
  by_cases same : u = t
  · rw [same, at_t]
    exact none_before
  · exact (sound u).kept (owns u same)

/-- A thread calls the condition variable. -/
theorem State.Sound.calls (sound : state.Sound waits)
    (own : phase.Sound state.mutexes (waits t) t) : (state.goes t phase).Sound waits := by
  intro u
  show ((state.goes t phase).threads u).Sound state.mutexes (waits u) u
  by_cases same : u = t
  · rw [same, State.goes_self]
    exact own
  · rw [State.goes_other _ _ same]
    exact sound u

/-- A step with which nothing fails. -/
theorem State.Sound.keeps (sound : state.Sound waits) {environment : Environment} {old : Phase}
    (at_t : state.threads t = old) (fine : environment.failsAt old = false)
    (pushed : ∀ call, old ≠ .pushing call) (stays : phase ≠ .outside)
    (threads : next.threads = state.threads) (mutexes : next.mutexes = state.mutexes)
    (own : phase.Sound state.mutexes (waits t) t) :
    (next.goes t phase).Sound
      (Waits.record state (.advance t environment) (next.goes t phase) waits) := by
  refine sound.apart threads mutexes ?_ own
  rw [at_t]
  exact Enqueued.after_kept fine pushed stays

/-- A step with which a wait fails that has given its mutex back. -/
theorem State.Sound.fails (sound : state.Sound waits) {environment : Environment} {old : Phase}
    {call : WaitCall} (at_t : state.threads t = old) (fails : environment.failsAt old = true)
    (inside : waits t = some ⟨call, false⟩) (stays : phase ≠ .outside)
    (threads : next.threads = state.threads) (mutexes : next.mutexes = state.mutexes)
    (own : phase.Sound state.mutexes (some ⟨call, true⟩) t) :
    (next.goes t phase).Sound
      (Waits.record state (.advance t environment) (next.goes t phase) waits) := by
  refine sound.stays threads mutexes ?_
  rw [at_t, Enqueued.after_failed fails inside stays]
  exact own

/-- A lock that its thread has not locked before throws because `flock` has failed. -/
theorem LockThrows.flock_failed {mutex : LockId} {environment : Environment}
    (throws : LockThrows state t mutex environment next)
    (unleft : state.left (mutex, state.process t) ≠ some t)
    (unheld : state.owner mutex ≠ some t) : environment.flocks = false := by
  cases throws with
  | flockFails _ fails => exact fails
  | deadlocks owner =>
    rcases localOwner_own owner with left | held
    · exact absurd left unleft
    · exact absurd held unheld

/-- A wait that ends with the mutex of its caller, as nothing has failed. -/
theorem ends_with {mutexes : MutexId → Option ThreadId} {call : WaitCall} {outcome : Outcome}
    (owned : mutexes call.mutex = some t) :
    (Phase.removing outcome).Sound mutexes (some ⟨call, false⟩) t := by
  intro enqueued same
  rw [← Option.some.inj same]
  exact iff_of_true rfl owned

/-- A wait that ends without it, as something has failed. -/
theorem throws_without {mutexes : MutexId → Option ThreadId} {call : WaitCall} {outcome : Outcome}
    (lost : mutexes call.mutex ≠ some t) :
    (Phase.removing outcome).Sound mutexes (some ⟨call, true⟩) t := by
  intro enqueued same
  rw [← Option.some.inj same]
  exact iff_of_false nofun lost

/-- Every step keeps what is known of the threads. -/
theorem Moved.sound {event : Event} (ok : ∀ u, LeftOk state u (state.threads u))
    (sound : state.Sound waits)
    (moved : Moved queue state event after) :
    after.Sound (Waits.record state event after waits) := by
  have at_phase : ∀ {u phase}, state.threads u = phase →
      phase.Sound state.mutexes (waits u) u := by
    intro u phase at_u
    rw [← at_u]
    exact sound u
  cases moved with
  | lockMutex at_t free _ =>
    refine sound.outside (at_phase at_t) at_t fun u other => ?_
    exact mutexes_kept free nofun fun owner => other (Option.some.inj owner).symm
  | unlockMutex at_t held =>
    refine sound.outside (at_phase at_t) at_t fun u other => ?_
    exact mutexes_kept held (fun owner => other (Option.some.inj owner).symm) nofun
  | wait at_t held => exact sound.calls ⟨at_phase at_t, held⟩
  | notify at_t =>
    have none_before := at_phase at_t
    exact sound.calls none_before
  | lockedWait at_t _ _ | created at_t _ =>
    have before := at_phase at_t
    exact sound.apart rfl rfl (by rw [at_t]; rfl) before
  | lockedNotify at_t _ _ | popped at_t _ | opened at_t _ =>
    have before := at_phase at_t
    exact sound.apart rfl rfl (by rw [at_t]; rfl) before
  | notCreated at_t | leftBehind at_t _ | full at_t =>
    refine sound.apart rfl rfl (by rw [at_t]; rfl) ?_
    intro enqueued inside
    rw [(at_phase at_t).1] at inside
    cases inside
  | notPopped at_t _ _ | drained at_t _ | notOpened at_t _ =>
    refine sound.apart rfl rfl (by rw [at_t]; rfl) ?_
    intro enqueued inside
    rw [at_phase at_t] at inside
    cases inside
  | @written t all id environment at_t _ | @notWritten t all id environment at_t _ =>
    have none_before := at_phase at_t
    cases all with
    | true => exact sound.apart rfl rfl (by rw [at_t]; rfl) none_before
    | false =>
      refine sound.apart rfl rfl (by rw [at_t]; rfl) ?_
      intro enqueued inside
      rw [none_before] at inside
      cases inside
  | @pushed t call run environment at_t pushes =>
    refine sound.stays rfl rfl ?_
    rw [at_t]
    exact ⟨rfl, (at_phase at_t).2⟩
  | @unlockedMutex t call toRead environment at_t =>
    obtain ⟨inside, owned⟩ := at_phase at_t
    refine sound.advances rfl ?_ ?_
    · intro u other
      exact mutexes_kept owned (fun owner => other (Option.some.inj owner).symm) nofun
    · rw [at_t]
      refine ⟨inside, ?_⟩
      show Function.update state.mutexes call.mutex none call.mutex ≠ some t
      rw [Function.update_self]
      nofun
  | unlocked at_t flocks =>
    have before := at_phase at_t
    exact sound.keeps at_t (congrArg (!·) flocks) nofun nofun rfl rfl before
  | notUnlocked at_t fails =>
    obtain ⟨inside, lost⟩ := at_phase at_t
    exact sound.fails at_t (congrArg (!·) fails) inside nofun rfl rfl (throws_without lost)
  | @notUnlockedMutex t call toRead message environment at_t _ =>
    obtain ⟨inside, owned⟩ := at_phase at_t
    refine sound.apart rfl rfl (by rw [at_t]; rfl) ?_
    rw [inside]
    exact ends_with owned
  | @timedOut t call toRead environment at_t timeout empty =>
    have before := at_phase at_t
    have fine : environment.failsAt (.reading call toRead) = false := by
      show decide environment.read.Fails = false
      rw [timeout]
      rfl
    exact sound.keeps at_t fine nofun nofun rfl rfl before
  | again at_t _ =>
    have before := at_phase at_t
    exact sound.apart rfl rfl (by rw [at_t]; rfl) before
  | relocked at_t free unleft flocks =>
    have before := at_phase at_t
    exact sound.keeps at_t (congrArg (!·) flocks) nofun nofun rfl rfl before
  | @notRelocked t call toRead result message next environment at_t throws =>
    obtain ⟨inside, lost⟩ := at_phase at_t
    have own : LeftOk state t (.relocking call toRead result) := at_t ▸ ok t
    have fails : environment.flocks = false := by
      apply throws.flock_failed
      · exact fun left => nomatch own.queue left
      · exact fun held => nomatch own.holder held
    obtain ⟨left, same⟩ := throws.same
    rw [same]
    exact sound.fails at_t (congrArg (!·) fails) inside nofun rfl rfl ⟨call, rfl, lost⟩
  | @notRelockedMutex t call toRead result message next environment at_t throws =>
    obtain ⟨inside, lost⟩ := at_phase at_t
    have own : LeftOk state t (.relockingMutex call toRead result) := at_t ▸ ok t
    have fails : environment.flocks = false :=
      throws.flock_failed (fun left => (own.mutex call.mutex left).2 rfl) lost
    obtain ⟨left, same⟩ := throws.same
    rw [same]
    exact sound.fails at_t (congrArg (!·) fails) inside nofun rfl rfl (throws_without lost)
  | notLockedWait at_t throws =>
    obtain ⟨left, same⟩ := throws.same
    rw [same]
    refine sound.stays rfl rfl ?_
    rw [at_t]
    rfl
  | notLockedNotify at_t throws =>
    obtain ⟨left, same⟩ := throws.same
    rw [same]
    refine sound.stays rfl rfl ?_
    rw [at_t]
    rfl
  | @read t call toRead count phase environment at_t bytes some_count enough reads =>
    have before := at_phase at_t
    have fine : environment.failsAt (.reading call toRead) = false := by
      show decide environment.read.Fails = false
      rw [bytes]
      rfl
    have stays : phase ≠ .outside := by
      rcases reads with same | ⟨_, same⟩ | ⟨_, same⟩ <;> rw [same] <;> nofun
    refine sound.keeps at_t fine nofun stays rfl rfl ?_
    rcases reads with same | ⟨_, same⟩ | ⟨_, same⟩ <;> rw [same] <;> exact before
  | @threw t call toRead message environment at_t fails =>
    obtain ⟨inside, lost⟩ := at_phase at_t
    have thrown : environment.failsAt (.reading call toRead) = true := by
      show decide environment.read.Fails = true
      rcases fails with fails | fails <;> rw [fails] <;> rfl
    exact sound.fails at_t thrown inside nofun rfl rfl ⟨call, rfl, lost⟩
  | @relockedMutex t call toRead result environment at_t free unleft flocks =>
    obtain ⟨inside, _⟩ := at_phase at_t
    have fine : environment.failsAt (.relockingMutex call toRead result) = false :=
      congrArg (!·) flocks
    refine sound.advances rfl ?_ ?_
    · intro u other
      exact mutexes_kept free nofun fun owner => other (Option.some.inj owner).symm
    · rw [at_t, Enqueued.after_kept fine]
      · refine ⟨inside, ?_⟩
        show Function.update state.mutexes call.mutex (some t) call.mutex = some t
        rw [Function.update_self]
      · nofun
      · nofun
  | @ended t call toRead result outcome environment at_t =>
    obtain ⟨inside, owned⟩ := at_phase at_t
    refine sound.apart rfl rfl (by rw [at_t]; rfl) ?_
    rw [inside]
    exact ends_with owned
  | removed at_t =>
    have before := at_phase at_t
    exact sound.apart rfl rfl (by rw [at_t]; rfl) before
  | abandoned at_t | unwound at_t =>
    refine sound.stays rfl rfl ?_
    rw [at_t]
    rfl

/-- Every step keeps what is known of the mutexes that are left locked. -/
theorem Moved.leftOk {event : Event} (ok : ∀ u, LeftOk state u (state.threads u))
    (sound : state.Sound waits) (moved : Moved queue state event after) (u : ThreadId) :
    LeftOk after u (after.threads u) := by
  have at_phase : ∀ {u phase}, state.threads u = phase → LeftOk state u phase := by
    intro u phase at_u
    rw [← at_u]
    exact ok u
  have known : ∀ {u phase}, state.threads u = phase → phase.Sound state.mutexes (waits u) u := by
    intro u phase at_u
    rw [← at_u]
    exact sound u
  cases moved with
  | @lockMutex t mutex at_t free unleft =>
    refine ⟨(ok u).holder, (ok u).queue, ?_⟩
    intro other left
    obtain ⟨unheld, apart⟩ := (ok u).mutex other left
    refine ⟨?_, apart⟩
    intro held
    change Function.update state.mutexes mutex (some t) other = some u at held
    by_cases same : other = mutex
    · rw [same, Function.update_self] at held
      rw [same, ← Option.some.inj held] at left
      exact absurd (unleft.symm.trans left) nofun
    · rw [Function.update_of_ne same] at held
      exact unheld held
  | unlockMutex at_t held =>
    exact (ok u).kept rfl (fun _ => id) id fun _ held => held_before held nofun
  | wait at_t _ | notify at_t | created at_t _ | notCreated at_t | leftBehind at_t _
  | pushed at_t _ | full at_t | notUnlockedMutex at_t _ | notUnlocked at_t _
  | timedOut at_t _ _ | threw at_t _ | again at_t _ | ended at_t | removed at_t | abandoned at_t
  | popped at_t _ | notPopped at_t _ _ | drained at_t _ | opened at_t _ | notOpened at_t _ =>
    refine LeftOk.quiet ok at_t ?_ ?_ ?_ ?_ u
    · exact ⟨rfl, rfl, rfl, rfl, rfl⟩
    all_goals simp [Phase.holds, Phase.entered, Phase.lost]
  | written at_t _ | notWritten at_t _ =>
    refine LeftOk.quiet ok at_t ?_ ?_ ?_ ?_ u
    · exact ⟨rfl, rfl, rfl, rfl, rfl⟩
    all_goals split_ifs <;> simp [Phase.holds, Phase.entered, Phase.lost]
  | read at_t _ _ _ reads =>
    refine LeftOk.quiet ok at_t ?_ ?_ ?_ ?_ u
    · exact ⟨rfl, rfl, rfl, rfl, rfl⟩
    all_goals rcases reads with same | ⟨_, same⟩ | ⟨_, same⟩ <;> rw [same] <;>
      simp [Phase.holds, Phase.entered, Phase.lost]
  | @lockedWait t call environment at_t free unleft
  | @lockedNotify t call environment at_t free unleft =>
    refine LeftOk.advances ok ?_ ?_ ?_ u
    · rfl
    · intro u other phase own
      refine own.kept rfl (fun _ => id) ?_ fun _ => id
      exact fun held => absurd (Option.some.inj held).symm other
    · refine ⟨fun _ => rfl, fun left => absurd (unleft.symm.trans left) nofun, ?_⟩
      exact fun mutex left => ⟨((at_phase at_t).mutex mutex left).1, nofun⟩
  | notLockedWait at_t throws | notLockedNotify at_t throws | notRelocked at_t throws =>
    obtain ⟨_, same⟩ := throws.same
    refine LeftOk.advances ok (by rw [same]) ?_ ?_ u
    · exact fun u other phase own => own.other_throws other throws
    · exact (at_phase at_t).queue_throws rfl throws rfl rfl
  | @unlockedMutex t call toRead environment at_t =>
    have owned := (known at_t).2
    refine LeftOk.advances ok ?_ ?_ ?_ u
    · rfl
    · exact fun u other phase own =>
        own.kept rfl (fun _ => id) id fun _ held => held_before held nofun
    · refine ⟨(at_phase at_t).holder, (at_phase at_t).queue, ?_⟩
      intro mutex left
      have unheld := ((at_phase at_t).mutex mutex left).1
      have freed : Function.update state.mutexes call.mutex none mutex ≠ some t :=
        fun held => unheld (held_before held nofun)
      refine ⟨freed, ?_⟩
      intro given
      rw [← Option.some.inj given] at unheld
      exact unheld owned
  | unlocked at_t _ =>
    refine LeftOk.advances ok ?_ ?_ ?_ u
    · rfl
    · exact fun u other phase own => own.kept rfl (fun _ => id) nofun fun _ => id
    · exact ⟨nofun, (at_phase at_t).queue, (at_phase at_t).mutex⟩
  | unwound at_t =>
    refine LeftOk.advances ok ?_ ?_ ?_ u
    · rfl
    · exact fun u other phase own => own.kept rfl (fun _ => id) nofun fun _ => id
    · exact ⟨nofun, fun _ => rfl, fun mutex left => ⟨((at_phase at_t).mutex mutex left).1, nofun⟩⟩
  | @relocked t call toRead result environment at_t free unleft flocks =>
    refine LeftOk.advances ok ?_ ?_ ?_ u
    · rfl
    · intro u other phase own
      refine own.kept rfl (fun _ => id) ?_ fun _ => id
      exact fun held => absurd (Option.some.inj held).symm other
    · exact ⟨fun _ => rfl, fun left => absurd (unleft.symm.trans left) nofun,
        (at_phase at_t).mutex⟩
  | @relockedMutex t call toRead result environment at_t free unleft flocks =>
    refine LeftOk.advances ok ?_ ?_ ?_ u
    · rfl
    · intro u other phase own
      refine own.kept rfl (fun _ => id) id fun _ held => held_before held ?_
      exact fun owner => other (Option.some.inj owner).symm
    · refine ⟨(at_phase at_t).holder, (at_phase at_t).queue, ?_⟩
      intro mutex left
      refine ⟨?_, nofun⟩
      intro held
      change Function.update state.mutexes call.mutex (some t) mutex = some t at held
      by_cases same : mutex = call.mutex
      · rw [same] at left
        exact absurd (unleft.symm.trans left) nofun
      · rw [Function.update_of_ne same] at held
        exact ((at_phase at_t).mutex mutex left).1 held
  | @notRelockedMutex t call toRead result message next environment at_t throws =>
    obtain ⟨_, same⟩ := throws.same
    have own := at_phase at_t
    refine LeftOk.advances ok (by rw [same]) ?_ ?_ u
    · exact fun u other phase own => own.other_throws other throws
    · cases throws with
      | deadlocks _ =>
        exact ⟨own.holder, own.queue, fun mutex left => ⟨(own.mutex mutex left).1, nofun⟩⟩
      | flockFails _ _ =>
        refine ⟨own.holder, fun left => own.queue ?_, fun mutex left => ⟨?_, nofun⟩⟩
        · change Function.update state.left (some call.mutex, state.process t) (some t)
            (none, state.process t) = some t at left
          rwa [Function.update_of_ne (by simp)] at left
        · by_cases itself : mutex = call.mutex
          · rw [itself]
            exact (known at_t).2
          · change Function.update state.left (some call.mutex, state.process t) (some t)
              (some mutex, state.process t) = some t at left
            rw [Function.update_of_ne (by simp [itself])] at left
            exact (own.mutex mutex left).1

end Steps

/-- In every run that is known of the threads. -/
theorem reachable_sound {itemSize : Word32} {pair : State × Waits}
    (reached : (recordedWaits itemSize).Reachable pair) :
    pair.1.Sound pair.2 ∧ ∀ u, LeftOk pair.1 u (pair.1.threads u) := by
  apply reached.invariant
  · intro (state, waits) starts
    obtain ⟨⟨_, free, _, unleft, outside⟩, none⟩ := starts
    change waits = _ at none
    constructor
    · intro t
      show (state.threads t).Sound state.mutexes (waits t) t
      rw [outside t, none]
      rfl
    · intro t
      have nobody : ∀ lock, state.left lock ≠ some t := by
        intro lock left
        rw [unleft lock] at left
        cases left
      refine ⟨?_, fun left => absurd left (nobody _), fun _ left => absurd left (nobody _)⟩
      intro held
      rw [free] at held
      cases held
  · intro before event after _ ⟨sound, ok⟩ stepped
    obtain ⟨taken, added⟩ := System.recording_step.mp stepped
    have moved := step_moved taken
    rw [added]
    exact ⟨moved.sound ok sound, moved.leftOk ok sound⟩

/-- The call of a thread ends by a step. -/
def Leaves (state : State) (t : ThreadId) (after : State) : Prop :=
  state.threads t ≠ .outside ∧ after.threads t = .outside

/-- The mutex of the caller is owned by its thread, which does not hold the queue mutex. -/
def State.Regained (state : State) (t : ThreadId) (mutex : MutexId) : Prop :=
  state.mutexes mutex = some t ∧ state.queueMutex ≠ some t

section Leaves

variable {queue : Queue} {state next after : State} {t u : ThreadId} {phase : Phase}

/-- A call ends only by the step of its own thread, and only if that goes outside. -/
theorem Leaves.goes (leaves : Leaves state t (next.goes u phase))
    (threads : next.threads = state.threads) : t = u ∧ phase = .outside := by
  obtain ⟨entered, left⟩ := leaves
  by_cases same : t = u
  · rw [same, State.goes_self] at left
    exact ⟨same, left⟩
  · rw [State.goes_other _ _ same, threads] at left
    exact absurd left entered

/-- The steps with which calls end. -/
theorem Moved.leaves {event : Event} (moved : Moved queue state event after)
    (leaves : Leaves state t after) :
    ((∃ call, state.threads t = .lockingWait call) ∨
      ∃ all, state.threads t = .lockingNotify all) ∨
    (∃ outcome, state.threads t = .abandoning outcome ∧ after.mutexes = state.mutexes) ∨
      ∃ outcome, state.threads t = .unwinding outcome ∧ after.mutexes = state.mutexes ∧
        after.queueMutex = none := by
  cases moved with
  | lockMutex at_t _ _ | unlockMutex at_t _ => exact absurd leaves.2 leaves.1
  | notLockedWait at_u throws =>
    obtain ⟨left, next⟩ := throws.same
    rw [next] at leaves
    obtain ⟨same, _⟩ := leaves.goes rfl
    rw [same]
    exact Or.inl (Or.inl ⟨_, at_u⟩)
  | notLockedNotify at_u throws =>
    obtain ⟨left, next⟩ := throws.same
    rw [next] at leaves
    obtain ⟨same, _⟩ := leaves.goes rfl
    rw [same]
    exact Or.inl (Or.inr ⟨_, at_u⟩)
  | notRelocked at_u throws | notRelockedMutex at_u throws =>
    obtain ⟨left, next⟩ := throws.same
    rw [next] at leaves
    cases (leaves.goes rfl).2
  | abandoned at_u =>
    obtain ⟨same, _⟩ := leaves.goes rfl
    rw [same]
    exact Or.inr (Or.inl ⟨_, at_u, rfl⟩)
  | unwound at_u =>
    obtain ⟨same, _⟩ := leaves.goes rfl
    rw [same]
    exact Or.inr (Or.inr ⟨_, at_u, rfl, rfl⟩)
  | written | notWritten =>
    have left := (leaves.goes rfl).2
    split_ifs at left
  | read at_u _ _ _ reads =>
    have left := (leaves.goes rfl).2
    rcases reads with same | ⟨_, same⟩ | ⟨_, same⟩ <;> rw [same] at left <;> cases left
  | _ => cases (leaves.goes rfl).2

end Leaves

/-- A wait that has enqueued its thread ends with the mutex of its caller, and without the queue
mutex, exactly if none of its reads has failed, nor a `flock` while it had given the mutex of its
caller back. -/
theorem regained_iff {itemSize : Word32} {pair : State × Waits}
    (reached : (recordedWaits itemSize).Reachable pair) {event : Event} {after : State}
    (stepped : (conditionVariable itemSize).step pair.1 event = some after) {t : ThreadId}
    {enqueued : Enqueued} (inside : pair.2 t = some enqueued) (leaves : Leaves pair.1 t after) :
    after.Regained t enqueued.call.mutex ↔ enqueued.failed = false := by
  have sound := (reachable_sound reached).1 t
  unfold State.Regained
  rcases (step_moved stepped).leaves leaves with
    (⟨call, at_t⟩ | ⟨all, at_t⟩) | ⟨outcome, at_t, mutexes⟩ | ⟨outcome, at_t, mutexes, free⟩
  · rw [at_t] at sound
    exact absurd (inside.symm.trans sound.1) nofun
  · rw [at_t] at sound
    exact absurd (inside.symm.trans sound) nofun
  · rw [at_t] at sound
    obtain ⟨call, failed, lost⟩ := sound
    rw [inside] at failed
    rw [Option.some.inj failed, mutexes]
    exact iff_of_false (fun regained => lost regained.1) nofun
  · rw [at_t] at sound
    rw [mutexes, free, sound enqueued inside]
    exact and_iff_left nofun

theorem recorded_initial : (recordedWaits 4).initial (start, fun _ => none) :=
  ⟨start_initial, rfl⟩

/-- Thread 1 has called `Wait` and waits. -/
def waitingRun : List Event :=
  [Event.lockMutex 1 0, Event.wait 1 ⟨0, false⟩] ++ turns 1 5

/-- The last step of the call. -/
def lastStep : Event :=
  .advance 1 ⟨.succeeds, true, .bytes 4, true, true⟩

/-- Thread 2 notifies it, and it is about to return. -/
def returningRun : List Event :=
  waitingRun ++ [Event.notify 2 false] ++ turns 2 5 ++ turns 1 5

theorem returningRun_replays :
    ((recordedWaits 4).replay (start, fun _ => none) returningRun).isSome = true := by
  decide +kernel

def returning : State × Waits :=
  ((recordedWaits 4).replay (start, fun _ => none) returningRun).get returningRun_replays

theorem returning_steps : ((conditionVariable 4).step returning.1 lastStep).isSome = true := by
  decide +kernel

def returned : State := ((conditionVariable 4).step returning.1 lastStep).get returning_steps

theorem regained_iff_returned : returned.Regained 1 0 := by
  have inside : returning.2 1 = some ⟨⟨0, false⟩, false⟩ := by decide +kernel
  have leaves : Leaves returning.1 1 returned := ⟨by decide +kernel, by decide +kernel⟩
  exact (regained_iff (System.Reachable.of_replay recorded_initial returningRun_replays)
    (Option.some_get returning_steps).symm inside leaves).mpr rfl

/-- A read of its pipe fails, and it is about to throw. -/
def throwingRun : List Event :=
  waitingRun ++ [Event.advance 1 ⟨.succeeds, true, .pollFails, true, true⟩]

theorem throwingRun_replays :
    ((recordedWaits 4).replay (start, fun _ => none) throwingRun).isSome = true := by
  decide +kernel

def throwing : State × Waits :=
  ((recordedWaits 4).replay (start, fun _ => none) throwingRun).get throwingRun_replays

theorem throwing_steps : ((conditionVariable 4).step throwing.1 lastStep).isSome = true := by
  decide +kernel

def thrown : State := ((conditionVariable 4).step throwing.1 lastStep).get throwing_steps

/-- The wait that throws has enqueued its thread, and ends without the mutex of its caller. -/
theorem thrown_without_mutex :
    (recordedWaits 4).Reachable throwing ∧ throwing.2 1 = some ⟨⟨0, false⟩, true⟩ ∧
    (conditionVariable 4).step throwing.1 lastStep = some thrown ∧ Leaves throwing.1 1 thrown ∧
    ¬ thrown.Regained 1 0 :=
  ⟨System.Reachable.of_replay recorded_initial throwingRun_replays, by decide +kernel,
    (Option.some_get throwing_steps).symm, ⟨by decide +kernel, by decide +kernel⟩,
    fun regained => absurd regained.1 (by decide +kernel)⟩

end Azul.Ipc.Darwin
