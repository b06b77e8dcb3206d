import Azul.Ipc.DarwinPipes

/-!
# Whom the notifications of the `darwin` condition variable reach

A notifier opens the pipe of the thread that it has dequeued, and throws if that pipe is gone; the
threads that are still in the queue then are not notified. In a run that does not disturb a
notification every pipe is there, so that `NotifyAll` writes to each thread that was blocked when it
took the queue mutex. A history keeps these threads and those written to.
-/

namespace Azul.Ipc.Darwin

open Azul.Foundation Operation

/-- What a notifier that has taken the queue mutex does. -/
structure Notification where
  all : Bool
  /-- The threads that were blocked in a read when it took the mutex. -/
  blocked : ThreadId → Bool
  /-- The threads whose pipes it has written a message to. -/
  written : List ThreadId

/-- The notifiers that hold the queue mutex, or have given it back and not returned. -/
abbrev Notifications := ThreadId → Option Notification

/-- A thread waits for its pipe to have something to read. -/
def State.blocked (state : State) (t : ThreadId) : Bool :=
  match state.threads t with
  | .reading _ _ => (state.fifos t).getD 0 == 0
  | _ => false

/-- A message is written to a pipe. -/
def State.receives (state : State) (id : ThreadId) (environment : Environment) : Bool :=
  (state.fifos id).isSome && environment.writes

/-- The notification of a thread after a step of it. -/
def Notification.after (notification : Option Notification) (state : State)
    (environment : Environment) : Phase → Phase → Option Notification
  | _, .outside => none
  | .lockingNotify all, .notifying _ =>
    some { all := all, blocked := state.blocked, written := [] }
  | .writing _ id, _ =>
    notification.map fun before =>
      if state.receives id environment then
        { before with written := id :: before.written }
      else
        before
  | _, _ => notification

/-- The notifications after a step. -/
def Notifications.record (state : State) (event : Event) (after : State)
    (notifications : Notifications) : Notifications :=
  match event with
  | .advance t environment =>
    Function.update notifications t
      (Notification.after (notifications t) state environment (state.threads t) (after.threads t))
  | _ => notifications

/-- The objects of one name in a run that does not disturb a notification, with what the notifiers
do. -/
def recordedNotifications (itemSize : Word32) : System (State × Notifications) Event :=
  ((conditionVariable itemSize).under (Event.Undisturbed (threadQueue itemSize))).recording
    (fun _ => none) Notifications.record

/-- The threads that were blocked have been written to, or are among others. -/
def Notification.Reaches (notification : Notification) (others : ThreadId → Prop) : Prop :=
  notification.all = true →
    ∀ id, notification.blocked id = true → id ∈ notification.written ∨ others id

/-- What is known of a thread that notifies, by its phase. -/
def Phase.Notifies (contents : List ThreadId) (notification : Option Notification) : Phase → Prop
  | .notifying all =>
    ∃ current, notification = some current ∧ current.all = all ∧ current.Reaches (· ∈ contents)
  | .opening all id | .writing all id =>
    ∃ current, notification = some current ∧ current.all = all ∧
      current.Reaches fun other => other ∈ contents ∨ other = id
  | .unwinding outcome =>
    ∀ current, notification = some current → outcome = .returned ∧
      (current.all = true → contents = []) ∧ current.Reaches fun _ => False
  | _ => notification = none

section Steps

variable {queue : Queue} {state next after : State} {notifications : Notifications} {t : ThreadId}
  {phase : Phase}

/-- What is known of all threads that notify. -/
def State.Notifies (queue : Queue) (state : State) (notifications : Notifications) : Prop :=
  ∀ t, (state.threads t).Notifies (state.memory.contents queue.size) (notifications t)

/-- A thread that does not hold the queue mutex does not look at the queue. -/
theorem Phase.Notifies.kept {contents contents' : List ThreadId}
    {notification : Option Notification} (notifies : phase.Notifies contents notification)
    (same : phase.holds = true → contents' = contents) : phase.Notifies contents' notification := by
  cases phase with
  | notifying | opening | writing | unwinding =>
    rw [same rfl]
    exact notifies
  | _ => exact notifies

/-- A step of a thread that may change the queue only if it holds the queue mutex. -/
theorem State.Notifies.advances (notifies : state.Notifies queue notifications)
    (ok : Ok queue state) {environment : Environment} (threads : next.threads = state.threads)
    (memory : next.memory = state.memory ∨ (state.threads t).holds = true)
    (own : phase.Notifies (next.memory.contents queue.size)
      (Notification.after (notifications t) state environment (state.threads t) phase)) :
    (next.goes t phase).Notifies queue
      (Notifications.record state (.advance t environment) (next.goes t phase) notifications) := by
  intro u
  unfold Notifications.record
  dsimp only
  rw [State.goes_self]
  by_cases same : u = t
  · rw [same, State.goes_self, Function.update_self]
    exact own
  · rw [State.goes_other _ _ same, Function.update_of_ne same, threads]
    refine (notifies u).kept ?_
    intro holds
    rcases memory with kept | own_holds
    · show next.memory.contents queue.size = _
      rw [kept]
    · exact absurd (ok.holder_unique holds own_holds) same

/-- A step of a thread that does not notify. -/
theorem State.Notifies.apart (notifies : state.Notifies queue notifications) (ok : Ok queue state)
    {environment : Environment} (threads : next.threads = state.threads)
    (memory : next.memory = state.memory ∨ (state.threads t).holds = true)
    (silent : notifications t = none)
    (unchanged : Notification.after none state environment (state.threads t) phase = none)
    (own : phase.Notifies (next.memory.contents queue.size) none) :
    (next.goes t phase).Notifies queue
      (Notifications.record state (.advance t environment) (next.goes t phase) notifications) := by
  refine notifies.advances ok threads memory ?_
  rw [silent, unchanged]
  exact own

/-- The threads that are blocked while the queue mutex is free are in the queue. -/
theorem Ok.blocked_listed (ok : Ok queue state) (free : state.queueMutex = none) {id : ThreadId}
    (blocked : state.blocked id = true) : id ∈ state.memory.contents queue.size := by
  unfold State.blocked at blocked
  split at blocked
  · rename_i call toRead at_id
    have own : PhaseOk queue state id (.reading call toRead) := at_id ▸ ok.phases id
    by_contra absent
    have arrived : ¬ state.Pending queue id := by
      rintro (member | ⟨n, notified⟩)
      · exact absent member
      · have holds := Phase.holds_of_notified notified
        rw [ok.free free n] at holds
        cases holds
    have all := own.sent toRead rfl arrived
    have more := own.more toRead rfl rfl
    have empty := eq_of_beq blocked
    rw [all] at empty
    change toRead = 0 at empty
    omega
  · cases blocked

/-- Every step keeps what is known of the threads that notify. -/
theorem Moved.notifies {event : Event} (room : 3 * queue.size.toNat ≤ 2 ^ 32) (ok : Ok queue state)
    (undisturbed : event.Undisturbed queue state) (notifies : state.Notifies queue notifications)
    (moved : Moved queue state event after) :
    after.Notifies queue (Notifications.record state event after notifications) := by
  have at_phase : ∀ {u phase}, state.threads u = phase →
      phase.Notifies (state.memory.contents queue.size) (notifications u) := by
    intro u phase at_u
    rw [← at_u]
    exact notifies u
  have gone : ∀ {contents : List ThreadId} {outcome : Outcome},
      (Phase.unwinding outcome).Notifies contents none := fun _ => nofun
  cases moved with
  | lockMutex at_t _ _ | unlockMutex at_t _ => exact notifies
  | @wait t call at_t held =>
    intro u
    show ((state.goes t _).threads u).Notifies _ (notifications u)
    by_cases same : u = t
    · have silent := at_phase at_t
      rw [same, State.goes_self]
      exact silent
    · rw [State.goes_other _ _ same]
      exact notifies u
  | @notify t all at_t =>
    intro u
    show ((state.goes t _).threads u).Notifies _ (notifications u)
    by_cases same : u = t
    · have silent := at_phase at_t
      rw [same, State.goes_self]
      exact silent
    · rw [State.goes_other _ _ same]
      exact notifies u
  | lockedWait at_t _ _ | created at_t _ | unlockedMutex at_t | notUnlockedMutex at_t _
  | unlocked at_t _ | notUnlocked at_t _ | timedOut at_t _ _ | threw at_t _ | relocked at_t _ _ _
  | relockedMutex at_t _ _ _ | again at_t _ | ended at_t | full at_t | abandoned at_t =>
    have silent := at_phase at_t
    exact notifies.apart ok rfl (Or.inl rfl) silent (by rw [at_t]; rfl) rfl
  | notLockedWait at_t throws | notLockedNotify at_t throws | notRelocked at_t throws
  | notRelockedMutex at_t throws =>
    have silent := at_phase at_t
    obtain ⟨left, same⟩ := throws.same
    rw [same]
    exact notifies.apart ok rfl (Or.inl rfl) silent (by rw [at_t]; rfl) rfl
  | notCreated at_t | leftBehind at_t _ | removed at_t =>
    have silent := at_phase at_t
    exact notifies.apart ok rfl (Or.inl rfl) silent (by rw [at_t]; rfl) gone
  | @pushed t call run environment at_t pushes =>
    have silent := at_phase at_t
    exact notifies.apart ok rfl (Or.inr (by rw [at_t]; rfl)) silent (by rw [at_t]; rfl) rfl
  | @read t call toRead count phase environment at_t bytes some_count enough reads =>
    have silent := at_phase at_t
    rcases reads with same | ⟨_, same⟩ | ⟨_, same⟩
    · rw [same]
      exact notifies.apart ok rfl (Or.inl rfl) silent (by rw [at_t]; rfl) rfl
    · rw [same]
      exact notifies.apart ok rfl (Or.inl rfl) silent (by rw [at_t]; rfl) rfl
    · rw [same]
      exact notifies.apart ok rfl (Or.inl rfl) silent (by rw [at_t]; rfl) rfl
  | @lockedNotify t all environment at_t free _ =>
    refine notifies.advances ok rfl (Or.inl rfl) ?_
    rw [at_t]
    refine ⟨{ all := all, blocked := state.blocked, written := [] }, rfl, rfl, ?_⟩
    intro _ id blocked
    exact Or.inr (ok.blocked_listed free blocked)
  | @popped t all id run environment at_t pops =>
    obtain ⟨current, notifying, same, reaches⟩ := at_phase at_t
    refine notifies.advances ok rfl (Or.inr (by rw [at_t]; rfl)) ?_
    rw [at_t]
    refine ⟨current, notifying, same, ?_⟩
    intro whole other blocked
    rcases reaches whole other blocked with written | member
    · exact Or.inl written
    · rw [(Win32.popped_contents room ok.valid pops).2] at member
      rcases List.mem_cons.mp member with first | rest
      · exact Or.inr (Or.inr first)
      · exact Or.inr (Or.inl rest)
  | @notPopped t all message run environment at_t available throws =>
    have taken : ∃ id run, (takeFront queue).perform _ = (.ok id, run) :=
      takeFront_succeeds available
    obtain ⟨id, popped, succeeds⟩ := taken
    rw [succeeds] at throws
    cases throws
  | @drained t all environment at_t empty =>
    obtain ⟨current, notifying, same, reaches⟩ := at_phase at_t
    have none_left : state.memory.contents queue.size = [] := by
      apply List.eq_nil_of_length_eq_zero
      have zero : ¬ 0 < state.memory.count.toNat := empty
      rw [Memory.contents_length]
      omega
    refine notifies.advances ok rfl (Or.inl rfl) ?_
    rw [at_t]
    intro other now
    have unchanged : notifications t = some other := now
    rw [notifying] at unchanged
    rw [← Option.some.inj unchanged]
    refine ⟨rfl, fun _ => none_left, ?_⟩
    intro whole id blocked
    rcases reaches whole id blocked with written | member
    · exact Or.inl written
    · rw [none_left] at member
      exact absurd member List.not_mem_nil
  | @opened t all id environment at_t exists_id =>
    have before := at_phase at_t
    refine notifies.advances ok rfl (Or.inl rfl) ?_
    rw [at_t]
    exact before
  | @notOpened t all id message environment at_t fails =>
    have own : PhaseOk queue state t (.opening all id) := at_t ▸ ok.phases t
    unfold Event.Undisturbed at undisturbed
    simp only [at_t] at undisturbed
    exact absurd ⟨(ok.phases id).pipe (own.notified id rfl).2, undisturbed⟩ fails
  | @written t all id environment at_t writes =>
    obtain ⟨current, notifying, same, reaches⟩ := at_phase at_t
    have own : PhaseOk queue state t (.writing all id) := at_t ▸ ok.phases t
    have receives : state.receives id environment = true := by
      unfold State.receives
      rw [writes, (ok.phases id).pipe (own.notified id rfl).2]
      rfl
    have added : ∀ phase, phase ≠ .outside →
        Notification.after (notifications t) state environment (.writing all id) phase =
          some { current with written := id :: current.written } := by
      intro phase inside
      rw [notifying]
      cases phase with
      | outside => exact absurd rfl inside
      | _ =>
        show some (if state.receives id environment then _ else _) = _
        rw [receives]
        rfl
    have reached : Notification.Reaches { current with written := id :: current.written }
        (· ∈ state.memory.contents queue.size) := by
      intro whole other blocked
      rcases reaches whole other blocked with written | member | first
      · exact Or.inl (List.mem_cons_of_mem id written)
      · exact Or.inr member
      · rw [first]
        exact Or.inl List.mem_cons_self
    refine notifies.advances ok rfl (Or.inl rfl) ?_
    rw [at_t]
    cases all with
    | true =>
      rw [if_pos rfl, added (.notifying true) nofun]
      exact ⟨_, rfl, same, reached⟩
    | false =>
      rw [if_neg Bool.false_ne_true, added (.unwinding .returned) nofun]
      intro other now
      rw [← Option.some.inj now]
      have one : current.all ≠ true := by
        rw [same]
        exact Bool.false_ne_true
      exact ⟨rfl, fun whole => absurd whole one, fun whole => absurd whole one⟩
  | @notWritten t all id environment at_t fails =>
    unfold Event.Undisturbed at undisturbed
    simp only [at_t] at undisturbed
    rw [undisturbed] at fails
    cases fails
  | @unwound t outcome environment at_t =>
    refine notifies.advances ok rfl (Or.inl rfl) ?_
    rw [at_t]
    rfl

end Steps

/-- In every such run that is known of the threads. -/
theorem reachable_notifies {itemSize : Word32} {pair : State × Notifications}
    (reached : (recordedNotifications itemSize).Reachable pair) :
    Ok (threadQueue itemSize) pair.1 ∧ pair.1.Notifies (threadQueue itemSize) pair.2 := by
  refine ⟨reachable_ok reached.erased, ?_⟩
  apply reached.invariant
  · intro (state, notifications) starts t
    obtain ⟨⟨_, _, _, _, outside⟩, none⟩ := starts
    change notifications = _ at none
    show (state.threads t).Notifies _ (notifications t)
    rw [outside t, none]
    rfl
  · intro before event after reached notifies stepped
    obtain ⟨taken, added⟩ := System.recording_step.mp stepped
    obtain ⟨undisturbed, taken⟩ := System.under_step.mp taken
    rw [added]
    exact (step_moved taken).notifies (threadQueue_room itemSize) (reachable_ok reached.erased)
      undisturbed notifies

/-! ## Returning -/

namespace Phase

/-- The thread has taken the queue mutex and notifies, or gives it back, or has returned. -/
def inNotify : Phase → Bool
  | notifying _ | opening _ _ | writing _ _ | unwinding _ | outside => true
  | _ => false

/-- How many steps a thread that notifies still takes at most. -/
def steps (listed : Nat) : Phase → Nat
  | notifying _ => 3 * listed + 2
  | opening _ _ => 3 * listed + 4
  | writing _ _ => 3 * listed + 3
  | unwinding _ => 1
  | _ => 0

end Phase

/-- A pipe that exists is opened, and takes the message. -/
def succeeding : Environment := ⟨.succeeds, true, .timeout, true, true⟩

section Returning

variable {queue : Queue} {state : State} {t : ThreadId}

/-- A notifier always has a next step. -/
theorem Ok.notifier_steps (room : 3 * queue.size.toNat ≤ 2 ^ 32) (ok : Ok queue state)
    (notifying : (state.threads t).inNotify = true) :
    state.threads t = .outside ∨ ∃ after,
      ((Event.advance t succeeding).Undisturbed queue state ∧
        state.step queue (.advance t succeeding) = some after) ∧
      (after.threads t).inNotify = true ∧
      (after.threads t).steps (after.memory.contents queue.size).length <
        (state.threads t).steps (state.memory.contents queue.size).length := by
  unfold Event.Undisturbed
  show _ ∨ ∃ after, (_ ∧ state.advance queue t succeeding = some after) ∧ _
  unfold State.advance
  cases at_t : state.threads t with
  | outside => exact Or.inl rfl
  | notifying all =>
    right
    simp only [at_t]
    by_cases available : 0 < state.memory.count
    · have front : ∃ id run, (takeFront queue).perform _ = (.ok id, run) :=
        takeFront_succeeds available
      obtain ⟨id, run, pops⟩ := front
      have taken := (Win32.popped_contents room ok.valid pops).2
      have shorter : (state.memory.contents queue.size).length =
          (run.memory.contents queue.size).length + 1 := by
        rw [taken, List.length_cons]
      unfold takeFront at pops
      refine ⟨{ state with memory := run.memory }.goes t (.opening all id), ⟨trivial, ?_⟩, ?_, ?_⟩
      · rw [if_pos available, pops]
      · rw [State.goes_self]
        rfl
      · rw [State.goes_self, shorter]
        show 3 * (run.memory.contents queue.size).length + 4 < 3 * (_ + 1) + 2
        omega
    · refine ⟨state.goes t (.unwinding .returned), ⟨trivial, ?_⟩, ?_, ?_⟩
      · rw [if_neg available]
      · rw [State.goes_self]
        rfl
      · rw [State.goes_self]
        show 1 < 3 * _ + 2
        omega
  | opening all id =>
    right
    have own : PhaseOk queue state t (.opening all id) := at_t ▸ ok.phases t
    have opens := (ok.phases id).pipe (own.notified id rfl).2
    simp only [at_t]
    refine ⟨state.goes t (.writing all id), ⟨rfl, ?_⟩, ?_, ?_⟩
    · exact if_pos ⟨opens, rfl⟩
    · rw [State.goes_self]
      rfl
    · rw [State.goes_self]
      show 3 * (state.memory.contents queue.size).length + 3 < 3 * _ + 4
      omega
  | writing all id =>
    right
    simp only [at_t]
    refine ⟨_, ⟨rfl, rfl⟩, ?_, ?_⟩
    · rw [State.goes_self]
      cases all with
      | true | false => rfl
    · rw [State.goes_self]
      cases all with
      | true =>
        show 3 * (state.memory.contents queue.size).length + 2 < 3 * _ + 3
        omega
      | false =>
        show 1 < 3 * (state.memory.contents queue.size).length + 3
        omega
  | unwinding outcome =>
    right
    simp only [at_t]
    refine ⟨_, ⟨trivial, rfl⟩, ?_, ?_⟩
    · rw [State.goes_self]
      rfl
    · rw [State.goes_self]
      exact Nat.one_pos
  | _ =>
    rw [at_t] at notifying
    cases notifying

end Returning

/-- A thread with a notification notifies. -/
theorem Phase.Notifies.inNotify {contents : List ThreadId} {phase : Phase}
    {notification : Notification} (notifies : phase.Notifies contents (some notification)) :
    phase.inNotify = true := by
  cases phase with
  | notifying | opening | writing | unwinding => rfl
  | _ => cases notifies

/-- In a run that does not disturb a notification no notifier throws, `NotifyAll` leaves the queue
empty and has written to every thread that was blocked when it took the queue mutex, and a notifier
that has taken the queue mutex returns. -/
theorem notifiers_return {itemSize : Word32} {pair : State × Notifications}
    (reached : (recordedNotifications itemSize).Reachable pair) {t : ThreadId}
    {notification : Notification} (notifies : pair.2 t = some notification) :
    (∀ outcome, pair.1.threads t = .unwinding outcome → outcome = .returned ∧
      (notification.all = true →
        pair.1.memory.contents (threadQueue itemSize).size = [] ∧
          ∀ id, notification.blocked id = true → id ∈ notification.written)) ∧
    ∃ steps last, (recordedNotifications itemSize).replay pair
        (List.replicate steps (.advance t succeeding)) = some last ∧
      last.1.threads t = .outside := by
  have known := (reachable_notifies reached).2 t
  rw [notifies] at known
  constructor
  · intro outcome at_t
    rw [at_t] at known
    obtain ⟨returned, empty, reaches⟩ := known notification rfl
    refine ⟨returned, fun whole => ⟨empty whole, ?_⟩⟩
    intro id blocked
    exact (reaches whole id blocked).resolve_right not_false
  · let running (pair : State × Notifications) : Prop :=
      (recordedNotifications itemSize).Reachable pair ∧ (pair.1.threads t).inNotify = true
    let done (pair : State × Notifications) : Prop := pair.1.threads t = .outside
    let left (pair : State × Notifications) : Nat :=
      (pair.1.threads t).steps (pair.1.memory.contents (threadQueue itemSize).size).length
    have advances : ∀ pair, running pair → done pair ∨ ∃ next,
        (recordedNotifications itemSize).step pair (.advance t succeeding) = some next ∧
          running next ∧ left next < left pair := by
      intro pair ⟨reached, notifying⟩
      have goes :=
        (reachable_notifies reached).1.notifier_steps (threadQueue_room itemSize) notifying
      rcases goes with returned | ⟨after, ⟨undisturbed, stepped⟩, still, fewer⟩
      · exact Or.inl returned
      · have taken : (recordedNotifications itemSize).step pair (.advance t succeeding) =
            some (after, Notifications.record pair.1 (.advance t succeeding) after pair.2) :=
          System.recording_step.mpr ⟨System.under_step.mpr ⟨undisturbed, stepped⟩, rfl⟩
        exact Or.inr ⟨_, taken, ⟨reached.next taken, still⟩, fewer⟩
    obtain ⟨steps, last, replayed, _, returned⟩ :=
      System.replay_until advances pair ⟨reached, known.inNotify⟩
    exact ⟨steps, last, replayed, returned⟩

theorem recordedNotifications_initial :
    (recordedNotifications 4).initial (start, fun _ => none) :=
  ⟨start_initial, rfl⟩

/-- Threads 1 and 3 wait, the second one with a timeout, and thread 2 notifies all. -/
def notifiedRun : List Event :=
  [Event.lockMutex 1 0, Event.wait 1 ⟨0, false⟩] ++ turns 1 5 ++
    [Event.lockMutex 3 0, Event.wait 3 ⟨0, true⟩] ++ turns 3 5 ++
    [Event.notify 2 true] ++ turns 2 8

theorem notifiedRun_replays :
    ((recordedNotifications 4).replay (start, fun _ => none) notifiedRun).isSome = true := by
  decide +kernel

def notified : State × Notifications :=
  ((recordedNotifications 4).replay (start, fun _ => none) notifiedRun).get notifiedRun_replays

/-- What thread 2 has done when it is about to return. -/
theorem notified_done : (notified.2 2).isSome = true := by
  decide +kernel

theorem notifiers_return_notified :
    notified.1.memory.contents (threadQueue 4).size = [] ∧
      1 ∈ ((notified.2 2).get notified_done).written ∧
      3 ∈ ((notified.2 2).get notified_done).written := by
  have known := notifiers_return
    (System.Reachable.of_replay recordedNotifications_initial notifiedRun_replays)
    (Option.some_get notified_done).symm
  have unwinds : notified.1.threads 2 = .unwinding .returned := by decide +kernel
  obtain ⟨_, whole⟩ := known.1 .returned unwinds
  obtain ⟨empty, written⟩ := whole (by decide +kernel)
  exact ⟨empty, written 1 (by decide +kernel), written 3 (by decide +kernel)⟩

/-- The wait of thread 1 has timed out, thread 3 waits, and thread 2 has dequeued thread 1 in
`NotifyAll`. -/
def openingRun : List Event :=
  [Event.lockMutex 1 0, Event.wait 1 ⟨0, true⟩] ++ turns 1 5 ++
    [Event.advance 1 ⟨.succeeds, true, .timeout, true, true⟩] ++ turns 1 5 ++
    [Event.unlockMutex 1 0, Event.lockMutex 3 0, Event.wait 3 ⟨0, false⟩] ++ turns 3 5 ++
    [Event.notify 2 true] ++ turns 2 2

theorem openingRun_replays : ((conditionVariable 4).replay start openingRun).isSome = true := by
  decide +kernel

def opening : State := ((conditionVariable 4).replay start openingRun).get openingRun_replays

theorem opening_steps :
    ((conditionVariable 4).step opening (.advance 2 succeeding)).isSome = true := by
  decide +kernel

def unserved : State :=
  ((conditionVariable 4).step opening (.advance 2 succeeding)).get opening_steps

/-- `NotifyAll` throws at the pipe that is gone, and leaves a blocked thread in the queue. -/
theorem unserved_throws :
    (conditionVariable 4).Reachable opening ∧ opening.threads 2 = .opening true 1 ∧
    (conditionVariable 4).step opening (.advance 2 succeeding) = some unserved ∧
    unserved.threads 2 = .unwinding (.thrown "open of fifo failed: ") ∧
    unserved.blocked 3 = true ∧ unserved.memory.contents (threadQueue 4).size = [3] :=
  ⟨System.Reachable.of_replay start_initial openingRun_replays, by decide +kernel,
    (Option.some_get opening_steps).symm, by decide +kernel, by decide +kernel, by decide +kernel⟩

end Azul.Ipc.Darwin
