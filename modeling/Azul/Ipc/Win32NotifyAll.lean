import Azul.Ipc.Win32Waiters

/-!
# `NotifyAll` of the `win32` condition variable

Whatever has happened to the queue before, with timeouts and with ids that are left behind, a call
of `NotifyAll` that returns leaves the queue empty and every blocked thread with its semaphore
released. The calling thread holds the queue mutex all the while, so nobody keeps it from going on,
and it goes on for three steps for each id in the queue.
-/

namespace Azul.Ipc.Win32

open Azul.Foundation Operation

variable {queue : Queue} {state after : State} {t u : ThreadId}

/-- The wait of a blocked thread can end once its semaphore is released. -/
theorem State.Blocked.wakes (blocked : state.Blocked u) (count : state.counts u = 1) :
    (state.step queue (.advance u true .object0)).isSome = true := by
  obtain ⟨call, at_u⟩ := blocked
  show (state.advance queue u true .object0).isSome = true
  unfold State.advance
  rw [at_u]
  dsimp only
  rw [count, if_pos Nat.one_pos]
  rfl

/-- When the queue is empty and its mutex is not with a notifier that is about to signal somebody,
the semaphore of every blocked thread is released. -/
theorem Ok.released (ok : Ok queue state) (empty : state.memory.contents queue.size = [])
    (silent : ∀ n, state.queueMutex = some n → (state.threads n).signals = none)
    (blocked : state.Blocked u) : state.counts u = 1 := by
  obtain ⟨call, at_u⟩ := blocked
  have reaches := (ok.phases u).reached (by rw [at_u]; rfl)
  rcases reaches with member | count | ⟨n, held, signals⟩
  · rw [empty] at member
    exact absurd member List.not_mem_nil
  · exact count
  · rw [silent n held] at signals
    cases signals

/-- `GetSemaphore` returns if a semaphore can be created. -/
theorem State.getSemaphore_creates (state : State) (object : ObjectId) (id : ThreadId) :
    ∃ next, state.getSemaphore object id true = .ok next := by
  unfold State.getSemaphore
  split
  case isTrue => exact ⟨_, rfl⟩
  case isFalse =>
    split
    case isTrue => exact ⟨_, rfl⟩
    case isFalse => exact ⟨_, rfl⟩

/-! ## One turn of the loop -/

/-- `Front` and `Pop` of a notifier that finds an id in the queue. -/
theorem Ok.pops (room : 3 * queue.size.toNat ≤ 2 ^ 32) (ok : Ok queue state) {call : NotifyCall}
    (at_t : state.threads t = .notifying call) (available : 0 < state.memory.count) :
    ∃ (id : ThreadId) (run : Run ThreadId),
      state.memory.contents queue.size = id :: run.memory.contents queue.size ∧
      state.step queue (.advance t true .object0) =
        some ({ state with memory := run.memory }.goes t (.getting call id)) := by
  have pops : ∃ (id : ThreadId) (run : Run ThreadId), (do
      let id ← Queue.front
      queue.pop
      return id : Operation ThreadId ThreadId).perform (Run.new state.memory) = (.ok id, run) := by
    have at_front : 0 < (Run.new state.memory).memory.count := available
    have at_pop : 0 < ((Run.new state.memory).loaded
      [(Run.new state.memory).memory.readPosition.toNat]).memory.count := available
    rw [perform_bind (Queue.front_perform at_front)]
    change ∃ (id : ThreadId) (run : Run ThreadId), (queue.pop >>= _).perform _ = (.ok id, run)
    rw [perform_bind (Queue.pop_perform at_pop), perform_pure]
    exact ⟨_, _, rfl⟩
  obtain ⟨id, run, pops⟩ := pops
  refine ⟨id, run, (popped_contents room ok.valid pops).2, ?_⟩
  show state.advance queue t true .object0 = _
  unfold State.advance
  rw [at_t]
  dsimp only
  rw [if_pos available, pops]

/-- `GetSemaphore` of a notifier. -/
theorem State.gets {call : NotifyCall} {id : ThreadId} (at_t : state.threads t = .getting call id) :
    ∃ next, Gets state call.object id next ∧
      state.step queue (.advance t true .object0) = some (next.goes t (.releasing call id)) := by
  obtain ⟨next, got⟩ := state.getSemaphore_creates call.object id
  refine ⟨next, (Win32.got got).gets, ?_⟩
  show state.advance queue t true .object0 = _
  unfold State.advance
  rw [at_t]
  dsimp only
  rw [got]

/-- `ReleaseSemaphore` of `NotifyAll`. -/
theorem State.releases {call : NotifyCall} {id : ThreadId}
    (at_t : state.threads t = .releasing call id) (all : call.all = true) :
    state.step queue (.advance t true .object0) =
      some ((state.releaseSemaphore id).goes t (.notifying call)) := by
  show state.advance queue t true .object0 = _
  unfold State.advance
  rw [at_t]
  dsimp only
  rw [if_pos all]

/-- A notifier finds the queue empty. -/
theorem State.finishes {call : NotifyCall} (at_t : state.threads t = .notifying call)
    (done : ¬ 0 < state.memory.count) :
    state.step queue (.advance t true .object0) = some (state.goes t (.unwinding .returned)) := by
  show state.advance queue t true .object0 = _
  unfold State.advance
  rw [at_t]
  dsimp only
  rw [if_neg done]

/-- A notifier gives the queue mutex back. -/
theorem State.leaves {outcome : Outcome} (at_t : state.threads t = .unwinding outcome) :
    state.step queue (.advance t true .object0) =
      some ({ state with queueMutex := none }.goes t .outside) := by
  show state.advance queue t true .object0 = _
  unfold State.advance
  rw [at_t]

/-! ## The whole call -/

/-- A thread takes one of its turns. -/
theorem replay_turns {itemSize : Word32} {next : State}
    (stepped : state.step (threadQueue itemSize) (.advance t true .object0) = some next)
    (turnsLeft : Nat) :
    (conditionVariable itemSize).replay state (turns t (turnsLeft + 1)) =
      (conditionVariable itemSize).replay next (turns t turnsLeft) := by
  have taken : (conditionVariable itemSize).step state (.advance t true .object0) = some next :=
    stepped
  rw [turns, List.replicate_succ, System.replay, taken, Option.bind_some, turns]

/-- What a call of `NotifyAll` has done when it has returned. -/
structure NotifiedAll (queue : Queue) (state after : State) (t : ThreadId) : Prop where
  outside : after.threads t = .outside
  free : after.queueMutex = none
  empty : after.memory.contents queue.size = []
  others : ∀ u, u ≠ t → after.threads u = state.threads u
  ok : Ok queue after

/-- From its next test of `Count` on, a call of `NotifyAll` returns after three steps for each id in
the queue, and two more. -/
theorem Ok.notifies_all {itemSize : Word32} (ok : Ok (threadQueue itemSize) state)
    {call : NotifyCall} (at_t : state.threads t = .notifying call) (all : call.all = true)
    {count : Nat}
    (listed : (state.memory.contents (threadQueue itemSize).size).length = count) :
    ∃ after, (conditionVariable itemSize).replay state (turns t (3 * count + 2)) = some after ∧
      NotifiedAll (threadQueue itemSize) state after t := by
  have room := threadQueue_room itemSize
  induction count generalizing state with
  | zero =>
    have empty := List.length_eq_zero_iff.mp listed
    have done : ¬ 0 < state.memory.count := by
      intro available
      obtain ⟨id, run, first, _⟩ := ok.pops room at_t available
      rw [first] at empty
      cases empty
    have finishes : state.step (threadQueue itemSize) (.advance t true .object0) =
        some (state.goes t (.unwinding .returned)) := State.finishes at_t done
    have leaves : (state.goes t (.unwinding .returned)).step (threadQueue itemSize)
        (.advance t true .object0) =
          some ({ state.goes t (.unwinding .returned) with queueMutex := none }.goes t .outside) :=
      State.leaves (State.goes_self _ _ _)
    refine ⟨_, (replay_turns finishes 1).trans (replay_turns leaves 0), ?_⟩
    exact {
      outside := State.goes_self _ _ _
      free := rfl
      empty := empty
      others := fun u other => (State.goes_other _ _ other).trans (State.goes_other _ _ other)
      ok := (ok.moved room (step_moved finishes)).moved room (step_moved leaves) }
  | succ count ih =>
    have available : 0 < state.memory.count := by
      rw [Memory.contents_length] at listed
      show 0 < state.memory.count.toNat
      omega
    obtain ⟨id, run, first, pops⟩ := ok.pops room at_t available
    obtain ⟨next, gets, releasing⟩ := State.gets
      (State.goes_self { state with memory := run.memory } t (.getting call id))
    have releases : (next.goes t (.releasing call id)).step (threadQueue itemSize)
        (.advance t true .object0) = _ := State.releases (State.goes_self _ _ _) all
    have left := ((ok.moved room (step_moved pops)).moved room (step_moved releasing)).moved room
      (step_moved releases)
    have shorter : (run.memory.contents (threadQueue itemSize).size).length = count := by
      rw [first, List.length_cons] at listed
      exact Nat.succ.inj listed
    have memory : (next.goes t (.releasing call id)).memory = run.memory := gets.memory
    obtain ⟨after, replays, notified⟩ := ih left (State.goes_self _ _ _)
      (by rw [← shorter]; exact congrArg (fun m => (Memory.contents m _).length) memory)
    refine ⟨after, ?_, notified.outside, notified.free, notified.empty, ?_, notified.ok⟩
    · have more : 3 * (count + 1) + 2 = 3 * count + 2 + 1 + 1 + 1 := by omega
      rw [more, replay_turns pops, replay_turns releasing, replay_turns releases, replays]
    · intro u other
      rw [notified.others u other, State.goes_other _ _ other]
      change (next.goes t (.releasing call id)).threads u = state.threads u
      rw [State.goes_other _ _ other, gets.threads, State.goes_other _ _ other]

/-- Whenever a call of `NotifyAll` returns, the queue is empty and the wait of every thread that is
blocked can end, whatever has happened before and in between. And it returns: from where it tests
`Count` it needs only its own steps, three for each id in the queue and two more, after which every
thread that was blocked can go on. -/
theorem notifyAll_wakes {itemSize : Word32} (reached : (conditionVariable itemSize).Reachable state)
    {call : NotifyCall} (at_t : state.threads t = .notifying call) (all : call.all = true) :
    (∀ creates ends after,
      state.step (threadQueue itemSize) (.advance t creates ends) = some after →
      after.threads t = .unwinding .returned →
        after.memory.contents (threadQueue itemSize).size = [] ∧ ∀ u, after.Blocked u →
          (after.step (threadQueue itemSize) (.advance u true .object0)).isSome = true) ∧
    ∃ after, (conditionVariable itemSize).replay state
        (turns t (3 * (state.memory.contents (threadQueue itemSize).size).length + 2)) =
          some after ∧
      after.threads t = .outside ∧ after.memory.contents (threadQueue itemSize).size = [] ∧
      ∀ u, state.Blocked u → after.Blocked u ∧
        (after.step (threadQueue itemSize) (.advance u true .object0)).isSome = true := by
  have ok := reachable_ok reached
  have room := threadQueue_room itemSize
  constructor
  · intro creates ends after stepped returned
    have left := ok.moved room (step_moved stepped)
    have held := (left.phases t).holder (by rw [returned]; rfl)
    have empty : after.memory.contents (threadQueue itemSize).size = [] := by
      change state.advance (threadQueue itemSize) t creates ends = some after at stepped
      unfold State.advance at stepped
      rw [at_t] at stepped
      dsimp only at stepped
      split_ifs at stepped with available
      · split at stepped
        case h_1 =>
          rw [← Option.some.inj stepped, State.goes_self] at returned
          cases returned
        case h_2 =>
          rw [← Option.some.inj stepped, State.goes_self] at returned
          cases returned
      · rw [← Option.some.inj stepped]
        change state.memory.contents (threadQueue itemSize).size = []
        rw [← List.length_eq_zero_iff, Memory.contents_length]
        have none_left : ¬ 0 < state.memory.count.toNat := available
        omega
    refine ⟨empty, fun u blocked => blocked.wakes (left.released empty ?_ blocked)⟩
    intro n holder
    rw [held] at holder
    rw [← Option.some.inj holder, returned]
    rfl
  · obtain ⟨after, replays, notified⟩ := ok.notifies_all at_t all rfl
    refine ⟨after, replays, notified.outside, notified.empty, fun u blocked => ?_⟩
    have other : u ≠ t := by
      rintro rfl
      obtain ⟨waits, at_u⟩ := blocked
      rw [at_t] at at_u
      cases at_u
    have still : after.Blocked u := by
      obtain ⟨waits, at_u⟩ := blocked
      exact ⟨waits, (notified.others u other).trans at_u⟩
    refine ⟨still, still.wakes (notified.ok.released notified.empty ?_ still)⟩
    intro n holder
    rw [notified.free] at holder
    cases holder

/-- Threads 1 and 2 wait, and thread 3 is in `NotifyAll`. -/
def everyoneRun : List Event :=
  [Event.lockMutex 1 0, Event.wait 1 ⟨0, 0, false⟩] ++ turns 1 5 ++
    [Event.lockMutex 2 0, Event.wait 2 ⟨1, 0, true⟩] ++ turns 2 5 ++
    [Event.notify 3 ⟨2, true⟩] ++ turns 3 1

theorem everyoneRun_replays : ((conditionVariable 4).replay start everyoneRun).isSome = true := by
  decide +kernel

/-- Both waits can end. -/
theorem notifyAll_wakes_everyone :
    let everyone := ((conditionVariable 4).replay start everyoneRun).get everyoneRun_replays
    ∃ after, (conditionVariable 4).replay everyone (turns 3 8) = some after ∧
      (after.step (threadQueue 4) (.advance 1 true .object0)).isSome = true ∧
      (after.step (threadQueue 4) (.advance 2 true .object0)).isSome = true := by
  intro everyone
  have reached : (conditionVariable 4).Reachable everyone :=
    System.Reachable.of_replay start_initial everyoneRun_replays
  have at_3 : everyone.threads 3 = .notifying ⟨2, true⟩ := by
    decide +kernel
  have listed : (everyone.memory.contents (threadQueue 4).size).length = 2 := by
    decide +kernel
  obtain ⟨_, after, replays, _, _, wakes⟩ := notifyAll_wakes reached at_3 rfl
  rw [listed] at replays
  have first : everyone.Blocked 1 := ⟨⟨0, 0, false⟩, by decide +kernel⟩
  have second : everyone.Blocked 2 := ⟨⟨1, 0, true⟩, by decide +kernel⟩
  exact ⟨after, replays, (wakes 1 first).2, (wakes 2 second).2⟩

end Azul.Ipc.Win32
