import Azul.Ipc.Win32Waiters

/-!
# Whom the notifications of the `win32` condition variable reach

A `WaitFor` that times out leaves its id in the queue, and `NotifyOne` may then spend a notification
on it although another thread is waiting; and a wait that times out between `Pop` and
`ReleaseSemaphore` takes the notification along. As long as no wait ends before a notifier has
released the semaphore of its thread, and none fails, the thread that is dequeued is blocked in its
wait, stays so until it is signalled, and its wait then ends by the signal. A history keeps which
threads have been signalled since they enqueued themselves.
-/

namespace Azul.Ipc.Win32

open Azul.Foundation Operation

/-- The threads whose semaphores a notifier has released since they enqueued themselves. -/
abbrev Signalled := ThreadId → Bool

namespace Phase

/-- The threads that have been signalled after a step of one of them. -/
def signalled (signalled : Signalled) (t : ThreadId) : Phase → Phase → Signalled
  | pushing _, unlockingMutex _ => Function.update signalled t false
  | releasing _ id, _ => Function.update signalled id true
  | _, _ => signalled

/-- The result of a wait that has ended, while its call has not. -/
def ended : Phase → Option WaitResult
  | relocking _ result | relockingMutex _ result | relocked _ result => some result
  | outside | lockingWait _ | gettingOwn _ | pushing _ | unlockingMutex _ | unlocking _ | waiting _
  | lockingNotify _ | notifying _ | getting _ _ | releasing _ _ | unwinding _ => none

end Phase

/-- The threads that have been signalled after a step. -/
def State.recordSignalled (state : State) (event : Event) (after : State) (signalled : Signalled) :
    Signalled :=
  match event with
  | .advance t _ _ => (state.threads t).signalled signalled t (after.threads t)
  | _ => signalled

/-- No wait fails, and none ends before a notifier has signalled its thread, neither by its timeout
nor by a count that is left over. -/
def Event.Answered (state : State) (signalled : Signalled) : Event → Prop
  | .advance t _ ends =>
    match state.threads t with
    | .waiting _ => ends ≠ .failed ∧ signalled t = true
    | _ => True
  | _ => True

instance (state : State) (signalled : Signalled) (event : Event) :
    Decidable (event.Answered state signalled) :=
  match event with
  | .advance t _ ends => by
    apply Phase.casesOn (motive := fun phase => Decidable (match phase with
      | .waiting _ => ends ≠ .failed ∧ signalled t = true
      | _ => True)) (state.threads t)
    all_goals intros
    all_goals infer_instance
  | .lockMutex _ _ | .unlockMutex _ _ | .wait _ _ | .notify _ _ | .closes _ _ => instDecidableTrue

/-- The condition variable in runs in which every wait ends after its thread is signalled. -/
def answeredWaits (itemSize : Word32) : System (State × Signalled) Event :=
  ((conditionVariable itemSize).recording (fun _ => false) State.recordSignalled).under
    fun pair event => event.Answered pair.1 pair.2

variable {queue : Queue} {state next after : State} {signalled : Signalled} {t id : ThreadId}
  {phase : Phase}

/-- The queue lists threads that have enqueued themselves and are not signalled, each of them once;
a notifier signals threads that are blocked and not signalled yet; the semaphores of those that are
signalled stay released until their waits end, which they do by the signal. -/
structure Fresh (queue : Queue) (state : State) (signalled : Signalled) : Prop where
  nodup : (state.memory.contents queue.size).Nodup
  listed : ∀ id ∈ state.memory.contents queue.size,
    (state.threads id).enqueued = true ∧ signalled id = false
  signals : ∀ t id, (state.threads t).signals = some id →
    state.Blocked id ∧ signalled id = false ∧ id ∉ state.memory.contents queue.size
  released : ∀ id, (state.threads id).enqueued = true → signalled id = true → state.counts id = 1
  result : ∀ id result, (state.threads id).ended = some result → result = .object0

/-- A thread that signals another one is not blocked. -/
theorem State.Blocked.silent (blocked : state.Blocked t) : (state.threads t).signals = none := by
  obtain ⟨call, at_t⟩ := blocked
  rw [at_t]
  rfl

/-- A step of a thread that nobody is about to signal. -/
theorem Fresh.moves (fresh : Fresh queue state signalled) {creates : Bool} {ends : WaitResult}
    {marks : Signalled} (marked : (state.threads t).signalled signalled t phase = marks)
    (threads : next.threads = state.threads) (nodup : (next.memory.contents queue.size).Nodup)
    (apart : ∀ n, (state.threads n).signals ≠ some t)
    (others : ∀ u, u ≠ t → marks u = signalled u ∧
      (u ∈ next.memory.contents queue.size → u ∈ state.memory.contents queue.size) ∧
      (signalled u = true → next.counts u = state.counts u))
    (listed : t ∈ next.memory.contents queue.size → phase.enqueued = true ∧ marks t = false)
    (signals : ∀ id, phase.signals = some id →
      state.Blocked id ∧ signalled id = false ∧ id ∉ next.memory.contents queue.size ∧ id ≠ t)
    (released : phase.enqueued = true → marks t = true → next.counts t = 1)
    (result : ∀ result, phase.ended = some result → result = .object0) :
    Fresh queue (next.goes t phase)
      (state.recordSignalled (.advance t creates ends) (next.goes t phase) signalled) := by
  have recorded : state.recordSignalled (.advance t creates ends) (next.goes t phase) signalled =
      marks := by
    rw [← marked]
    show (state.threads t).signalled signalled t ((next.goes t phase).threads t) = _
    rw [State.goes_self]
  have other : ∀ u, u ≠ t → (next.goes t phase).threads u = state.threads u := by
    intro u different
    rw [State.goes_other _ _ different, threads]
  have blocked : ∀ u, u ≠ t → state.Blocked u → (next.goes t phase).Blocked u := by
    intro u different still
    unfold State.Blocked
    rw [other u different]
    exact still
  rw [recorded]
  refine ⟨nodup, ?_, ?_, ?_, ?_⟩
  · intro u member
    by_cases same : u = t
    · rw [same] at member ⊢
      rw [State.goes_self]
      exact listed member
    · obtain ⟨unmarked, before, _⟩ := others u same
      rw [other u same, unmarked]
      exact fresh.listed u (before member)
  · intro n u signalling
    by_cases same : n = t
    · rw [same, State.goes_self] at signalling
      obtain ⟨still, unsignalled, absent, different⟩ := signals u signalling
      rw [(others u different).1]
      exact ⟨blocked u different still, unsignalled, absent⟩
    · rw [other n same] at signalling
      have different : u ≠ t := by
        intro own
        rw [own] at signalling
        exact apart n signalling
      obtain ⟨still, unsignalled, absent⟩ := fresh.signals n u signalling
      obtain ⟨unmarked, before, _⟩ := others u different
      rw [unmarked]
      exact ⟨blocked u different still, unsignalled, fun member => absent (before member)⟩
  · intro u enqueued mark
    by_cases same : u = t
    · rw [same, State.goes_self] at enqueued
      rw [same] at mark ⊢
      exact released enqueued mark
    · obtain ⟨unmarked, _, counts⟩ := others u same
      rw [other u same] at enqueued
      rw [unmarked] at mark
      exact (counts mark).trans (fresh.released u enqueued mark)
  · intro u ends at_u
    by_cases same : u = t
    · rw [same, State.goes_self] at at_u
      exact result ends at_u
    · rw [other u same] at at_u
      exact fresh.result u ends at_u

/-- A thread that is not blocked is about to be signalled by nobody. -/
theorem Fresh.unsignalled (fresh : Fresh queue state signalled) (awake : ¬ state.Blocked t)
    (n : ThreadId) : (state.threads n).signals ≠ some t :=
  fun signals => awake (fresh.signals n t signals).1

/-- A thread that is in no phase of a wait that has enqueued it is not listed. -/
theorem Fresh.absent (fresh : Fresh queue state signalled)
    (outside : (state.threads t).enqueued = false) : t ∉ state.memory.contents queue.size := by
  intro member
  have inside := (fresh.listed t member).1
  rw [outside] at inside
  cases inside

/-- A thread that is not waiting is about to be signalled by nobody. -/
theorem Fresh.awake (fresh : Fresh queue state signalled) (at_t : state.threads t = phase)
    (waits : ∀ call, phase ≠ .waiting call) : ∀ n, (state.threads n).signals ≠ some t := by
  refine fresh.unsignalled ?_
  intro blocked
  obtain ⟨call, at_call⟩ := blocked
  exact waits call (at_t.symm.trans at_call)

/-- A step of a thread that has not enqueued itself leaves the queue as it is and signals nobody. -/
theorem Fresh.elsewhere (fresh : Fresh queue state signalled) {creates : Bool} {ends : WaitResult}
    (unmarked : (state.threads t).signalled signalled t phase = signalled)
    (threads : next.threads = state.threads) (memory : next.memory = state.memory)
    (counts : ∀ u, u ≠ t → next.counts u = state.counts u)
    (outside : (state.threads t).enqueued = false) (enqueued : phase.enqueued = false)
    (signals : phase.signals = none)
    (result : ∀ result, phase.ended = some result → result = .object0) :
    Fresh queue (next.goes t phase)
      (state.recordSignalled (.advance t creates ends) (next.goes t phase) signalled) := by
  have awake : ¬ state.Blocked t := by
    intro ⟨call, at_t⟩
    rw [at_t] at outside
    cases outside
  apply fresh.moves unmarked threads
  · rw [memory]
    exact fresh.nodup
  · exact fresh.unsignalled awake
  · intro u other
    rw [memory]
    exact ⟨rfl, id, fun _ => counts u other⟩
  · rw [memory]
    exact fun member => absurd member (fresh.absent outside)
  · intro id signalling
    rw [signals] at signalling
    cases signalling
  · intro inside
    rw [enqueued] at inside
    cases inside
  · exact result

/-- A listed thread, seen by another one that holds the queue mutex, is blocked in its wait. -/
theorem Fresh.blocked (fresh : Fresh queue state signalled) (ok : Ok queue state)
    (holds : (state.threads t).holds = true) (outside : (state.threads t).enqueued = false)
    (member : id ∈ state.memory.contents queue.size) : state.Blocked id ∧ id ≠ t := by
  have enqueued := (fresh.listed id member).1
  have apart : id ≠ t := by
    intro same
    rw [same, outside] at enqueued
    cases enqueued
  have unheld : ¬ (state.threads id).holds = true := fun second =>
    apart (ok.holder_unique second holds)
  refine ⟨?_, apart⟩
  unfold State.Blocked
  generalize state.threads id = phase at enqueued unheld
  cases phase with
  | waiting call => exact ⟨call, rfl⟩
  | unlockingMutex _ | unlocking _ => exact absurd rfl unheld
  | _ => cases enqueued

/-- A notifier releases the semaphore of the thread that it has dequeued. -/
theorem Fresh.releases (fresh : Fresh queue state signalled) (ok : Ok queue state)
    {call : NotifyCall} {creates : Bool} {ends : WaitResult}
    (at_t : state.threads t = .releasing call id) (silent : phase.signals = none)
    (outside : phase.enqueued = false) (none_ended : phase.ended = none) :
    Fresh queue ((state.releaseSemaphore id).goes t phase)
      (state.recordSignalled (.advance t creates ends) ((state.releaseSemaphore id).goes t phase)
        signalled) := by
  have signalling : (state.threads t).signals = some id := by
    rw [at_t]
    rfl
  have holds : (state.threads t).holds = true := by
    rw [at_t]
    rfl
  obtain ⟨blocked, _, absent⟩ := fresh.signals t id signalling
  have apart : id ≠ t := by
    intro same
    rw [same] at blocked
    rw [blocked.silent] at signalling
    cases signalling
  have recorded : state.recordSignalled (.advance t creates ends)
      ((state.releaseSemaphore id).goes t phase) signalled =
      Function.update signalled id true := by
    show (state.threads t).signalled signalled t _ = _
    rw [at_t]
    rfl
  have other : ∀ u, u ≠ t →
      ((state.releaseSemaphore id).goes t phase).threads u = state.threads u :=
    fun u different => State.goes_other _ _ different
  rw [recorded]
  refine ⟨fresh.nodup, ?_, ?_, ?_, ?_⟩
  · intro u member
    obtain ⟨enqueued, unsignalled⟩ := fresh.listed u member
    have not_t : u ≠ t := by
      intro same
      rw [same, at_t] at enqueued
      cases enqueued
    have not_id : u ≠ id := fun same => absent (same ▸ member)
    rw [other u not_t, Function.update_of_ne not_id]
    exact ⟨enqueued, unsignalled⟩
  · intro n u second
    have not_t : n ≠ t := by
      intro same
      rw [same, State.goes_self, silent] at second
      cases second
    rw [other n not_t] at second
    have holds' : (state.threads n).holds = true := by
      generalize state.threads n = phase' at second
      cases phase' <;> first | rfl | cases second
    exact absurd (ok.holder_unique holds' holds) not_t
  · intro u enqueued mark
    have not_t : u ≠ t := by
      intro same
      rw [same, State.goes_self, outside] at enqueued
      cases enqueued
    rw [other u not_t] at enqueued
    show Function.update state.counts id (min (state.counts id + 1) 1) u = 1
    by_cases same : u = id
    · rw [same, Function.update_self]
      omega
    · rw [Function.update_of_ne same] at mark ⊢
      exact fresh.released u enqueued mark
  · intro u result at_u
    by_cases same : u = t
    · rw [same, State.goes_self, none_ended] at at_u
      cases at_u
    · rw [other u same] at at_u
      exact fresh.result u result at_u

/-- A waiter enqueues itself; it has not been signalled since. -/
theorem Fresh.pushes (room : 3 * queue.size.toNat ≤ 2 ^ 32) (ok : Ok queue state)
    (fresh : Fresh queue state signalled) {call : WaitCall} {run : Run ThreadId}
    {creates : Bool} {ends : WaitResult} (at_t : state.threads t = .pushing call)
    (pushes : (queue.pushBack t).perform (Run.new state.memory) = (.ok (), run))
    (goes : after = { state with memory := run.memory }.goes t (.unlockingMutex call)) :
    Fresh queue after (state.recordSignalled (.advance t creates ends) after signalled) := by
  rw [goes]
  have appended := (pushed_contents room ok.valid pushes).2
  apply fresh.moves
  · rw [at_t]
  · rfl
  · show (run.memory.contents queue.size).Nodup
    rw [appended, ← List.concat_eq_append]
    exact fresh.nodup.concat (fresh.absent (by rw [at_t]; rfl))
  · exact fresh.awake at_t nofun
  · intro u other
    refine ⟨Function.update_of_ne other _ _, ?_, fun _ => rfl⟩
    intro member
    change u ∈ run.memory.contents queue.size at member
    rw [appended] at member
    exact (List.mem_append.mp member).resolve_right fun own =>
      other (List.mem_singleton.mp own)
  · exact fun _ => ⟨rfl, Function.update_self _ _ _⟩
  · exact nofun
  · intro _ mark
    change Function.update signalled t false t = true at mark
    rw [Function.update_self] at mark
    cases mark
  · exact nofun

/-- A wait ends by the signal of its thread. -/
theorem Fresh.ends (fresh : Fresh queue state signalled) {call : WaitCall} {creates : Bool}
    (at_t : state.threads t = .waiting call) (answered : signalled t = true)
    (goes : after = { state with
      counts := Function.update state.counts t (state.counts t - 1) }.goes t
        (.relocking call .object0)) :
    Fresh queue after (state.recordSignalled (.advance t creates .object0) after signalled) := by
  rw [goes]
  apply fresh.moves
  · rw [at_t]
  · rfl
  · exact fresh.nodup
  · intro n signals
    exact absurd (answered.symm.trans (fresh.signals n t signals).2.1) nofun
  · exact fun u other => ⟨rfl, id, fun _ => Function.update_of_ne other _ _⟩
  · intro member
    exact absurd (answered.symm.trans (fresh.listed t member).2) nofun
  · exact nofun
  · exact nofun
  · intro result ended
    exact (Option.some.inj ended).symm

/-- A notifier dequeues a thread, which is blocked in its wait. -/
theorem Fresh.pops (room : 3 * queue.size.toNat ≤ 2 ^ 32) (ok : Ok queue state)
    (fresh : Fresh queue state signalled) {call : NotifyCall} {run : Run ThreadId}
    {creates : Bool} {ends : WaitResult} (at_t : state.threads t = .notifying call)
    (pops : (do
        let id ← Queue.front
        queue.pop
        return id : Operation ThreadId ThreadId).perform (Run.new state.memory) = (.ok id, run))
    (goes : after = { state with memory := run.memory }.goes t (.getting call id)) :
    Fresh queue after (state.recordSignalled (.advance t creates ends) after signalled) := by
  rw [goes]
  have first := (popped_contents room ok.valid pops).2
  have member : id ∈ state.memory.contents queue.size := by
    rw [first]
    exact List.mem_cons_self
  have nodup := fresh.nodup
  rw [first, List.nodup_cons] at nodup
  obtain ⟨blocked, apart⟩ := fresh.blocked ok (by rw [at_t]; rfl) (by rw [at_t]; rfl) member
  apply fresh.moves
  · rw [at_t]
  · rfl
  · exact nodup.2
  · exact fresh.awake at_t nofun
  · intro u _
    refine ⟨rfl, ?_, fun _ => rfl⟩
    intro left
    rw [first]
    exact List.mem_cons_of_mem id left
  · intro left
    refine absurd ?_ (fresh.absent (by rw [at_t]; rfl))
    rw [first]
    exact List.mem_cons_of_mem id left
  · intro dequeued signals
    cases signals
    exact ⟨blocked, (fresh.listed id member).2, nodup.1, apart⟩
  · exact nofun
  · exact nofun

/-- A notifier gets the semaphore of the thread that it has dequeued. -/
theorem Fresh.gets (fresh : Fresh queue state signalled) {call : NotifyCall} {creates : Bool}
    {ends : WaitResult} (at_t : state.threads t = .getting call id)
    (gets : Got state call.object id next) (goes : after = next.goes t (.releasing call id)) :
    Fresh queue after (state.recordSignalled (.advance t creates ends) after signalled) := by
  rw [goes]
  have kept := gets.gets
  obtain ⟨blocked, unsignalled, gone⟩ := fresh.signals t id (by rw [at_t]; rfl)
  have apart : id ≠ t := by
    intro same
    rw [same] at blocked
    have silent := blocked.silent
    rw [at_t] at silent
    cases silent
  apply fresh.moves
  · rw [at_t]
  · exact kept.threads
  · rw [kept.memory]
    exact fresh.nodup
  · exact fresh.awake at_t nofun
  · intro u _
    rw [kept.memory]
    refine ⟨rfl, fun member => member, fun mark => kept.counts u ?_⟩
    intro same
    rw [same, unsignalled] at mark
    cases mark
  · rw [kept.memory]
    exact fun member => absurd member (fresh.absent (by rw [at_t]; rfl))
  · intro dequeued signals
    cases signals
    rw [kept.memory]
    exact ⟨blocked, unsignalled, gone, apart⟩
  · exact nofun
  · exact nofun

/-- Every step with which no wait ends too early keeps the queue fresh. -/
theorem Fresh.moved (room : 3 * queue.size.toNat ≤ 2 ^ 32) (ok : Ok queue state)
    (fresh : Fresh queue state signalled) {event : Event}
    (answered : event.Answered state signalled) (moved : Moved queue state event after) :
    Fresh queue after (state.recordSignalled event after signalled) := by
  have calls : ∀ {u phase}, state.threads u = .outside → phase.signals = none →
      phase.enqueued = false → phase.ended = none →
      Fresh queue (state.goes u phase) signalled := by
    intro u phase at_u silent outside none_ended
    have known : Fresh queue (state.goes u phase)
        (state.recordSignalled (.advance u true .object0) (state.goes u phase) signalled) := by
      refine fresh.elsewhere (by rw [at_u]; rfl) rfl rfl (fun _ _ => rfl) (by rw [at_u]; rfl)
        outside silent ?_
      intro result ended
      rw [none_ended] at ended
      cases ended
    change Fresh queue (state.goes u phase)
      ((state.threads u).signalled signalled u ((state.goes u phase).threads u)) at known
    rw [at_u] at known
    exact known
  have finished : ∀ {u phase}, state.threads u = phase →
      ∀ result, phase.ended = some result → result = .object0 := by
    intro u phase at_u result ended
    rw [← at_u] at ended
    exact fresh.result u result ended
  cases moved with
  | lockMutex at_t free => exact ⟨fresh.1, fresh.2, fresh.3, fresh.4, fresh.5⟩
  | unlockMutex at_t held => exact ⟨fresh.1, fresh.2, fresh.3, fresh.4, fresh.5⟩
  | closes may => exact ⟨fresh.1, fresh.2, fresh.3, fresh.4, fresh.5⟩
  | wait at_t held | notify at_t => exact calls at_t rfl rfl rfl
  | lockedWait at_t _ | noneOwn at_t _ | full at_t | lockedNotify at_t _ | notified at_t
  | noneGot at_t _ | unwound at_t | ended at_t _ =>
    exact fresh.elsewhere (by rw [at_t]; rfl) rfl rfl (fun _ _ => rfl) (by rw [at_t]; rfl) rfl rfl
      nofun
  | relocked at_t _ | relockedMutex at_t _ =>
    exact fresh.elsewhere (by rw [at_t]; rfl) rfl rfl (fun _ _ => rfl) (by rw [at_t]; rfl) rfl rfl
      fun result ended => finished at_t result ended
  | gotOwn at_t gets =>
    have kept := gets.gets
    exact fresh.elsewhere (by rw [at_t]; rfl) kept.threads kept.memory kept.counts
      (by rw [at_t]; rfl) rfl rfl nofun
  | threw at_t _ | removed at_t _ => cases finished at_t _ rfl
  | @failed t call creates at_t =>
    unfold Event.Answered at answered
    simp only [at_t] at answered
    exact absurd rfl answered.1
  | @timedOut t call creates at_t timed empty =>
    unfold Event.Answered at answered
    simp only [at_t] at answered
    have count := fresh.released t (by rw [at_t]; rfl) answered.2
    rw [empty] at count
    cases count
  | @signalled t call creates at_t some_count =>
    unfold Event.Answered at answered
    simp only [at_t] at answered
    exact fresh.ends at_t answered.2 rfl
  | pushed at_t pushes => exact fresh.pushes room ok at_t pushes rfl
  | unlockedMutex at_t | unlocked at_t =>
    apply fresh.moves
    · rw [at_t]
    · rfl
    · exact fresh.nodup
    · exact fresh.awake at_t nofun
    · exact fun u other => ⟨rfl, id, fun _ => rfl⟩
    · exact fun member => ⟨rfl, (fresh.listed _ member).2⟩
    · exact nofun
    · exact fun _ mark => fresh.released _ (by rw [at_t]; rfl) mark
    · exact nofun
  | popped at_t pops => exact fresh.pops room ok at_t pops rfl
  | got at_t gets => exact fresh.gets at_t gets rfl
  | @released t call id creates ends at_t =>
    refine fresh.releases ok at_t ?_ ?_ ?_ <;> split_ifs <;> rfl

/-! ## Runs -/

/-- In every run in which no wait ends too early the queue is fresh. -/
theorem reachable_fresh {itemSize : Word32} {pair : State × Signalled}
    (reached : (answeredWaits itemSize).Reachable pair) :
    Ok (threadQueue itemSize) pair.1 ∧ Fresh (threadQueue itemSize) pair.1 pair.2 := by
  have room := threadQueue_room itemSize
  apply reached.invariant
  · intro (state, signalled) starts
    obtain ⟨starts, nobody⟩ := starts
    have ok := reachable_ok (@System.Reachable.start _ _ (conditionVariable itemSize) _ starts)
    obtain ⟨⟨before, constructed, constructs, memory⟩, _, _, _, outside⟩ := starts
    rw [Queue.construct_perform] at constructs
    obtain ⟨_, started⟩ := Prod.mk.inj constructs
    have empty : state.memory.contents (threadQueue itemSize).size = [] := by
      rw [← memory, ← started]
      rfl
    refine ⟨ok, ?_, ?_, ?_, ?_, ?_⟩
    · rw [empty]
      exact List.nodup_nil
    · intro id member
      rw [empty] at member
      exact absurd member List.not_mem_nil
    · intro t id signals
      rw [outside t] at signals
      cases signals
    · intro id enqueued
      rw [outside id] at enqueued
      cases enqueued
    · intro id result ended
      rw [outside id] at ended
      cases ended
  · intro before event after _ ⟨ok, fresh⟩ stepped
    obtain ⟨answered, recorded⟩ := System.under_step.mp stepped
    obtain ⟨taken, added⟩ := System.recording_step.mp recorded
    have moved := step_moved taken
    rw [added]
    exact ⟨ok.moved room moved, fresh.moved room ok answered moved⟩

/-- A notifier of an object dequeues an id. -/
def State.Dequeues (queue : Queue) (state : State) (t id : ThreadId) : Prop :=
  ∃ call creates ends after, state.threads t = .notifying call ∧
    state.step queue (.advance t creates ends) = some after ∧
    after.threads t = .getting call id

/-- The wait of a thread can end by its signal and cannot time out, or has ended by the signal, and
its call then returns so. -/
def State.Completes (queue : Queue) (state : State) (id : ThreadId) : Prop :=
  match state.threads id with
  | .waiting call =>
    ∀ creates, (∃ after, state.step queue (.advance id creates .object0) = some after ∧
        after.threads id = .relocking call .object0) ∧
      state.step queue (.advance id creates .timeout) = none
  | .relocking _ result | .relockingMutex _ result => result = .object0
  | .relocked call result => result = .object0 ∧ ∀ creates ends, ∃ after,
      state.step queue (.advance id creates ends) = some after ∧
        after.threads id = .unwinding (if call.timed then .noTimeout else .returned)
  | _ => True

/-- The thread that is dequeued is in the queue. -/
theorem State.Dequeues.listed (room : 3 * queue.size.toNat ≤ 2 ^ 32) (ok : Ok queue state)
    (dequeues : state.Dequeues queue t id) :
    ((state.threads t).holds = true ∧ (state.threads t).enqueued = false) ∧
      id ∈ state.memory.contents queue.size := by
  obtain ⟨call, creates, ends, after, at_t, stepped, dequeued⟩ := dequeues
  rw [at_t]
  refine ⟨⟨rfl, rfl⟩, ?_⟩
  change state.advance queue t creates ends = some after at stepped
  unfold State.advance at stepped
  rw [at_t] at stepped
  dsimp only at stepped
  split_ifs at stepped
  · split at stepped
    · rename_i other run pops
      rw [← Option.some.inj stepped, State.goes_self] at dequeued
      cases dequeued
      rw [(popped_contents room ok.valid pops).2]
      exact List.mem_cons_self
    · rw [← Option.some.inj stepped, State.goes_self] at dequeued
      cases dequeued
  · rw [← Option.some.inj stepped, State.goes_self] at dequeued
    cases dequeued

/-- A notifier gets the semaphore of a thread that is blocked: that one has a handle of it. -/
theorem Ok.gets (ok : Ok queue state) {call : NotifyCall}
    (at_t : state.threads t = .getting call id) (blocked : state.Blocked id) (creates : Bool)
    (ends : WaitResult) :
    ∃ after, state.step queue (.advance t creates ends) = some after ∧
      after.threads t = .releasing call id := by
  obtain ⟨wait, at_id⟩ := blocked
  have own := (ok.phases id).own wait.object (by rw [at_id]; rfl)
  show ∃ after, state.advance queue t creates ends = some after ∧ _
  unfold State.advance
  rw [at_t]
  dsimp only
  cases gets : state.getSemaphore call.object id creates with
  | ok next => exact ⟨_, rfl, State.goes_self _ _ _⟩
  | error message =>
    rw [got_none gets] at own
    cases own

/-- The wait of a thread that is signalled completes. -/
theorem Fresh.completes (fresh : Fresh queue state signalled) (mark : signalled id = true) :
    state.Completes queue id := by
  unfold State.Completes
  have released := fresh.released id
  have result := fresh.result id
  cases at_id : state.threads id with
  | waiting call =>
    rw [at_id] at released
    have count := released rfl mark
    intro creates
    constructor
    · show ∃ after, state.advance queue id creates .object0 = some after ∧ _
      unfold State.advance
      rw [at_id]
      exact ⟨_, if_pos (by omega), State.goes_self _ _ _⟩
    · show state.advance queue id creates .timeout = none
      unfold State.advance
      rw [at_id]
      exact if_neg (by omega)
  | relocking call ends | relockingMutex call ends =>
    rw [at_id] at result
    exact result ends rfl
  | relocked call ends =>
    rw [at_id] at result
    have signal := result ends rfl
    refine ⟨signal, fun creates ends => ?_⟩
    show ∃ after, state.advance queue id creates ends = some after ∧ _
    unfold State.advance
    rw [at_id, signal]
    exact ⟨_, rfl, State.goes_self _ _ _⟩
  | _ => trivial

/-- In every run in which no wait ends before its thread is signalled, the thread that a notifier
dequeues is blocked in its wait. The notifier goes on to signal it, finds it still blocked, and has
signalled it then. The wait of a thread that is signalled completes because of it. -/
theorem notification_reaches {itemSize : Word32} {pair : State × Signalled}
    (reached : (answeredWaits itemSize).Reachable pair) (t id : ThreadId) :
    (pair.1.Dequeues (threadQueue itemSize) t id → pair.1.Blocked id) ∧
    (∀ call, pair.1.threads t = .getting call id → pair.1.Blocked id ∧ ∀ creates ends, ∃ after,
      pair.1.step (threadQueue itemSize) (.advance t creates ends) = some after ∧
        after.threads t = .releasing call id) ∧
    (∀ call, pair.1.threads t = .releasing call id → pair.1.Blocked id ∧ ∀ creates ends, ∃ after,
      (answeredWaits itemSize).step pair (.advance t creates ends) = some after ∧
        after.1.Blocked id ∧ after.2 id = true) ∧
    (pair.2 id = true → pair.1.Completes (threadQueue itemSize) id) := by
  obtain ⟨ok, fresh⟩ := reachable_fresh reached
  refine ⟨?_, ?_, ?_, fresh.completes⟩
  · intro dequeues
    obtain ⟨⟨holds, outside⟩, member⟩ := dequeues.listed (threadQueue_room itemSize) ok
    exact (fresh.blocked ok holds outside member).1
  · intro call at_t
    have blocked := (fresh.signals t id (by rw [at_t]; rfl)).1
    exact ⟨blocked, ok.gets at_t blocked⟩
  · intro call at_t
    have blocked := (fresh.signals t id (by rw [at_t]; rfl)).1
    refine ⟨blocked, fun creates ends => ?_⟩
    let after := (pair.1.releaseSemaphore id).goes t
      (if call.all then .notifying call else .unwinding .returned)
    have stepped : (conditionVariable itemSize).step pair.1 (.advance t creates ends) =
        some after := by
      show pair.1.advance (threadQueue itemSize) t creates ends = _
      unfold State.advance
      rw [at_t]
    have answered : (Event.advance t creates ends).Answered pair.1 pair.2 := by
      unfold Event.Answered
      simp only [at_t]
    have apart : id ≠ t := by
      intro same
      obtain ⟨wait, at_id⟩ := blocked
      rw [same, at_t] at at_id
      cases at_id
    have marked : pair.1.recordSignalled (.advance t creates ends) after pair.2 id = true := by
      show (pair.1.threads t).signalled pair.2 t (after.threads t) id = true
      rw [at_t]
      exact Function.update_self _ _ _
    refine ⟨(after, _), System.under_step.mpr ⟨answered,
      System.recording_step.mpr ⟨stepped, rfl⟩⟩, ?_, marked⟩
    unfold State.Blocked
    show ∃ wait, after.threads id = .waiting wait
    rw [State.goes_other _ _ apart]
    exact blocked

/-- Threads 1 and 3 wait with timeouts, thread 2 has notified one of them and is about to notify the
other one. -/
def answeredRun : List Event :=
  [Event.lockMutex 1 0, Event.wait 1 ⟨0, 0, true⟩] ++ turns 1 5 ++
    [Event.lockMutex 3 0, Event.wait 3 ⟨0, 0, true⟩] ++ turns 3 5 ++
    [Event.notify 2 ⟨1, false⟩] ++ turns 2 5 ++ [Event.notify 2 ⟨1, false⟩] ++ turns 2 1

theorem answeredRun_replays :
    ((answeredWaits 4).replay (start, fun _ => false) answeredRun).isSome = true := by
  decide +kernel

def answered : State × Signalled :=
  ((answeredWaits 4).replay (start, fun _ => false) answeredRun).get answeredRun_replays

theorem notification_reaches_answered :
    answered.1.Dequeues (threadQueue 4) 2 3 ∧ answered.1.Blocked 3 ∧ answered.2 1 = true ∧
      answered.1.Completes (threadQueue 4) 1 := by
  have dequeues : answered.1.Dequeues (threadQueue 4) 2 3 :=
    ⟨⟨1, false⟩, true, .object0, _, by decide +kernel, rfl, by decide +kernel⟩
  have signalled : answered.2 1 = true := by decide +kernel
  have starts : (answeredWaits 4).initial (start, fun _ => false) := ⟨start_initial, rfl⟩
  have reached := System.Reachable.of_replay starts answeredRun_replays
  have blocked := (notification_reaches reached 2 3).1 dequeues
  have completes := (notification_reaches reached 2 1).2.2.2 signalled
  exact ⟨dequeues, blocked, signalled, completes⟩

/-- Two threads wait, of which the first one has timed out and returned, and a third one is about to
notify. -/
def staleRun : List Event :=
  [Event.lockMutex 1 0, Event.wait 1 ⟨0, 0, true⟩] ++ turns 1 5 ++
    [Event.advance 1 true .timeout] ++ turns 1 4 ++
    [Event.unlockMutex 1 0, Event.lockMutex 2 0, Event.wait 2 ⟨0, 0, false⟩] ++ turns 2 5 ++
    [Event.notify 3 ⟨0, false⟩] ++ turns 3 1

theorem staleRun_replays : ((conditionVariable 4).replay start staleRun).isSome = true := by
  decide +kernel

def stale : State := ((conditionVariable 4).replay start staleRun).get staleRun_replays

/-- The notification is spent on the thread that is not waiting any more. -/
theorem stale_dequeued :
    (conditionVariable 4).Reachable stale ∧ stale.Blocked 2 ∧
      2 ∈ stale.memory.contents (threadQueue 4).size ∧
      stale.Dequeues (threadQueue 4) 3 1 ∧ stale.threads 1 = .outside :=
  ⟨System.Reachable.of_replay start_initial staleRun_replays, ⟨⟨0, 0, false⟩, by decide +kernel⟩,
    by decide +kernel, ⟨⟨0, false⟩, true, .object0, _, by decide +kernel, rfl, by decide +kernel⟩,
    by decide +kernel⟩

end Azul.Ipc.Win32
