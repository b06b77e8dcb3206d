import Azul.Ipc.ThreadQueue

/-!
# What a wait leaves in the thread queue

A wait that ends before a notifier has dequeued its thread leaves the id of the thread behind,
except on `win32` if it has failed. As long as no wait does that, none leaves a trace: the queue
lists threads that wait, each of them once, and cannot fill up while fewer threads wait than it has
room for. A history keeps which threads have been dequeued since they enqueued themselves.
-/

namespace Azul.Ipc

open Azul.Foundation Operation

/-- The threads that a notifier has dequeued since they enqueued themselves. -/
abbrev Dequeued := ThreadId → Bool

/-- No thread that has been dequeued is in the queue. -/
def Dequeued.Gone (dequeued : Dequeued) (contents : List ThreadId) : Prop :=
  ∀ t, dequeued t = true → t ∉ contents

namespace Dequeued.Gone

variable {dequeued : Dequeued} {contents after : List ThreadId} {t : ThreadId}

/-- The queue gets shorter. -/
theorem fewer (gone : dequeued.Gone contents) (left : ∀ u, u ∈ after → u ∈ contents) :
    dequeued.Gone after :=
  fun u taken member => gone u taken (left u member)

/-- A thread enqueues itself. -/
theorem pushed (gone : dequeued.Gone contents) :
    Dequeued.Gone (Function.update dequeued t false) (contents ++ [t]) := by
  intro u taken member
  by_cases same : u = t
  · rw [same, Function.update_self] at taken
    cases taken
  · rw [Function.update_of_ne same] at taken
    rcases List.mem_append.mp member with before | own
    · exact gone u taken before
    · exact same (List.mem_singleton.mp own)

/-- A notifier dequeues a thread. -/
theorem popped (gone : dequeued.Gone (t :: after)) (nodup : (t :: after).Nodup) :
    Dequeued.Gone (Function.update dequeued t true) after := by
  intro u taken member
  by_cases same : u = t
  · rw [same] at member
    exact (List.nodup_cons.mp nodup).1 member
  · rw [Function.update_of_ne same] at taken
    exact gone u taken (List.mem_cons_of_mem t member)

end Dequeued.Gone

/-! ## `win32` -/

namespace Win32

/-- The wait of the thread has ended without failing. -/
def Phase.served : Phase → Bool
  | relocking _ result | relockingMutex _ result | relocked _ result => decide (result ≠ .failed)
  | outside | lockingWait _ | gettingOwn _ | pushing _ | unlockingMutex _ | unlocking _ | waiting _
  | lockingNotify _ | notifying _ | getting _ _ | releasing _ _ | unwinding _ => false

/-- The threads that have been dequeued after a step of one of them. -/
def Phase.dequeued (dequeued : Dequeued) (t : ThreadId) : Phase → Phase → Dequeued
  | pushing _, unlockingMutex _ => Function.update dequeued t false
  | notifying _, getting _ id => Function.update dequeued id true
  | _, _ => dequeued

/-- The threads that have been dequeued after a step. -/
def State.recordDequeued (state : State) (event : Event) (after : State) (dequeued : Dequeued) :
    Dequeued :=
  match event with
  | .advance t _ _ => (state.threads t).dequeued dequeued t (after.threads t)
  | _ => dequeued

/-- No wait ends before a notifier has dequeued its thread, neither by its timeout nor by a count
that is left over, unless it fails. -/
def Event.Served (state : State) (dequeued : Dequeued) : Event → Prop
  | .advance t _ ends =>
    match state.threads t with
    | .waiting _ => ends = .failed ∨ dequeued t = true
    | _ => True
  | _ => True

instance (state : State) (dequeued : Dequeued) (event : Event) :
    Decidable (event.Served state dequeued) :=
  match event with
  | .advance t _ ends => by
    apply Phase.casesOn (motive := fun phase => Decidable (match phase with
      | .waiting _ => ends = .failed ∨ dequeued t = true
      | _ => True)) (state.threads t)
    all_goals intros
    all_goals infer_instance
  | .lockMutex _ _ | .unlockMutex _ _ | .wait _ _ | .notify _ _ | .closes _ _ => instDecidableTrue

/-- The condition variable in runs in which no wait ends before its thread is dequeued. -/
def servedWaits (itemSize : Word32) : System (State × Dequeued) Event :=
  ((conditionVariable itemSize).recording (fun _ => false) State.recordDequeued).under
    fun pair event => event.Served pair.1 pair.2

/-- What is known of the threads that have been dequeued. -/
structure Known (queue : Queue) (state : State) (dequeued : Dequeued) : Prop where
  gone : dequeued.Gone (state.memory.contents queue.size)
  served : ∀ t, (state.threads t).served = true → dequeued t = true

section Steps

variable {queue : Queue} {state next after : State} {dequeued : Dequeued} {t : ThreadId}
  {phase : Phase}

/-- A wait that ends without failing leaves no id behind. -/
theorem Known.traceless (known : Known queue state dequeued) (event : Event) :
    event.Traceless queue state := by
  cases event with
  | advance t creates ends =>
    unfold Event.Traceless
    have served := known.served t
    cases at_t : state.threads t with
    | relocked call result =>
      rw [at_t] at served
      simp only [at_t]
      by_cases fails : result = .failed
      · exact Or.inl fails
      · exact Or.inr (known.gone t (served (decide_eq_true fails)))
    | _ => simp only [at_t]
  | _ => trivial

/-- A step of a thread. -/
theorem Known.moves (known : Known queue state dequeued) {creates : Bool} {ends : WaitResult}
    (threads : next.threads = state.threads)
    (gone : ((state.threads t).dequeued dequeued t phase).Gone (next.memory.contents queue.size))
    (others : ∀ u, u ≠ t → dequeued u = true →
      (state.threads t).dequeued dequeued t phase u = true)
    (own : phase.served = true → (state.threads t).dequeued dequeued t phase t = true) :
    Known queue (next.goes t phase)
      (state.recordDequeued (.advance t creates ends) (next.goes t phase) dequeued) := by
  have recorded : state.recordDequeued (.advance t creates ends) (next.goes t phase) dequeued =
      (state.threads t).dequeued dequeued t phase := by
    show (state.threads t).dequeued dequeued t ((next.goes t phase).threads t) = _
    rw [State.goes_self]
  rw [recorded]
  refine ⟨gone, ?_⟩
  intro u served
  by_cases same : u = t
  · rw [same, State.goes_self] at served
    rw [same]
    exact own served
  · rw [State.goes_other _ _ same, threads] at served
    exact others u same (known.served u served)

/-- A step of a thread that leaves the queue as it is. -/
theorem Known.quiet (known : Known queue state dequeued) {creates : Bool} {ends : WaitResult}
    (threads : next.threads = state.threads) (memory : next.memory = state.memory)
    (unchanged : (state.threads t).dequeued dequeued t phase = dequeued)
    (own : phase.served = true → dequeued t = true) :
    Known queue (next.goes t phase)
      (state.recordDequeued (.advance t creates ends) (next.goes t phase) dequeued) := by
  apply known.moves threads
  · rw [unchanged, memory]
    exact known.gone
  · rw [unchanged]
    exact fun _ _ => id
  · rw [unchanged]
    exact own

/-- Every step with which no wait ends before its thread is dequeued keeps what is known. -/
theorem Moved.known {event : Event} (room : 3 * queue.size.toNat ≤ 2 ^ 32)
    (valid : state.memory.Valid queue.size) (listed : state.Listed queue)
    (known : Known queue state dequeued) (served : event.Served state dequeued)
    (moved : Moved queue state event after) :
    Known queue after (state.recordDequeued event after dequeued) := by
  have entered : ∀ {u phase}, state.threads u = phase → phase.served = true →
      dequeued u = true := by
    intro u phase at_u ended
    rw [← at_u] at ended
    exact known.served u ended
  have never : ∀ {p : Prop}, false = true → p :=
    fun impossible => absurd impossible Bool.false_ne_true
  cases moved with
  | lockMutex at_t _ | unlockMutex at_t _ | closes may => exact ⟨known.gone, known.served⟩
  | @wait t call at_t held =>
    refine ⟨known.gone, fun u ended => ?_⟩
    by_cases same : u = t
    · rw [same, State.goes_self] at ended
      cases ended
    · rw [State.goes_other _ _ same] at ended
      exact known.served u ended
  | @notify t call at_t =>
    refine ⟨known.gone, fun u ended => ?_⟩
    by_cases same : u = t
    · rw [same, State.goes_self] at ended
      cases ended
    · rw [State.goes_other _ _ same] at ended
      exact known.served u ended
  | lockedWait at_t _ | noneOwn at_t _ | full at_t | unlockedMutex at_t | unlocked at_t
  | failed at_t | ended at_t _ | lockedNotify at_t _ | notified at_t | noneGot at_t _
  | unwound at_t =>
    exact known.quiet rfl rfl (by rw [at_t]; rfl) never
  | gotOwn at_t gets | got at_t gets =>
    exact known.quiet gets.gets.threads gets.gets.memory (by rw [at_t]; rfl) never
  | released at_t =>
    refine known.quiet rfl rfl (by rw [at_t]; rfl) ?_
    split_ifs <;> exact never
  | signalled at_t _ | timedOut at_t _ =>
    refine known.quiet rfl rfl (by rw [at_t]; rfl) fun _ => ?_
    simp only [Event.Served, at_t] at served
    exact served.resolve_left (by decide)
  | relocked at_t _ | relockedMutex at_t _ =>
    exact known.quiet rfl rfl (by rw [at_t]; rfl) fun ended => entered at_t ended
  | @pushed t call run creates ends at_t pushes =>
    apply known.moves
    · rfl
    · rw [at_t]
      show Dequeued.Gone (Function.update dequeued t false) (run.memory.contents queue.size)
      rw [(pushed_contents room valid pushes).2]
      exact known.gone.pushed
    · intro u other taken
      rw [at_t]
      show Function.update dequeued t false u = true
      rw [Function.update_of_ne other]
      exact taken
    · exact never
  | threw at_t throws => exact absurd throws (removes_returns room valid _ _)
  | @removed t call run taken outcome creates ends at_t removes =>
    have unchanged : (state.threads t).dequeued dequeued t (.unwinding outcome) = dequeued := by
      rw [at_t]
      rfl
    apply known.moves
    · rfl
    · rw [unchanged]
      refine known.gone.fewer fun u member => ?_
      exact List.mem_of_mem_erase ((removed_contents room valid removes).2.mem_iff.mp member)
    · rw [unchanged]
      exact fun _ _ => id
    · exact never
  | @popped t call id run creates ends at_t pops =>
    have taken := (popped_contents room valid pops).2
    have gone := known.gone
    have nodup := listed.nodup
    rw [taken] at gone nodup
    apply known.moves
    · rfl
    · rw [at_t]
      exact gone.popped nodup
    · intro u _ dequeued_u
      rw [at_t]
      show Function.update dequeued id true u = true
      by_cases same : u = id
      · rw [same, Function.update_self]
      · rw [Function.update_of_ne same]
        exact dequeued_u
    · exact never

end Steps

/-- In every such run the queue lists threads that wait. -/
theorem reachable_known {itemSize : Word32} {pair : State × Dequeued}
    (reached : (servedWaits itemSize).Reachable pair) :
    Ok (threadQueue itemSize) pair.1 ∧ pair.1.Listed (threadQueue itemSize) ∧
      Known (threadQueue itemSize) pair.1 pair.2 := by
  have room := threadQueue_room itemSize
  apply reached.invariant
  · intro (state, dequeued) starts
    obtain ⟨starts, nobody⟩ := starts
    have ok := reachable_ok (@System.Reachable.start _ _ (conditionVariable itemSize) _ starts)
    obtain ⟨⟨before, constructed, constructs, memory⟩, _, _, _, outside⟩ := starts
    rw [Queue.construct_perform] at constructs
    obtain ⟨_, started⟩ := Prod.mk.inj constructs
    have empty : state.memory.contents (threadQueue itemSize).size = [] := by
      rw [← memory, ← started]
      rfl
    refine ⟨ok, ⟨?_, ?_⟩, ⟨?_, ?_⟩⟩
    · rw [empty]
      exact List.nodup_nil
    · intro id member
      rw [empty] at member
      exact absurd member List.not_mem_nil
    · intro t _ member
      rw [empty] at member
      exact absurd member List.not_mem_nil
    · intro t ended
      rw [outside t] at ended
      cases ended
  · intro before event after _ ⟨ok, listed, known⟩ stepped
    obtain ⟨served, recorded⟩ := System.under_step.mp stepped
    obtain ⟨taken, added⟩ := System.recording_step.mp recorded
    have moved := step_moved taken
    rw [added]
    exact ⟨ok.moved room moved, moved.listed room ok.valid listed (known.traceless event),
      moved.known room ok.valid listed known served⟩

end Win32

/-! ## `darwin` -/

namespace Darwin

/-- A read of the thread has ended its wait, or a part of it. -/
def Phase.served : Phase → Bool
  | relocking _ _ _ | relockingMutex _ _ _ | relocked _ _ _ | abandoning _ => true
  | outside | lockingWait _ | creating _ | pushing _ | unlockingMutex _ _ | unlocking _ _
  | reading _ _ | removing _ | lockingNotify _ | notifying _ | opening _ _ | writing _ _
  | unwinding _ => false

/-- The wait of the thread ends. -/
def Phase.leaving : Phase → Bool
  | removing _ => true
  | outside | lockingWait _ | creating _ | pushing _ | unlockingMutex _ _ | unlocking _ _
  | reading _ _ | relocking _ _ _ | relockingMutex _ _ _ | relocked _ _ _ | abandoning _
  | lockingNotify _ | notifying _ | opening _ _ | writing _ _ | unwinding _ => false

/-- The threads that have been dequeued after a step of one of them. -/
def Phase.dequeued (dequeued : Dequeued) (t : ThreadId) : Phase → Phase → Dequeued
  | pushing _, unlockingMutex _ _ => Function.update dequeued t false
  | notifying _, opening _ id => Function.update dequeued id true
  | _, _ => dequeued

/-- The threads that have been dequeued after a step. -/
def State.recordDequeued (state : State) (event : Event) (after : State) (dequeued : Dequeued) :
    Dequeued :=
  match event with
  | .advance t _ => (state.threads t).dequeued dequeued t (after.threads t)
  | _ => dequeued

/-- No wait ends before a notifier has dequeued its thread: its read does not end before, neither by
its timeout nor with an error nor with bytes that are left over, nor does an unlock fail. -/
def Event.Served (state : State) (dequeued : Dequeued) : Event → Prop
  | .advance t environment =>
    match state.threads t with
    | .unlockingMutex _ _ | .unlocking _ _ => environment.flocks = true ∨ dequeued t = true
    | .reading _ _ => dequeued t = true
    | _ => True
  | _ => True

instance (state : State) (dequeued : Dequeued) (event : Event) :
    Decidable (event.Served state dequeued) :=
  match event with
  | .advance t environment => by
    apply Phase.casesOn (motive := fun phase => Decidable (match phase with
      | .unlockingMutex _ _ | .unlocking _ _ => environment.flocks = true ∨ dequeued t = true
      | .reading _ _ => dequeued t = true
      | _ => True)) (state.threads t)
    all_goals intros
    all_goals infer_instance
  | .lockMutex _ _ | .unlockMutex _ _ | .wait _ _ | .notify _ _ => instDecidableTrue

/-- The condition variable in runs in which no wait ends before its thread is dequeued. -/
def servedWaits (itemSize : Word32) : System (State × Dequeued) Event :=
  ((conditionVariable itemSize).recording (fun _ => false) State.recordDequeued).under
    fun pair event => event.Served pair.1 pair.2

/-- What is known of the threads that have been dequeued. -/
structure Known (queue : Queue) (state : State) (dequeued : Dequeued) : Prop where
  gone : dequeued.Gone (state.memory.contents queue.size)
  served : ∀ t, (state.threads t).served = true → dequeued t = true
  leaving : ∀ t, (state.threads t).leaving = true → t ∉ state.memory.contents queue.size

section Steps

variable {queue : Queue} {state next after : State} {dequeued : Dequeued} {t : ThreadId}
  {phase : Phase}

/-- A wait that ends leaves no id behind. -/
theorem Known.traceless (known : Known queue state dequeued) (event : Event) :
    event.Traceless queue state := by
  cases event with
  | advance t environment =>
    unfold Event.Traceless
    cases at_t : state.threads t with
    | removing outcome =>
      simp only [at_t]
      exact known.leaving t (by rw [at_t]; rfl)
    | abandoning outcome =>
      simp only [at_t]
      exact known.gone t (known.served t (by rw [at_t]; rfl))
    | _ => simp only [at_t]
  | _ => trivial

/-- A step of a thread. -/
theorem Known.moves (known : Known queue state dequeued) {environment : Environment}
    (threads : next.threads = state.threads)
    (gone : ((state.threads t).dequeued dequeued t phase).Gone (next.memory.contents queue.size))
    (others : ∀ u, u ≠ t →
      (dequeued u = true → (state.threads t).dequeued dequeued t phase u = true) ∧
        (u ∈ next.memory.contents queue.size → u ∈ state.memory.contents queue.size))
    (served : phase.served = true → (state.threads t).dequeued dequeued t phase t = true)
    (leaving : phase.leaving = true → t ∉ next.memory.contents queue.size) :
    Known queue (next.goes t phase)
      (state.recordDequeued (.advance t environment) (next.goes t phase) dequeued) := by
  have recorded : state.recordDequeued (.advance t environment) (next.goes t phase) dequeued =
      (state.threads t).dequeued dequeued t phase := by
    show (state.threads t).dequeued dequeued t ((next.goes t phase).threads t) = _
    rw [State.goes_self]
  rw [recorded]
  refine ⟨gone, ?_, ?_⟩
  · intro u at_u
    by_cases same : u = t
    · rw [same, State.goes_self] at at_u
      rw [same]
      exact served at_u
    · rw [State.goes_other _ _ same, threads] at at_u
      exact (others u same).1 (known.served u at_u)
  · intro u at_u member
    by_cases same : u = t
    · rw [same, State.goes_self] at at_u
      rw [same] at member
      exact leaving at_u member
    · rw [State.goes_other _ _ same, threads] at at_u
      exact known.leaving u at_u ((others u same).2 member)

/-- A step of a thread that leaves the queue as it is. -/
theorem Known.quiet (known : Known queue state dequeued) {environment : Environment}
    (threads : next.threads = state.threads) (memory : next.memory = state.memory)
    (unchanged : (state.threads t).dequeued dequeued t phase = dequeued)
    (served : phase.served = true → dequeued t = true)
    (leaving : phase.leaving = true → t ∉ state.memory.contents queue.size) :
    Known queue (next.goes t phase)
      (state.recordDequeued (.advance t environment) (next.goes t phase) dequeued) := by
  apply known.moves threads
  · rw [unchanged, memory]
    exact known.gone
  · rw [unchanged, memory]
    exact fun _ _ => ⟨id, id⟩
  · rw [unchanged]
    exact served
  · rw [memory]
    exact leaving

/-- Every step with which no wait ends before its thread is dequeued keeps what is known. -/
theorem Moved.known {event : Event} (room : 3 * queue.size.toNat ≤ 2 ^ 32)
    (valid : state.memory.Valid queue.size) (listed : state.Listed queue)
    (known : Known queue state dequeued) (served : event.Served state dequeued)
    (moved : Moved queue state event after) :
    Known queue after (state.recordDequeued event after dequeued) := by
  have entered : ∀ {u phase}, state.threads u = phase → phase.served = true →
      dequeued u = true := by
    intro u phase at_u ended
    rw [← at_u] at ended
    exact known.served u ended
  have calls : ∀ {u phase}, phase.served = false → phase.leaving = false →
      Known queue (state.goes u phase) dequeued := by
    intro u phase unserved stays
    refine ⟨known.gone, fun v at_v => ?_, fun v at_v => ?_⟩
    · by_cases same : v = u
      · rw [same, State.goes_self, unserved] at at_v
        cases at_v
      · rw [State.goes_other _ _ same] at at_v
        exact known.served v at_v
    · by_cases same : v = u
      · rw [same, State.goes_self, stays] at at_v
        cases at_v
      · rw [State.goes_other _ _ same] at at_v
        exact known.leaving v at_v
  have never : ∀ {p : Prop}, false = true → p :=
    fun impossible => absurd impossible Bool.false_ne_true
  cases moved with
  | lockMutex at_t _ _ | unlockMutex at_t _ =>
    exact ⟨known.gone, known.served, known.leaving⟩
  | wait at_t _ | notify at_t => exact calls rfl rfl
  | lockedWait at_t _ _ | created at_t _ | notCreated at_t | leftBehind at_t _ | unlockedMutex at_t
  | unlocked at_t _ | again at_t _ | removed at_t | abandoned at_t | lockedNotify at_t _ _
  | notPopped at_t _ _ | drained at_t _ | opened at_t _ | notOpened at_t _ | unwound at_t =>
    exact known.quiet rfl rfl (by rw [at_t]; rfl) never never
  | written at_t _ | notWritten at_t _ =>
    refine known.quiet rfl rfl (by rw [at_t]; split_ifs <;> rfl) ?_ ?_ <;> split_ifs <;> exact never
  | notLockedWait at_t throws | notLockedNotify at_t throws =>
    obtain ⟨left, same⟩ := throws.same
    rw [same]
    exact known.quiet rfl rfl (by rw [at_t]; rfl) never never
  | @full t call message environment at_t =>
    refine known.quiet rfl rfl (by rw [at_t]; rfl) never fun _ => ?_
    exact Ipc.Listed.absent listed (show (state.threads t).queued = false by rw [at_t]; rfl)
  | @notUnlockedMutex t call toRead message environment at_t fails
  | @notUnlocked t call toRead message environment at_t fails =>
    refine known.quiet rfl rfl (by rw [at_t]; rfl) never fun _ => ?_
    simp only [Event.Served, at_t] at served
    refine known.gone t (served.resolve_left ?_)
    rw [fails]
    exact Bool.false_ne_true
  | @read t call toRead count phase environment at_t bytes some_count enough reads =>
    simp only [Event.Served, at_t] at served
    refine known.quiet rfl rfl ?_ (fun _ => served) ?_
    · rw [at_t]
      rfl
    · rcases reads with same | ⟨_, same⟩ | ⟨_, same⟩ <;> rw [same] <;> exact never
  | timedOut at_t _ _ | threw at_t _ =>
    simp only [Event.Served, at_t] at served
    exact known.quiet rfl rfl (by rw [at_t]; rfl) (fun _ => served) never
  | relocked at_t _ _ _ | relockedMutex at_t _ _ _ =>
    exact known.quiet rfl rfl (by rw [at_t]; rfl) (fun _ => entered at_t rfl) never
  | ended at_t =>
    exact known.quiet rfl rfl (by rw [at_t]; rfl) never
      fun _ => known.gone _ (entered at_t rfl)
  | notRelocked at_t throws =>
    obtain ⟨left, same⟩ := throws.same
    rw [same]
    exact known.quiet rfl rfl (by rw [at_t]; rfl) (fun _ => entered at_t rfl) never
  | notRelockedMutex at_t throws =>
    obtain ⟨left, same⟩ := throws.same
    rw [same]
    exact known.quiet rfl rfl (by rw [at_t]; rfl) never
      fun _ => known.gone _ (entered at_t rfl)
  | @pushed t call run environment at_t pushes =>
    have appended := (Win32.pushed_contents room valid pushes).2
    apply known.moves
    · rfl
    · rw [at_t]
      show Dequeued.Gone (Function.update dequeued t false) (run.memory.contents queue.size)
      rw [appended]
      exact known.gone.pushed
    · intro u other
      rw [at_t]
      constructor
      · intro taken
        show Function.update dequeued t false u = true
        rw [Function.update_of_ne other]
        exact taken
      · intro member
        change u ∈ run.memory.contents queue.size at member
        rw [appended] at member
        exact (List.mem_append.mp member).resolve_right fun own =>
          other (List.mem_singleton.mp own)
    · exact never
    · exact never
  | @popped t all id run environment at_t pops =>
    have taken := (Win32.popped_contents room valid pops).2
    have gone := known.gone
    have nodup := listed.nodup
    rw [taken] at gone nodup
    apply known.moves
    · rfl
    · rw [at_t]
      exact gone.popped nodup
    · intro u _
      rw [at_t]
      constructor
      · intro dequeued_u
        show Function.update dequeued id true u = true
        by_cases same : u = id
        · rw [same, Function.update_self]
        · rw [Function.update_of_ne same]
          exact dequeued_u
      · intro member
        rw [taken]
        exact List.mem_cons_of_mem id member
    · exact never
    · exact never

end Steps

/-- In every such run the queue lists threads that wait. -/
theorem reachable_known {itemSize : Word32} {pair : State × Dequeued}
    (reached : (servedWaits itemSize).Reachable pair) :
    pair.1.memory.Valid (threadQueue itemSize).size ∧ pair.1.Listed (threadQueue itemSize) ∧
      Known (threadQueue itemSize) pair.1 pair.2 := by
  have room := threadQueue_room itemSize
  apply reached.invariant
  · intro (state, dequeued) starts
    obtain ⟨starts, nobody⟩ := starts
    obtain ⟨valid, empty⟩ := initial_listed starts
    have outside := starts.2.2.2.2
    have nowhere : ∀ t, t ∉ state.memory.contents (threadQueue itemSize).size := by
      intro t member
      rw [empty] at member
      exact absurd member List.not_mem_nil
    refine ⟨valid, ⟨?_, fun id member => absurd member (nowhere id)⟩,
      ⟨fun t _ => nowhere t, fun t ended => ?_, fun t _ => nowhere t⟩⟩
    · rw [empty]
      exact List.nodup_nil
    · rw [outside t] at ended
      cases ended
  · intro before event after _ ⟨valid, listed, known⟩ stepped
    obtain ⟨served, recorded⟩ := System.under_step.mp stepped
    obtain ⟨taken, added⟩ := System.recording_step.mp recorded
    have moved := step_moved taken
    obtain ⟨valid', listed'⟩ := moved.listed room valid listed (known.traceless event)
    rw [added]
    exact ⟨valid', listed', moved.known room valid listed known served⟩

end Darwin

/-! ## Both -/

/-- A queue lists no thread but those inside a wait, and each of these once at most. -/
def WithoutTraces (contents : List ThreadId) (inWait : ThreadId → Bool) : Prop :=
  ((∀ t, inWait t = false) → contents = []) ∧
    ∀ t, contents.count t ≤ if inWait t = true then 1 else 0

/-- A queue of threads that have enqueued themselves in a wait lists nothing else. -/
theorem Listed.withoutTraces {contents : List ThreadId} {queued inWait : ThreadId → Bool}
    (listed : Listed contents queued) (inside : ∀ t, queued t = true → inWait t = true) :
    WithoutTraces contents inWait := by
  have listed : Listed contents inWait :=
    ⟨listed.nodup, fun t member => inside t (listed.queued t member)⟩
  exact ⟨listed.empty, listed.count_le⟩

theorem Win32.Phase.queued_inWait (phase : Win32.Phase) (queued : phase.queued = true) :
    phase.inWait = true := by
  cases phase <;> first | rfl | exact queued

theorem Darwin.Phase.queued_inWait (phase : Darwin.Phase) (queued : phase.queued = true) :
    phase.inWait = true := by
  cases phase <;> first | rfl | exact queued

/-- In every run in which no wait ends before its thread is dequeued the queue lists only threads
that are inside a wait, each of them once at most, and the `PushBack` of a thread does not throw if
the queue has room for all threads inside a wait. -/
theorem waits_without_traces {itemSize itemSize' : Word32} {win32 : Win32.State × Dequeued}
    {darwin : Darwin.State × Dequeued} (reached : (Win32.servedWaits itemSize).Reachable win32)
    (reached' : (Darwin.servedWaits itemSize').Reachable darwin) :
    (WithoutTraces (win32.1.memory.contents (threadQueue itemSize).size)
        (fun t => (win32.1.threads t).inWait) ∧
      ∀ waiters : Finset ThreadId, (∀ t, (win32.1.threads t).inWait = true → t ∈ waiters) →
        waiters.card ≤ (threadQueue itemSize).size.toNat →
        ∀ t call creates ends, win32.1.threads t = .pushing call →
          ∃ after, win32.1.step (threadQueue itemSize) (.advance t creates ends) = some after ∧
            after.threads t = .unlockingMutex call) ∧
    (WithoutTraces (darwin.1.memory.contents (threadQueue itemSize').size)
        (fun t => (darwin.1.threads t).inWait) ∧
      ∀ waiters : Finset ThreadId, (∀ t, (darwin.1.threads t).inWait = true → t ∈ waiters) →
        waiters.card ≤ (threadQueue itemSize').size.toNat →
        ∀ t call environment, darwin.1.threads t = .pushing call →
          ∃ after, darwin.1.step (threadQueue itemSize') (.advance t environment) = some after ∧
            after.threads t = .unlockingMutex call Darwin.messageSize) := by
  obtain ⟨_, listed, _⟩ := Win32.reachable_known reached
  obtain ⟨_, listed', _⟩ := Darwin.reachable_known reached'
  refine ⟨⟨?_, ?_⟩, ⟨?_, ?_⟩⟩
  · exact Listed.withoutTraces listed fun t => (win32.1.threads t).queued_inWait
  · intro waiters inside few t call creates ends at_t
    have shorter : (win32.1.memory.contents (threadQueue itemSize).size).length < waiters.card :=
      Listed.shorter listed (fun u queued => inside u ((win32.1.threads u).queued_inWait queued))
        (inside t (by rw [at_t]; rfl)) (by rw [at_t]; rfl)
    obtain ⟨run, pushes⟩ := pushBack_succeeds t (shorter.trans_le few)
    refine ⟨({ win32.1 with memory := run.memory }.goes t (.unlockingMutex call)), ?_, ?_⟩
    · show win32.1.advance (threadQueue itemSize) t creates ends = _
      unfold Win32.State.advance
      rw [at_t]
      dsimp only
      rw [pushes]
    · exact Win32.State.goes_self _ t _
  · exact Listed.withoutTraces listed' fun t => (darwin.1.threads t).queued_inWait
  · intro waiters inside few t call environment at_t
    have shorter : (darwin.1.memory.contents (threadQueue itemSize').size).length < waiters.card :=
      Listed.shorter listed' (fun u queued => inside u ((darwin.1.threads u).queued_inWait queued))
        (inside t (by rw [at_t]; rfl)) (by rw [at_t]; rfl)
    obtain ⟨run, pushes⟩ := pushBack_succeeds t (shorter.trans_le few)
    refine ⟨({ darwin.1 with memory := run.memory }.goes t
      (.unlockingMutex call Darwin.messageSize)), ?_, ?_⟩
    · show darwin.1.advance (threadQueue itemSize') t environment = _
      unfold Darwin.State.advance
      rw [at_t]
      dsimp only
      rw [pushes]
    · exact Darwin.State.goes_self _ t _

/-- Thread 1 waits with a timeout, thread 2 notifies it, and the wait ends; then thread 1 is about
to enqueue itself again. -/
def Win32.servedRun : List Win32.Event :=
  [Win32.Event.lockMutex 1 0, Win32.Event.wait 1 ⟨0, 0, true⟩] ++ turns 1 5 ++
    [Win32.Event.notify 2 ⟨1, false⟩] ++ turns 2 5 ++ turns 1 5 ++
    [Win32.Event.wait 1 ⟨0, 0, false⟩] ++ turns 1 2

theorem Win32.servedRun_replays :
    ((servedWaits 4).replay (start, fun _ => false) servedRun).isSome = true := by
  decide +kernel

def Win32.served : Win32.State × Dequeued :=
  ((servedWaits 4).replay (start, fun _ => false) servedRun).get servedRun_replays

/-- The same on the other system. -/
def Darwin.servedRun : List Darwin.Event :=
  [Darwin.Event.lockMutex 1 0, Darwin.Event.wait 1 ⟨0, true⟩] ++ turns 1 5 ++
    [Darwin.Event.notify 2 false] ++ turns 2 5 ++ turns 1 6 ++
    [Darwin.Event.wait 1 ⟨0, false⟩] ++ turns 1 2

theorem Darwin.servedRun_replays :
    ((servedWaits 4).replay (start, fun _ => false) servedRun).isSome = true := by
  decide +kernel

def Darwin.served : Darwin.State × Dequeued :=
  ((servedWaits 4).replay (start, fun _ => false) servedRun).get servedRun_replays

theorem waits_without_traces_served :
    (Win32.served.1.threads 1 = .pushing ⟨0, 0, false⟩ ∧
      WithoutTraces (Win32.served.1.memory.contents (threadQueue 4).size)
        fun t => (Win32.served.1.threads t).inWait) ∧
    (Darwin.served.1.threads 1 = .pushing ⟨0, false⟩ ∧
      WithoutTraces (Darwin.served.1.memory.contents (threadQueue 4).size)
        fun t => (Darwin.served.1.threads t).inWait) := by
  have starts : (Win32.servedWaits 4).initial (Win32.start, fun _ => false) :=
    ⟨Win32.start_initial, rfl⟩
  have starts' : (Darwin.servedWaits 4).initial (Darwin.start, fun _ => false) :=
    ⟨Darwin.start_initial, rfl⟩
  have without := waits_without_traces
    (System.Reachable.of_replay starts Win32.servedRun_replays)
    (System.Reachable.of_replay starts' Darwin.servedRun_replays)
  exact ⟨⟨by decide +kernel, without.1.1⟩, ⟨by decide +kernel, without.2.1⟩⟩

/-- Thread 1 waits until its timeout, and returns. -/
def Win32.leftRun : List Win32.Event :=
  [Win32.Event.lockMutex 1 0, Win32.Event.wait 1 ⟨0, 0, true⟩] ++ turns 1 5 ++
    [Win32.Event.advance 1 true .timeout] ++ turns 1 4

theorem Win32.leftRun_replays : ((conditionVariable 4).replay start leftRun).isSome = true := by
  decide +kernel

def Win32.left : Win32.State := ((conditionVariable 4).replay start leftRun).get leftRun_replays

/-- The same on the other system. -/
def Darwin.leftRun : List Darwin.Event :=
  [Darwin.Event.lockMutex 1 0, Darwin.Event.wait 1 ⟨0, true⟩] ++ turns 1 5 ++
    [Darwin.Event.advance 1 ⟨.succeeds, true, .timeout, true, true⟩] ++ turns 1 5

theorem Darwin.leftRun_replays : ((conditionVariable 4).replay start leftRun).isSome = true := by
  decide +kernel

def Darwin.left : Darwin.State := ((conditionVariable 4).replay start leftRun).get leftRun_replays

/-- The id of a thread whose wait has timed out stays in the queue. -/
theorem waits_leave_traces :
    ((Win32.conditionVariable 4).Reachable Win32.left ∧ Win32.left.threads 1 = .outside ∧
      Win32.left.memory.contents (threadQueue 4).size = [1] ∧
      ¬ WithoutTraces (Win32.left.memory.contents (threadQueue 4).size)
        fun t => (Win32.left.threads t).inWait) ∧
    ((Darwin.conditionVariable 4).Reachable Darwin.left ∧ Darwin.left.threads 1 = .outside ∧
      Darwin.left.memory.contents (threadQueue 4).size = [1] ∧
      ¬ WithoutTraces (Darwin.left.memory.contents (threadQueue 4).size)
        fun t => (Darwin.left.threads t).inWait) := by
  refine ⟨⟨System.Reachable.of_replay Win32.start_initial Win32.leftRun_replays,
      by decide +kernel, by decide +kernel, fun without => ?_⟩,
    ⟨System.Reachable.of_replay Darwin.start_initial Darwin.leftRun_replays,
      by decide +kernel, by decide +kernel, fun without => ?_⟩⟩
  · exact absurd (without.2 1) (by decide +kernel)
  · exact absurd (without.2 1) (by decide +kernel)

end Azul.Ipc
