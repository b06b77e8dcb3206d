import Azul.Ipc.Win32Waiters
import Azul.Ipc.DarwinSteps
import Mathlib.Data.Finset.Card

/-!
# What the thread queue lists

A waiter enqueues its id, and only a notifier dequeues it, except after a wait of `win32` that has
failed. As long as no wait leaves its id behind, the queue lists threads that wait, each of them
once.
-/

namespace Azul.Ipc

open Azul.Foundation Operation

/-- The queue lists threads that have enqueued themselves, each of them once. -/
structure Listed (contents : List ThreadId) (queued : ThreadId → Bool) : Prop where
  nodup : contents.Nodup
  queued : ∀ id ∈ contents, queued id = true

namespace Listed

variable {contents after : List ThreadId} {queued : ThreadId → Bool} {t : ThreadId} {waits : Bool}

/-- A step of one thread, which lists no other one. -/
theorem moves (listed : Listed contents queued) (nodup : after.Nodup)
    (others : ∀ u, u ≠ t → u ∈ after → u ∈ contents) (own : t ∈ after → waits = true) :
    Listed after (Function.update queued t waits) := by
  refine ⟨nodup, ?_⟩
  intro u member
  by_cases same : u = t
  · rw [same] at member ⊢
    rw [Function.update_self]
    exact own member
  · rw [Function.update_of_ne same]
    exact listed.queued u (others u same member)

/-- A step that leaves the queue as it is. -/
theorem stays (listed : Listed contents queued)
    (own : t ∈ contents → queued t = true → waits = true) :
    Listed contents (Function.update queued t waits) :=
  listed.moves listed.nodup (fun _ _ member => member)
    fun member => own member (listed.queued t member)

/-- A thread that has not enqueued itself is not listed. -/
theorem absent (listed : Listed contents queued) (silent : queued t = false) :
    t ∉ contents := by
  intro member
  have listed := listed.queued t member
  rw [silent] at listed
  cases listed

/-- A step of a thread that has not enqueued itself. -/
theorem elsewhere (listed : Listed contents queued) (silent : queued t = false) :
    Listed contents (Function.update queued t waits) :=
  listed.stays fun member _ => absurd member (listed.absent silent)

/-- A step that takes a thread on in its wait. -/
theorem within (listed : Listed contents queued) (within : waits = true) :
    Listed contents (Function.update queued t waits) :=
  listed.stays fun _ _ => within

/-- A thread enqueues itself. -/
theorem pushed (listed : Listed contents queued) (silent : queued t = false)
    (within : waits = true) : Listed (contents ++ [t]) (Function.update queued t waits) := by
  refine listed.moves ?_ ?_ (fun _ => within)
  · rw [← List.concat_eq_append]
    exact listed.nodup.concat (listed.absent silent)
  · intro u other member
    rcases List.mem_append.mp member with before | own
    · exact before
    · exact absurd (List.mem_singleton.mp own) other

/-- A thread that has not enqueued itself dequeues another one. -/
theorem popped {id : ThreadId} (listed : Listed (id :: after) queued) (silent : queued t = false) :
    Listed after (Function.update queued t waits) := by
  refine listed.moves listed.nodup.of_cons (fun _ _ => List.mem_cons_of_mem id) ?_
  exact fun member => absurd (List.mem_cons_of_mem id member) (listed.absent silent)

/-- The queue is empty while no thread waits. -/
theorem empty (listed : Listed contents queued) (none : ∀ u, queued u = false) :
    contents = [] :=
  List.eq_nil_iff_forall_not_mem.mpr fun u => listed.absent (none u)

/-- The queue has one entry of a thread at most, and only while that waits. -/
theorem count_le (listed : Listed contents queued) (u : ThreadId) :
    contents.count u ≤ if queued u = true then 1 else 0 := by
  split_ifs with waits
  · exact List.nodup_iff_count_le_one.mp listed.nodup u
  · have silent : queued u = false := eq_false_of_ne_true waits
    exact Nat.le_of_eq (List.count_eq_zero.mpr (listed.absent silent))

/-- The queue is shorter than the number of threads that wait, as seen by one that has not enqueued
itself yet. -/
theorem shorter {waiters : Finset ThreadId} (listed : Listed contents queued)
    (waits : ∀ u, queued u = true → u ∈ waiters) (own : t ∈ waiters) (silent : queued t = false) :
    contents.length < waiters.card := by
  have others : contents.toFinset ⊆ waiters.erase t := by
    intro u member
    have inside := List.mem_toFinset.mp member
    have apart : u ≠ t := by
      intro same
      rw [same] at inside
      exact listed.absent silent inside
    exact Finset.mem_erase.mpr ⟨apart, waits u (listed.queued u inside)⟩
  calc
    contents.length = contents.toFinset.card :=
      (List.toFinset_card_of_nodup listed.nodup).symm
    _ ≤ (waiters.erase t).card := Finset.card_le_card others
    _ < waiters.card := Finset.card_erase_lt_of_mem own

end Listed

/-- `PushBack` succeeds as long as fewer ids are listed than the queue has room for. -/
theorem pushBack_succeeds {queue : Queue} {memory : Memory ThreadId} (id : ThreadId)
    (room : (memory.contents queue.size).length < queue.size.toNat) :
    ∃ run, (queue.pushBack id).perform (Run.new memory) = (.ok (), run) := by
  have space : (Run.new memory).memory.count < queue.size := by
    rw [Memory.contents_length] at room
    exact room
  exact ⟨_, Queue.pushBack_perform space id⟩

/-! ## `win32` -/

namespace Win32

namespace Phase

/-- The thread has enqueued itself, and its wait has not ended. -/
def queued : Phase → Bool
  | unlockingMutex _ | unlocking _ | waiting _ | relocking _ _ | relockingMutex _ _
  | relocked _ _ => true
  | outside | lockingWait _ | gettingOwn _ | pushing _ | lockingNotify _ | notifying _
  | getting _ _ | releasing _ _ | unwinding _ => false

/-- The thread is in `Wait` or `WaitFor`. -/
def inWait : Phase → Bool
  | lockingWait _ | gettingOwn _ | pushing _ => true
  | phase => phase.queued

end Phase

/-- No wait ends with its id in the queue, unless it has failed. -/
def Event.Traceless (queue : Queue) (state : State) : Event → Prop
  | .advance t _ _ =>
    match state.threads t with
    | .relocked _ result => result = .failed ∨ t ∉ state.memory.contents queue.size
    | _ => True
  | _ => True

/-- What is listed of a state. -/
def State.Listed (queue : Queue) (state : State) : Prop :=
  Ipc.Listed (state.memory.contents queue.size) fun t => (state.threads t).queued

section Steps

variable {queue : Queue} {state : State} {t : ThreadId} {phase : Phase}

theorem State.listed_goes : (state.goes t phase).Listed queue ↔
    Ipc.Listed (state.memory.contents queue.size)
      (Function.update (fun u => (state.threads u).queued) t phase.queued) := by
  have threads : (fun u => ((state.goes t phase).threads u).queued) =
      Function.update (fun u => (state.threads u).queued) t phase.queued :=
    Function.comp_update Phase.queued state.threads t phase
  show Ipc.Listed _ (fun u => ((state.goes t phase).threads u).queued) ↔ _
  rw [threads]
  rfl

theorem Moved.listed {after : State} {event : Event} (room : 3 * queue.size.toNat ≤ 2 ^ 32)
    (valid : state.memory.Valid queue.size) (listed : state.Listed queue)
    (traceless : event.Traceless queue state) (moved : Moved queue state event after) :
    after.Listed queue := by
  have silent : ∀ {u phase}, state.threads u = phase → phase.queued = false →
      (fun u => (state.threads u).queued) u = false := by
    intro u phase at_u quiet
    show (state.threads u).queued = false
    rw [at_u]
    exact quiet
  cases moved with
  | lockMutex at_t _ | unlockMutex at_t _ | closes may => exact listed
  | wait at_t held => exact State.listed_goes.mpr (Ipc.Listed.elsewhere listed (silent at_t rfl))
  | notify at_t | lockedWait at_t _ | noneOwn at_t _ | full at_t | lockedNotify at_t _
  | notified at_t | noneGot at_t _ | released at_t | unwound at_t =>
    exact State.listed_goes.mpr (Ipc.Listed.elsewhere listed (silent at_t rfl))
  | gotOwn at_t gets | got at_t gets =>
    have kept := gets.gets
    apply State.listed_goes.mpr
    rw [kept.memory, kept.threads]
    exact Ipc.Listed.elsewhere listed (silent at_t rfl)
  | unlockedMutex at_t | unlocked at_t | signalled at_t _ | timedOut at_t _ | failed at_t
  | relocked at_t _ | relockedMutex at_t _ =>
    exact State.listed_goes.mpr (Ipc.Listed.within listed rfl)
  | @pushed t call run creates ends at_t pushes =>
    apply State.listed_goes.mpr
    show Ipc.Listed (run.memory.contents queue.size) _
    rw [(pushed_contents room valid pushes).2]
    exact Ipc.Listed.pushed listed (silent at_t rfl) rfl
  | @ended t call result outcome creates ends at_t regular =>
    refine State.listed_goes.mpr (Ipc.Listed.stays listed ?_)
    intro member _
    unfold Event.Traceless at traceless
    simp only [at_t] at traceless
    rcases traceless with fails | gone
    · exact absurd fails regular
    · exact absurd member gone
  | threw at_t throws => exact absurd throws (removes_returns room valid _ _)
  | @removed t call run taken outcome creates ends at_t removes =>
    have rest := (removed_contents room valid removes).2
    refine State.listed_goes.mpr (Ipc.Listed.moves listed ?_ ?_ ?_)
    · exact rest.nodup_iff.mpr (listed.nodup.erase t)
    · intro u _ member
      exact List.mem_of_mem_erase (rest.mem_iff.mp member)
    · intro member
      exact absurd (rest.mem_iff.mp member) listed.nodup.not_mem_erase
  | @popped t call id run creates ends at_t pops =>
    have before : Ipc.Listed (id :: run.memory.contents queue.size)
        fun u => (state.threads u).queued := by
      rw [← (popped_contents room valid pops).2]
      exact listed
    exact State.listed_goes.mpr (before.popped (silent at_t rfl))

end Steps

end Win32

/-! ## `darwin` -/

namespace Darwin

namespace Phase

/-- The thread has created its pipe in a wait, and has not removed it yet. -/
def queued : Phase → Bool
  | unlockingMutex _ _ | unlocking _ _ | reading _ _ | relocking _ _ _ | relockingMutex _ _ _
  | relocked _ _ _ | removing _ | abandoning _ => true
  | outside | lockingWait _ | creating _ | pushing _ | lockingNotify _ | notifying _
  | opening _ _ | writing _ _ | unwinding _ => false

/-- The thread is in `Wait` or `WaitFor`. -/
def inWait : Phase → Bool
  | lockingWait _ | creating _ | pushing _ => true
  | phase => phase.queued

end Phase

/-- No wait ends with its id in the queue. -/
def Event.Traceless (queue : Queue) (state : State) : Event → Prop
  | .advance t _ =>
    match state.threads t with
    | .removing _ | .abandoning _ => t ∉ state.memory.contents queue.size
    | _ => True
  | _ => True

/-- What is listed of a state. -/
def State.Listed (queue : Queue) (state : State) : Prop :=
  Ipc.Listed (state.memory.contents queue.size) fun t => (state.threads t).queued

section Steps

variable {queue : Queue} {state : State} {t : ThreadId} {phase : Phase}

theorem State.listed_goes : (state.goes t phase).Listed queue ↔
    Ipc.Listed (state.memory.contents queue.size)
      (Function.update (fun u => (state.threads u).queued) t phase.queued) := by
  have threads : (fun u => ((state.goes t phase).threads u).queued) =
      Function.update (fun u => (state.threads u).queued) t phase.queued :=
    Function.comp_update Phase.queued state.threads t phase
  show Ipc.Listed _ (fun u => ((state.goes t phase).threads u).queued) ↔ _
  rw [threads]
  rfl

theorem Moved.listed {after : State} {event : Event} (room : 3 * queue.size.toNat ≤ 2 ^ 32)
    (valid : state.memory.Valid queue.size) (listed : state.Listed queue)
    (traceless : event.Traceless queue state) (moved : Moved queue state event after) :
    after.memory.Valid queue.size ∧ after.Listed queue := by
  have silent : ∀ {u phase}, state.threads u = phase → phase.queued = false →
      (fun u => (state.threads u).queued) u = false := by
    intro u phase at_u quiet
    show (state.threads u).queued = false
    rw [at_u]
    exact quiet
  cases moved with
  | lockMutex at_t _ _ | unlockMutex at_t _ => exact ⟨valid, listed⟩
  | wait at_t held =>
    exact ⟨valid, State.listed_goes.mpr (Ipc.Listed.elsewhere listed (silent at_t rfl))⟩
  | notify at_t | lockedWait at_t _ _ | created at_t _ | notCreated at_t | leftBehind at_t _
  | lockedNotify at_t _ _ | notPopped at_t _ _ | drained at_t _ | opened at_t _ | notOpened at_t _
  | written at_t _ | notWritten at_t _ | unwound at_t =>
    exact ⟨valid, State.listed_goes.mpr (Ipc.Listed.elsewhere listed (silent at_t rfl))⟩
  | notLockedWait at_t throws | notLockedNotify at_t throws =>
    obtain ⟨left, same⟩ := throws.same
    rw [same]
    exact ⟨valid, State.listed_goes.mpr (Ipc.Listed.elsewhere listed (silent at_t rfl))⟩
  | full at_t => exact ⟨valid, State.listed_goes.mpr (Ipc.Listed.within listed rfl)⟩
  | unlockedMutex at_t | notUnlockedMutex at_t _ | unlocked at_t _ | notUnlocked at_t _
  | timedOut at_t _ _ | threw at_t _ | relocked at_t _ _ _ | relockedMutex at_t _ _ _
  | again at_t _ | ended at_t =>
    exact ⟨valid, State.listed_goes.mpr (Ipc.Listed.within listed rfl)⟩
  | notRelocked at_t throws | notRelockedMutex at_t throws =>
    obtain ⟨left, same⟩ := throws.same
    rw [same]
    exact ⟨valid, State.listed_goes.mpr (Ipc.Listed.within listed rfl)⟩
  | @read t call toRead count phase environment at_t bytes some_count enough reads =>
    have waits : phase.queued = true := by
      rcases reads with same | ⟨_, same⟩ | ⟨_, same⟩ <;> rw [same] <;> rfl
    exact ⟨valid, State.listed_goes.mpr (Ipc.Listed.within listed waits)⟩
  | @pushed t call run environment at_t pushes =>
    obtain ⟨kept, appended⟩ := Win32.pushed_contents room valid pushes
    refine ⟨kept, State.listed_goes.mpr ?_⟩
    show Ipc.Listed (run.memory.contents queue.size) _
    rw [appended]
    exact Ipc.Listed.pushed listed (silent at_t rfl) rfl
  | @removed t outcome environment at_t | @abandoned t outcome environment at_t =>
    have gone : t ∉ state.memory.contents queue.size := by
      unfold Event.Traceless at traceless
      simp only [at_t] at traceless
      exact traceless
    exact ⟨valid, State.listed_goes.mpr
      (Ipc.Listed.stays listed fun member _ => absurd member gone)⟩
  | @popped t all id run environment at_t pops =>
    obtain ⟨kept, taken⟩ := Win32.popped_contents room valid pops
    have before : Ipc.Listed (id :: run.memory.contents queue.size)
        fun u => (state.threads u).queued := by
      rw [← taken]
      exact listed
    exact ⟨kept, State.listed_goes.mpr (before.popped (silent at_t rfl))⟩

end Steps

/-- The queue of fresh objects is valid, and lists nobody. -/
theorem initial_listed {itemSize : Word32} {state : State}
    (starts : (conditionVariable itemSize).initial state) :
    state.memory.Valid (threadQueue itemSize).size ∧
      state.memory.contents (threadQueue itemSize).size = [] := by
  obtain ⟨⟨before, constructed, constructs, memory⟩, _⟩ := starts
  rw [Queue.construct_perform] at constructs
  obtain ⟨_, started⟩ := Prod.mk.inj constructs
  constructor
  · rw [← memory, ← started]
    exact Memory.valid_zero before.items _
  · rw [← memory, ← started]
    rfl

end Darwin

end Azul.Ipc
