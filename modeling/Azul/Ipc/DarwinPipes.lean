import Azul.Ipc.ThreadQueue

/-!
# The pipes of the `darwin` condition variable

A pipe lives as long as its wait, and its thread gets one message through it, after a notifier has
dequeued the thread. This holds as long as no wait removes its pipe while a notification of it is
under way: while its id is in the queue, or a notifier has dequeued it and has not written yet.
-/

namespace Azul.Ipc.Darwin

open Azul.Foundation Operation

namespace Phase

/-- The thread that a notifier has dequeued and not yet written to. -/
def notified : Phase → Option ThreadId
  | opening _ id | writing _ id => some id
  | outside | lockingWait _ | creating _ | pushing _ | unlockingMutex _ _ | unlocking _ _
  | reading _ _ | relocking _ _ _ | relockingMutex _ _ _ | relocked _ _ _ | removing _
  | abandoning _ | lockingNotify _ | notifying _ | unwinding _ => none

/-- How many bytes a thread has yet to get in its wait. -/
def owed : Phase → Option Nat
  | unlockingMutex _ toRead | unlocking _ toRead | reading _ toRead => some toRead
  | relocking _ toRead result | relockingMutex _ toRead result | relocked _ toRead result =>
    result.map (toRead - ·)
  | outside | lockingWait _ | creating _ | pushing _ | removing _ | abandoning _ | lockingNotify _
  | notifying _ | opening _ _ | writing _ _ | unwinding _ => none

/-- The thread goes on to read if it has to. -/
def reads : Phase → Bool
  | unlockingMutex _ _ | unlocking _ _ | reading _ _ => true
  | outside | lockingWait _ | creating _ | pushing _ | relocking _ _ _ | relockingMutex _ _ _
  | relocked _ _ _ | removing _ | abandoning _ | lockingNotify _ | notifying _ | opening _ _
  | writing _ _ | unwinding _ => false

end Phase

/-- A notification of a thread is under way. -/
def State.Pending (queue : Queue) (state : State) (t : ThreadId) : Prop :=
  t ∈ state.memory.contents queue.size ∨ ∃ n, (state.threads n).notified = some t

/-- What a notifier that holds the queue mutex has dequeued. -/
def State.dequeued (state : State) : Option ThreadId :=
  state.queueMutex.bind fun holder => (state.threads holder).notified

/-- No wait removes its pipe while a notification of it is under way, and pipes that exist can be
opened and written to. -/
def Event.Undisturbed (queue : Queue) (state : State) : Event → Prop
  | .advance t environment =>
    match state.threads t with
    | .removing _ | .abandoning _ =>
      t ∉ state.memory.contents queue.size ∧ state.dequeued ≠ some t
    | .opening _ _ => environment.opens = true
    | .writing _ _ => environment.writes = true
    | _ => True
  | _ => True

instance (queue : Queue) (state : State) (event : Event) :
    Decidable (event.Undisturbed queue state) :=
  match event with
  | .advance t environment => by
    apply Phase.casesOn (motive := fun phase => Decidable (match phase with
      | .removing _ | .abandoning _ =>
        t ∉ state.memory.contents queue.size ∧ state.dequeued ≠ some t
      | .opening _ _ => environment.opens = true
      | .writing _ _ => environment.writes = true
      | _ => True)) (state.threads t)
    all_goals intros
    all_goals infer_instance
  | .lockMutex _ _ | .unlockMutex _ _ | .wait _ _ | .notify _ _ => instDecidableTrue

/-- What holds of a thread by the phase it is in. -/
structure PhaseOk (queue : Queue) (state : State) (t : ThreadId) (phase : Phase) : Prop where
  holder : phase.holds = true → state.queueMutex = some t
  pipe : phase.queued = true → (state.fifos t).isSome = true
  fresh : ∀ call, phase = .pushing call → state.fifos t = some 0
  unread : ∀ bytes, phase.owed = some bytes → state.Pending queue t →
    state.fifos t = some 0 ∧ bytes = messageSize
  sent : ∀ bytes, phase.owed = some bytes → ¬ state.Pending queue t → state.fifos t = some bytes
  more : ∀ bytes, phase.reads = true → phase.owed = some bytes → 0 < bytes
  notified : ∀ id, phase.notified = some id →
    id ∉ state.memory.contents queue.size ∧ (state.threads id).queued = true

/-- The invariant. -/
structure Ok (queue : Queue) (state : State) : Prop where
  valid : state.memory.Valid queue.size
  listed : state.Listed queue
  phases : ∀ t, PhaseOk queue state t (state.threads t)

section Steps

variable {queue : Queue} {state next after : State} {t : ThreadId} {phase : Phase}

/-- The holder of the queue mutex is unique. -/
theorem Ok.holder_unique (ok : Ok queue state) {u : ThreadId}
    (first : (state.threads t).holds = true) (second : (state.threads u).holds = true) : t = u := by
  have holds := (ok.phases t).holder first
  rw [(ok.phases u).holder second] at holds
  exact (Option.some.inj holds).symm

/-- No thread holds the queue mutex while it is free. -/
theorem Ok.free (ok : Ok queue state) (free : state.queueMutex = none) (u : ThreadId) :
    (state.threads u).holds = false := by
  apply eq_false_of_ne_true
  intro holds
  have holder := (ok.phases u).holder holds
  rw [free] at holder
  cases holder

/-- A notifier that has dequeued a thread holds the queue mutex. -/
theorem Phase.holds_of_notified {id : ThreadId} (notified : phase.notified = some id) :
    phase.holds = true := by
  cases phase <;> first | rfl | cases notified

/-- A thread whose notification is under way is inside its wait. -/
theorem Ok.pending_queued (ok : Ok queue state) (pending : state.Pending queue t) :
    (state.threads t).queued = true := by
  rcases pending with member | ⟨n, notified⟩
  · exact ok.listed.queued t member
  · exact ((ok.phases n).notified t notified).2

/-- What a step of a thread leaves to another one. -/
theorem PhaseOk.kept {u : ThreadId} (own : PhaseOk queue state u phase)
    (holder : phase.holds = true → state.queueMutex = some u → after.queueMutex = some u)
    (fifos : after.fifos u = state.fifos u)
    (pending : after.Pending queue u ↔ state.Pending queue u)
    (notified : ∀ id, phase.notified = some id →
      id ∉ state.memory.contents queue.size → (state.threads id).queued = true →
        id ∉ after.memory.contents queue.size ∧ (after.threads id).queued = true) :
    PhaseOk queue after u phase where
  holder holds := holder holds (own.holder holds)
  pipe queued := by
    rw [fifos]
    exact own.pipe queued
  fresh call at_u := by
    rw [fifos]
    exact own.fresh call at_u
  unread bytes owed under_way := by
    rw [fifos]
    exact own.unread bytes owed (pending.mp under_way)
  sent bytes owed done := by
    rw [fifos]
    exact own.sent bytes owed fun under_way => done (pending.mpr under_way)
  more := own.more
  notified id dequeued := by
    obtain ⟨absent, queued⟩ := own.notified id dequeued
    exact notified id dequeued absent queued

/-- A step of a thread that adds nothing to the queue. -/
theorem Ok.goes (ok : Ok queue state) (threads : next.threads = state.threads)
    (listed : next.memory.Valid queue.size ∧ (next.goes t phase).Listed queue)
    (holder : ∀ u, u ≠ t → (state.threads u).holds = true → next.queueMutex = state.queueMutex)
    (fifos : ∀ u, u ≠ t → next.fifos u = state.fifos u)
    (pending : ∀ u, u ≠ t → ((next.goes t phase).Pending queue u ↔ state.Pending queue u))
    (fewer : ∀ u, u ∈ next.memory.contents queue.size → u ∈ state.memory.contents queue.size)
    (queued : state.Pending queue t → phase.queued = true)
    (own : PhaseOk queue (next.goes t phase) t phase) : Ok queue (next.goes t phase) where
  valid := listed.1
  listed := listed.2
  phases u := by
    by_cases same : u = t
    · rw [same, State.goes_self]
      exact own
    · rw [State.goes_other _ _ same, threads]
      refine (ok.phases u).kept ?_ (fifos u same) (pending u same) ?_
      · intro holds held
        rw [← held]
        exact holder u same holds
      · intro id notified absent waits
        refine ⟨fun member => absent (fewer id member), ?_⟩
        by_cases itself : id = t
        · rw [itself, State.goes_self]
          rw [itself] at notified
          exact queued (Or.inr ⟨u, notified⟩)
        · rw [State.goes_other _ _ itself, threads]
          exact waits

/-- Which notifications are under way depends on the queue and on what notifiers have dequeued. -/
theorem State.pending_goes (threads : next.threads = state.threads)
    (memory : next.memory = state.memory)
    (notified : phase.notified = (state.threads t).notified) (u : ThreadId) :
    (next.goes t phase).Pending queue u ↔ state.Pending queue u := by
  have same : ∀ n, ((next.goes t phase).threads n).notified = (state.threads n).notified := by
    intro n
    by_cases itself : n = t
    · rw [itself, State.goes_self, notified]
    · rw [State.goes_other _ _ itself, threads]
  unfold State.Pending
  show u ∈ next.memory.contents queue.size ∨ _ ↔ _
  rw [memory]
  simp only [same]

/-- A step of a thread that leaves the queue and what is dequeued as they are. -/
theorem Ok.quiet (ok : Ok queue state) (threads : next.threads = state.threads)
    (memory : next.memory = state.memory) (listed : (next.goes t phase).Listed queue)
    (holder : ∀ u, u ≠ t → (state.threads u).holds = true → next.queueMutex = state.queueMutex)
    (fifos : ∀ u, u ≠ t → next.fifos u = state.fifos u)
    (notified : phase.notified = (state.threads t).notified)
    (queued : state.Pending queue t → phase.queued = true)
    (own : PhaseOk queue (next.goes t phase) t phase) : Ok queue (next.goes t phase) := by
  refine ok.goes threads ⟨?_, listed⟩ holder fifos ?_ ?_ queued own
  · rw [memory]
    exact ok.valid
  · exact fun u _ => State.pending_goes threads memory notified u
  · intro u member
    rw [← memory]
    exact member

/-- A phase in which a thread gets no bytes and has dequeued nobody. -/
theorem PhaseOk.silent (holder : phase.holds = true → state.queueMutex = some t)
    (pipe : phase.queued = true → (state.fifos t).isSome = true)
    (fresh : ∀ call, phase ≠ .pushing call) (owed : phase.owed = none)
    (notified : phase.notified = none) : PhaseOk queue state t phase where
  holder := holder
  pipe := pipe
  fresh call at_t := absurd at_t (fresh call)
  unread bytes owes := by
    rw [owed] at owes
    cases owes
  sent bytes owes := by
    rw [owed] at owes
    cases owes
  more bytes _ owes := by
    rw [owed] at owes
    cases owes
  notified id dequeued := by
    rw [notified] at dequeued
    cases dequeued

/-- A wait goes on without getting any bytes. -/
theorem PhaseOk.goes_on {old : Phase} (before : PhaseOk queue state t old)
    (holder : phase.holds = true → after.queueMutex = some t) (waits : old.queued = true)
    (fifos : after.fifos t = state.fifos t)
    (pending : after.Pending queue t ↔ state.Pending queue t)
    (fresh : ∀ call, phase ≠ .pushing call) (owed : phase.owed = old.owed)
    (more : ∀ bytes, phase.reads = true → phase.owed = some bytes → 0 < bytes)
    (notified : phase.notified = none) : PhaseOk queue after t phase where
  holder := holder
  pipe _ := by
    rw [fifos]
    exact before.pipe waits
  fresh call at_t := absurd at_t (fresh call)
  unread bytes owes under_way := by
    rw [owed] at owes
    rw [fifos]
    exact before.unread bytes owes (pending.mp under_way)
  sent bytes owes done := by
    rw [owed] at owes
    rw [fifos]
    exact before.sent bytes owes fun under_way => done (pending.mpr under_way)
  more := more
  notified id dequeued := by
    rw [notified] at dequeued
    cases dequeued

/-- A thread enqueues itself. -/
theorem Ok.pushed (ok : Ok queue state) {call : WaitCall} {memory : Memory ThreadId}
    (at_t : state.threads t = .pushing call)
    (listed : memory.Valid queue.size ∧
      ({ state with memory := memory }.goes t (.unlockingMutex call messageSize)).Listed queue)
    (appended : memory.contents queue.size = state.memory.contents queue.size ++ [t]) :
    Ok queue ({ state with memory := memory }.goes t (.unlockingMutex call messageSize)) where
  valid := listed.1
  listed := listed.2
  phases u := by
    have holds : (state.threads t).holds = true := by rw [at_t]; rfl
    have unnotified : ∀ n id, (state.threads n).notified ≠ some id := by
      intro n id notified
      have same := ok.holder_unique (Phase.holds_of_notified notified) holds
      rw [same, at_t] at notified
      cases notified
    have fresh := (ok.phases t).fresh call at_t
    have held := (ok.phases t).holder holds
    have own : ∀ v, v ∈ memory.contents queue.size ↔
        v ∈ state.memory.contents queue.size ∨ v = t := by
      intro v
      rw [appended, List.mem_append, List.mem_singleton]
    by_cases same : u = t
    · rw [same, State.goes_self]
      have under_way : ({ state with memory := memory }.goes t
          (.unlockingMutex call messageSize)).Pending queue t :=
        Or.inl ((own t).mpr (Or.inr rfl))
      constructor
      · exact fun _ => held
      · intro _
        show (state.fifos t).isSome = true
        rw [fresh]
        rfl
      · exact fun _ => nofun
      · intro bytes owes _
        exact ⟨fresh, (Option.some.inj owes).symm⟩
      · exact fun _ _ done => absurd under_way done
      · intro bytes _ owes
        rw [← Option.some.inj owes]
        decide
      · exact fun _ => nofun
    · rw [State.goes_other _ _ same]
      refine (ok.phases u).kept (fun _ held => held) rfl ?_ ?_
      · have others : ∀ n, (({ state with memory := memory }.goes t
            (.unlockingMutex call messageSize)).threads n).notified ≠ some u := by
          intro n
          by_cases itself : n = t
          · rw [itself, State.goes_self]
            nofun
          · rw [State.goes_other _ _ itself]
            exact unnotified n u
        constructor
        · rintro (member | ⟨n, notified⟩)
          · exact Or.inl (((own u).mp member).resolve_right same)
          · exact absurd notified (others n)
        · rintro (member | ⟨n, notified⟩)
          · exact Or.inl ((own u).mpr (Or.inl member))
          · exact absurd notified (unnotified n u)
      · exact fun id notified => absurd notified (unnotified u id)

/-- A thread reads a part of its message. -/
theorem Ok.read (ok : Ok queue state) {call : WaitCall} {toRead count : Nat}
    (at_t : state.threads t = .reading call toRead) (some_count : 0 < count)
    (enough : count ≤ min ((state.fifos t).getD 0) toRead)
    (reads : phase = .relocking call toRead (some count) ∨
      (0 < toRead - count ∧ phase = .reading call (toRead - count)) ∨
      (toRead - count = 0 ∧ phase = .relocking call 0 (some 0)))
    (listed : ((state.setFifo t ((state.fifos t).map (· - count))).goes t phase).Listed queue) :
    Ok queue ((state.setFifo t ((state.fifos t).map (· - count))).goes t phase) := by
  have before : PhaseOk queue state t (.reading call toRead) := at_t ▸ ok.phases t
  have arrived : ¬ state.Pending queue t := by
    intro under_way
    have empty := (before.unread toRead rfl under_way).1
    rw [empty] at enough
    change count ≤ min 0 toRead at enough
    omega
  have all := before.sent toRead rfl arrived
  have left : (state.setFifo t ((state.fifos t).map (· - count))).fifos t =
      some (toRead - count) := by
    show Function.update state.fifos t ((state.fifos t).map (· - count)) t = _
    rw [Function.update_self, all]
    rfl
  have owed : phase.owed = some (toRead - count) := by
    rcases reads with same | ⟨_, same⟩ | ⟨none_left, same⟩
    · rw [same]
      rfl
    · rw [same]
      rfl
    · rw [same, none_left]
      rfl
  have unnotified : phase.notified = none := by
    rcases reads with same | ⟨_, same⟩ | ⟨_, same⟩ <;> rw [same] <;> rfl
  have unheld : phase.holds = false := by
    rcases reads with same | ⟨_, same⟩ | ⟨_, same⟩ <;> rw [same] <;> rfl
  have unpushed : ∀ call, phase ≠ .pushing call := by
    intro other
    rcases reads with same | ⟨_, same⟩ | ⟨_, same⟩ <;> rw [same] <;> nofun
  have notified : phase.notified = (state.threads t).notified := by
    rw [unnotified, at_t]
    rfl
  have still : ¬ ((state.setFifo t ((state.fifos t).map (· - count))).goes t phase).Pending
      queue t :=
    fun under_way => arrived ((State.pending_goes rfl rfl notified t).mp under_way)
  refine ok.quiet rfl rfl listed (fun _ _ _ => rfl) ?_ notified ?_ ?_
  · exact fun u other => Function.update_of_ne other _ _
  · exact fun under_way => absurd under_way arrived
  · constructor
    · intro holds
      rw [unheld] at holds
      cases holds
    · intro _
      show ((state.setFifo t ((state.fifos t).map (· - count))).fifos t).isSome = true
      rw [left]
      rfl
    · exact fun other at_phase => absurd at_phase (unpushed other)
    · exact fun _ _ under_way => absurd under_way still
    · intro bytes owes _
      show (state.setFifo t ((state.fifos t).map (· - count))).fifos t = some bytes
      rw [left, ← owed]
      exact owes
    · intro bytes goes_on owes
      rw [owed] at owes
      have count_left := Option.some.inj owes
      rcases reads with same | ⟨more, same⟩ | ⟨_, same⟩
      · rw [same] at goes_on
        cases goes_on
      · omega
      · rw [same] at goes_on
        cases goes_on
    · intro id dequeued
      rw [unnotified] at dequeued
      cases dequeued

/-- A notifier dequeues a thread. -/
theorem Ok.popped (ok : Ok queue state) {all : Bool} {id : ThreadId} {memory : Memory ThreadId}
    (at_t : state.threads t = .notifying all)
    (listed : memory.Valid queue.size ∧
      ({ state with memory := memory }.goes t (.opening all id)).Listed queue)
    (taken : state.memory.contents queue.size = id :: memory.contents queue.size) :
    Ok queue ({ state with memory := memory }.goes t (.opening all id)) := by
  have nodup : (id :: memory.contents queue.size).Nodup := taken ▸ ok.listed.nodup
  have member : id ∈ state.memory.contents queue.size := by
    rw [taken]
    exact List.mem_cons_self
  have waits := ok.listed.queued id member
  have apart : id ≠ t := by
    intro same
    rw [same, at_t] at waits
    cases waits
  have held : state.queueMutex = some t := (ok.phases t).holder (by rw [at_t]; rfl)
  refine ok.goes rfl listed (fun _ _ _ => rfl) (fun _ _ => rfl) ?_ ?_ ?_ ?_
  · intro u _
    constructor
    · rintro (left | ⟨n, notified⟩)
      · refine Or.inl ?_
        rw [taken]
        exact List.mem_cons_of_mem id left
      · by_cases itself : n = t
        · rw [itself, State.goes_self] at notified
          rw [← Option.some.inj notified]
          exact Or.inl member
        · rw [State.goes_other _ _ itself] at notified
          exact Or.inr ⟨n, notified⟩
    · rintro (left | ⟨n, notified⟩)
      · rw [taken] at left
        rcases List.mem_cons.mp left with first | rest
        · refine Or.inr ⟨t, ?_⟩
          rw [State.goes_self, first]
          rfl
        · exact Or.inl rest
      · refine Or.inr ⟨n, ?_⟩
        have itself : n ≠ t := by
          intro same
          rw [same, at_t] at notified
          cases notified
        rw [State.goes_other _ _ itself]
        exact notified
  · intro u left
    rw [taken]
    exact List.mem_cons_of_mem id left
  · intro under_way
    have waiting := ok.pending_queued under_way
    rw [at_t] at waiting
    cases waiting
  · constructor
    · exact fun _ => held
    · exact nofun
    · exact fun _ => nofun
    · exact fun _ => nofun
    · exact fun _ => nofun
    · exact fun _ => nofun
    · intro other dequeued
      rw [← Option.some.inj dequeued]
      refine ⟨(List.nodup_cons.mp nodup).1, ?_⟩
      rw [State.goes_other _ _ apart]
      exact waits

/-- A notifier writes to the thread that it has dequeued. -/
theorem Ok.written (ok : Ok queue state) {all : Bool} {id : ThreadId}
    (at_t : state.threads t = .writing all id) (silent : phase.notified = none)
    (outside : phase.queued = false) (owed : phase.owed = none)
    (unpushed : ∀ call, phase ≠ .pushing call)
    (listed : ((state.setFifo id ((state.fifos id).map (· + messageSize))).goes t phase).Listed
      queue) :
    Ok queue ((state.setFifo id ((state.fifos id).map (· + messageSize))).goes t phase) := by
  have before : PhaseOk queue state t (.writing all id) := at_t ▸ ok.phases t
  have held := before.holder rfl
  obtain ⟨absent, waits⟩ := before.notified id rfl
  have only : ∀ n other, (state.threads n).notified = some other → n = t ∧ other = id := by
    intro n other notified
    have same : n = t :=
      ok.holder_unique (Phase.holds_of_notified notified) (by rw [at_t]; rfl)
    rw [same, at_t] at notified
    exact ⟨same, (Option.some.inj notified).symm⟩
  have apart : id ≠ t := by
    intro same
    rw [same, at_t] at waits
    cases waits
  have none_left : ∀ n other,
      (((state.setFifo id ((state.fifos id).map (· + messageSize))).goes t phase).threads
        n).notified ≠ some other := by
    intro n other notified
    by_cases itself : n = t
    · rw [itself, State.goes_self, silent] at notified
      cases notified
    · rw [State.goes_other _ _ itself] at notified
      exact itself (only n other notified).1
  refine ⟨ok.valid, listed, ?_⟩
  intro u
  by_cases same : u = t
  · rw [same, State.goes_self]
    refine .silent (fun _ => held) ?_ unpushed owed silent
    intro queued
    rw [outside] at queued
    cases queued
  · rw [State.goes_other _ _ same]
    by_cases itself : u = id
    · have waiter : PhaseOk queue state id (state.threads id) := ok.phases id
      have pending : state.Pending queue id := Or.inr ⟨t, by rw [at_t]; rfl⟩
      have filled : ∀ bytes, state.fifos id = some bytes →
          (state.setFifo id ((state.fifos id).map (· + messageSize))).fifos id =
            some (bytes + messageSize) := by
        intro bytes some_bytes
        show Function.update state.fifos id _ id = _
        rw [Function.update_self, some_bytes]
        rfl
      rw [itself]
      change PhaseOk queue _ id (state.threads id)
      constructor
      · exact waiter.holder
      · intro queued
        obtain ⟨bytes, some_bytes⟩ := Option.isSome_iff_exists.mp (waiter.pipe queued)
        show ((state.setFifo id ((state.fifos id).map (· + messageSize))).fifos id).isSome = true
        rw [filled bytes some_bytes]
        rfl
      · intro call at_id
        rw [at_id] at waits
        cases waits
      · rintro bytes _ (member | ⟨n, notified⟩)
        · exact absurd member absent
        · exact absurd notified (none_left n id)
      · intro bytes owes _
        obtain ⟨empty, all⟩ := waiter.unread bytes owes pending
        show (state.setFifo id ((state.fifos id).map (· + messageSize))).fifos id = some bytes
        rw [filled 0 empty, all, Nat.zero_add]
      · exact waiter.more
      · intro other notified
        exact absurd (only id other notified).1 apart
    · refine (ok.phases u).kept (fun _ held => held) (Function.update_of_ne itself _ _) ?_ ?_
      · constructor
        · rintro (member | ⟨n, notified⟩)
          · exact Or.inl member
          · exact absurd notified (none_left n u)
        · rintro (member | ⟨n, notified⟩)
          · exact Or.inl member
          · exact absurd (only n u notified).2 itself
      · intro other notified
        exact absurd (only u other notified).1 same

/-- A thread whose notification is not under way, as seen by its step. -/
theorem Ok.not_pending (ok : Ok queue state) (absent : t ∉ state.memory.contents queue.size)
    (undequeued : state.dequeued ≠ some t) : ¬ state.Pending queue t := by
  rintro (member | ⟨n, notified⟩)
  · exact absent member
  · apply undequeued
    have held := (ok.phases n).holder (Phase.holds_of_notified notified)
    unfold State.dequeued
    rw [held]
    exact notified

/-- The front id of a queue that is not empty can be taken. -/
theorem takeFront_succeeds {memory : Memory ThreadId} (available : 0 < memory.count) :
    ∃ id run, (takeFront queue).perform (Run.new memory) = (.ok id, run) := by
  have at_front : 0 < (Run.new memory).memory.count := available
  have at_pop : 0 < ((Run.new memory).loaded
    [(Run.new memory).memory.readPosition.toNat]).memory.count := available
  unfold takeFront
  rw [perform_bind (Queue.front_perform at_front)]
  exact ⟨_, _, (perform_bind (Queue.pop_perform at_pop)).trans (perform_pure _ _)⟩

/-- A run in which notifications are not disturbed leaves no id behind. -/
theorem Event.Undisturbed.traceless {event : Event} (undisturbed : event.Undisturbed queue state) :
    event.Traceless queue state := by
  cases event with
  | advance t environment =>
    unfold Event.Undisturbed at undisturbed
    unfold Event.Traceless
    cases at_t : state.threads t with
    | removing | abandoning =>
      simp only [at_t] at undisturbed ⊢
      exact undisturbed.1
    | _ => simp only [at_t]
  | _ => trivial

/-- Every step that does not disturb a notification keeps the invariant. -/
theorem Moved.ok {event : Event} (room : 3 * queue.size.toNat ≤ 2 ^ 32) (ok : Ok queue state)
    (undisturbed : event.Undisturbed queue state) (moved : Moved queue state event after) :
    Ok queue after := by
  have listed := moved.listed room ok.valid ok.listed undisturbed.traceless
  have at_phase : ∀ {u phase}, state.threads u = phase → PhaseOk queue state u phase := by
    intro u phase at_u
    rw [← at_u]
    exact ok.phases u
  have outside : ∀ {u phase}, state.threads u = phase → phase.queued = false →
      ∀ {waits : Bool}, state.Pending queue u → waits = true := by
    intro u phase at_u quiet waits under_way
    have queued := ok.pending_queued under_way
    rw [at_u, quiet] at queued
    cases queued
  have others : ∀ {u phase}, state.threads u = phase → phase.holds = true →
      ∀ v, v ≠ u → (state.threads v).holds = false := by
    intro u phase at_u holds v other
    apply eq_false_of_ne_true
    intro second
    exact other (ok.holder_unique second (by rw [at_u]; exact holds))
  have gone : ∀ {u}, (state.threads u).holds = true → (state.threads u).holds = false →
      ∀ {mutex}, mutex = state.queueMutex := by
    intro u holds unheld mutex
    rw [unheld] at holds
    cases holds
  cases moved with
  | lockMutex at_t _ _ | unlockMutex at_t _ =>
    refine ⟨ok.valid, listed.2, ?_⟩
    intro u
    exact (ok.phases u).kept (fun _ held => held) rfl Iff.rfl
      (fun _ _ absent waits => ⟨absent, waits⟩)
  | wait at_t _ | notify at_t =>
    refine ok.quiet rfl rfl listed.2 (fun _ _ _ => rfl) (fun _ _ => rfl) (by rw [at_t]; rfl)
      (outside at_t rfl) ?_
    exact .silent nofun nofun (fun _ => nofun) rfl rfl
  | lockedWait at_t free _ | lockedNotify at_t free _ =>
    refine ok.quiet rfl rfl listed.2 (fun u _ holds => gone holds (ok.free free u))
      (fun _ _ => rfl) (by rw [at_t]; rfl) (outside at_t rfl) ?_
    exact .silent (fun _ => rfl) nofun (fun _ => nofun) rfl rfl
  | notLockedWait at_t throws | notLockedNotify at_t throws =>
    obtain ⟨left, same⟩ := throws.same
    rw [same] at listed ⊢
    refine ok.quiet rfl rfl listed.2 (fun _ _ _ => rfl) (fun _ _ => rfl) (by rw [at_t]; rfl)
      (outside at_t rfl) ?_
    exact .silent nofun nofun (fun _ => nofun) rfl rfl
  | @created t call environment at_t fresh =>
    have pipe : (state.setFifo t (some 0)).fifos t = some 0 := Function.update_self t _ _
    refine ok.quiet rfl rfl listed.2 (fun _ _ _ => rfl)
      (fun u other => Function.update_of_ne other _ _) (by rw [at_t]; rfl) (outside at_t rfl) ?_
    exact {
      holder := fun _ => (at_phase at_t).holder rfl
      pipe := nofun
      fresh := fun _ _ => pipe
      unread := fun _ => nofun
      sent := fun _ => nofun
      more := fun _ => nofun
      notified := fun _ => nofun }
  | notCreated at_t =>
    refine ok.quiet rfl rfl listed.2 (fun _ _ _ => rfl) (fun _ _ => rfl) (by rw [at_t]; rfl)
      (outside at_t rfl) ?_
    exact .silent (fun _ => (at_phase at_t).holder rfl) nofun (fun _ => nofun) rfl rfl
  | leftBehind at_t fresh =>
    refine ok.quiet rfl rfl listed.2 (fun _ _ _ => rfl)
      (fun u other => Function.update_of_ne other _ _) (by rw [at_t]; rfl) (outside at_t rfl) ?_
    exact .silent (fun _ => (at_phase at_t).holder rfl) nofun (fun _ => nofun) rfl rfl
  | @pushed t call run environment at_t pushes =>
    exact ok.pushed at_t listed (Win32.pushed_contents room ok.valid pushes).2
  | @full t call message environment at_t =>
    refine ok.quiet rfl rfl listed.2 (fun _ _ _ => rfl) (fun _ _ => rfl) (by rw [at_t]; rfl)
      (fun _ => rfl) ?_
    refine .silent (fun _ => (at_phase at_t).holder rfl) ?_ (fun _ => nofun) rfl rfl
    intro _
    show (state.fifos t).isSome = true
    rw [(at_phase at_t).fresh call rfl]
    rfl
  | @unlockedMutex t call toRead environment at_t =>
    refine ok.quiet rfl rfl listed.2 (fun _ _ _ => rfl) (fun _ _ => rfl) (by rw [at_t]; rfl)
      (fun _ => rfl) ?_
    exact (at_phase at_t).goes_on (fun _ => (at_phase at_t).holder rfl) rfl rfl
      (State.pending_goes rfl rfl (by rw [at_t]; rfl) t) (fun _ => nofun) rfl
      (fun bytes _ owes => (at_phase at_t).more bytes rfl owes) rfl
  | @unlocked t call toRead environment at_t _ =>
    refine ok.quiet rfl rfl listed.2 (fun u other holds => gone holds (others at_t rfl u other))
      (fun _ _ => rfl) (by rw [at_t]; rfl) (fun _ => rfl) ?_
    exact (at_phase at_t).goes_on nofun rfl rfl
      (State.pending_goes rfl rfl (by rw [at_t]; rfl) t) (fun _ => nofun) rfl
      (fun bytes _ owes => (at_phase at_t).more bytes rfl owes) rfl
  | @read t call toRead count phase environment at_t bytes some_count enough reads =>
    exact ok.read at_t some_count enough reads listed.2
  | timedOut at_t _ empty | threw at_t _ =>
    refine ok.quiet rfl rfl listed.2 (fun _ _ _ => rfl) (fun _ _ => rfl) (by rw [at_t]; rfl)
      (fun _ => rfl) ?_
    exact .silent nofun (fun _ => (at_phase at_t).pipe rfl) (fun _ => nofun) rfl rfl
  | @relocked t call toRead result environment at_t free _ _ =>
    refine ok.quiet rfl rfl listed.2 (fun u _ holds => gone holds (ok.free free u))
      (fun _ _ => rfl) (by rw [at_t]; rfl) (fun _ => rfl) ?_
    exact (at_phase at_t).goes_on (fun _ => rfl) rfl rfl
      (State.pending_goes rfl rfl (by rw [at_t]; rfl) t) (fun _ => nofun) rfl (fun _ => nofun) rfl
  | @relockedMutex t call toRead result environment at_t free _ _ =>
    refine ok.quiet rfl rfl listed.2 (fun _ _ _ => rfl) (fun _ _ => rfl) (by rw [at_t]; rfl)
      (fun _ => rfl) ?_
    exact (at_phase at_t).goes_on (fun _ => (at_phase at_t).holder rfl) rfl rfl
      (State.pending_goes rfl rfl (by rw [at_t]; rfl) t) (fun _ => nofun) rfl (fun _ => nofun) rfl
  | @again t call toRead count environment at_t more =>
    refine ok.quiet rfl rfl listed.2 (fun _ _ _ => rfl) (fun _ _ => rfl) (by rw [at_t]; rfl)
      (fun _ => rfl) ?_
    refine (at_phase at_t).goes_on (fun _ => (at_phase at_t).holder rfl) rfl rfl
      (State.pending_goes rfl rfl (by rw [at_t]; rfl) t) (fun _ => nofun) rfl ?_ rfl
    intro bytes _ owes
    rw [← Option.some.inj owes]
    exact more
  | ended at_t | notUnlockedMutex at_t _ | notUnlocked at_t _ =>
    refine ok.quiet rfl rfl listed.2 (fun _ _ _ => rfl) (fun _ _ => rfl) (by rw [at_t]; rfl)
      (fun _ => rfl) ?_
    exact .silent (fun _ => (at_phase at_t).holder rfl) (fun _ => (at_phase at_t).pipe rfl)
      (fun _ => nofun) rfl rfl
  | notRelocked at_t throws =>
    obtain ⟨left, same⟩ := throws.same
    rw [same] at listed ⊢
    refine ok.quiet rfl rfl listed.2 (fun _ _ _ => rfl) (fun _ _ => rfl) (by rw [at_t]; rfl)
      (fun _ => rfl) ?_
    exact .silent nofun (fun _ => (at_phase at_t).pipe rfl) (fun _ => nofun) rfl rfl
  | notRelockedMutex at_t throws =>
    obtain ⟨left, same⟩ := throws.same
    rw [same] at listed ⊢
    refine ok.quiet rfl rfl listed.2 (fun _ _ _ => rfl) (fun _ _ => rfl) (by rw [at_t]; rfl)
      (fun _ => rfl) ?_
    exact .silent (fun _ => (at_phase at_t).holder rfl) (fun _ => (at_phase at_t).pipe rfl)
      (fun _ => nofun) rfl rfl
  | @removed t outcome environment at_t =>
    unfold Event.Undisturbed at undisturbed
    simp only [at_t] at undisturbed
    have done := ok.not_pending undisturbed.1 undisturbed.2
    refine ok.quiet rfl rfl listed.2 (fun _ _ _ => rfl)
      (fun u other => Function.update_of_ne other _ _) (by rw [at_t]; rfl)
      (fun under_way => absurd under_way done) ?_
    exact .silent (fun _ => (at_phase at_t).holder rfl) nofun (fun _ => nofun) rfl rfl
  | @abandoned t outcome environment at_t =>
    unfold Event.Undisturbed at undisturbed
    simp only [at_t] at undisturbed
    have done := ok.not_pending undisturbed.1 undisturbed.2
    refine ok.quiet rfl rfl listed.2 (fun _ _ _ => rfl)
      (fun u other => Function.update_of_ne other _ _) (by rw [at_t]; rfl)
      (fun under_way => absurd under_way done) ?_
    exact .silent nofun nofun (fun _ => nofun) rfl rfl
  | @popped t all id run environment at_t pops =>
    exact ok.popped at_t listed (Win32.popped_contents room ok.valid pops).2
  | @notPopped t all message run environment at_t available throws =>
    have taken : ∃ id run, (takeFront queue).perform _ = (.ok id, run) :=
      takeFront_succeeds available
    obtain ⟨id, popped, succeeds⟩ := taken
    rw [succeeds] at throws
    cases throws
  | drained at_t _ =>
    refine ok.quiet rfl rfl listed.2 (fun _ _ _ => rfl) (fun _ _ => rfl) (by rw [at_t]; rfl)
      (outside at_t rfl) ?_
    exact .silent (fun _ => (at_phase at_t).holder rfl) nofun (fun _ => nofun) rfl rfl
  | @opened t all id environment at_t exists_id =>
    obtain ⟨absent, waits⟩ := (at_phase at_t).notified id rfl
    have apart : id ≠ t := by
      intro same
      rw [same, at_t] at waits
      cases waits
    refine ok.quiet rfl rfl listed.2 (fun _ _ _ => rfl) (fun _ _ => rfl) (by rw [at_t]; rfl)
      (outside at_t rfl) ?_
    exact {
      holder := fun _ => (at_phase at_t).holder rfl
      pipe := nofun
      fresh := fun _ => nofun
      unread := fun _ => nofun
      sent := fun _ => nofun
      more := fun _ => nofun
      notified := by
        intro other dequeued
        rw [← Option.some.inj dequeued, State.goes_other _ _ apart]
        exact ⟨absent, waits⟩ }
  | @notOpened t all id message environment at_t fails =>
    unfold Event.Undisturbed at undisturbed
    simp only [at_t] at undisturbed
    have waits := ((at_phase at_t).notified id rfl).2
    exact absurd ⟨(ok.phases id).pipe waits, undisturbed⟩ fails
  | @written t all id environment at_t writes =>
    cases all with
    | true => exact ok.written at_t rfl rfl rfl (fun _ => nofun) listed.2
    | false => exact ok.written at_t rfl rfl rfl (fun _ => nofun) listed.2
  | @notWritten t all id environment at_t fails =>
    unfold Event.Undisturbed at undisturbed
    simp only [at_t] at undisturbed
    rw [undisturbed] at fails
    cases fails
  | @unwound t outcome environment at_t =>
    refine ok.quiet rfl rfl listed.2 (fun u other holds => gone holds (others at_t rfl u other))
      (fun _ _ => rfl) (by rw [at_t]; rfl) (outside at_t rfl) ?_
    exact .silent nofun nofun (fun _ => nofun) rfl rfl

end Steps

/-- The invariant holds in every run that does not disturb a notification. -/
theorem reachable_ok {itemSize : Word32} {state : State}
    (reached : ((conditionVariable itemSize).under
      (Event.Undisturbed (threadQueue itemSize))).Reachable state) :
    Ok (threadQueue itemSize) state := by
  apply reached.invariant
  · intro initial starts
    obtain ⟨valid, empty⟩ := initial_listed starts
    have outside := starts.2.2.2.2
    refine ⟨valid, ⟨?_, ?_⟩, ?_⟩
    · rw [empty]
      exact List.nodup_nil
    · intro id member
      rw [empty] at member
      exact absurd member List.not_mem_nil
    · intro t
      rw [outside t]
      exact .silent nofun nofun (fun _ => nofun) rfl rfl
  · intro state event after _ ok stepped
    obtain ⟨undisturbed, stepped⟩ := System.under_step.mp stepped
    exact (step_moved stepped).ok (threadQueue_room itemSize) ok undisturbed

end Azul.Ipc.Darwin
