import Azul.Foundation.System
import Azul.Ipc.Win32ConditionVariable

/-!
# The two mutexes of a condition variable

What the condition variables of `win32` and `darwin` have in common is how their threads take the
internal queue mutex and the mutexes of the callers. A waiter on its way out takes the queue mutex
first and the caller's mutex second; whoever calls the condition variable with that mutex held takes
them in the other order. If nobody calls it with a mutex held while a wait with that mutex is in
progress, then the holder of such a mutex is outside of the condition variable, and gives it back.
-/

namespace Azul.Ipc

open Azul.Foundation

/-- What a thread is blocked on, if anything. -/
inductive Stage
  | free
  | wantsQueue
  | wantsMutex (mutex : MutexId)
  deriving DecidableEq

/-- The holders of the mutexes, and what the threads are blocked on. -/
structure Locks where
  queueMutex : Option ThreadId
  mutexes : MutexId → Option ThreadId
  stage : ThreadId → Stage

/-- A thread holds the queue mutex and is blocked on a caller's mutex, whose holder is blocked on
the queue mutex. -/
def Locks.Deadlocked (locks : Locks) : Prop :=
  ∃ waiter mutex owner, locks.queueMutex = some waiter ∧
    locks.stage waiter = .wantsMutex mutex ∧ locks.mutexes mutex = some owner ∧
    locks.stage owner = .wantsQueue

/-! ## Callers -/

/-- What a thread does with the condition variable. -/
inductive Activity
  | outside
  /-- It waits with a mutex, from its call on until it has taken both mutexes again. -/
  | waits (mutex : MutexId)
  /-- It is in another part of a call. -/
  | calls
  deriving DecidableEq

/-- The holders of the callers' mutexes, and what the threads do with the condition variable. -/
structure Callers where
  mutexes : MutexId → Option ThreadId
  activity : ThreadId → Activity

/-- What a step of a thread may do: it does not come to wait with a mutex that it does not hold,
takes only the mutex it waits with, except outside, and does not call the condition variable while
it holds a mutex with which a wait is in progress. -/
structure CallStep (before : Callers) (t : ThreadId) (after : Callers) : Prop where
  others : ∀ u, u ≠ t → after.activity u = before.activity u
  takes : ∀ mutex owner, after.mutexes mutex = some owner →
    before.mutexes mutex = some owner ∨
      (owner = t ∧ (after.activity t = .outside ∨ before.activity t = .waits mutex))
  waits : ∀ mutex, after.activity t = .waits mutex →
    before.activity t = .waits mutex ∨ before.mutexes mutex = some t
  enters : before.activity t = .outside → after.activity t ≠ .outside →
    ∀ u mutex, before.activity u = .waits mutex → before.mutexes mutex ≠ some t

namespace Callers

/-- One wait at most is in progress with a mutex, and another thread that holds the mutex meanwhile
is outside of the condition variable. -/
structure Safe (callers : Callers) : Prop where
  distinct : ∀ u v mutex, callers.activity u = .waits mutex →
    callers.activity v = .waits mutex → u = v
  held : ∀ u v mutex, callers.activity u = .waits mutex → callers.mutexes mutex = some v →
    v = u ∨ callers.activity v = .outside

variable {before after : Callers} {t : ThreadId}

/-- While nobody has called the condition variable. -/
theorem Safe.initial (outside : ∀ t, before.activity t = .outside) : before.Safe where
  distinct u v mutex waits := by
    rw [outside u] at waits
    cases waits
  held u v mutex waits := by
    rw [outside u] at waits
    cases waits

/-- A thread that waits with a mutex after a step is the only one. -/
theorem Safe.alone (safe : before.Safe) (step : CallStep before t after) {u : ThreadId}
    {mutex : MutexId} (own : after.activity t = .waits mutex)
    (other : before.activity u = .waits mutex) : u = t := by
  rcases step.waits mutex own with waited | held
  · exact safe.distinct u t mutex other waited
  · rcases safe.held u t mutex other held with same | outside
    · exact same.symm
    · have inside : after.activity t ≠ .outside := by
        rw [own]
        nofun
      exact absurd held (step.enters outside inside u mutex other)

/-- Every step keeps the callers safe. -/
theorem Safe.step (safe : before.Safe) (step : CallStep before t after) : after.Safe where
  distinct u v mutex waits waits' := by
    by_cases first : u = t
    · rw [first] at waits ⊢
      by_cases second : v = t
      · exact second.symm
      · rw [step.others v second] at waits'
        exact (safe.alone step waits waits').symm
    · rw [step.others u first] at waits
      by_cases second : v = t
      · rw [second] at waits' ⊢
        exact safe.alone step waits' waits
      · rw [step.others v second] at waits'
        exact safe.distinct u v mutex waits waits'
  held u v mutex waits held := by
    rcases step.takes mutex v held with kept | ⟨own, outside | retakes⟩
    · by_cases first : u = t
      · rw [first] at waits ⊢
        by_cases second : v = t
        · exact Or.inl second
        · rw [step.others v second]
          rcases step.waits mutex waits with waited | owned
          · exact safe.held t v mutex waited kept
          · rw [owned] at kept
            exact absurd (Option.some.inj kept).symm second
      · rw [step.others u first] at waits
        rcases safe.held u v mutex waits kept with same | outside
        · exact Or.inl same
        · right
          by_cases second : v = t
          · rw [second] at kept outside ⊢
            by_contra inside
            exact step.enters outside inside u mutex waits kept
          · rw [step.others v second]
            exact outside
    · rw [own]
      exact Or.inr outside
    · left
      rw [own]
      by_cases first : u = t
      · exact first.symm
      · rw [step.others u first] at waits
        exact (safe.distinct u t mutex waits retakes).symm

/-- Safe callers are in no deadlock. -/
theorem Safe.not_deadlocked {locks : Locks} (safe : before.Safe)
    (mutexes : locks.mutexes = before.mutexes)
    (wants : ∀ t mutex, locks.stage t = .wantsMutex mutex → before.activity t = .waits mutex)
    (inside : ∀ t, locks.stage t = .wantsQueue → before.activity t ≠ .outside) :
    ¬ locks.Deadlocked := by
  intro deadlocked
  obtain ⟨waiter, mutex, owner, _, waits, owns, blocked⟩ := deadlocked
  rw [mutexes] at owns
  rcases safe.held waiter owner mutex (wants waiter mutex waits) owns with same | outside
  · rw [same, waits] at blocked
    cases blocked
  · exact inside owner blocked outside

end Callers

/-! ## Waits in progress -/

/-- The threads whose waits are in progress, with the mutexes that they wait with. -/
abbrev Waiting := List (ThreadId × MutexId)

/-- The waits in progress after a thread has come to do something. -/
def Waiting.update (waiting : Waiting) (t : ThreadId) : Activity → Waiting
  | .waits mutex => (t, mutex) :: waiting.filter (·.1 ≠ t)
  | .outside | .calls => waiting.filter (·.1 ≠ t)

namespace Callers

/-- A list has exactly the waits that are in progress. -/
def Lists (callers : Callers) (waiting : Waiting) : Prop :=
  ∀ u mutex, (u, mutex) ∈ waiting ↔ callers.activity u = .waits mutex

/-- A thread holds no mutex with which a wait is in progress. -/
def Considerate (mutexes : MutexId → Option ThreadId) (waiting : Waiting) (t : ThreadId) : Prop :=
  ∀ wait ∈ waiting, mutexes wait.2 ≠ some t
  deriving Decidable

variable {callers before after : Callers} {waiting : Waiting} {t : ThreadId}

/-- A step of a thread. -/
theorem Lists.update (lists : before.Lists waiting)
    (others : ∀ u, u ≠ t → after.activity u = before.activity u) :
    after.Lists (waiting.update t (after.activity t)) := by
  intro u mutex
  have rest : (u, mutex) ∈ waiting.filter (·.1 ≠ t) ↔ u ≠ t ∧ before.activity u = .waits mutex := by
    rw [List.mem_filter, lists u mutex, decide_eq_true_iff, and_comm]
  by_cases same : u = t
  · rw [same] at rest ⊢
    have absent : (t, mutex) ∉ waiting.filter (·.1 ≠ t) := fun member => (rest.mp member).1 rfl
    cases own : after.activity t with
    | outside | calls => exact iff_of_false absent nofun
    | waits other =>
      unfold Waiting.update
      rw [List.mem_cons, or_iff_left absent, Prod.mk.injEq, Activity.waits.injEq]
      exact ⟨fun equal => equal.2.symm, fun equal => ⟨rfl, equal.symm⟩⟩
  · rw [others u same]
    have listed : (u, mutex) ∈ waiting.filter (·.1 ≠ t) ↔ before.activity u = .waits mutex := by
      rw [rest, and_iff_right same]
    cases own : after.activity t with
    | outside | calls => exact listed
    | waits other =>
      unfold Waiting.update
      rw [List.mem_cons, listed]
      exact or_iff_right fun equal => same (Prod.mk.inj equal).1

/-- A considerate thread holds no mutex that another one waits with. -/
theorem Lists.considerate (lists : callers.Lists waiting)
    (considerate : Considerate callers.mutexes waiting t) (u : ThreadId) (mutex : MutexId)
    (waits : callers.activity u = .waits mutex) : callers.mutexes mutex ≠ some t :=
  considerate (u, mutex) ((lists u mutex).mpr waits)

end Callers

/-! ## Phases -/

namespace Callers

variable {Phase : Type} {activity : Phase → Activity} {mutexes mutexes' : MutexId → Option ThreadId}
  {threads : ThreadId → Phase} {t : ThreadId} {phase : Phase}

/-- The callers of a system, where the phase of a thread says what it does. -/
def ofPhases (activity : Phase → Activity) (mutexes : MutexId → Option ThreadId)
    (threads : ThreadId → Phase) : Callers where
  mutexes := mutexes
  activity t := activity (threads t)

/-- A thread that goes on to a phase leaves the other ones. -/
theorem ofPhases_other {u : ThreadId} (other : u ≠ t) :
    (ofPhases activity mutexes' (Function.update threads t phase)).activity u =
      (ofPhases activity mutexes threads).activity u := by
  show activity (Function.update threads t phase u) = activity (threads u)
  rw [Function.update_of_ne other]

theorem ofPhases_self :
    (ofPhases activity mutexes (Function.update threads t phase)).activity t = activity phase := by
  show activity (Function.update threads t phase t) = activity phase
  rw [Function.update_self]

/-- A step inside of a call. -/
theorem inside_step {old : Phase} (at_t : threads t = old) (inside : activity old ≠ .outside)
    (waits : ∀ mutex, activity phase = .waits mutex → activity old = .waits mutex)
    (takes : ∀ mutex owner, mutexes' mutex = some owner →
      mutexes mutex = some owner ∨ (owner = t ∧ activity old = .waits mutex)) :
    CallStep (ofPhases activity mutexes threads) t
      (ofPhases activity mutexes' (Function.update threads t phase)) := by
  have before : (ofPhases activity mutexes threads).activity t = activity old :=
    congrArg activity at_t
  refine ⟨fun u => ofPhases_other, ?_, ?_, ?_⟩
  · intro mutex owner owned
    rw [before]
    rcases takes mutex owner owned with kept | ⟨own, retakes⟩
    · exact Or.inl kept
    · exact Or.inr ⟨own, Or.inr retakes⟩
  · intro mutex own
    rw [ofPhases_self] at own
    rw [before]
    exact Or.inl (waits mutex own)
  · intro outside
    rw [before] at outside
    exact absurd outside inside

/-- A step of a thread outside, which locks or unlocks a mutex. -/
theorem outside_step (outside : activity (threads t) = .outside)
    (takes : ∀ mutex owner, mutexes' mutex = some owner →
      mutexes mutex = some owner ∨ owner = t) :
    CallStep (ofPhases activity mutexes threads) t (ofPhases activity mutexes' threads) := by
  refine ⟨fun u _ => rfl, ?_, fun mutex => Or.inl, fun _ inside => absurd outside inside⟩
  intro mutex owner owned
  rcases takes mutex owner owned with kept | own
  · exact Or.inl kept
  · exact Or.inr ⟨own, Or.inl outside⟩

/-- A call of a thread that is considerate. -/
theorem call_step {waiting : Waiting} (lists : (ofPhases activity mutexes threads).Lists waiting)
    (considerate : Considerate mutexes waiting t)
    (holds : ∀ mutex, activity phase = .waits mutex → mutexes mutex = some t) :
    CallStep (ofPhases activity mutexes threads) t
      (ofPhases activity mutexes (Function.update threads t phase)) := by
  refine ⟨fun u => ofPhases_other, fun mutex owner => Or.inl, ?_, ?_⟩
  · intro mutex own
    rw [ofPhases_self] at own
    exact Or.inr (holds mutex own)
  · exact fun _ _ => lists.considerate considerate

/-- A step that changes neither the mutexes nor the phases. -/
theorem same_step (callers : Callers) (t : ThreadId) : CallStep callers t callers :=
  ⟨fun _ _ => rfl, fun _ _ => Or.inl, fun _ => Or.inl, fun outside inside => absurd outside inside⟩

/-- A mutex that is freed is held by nobody new. -/
theorem takes_none {mutex other : MutexId} {owner : ThreadId}
    (held : Function.update mutexes mutex none other = some owner) :
    mutexes other = some owner := by
  by_cases same : other = mutex
  · rw [same, Function.update_self] at held
    cases held
  · rwa [Function.update_of_ne same] at held

/-- A mutex that is taken is held by the thread that takes it. -/
theorem takes_some {mutex other : MutexId} {owner : ThreadId}
    (held : Function.update mutexes mutex (some t) other = some owner) :
    mutexes other = some owner ∨ (owner = t ∧ other = mutex) := by
  by_cases same : other = mutex
  · rw [same, Function.update_self] at held
    exact Or.inr ⟨(Option.some.inj held).symm, same⟩
  · rw [Function.update_of_ne same] at held
    exact Or.inl held

end Callers

/-- A system whose steps are those of considerate callers reaches no deadlock. -/
theorem Callers.reachable_safe {σ ε : Type*} {system : System σ ε} {callers : σ → Callers}
    {record : σ → ε → σ → Waiting → Waiting} {allowed : σ × Waiting → ε → Prop}
    [∀ pair event, Decidable (allowed pair event)]
    (initially : ∀ state, system.initial state → ∀ t, (callers state).activity t = .outside)
    (steps : ∀ state event after waiting, (callers state).Lists waiting →
      allowed (state, waiting) event → system.step state event = some after →
      (∃ t, CallStep (callers state) t (callers after)) ∧
        (callers after).Lists (record state event after waiting)) {pair : σ × Waiting}
    (reached : ((system.recording [] record).under allowed).Reachable pair) :
    (callers pair.1).Safe := by
  have both : (callers pair.1).Safe ∧ (callers pair.1).Lists pair.2 := by
    apply reached.invariant
    · intro pair ⟨starts, empty⟩
      have outside := initially pair.1 starts
      refine ⟨Safe.initial outside, fun u mutex => ?_⟩
      rw [empty, outside u]
      exact iff_of_false List.not_mem_nil nofun
    · intro pair event after _ ⟨safe, lists⟩ stepped
      obtain ⟨permitted, recorded⟩ := System.under_step.mp stepped
      obtain ⟨taken, added⟩ := System.recording_step.mp recorded
      obtain ⟨⟨t, step⟩, listed⟩ := steps pair.1 event after.1 pair.2 lists permitted taken
      rw [added]
      exact ⟨safe.step step, listed⟩
  exact both.1

end Azul.Ipc
