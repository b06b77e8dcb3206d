import Azul.Ipc.DarwinRobustMutex

/-!
# Mutual exclusion of the robust mutex of `darwin`

A thread has acquired the mutex as long as it owns the mutex of its process and the file through
which it has done so holds the lock. `unlock` gives back the second before it finds out that its
caller does not own the first, and only that takes the mutex away from the thread which has acquired
it.
-/

namespace Azul.Ipc.Darwin.RobustMutex

open Azul.Foundation

/-! ## Steps -/

/-- Everything a step can do. -/
inductive Moved (state : State) : Event → State → Prop
  | uninitialized {t call} (outside : (state.threads t).Outside) :
    Moved state (.call t none call) (state.ends t (.thrown "Not initialized."))
  | called {t object call} (outside : (state.threads t).Outside) :
    Moved state (.call t (some object) call) (state.goes t (call.start object))
  | lockedMutex {t fails object} (at_t : state.threads t = .lockingMutex object)
      (free : state.resources.mutexes t.process = none) :
    Moved state (.advance t fails)
      ({ state with resources := state.resources.setMutex t.process (some t) }.goes t
        (.lockingFile object))
  | deadlock {t fails object} (at_t : state.threads t = .lockingMutex object)
      (owns : state.resources.mutexes t.process = some t) :
    Moved state (.advance t fails) (state.ends t
      (.thrown "pthread_mutex_lock failed (EDEADLK), check your implementation"))
  | lockedFile {t object} (at_t : state.threads t = .lockingFile object)
      (grants : state.resources.Grants ⟨t.process, object⟩) :
    Moved state (.advance t false)
      (({ state with resources := { state.resources with
          fileLock := some ⟨t.process, object⟩ } }.setAcquired t (some object)).ends t .done)
  | lockFailed {t object} (at_t : state.threads t = .lockingFile object) :
    Moved state (.advance t true) (state.ends t (.thrown ("flock failed with error " ++ "-1")))
  | triedMutex {t fails object} (at_t : state.threads t = .tryingMutex object)
      (free : state.resources.mutexes t.process = none) :
    Moved state (.advance t fails)
      ({ state with resources := state.resources.setMutex t.process (some t) }.goes t
        (.tryingFile object))
  | busy {t fails object owner} (at_t : state.threads t = .tryingMutex object)
      (owned : state.resources.mutexes t.process = some owner) :
    Moved state (.advance t fails) (state.ends t (.acquired false))
  | triedFile {t object} (at_t : state.threads t = .tryingFile object)
      (grants : state.resources.Grants ⟨t.process, object⟩) :
    Moved state (.advance t false)
      (({ state with resources := { state.resources with
          fileLock := some ⟨t.process, object⟩ } }.setAcquired t (some object)).ends t
            (.acquired true))
  | tryFailed {t fails object} (at_t : state.threads t = .tryingFile object)
      (refused : fails = true ∨ ¬ state.resources.Grants ⟨t.process, object⟩) :
    Moved state (.advance t fails) (state.ends t (.thrown ("flock failed with error " ++ "-1")))
  | unlockedFile {t object} (at_t : state.threads t = .unlockingFile object) :
    Moved state (.advance t false)
      (({ state with resources := { state.resources with
          fileLock := if state.resources.fileLock = some (File.mk t.process object) then none
            else state.resources.fileLock } }.setAcquired t none).goes t (.unlockingMutex object))
  | unlockFailed {t object} (at_t : state.threads t = .unlockingFile object) :
    Moved state (.advance t true) (state.ends t (.thrown ("flock failed with error " ++ "-1")))
  | unlockedMutex {t fails object} (at_t : state.threads t = .unlockingMutex object)
      (owns : state.resources.mutexes t.process = some t) :
    Moved state (.advance t fails)
      ({ state with resources := state.resources.setMutex t.process none }.ends t .done)
  | notOwner {t fails object} (at_t : state.threads t = .unlockingMutex object)
      (other : state.resources.mutexes t.process ≠ some t) :
    Moved state (.advance t fails) (state.ends t
      (.thrown "pthread_mutex_unlock failed, lock not owned by this thread"))
  | exits {process} : Moved state (.exits process) (state.exits process)

theorem advance_moved {state after : State} {t : Thread} {fails : Bool}
    (advanced : state.advance t fails = some after) : Moved state (.advance t fails) after := by
  unfold State.advance at advanced
  generalize at_t : state.threads t = phase at advanced
  cases phase with
  | outside last | exited => cases advanced
  | lockingMutex object =>
    unfold Resources.pthreadMutexLock at advanced
    generalize owned : state.resources.mutexes t.process = owner at advanced
    cases owner with
    | none =>
      rw [← Option.some.inj advanced]
      exact .lockedMutex at_t owned
    | some owner =>
      by_cases own : owner = t
      · rw [own] at owned advanced
        simp only [if_true] at advanced
        rw [← Option.some.inj advanced]
        exact .deadlock at_t owned
      · simp only [own, if_false] at advanced
        cases advanced
  | lockingFile object =>
    unfold Resources.flock at advanced
    cases fails with
    | true =>
      rw [← Option.some.inj advanced]
      exact .lockFailed at_t
    | false =>
      by_cases grants : state.resources.Grants ⟨t.process, object⟩
      · simp only [Bool.false_eq_true, if_false, grants, if_true] at advanced
        rw [← Option.some.inj advanced]
        exact .lockedFile at_t grants
      · simp only [Bool.false_eq_true, if_false, grants] at advanced
        cases advanced
  | tryingMutex object =>
    unfold Resources.pthreadMutexTrylock at advanced
    generalize owned : state.resources.mutexes t.process = owner at advanced
    cases owner with
    | none =>
      rw [← Option.some.inj advanced]
      exact .triedMutex at_t owned
    | some owner =>
      rw [← Option.some.inj advanced]
      exact .busy at_t owned
  | tryingFile object =>
    unfold Resources.flock at advanced
    cases fails with
    | true =>
      rw [← Option.some.inj advanced]
      exact .tryFailed at_t (Or.inl rfl)
    | false =>
      by_cases grants : state.resources.Grants ⟨t.process, object⟩
      · simp only [Bool.false_eq_true, if_false, grants, if_true] at advanced
        rw [← Option.some.inj advanced]
        exact .triedFile at_t grants
      · simp only [Bool.false_eq_true, if_false, grants] at advanced
        rw [← Option.some.inj advanced]
        exact .tryFailed at_t (Or.inr grants)
  | unlockingFile object =>
    unfold Resources.flock at advanced
    cases fails with
    | true =>
      rw [← Option.some.inj advanced]
      exact .unlockFailed at_t
    | false =>
      have unlocked := Moved.unlockedFile at_t
      by_cases holds : state.resources.fileLock = some ⟨t.process, object⟩
      · simp only [Bool.false_eq_true, if_false, holds, if_true] at advanced
        rw [if_pos holds] at unlocked
        rw [← Option.some.inj advanced]
        exact unlocked
      · simp only [Bool.false_eq_true, if_false, holds] at advanced
        rw [if_neg holds] at unlocked
        rw [← Option.some.inj advanced]
        exact unlocked
  | unlockingMutex object =>
    unfold Resources.pthreadMutexUnlock at advanced
    by_cases owns : state.resources.mutexes t.process = some t
    · simp only [owns, if_true] at advanced
      rw [← Option.some.inj advanced]
      exact .unlockedMutex at_t owns
    · simp only [owns, if_false] at advanced
      rw [← Option.some.inj advanced]
      exact .notOwner at_t owns

theorem step_moved {state after : State} {event : Event}
    (stepped : robustMutex.step state event = some after) : Moved state event after := by
  cases event with
  | call t impl call =>
    obtain ⟨outside, same⟩ := Option.ite_none_right_eq_some.mp stepped
    cases impl with
    | none =>
      rw [← Option.some.inj same]
      exact .uninitialized outside
    | some object =>
      rw [← Option.some.inj same]
      exact .called outside
  | advance t fails => exact advance_moved stepped
  | exits process =>
    rw [← Option.some.inj stepped]
    exact .exits

/-! ## The mutex of a process -/

/-- A thread has taken the mutex of its process and goes for the file. -/
def Phase.Taking : Phase → Prop
  | .lockingFile _ | .tryingFile _ => True
  | _ => False

/-- The threads that go for the file own the mutexes of their processes. -/
def State.Taking (state : State) : Prop :=
  ∀ t, (state.threads t).Taking → state.resources.mutexes t.process = some t

/-- Resources in which all threads but one still own what they owned. -/
def Resources.Keeps (before : Resources) (t : Thread) (after : Resources) : Prop :=
  ∀ u, u ≠ t → before.mutexes u.process = some u → after.mutexes u.process = some u

section Mutexes

variable {state next : State} {resources : Resources} {t : Thread} {phase : Phase}

/-- Taking a free mutex takes it from nobody. -/
theorem keeps_taken (free : resources.mutexes t.process = none) :
    resources.Keeps t (resources.setMutex t.process (some t)) := by
  intro u _ owns
  show Function.update resources.mutexes t.process (some t) u.process = some u
  have processes : u.process ≠ t.process := by
    intro same
    rw [same, free] at owns
    cases owns
  rw [Function.update_of_ne processes]
  exact owns

/-- Giving back one's own mutex takes it from nobody else. -/
theorem keeps_given (own : resources.mutexes t.process = some t) :
    resources.Keeps t (resources.setMutex t.process none) := by
  intro u other owns
  show Function.update resources.mutexes t.process none u.process = some u
  have processes : u.process ≠ t.process := by
    intro same
    rw [same, own] at owns
    exact other (Option.some.inj owns).symm
  rw [Function.update_of_ne processes]
  exact owns

theorem taken (resources : Resources) (t : Thread) :
    (resources.setMutex t.process (some t)).mutexes t.process = some t := by
  show Function.update resources.mutexes t.process (some t) t.process = some t
  rw [Function.update_self]

theorem goes_self (state : State) (t : Thread) (phase : Phase) :
    (state.goes t phase).threads t = phase := by
  show Function.update state.threads t phase t = phase
  rw [Function.update_self]

theorem goes_other {u : Thread} (state : State) (phase : Phase) (other : u ≠ t) :
    (state.goes t phase).threads u = state.threads u := by
  show Function.update state.threads t phase u = state.threads u
  rw [Function.update_of_ne other]

/-- A thread goes on, and owns the mutex of its process if it then goes for the file. -/
theorem State.Taking.goes (taking : state.Taking) (threads : next.threads = state.threads)
    (keeps : state.resources.Keeps t next.resources)
    (own : phase.Taking → next.resources.mutexes t.process = some t) :
    (next.goes t phase).Taking := by
  intro u at_file
  by_cases same : u = t
  · rw [same, goes_self] at at_file
    rw [same]
    exact own at_file
  · rw [goes_other _ _ same, threads] at at_file
    exact keeps u same (taking u at_file)

/-- A thread goes on to a phase in which it need not own anything. -/
theorem State.Taking.goes_free (taking : state.Taking) (threads : next.threads = state.threads)
    (keeps : state.resources.Keeps t next.resources) (free : ¬ phase.Taking) :
    (next.goes t phase).Taking :=
  taking.goes threads keeps (fun at_file => absurd at_file free)

end Mutexes

theorem Moved.taking {state after : State} {event : Event} (taking : state.Taking)
    (moved : Moved state event after) : after.Taking := by
  have kept : ∀ t, state.resources.Keeps t state.resources := fun _ _ _ owns => owns
  cases moved with
  | uninitialized outside | deadlock at_t owns | lockFailed at_t | busy at_t owned
  | tryFailed at_t refused | unlockFailed at_t | notOwner at_t other =>
    exact taking.goes_free rfl (kept _) id
  | @called t object call outside =>
    apply taking.goes_free rfl (kept _)
    cases call with
    | lock | tryLock | unlock => exact id
  | lockedMutex at_t free | triedMutex at_t free =>
    exact taking.goes rfl (keeps_taken free) (fun _ => taken state.resources _)
  | lockedFile at_t grants | triedFile at_t grants | unlockedFile at_t =>
    exact taking.goes_free rfl (kept _) id
  | unlockedMutex at_t owns =>
    exact taking.goes_free rfl (keeps_given owns) id
  | @exits process =>
    intro t at_file
    change (if t.process = process then Phase.exited else state.threads t).Taking at at_file
    by_cases inside : t.process = process
    · rw [if_pos inside] at at_file
      cases at_file
    · rw [if_neg inside] at at_file
      exact taking t at_file

/-- In every run the threads that go for the file own the mutexes of their processes. -/
theorem reachable_taking {state : State} (reached : robustMutex.Reachable state) :
    state.Taking := by
  apply reached.invariant
  · intro state starts t at_file
    rw [starts.2.2.1 t] at at_file
    cases at_file
  · intro state event after _ taking stepped
    exact (step_moved stepped).taking taking

/-! ## The owner -/

/-- Phases that a thread which has acquired the mutex does not get to. -/
def Phase.Apart : Phase → Prop
  | .lockingFile _ | .tryingFile _ | .unlockingMutex _ | .exited => True
  | _ => False

/-- What a thread that has acquired the mutex holds. -/
structure State.Exclusive (state : State) : Prop where
  holds : ∀ t object, state.acquired t = some object →
    state.resources.mutexes t.process = some t ∧
      state.resources.fileLock = some ⟨t.process, object⟩
  apart : ∀ t, (state.threads t).Apart → state.acquired t = none

/-- A thread gives back the lock of the file, if its object has it, only where no other thread has
acquired the mutex through that object. -/
def Careful (state : State) : Event → Prop
  | .advance t false =>
    match state.threads t with
    | .unlockingFile object =>
      ∀ owner ∈ state.resources.mutexes t.process,
        state.acquired owner = some object → owner = t
    | _ => True
  | _ => True

instance (state : State) (event : Event) : Decidable (Careful state event) := by
  unfold Careful
  split
  · split <;> infer_instance
  · infer_instance

section Owner

variable {state next : State} {t : Thread} {phase : Phase}

/-- A thread goes on without the lock of the file changing, or anyone acquiring the mutex. -/
theorem State.Exclusive.goes (exclusive : state.Exclusive) (threads : next.threads = state.threads)
    (acquired : next.acquired = state.acquired)
    (fileLock : next.resources.fileLock = state.resources.fileLock)
    (keeps : state.resources.Keeps t next.resources)
    (own : state.acquired t ≠ none →
      next.resources.mutexes t.process = some t ∧ ¬ phase.Apart) :
    (next.goes t phase).Exclusive := by
  constructor
  · intro u object acquires
    change next.acquired u = some object at acquires
    change next.resources.mutexes u.process = some u ∧
      next.resources.fileLock = some ⟨u.process, object⟩
    rw [acquired] at acquires
    rw [fileLock]
    obtain ⟨owns, holds⟩ := exclusive.holds u object acquires
    refine ⟨?_, holds⟩
    by_cases same : u = t
    · rw [same] at acquires ⊢
      apply (own _).1
      rw [acquires]
      exact Option.some_ne_none object
    · exact keeps u same owns
  · intro u apart
    change next.acquired u = none
    rw [acquired]
    by_cases same : u = t
    · rw [same, goes_self] at apart
      rw [same]
      exact not_not.mp fun acquires => (own acquires).2 apart
    · rw [goes_other _ _ same, threads] at apart
      exact exclusive.apart u apart

/-- A thread that has acquired the mutex owns the one of its process. -/
theorem State.Exclusive.owns (exclusive : state.Exclusive) (acquires : state.acquired t ≠ none) :
    state.resources.mutexes t.process = some t := by
  obtain ⟨object, at_t⟩ := Option.ne_none_iff_exists'.mp acquires
  exact (exclusive.holds t object at_t).1

/-- A thread that owns the mutex of its process acquires the lock of the file. -/
theorem State.Exclusive.acquires (exclusive : state.Exclusive) {object : Nat}
    (own : state.resources.mutexes t.process = some t)
    (grants : state.resources.Grants ⟨t.process, object⟩) (result : Result) :
    ((({ state with resources := { state.resources with
      fileLock := some ⟨t.process, object⟩ } } : State).setAcquired t (some object)).ends t
        result).Exclusive := by
  constructor
  · intro u other acquires
    change Function.update state.acquired t (some object) u = some other at acquires
    change state.resources.mutexes u.process = some u ∧
      some (File.mk t.process object) = some (File.mk u.process other)
    by_cases same : u = t
    · rw [same, Function.update_self] at acquires
      rw [same, Option.some.inj acquires]
      exact ⟨own, rfl⟩
    · rw [Function.update_of_ne same] at acquires
      obtain ⟨owns, holds⟩ := exclusive.holds u other acquires
      exact ⟨owns, congrArg some (grants _ holds).symm⟩
  · intro u apart
    change Function.update state.acquired t (some object) u = none
    by_cases same : u = t
    · rw [same] at apart
      change (Function.update state.threads t _ t).Apart at apart
      rw [Function.update_self] at apart
      cases apart
    · change (Function.update state.threads t _ u).Apart at apart
      rw [Function.update_of_ne same] at apart ⊢
      exact exclusive.apart u apart

/-- A thread gives back the lock of the file, which nobody else has acquired through its object. -/
theorem State.Exclusive.gives (exclusive : state.Exclusive) {object : Nat}
    (careful : ∀ owner ∈ state.resources.mutexes t.process,
      state.acquired owner = some object → owner = t) :
    ((({ state with resources := { state.resources with
      fileLock := if state.resources.fileLock = some (File.mk t.process object) then none
        else state.resources.fileLock } } : State).setAcquired t none).goes t
          (.unlockingMutex object)).Exclusive := by
  constructor
  · intro u other acquires
    change Function.update state.acquired t none u = some other at acquires
    by_cases same : u = t
    · rw [same, Function.update_self] at acquires
      cases acquires
    · rw [Function.update_of_ne same] at acquires
      obtain ⟨owns, holds⟩ := exclusive.holds u other acquires
      refine ⟨owns, ?_⟩
      show (if state.resources.fileLock = some (File.mk t.process object) then none
        else state.resources.fileLock) = some (File.mk u.process other)
      rw [if_neg, holds]
      intro own
      rw [holds] at own
      obtain ⟨processes, objects⟩ := File.mk.inj (Option.some.inj own)
      rw [processes] at owns
      rw [objects] at acquires
      exact same (careful u owns acquires)
  · intro u apart
    change Function.update state.acquired t none u = none
    by_cases same : u = t
    · rw [same, Function.update_self]
    · rw [goes_other _ _ same] at apart
      rw [Function.update_of_ne same]
      exact exclusive.apart u apart

/-- A process exits with all that its threads hold. -/
theorem State.Exclusive.exits (exclusive : state.Exclusive) (process : Nat) :
    (state.exits process).Exclusive := by
  constructor
  · intro u object acquires
    change (if u.process = process then none else state.acquired u) = some object at acquires
    obtain ⟨outside, acquires⟩ := Option.ite_none_left_eq_some.mp acquires
    obtain ⟨owns, holds⟩ := exclusive.holds u object acquires
    refine ⟨owns, ?_⟩
    show state.resources.fileLock.filter _ = _
    rw [holds]
    exact Option.filter_some_pos (decide_eq_true outside)
  · intro u apart
    change (if u.process = process then none else state.acquired u) = none
    change (if u.process = process then Phase.exited else state.threads u).Apart at apart
    by_cases inside : u.process = process
    · rw [if_pos inside]
    · rw [if_neg inside] at apart ⊢
      exact exclusive.apart u apart

end Owner

theorem Moved.exclusive {state after : State} {event : Event} (exclusive : state.Exclusive)
    (taking : state.Taking) (careful : Careful state event) (moved : Moved state event after) :
    after.Exclusive := by
  have kept : ∀ t, state.resources.Keeps t state.resources := fun _ _ _ owns => owns
  cases moved with
  | uninitialized outside | deadlock at_t owns | busy at_t owned | lockFailed at_t
  | tryFailed at_t refused | unlockFailed at_t | notOwner at_t other =>
    exact exclusive.goes rfl rfl rfl (kept _) (fun acquires => ⟨exclusive.owns acquires, id⟩)
  | @called t object call outside =>
    refine exclusive.goes rfl rfl rfl (kept _) (fun acquires => ⟨exclusive.owns acquires, ?_⟩)
    cases call with
    | lock | tryLock | unlock => exact id
  | lockedMutex at_t free | triedMutex at_t free =>
    refine exclusive.goes rfl rfl rfl (keeps_taken free) (fun acquires => ?_)
    have owns := exclusive.owns acquires
    rw [free] at owns
    cases owns
  | lockedFile at_t grants | triedFile at_t grants =>
    exact exclusive.acquires (taking _ (by rw [at_t]; trivial)) grants _
  | @unlockedFile t object at_t =>
    unfold Careful at careful
    simp only [at_t] at careful
    exact exclusive.gives careful
  | unlockedMutex at_t owns =>
    refine exclusive.goes rfl rfl rfl (keeps_given owns) (fun acquires => absurd ?_ acquires)
    exact exclusive.apart _ (by rw [at_t]; trivial)
  | exits => exact exclusive.exits _

/-- At most one thread of all processes has acquired the mutex. -/
def State.MutuallyExclusive (state : State) : Prop :=
  ∀ t u, state.acquired t ≠ none → state.acquired u ≠ none → t = u

/-- In every careful run the threads exclude each other. -/
theorem careful_exclusive {state : State} (reached : (robustMutex.under Careful).Reachable state) :
    state.MutuallyExclusive := by
  intro t u first second
  have sound : state.Taking ∧ state.Exclusive := by
    apply reached.invariant
    · intro state starts
      constructor
      · intro t at_file
        rw [starts.2.2.1 t] at at_file
        cases at_file
      · constructor
        · intro t object acquires
          rw [starts.2.2.2 t] at acquires
          cases acquires
        · exact fun t _ => starts.2.2.2 t
    · intro state event after _ sound stepped
      obtain ⟨careful, stepped⟩ := System.under_step.mp stepped
      have moved := step_moved stepped
      exact ⟨moved.taking sound.1, moved.exclusive sound.2 sound.1 careful⟩
  obtain ⟨object, at_t⟩ := Option.ne_none_iff_exists'.mp first
  obtain ⟨other, at_u⟩ := Option.ne_none_iff_exists'.mp second
  obtain ⟨owns, holds⟩ := sound.2.holds t object at_t
  obtain ⟨owns', holds'⟩ := sound.2.holds u other at_u
  rw [holds] at holds'
  obtain ⟨processes, _⟩ := File.mk.inj (Option.some.inj holds')
  rw [processes, owns'] at owns
  exact (Option.some.inj owns).symm

/-- Fresh objects, before any call. -/
def start : State where
  resources := { mutexes := fun _ => none, fileLock := none }
  threads _ := .outside none
  acquired _ := none

theorem start_initial : robustMutex.initial start :=
  ⟨fun _ => rfl, rfl, fun _ => rfl, fun _ => rfl⟩

/-- A thread calls a method of the object 0 of its process, and takes the two steps of it, in which
`flock` does not fail. -/
def calls (t : Thread) (call : Call) : List Event :=
  [.call t (some 0) call, .advance t false, .advance t false]

/-- The mutex passes from one process to another, a thread of which has called `unlock` without
owning it. -/
def handedRun : List Event :=
  calls ⟨1, 1⟩ .lock ++ calls ⟨2, 2⟩ .unlock ++ calls ⟨1, 1⟩ .unlock ++ calls ⟨2, 1⟩ .tryLock

theorem handedRun_replays :
    ((robustMutex.under Careful).replay start handedRun).isSome = true := by
  decide +kernel

def handed : State := ((robustMutex.under Careful).replay start handedRun).get handedRun_replays

theorem careful_exclusive_handed :
    handed.threads ⟨2, 2⟩ = .outside (some
        (.thrown "pthread_mutex_unlock failed, lock not owned by this thread")) ∧
      handed.acquired ⟨2, 1⟩ = some 0 ∧ handed.MutuallyExclusive := by
  have starts : (robustMutex.under Careful).initial start := start_initial
  exact ⟨by decide +kernel, by decide +kernel,
    careful_exclusive (System.Reachable.of_replay starts handedRun_replays)⟩

/-- Another thread of the process unlocks the mutex, which throws, and another process locks it. -/
def wrongRun : List Event :=
  calls ⟨1, 1⟩ .lock ++ calls ⟨1, 2⟩ .unlock ++ calls ⟨2, 1⟩ .lock

theorem wrongRun_replays : (robustMutex.replay start wrongRun).isSome = true := by
  decide +kernel

def wrong : State := (robustMutex.replay start wrongRun).get wrongRun_replays

/-- Two threads have acquired the mutex after the failed `unlock` of a third one. -/
theorem wrong_acquired :
    robustMutex.Reachable wrong ∧ wrong.threads ⟨1, 2⟩ = .outside (some
        (.thrown "pthread_mutex_unlock failed, lock not owned by this thread")) ∧
      ¬ wrong.MutuallyExclusive := by
  refine ⟨System.Reachable.of_replay start_initial wrongRun_replays, by decide +kernel, ?_⟩
  intro exclusive
  have same : (⟨1, 1⟩ : Thread) = ⟨2, 1⟩ :=
    exclusive _ _ (by decide +kernel) (by decide +kernel)
  cases same

end Azul.Ipc.Darwin.RobustMutex
