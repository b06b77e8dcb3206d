import Azul.Foundation.System

/-!
# The robust mutex of `win32`

The mutex of the operating system is recursive. The object keeps the thread that has locked it in a
field of its own, and throws where that thread locks it again. `unlock` releases the mutex first and
clears the field second, and then loses what another thread has written there in between. One step
is one statement of the code.
-/

namespace Azul.Ipc.Win32.RobustMutex

open Azul.Foundation

/-- The identity of a thread, `std::thread::id`, which a later thread may have again. -/
abbrev Thread := Nat

/-! ## The operating system -/

/-- What `ReleaseMutex` fails with for a thread that does not own the mutex. -/
def ERROR_NOT_OWNER : Nat := 288

/-- A mutex of the operating system. -/
structure Mutex where
  owner : Option Thread
  /-- How often its owner has to release it. -/
  count : Nat
  /-- Its last owner exited without releasing it. -/
  abandoned : Bool
  deriving DecidableEq

/-- What `WaitForSingleObject` returns; a failure comes with the number of `GetLastError`. -/
inductive WaitResult
  | object0
  | abandoned
  | timeout
  | failed (error : Nat)
  deriving DecidableEq

namespace Mutex

variable (mutex : Mutex)

/-- `WaitForSingleObject` with a timeout of `INFINITE` or of zero, which may fail; `none` means that
the thread is blocked. -/
def waitForSingleObject (thread : Thread) (infinite : Bool) (error : Option Nat) :
    Option (WaitResult × Mutex) :=
  match error with
  | some error => some (.failed error, mutex)
  | none =>
    match mutex.owner with
    | none =>
      some (if mutex.abandoned then .abandoned else .object0,
        { owner := some thread, count := 1, abandoned := false })
    | some owner =>
      if owner = thread then
        some (.object0, { mutex with count := mutex.count + 1 })
      else if infinite then
        none
      else
        some (.timeout, mutex)

/-- `ReleaseMutex`, which may fail, with the number of `GetLastError` then. -/
def releaseMutex (thread : Thread) (error : Option Nat) : Except Nat Mutex :=
  match error with
  | some error => .error error
  | none =>
    if mutex.owner = some thread then
      if mutex.count ≤ 1 then
        .ok { mutex with owner := none, count := 0 }
      else
        .ok { mutex with count := mutex.count - 1 }
    else
      .error ERROR_NOT_OWNER

/-- A thread is gone. -/
def abandon (thread : Thread) : Mutex :=
  if mutex.owner = some thread then
    { owner := none, count := 0, abandoned := true }
  else
    mutex

end Mutex

/-! ## The code -/

/-- What a call returns or throws. -/
inductive Result
  | done
  | acquired (value : Bool)
  | thrown (message : String)
  deriving DecidableEq

/-- The methods that acquire the mutex. -/
inductive Acquisition
  | lock
  | tryLock
  deriving DecidableEq

/-- The methods of the mutex. -/
inductive Call
  | acquire (acquisition : Acquisition)
  | unlock
  deriving DecidableEq

/-- Where a thread is in the code of the mutex. -/
inductive Phase
  /-- Outside, with what its last call ended with. -/
  | outside (last : Option Result)
  /-- `_currentLockingThread == threadId`. -/
  | comparing (acquisition : Acquisition)
  /-- `WaitForSingleObject`. -/
  | waiting (acquisition : Acquisition)
  /-- `_currentLockingThread = threadId`. -/
  | setting (acquisition : Acquisition)
  /-- `ReleaseMutex`. -/
  | releasing
  /-- `_currentLockingThread = std::thread::id()`. -/
  | clearing
  | exited
  deriving DecidableEq

/-- Where a call starts. -/
def Call.start : Call → Phase
  | .acquire acquisition => .comparing acquisition
  | .unlock => .releasing

/-- What an acquisition ends with that has acquired the mutex. -/
def Acquisition.success : Acquisition → Result
  | .lock => .done
  | .tryLock => .acquired true

/-- One object, its mutex, and the threads that use it. -/
structure State where
  mutex : Mutex
  /-- `_currentLockingThread`. -/
  currentLockingThread : Option Thread
  threads : Thread → Phase

namespace State

variable (state : State)

/-- A thread goes on to another phase. -/
def goes (thread : Thread) (phase : Phase) : State :=
  { state with threads := Function.update state.threads thread phase }

/-- The call of a thread ends. -/
def ends (thread : Thread) (result : Result) : State :=
  state.goes thread (.outside (some result))

/-- What `lock` and `try_lock` do with the result of `WaitForSingleObject`. -/
def waited (thread : Thread) (result : WaitResult) : Acquisition → State
  | .lock =>
    match result with
    | .abandoned | .object0 => state.goes thread (.setting .lock)
    | .failed error =>
      state.ends thread (.thrown ("WaitForSingleObject failed, error: " ++ toString error))
    | .timeout => state.ends thread .done
  | .tryLock =>
    match result with
    | .failed error =>
      state.ends thread (.thrown ("WaitForSingleObject failed, error: " ++ toString error))
    | .object0 | .abandoned => state.goes thread (.setting .tryLock)
    | .timeout => state.ends thread (.acquired false)

/-- The next step of a thread inside a call. A call of the operating system may fail with an error;
`none` means that the thread is blocked, or has no such step. -/
def advance (thread : Thread) (error : Option Nat) : Option State :=
  match state.threads thread with
  | .outside _ | .exited => none
  | .comparing acquisition =>
    if state.currentLockingThread = some thread then
      some (state.ends thread (.thrown "Attempted to recursively lock a mutex."))
    else
      some (state.goes thread (.waiting acquisition))
  | .waiting acquisition =>
    match state.mutex.waitForSingleObject thread (acquisition = .lock) error with
    | none => none
    | some (result, mutex) => some ({ state with mutex := mutex }.waited thread result acquisition)
  | .setting acquisition =>
    some ({ state with currentLockingThread := some thread }.ends thread acquisition.success)
  | .releasing =>
    match state.mutex.releaseMutex thread error with
    | .error error =>
      some (state.ends thread (.thrown ("ReleaseMutex failed, error: " ++ toString error)))
    | .ok mutex => some ({ state with mutex := mutex }.goes thread .clearing)
  | .clearing => some ({ state with currentLockingThread := none }.ends thread .done)

end State

/-- What happens next. -/
inductive Event
  /-- A thread calls a method, of an object with or without `_impl`. -/
  | call (thread : Thread) (initialized : Bool) (call : Call)
  | advance (thread : Thread) (error : Option Nat)
  /-- A thread is gone, wherever it was. -/
  | exits (thread : Thread)
  /-- A new thread gets the identity of one that is gone. -/
  | starts (thread : Thread)
  deriving DecidableEq

/-- A thread is not inside a call. -/
def Phase.Outside : Phase → Prop
  | .outside _ => True
  | _ => False

instance (phase : Phase) : Decidable phase.Outside := by
  unfold Phase.Outside
  split <;> infer_instance

/-- The state after an event. -/
def State.step (state : State) : Event → Option State
  | .call thread initialized call =>
    if (state.threads thread).Outside then
      if initialized then
        some (state.goes thread call.start)
      else
        some (state.ends thread (.thrown "Not initialized."))
    else
      none
  | .advance thread error => state.advance thread error
  | .exits thread =>
    if state.threads thread = .exited then
      none
    else
      some ({ state with mutex := state.mutex.abandon thread }.goes thread .exited)
  | .starts thread =>
    if state.threads thread = .exited then some (state.goes thread (.outside none)) else none

/-- One object, and any threads. -/
def robustMutex : System State Event where
  initial state :=
    state.mutex = { owner := none, count := 0, abandoned := false } ∧
    state.currentLockingThread = none ∧ ∀ thread, state.threads thread = .outside none
  step := State.step

/-! ## Steps -/

/-- Everything a step can do. -/
inductive Moved (state : State) : Event → State → Prop
  | uninitialized {t call} (outside : (state.threads t).Outside) :
    Moved state (.call t false call) (state.ends t (.thrown "Not initialized."))
  | called {t call} (outside : (state.threads t).Outside) :
    Moved state (.call t true call) (state.goes t call.start)
  | recursive {t error acquisition} (at_t : state.threads t = .comparing acquisition)
      (current : state.currentLockingThread = some t) :
    Moved state (.advance t error)
      (state.ends t (.thrown "Attempted to recursively lock a mutex."))
  | compared {t error acquisition} (at_t : state.threads t = .comparing acquisition)
      (other : state.currentLockingThread ≠ some t) :
    Moved state (.advance t error) (state.goes t (.waiting acquisition))
  | acquired {t acquisition} (at_t : state.threads t = .waiting acquisition)
      (free : state.mutex.owner = none) :
    Moved state (.advance t none)
      ({ state with mutex := { owner := some t, count := 1, abandoned := false } }.goes t
        (.setting acquisition))
  | again {t acquisition} (at_t : state.threads t = .waiting acquisition)
      (owns : state.mutex.owner = some t) :
    Moved state (.advance t none)
      ({ state with mutex := { state.mutex with
          owner := some t, count := state.mutex.count + 1 } }.goes t (.setting acquisition))
  | notAcquired {t error acquisition} (result : Result)
      (at_t : state.threads t = .waiting acquisition) :
    Moved state (.advance t error) (state.ends t result)
  | set {t error acquisition} (at_t : state.threads t = .setting acquisition) :
    Moved state (.advance t error)
      ({ state with currentLockingThread := some t }.ends t acquisition.success)
  | released {t} (at_t : state.threads t = .releasing) (owns : state.mutex.owner = some t)
      (last : state.mutex.count ≤ 1) :
    Moved state (.advance t none)
      ({ state with mutex := { state.mutex with owner := none, count := 0 } }.goes t .clearing)
  | lowered {t} (at_t : state.threads t = .releasing) (owns : state.mutex.owner = some t)
      (more : ¬ state.mutex.count ≤ 1) :
    Moved state (.advance t none)
      ({ state with mutex := { state.mutex with
          owner := some t, count := state.mutex.count - 1 } }.goes t .clearing)
  | notReleased {t error} (reason : Nat) (at_t : state.threads t = .releasing) :
    Moved state (.advance t error)
      (state.ends t (.thrown ("ReleaseMutex failed, error: " ++ toString reason)))
  | cleared {t error} (at_t : state.threads t = .clearing) :
    Moved state (.advance t error) ({ state with currentLockingThread := none }.ends t .done)
  | exits {t} :
    Moved state (.exits t) ({ state with mutex := state.mutex.abandon t }.goes t .exited)
  | starts {t} (at_t : state.threads t = .exited) :
    Moved state (.starts t) (state.goes t (.outside none))

theorem advance_moved {state after : State} {t : Thread} {error : Option Nat}
    (advanced : state.advance t error = some after) : Moved state (.advance t error) after := by
  unfold State.advance at advanced
  generalize at_t : state.threads t = phase at advanced
  cases phase with
  | outside last | exited => cases advanced
  | comparing acquisition =>
    by_cases current : state.currentLockingThread = some t
    · simp only [current, if_true] at advanced
      rw [← Option.some.inj advanced]
      exact .recursive at_t current
    · simp only [current, if_false] at advanced
      rw [← Option.some.inj advanced]
      exact .compared at_t current
  | waiting acquisition =>
    unfold Mutex.waitForSingleObject at advanced
    cases error with
    | some error =>
      cases acquisition with
      | lock | tryLock =>
        rw [← Option.some.inj advanced]
        exact .notAcquired _ at_t
    | none =>
      generalize owned : state.mutex.owner = owner at advanced
      cases owner with
      | none =>
        have acquired := Moved.acquired at_t owned
        cases acquisition with
        | lock | tryLock =>
          cases left : state.mutex.abandoned with
          | false | true =>
            simp only [left] at advanced
            rw [← Option.some.inj advanced]
            exact acquired
      | some owner =>
        by_cases own : owner = t
        · rw [own] at owned
          have again := Moved.again at_t owned
          simp only [own, if_true] at advanced
          cases acquisition with
          | lock | tryLock =>
            rw [← Option.some.inj advanced]
            exact again
        · simp only [own, if_false] at advanced
          cases acquisition with
          | lock => cases advanced
          | tryLock =>
            rw [← Option.some.inj advanced]
            exact .notAcquired _ at_t
  | setting acquisition =>
    rw [← Option.some.inj advanced]
    exact .set at_t
  | releasing =>
    unfold Mutex.releaseMutex at advanced
    cases error with
    | some error =>
      rw [← Option.some.inj advanced]
      exact .notReleased error at_t
    | none =>
      by_cases owns : state.mutex.owner = some t
      · by_cases last : state.mutex.count ≤ 1
        · simp only [owns, last, if_true] at advanced
          rw [← Option.some.inj advanced]
          exact .released at_t owns last
        · have lowered := Moved.lowered at_t owns last
          simp only [owns, last, if_true, if_false] at advanced
          rw [← Option.some.inj advanced]
          exact lowered
      · simp only [owns, if_false] at advanced
        rw [← Option.some.inj advanced]
        exact .notReleased _ at_t
  | clearing =>
    rw [← Option.some.inj advanced]
    exact .cleared at_t

theorem step_moved {state after : State} {event : Event}
    (stepped : robustMutex.step state event = some after) : Moved state event after := by
  cases event with
  | call t initialized call =>
    obtain ⟨outside, same⟩ := Option.ite_none_right_eq_some.mp stepped
    cases initialized with
    | false =>
      rw [← Option.some.inj same]
      exact .uninitialized outside
    | true =>
      rw [← Option.some.inj same]
      exact .called outside
  | advance t error => exact advance_moved stepped
  | exits t =>
    obtain ⟨_, same⟩ := Option.ite_none_left_eq_some.mp stepped
    rw [← Option.some.inj same]
    exact .exits
  | starts t =>
    obtain ⟨at_t, same⟩ := Option.ite_none_right_eq_some.mp stepped
    rw [← Option.some.inj same]
    exact .starts at_t

/-! ## The owner -/

/-- Phases in which an owner of the mutex relies on the field. -/
def Phase.Recorded : Phase → Prop
  | .outside _ | .comparing _ | .releasing => True
  | _ => False

/-- Phases in which a thread does not own the mutex. -/
def Phase.Apart : Phase → Prop
  | .waiting _ | .clearing | .exited => True
  | _ => False

/-- What is known of the owner of the mutex. -/
structure State.Known (state : State) : Prop where
  once : ∀ t, state.mutex.owner = some t → state.mutex.count = 1
  recorded : ∀ t, state.mutex.owner = some t → (state.threads t).Recorded →
    state.currentLockingThread = some t
  apart : ∀ t, state.mutex.owner = some t → ¬ (state.threads t).Apart
  setting : ∀ t acquisition, state.threads t = .setting acquisition → state.mutex.owner = some t

/-- A thread that clears the field does not find the owner of the mutex in it. -/
def Undisturbed (state : State) : Event → Prop
  | .advance thread _ =>
    state.threads thread = .clearing →
      ∀ owner ∈ state.mutex.owner, state.currentLockingThread ≠ some owner
  | _ => True

instance (state : State) (event : Event) : Decidable (Undisturbed state event) := by
  unfold Undisturbed
  split <;> infer_instance

section Owner

variable {state next : State} {t : Thread} {phase : Phase}

theorem goes_self (state : State) (t : Thread) (phase : Phase) :
    (state.goes t phase).threads t = phase := by
  show Function.update state.threads t phase t = phase
  rw [Function.update_self]

theorem goes_other {u : Thread} (state : State) (phase : Phase) (other : u ≠ t) :
    (state.goes t phase).threads u = state.threads u := by
  show Function.update state.threads t phase u = state.threads u
  rw [Function.update_of_ne other]

/-- A thread goes on, and nothing changes for an owner other than it. -/
theorem State.Known.goes (known : state.Known) (threads : next.threads = state.threads)
    (others : ∀ u, u ≠ t → (next.mutex.owner = some u ↔ state.mutex.owner = some u))
    (once : ∀ u, next.mutex.owner = some u → next.mutex.count = 1)
    (keeps : ∀ u, u ≠ t → state.mutex.owner = some u → state.currentLockingThread = some u →
      next.currentLockingThread = some u)
    (recorded : next.mutex.owner = some t → phase.Recorded → next.currentLockingThread = some t)
    (apart : next.mutex.owner = some t → ¬ phase.Apart)
    (setting : ∀ acquisition, phase = .setting acquisition → next.mutex.owner = some t) :
    (next.goes t phase).Known := by
  constructor
  · exact once
  · intro u owns at_u
    by_cases same : u = t
    · rw [same, goes_self] at at_u
      rw [same] at owns ⊢
      exact recorded owns at_u
    · rw [goes_other _ _ same, threads] at at_u
      have owned := (others u same).mp owns
      exact keeps u same owned (known.recorded u owned at_u)
  · intro u owns at_u
    by_cases same : u = t
    · rw [same, goes_self] at at_u
      rw [same] at owns
      exact apart owns at_u
    · rw [goes_other _ _ same, threads] at at_u
      exact known.apart u ((others u same).mp owns) at_u
  · intro u acquisition at_u
    by_cases same : u = t
    · rw [same, goes_self] at at_u
      rw [same]
      exact setting acquisition at_u
    · rw [goes_other _ _ same, threads] at at_u
      exact (others u same).mpr (known.setting u acquisition at_u)

/-- A thread goes on without touching the mutex or the field. -/
theorem State.Known.goes_on (known : state.Known)
    (recorded : state.mutex.owner = some t → phase.Recorded → state.currentLockingThread = some t)
    (apart : state.mutex.owner = some t → ¬ phase.Apart)
    (free : ∀ acquisition, phase ≠ .setting acquisition) :
    (state.goes t phase).Known :=
  known.goes rfl (fun _ _ => Iff.rfl) known.once (fun _ _ _ current => current) recorded apart
    (fun acquisition at_t => absurd at_t (free acquisition))

/-- The call of a thread ends without touching the mutex or the field. -/
theorem State.Known.ends (known : state.Known) {result : Result}
    (recorded : state.mutex.owner = some t → state.currentLockingThread = some t) :
    (state.ends t result).Known :=
  known.goes_on (fun owns _ => recorded owns) (fun _ => id) (fun _ => nofun)

theorem Moved.known {event : Event} (known : state.Known) (undisturbed : Undisturbed state event)
    (moved : Moved state event next) : next.Known := by
  have recorded : ∀ u, (state.threads u).Recorded → state.mutex.owner = some u →
      state.currentLockingThread = some u :=
    fun u at_u owns => known.recorded u owns at_u
  have apart : ∀ u, (state.threads u).Apart → state.mutex.owner ≠ some u :=
    fun u at_u owns => known.apart u owns at_u
  have outside : ∀ u, (state.threads u).Outside → (state.threads u).Recorded := by
    intro u at_u
    unfold Phase.Outside at at_u
    split at at_u <;> rename_i found
    · rw [found]
      trivial
    · exact absurd at_u id
  have given : ∀ u t owner, u ≠ t → owner = some t →
      ((none : Option Thread) = some u ↔ owner = some u) := by
    intro u t owner other owns
    rw [owns]
    exact ⟨nofun, fun same => absurd (Option.some.inj same).symm other⟩
  cases moved with
  | @uninitialized t call at_t => exact known.ends (recorded t (outside t at_t))
  | @called t call at_t =>
    have current := recorded t (outside t at_t)
    cases call with
    | acquire acquisition | unlock =>
      exact known.goes_on (fun owns _ => current owns) (fun _ => id) (fun _ => nofun)
  | recursive at_t current => exact known.ends (fun _ => current)
  | @compared t error acquisition at_t other =>
    have free : state.mutex.owner ≠ some t :=
      fun owns => other (recorded t (by rw [at_t]; trivial) owns)
    exact known.goes_on (fun owns => absurd owns free) (fun owns => absurd owns free)
      (fun _ => nofun)
  | @acquired t acquisition at_t free =>
    refine known.goes rfl ?_ ?_ ?_ ?_ ?_ ?_
    · intro u other
      rw [free]
      exact ⟨fun owns => absurd (Option.some.inj owns).symm other, nofun⟩
    · exact fun _ _ => rfl
    · exact fun _ _ _ current => current
    · exact fun _ => False.elim
    · exact fun _ => id
    · exact fun _ _ => rfl
  | @again t acquisition at_t owns =>
    exact absurd owns (apart t (by rw [at_t]; trivial))
  | @notAcquired t error acquisition result at_t =>
    exact known.ends (fun owns => absurd owns (apart t (by rw [at_t]; trivial)))
  | @set t error acquisition at_t =>
    have owned := known.setting t acquisition at_t
    refine known.goes rfl (fun _ _ => Iff.rfl) known.once ?_ ?_ ?_ ?_
    · intro u other owns
      rw [owned] at owns
      exact absurd (Option.some.inj owns).symm other
    · exact fun _ _ => rfl
    · exact fun _ => id
    · exact fun _ => nofun
  | @released t at_t owns last =>
    refine known.goes rfl ?_ ?_ ?_ ?_ ?_ ?_
    · exact fun u other => given u t _ other owns
    · exact fun _ => nofun
    · exact fun _ _ _ current => current
    · exact nofun
    · exact nofun
    · exact fun _ => nofun
  | @lowered t at_t owns more =>
    have once := known.once t owns
    omega
  | @notReleased t error reason at_t =>
    exact known.ends (recorded t (by rw [at_t]; trivial))
  | @cleared t error at_t =>
    have free := apart t (by rw [at_t]; trivial)
    refine known.goes rfl (fun _ _ => Iff.rfl) known.once ?_ ?_ ?_ ?_
    · exact fun u _ owns current => absurd current (undisturbed at_t u owns)
    · exact fun owns => absurd owns free
    · exact fun owns => absurd owns free
    · exact fun _ => nofun
  | @exits t =>
    by_cases owns : state.mutex.owner = some t
    · have gone : state.mutex.abandon t = { owner := none, count := 0, abandoned := true } :=
        if_pos owns
      rw [gone]
      refine known.goes rfl ?_ ?_ ?_ ?_ ?_ ?_
      · exact fun u other => given u t _ other owns
      · exact fun _ => nofun
      · exact fun _ _ _ current => current
      · exact nofun
      · exact nofun
      · exact fun _ => nofun
    · have same : state.mutex.abandon t = state.mutex := if_neg owns
      rw [same]
      exact known.goes_on (fun _ => False.elim) (fun owned => absurd owned owns) (fun _ => nofun)
  | @starts t at_t =>
    have free := apart t (by rw [at_t]; trivial)
    exact known.goes_on (fun owns => absurd owns free) (fun owns => absurd owns free)
      (fun _ => nofun)

/-- In every run in which no thread clears the owner out of the field, the owner is known. -/
theorem reachable_known (reached : (robustMutex.under Undisturbed).Reachable state) :
    state.Known := by
  apply reached.invariant
  · intro state starts
    have free : ∀ t, state.mutex.owner ≠ some t := by
      intro t
      rw [starts.1]
      nofun
    have outside := starts.2.2
    constructor
    · exact fun t owns => absurd owns (free t)
    · exact fun t owns => absurd owns (free t)
    · exact fun t owns => absurd owns (free t)
    · intro t acquisition at_t
      rw [outside t] at at_t
      cases at_t
  · intro state event after _ known stepped
    obtain ⟨undisturbed, taken⟩ := System.under_step.mp stepped
    exact (step_moved taken).known known undisturbed

/-- As long as no thread clears the owner out of the field, an owner outside is in it, its next
`lock` or `try_lock` throws, and nobody ever owns the mutex twice. -/
theorem owner_known (reached : (robustMutex.under Undisturbed).Reachable state)
    (owns : state.mutex.owner = some t) :
    state.mutex.count = 1 ∧
    ((state.threads t).Outside → state.currentLockingThread = some t) ∧
    ∀ acquisition error, state.threads t = .comparing acquisition →
      robustMutex.step state (.advance t error) =
        some (state.ends t (.thrown "Attempted to recursively lock a mutex.")) := by
  have known := reachable_known reached
  refine ⟨known.once t owns, ?_, ?_⟩
  · intro outside
    apply known.recorded t owns
    unfold Phase.Outside at outside
    split at outside <;> rename_i found
    · rw [found]
      trivial
    · exact absurd outside id
  · intro acquisition error at_t
    have current : state.currentLockingThread = some t :=
      known.recorded t owns (by rw [at_t]; trivial)
    show state.advance t error = _
    unfold State.advance
    rw [at_t]
    exact if_pos current

end Owner

/-! ## A concrete run -/

/-- An object that nobody uses. -/
def unused : State where
  mutex := { owner := none, count := 0, abandoned := false }
  currentLockingThread := none
  threads _ := .outside none

theorem unused_initial : robustMutex.initial unused :=
  ⟨rfl, rfl, fun _ => rfl⟩

/-- A thread locks the object. -/
def locks (t : Thread) : List Event :=
  [.call t true (.acquire .lock), .advance t none, .advance t none, .advance t none]

/-- One thread unlocks the object, another one locks it, and calls `lock` again. -/
def relockedRun : List Event :=
  locks 1 ++ [.call 1 true .unlock, .advance 1 none, .advance 1 none] ++ locks 2 ++
    [.call 2 true (.acquire .lock)]

theorem relockedRun_replays :
    ((robustMutex.under Undisturbed).replay unused relockedRun).isSome = true := by
  decide +kernel

def relocked : State :=
  ((robustMutex.under Undisturbed).replay unused relockedRun).get relockedRun_replays

theorem owner_known_relocked :
    relocked.mutex.count = 1 ∧
    robustMutex.step relocked (.advance 2 none) =
      some (relocked.ends 2 (.thrown "Attempted to recursively lock a mutex.")) := by
  have starts : (robustMutex.under Undisturbed).initial unused := unused_initial
  have owns : relocked.mutex.owner = some 2 := by decide +kernel
  have compares : relocked.threads 2 = .comparing .lock := by decide +kernel
  have known := owner_known (System.Reachable.of_replay starts relockedRun_replays) owns
  exact ⟨known.1, known.2.2 .lock none compares⟩

/-- One thread unlocks the object, and another one locks it before the first clears the field. -/
def forgottenRun : List Event :=
  locks 1 ++ [.call 1 true .unlock, .advance 1 none] ++ locks 2 ++ [.advance 1 none]

theorem forgottenRun_replays : (robustMutex.replay unused forgottenRun).isSome = true := by
  decide +kernel

def forgotten : State := (robustMutex.replay unused forgottenRun).get forgottenRun_replays

/-- A thread outside owns the mutex and is not in the field, and it can lock the mutex again. -/
theorem owner_forgotten :
    robustMutex.Reachable forgotten ∧ forgotten.mutex.owner = some 2 ∧
    (forgotten.threads 2).Outside ∧ forgotten.currentLockingThread ≠ some 2 ∧
    ((robustMutex.replay forgotten (locks 2)).map fun locked =>
      (locked.mutex.count, locked.threads 2)) = some (2, .outside (some .done)) :=
  ⟨System.Reachable.of_replay unused_initial forgottenRun_replays, by decide +kernel,
    by decide +kernel, by decide +kernel, by decide +kernel⟩

end Azul.Ipc.Win32.RobustMutex
