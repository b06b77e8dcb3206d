import Azul.Ipc.LinuxConditionVariable
import Azul.Ipc.LinuxRecovery

/-!
# Waits and the robustness of the mutex

A wait that takes the mutex of a dead owner leaves it inconsistent, whatever it tells its caller,
and the caller's unlock then makes it unrecoverable. Nothing else that the condition variable does
to the mutex is out of the ordinary: a wait begins with an unlock and ends with a lock.
-/

namespace Azul.Ipc.Linux.ConditionVariable

open Azul.Foundation
open Azul.Ipc.Linux.RobustMutex (Mutex Thread)

variable {state after : State} {event : Event} {t : Thread}

/-- No wait takes the mutex of a dead owner, and no `try_lock` does. -/
def Spared (state : State) : Event → Prop
  | .mutex event => RobustMutex.Spared state.robust event
  | .relocks _ _ => state.robust.mutex ≠ .ownerDead
  | .call _ _ _ | .begins _ _ | .wakes _ _ => True

instance (state : State) (event : Event) : Decidable (Spared state event) := by
  unfold Spared
  split <;> infer_instance

/-! ## Steps -/

/-- Everything a step can do. -/
inductive Stepped (state : State) : Event → State → Prop
  | mutex {event : RobustMutex.Event} {robust} (outside : (state.waits event.thread).Outside)
      (stepped : RobustMutex.robustMutex.step state.robust event = some robust) :
    Stepped state (.mutex event) { state with robust := robust }
  | dies {t robust}
      (stepped : RobustMutex.robustMutex.step state.robust (.dies t) = some robust) :
    Stepped state (.mutex (.dies t)) ({ state with robust := robust }.goes t (.outside none))
  /-- A thread goes on inside the condition variable, and leaves the mutex alone. -/
  | goes {event t phase}
      (inside : (state.robust.threads t).Outside ∨ ¬ (state.waits t).Outside) :
    Stepped state event (state.goes t phase)
  | unlocks {t now call consistent} (at_t : state.waits t = .calling call)
      (owned : state.robust.mutex = .owned t consistent) :
    Stepped state (.begins t now)
      ((state.setMutex (if consistent then .free else .unrecoverable)).goes t (.blocked call))
  | locks {t reports call timeout result mutex outcome} (at_t : state.waits t = .woken call timeout)
      (locked : state.robust.mutex.pthreadMutexLock t = some (result, mutex)) :
    Stepped state (.relocks t reports) ((state.setMutex mutex).ends t outcome)

/-- The operating system releases a mutex for its owner only. -/
theorem unlock_zero {mutex released : Mutex}
    (unlocked : mutex.pthreadMutexUnlock t = (0, released)) :
    ∃ consistent, mutex = .owned t consistent ∧
      released = if consistent then .free else .unrecoverable := by
  unfold Mutex.pthreadMutexUnlock at unlocked
  cases mutex with
  | owned owner consistent =>
    by_cases own : owner = t
    · simp only [own, if_true, Prod.mk.injEq, true_and] at unlocked
      rw [own]
      exact ⟨consistent, rfl, unlocked.symm⟩
    · simp only [own, if_false] at unlocked
      cases (Prod.mk.inj unlocked).1
  | free | ownerDead | unrecoverable => cases (Prod.mk.inj unlocked).1

theorem begins_stepped {now : Timespec} (began : state.begins t now = some after) :
    Stepped state (.begins t now) after := by
  unfold State.begins at began
  split at began
  case h_1 call at_t =>
    have inside : ¬ (state.waits t).Outside := by
      rw [at_t]
      exact id
    by_cases refused : ¬ call.Accepted now
    · rw [if_pos refused] at began
      rw [← Option.some.inj began]
      exact .goes (Or.inr inside)
    · rw [if_neg refused] at began
      cases unlocked : state.robust.mutex.pthreadMutexUnlock t with
      | mk result mutex =>
        rw [unlocked] at began
        dsimp only at began
        by_cases failed : result ≠ 0
        · rw [if_pos failed] at began
          rw [← Option.some.inj began]
          exact .goes (Or.inr inside)
        · rw [if_neg failed] at began
          rw [not_not.mp failed] at unlocked
          obtain ⟨consistent, owned, released⟩ := unlock_zero unlocked
          rw [← Option.some.inj began, released]
          exact .unlocks at_t owned
  case h_2 | h_3 | h_4 => cases began

theorem relocks_stepped {reports : Bool} (relocked : state.relocks t reports = some after) :
    Stepped state (.relocks t reports) after := by
  unfold State.relocks at relocked
  split at relocked
  case h_1 call timeout at_t =>
    cases locked : state.robust.mutex.pthreadMutexLock t with
    | none =>
      rw [locked] at relocked
      cases relocked
    | some answer =>
      rw [locked] at relocked
      rw [← Option.some.inj relocked]
      exact .locks at_t locked
  case h_2 | h_3 | h_4 => cases relocked

theorem step_stepped (stepped : conditionVariable.step state event = some after) :
    Stepped state event after := by
  cases event with
  | mutex event =>
    cases event with
    | dies t =>
      simp only [conditionVariable, State.step] at stepped
      obtain ⟨robust, stepped, same⟩ := Option.map_eq_some_iff.mp stepped
      rw [← same]
      exact .dies stepped
    | call t initialized call | advance t reports =>
      obtain ⟨outside, stepped⟩ := Option.ite_none_right_eq_some.mp stepped
      obtain ⟨robust, stepped, same⟩ := Option.map_eq_some_iff.mp stepped
      rw [← same]
      exact .mutex outside stepped
  | call t initialized call =>
    obtain ⟨⟨_, outside⟩, same⟩ := Option.ite_none_right_eq_some.mp stepped
    cases initialized with
    | true | false =>
      rw [← Option.some.inj same]
      exact .goes (Or.inl outside)
  | begins t now => exact begins_stepped stepped
  | wakes t timeout =>
    change state.wakes t timeout = some after at stepped
    unfold State.wakes at stepped
    split at stepped
    case h_1 call at_t =>
      obtain ⟨_, same⟩ := Option.ite_none_left_eq_some.mp stepped
      rw [← Option.some.inj same]
      apply Stepped.goes
      right
      rw [at_t]
      exact id
    case h_2 | h_3 | h_4 => cases stepped
  | relocks t reports => exact relocks_stepped stepped

/-! ## The invariant -/

/-- The mutex is sound, and who waits is in no method of it. -/
structure State.Ok (state : State) : Prop where
  sound : state.robust.Sound
  away : ∀ t, ¬ (state.waits t).Outside → (state.robust.threads t).Outside

/-- A thread goes on inside the condition variable, and leaves the mutex with nothing to recover,
or as it is. -/
theorem State.Ok.goes {phase : Phase} {mutex : Mutex} (ok : state.Ok)
    (inside : (state.robust.threads t).Outside)
    (sound : ({ state.robust with mutex := mutex } : RobustMutex.State).Sound) :
    ((state.setMutex mutex).goes t phase).Ok := by
  constructor
  · exact sound
  · intro u waiting
    by_cases same : u = t
    · rw [same]
      exact inside
    · apply ok.away u
      change ¬ (Function.update state.waits t phase u).Outside at waiting
      rw [Function.update_of_ne same] at waiting
      exact waiting

/-- A thread that is in no method of the mutex owns it in a consistent state only. -/
theorem State.Ok.owned_consistent (ok : state.Ok) (inside : (state.robust.threads t).Outside)
    {consistent : Bool} (owned : state.robust.mutex = .owned t consistent) : consistent = true := by
  cases consistent with
  | true => rfl
  | false =>
    rw [ok.sound.consistent t owned] at inside
    cases inside

/-- Unless its owner is dead, a mutex that a thread locks has nothing to recover before and after
that. -/
theorem State.Ok.locked_settled {mutex : Mutex} {result : Int} (ok : state.Ok)
    (alive : state.robust.mutex ≠ .ownerDead) (inside : (state.robust.threads t).Outside)
    (locked : state.robust.mutex.pthreadMutexLock t = some (result, mutex)) :
    state.robust.mutex.Settled ∧ mutex.Settled := by
  generalize is : state.robust.mutex = before at locked
  cases before with
  | free =>
    rw [← (Prod.mk.inj (Option.some.inj locked)).2]
    exact ⟨trivial, rfl⟩
  | owned owner consistent =>
    by_cases own : owner = t
    · simp only [Mutex.pthreadMutexLock, own, if_true, Option.some.injEq, Prod.mk.injEq] at locked
      rw [own] at is
      rw [← locked.2, ok.owned_consistent inside is]
      exact ⟨rfl, rfl⟩
    · simp only [Mutex.pthreadMutexLock, own, if_false, reduceCtorEq] at locked
  | ownerDead => exact absurd is alive
  | unrecoverable => exact absurd is ok.sound.recoverable

theorem Stepped.ok (ok : state.Ok) (spared : Spared state event)
    (stepped : Stepped state event after) : after.Ok := by
  cases stepped with
  | @mutex event robust outside stepped =>
    have moved := RobustMutex.step_moved stepped
    constructor
    · exact moved.sound ok.sound spared
    · intro u waiting
      have other : u ≠ event.thread := by
        intro same
        rw [same] at waiting
        exact waiting outside
      show (robust.threads u).Outside
      rw [moved.others other]
      exact ok.away u waiting
  | @dies t robust stepped =>
    have moved := RobustMutex.step_moved stepped
    have dies : RobustMutex.Spared state.robust (.dies t) := trivial
    constructor
    · exact moved.sound ok.sound dies
    · intro u waiting
      have other : u ≠ t := by
        intro same
        change ¬ (Function.update state.waits t (.outside none) u).Outside at waiting
        rw [same, Function.update_self] at waiting
        exact waiting trivial
      change ¬ (Function.update state.waits t (.outside none) u).Outside at waiting
      rw [Function.update_of_ne other] at waiting
      show (robust.threads u).Outside
      rw [moved.others other]
      exact ok.away u waiting
  | @goes event t phase inside => exact ok.goes (inside.elim id (ok.away t)) ok.sound
  | @unlocks t now call consistent at_t owned =>
    have inside : (state.robust.threads t).Outside := by
      apply ok.away t
      rw [at_t]
      exact id
    have clean := ok.owned_consistent inside owned
    rw [clean] at owned
    rw [clean]
    have nobody := ok.sound.nobody (by rw [owned]; rfl)
    exact ok.goes inside (RobustMutex.State.Sound.replaced nobody trivial)
  | @locks t reports call timeout result mutex outcome at_t locked =>
    have inside : (state.robust.threads t).Outside := by
      apply ok.away t
      rw [at_t]
      exact id
    obtain ⟨before, now⟩ := ok.locked_settled spared inside locked
    exact ok.goes inside (RobustMutex.State.Sound.replaced (ok.sound.nobody before) now)

/-- In every run in which no wait takes the mutex of a dead owner the mutex is sound. -/
theorem reachable_ok (reached : (conditionVariable.under Spared).Reachable state) :
    state.Ok := by
  apply reached.invariant
  · intro state starts
    obtain ⟨initial, outside⟩ := starts
    constructor
    · exact RobustMutex.reachable_sound (.start initial)
    · intro t waiting
      rw [outside t] at waiting
      exact absurd trivial waiting
  · intro state event after _ ok stepped
    obtain ⟨spared, stepped⟩ := System.under_step.mp stepped
    exact (step_stepped stepped).ok ok spared

/-! ## Runs -/

/-- The state after a whole unlock of a thread, without a step of another thread in between. -/
def State.unlocked (state : State) (t : Thread) : Option State :=
  conditionVariable.replay state [.mutex (.call t true .unlock), .mutex (.advance t false)]

/-- What the first step of that comes to. -/
theorem unlocked_eq (outside : (state.waits t).Outside)
    (inside : (state.robust.threads t).Outside) :
    state.unlocked t =
      ((state.robust.goes t .unlocking).advance t false).map fun robust =>
        { state with robust := robust } := by
  have called : state.robust.step (.call t true .unlock) =
      some (state.robust.goes t .unlocking) := by
    simp only [RobustMutex.State.step, if_pos inside, if_true]
    rfl
  simp only [State.unlocked, System.replay, conditionVariable, State.step, if_pos outside, called,
    Option.map_some, Option.bind_some]
  show (Option.map _ ((state.robust.goes t .unlocking).advance t false)).bind _ = _
  exact Option.bind_fun_some _

/-- A thread that owns the mutex in an inconsistent state makes it unrecoverable. -/
theorem unlocked_spoils (outside : (state.waits t).Outside)
    (inside : (state.robust.threads t).Outside) (owned : state.robust.mutex = .owned t false) :
    ∃ last, state.unlocked t = some last ∧ last.robust.mutex = .unrecoverable := by
  rw [unlocked_eq outside inside,
    RobustMutex.unlock_inconsistent (RobustMutex.goes_self _ _ _) owned]
  exact ⟨_, rfl, rfl⟩

/-- As long as the mutex is sound, an unlock does not make it unrecoverable. -/
theorem State.Ok.unlocked_recoverable (ok : state.Ok) (outside : (state.waits t).Outside)
    (inside : (state.robust.threads t).Outside) {last : State}
    (unlocked : state.unlocked t = some last) : last.robust.mutex ≠ .unrecoverable := by
  rw [unlocked_eq outside inside] at unlocked
  obtain ⟨robust, advanced, same⟩ := Option.map_eq_some_iff.mp unlocked
  have called : (state.robust.goes t .unlocking).Sound := by
    refine ok.sound.goes ?_ nofun
    intro recovering
    rw [recovering] at inside
    cases inside
  have spared : RobustMutex.Spared (state.robust.goes t .unlocking) (.advance t false) := by
    intro trying
    rw [RobustMutex.goes_self] at trying
    cases trying
  have sound := (RobustMutex.advance_moved advanced).sound called spared
  rw [← same]
  exact sound.recoverable

/-- What a wait that takes the mutex again leaves. -/
theorem relocks_ends {reports : Bool} (ok : state.Ok)
    (relocked : conditionVariable.step state (.relocks t reports) = some after) :
    (after.waits t).Outside ∧ (after.robust.threads t).Outside ∧
      (state.robust.mutex = .ownerDead → after.robust.mutex = .owned t false) := by
  change state.relocks t reports = some after at relocked
  unfold State.relocks at relocked
  split at relocked
  case h_1 call timeout at_t =>
    have inside : (state.robust.threads t).Outside := by
      apply ok.away t
      rw [at_t]
      exact id
    cases locked : state.robust.mutex.pthreadMutexLock t with
    | none =>
      rw [locked] at relocked
      cases relocked
    | some answer =>
      rw [locked] at relocked
      rw [← Option.some.inj relocked]
      refine ⟨?_, inside, ?_⟩
      · show (Function.update state.waits t _ t).Outside
        rw [Function.update_self]
        trivial
      · intro dead
        rw [dead] at locked
        show answer.2 = .owned t false
        rw [← Option.some.inj locked]
  case h_2 | h_3 | h_4 => cases relocked

/-- As long as no wait takes the mutex of a dead owner, the mutex recovers; and a wait makes its
caller's unlock the end of the mutex exactly if it does so. -/
theorem spared_usable (reached : (conditionVariable.under Spared).Reachable state) :
    state.robust.Recovers ∧
      ∀ (t : Thread) (reports : Bool) (after : State),
        conditionVariable.step state (.relocks t reports) = some after →
        ((∃ last, after.unlocked t = some last ∧ last.robust.mutex = .unrecoverable) ↔
          ¬ Spared state (.relocks t reports)) := by
  have ok := reachable_ok reached
  refine ⟨RobustMutex.recovers_of_sound ok.sound, ?_⟩
  intro t reports after relocked
  obtain ⟨outside, inside, inherits⟩ := relocks_ends ok relocked
  constructor
  · intro spoiled spared
    obtain ⟨last, unlocked, unrecoverable⟩ := spoiled
    have still := (step_stepped relocked).ok ok spared
    exact still.unlocked_recoverable outside inside unlocked unrecoverable
  · intro dead
    exact unlocked_spoils outside inside (inherits (not_not.mp dead))

/-- The mutex and the condition variable of one name, before any call. -/
def start : State where
  robust := RobustMutex.start
  waits _ := .outside none

theorem start_initial : conditionVariable.initial start :=
  ⟨RobustMutex.start_initial, fun _ => rfl⟩

/-- Thread 1 waits, and thread 2 locks the mutex. -/
def waitingRun : List Event :=
  [.mutex (.call 1 true .lock), .mutex (.advance 1 false), .call 1 true (.waitFor 1500),
    .begins 1 { tvSec := 5, tvNsec := 700000000 }, .mutex (.call 2 true .lock),
    .mutex (.advance 2 false), .wakes 1 true]

/-- Thread 2 dies, and thread 3 recovers and unlocks the mutex before thread 1 takes it again. -/
def returnedRun : List Event :=
  waitingRun ++ [.mutex (.dies 2), .mutex (.call 3 true .lock), .mutex (.advance 3 false),
    .mutex (.advance 3 false), .mutex (.call 3 true .unlock), .mutex (.advance 3 false),
    .relocks 1 false]

theorem returnedRun_replays :
    ((conditionVariable.under Spared).replay start returnedRun).isSome = true := by
  decide +kernel

def returned : State :=
  ((conditionVariable.under Spared).replay start returnedRun).get returnedRun_replays

theorem spared_usable_returned :
    returned.waits 1 = .outside (some (.status true)) ∧ returned.robust.mutex = .owned 1 true ∧
      returned.robust.Recovers := by
  have starts : (conditionVariable.under Spared).initial start := start_initial
  exact ⟨by decide +kernel, by decide +kernel,
    (spared_usable (System.Reachable.of_replay starts returnedRun_replays)).1⟩

/-- Thread 2 dies instead, `WaitFor` throws, and its caller unlocks the mutex. -/
def spoiledRun : List Event :=
  waitingRun ++ [.mutex (.dies 2), .relocks 1 false, .mutex (.call 1 true .unlock),
    .mutex (.advance 1 false)]

theorem spoiledRun_replays : (conditionVariable.replay start spoiledRun).isSome = true := by
  decide +kernel

def spoiled : State := (conditionVariable.replay start spoiledRun).get spoiledRun_replays

/-- An event is a call of `try_lock`. -/
def Event.triesLock : Event → Bool
  | .mutex (.call _ _ .tryLock) => true
  | _ => false

/-- The mutex becomes unrecoverable in a history of `lock`, `unlock`, `Wait` and `WaitFor`. -/
theorem waiting_spoils :
    spoiledRun.any Event.triesLock = false ∧ conditionVariable.Reachable spoiled ∧
      spoiled.waits 1 =
        .outside (some (.thrown "pthread_cond_timedwait failed, error: 130")) ∧
      spoiled.robust.mutex = .unrecoverable :=
  ⟨by decide +kernel, System.Reachable.of_replay start_initial spoiledRun_replays,
    by decide +kernel, by decide +kernel⟩

end Azul.Ipc.Linux.ConditionVariable
