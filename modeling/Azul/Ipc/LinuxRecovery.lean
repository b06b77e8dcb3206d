import Azul.Ipc.LinuxRobustMutex

/-!
# Recovery of the robust mutex of `linux`

`lock` makes a mutex consistent whose owner has died, and nobody owns an inconsistent one outside of
that. `try_lock` does not: it throws, and its caller owns the mutex, which nobody can recover any
more once that caller unlocks it. As long as no `try_lock` meets a dead owner, every acquisition
meets what is expected of it, and the mutex never becomes unrecoverable.
-/

namespace Azul.Ipc.Linux.RobustMutex

open Azul.Foundation

/-! ## Steps -/

/-- Everything a step can do. -/
inductive Moved (state : State) : Event → State → Prop
  | uninitialized {t call} (outside : (state.threads t).Outside) :
    Moved state (.call t false call) (state.ends t (.thrown "Not initialized."))
  | called {t call} (outside : (state.threads t).Outside) :
    Moved state (.call t true call) (state.goes t call.start)
  | locked {t reports} (at_t : state.threads t = .locking) (free : state.mutex = .free) :
    Moved state (.advance t reports) ({ state with mutex := .owned t true }.ends t .done)
  | deadlock {t reports consistent} (at_t : state.threads t = .locking)
      (owned : state.mutex = .owned t consistent) :
    Moved state (.advance t reports)
      (state.ends t (.thrown "pthread_mutex_lock called on already locked mutex"))
  | inherited {t reports} (at_t : state.threads t = .locking) (dead : state.mutex = .ownerDead) :
    Moved state (.advance t reports) ({ state with mutex := .owned t false }.goes t .recovering)
  | lockRefused {t reports} (at_t : state.threads t = .locking)
      (spoiled : state.mutex = .unrecoverable) :
    Moved state (.advance t reports)
      (state.ends t (.thrown ("pthread_mutex_lock failed with error code: " ++ "131")))
  | recovered {t reports} (at_t : state.threads t = .recovering)
      (owned : state.mutex = .owned t false) :
    Moved state (.advance t reports) ({ state with mutex := .owned t true }.ends t .done)
  | notRecovered {t reports} (at_t : state.threads t = .recovering)
      (other : state.mutex ≠ .owned t false) : Moved state (.advance t reports) (state.ends t .done)
  | tried {t reports} (at_t : state.threads t = .trying) (free : state.mutex = .free) :
    Moved state (.advance t reports)
      ({ state with mutex := .owned t true }.ends t (.acquired true))
  | busy {t reports owner consistent} (at_t : state.threads t = .trying)
      (owned : state.mutex = .owned owner consistent) :
    Moved state (.advance t reports) (state.ends t (.acquired false))
  | reported {t consistent} (at_t : state.threads t = .trying)
      (owned : state.mutex = .owned t consistent) :
    Moved state (.advance t true)
      (state.ends t (.thrown "pthread_mutex_trylock called on already locked mutex"))
  | tryInherited {t reports} (at_t : state.threads t = .trying)
      (dead : state.mutex = .ownerDead) :
    Moved state (.advance t reports) ({ state with mutex := .owned t false }.ends t
      (.thrown ("pthread_mutex_trylock failed with error code: " ++ "130")))
  | tryRefused {t reports} (at_t : state.threads t = .trying)
      (spoiled : state.mutex = .unrecoverable) :
    Moved state (.advance t reports)
      (state.ends t (.thrown ("pthread_mutex_trylock failed with error code: " ++ "131")))
  | unlocked {t reports} (at_t : state.threads t = .unlocking)
      (owned : state.mutex = .owned t true) :
    Moved state (.advance t reports) ({ state with mutex := .free }.ends t .done)
  | spoils {t reports} (at_t : state.threads t = .unlocking)
      (owned : state.mutex = .owned t false) :
    Moved state (.advance t reports) ({ state with mutex := .unrecoverable }.ends t .done)
  | notOwner {t reports} (at_t : state.threads t = .unlocking)
      (other : ∀ consistent, state.mutex ≠ .owned t consistent) :
    Moved state (.advance t reports)
      (state.ends t (.thrown "pthread_mutex_unlock called from other thread"))
  | dies {t} :
    Moved state (.dies t) ({ state with mutex := state.mutex.abandoned t }.goes t .dead)

theorem advance_moved {state after : State} {t : Thread} {reports : Bool}
    (advanced : state.advance t reports = some after) :
    Moved state (.advance t reports) after := by
  unfold State.advance at advanced
  generalize at_t : state.threads t = phase at advanced
  cases phase with
  | outside last | dead => cases advanced
  | locking =>
    generalize is : state.mutex = mutex at advanced
    cases mutex with
    | free =>
      rw [← Option.some.inj advanced]
      exact .locked at_t is
    | owned owner consistent =>
      unfold Mutex.pthreadMutexLock at advanced
      by_cases own : owner = t
      · rw [own] at is advanced
        simp only [if_true] at advanced
        rw [← Option.some.inj advanced, ← is]
        exact .deadlock at_t is
      · simp only [own, if_false] at advanced
        cases advanced
    | ownerDead =>
      rw [← Option.some.inj advanced]
      exact .inherited at_t is
    | unrecoverable =>
      rw [← Option.some.inj advanced, ← is]
      exact .lockRefused at_t is
  | recovering =>
    unfold Mutex.pthreadMutexConsistent at advanced
    dsimp only at advanced
    by_cases own : state.mutex = .owned t false
    · rw [if_pos own] at advanced
      rw [← Option.some.inj advanced]
      exact .recovered at_t own
    · rw [if_neg own] at advanced
      rw [← Option.some.inj advanced]
      exact .notRecovered at_t own
  | trying =>
    generalize is : state.mutex = mutex at advanced
    cases mutex with
    | free =>
      rw [← Option.some.inj advanced]
      exact .tried at_t is
    | owned owner consistent =>
      unfold Mutex.pthreadMutexTrylock at advanced
      by_cases told : owner = t ∧ reports = true
      · simp only [told, and_self, if_true] at advanced
        obtain ⟨own, told⟩ := told
        rw [own] at is
        rw [← Option.some.inj advanced, told, ← is]
        exact .reported at_t is
      · simp only [told, if_false] at advanced
        rw [← Option.some.inj advanced, ← is]
        exact .busy at_t is
    | ownerDead =>
      rw [← Option.some.inj advanced]
      exact .tryInherited at_t is
    | unrecoverable =>
      rw [← Option.some.inj advanced, ← is]
      exact .tryRefused at_t is
  | unlocking =>
    generalize is : state.mutex = mutex at advanced
    have refused (other : ∀ consistent, mutex ≠ .owned t consistent) :
        Moved state (.advance t reports)
          (state.ends t (.thrown "pthread_mutex_unlock called from other thread")) := by
      rw [← is] at other
      exact .notOwner at_t other
    cases mutex with
    | free | ownerDead | unrecoverable =>
      rw [← Option.some.inj advanced, ← is]
      apply refused
      intro consistent same
      cases same
    | owned owner consistent =>
      unfold Mutex.pthreadMutexUnlock at advanced
      by_cases own : owner = t
      · rw [own] at is
        cases consistent with
        | true =>
          simp only [own, if_true] at advanced
          rw [← Option.some.inj advanced]
          exact .unlocked at_t is
        | false =>
          simp only [own, if_true] at advanced
          rw [← Option.some.inj advanced]
          exact .spoils at_t is
      · simp only [own, if_false] at advanced
        rw [← Option.some.inj advanced, ← is]
        apply refused
        intro consistent same
        exact own (Mutex.owned.inj same).1

theorem step_moved {state after : State} {event : Event}
    (stepped : robustMutex.step state event = some after) : Moved state event after := by
  cases event with
  | call t initialized call =>
    obtain ⟨outside, same⟩ := Option.ite_none_right_eq_some.mp stepped
    cases initialized with
    | false =>
      rw [← Option.some.inj same]
      exact .uninitialized outside
    | true =>
      rw [← Option.some.inj same]
      exact .called outside
  | advance t reports => exact advance_moved stepped
  | dies t =>
    rw [← Option.some.inj stepped]
    exact .dies

/-! ## The invariant -/

/-- A thread that has been told of a dead owner has the mutex until it has made it consistent, and
nobody else owns an inconsistent one. -/
structure State.Sound (state : State) : Prop where
  recoverable : state.mutex ≠ .unrecoverable
  recovers : ∀ t, state.threads t = .recovering → state.mutex = .owned t false
  consistent : ∀ t, state.mutex = .owned t false → state.threads t = .recovering

/-- Nobody has to recover the mutex. -/
def Mutex.Settled : Mutex → Prop
  | .owned _ consistent => consistent = true
  | .free | .ownerDead => True
  | .unrecoverable => False

/-- No `try_lock` meets a dead owner. -/
def Spared (state : State) : Event → Prop
  | .advance t _ => state.threads t = .trying → state.mutex ≠ .ownerDead
  | _ => True

instance (state : State) (event : Event) : Decidable (Spared state event) := by
  unfold Spared
  split <;> infer_instance

section Sound

variable {state : State} {t : Thread} {phase : Phase}

theorem goes_self (state : State) (t : Thread) (phase : Phase) :
    (state.goes t phase).threads t = phase := by
  show Function.update state.threads t phase t = phase
  rw [Function.update_self]

theorem goes_other {u : Thread} (state : State) (phase : Phase) (other : u ≠ t) :
    (state.goes t phase).threads u = state.threads u := by
  show Function.update state.threads t phase u = state.threads u
  rw [Function.update_of_ne other]

/-- A thread that is not recovering the mutex goes on without it changing. -/
theorem State.Sound.goes (sound : state.Sound) (before : state.threads t ≠ .recovering)
    (now : phase ≠ .recovering) : (state.goes t phase).Sound := by
  constructor
  · exact sound.recoverable
  · intro u at_u
    by_cases same : u = t
    · rw [same, goes_self] at at_u
      exact absurd at_u now
    · rw [goes_other _ _ same] at at_u
      exact sound.recovers u at_u
  · intro u owned
    have at_u := sound.consistent u owned
    have other : u ≠ t := by
      intro same
      rw [same] at at_u
      exact before at_u
    rw [goes_other _ _ other]
    exact at_u

/-- While nobody but a thread recovers the mutex, that thread goes on and leaves nothing to
recover. -/
theorem State.Sound.changes {mutex : Mutex}
    (others : ∀ u, u ≠ t → state.threads u ≠ .recovering) (now : phase ≠ .recovering)
    (settled : mutex.Settled) : (({ state with mutex := mutex } : State).goes t phase).Sound := by
  constructor
  · intro spoiled
    change mutex = .unrecoverable at spoiled
    rw [spoiled] at settled
    cases settled
  · intro u at_u
    by_cases same : u = t
    · rw [same, goes_self] at at_u
      exact absurd at_u now
    · rw [goes_other _ _ same] at at_u
      exact absurd at_u (others u same)
  · intro u owned
    change mutex = .owned u false at owned
    rw [owned] at settled
    cases settled

/-- While nobody recovers the mutex, it may become another one with nothing to recover. -/
theorem State.Sound.replaced {mutex : Mutex} (nobody : ∀ u, state.threads u ≠ .recovering)
    (settled : mutex.Settled) : ({ state with mutex := mutex } : State).Sound := by
  constructor
  · intro spoiled
    change mutex = .unrecoverable at spoiled
    rw [spoiled] at settled
    cases settled
  · intro u at_u
    exact absurd at_u (nobody u)
  · intro u owned
    change mutex = .owned u false at owned
    rw [owned] at settled
    cases settled

/-- Nobody recovers a mutex that need not be. -/
theorem State.Sound.nobody (sound : state.Sound) (settled : state.mutex.Settled) (u : Thread) :
    state.threads u ≠ .recovering := by
  intro at_u
  rw [sound.recovers u at_u] at settled
  cases settled

/-- While a thread owns the mutex, no other one recovers it. -/
theorem State.Sound.others (sound : state.Sound) {consistent : Bool}
    (owned : state.mutex = .owned t consistent) (u : Thread) (other : u ≠ t) :
    state.threads u ≠ .recovering := by
  intro at_u
  have owned' := sound.recovers u at_u
  rw [owned] at owned'
  exact other (Mutex.owned.inj owned').1.symm

/-- A thread that is told of a dead owner recovers the mutex. -/
theorem State.Sound.inherits (sound : state.Sound) (dead : state.mutex = .ownerDead) :
    (({ state with mutex := .owned t false } : State).goes t .recovering).Sound := by
  have nobody := sound.nobody (by rw [dead]; trivial)
  constructor
  · intro spoiled
    cases spoiled
  · intro u at_u
    by_cases same : u = t
    · rw [same]
      rfl
    · rw [goes_other _ _ same] at at_u
      exact absurd at_u (nobody u)
  · intro u owned
    rw [← (Mutex.owned.inj owned).1]
    exact goes_self _ _ _

theorem abandoned_own {mutex : Mutex} {consistent : Bool}
    (owned : mutex = .owned t consistent) : mutex.abandoned t = .ownerDead := by
  rw [owned]
  exact if_pos rfl

theorem abandoned_other {mutex : Mutex} (other : ∀ consistent, mutex ≠ .owned t consistent) :
    mutex.abandoned t = mutex := by
  cases mutex with
  | free | ownerDead | unrecoverable => rfl
  | owned owner consistent =>
    apply if_neg
    intro own
    rw [own] at other
    exact other consistent rfl

/-- A thread dies, and its mutex is abandoned. -/
theorem State.Sound.dies (sound : state.Sound) (t : Thread) :
    (({ state with mutex := state.mutex.abandoned t } : State).goes t .dead).Sound := by
  by_cases own : ∃ consistent, state.mutex = .owned t consistent
  · obtain ⟨consistent, owned⟩ := own
    rw [abandoned_own owned]
    exact State.Sound.changes (sound.others owned) nofun trivial
  · rw [abandoned_other (not_exists.mp own)]
    exact sound.goes (fun at_t => own ⟨false, sound.recovers t at_t⟩) nofun

end Sound

/-- The thread that an event is about. -/
def Event.thread : Event → Thread
  | .call t _ _ | .advance t _ | .dies t => t

/-- A step of a thread leaves the other threads where they are. -/
theorem Moved.others {state after : State} {event : Event} (moved : Moved state event after)
    {u : Thread} (other : u ≠ event.thread) : after.threads u = state.threads u := by
  cases moved with
  | uninitialized | called | locked | deadlock | inherited | lockRefused | recovered
  | notRecovered | tried | busy | reported | tryInherited | tryRefused | unlocked | spoils
  | notOwner | dies => exact goes_other _ _ other

theorem Moved.sound {state after : State} {event : Event} (sound : state.Sound)
    (spared : Spared state event) (moved : Moved state event after) : after.Sound := by
  cases moved with
  | @uninitialized t call outside =>
    refine sound.goes (fun at_t => ?_) nofun
    rw [at_t] at outside
    exact outside
  | @called t call outside =>
    apply sound.goes
    · intro at_t
      rw [at_t] at outside
      exact outside
    · cases call with
      | lock | tryLock | unlock => nofun
  | locked at_t free | tried at_t free =>
    have nobody := sound.nobody (by rw [free]; trivial)
    exact State.Sound.changes (fun u _ => nobody u) nofun rfl
  | inherited at_t dead => exact sound.inherits dead
  | recovered at_t owned => exact State.Sound.changes (sound.others owned) nofun rfl
  | notRecovered at_t other => exact absurd (sound.recovers _ at_t) other
  | tryInherited at_t dead => exact absurd dead (spared at_t)
  | lockRefused at_t spoiled | tryRefused at_t spoiled => exact absurd spoiled sound.recoverable
  | unlocked at_t owned =>
    have nobody := sound.nobody (by rw [owned]; rfl)
    exact State.Sound.changes (fun u _ => nobody u) nofun trivial
  | @spoils t reports at_t owned =>
    have recovering := sound.consistent t owned
    rw [at_t] at recovering
    cases recovering
  | deadlock at_t owned | busy at_t owned | reported at_t owned | notOwner at_t other =>
    exact sound.goes (by rw [at_t]; nofun) nofun
  | dies => exact sound.dies _

/-- In every run in which no `try_lock` meets a dead owner the mutex is sound. -/
theorem reachable_sound {state : State} (reached : (robustMutex.under Spared).Reachable state) :
    state.Sound := by
  apply reached.invariant
  · intro state starts
    obtain ⟨free, outside⟩ := starts
    constructor
    · intro spoiled
      rw [free] at spoiled
      cases spoiled
    · intro t at_t
      rw [outside t] at at_t
      cases at_t
    · intro t owned
      rw [free] at owned
      cases owned
  · intro state event after _ sound stepped
    obtain ⟨spared, stepped⟩ := System.under_step.mp stepped
    exact (step_moved stepped).sound sound spared

/-! ## Acquisitions -/

/-- `lock` throws, or `try_lock` throws or returns `false`. -/
def Result.Failed : Result → Prop
  | .thrown _ | .acquired false => True
  | .done | .acquired true => False

/-- The call of a thread has ended. -/
def State.Over (t : Thread) (state : State) : Prop :=
  (state.threads t).Outside
  deriving Decidable

namespace State

variable (state : State) (t : Thread)

/-- The state after a whole call, without a step of another thread in between. -/
def attempt (call : Call) (reports : Bool) : Option State :=
  (state.step (.call t true call)).bind
    (robustMutex.stepUntil (Over t) (.advance t reports) 2)

/-- Nobody who is alive owns the mutex. -/
def Available : Prop :=
  state.mutex = .free ∨ state.mutex = .ownerDead

def Owns : Prop :=
  ∃ consistent, state.mutex = .owned t consistent
  deriving Decidable

/-- The call of a thread has succeeded and has left it a consistent mutex. -/
def Acquired : Prop :=
  state.mutex = .owned t true ∧
    ∃ result, state.threads t = .outside (some result) ∧ ¬ result.Failed

/-- What is expected of the first step of an acquisition: an available mutex comes to be the
thread's, which then has it consistent or goes on to make it so, and a failure does not give it to
the thread. -/
structure Meets (after : State) : Prop where
  acquires : state.Available → after.Acquired t ∨
    after.mutex = .owned t false ∧ after.threads t = .recovering
  failed : ∀ result, after.threads t = .outside (some result) → result.Failed →
    after.Owns t → state.Owns t

end State

section Acquisition

variable {state after : State} {t : Thread} {reports : Bool}

theorem lock_free (at_t : state.threads t = .locking) (free : state.mutex = .free) :
    state.advance t reports = some ({ state with mutex := .owned t true }.ends t .done) := by
  unfold State.advance
  rw [at_t]
  dsimp only
  rw [free]
  rfl

theorem lock_dead (at_t : state.threads t = .locking) (dead : state.mutex = .ownerDead) :
    state.advance t reports =
      some ({ state with mutex := .owned t false }.goes t .recovering) := by
  unfold State.advance
  rw [at_t]
  dsimp only
  rw [dead]
  rfl

theorem recovering_owned (at_t : state.threads t = .recovering)
    (owned : state.mutex = .owned t false) :
    state.advance t reports = some ({ state with mutex := .owned t true }.ends t .done) := by
  unfold State.advance
  rw [at_t]
  dsimp only
  unfold Mutex.pthreadMutexConsistent
  rw [if_pos owned]

theorem tryLock_free (at_t : state.threads t = .trying) (free : state.mutex = .free) :
    state.advance t reports =
      some ({ state with mutex := .owned t true }.ends t (.acquired true)) := by
  unfold State.advance
  rw [at_t]
  dsimp only
  rw [free]
  rfl

theorem tryLock_dead (at_t : state.threads t = .trying) (dead : state.mutex = .ownerDead) :
    state.advance t reports = some ({ state with mutex := .owned t false }.ends t
      (.thrown ("pthread_mutex_trylock failed with error code: " ++ "130"))) := by
  unfold State.advance
  rw [at_t]
  dsimp only
  rw [dead]
  rfl

theorem unlock_inconsistent (at_t : state.threads t = .unlocking)
    (owned : state.mutex = .owned t false) :
    state.advance t reports = some ({ state with mutex := .unrecoverable }.ends t .done) := by
  unfold State.advance
  rw [at_t]
  dsimp only
  rw [owned]
  simp only [Mutex.pthreadMutexUnlock, if_true]
  rfl

theorem ends_self (state : State) (t : Thread) (result : Result) :
    (state.ends t result).threads t = .outside (some result) :=
  goes_self state t _

theorem ends_over (state : State) (t : Thread) (result : Result) :
    (state.ends t result).Over t := by
  unfold State.Over
  rw [ends_self]
  trivial

theorem goes_not_over (state : State) (t : Thread) {phase : Phase} (inside : ¬ phase.Outside) :
    ¬ (state.goes t phase).Over t := by
  unfold State.Over
  rw [goes_self]
  exact inside

theorem ends_acquired (state : State) (result : Result) (succeeds : ¬ result.Failed) :
    (({ state with mutex := .owned t true } : State).ends t result).Acquired t :=
  ⟨rfl, result, ends_self _ _ _, succeeds⟩

/-- An acquisition that takes a free mutex meets what is expected of it. -/
theorem meets_taken {result : Result} (succeeds : ¬ result.Failed) :
    state.Meets t (({ state with mutex := .owned t true } : State).ends t result) := by
  constructor
  · exact fun _ => Or.inl (ends_acquired state result succeeds)
  · intro other outside failed
    rw [ends_self] at outside
    rw [← Option.some.inj (Phase.outside.inj outside)] at failed
    exact absurd failed succeeds

/-- So does one that fails on a mutex which is not available, and does not change it. -/
theorem meets_refused (result : Result) (refused : ¬ state.Available) :
    state.Meets t (state.ends t result) := by
  constructor
  · exact fun available => absurd available refused
  · exact fun _ _ _ owns => owns

theorem owned_unavailable {owner : Thread} {consistent : Bool}
    (owned : state.mutex = .owned owner consistent) : ¬ state.Available := by
  unfold State.Available
  rw [owned]
  exact not_or.mpr ⟨nofun, nofun⟩

/-- The first step of an acquisition meets what is expected of it exactly if it is not a `try_lock`
that meets a dead owner. -/
theorem step_meets_iff (acquiring : state.threads t = .locking ∨ state.threads t = .trying)
    (advanced : state.advance t reports = some after) :
    state.Meets t after ↔ Spared state (.advance t reports) := by
  have spoiled_unavailable (spoiled : state.mutex = .unrecoverable) : ¬ state.Available := by
    unfold State.Available
    rw [spoiled]
    exact not_or.mpr ⟨nofun, nofun⟩
  have spared_alive (alive : state.mutex ≠ .ownerDead) : Spared state (.advance t reports) :=
    fun _ => alive
  have moved := advance_moved advanced
  generalize happens : Event.advance t reports = event at moved
  cases moved with
  | uninitialized outside | called outside | dies => cases happens
  | recovered at_other owned | notRecovered at_other other | unlocked at_other owned
  | spoils at_other owned | notOwner at_other other =>
    cases happens
    rw [at_other] at acquiring
    cases acquiring with
    | inl same | inr same => cases same
  | locked at_t free | tried at_t free =>
    cases happens
    exact iff_of_true (meets_taken id) (spared_alive (by rw [free]; nofun))
  | deadlock at_t owned | busy at_t owned | reported at_t owned =>
    cases happens
    exact iff_of_true (meets_refused _ (owned_unavailable owned))
      (spared_alive (by rw [owned]; nofun))
  | lockRefused at_t spoiled | tryRefused at_t spoiled =>
    cases happens
    exact iff_of_true (meets_refused _ (spoiled_unavailable spoiled))
      (spared_alive (by rw [spoiled]; nofun))
  | inherited at_t dead =>
    cases happens
    apply iff_of_true
    · constructor
      · exact fun _ => Or.inr ⟨rfl, goes_self _ _ _⟩
      · intro result outside
        rw [goes_self] at outside
        cases outside
    · intro trying
      rw [at_t] at trying
      cases trying
  | tryInherited at_t dead =>
    cases happens
    apply iff_of_false
    · intro meets
      cases meets.acquires (Or.inr dead) with
      | inl acquired => cases acquired.1
      | inr recovering =>
        rw [ends_self] at recovering
        cases recovering.2
    · exact fun spared => spared at_t dead

/-- A whole acquisition of an available mutex succeeds and leaves it consistent, unless it is a
`try_lock` that meets a dead owner. -/
theorem attempt_acquires {call : Call} (acquires : call ≠ .unlock)
    (outside : (state.threads t).Outside) (available : state.Available)
    (spared : call = .tryLock → state.mutex ≠ .ownerDead) :
    ∃ last, state.attempt t call reports = some last ∧ last.Acquired t := by
  have started : state.step (.call t true call) = some (state.goes t call.start) := by
    show (if (state.threads t).Outside then _ else _) = _
    rw [if_pos outside]
    rfl
  unfold State.attempt
  rw [started, Option.bind_some]
  have going : ¬ (state.goes t call.start).Over t := by
    apply goes_not_over
    cases call with
    | lock | tryLock | unlock => exact id
  have recovering : ¬ Phase.recovering.Outside := id
  have at_start := goes_self state t call.start
  cases call with
  | unlock => exact absurd rfl acquires
  | tryLock =>
    have free := available.resolve_right (spared rfl)
    refine ⟨_, ?_, ends_acquired (state.goes t .trying) (.acquired true) id⟩
    rw [System.stepUntil_next 1 going]
    show ((state.goes t .trying).advance t reports).bind _ = _
    have first : (state.goes t .trying).advance t reports = _ := tryLock_free at_start free
    rw [first]
    exact System.stepUntil_done 1 (ends_over _ _ _)
  | lock =>
    cases available with
    | inl free =>
      refine ⟨_, ?_, ends_acquired (state.goes t .locking) .done id⟩
      rw [System.stepUntil_next 1 going]
      show ((state.goes t .locking).advance t reports).bind _ = _
      have first : (state.goes t .locking).advance t reports = _ := lock_free at_start free
      rw [first]
      exact System.stepUntil_done 1 (ends_over _ _ _)
    | inr dead =>
      let told := ({ state.goes t .locking with mutex := .owned t false } : State)
      refine ⟨_, ?_, ends_acquired (told.goes t .recovering) .done id⟩
      rw [System.stepUntil_next 1 going]
      show ((state.goes t .locking).advance t reports).bind _ = _
      have first : (state.goes t .locking).advance t reports = _ := lock_dead at_start dead
      rw [first, Option.bind_some, System.stepUntil_next 0 (goes_not_over told t recovering)]
      show ((told.goes t .recovering).advance t reports).bind _ = _
      rw [recovering_owned (goes_self _ _ _) rfl]
      rfl

end Acquisition

/-! ## Runs -/

/-- What is expected of the mutex in a state. -/
structure State.Recovers (state : State) : Prop where
  recoverable : state.mutex ≠ .unrecoverable
  /-- The next acquisition, alone, gets an available mutex. -/
  acquires : ∀ t call reports, call ≠ .unlock → (state.threads t).Outside → state.Available →
    (call = .tryLock → state.mutex ≠ .ownerDead) →
      ∃ last, state.attempt t call reports = some last ∧ last.Acquired t
  /-- So it does among the steps of other threads: its first step is not blocked, … -/
  enabled : ∀ t reports, state.threads t = .locking ∨ state.threads t = .trying →
    state.Available → (state.advance t reports).isSome = true
  /-- … takes the mutex, … -/
  meets : ∀ t reports after, state.threads t = .locking ∨ state.threads t = .trying →
    state.advance t reports = some after →
      (state.Meets t after ↔ Spared state (.advance t reports))
  /-- … and a second one makes it consistent. -/
  recovers : ∀ t reports, state.threads t = .recovering → state.mutex = .owned t false ∧
    ∃ after, state.advance t reports = some after ∧ after.Acquired t

/-- A sound mutex recovers. -/
theorem recovers_of_sound {state : State} (sound : state.Sound) : state.Recovers := by
  constructor
  · exact sound.recoverable
  · intro t call reports acquires outside available spared
    exact attempt_acquires acquires outside available spared
  · intro t reports acquiring available
    cases acquiring with
    | inl locking =>
      cases available with
      | inl free => rw [lock_free locking free]; rfl
      | inr dead => rw [lock_dead locking dead]; rfl
    | inr trying =>
      cases available with
      | inl free => rw [tryLock_free trying free]; rfl
      | inr dead => rw [tryLock_dead trying dead]; rfl
  · intro t reports after acquiring advanced
    exact step_meets_iff acquiring advanced
  · intro t reports recovering
    have owned := sound.recovers t recovering
    exact ⟨owned, _, recovering_owned recovering owned, ends_acquired state .done id⟩

/-- No `try_lock` meets a dead owner, and none is made by the owner of the mutex. -/
def Aware (state : State) : Event → Prop
  | .advance t _ => state.threads t = .trying → state.mutex ≠ .ownerDead ∧ ¬ state.Owns t
  | _ => True

instance (state : State) (event : Event) : Decidable (Aware state event) := by
  unfold Aware
  split <;> infer_instance

theorem Aware.spared {state : State} {event : Event} (aware : Aware state event) :
    Spared state event := by
  cases event with
  | advance t reports => exact fun trying => (aware trying).1
  | call | dies => trivial

/-- A `try_lock` that returns `false` or throws does not own the mutex afterwards. -/
def State.Refuses (after : State) (t : Thread) : Prop :=
  ∀ result, after.threads t = .outside (some result) → result.Failed → ¬ after.Owns t

/-- A `try_lock` that fails does not own the mutex exactly if it neither meets a dead owner nor is
made by the owner. -/
theorem refuses_iff {state after : State} {t : Thread} {reports : Bool}
    (trying : state.threads t = .trying) (advanced : state.advance t reports = some after) :
    after.Refuses t ↔ Aware state (.advance t reports) := by
  have elsewhere {phase : Phase} (at_t : state.threads t = phase) (other : phase ≠ .trying) :
      False := by
    rw [trying] at at_t
    exact other at_t.symm
  have aware {mutex : Mutex} (is : state.mutex = mutex) (alive : mutex ≠ .ownerDead)
      (foreign : ∀ consistent, mutex ≠ .owned t consistent) :
      Aware state (.advance t reports) := by
    intro _
    rw [← is] at alive foreign
    exact ⟨alive, fun owns => owns.elim foreign⟩
  have moved := advance_moved advanced
  generalize happens : Event.advance t reports = event at moved
  cases moved with
  | uninitialized outside | called outside | dies => cases happens
  | locked at_t free | deadlock at_t owned | inherited at_t dead | lockRefused at_t spoiled
  | recovered at_t owned | notRecovered at_t other | unlocked at_t owned | spoils at_t owned
  | notOwner at_t other =>
    cases happens
    exact (elsewhere at_t nofun).elim
  | tried at_t free =>
    cases happens
    refine iff_of_true ?_ (aware free nofun nofun)
    intro result outside failed
    rw [ends_self] at outside
    rw [← Option.some.inj (Phase.outside.inj outside)] at failed
    exact failed.elim
  | tryRefused at_t spoiled =>
    cases happens
    refine iff_of_true ?_ (aware spoiled nofun nofun)
    intro result outside failed owns
    obtain ⟨consistent, owned⟩ := owns
    change state.mutex = _ at owned
    rw [spoiled] at owned
    cases owned
  | tryInherited at_t dead =>
    cases happens
    apply iff_of_false
    · intro refuses
      exact refuses _ (ends_self _ _ _) trivial ⟨false, rfl⟩
    · exact fun aware => (aware trying).1 dead
  | reported at_t owned =>
    cases happens
    apply iff_of_false
    · intro refuses
      exact refuses _ (ends_self _ _ _) trivial ⟨_, owned⟩
    · exact fun aware => (aware trying).2 ⟨_, owned⟩
  | @busy _ _ owner consistent at_t owned =>
    cases happens
    by_cases own : owner = t
    · rw [own] at owned
      apply iff_of_false
      · intro refuses
        exact refuses _ (ends_self _ _ _) trivial ⟨_, owned⟩
      · exact fun aware => (aware trying).2 ⟨_, owned⟩
    · have foreign : ∀ consistent', Mutex.owned owner consistent ≠ .owned t consistent' :=
        fun _ same => own (Mutex.owned.inj same).1
      refine iff_of_true ?_ (aware owned nofun foreign)
      intro result outside failed owns
      obtain ⟨consistent', owned'⟩ := owns
      change state.mutex = _ at owned'
      rw [owned] at owned'
      exact foreign _ owned'

/-- In every run in which no `try_lock` meets a dead owner or is made by the owner, the mutex
recovers; and a `try_lock` that returns `false` or throws does not own it, exactly if it is not one
of these. -/
theorem aware_recovers {state : State} (reached : (robustMutex.under Aware).Reachable state) :
    state.Recovers ∧ ∀ t reports after, state.threads t = .trying →
      state.advance t reports = some after →
        (after.Refuses t ↔ Aware state (.advance t reports)) := by
  have spared : (robustMutex.under Spared).Reachable state :=
    reached.under_weaker fun _ _ aware => aware.spared
  exact ⟨recovers_of_sound (reachable_sound spared),
    fun _ _ _ trying advanced => refuses_iff trying advanced⟩

/-- The mutex of one name, before any call. -/
def start : State where
  mutex := .free
  threads _ := .outside none

theorem start_initial : robustMutex.initial start :=
  ⟨rfl, fun _ => rfl⟩

/-- Thread 1 dies as the owner, and thread 2 while it recovers the mutex. -/
def abandonedRun : List Event :=
  [.call 1 true .lock, .advance 1 false, .dies 1, .call 2 true .lock, .advance 2 false, .dies 2]

theorem abandonedRun_replays :
    ((robustMutex.under Aware).replay start abandonedRun).isSome = true := by
  decide +kernel

def abandoned : State :=
  ((robustMutex.under Aware).replay start abandonedRun).get abandonedRun_replays

theorem aware_recovers_abandoned : abandoned.mutex = .ownerDead ∧ abandoned.Recovers := by
  have starts : (robustMutex.under Aware).initial start := start_initial
  exact ⟨by decide +kernel,
    (aware_recovers (System.Reachable.of_replay starts abandonedRun_replays)).1⟩

/-- Thread 2 calls `try_lock` after thread 1 has died as the owner, and then `unlock`. -/
def spoiledRun : List Event :=
  [.call 1 true .lock, .advance 1 false, .dies 1, .call 2 true .tryLock, .advance 2 false]

theorem spoiledRun_replays : (robustMutex.replay start spoiledRun).isSome = true := by
  decide +kernel

/-- The state after the `try_lock`. -/
def spoiled : State := (robustMutex.replay start spoiledRun).get spoiledRun_replays

def unlockRun : List Event :=
  spoiledRun ++ [.call 2 true .unlock, .advance 2 false]

theorem unlockRun_replays : (robustMutex.replay start unlockRun).isSome = true := by
  decide +kernel

/-- `try_lock` throws on a mutex whose owner has died, the caller owns it all the same, and the
mutex becomes unrecoverable. -/
theorem spoiled_owned :
    robustMutex.Reachable spoiled ∧ spoiled.threads 2 = .outside (some
        (.thrown "pthread_mutex_trylock failed with error code: 130")) ∧ spoiled.Owns 2 ∧
      robustMutex.Reachable ((robustMutex.replay start unlockRun).get unlockRun_replays) ∧
      ((robustMutex.replay start unlockRun).get unlockRun_replays).mutex = .unrecoverable :=
  ⟨System.Reachable.of_replay start_initial spoiledRun_replays, by decide +kernel,
    ⟨false, by decide +kernel⟩, System.Reachable.of_replay start_initial unlockRun_replays,
    by decide +kernel⟩

end Azul.Ipc.Linux.RobustMutex
