import Azul.Ipc.DarwinExclusion

/-!
# Failed acquisitions of the robust mutex of `darwin`

An acquisition that fails at the mutex of the process changes nothing. One that fails at the file
does not give that mutex back, and `try_lock` fails there by an exception in particular if another
process has the mutex, since it compares the result of `flock` with an error number. So exactly the
acquisitions to which the file is granted, or that do not get to it, are clean.
-/

namespace Azul.Ipc.Darwin.RobustMutex

open Azul.Foundation

/-- `lock` throws, or `try_lock` throws or returns `false`. -/
def Result.Failed : Result → Prop
  | .thrown _ | .acquired false => True
  | .done | .acquired true => False

/-- The call of a thread has ended. -/
def State.Over (t : Thread) (state : State) : Prop :=
  (state.threads t).Outside
  deriving Decidable

namespace State

variable (state : State) (t : Thread)

/-- The state after a whole call, without a step of another thread in between. -/
def attempt (impl : Option Nat) (call : Call) (fails : Bool) : Option State :=
  (state.step (.call t impl call)).bind
    (robustMutex.stepUntil (Over t) (.advance t fails) 2)

/-- Another process has the lock of the file. -/
def Contended : Prop :=
  ∃ holder ∈ state.resources.fileLock, holder.process ≠ t.process

/-- A call that fails leaves the resources as they were, and contention is no exception. -/
structure Clean (impl : Option Nat) (call : Call) (after : State) : Prop where
  unchanged : ∀ result, after.threads t = .outside (some result) → result.Failed →
    after.resources = state.resources
  contended : call = .tryLock → impl ≠ none → state.Contended t →
    after.threads t = .outside (some (.acquired false))

/-- The mutex of the process is not free, or the file is granted. -/
def Admits (impl : Option Nat) (fails : Bool) : Prop :=
  ∀ object ∈ impl, state.resources.mutexes t.process = none →
    fails = false ∧ state.resources.Grants ⟨t.process, object⟩

/-- The resources without what the call of a thread has taken so far. -/
def before : Resources :=
  match state.threads t with
  | .lockingFile _ | .tryingFile _ => state.resources.setMutex t.process none
  | _ => state.resources

/-- A step that ends an acquisition by a failure leaves of the call nothing, and contention is no
exception. -/
structure CleanStep (after : State) : Prop where
  unchanged : ∀ result, after.threads t = .outside (some result) → result.Failed →
    after.resources = state.before t
  contended : ∀ object, state.threads t = .tryingFile object → state.Contended t →
    after.threads t = .outside (some (.acquired false))

end State

/-- The object to whose file a thread goes. -/
def Phase.file : Phase → Option Nat
  | .lockingFile object | .tryingFile object => some object
  | _ => none

/-- The steps of acquisitions. -/
def Phase.Acquiring : Phase → Prop
  | .lockingMutex _ | .lockingFile _ | .tryingMutex _ | .tryingFile _ => True
  | _ => False

/-- The file is granted to the threads that go for it. -/
def Admitted (state : State) : Event → Prop
  | .advance t fails => ∀ object ∈ (state.threads t).file,
    fails = false ∧ state.resources.Grants ⟨t.process, object⟩
  | _ => True

instance (state : State) : (event : Event) → Decidable (Admitted state event)
  | .advance t fails => inferInstanceAs (Decidable (∀ object ∈ (state.threads t).file,
    fails = false ∧ state.resources.Grants ⟨t.process, object⟩))
  | .call _ _ _ | .exits _ => inferInstanceAs (Decidable True)

/-! ## One step -/

section Step

variable {state after : State} {t : Thread} {fails : Bool}

theorem ends_self (state : State) (t : Thread) (result : Result) :
    (state.ends t result).threads t = .outside (some result) :=
  goes_self state t _

/-- A call that ends has one result. -/
theorem ends_result {result other : Result}
    (outside : (state.ends t result).threads t = .outside (some other)) : result = other := by
  rw [ends_self] at outside
  exact Option.some.inj (Phase.outside.inj outside)

/-- A file that is granted is not held by another process. -/
theorem granted_free {object : Nat} (grants : state.resources.Grants ⟨t.process, object⟩) :
    ¬ state.Contended t := by
  intro contended
  obtain ⟨holder, holds, other⟩ := contended
  rw [grants holder holds] at other
  exact other rfl

/-- An owned mutex is not the free one. -/
theorem setMutex_ne {owner : Thread} (owned : state.resources.mutexes t.process = some owner) :
    state.resources ≠ state.resources.setMutex t.process none := by
  intro same
  have mutex := congrFun (congrArg Resources.mutexes same) t.process
  change _ = Function.update state.resources.mutexes t.process none t.process at mutex
  rw [owned, Function.update_self] at mutex
  cases mutex

/-- A step at the file is admitted if that is granted. -/
theorem admitted_iff {object : Nat} (at_file : (state.threads t).file = some object) :
    Admitted state (.advance t fails) ↔
      fails = false ∧ state.resources.Grants ⟨t.process, object⟩ := by
  show (∀ other ∈ (state.threads t).file, _) ↔ _
  rw [at_file]
  constructor
  · exact fun granted => granted object rfl
  · intro granted other same
    rw [← Option.some.inj same]
    exact granted

/-- Every other step is. -/
theorem admitted_elsewhere (elsewhere : (state.threads t).file = none) :
    Admitted state (.advance t fails) := by
  intro object at_file
  rw [elsewhere] at at_file
  cases at_file

/-- A step that fails at the file is not clean. -/
theorem not_clean (taking : state.Taking) {object : Nat} {message : String}
    (at_t : state.threads t = .lockingFile object ∨ state.threads t = .tryingFile object) :
    ¬ state.CleanStep t (state.ends t (.thrown message)) := by
  intro clean
  have unchanged := clean.unchanged _ (ends_self state t _) trivial
  have owns : state.resources.mutexes t.process = some t := by
    apply taking
    cases at_t with
    | inl at_t | inr at_t => rw [at_t]; trivial
  have before : state.before t = state.resources.setMutex t.process none := by
    unfold State.before
    cases at_t with
    | inl at_t | inr at_t => rw [at_t]
  rw [before] at unchanged
  exact setMutex_ne owns unchanged

/-- A step of an acquisition is clean exactly if it does not go for the file or is granted it. -/
theorem step_clean_iff (taking : state.Taking) (acquiring : (state.threads t).Acquiring)
    (advanced : state.advance t fails = some after) :
    state.CleanStep t after ↔ Admitted state (.advance t fails) := by
  have moved := advance_moved advanced
  generalize happens : Event.advance t fails = event at moved
  cases moved with
  | uninitialized outside | called outside | exits => cases happens
  | unlockedFile at_t | unlockFailed at_t | unlockedMutex at_t owns | notOwner at_t other =>
    cases happens
    rw [at_t] at acquiring
    cases acquiring
  | lockedMutex at_t free | triedMutex at_t free =>
    cases happens
    refine iff_of_true ?_ (admitted_elsewhere (by rw [at_t]; rfl))
    constructor
    · intro result outside
      rw [goes_self] at outside
      cases outside
    · intro object at_file
      rw [at_t] at at_file
      cases at_file
  | deadlock at_t owned | busy at_t owned =>
    cases happens
    refine iff_of_true ?_ (admitted_elsewhere (by rw [at_t]; rfl))
    constructor
    · intro result _ _
      show state.resources = state.before t
      unfold State.before
      rw [at_t]
    · intro object at_file
      rw [at_t] at at_file
      cases at_file
  | lockedFile at_t grants | triedFile at_t grants =>
    cases happens
    refine iff_of_true ?_ ((admitted_iff (by rw [at_t]; rfl)).mpr ⟨rfl, grants⟩)
    constructor
    · intro result outside fails
      rw [← ends_result outside] at fails
      cases fails
    · intro object _ contended
      exact absurd contended (granted_free grants)
  | lockFailed at_t =>
    cases happens
    apply iff_of_false (not_clean taking (Or.inl at_t))
    rw [admitted_iff (by rw [at_t]; rfl)]
    exact fun granted => absurd granted.1 (by decide)
  | tryFailed at_t refused =>
    cases happens
    apply iff_of_false (not_clean taking (Or.inr at_t))
    rw [admitted_iff (by rw [at_t]; rfl)]
    intro granted
    cases refused with
    | inl fails => exact absurd (granted.1.symm.trans fails) (by decide)
    | inr refuses => exact refuses granted.2

end Step

/-! ## A whole call -/

section Call

variable {state started after : State} {t : Thread} {object : Nat} {fails : Bool}

/-- The first step of an acquisition takes a free mutex, or ends the call. -/
theorem first_step (at_t : started.threads t = .lockingMutex object ∨
      started.threads t = .tryingMutex object) (advanced : started.advance t fails = some after) :
    (started.resources.mutexes t.process = none ∧
      after.resources = started.resources.setMutex t.process (some t) ∧
      (started.threads t = .lockingMutex object → after.threads t = .lockingFile object) ∧
      (started.threads t = .tryingMutex object → after.threads t = .tryingFile object)) ∨
    (started.resources.mutexes t.process ≠ none ∧ after.resources = started.resources ∧
      (started.threads t = .lockingMutex object → ∃ message,
        after.threads t = .outside (some (.thrown message))) ∧
      (started.threads t = .tryingMutex object →
        after.threads t = .outside (some (.acquired false)))) := by
  have moved := advance_moved advanced
  generalize happens : Event.advance t fails = event at moved
  cases moved with
  | uninitialized outside | called outside | exits => cases happens
  | lockedMutex at_mutex free =>
    cases happens
    rw [at_mutex] at at_t ⊢
    refine Or.inl ⟨free, rfl, fun same => ?_, fun same => absurd same (by simp)⟩
    rw [goes_self, Phase.lockingMutex.inj same]
  | triedMutex at_mutex free =>
    cases happens
    rw [at_mutex] at at_t ⊢
    refine Or.inl ⟨free, rfl, fun same => absurd same (by simp), fun same => ?_⟩
    rw [goes_self, Phase.tryingMutex.inj same]
  | deadlock at_mutex owned =>
    cases happens
    rw [at_mutex] at at_t ⊢
    refine Or.inr ⟨?_, rfl, fun _ => ⟨_, ends_self _ _ _⟩, fun same => absurd same (by simp)⟩
    rw [owned]
    exact Option.some_ne_none t
  | @busy _ _ _ owner at_mutex owned =>
    cases happens
    rw [at_mutex] at at_t ⊢
    refine Or.inr ⟨?_, rfl, fun same => absurd same (by simp), fun _ => ends_self _ _ _⟩
    rw [owned]
    exact Option.some_ne_none owner
  | lockedFile at_other grants | lockFailed at_other | triedFile at_other grants
  | tryFailed at_other refused | unlockedFile at_other | unlockFailed at_other
  | unlockedMutex at_other owns | notOwner at_other other =>
    cases happens
    rw [at_other] at at_t
    cases at_t with
    | inl at_t | inr at_t => cases at_t

/-- The second step of an acquisition ends the call, by a failure if the file is not granted. -/
theorem second_step (at_t : (started.threads t).file = some object)
    (advanced : started.advance t fails = some after) :
    (fails = false ∧ started.resources.Grants ⟨t.process, object⟩ ∧
      ∃ result, after.threads t = .outside (some result) ∧ ¬ result.Failed) ∨
    (¬ (fails = false ∧ started.resources.Grants ⟨t.process, object⟩) ∧
      after.resources = started.resources ∧
      ∃ message, after.threads t = .outside (some (.thrown message))) := by
  have moved := advance_moved advanced
  generalize happens : Event.advance t fails = event at moved
  cases moved with
  | uninitialized outside | called outside | exits => cases happens
  | lockedFile at_file grants | triedFile at_file grants =>
    cases happens
    rw [at_file] at at_t
    rw [Option.some.inj at_t] at grants
    exact Or.inl ⟨rfl, grants, _, ends_self _ _ _, id⟩
  | lockFailed at_file =>
    cases happens
    exact Or.inr ⟨fun granted => absurd granted.1 (by decide), rfl, _, ends_self _ _ _⟩
  | tryFailed at_file refused =>
    cases happens
    refine Or.inr ⟨fun granted => ?_, rfl, _, ends_self _ _ _⟩
    cases refused with
    | inl fails => exact absurd (granted.1.symm.trans fails) (by decide)
    | inr refuses =>
      rw [at_file] at at_t
      rw [Option.some.inj at_t] at refuses
      exact refuses granted.2
  | lockedMutex at_other free | triedMutex at_other free | deadlock at_other owned
  | busy at_other owned | unlockedFile at_other | unlockFailed at_other
  | unlockedMutex at_other owns | notOwner at_other other =>
    cases happens
    rw [at_other] at at_t
    cases at_t

/-- What a whole acquisition through an object comes to: it ends at the mutex of the process without
a change, it acquires the file, or it fails at the file and keeps the mutex. -/
theorem attempt_cases {call : Call} (acquires : call ≠ .unlock)
    (attempts : state.attempt t (some object) call fails = some after) :
    (state.resources.mutexes t.process ≠ none ∧ after.resources = state.resources ∧
      (call = .tryLock → after.threads t = .outside (some (.acquired false)))) ∨
    (state.resources.mutexes t.process = none ∧ fails = false ∧
      state.resources.Grants ⟨t.process, object⟩ ∧
      ∃ result, after.threads t = .outside (some result) ∧ ¬ result.Failed) ∨
    (state.resources.mutexes t.process = none ∧
      ¬ (fails = false ∧ state.resources.Grants ⟨t.process, object⟩) ∧
      after.resources = state.resources.setMutex t.process (some t) ∧
      ∃ message, after.threads t = .outside (some (.thrown message))) := by
  obtain ⟨started, starts, finishes⟩ := Option.bind_eq_some_iff.mp attempts
  obtain ⟨_, same⟩ := Option.ite_none_right_eq_some.mp starts
  have started_eq : state.goes t (call.start object) = started := Option.some.inj same
  have at_start : started.threads t = call.start object := by rw [← started_eq, goes_self]
  have resources : started.resources = state.resources := by rw [← started_eq]; rfl
  have going : ¬ started.Over t := by
    unfold State.Over
    rw [at_start]
    cases call with
    | lock | tryLock | unlock => exact id
  rw [System.stepUntil_next 1 going] at finishes
  obtain ⟨first, advanced, rest⟩ := Option.bind_eq_some_iff.mp finishes
  have at_mutex : started.threads t = .lockingMutex object ∨
      started.threads t = .tryingMutex object := by
    rw [at_start]
    cases call with
    | lock => exact Or.inl rfl
    | tryLock => exact Or.inr rfl
    | unlock => exact absurd rfl acquires
  rw [← resources]
  cases first_step at_mutex advanced with
  | inl taken =>
    obtain ⟨free, takes, locks, tries⟩ := taken
    have at_file : (first.threads t).file = some object ∧ ¬ first.Over t := by
      unfold State.Over
      cases at_mutex with
      | inl locking => rw [locks locking]; exact ⟨rfl, id⟩
      | inr trying => rw [tries trying]; exact ⟨rfl, id⟩
    rw [System.stepUntil_next 0 at_file.2] at rest
    obtain ⟨last, advanced, same⟩ := Option.bind_eq_some_iff.mp rest
    rw [← Option.some.inj same]
    have grants : first.resources.Grants ⟨t.process, object⟩ =
        started.resources.Grants ⟨t.process, object⟩ := by
      rw [takes]
      rfl
    cases second_step at_file.1 advanced with
    | inl granted =>
      rw [grants] at granted
      exact Or.inr (Or.inl ⟨free, granted⟩)
    | inr refused =>
      rw [grants, takes] at refused
      exact Or.inr (Or.inr ⟨free, refused⟩)
  | inr owned =>
    obtain ⟨owned, unchanged, locks, tries⟩ := owned
    have ended : first.Over t := by
      unfold State.Over
      cases at_mutex with
      | inl locking =>
        obtain ⟨message, outside⟩ := locks locking
        rw [outside]
        trivial
      | inr trying =>
        rw [tries trying]
        trivial
    rw [System.stepUntil_done 1 ended] at rest
    rw [← Option.some.inj rest]
    refine Or.inl ⟨owned, unchanged, fun tries_lock => tries ?_⟩
    rw [at_start, tries_lock]
    rfl

/-- A call on an object without `_impl` changes nothing. -/
theorem attempt_uninitialized {call : Call}
    (attempts : state.attempt t none call fails = some after) :
    after.resources = state.resources := by
  obtain ⟨started, starts, finishes⟩ := Option.bind_eq_some_iff.mp attempts
  obtain ⟨_, same⟩ := Option.ite_none_right_eq_some.mp starts
  rw [← Option.some.inj same] at finishes
  have ended : (state.ends t (.thrown "Not initialized.")).Over t := by
    unfold State.Over
    rw [ends_self]
    trivial
  rw [System.stepUntil_done 2 ended] at finishes
  rw [← Option.some.inj finishes]
  rfl

/-- A whole acquisition is clean exactly if the mutex of the process is not free or the file is
granted. -/
theorem attempt_clean_iff {impl : Option Nat} {call : Call} (acquires : call ≠ .unlock)
    (attempts : state.attempt t impl call fails = some after) :
    state.Clean t impl call after ↔ state.Admits t impl fails := by
  cases impl with
  | none =>
    have unchanged := attempt_uninitialized attempts
    apply iff_of_true
    · constructor
      · exact fun _ _ _ => unchanged
      · exact fun _ initialized => absurd rfl initialized
    · intro object some_object
      cases some_object
  | some object =>
    rcases attempt_cases acquires attempts with ⟨owned, unchanged, tries⟩ |
      ⟨free, succeeds, grants, result, outside, succeeded⟩ |
      ⟨free, refused, taken, message, outside⟩
    · apply iff_of_true
      · constructor
        · exact fun _ _ _ => unchanged
        · exact fun tries_lock _ _ => tries tries_lock
      · intro _ _ free
        exact absurd free owned
    · apply iff_of_true
      · constructor
        · intro other outside' failed
          rw [outside] at outside'
          rw [← Option.some.inj (Phase.outside.inj outside')] at failed
          exact absurd failed succeeded
        · intro _ _ contended
          exact absurd contended (granted_free grants)
      · intro _ same _
        rw [← Option.some.inj same]
        exact ⟨succeeds, grants⟩
    · apply iff_of_false
      · intro clean
        have unchanged := clean.unchanged _ outside trivial
        rw [taken] at unchanged
        have mutex := congrFun (congrArg Resources.mutexes unchanged) t.process
        change Function.update state.resources.mutexes t.process (some t) t.process = _ at mutex
        rw [Function.update_self, free] at mutex
        cases mutex
      · intro admits
        exact refused (admits object rfl free)

end Call

/-! ## Runs -/

/-- Between the two steps of a call, or gone with the process. -/
def Phase.Within : Phase → Prop
  | .lockingFile _ | .tryingFile _ | .unlockingMutex _ | .exited => True
  | _ => False

/-- The mutex of a process is owned by a thread of it which has acquired the mutex or is within a
call, so that no thread is locked out for good. -/
def State.Occupied (state : State) : Prop :=
  ∀ process owner, state.resources.mutexes process = some owner →
    owner.process = process ∧ (state.acquired owner ≠ none ∨ (state.threads owner).Within)

section Occupied

variable {state next : State} {t : Thread} {phase : Phase}

/-- Thread `t` goes on, and no other one comes to own a mutex. -/
theorem State.Occupied.goes (occupied : state.Occupied) (threads : next.threads = state.threads)
    (acquired : ∀ u, u ≠ t → next.acquired u = state.acquired u)
    (others : ∀ process u, u ≠ t → next.resources.mutexes process = some u →
      state.resources.mutexes process = some u)
    (own : ∀ process, next.resources.mutexes process = some t →
      t.process = process ∧ (next.acquired t ≠ none ∨ phase.Within)) :
    (next.goes t phase).Occupied := by
  intro process owner owns
  by_cases same : owner = t
  · rw [same] at owns ⊢
    rw [goes_self]
    exact own process owns
  · rw [goes_other _ _ same, threads]
    change owner.process = process ∧ (next.acquired owner ≠ none ∨ _)
    rw [acquired owner same]
    exact occupied process owner (others process owner same owns)

/-- Thread `t` goes on without owning a mutex that it did not own, from a phase that is not within a
call. -/
theorem State.Occupied.goes_outside (occupied : state.Occupied)
    (without : ¬ (state.threads t).Within) : (state.goes t phase).Occupied := by
  apply occupied.goes rfl (fun _ _ => rfl) (fun _ _ _ owns => owns)
  intro process owns
  obtain ⟨own, acquires⟩ := occupied process t owns
  exact ⟨own, Or.inl (acquires.resolve_right without)⟩

/-- Whose mutex changes hands. -/
theorem setMutex_owner {resources : Resources} {process other : Nat} {owner : Option Thread}
    {u : Thread} (owns : (resources.setMutex process owner).mutexes other = some u) :
    (other = process ∧ owner = some u) ∨ (other ≠ process ∧ resources.mutexes other = some u) := by
  change Function.update resources.mutexes process owner other = some u at owns
  by_cases same : other = process
  · rw [same, Function.update_self] at owns
    exact Or.inl ⟨same, owns⟩
  · rw [Function.update_of_ne same] at owns
    exact Or.inr ⟨same, owns⟩

/-- A thread takes the mutex of its process and goes for the file. -/
theorem State.Occupied.takes (occupied : state.Occupied) (within : phase.Within) :
    (({ state with resources := state.resources.setMutex t.process (some t) } : State).goes t
      phase).Occupied := by
  apply occupied.goes
  · rfl
  · exact fun _ _ => rfl
  · intro process u other owns
    cases setMutex_owner owns with
    | inl taken => exact absurd (Option.some.inj taken.2).symm other
    | inr kept => exact kept.2
  · intro process owns
    refine ⟨?_, Or.inr within⟩
    cases setMutex_owner owns with
    | inl taken => exact taken.1.symm
    | inr kept => exact (occupied process t kept.2).1

/-- A thread that owns the mutex of its process acquires the file. -/
theorem State.Occupied.acquires (occupied : state.Occupied) (object : Nat) (result : Result) :
    ((({ state with resources := { state.resources with
      fileLock := some ⟨t.process, object⟩ } } : State).setAcquired t (some object)).ends t
        result).Occupied := by
  apply occupied.goes
  · rfl
  · exact fun u other => Function.update_of_ne other _ _
  · exact fun _ _ _ owns => owns
  · intro process owns
    refine ⟨(occupied process t owns).1, Or.inl ?_⟩
    show Function.update state.acquired t (some object) t ≠ none
    rw [Function.update_self]
    exact Option.some_ne_none object

end Occupied

theorem Moved.occupied {state after : State} {event : Event} (occupied : state.Occupied)
    (admitted : Admitted state event) (moved : Moved state event after) : after.Occupied := by
  cases moved with
  | uninitialized outside | called outside =>
    apply occupied.goes_outside
    intro within
    generalize state.threads _ = phase at outside within
    cases phase with
    | outside last => exact within
    | _ => exact outside
  | deadlock at_t owned | busy at_t owned | unlockFailed at_t =>
    apply occupied.goes_outside
    rw [at_t]
    exact id
  | lockedMutex at_t free | triedMutex at_t free => exact occupied.takes trivial
  | lockedFile at_t grants | triedFile at_t grants => exact occupied.acquires _ _
  | lockFailed at_t =>
    have granted := (admitted_iff (by rw [at_t]; rfl)).mp admitted
    exact absurd granted.1 (by decide)
  | tryFailed at_t refused =>
    have granted := (admitted_iff (by rw [at_t]; rfl)).mp admitted
    cases refused with
    | inl fails => exact absurd (granted.1.symm.trans fails) (by decide)
    | inr refuses => exact absurd granted.2 refuses
  | unlockedFile at_t =>
    apply occupied.goes
    · rfl
    · exact fun u other => Function.update_of_ne other _ _
    · exact fun _ _ _ owns => owns
    · exact fun process owns => ⟨(occupied process _ owns).1, Or.inr trivial⟩
  | @unlockedMutex t fails object at_t owns =>
    apply occupied.goes
    · rfl
    · exact fun _ _ => rfl
    · intro process u _ owns'
      cases setMutex_owner owns' with
      | inl given => cases given.2
      | inr kept => exact kept.2
    · intro process owns'
      cases setMutex_owner owns' with
      | inl given => cases given.2
      | inr kept => exact absurd (occupied process t kept.2).1.symm kept.1
  | @notOwner t fails object at_t other =>
    apply occupied.goes rfl (fun _ _ => rfl) (fun _ _ _ owns => owns)
    intro process owns
    have own := (occupied process t owns).1
    rw [← own] at owns
    exact absurd owns other
  | @exits process =>
    intro other owner owns
    obtain ⟨own, occupies⟩ := occupied other owner owns
    refine ⟨own, ?_⟩
    show (if owner.process = process then none else state.acquired owner) ≠ none ∨
      (if owner.process = process then Phase.exited else state.threads owner).Within
    by_cases inside : owner.process = process
    · rw [if_pos inside, if_pos inside]
      exact Or.inr trivial
    · rw [if_neg inside, if_neg inside]
      exact occupies

/-- From every reachable state an acquisition, alone or interleaved with the steps of other threads,
is clean exactly if it does not get to the file or is granted it, and while all are, no thread
keeps the mutex of its process without having acquired the mutex. -/
theorem failed_acquisition_clean_iff {state : State} (reached : robustMutex.Reachable state) :
    (∀ t impl call fails after, call ≠ .unlock → state.attempt t impl call fails = some after →
      (state.Clean t impl call after ↔ state.Admits t impl fails)) ∧
    (∀ t fails after, (state.threads t).Acquiring → state.advance t fails = some after →
      (state.CleanStep t after ↔ Admitted state (.advance t fails))) ∧
    ((robustMutex.under Admitted).Reachable state → state.Occupied) := by
  refine ⟨?_, ?_, ?_⟩
  · intro t impl call fails after acquires attempts
    exact attempt_clean_iff acquires attempts
  · intro t fails after acquiring advanced
    exact step_clean_iff (reachable_taking reached) acquiring advanced
  · intro admitted
    apply admitted.invariant
    · intro state starts process owner owns
      rw [starts.1 process] at owns
      cases owns
    · intro state event after _ occupied stepped
      obtain ⟨admitted, stepped⟩ := System.under_step.mp stepped
      exact (step_moved stepped).occupied occupied admitted

/-- Another process has the mutex. -/
def heldRun : List Event :=
  calls ⟨1, 1⟩ .lock

theorem heldRun_replays : (robustMutex.replay start heldRun).isSome = true := by
  decide +kernel

def held : State := (robustMutex.replay start heldRun).get heldRun_replays

theorem held_reachable : robustMutex.Reachable held :=
  System.Reachable.of_replay start_initial heldRun_replays

theorem refused_attempts : (held.attempt ⟨2, 1⟩ (some 0) .tryLock false).isSome = true := by
  decide +kernel

/-- The state after a `try_lock` in another process. -/
def refused : State := (held.attempt ⟨2, 1⟩ (some 0) .tryLock false).get refused_attempts

theorem busy_attempts : (held.attempt ⟨1, 2⟩ (some 0) .tryLock false).isSome = true := by
  decide +kernel

theorem failed_acquisition_clean_iff_busy :
    held.Clean ⟨1, 2⟩ (some 0) .tryLock
      ((held.attempt ⟨1, 2⟩ (some 0) .tryLock false).get busy_attempts) := by
  have clean_iff := (failed_acquisition_clean_iff held_reachable).1 ⟨1, 2⟩ (some 0) .tryLock false _
    (by decide) (Option.some_get busy_attempts).symm
  apply clean_iff.mpr
  intro _ _ free
  exact absurd free (by decide +kernel)

/-- The contended `try_lock` throws and keeps the mutex of its process. -/
theorem refused_unclean :
    robustMutex.Reachable held ∧ held.Contended ⟨2, 1⟩ ∧
      refused.threads ⟨2, 1⟩ = .outside (some (.thrown "flock failed with error -1")) ∧
      refused.resources.mutexes 2 = some ⟨2, 1⟩ ∧ held.resources.mutexes 2 = none ∧
      ¬ held.Clean ⟨2, 1⟩ (some 0) .tryLock refused := by
  have throws : refused.threads ⟨2, 1⟩ =
      .outside (some (.thrown "flock failed with error -1")) := by decide +kernel
  have contended : held.Contended ⟨2, 1⟩ := ⟨⟨1, 0⟩, by decide +kernel, by decide⟩
  refine ⟨held_reachable, contended, throws, by decide +kernel, by decide +kernel, ?_⟩
  intro clean
  have falls := clean.contended rfl (Option.some_ne_none 0) contended
  rw [throws] at falls
  cases falls

end Azul.Ipc.Darwin.RobustMutex
