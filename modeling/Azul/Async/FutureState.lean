import Mathlib.Data.List.Induction

/-!
# The shared state of a future

`detail::FutureState<T>` and its specialization for `void`, one definition for each critical
section. The two classes are textual duplicates except in `SetValue`, where the generic one throws
`FutureAlreadySet` and the specialization returns silently, so the shared methods are defined once
over the value type. What a future is for is a write-once cell: its outcome, once present, is final.
`SetValue` and `AboutToDestroyPromise` refine that cell; `SetException` does not look at the state
it overwrites, and `decided_once_iff` says exactly which call sequences survive that.
-/

namespace Azul.Async

/-- `FutureErrorCode`: why a future operation throws `FutureError`. -/
inductive FutureErrorCode
  | brokenPromise
  | futureAlreadySet
  deriving DecidableEq, Repr

/-- What a `std::exception_ptr` of the library may refer to. -/
inductive ExceptionPtr (ε : Type)
  /-- The value-initialised pointer. -/
  | null
  /-- An exception that user code threw. -/
  | user (error : ε)
  /-- A `FutureError`. -/
  | futureError (code : FutureErrorCode)
  deriving DecidableEq, Repr

/-- `FutureState<T>::State`. -/
inductive State
  | undefined
  | ready
  | exception
  | brokenPromise
  deriving DecidableEq, Repr

/-- What a decided future reports to `Get`. -/
inductive Outcome (α ε : Type)
  | value (value : α)
  | exception (error : ExceptionPtr ε)
  | brokenPromise
  deriving DecidableEq, Repr

/-- The data members behind `_mutex`: the state tag, the two result members it selects from, and
the registered continuations. -/
structure FutureState (α ε κ : Type) where
  /-- `_state`. -/
  state : State
  /-- `_value`; the specialization for `void` has no such member and uses the unit type. -/
  value : α
  /-- `_exception`. -/
  exception : ExceptionPtr ε
  /-- `_continuations`, in registration order. -/
  continuations : List κ

namespace FutureState

variable {α ε κ : Type}

/-- A freshly constructed state; `T _value{ }` is value-initialised. -/
def new [Inhabited α] : FutureState α ε κ :=
  { state := .undefined, value := default, exception := .null, continuations := [] }

/-- The abstract content of a state: what it was decided to be, if it was. -/
def outcome (s : FutureState α ε κ) : Option (Outcome α ε) :=
  match s.state with
  | .undefined => none
  | .ready => some (.value s.value)
  | .exception => some (.exception s.exception)
  | .brokenPromise => some .brokenPromise

/-- `IsReady`. -/
def isReady (s : FutureState α ε κ) : Bool := s.state != .undefined

/-- `Get`: a value, a thrown exception, or `none` when it waits on the condition. -/
def get (s : FutureState α ε κ) : Option (Except (ExceptionPtr ε) α) :=
  match s.state with
  | .exception => some (.error s.exception)
  | .brokenPromise => some (.error (.futureError .brokenPromise))
  | .ready => some (.ok s.value)
  | .undefined => none

/-- `FutureState<T>::SetValue` up to the end of its critical section. -/
def setValue (s : FutureState α ε κ) (value : α) : Except (ExceptionPtr ε) (FutureState α ε κ) :=
  if s.state ≠ .undefined then .error (.futureError .futureAlreadySet)
  else .ok { s with value := value, state := .ready }

/-- `FutureState<void>::SetValue` up to the end of its critical section: `none` when it returns
early. The specialization stores no value; `unit` is the only value there is. -/
def setValueVoid (s : FutureState α ε κ) (unit : α) : Option (FutureState α ε κ) :=
  if s.state ≠ .undefined then none else some { s with value := unit, state := .ready }

/-- `SetException` up to the end of its critical section, in both classes. -/
def setException (s : FutureState α ε κ) (error : ExceptionPtr ε) : FutureState α ε κ :=
  { s with exception := error, state := .exception }

/-- The critical section of `Then`: the continuation is stored, or `none` when the caller has to
run it itself. -/
def «then» (s : FutureState α ε κ) (continuation : κ) : Option (FutureState α ε κ) :=
  if s.state = .undefined then
    some { s with continuations := s.continuations ++ [continuation] }
  else none

/-- `NumberOfContinuations`. -/
def numberOfContinuations (s : FutureState α ε κ) : Nat := s.continuations.length

/-- The critical section of `AboutToDestroyPromise`. -/
def breakPromise (s : FutureState α ε κ) : FutureState α ε κ :=
  if s.state = .undefined then { s with state := .brokenPromise } else s

/-- `AboutToDestroyPromise`: the critical section, then `_continuations.clear()`. -/
def aboutToDestroyPromise (s : FutureState α ε κ) : FutureState α ε κ :=
  { s.breakPromise with continuations := [] }

/-- The cell after a completing call: `SetValue` or `SetException` has stored its argument. -/
def complete (s : FutureState α ε κ) : Except (ExceptionPtr ε) α → FutureState α ε κ
  | .ok value => { s with value := value, state := .ready }
  | .error error => s.setException error

/-- The cell after `Then` has stored a continuation. -/
def append (s : FutureState α ε κ) (continuation : κ) : FutureState α ε κ :=
  { s with continuations := s.continuations ++ [continuation] }

/-- A state is undecided exactly when its tag is `Undefined`. -/
theorem outcome_eq_none {s : FutureState α ε κ} : s.outcome = none ↔ s.state = .undefined := by
  unfold outcome
  cases s.state <;> simp

/-- `Get` waits exactly while the state is undefined. -/
theorem get_eq_none {s : FutureState α ε κ} : s.get = none ↔ s.state = .undefined := by
  cases state : s.state <;> simp [get, state]

/-- `IsReady` asks whether there is an outcome. -/
theorem isReady_iff {s : FutureState α ε κ} : s.isReady = true ↔ s.outcome ≠ none := by
  simp [isReady, outcome_eq_none]

/-- `Get` reads the outcome and nothing else. -/
theorem get_eq (s : FutureState α ε κ) :
    s.get = s.outcome.map fun
      | .value value => .ok value
      | .exception error => .error error
      | .brokenPromise => .error (.futureError .brokenPromise) := by
  unfold get outcome
  cases s.state <;> rfl

/-- `FutureState<T>::SetValue` writes the cell once; when it throws, the cell stays. -/
theorem outcome_setValue (s : FutureState α ε κ) (value : α) :
    ((s.setValue value).toOption.getD s).outcome = s.outcome.or (some (.value value)) := by
  unfold setValue outcome
  cases h : s.state <;> simp [Except.toOption, h]

/-- `FutureState<void>::SetValue` writes the cell once; when it returns early, the cell stays. -/
theorem outcome_setValueVoid (s : FutureState α ε κ) (unit : α) :
    ((s.setValueVoid unit).getD s).outcome = s.outcome.or (some (.value unit)) := by
  unfold setValueVoid outcome
  cases h : s.state <;> simp [h]

/-- `SetException` decides the cell whatever it holds. -/
@[simp]
theorem outcome_setException (s : FutureState α ε κ) (error : ExceptionPtr ε) :
    (s.setException error).outcome = some (.exception error) := rfl

/-- `AboutToDestroyPromise` breaks an undecided cell and leaves a decided one. -/
@[simp]
theorem outcome_breakPromise (s : FutureState α ε κ) :
    s.breakPromise.outcome = s.outcome.or (some .brokenPromise) := by
  unfold breakPromise outcome
  cases h : s.state <;> simp [h]

/-- `AboutToDestroyPromise` breaks an undecided cell and leaves a decided one. -/
theorem outcome_aboutToDestroyPromise (s : FutureState α ε κ) :
    s.aboutToDestroyPromise.outcome = s.outcome.or (some .brokenPromise) :=
  outcome_breakPromise s

end FutureState

/-! ## Call histories -/

/-- The two classes: `FutureState<T>` and `FutureState<void>`. -/
inductive Specialization
  | generic
  | void
  deriving DecidableEq, Repr

/-- A call on one shared state. A continuation that a completing call runs reaches the state only
through calls of its own, which stand in the history where they take effect. -/
inductive Call (α ε κ : Type)
  | setValue (value : α)
  | setException (error : ExceptionPtr ε)
  | aboutToDestroyPromise
  | then (continuation : κ)
  | get
  | wait
  | isReady

/-- The outcome a call hands to the state, for the three completing calls. -/
def Call.decides {α ε κ : Type} : Call α ε κ → Option (Outcome α ε)
  | .setValue value => some (.value value)
  | .setException error => some (.exception error)
  | .aboutToDestroyPromise => some .brokenPromise
  | _ => none

namespace FutureState

variable {α ε κ : Type}

/-- The shared state after one call; a call that throws, waits or only reads leaves it as it is. -/
def call (kind : Specialization) (s : FutureState α ε κ) : Call α ε κ → FutureState α ε κ
  | .setValue value =>
    match kind with
    | .generic => (s.setValue value).toOption.getD s
    | .void => (s.setValueVoid value).getD s
  | .setException error => s.setException error
  | .aboutToDestroyPromise => s.aboutToDestroyPromise
  | .then continuation => (s.then continuation).getD s
  | .get | .wait | .isReady => s

/-- Every call but `SetException` writes the outcome at most once, in both classes. -/
theorem outcome_call (kind : Specialization) (s : FutureState α ε κ) (c : Call α ε κ)
    (guarded : ∀ error, c ≠ .setException error) :
    (s.call kind c).outcome = s.outcome.or c.decides := by
  cases c with
  | setValue value =>
    cases kind with
    | generic => exact outcome_setValue s value
    | void => exact outcome_setValueVoid s value
  | setException error => exact absurd rfl (guarded error)
  | aboutToDestroyPromise => exact outcome_aboutToDestroyPromise s
  | «then» continuation =>
    simp only [call, «then», Call.decides, Option.or_none]
    split <;> rfl
  | get => simp [call, Call.decides]
  | wait => simp [call, Call.decides]
  | isReady => simp [call, Call.decides]

/-- A decided outcome survives a call that overwrites nothing. -/
theorem outcome_call_of_decided {kind : Specialization} {s : FutureState α ε κ}
    {c : Call α ε κ} {o : Outcome α ε} (decided : s.outcome = some o)
    (harmless : ∀ error, c = .setException error → o = .exception error) :
    (s.call kind c).outcome = some o := by
  by_cases throws : ∃ error, c = .setException error
  · obtain ⟨error, rfl⟩ := throws
    rw [harmless error rfl]
    rfl
  · rw [outcome_call kind s c (fun error same => throws ⟨error, same⟩), decided, Option.some_or]

variable [Inhabited α]

/-- The shared state after a history of calls on a new one. -/
def history (kind : Specialization) (calls : List (Call α ε κ)) : FutureState α ε κ :=
  calls.foldl (call kind) new

/-- Appending a call to a history makes that call on the state the history left. -/
theorem history_concat (kind : Specialization) (calls : List (Call α ε κ)) (c : Call α ε κ) :
    history kind (calls ++ [c]) = (history kind calls).call kind c := by
  simp [history]

/-- The outcome is decided once: from any point at which it is decided, no later call of the
history changes it, so all later `Get` calls report the same. -/
def DecidedOnce (kind : Specialization) (calls : List (Call α ε κ)) : Prop :=
  ∀ before between after, calls = before ++ between ++ after →
    (history kind before).outcome ≠ none →
      (history kind (before ++ between)).outcome = (history kind before).outcome ∧
      (history kind (before ++ between)).get = (history kind before).get

/-- Every `SetException` of the history finds the state undecided or holding that exception. -/
def NoOverwrite (kind : Specialization) (calls : List (Call α ε κ)) : Prop :=
  ∀ before error after, calls = before ++ .setException error :: after →
    (history kind before).outcome = none ∨
    (history kind before).outcome = some (.exception error)

/-- The outcome is decided once exactly in the histories in which no `SetException` reaches a
state that is already decided otherwise. -/
theorem decided_once_iff (kind : Specialization) (calls : List (Call α ε κ)) :
    DecidedOnce kind calls ↔ NoOverwrite kind calls := by
  constructor
  · intro once before error after split
    by_cases undecided : (history kind before).outcome = none
    · exact Or.inl undecided
    · have same := (once before [.setException error] after (by simp [split]) undecided).1
      rw [history_concat] at same
      exact Or.inr same.symm
  · intro guarded before between after split decided
    obtain ⟨o, was⟩ := Option.ne_none_iff_exists'.mp decided
    suffices kept : (history kind (before ++ between)).outcome = some o by
      exact ⟨kept.trans was.symm, by rw [get_eq, get_eq, kept, was]⟩
    clear decided
    induction between using List.reverseRecOn generalizing after with
    | nil => simpa using was
    | append_singleton between c ih =>
      have earlier := ih (c :: after) (by simp [split])
      rw [← List.append_assoc, history_concat]
      refine outcome_call_of_decided earlier fun error same => ?_
      subst same
      rcases guarded (before ++ between) error after (by simp [split]) with none | held
      · simp [earlier] at none
      · exact Option.some.inj (earlier.symm.trans held)

/-- In either class, a value that was set is lost when `SetException` follows. -/
theorem value_overwritten :
    ¬ DecidedOnce .generic
      ([.setValue 1, .setException (.user "error")] : List (Call Nat String Unit)) ∧
    ¬ DecidedOnce .void
      ([.setValue (), .setException (.user "error")] : List (Call Unit String Unit)) := by
  constructor
  · intro once
    have same := (once [.setValue 1] [.setException (.user "error")] [] rfl (by decide)).1
    exact absurd same (by decide)
  · intro once
    have same := (once [.setValue ()] [.setException (.user "error")] [] rfl (by decide)).1
    exact absurd same (by decide)

end FutureState

end Azul.Async
