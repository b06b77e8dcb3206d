import Azul.Async.Runtime

/-!
# Promise objects

`Promise<T>` as objects that a program constructs, moves and destroys. An object is a
`std::shared_ptr` to a shared state, and only the destructor tells the state that its promise is
gone. The move operations are defaulted: they hand the pointer over, and move assignment lets go of
the state that its target pointed to without telling it. No future is abandoned undecided exactly
in the histories in which every target of a move assignment is empty, decided, or its own source.
-/

namespace Azul.Async

open Foundation

/-- The address of a `Promise` object. -/
abbrev PromiseId := Nat

/-- The shared states, and the objects at their addresses. -/
structure Promises (α ε κ : Type) where
  /-- The number of states made so far. -/
  next : StateId
  /-- The shared states. -/
  cell : StateId → FutureState α ε κ
  /-- `_state` of the object at an address, if there is one. -/
  objects : PromiseId → Option (Option StateId)
  /-- History: `SetValue` or `SetException` was called on the state. -/
  completed : StateId → Bool

/-- A member of `Promise`. -/
inductive PromiseCall (α ε : Type)
  | construct (promise : PromiseId)
  | moveConstruct (promise other : PromiseId)
  | moveAssign (promise other : PromiseId)
  | getFuture (promise : PromiseId)
  | setValue (promise : PromiseId) (value : α)
  | setException (promise : PromiseId) (error : ExceptionPtr ε)
  | destroy (promise : PromiseId)

namespace Promises

variable {α ε κ : Type}

/-- No objects and no states. -/
def empty [Inhabited α] : Promises α ε κ where
  next := 0
  cell _ := FutureState.new
  objects _ := none
  completed _ := false

variable (kind : Specialization) (promises : Promises α ε κ)

/-- Construct, overwrite or destroy the object at an address. -/
def put (promise : PromiseId) (object : Option (Option StateId)) : Promises α ε κ :=
  { promises with objects := Function.update promises.objects promise object }

/-- A call on a shared state. -/
def call (s : StateId) (call : Call α ε κ) : Promises α ε κ :=
  { promises with cell := Function.update promises.cell s ((promises.cell s).call kind call) }

/-- `SetValue` and `SetException` on the state of an object, which throw on an empty one. -/
def complete (state : Option StateId) (call : Call α ε κ) : Promises α ε κ :=
  match state with
  | none => promises
  | some s =>
    { promises.call kind s call with completed := Function.update promises.completed s true }

/-- The body of the destructor. -/
def release (state : Option StateId) : Promises α ε κ :=
  match state with
  | none => promises
  | some s => promises.call kind s .aboutToDestroyPromise

/-- A `std::shared_ptr` is moved: its source is left empty first, so that moving it to itself does
nothing. -/
def move (promise other : PromiseId) (state : Option StateId) : Promises α ε κ :=
  (promises.put other (some none)).put promise (some state)

/-- One call; `none` where the language has no such call. -/
def step [Inhabited α] : PromiseCall α ε → Option (Promises α ε κ)
  | .construct promise =>
    match promises.objects promise with
    | some _ => none
    | none =>
      some { promises with
        next := promises.next + 1
        cell := Function.update promises.cell promises.next FutureState.new
        objects := Function.update promises.objects promise (some (some promises.next)) }
  | .moveConstruct promise other =>
    match promises.objects promise with
    | some _ => none
    | none => (promises.objects other).map (promises.move promise other)
  | .moveAssign promise other =>
    match promises.objects promise with
    | some _ => (promises.objects other).map (promises.move promise other)
    | none => none
  | .getFuture promise => (promises.objects promise).map fun _ => promises
  | .setValue promise value =>
    (promises.objects promise).map fun state => promises.complete kind state (.setValue value)
  | .setException promise error =>
    (promises.objects promise).map fun state => promises.complete kind state (.setException error)
  | .destroy promise =>
    (promises.objects promise).map fun state => (promises.release kind state).put promise none

/-- Some object refers to a state. -/
def Owned (s : StateId) : Prop := ∃ promise, promises.objects promise = some (some s)

/-- Every state without an object is decided, and broken if nobody completed it. -/
def NoneAbandoned : Prop :=
  ∀ s < promises.next, ¬ promises.Owned s →
    (promises.cell s).outcome ≠ none ∧
      (promises.completed s = false → (promises.cell s).outcome = some .brokenPromise)

/-- A move assignment lets go of no undecided state. -/
def Spared : PromiseCall α ε → Prop
  | .moveAssign promise other =>
    promise = other ∨ ∀ s, promises.objects promise = some (some s) →
      (promises.cell s).outcome ≠ none
  | _ => True

end Promises

/-- The promises of a program. -/
def promiseObjects (α ε κ : Type) [Inhabited α] (kind : Specialization) :
    System (Promises α ε κ) (PromiseCall α ε) where
  initial promises := promises = .empty
  step promises call := promises.step kind call

/-! ## Objects and states -/

namespace Promises

variable {α ε κ : Type} {kind : Specialization} {promises after : Promises α ε κ}
  {call : PromiseCall α ε}

/-- No two objects share a state, an object refers to a state that was made, and what nobody
completed is undecided or broken. -/
structure Ok (promises : Promises α ε κ) : Prop where
  valid : ∀ promise s, promises.objects promise = some (some s) → s < promises.next
  unique : ∀ promise other s, promises.objects promise = some (some s) →
    promises.objects other = some (some s) → promise = other
  fresh : ∀ s, promises.next ≤ s → promises.completed s = false
  decided : ∀ s, promises.completed s = true → (promises.cell s).outcome ≠ none
  unbroken : ∀ s, promises.completed s = false →
    (promises.cell s).outcome = none ∨ (promises.cell s).outcome = some .brokenPromise

theorem put_self (promises : Promises α ε κ) (promise : PromiseId)
    (object : Option (Option StateId)) :
    (promises.put promise object).objects promise = object := by
  show Function.update promises.objects promise object promise = object
  rw [Function.update_self]

theorem put_other {promise other : PromiseId} (promises : Promises α ε κ)
    (object : Option (Option StateId)) (apart : other ≠ promise) :
    (promises.put promise object).objects other = promises.objects other := by
  show Function.update promises.objects promise object other = promises.objects other
  rw [Function.update_of_ne apart]

/-- After a move the target refers to what the source referred to, and the source to nothing. -/
theorem move_refers {promise other holder : PromiseId} {state : Option StateId} {s : StateId}
    (refers : (promises.move promise other state).objects holder = some (some s)) :
    holder = promise ∧ state = some s ∨
      holder ≠ promise ∧ holder ≠ other ∧ promises.objects holder = some (some s) := by
  unfold move at refers
  by_cases target : holder = promise
  · rw [target, put_self] at refers
    exact Or.inl ⟨target, Option.some.inj refers⟩
  · rw [put_other _ _ target] at refers
    by_cases source : holder = other
    · rw [source, put_self] at refers
      cases Option.some.inj refers
    · rw [put_other _ _ source] at refers
      exact Or.inr ⟨target, source, refers⟩

/-- What an object other than the target referred to is still referred to after a move. -/
theorem owned_move {promise other holder : PromiseId} {state : Option StateId} {s : StateId}
    (source : promises.objects other = some state)
    (refers : promises.objects holder = some (some s)) (apart : holder ≠ promise) :
    (promises.move promise other state).Owned s := by
  by_cases same : holder = other
  · rw [same, source] at refers
    refine ⟨promise, ?_⟩
    unfold move
    rw [put_self, ← refers]
  · refine ⟨holder, ?_⟩
    unfold move
    rw [put_other _ _ apart, put_other _ _ same]
    exact refers

theorem call_self (promises : Promises α ε κ) (s : StateId) (c : Call α ε κ) :
    (promises.call kind s c).cell s = (promises.cell s).call kind c := by
  show Function.update promises.cell s ((promises.cell s).call kind c) s = _
  rw [Function.update_self]

theorem call_other {s t : StateId} (promises : Promises α ε κ) (c : Call α ε κ) (apart : t ≠ s) :
    (promises.call kind s c).cell t = promises.cell t := by
  show Function.update promises.cell s ((promises.cell s).call kind c) t = _
  rw [Function.update_of_ne apart]

/-- A call that hands an outcome to a state leaves it decided. -/
theorem decided_call {cell : FutureState α ε κ} {c : Call α ε κ} (decides : c.decides ≠ none) :
    (cell.call kind c).outcome ≠ none := by
  by_cases throws : ∃ error, c = .setException error
  · obtain ⟨error, same⟩ := throws
    rw [same]
    nofun
  · rw [FutureState.outcome_call kind cell c fun error same => throws ⟨error, same⟩]
    intro none
    exact decides (Option.or_eq_none_iff.mp none).2

/-- `SetValue` and `SetException` keep objects and states in order. -/
theorem Ok.complete (ok : promises.Ok) {promise : PromiseId} {state : Option StateId}
    (object : promises.objects promise = some state) {c : Call α ε κ}
    (decides : c.decides ≠ none) : (promises.complete kind state c).Ok := by
  cases state with
  | none => exact ok
  | some s =>
    have other {t : StateId} (apart : t ≠ s) :
        (promises.complete kind (some s) c).cell t = promises.cell t := call_other _ _ apart
    constructor
    · exact ok.valid
    · exact ok.unique
    · intro t later
      have apart : t ≠ s := by
        intro same
        rw [same] at later
        exact Nat.not_le_of_lt (ok.valid promise s object) later
      show Function.update promises.completed s true t = false
      rw [Function.update_of_ne apart]
      exact ok.fresh t later
    · intro t completed
      by_cases same : t = s
      · rw [same]
        show ((promises.call kind s c).cell s).outcome ≠ none
        rw [call_self]
        exact decided_call decides
      · change Function.update promises.completed s true t = true at completed
        rw [Function.update_of_ne same] at completed
        rw [other same]
        exact ok.decided t completed
    · intro t incomplete
      change Function.update promises.completed s true t = false at incomplete
      by_cases same : t = s
      · rw [same, Function.update_self] at incomplete
        cases incomplete
      · rw [Function.update_of_ne same] at incomplete
        rw [other same]
        exact ok.unbroken t incomplete

/-- The destructor breaks what nobody completed. -/
theorem release_outcome (promises : Promises α ε κ) (s : StateId) :
    ((promises.release kind (some s)).cell s).outcome =
      (promises.cell s).outcome.or (some .brokenPromise) := by
  show ((promises.call kind s .aboutToDestroyPromise).cell s).outcome = _
  rw [call_self]
  exact FutureState.outcome_aboutToDestroyPromise _

/-- The body of the destructor keeps objects and states in order. -/
theorem Ok.release (ok : promises.Ok) (state : Option StateId) :
    (promises.release kind state).Ok := by
  cases state with
  | none => exact ok
  | some s =>
    have other {t : StateId} (apart : t ≠ s) :
        (promises.release kind (some s)).cell t = promises.cell t := call_other _ _ apart
    constructor
    · exact ok.valid
    · exact ok.unique
    · exact ok.fresh
    · intro t completed
      have decided := ok.decided t completed
      by_cases same : t = s
      · rw [same, release_outcome]
        rw [same] at decided
        exact fun none => decided (Option.or_eq_none_iff.mp none).1
      · rw [other same]
        exact decided
    · intro t incomplete
      have unbroken := ok.unbroken t incomplete
      by_cases same : t = s
      · rw [same] at unbroken
        rw [same, release_outcome]
        cases unbroken with
        | inl none =>
          rw [none]
          exact Or.inr rfl
        | inr broken =>
          rw [broken]
          exact Or.inr rfl
      · rw [other same]
        exact unbroken

/-- A move keeps objects and states in order. -/
theorem Ok.move (ok : promises.Ok) {promise other : PromiseId} {state : Option StateId}
    (source : promises.objects other = some state) :
    (promises.move promise other state).Ok := by
  constructor
  · intro holder s refers
    cases move_refers refers with
    | inl target =>
      rw [target.2] at source
      exact ok.valid other s source
    | inr kept => exact ok.valid holder s kept.2.2
  · intro first second s refersFirst refersSecond
    have clash {holder : PromiseId} (given : state = some s)
        (kept : holder ≠ promise ∧ holder ≠ other ∧ promises.objects holder = some (some s)) :
        False := by
      rw [given] at source
      exact kept.2.1 (ok.unique holder other s kept.2.2 source)
    cases move_refers refersFirst with
    | inl target =>
      cases move_refers refersSecond with
      | inl same => rw [target.1, same.1]
      | inr kept => exact (clash target.2 kept).elim
    | inr kept =>
      cases move_refers refersSecond with
      | inl target => exact (clash target.2 kept).elim
      | inr same => exact ok.unique first second s kept.2.2 same.2.2
  · exact ok.fresh
  · exact ok.decided
  · exact ok.unbroken

/-! ## Steps -/

variable [Inhabited α]

/-- Everything a call can do. -/
inductive Stepped (kind : Specialization) (promises : Promises α ε κ) :
    PromiseCall α ε → Promises α ε κ → Prop
  | constructs {promise} (vacant : promises.objects promise = none) :
    Stepped kind promises (.construct promise) { promises with
      next := promises.next + 1
      cell := Function.update promises.cell promises.next FutureState.new
      objects := Function.update promises.objects promise (some (some promises.next)) }
  | moveConstructs {promise other state} (vacant : promises.objects promise = none)
      (source : promises.objects other = some state) :
    Stepped kind promises (.moveConstruct promise other) (promises.move promise other state)
  | moveAssigns {promise other old state} (target : promises.objects promise = some old)
      (source : promises.objects other = some state) :
    Stepped kind promises (.moveAssign promise other) (promises.move promise other state)
  | reads {promise state} (object : promises.objects promise = some state) :
    Stepped kind promises (.getFuture promise) promises
  | setsValue {promise state value} (object : promises.objects promise = some state) :
    Stepped kind promises (.setValue promise value)
      (promises.complete kind state (.setValue value))
  | setsException {promise state error} (object : promises.objects promise = some state) :
    Stepped kind promises (.setException promise error)
      (promises.complete kind state (.setException error))
  | destroys {promise state} (object : promises.objects promise = some state) :
    Stepped kind promises (.destroy promise) ((promises.release kind state).put promise none)

theorem step_stepped (stepped : promises.step kind call = some after) :
    Stepped kind promises call after := by
  have mapped {promise : PromiseId} {f : Option StateId → Promises α ε κ}
      (same : (promises.objects promise).map f = some after) :
      ∃ state, promises.objects promise = some state ∧ f state = after :=
    Option.map_eq_some_iff.mp same
  cases call with
  | construct promise =>
    cases at_promise : promises.objects promise with
    | some state => simp only [step, at_promise, reduceCtorEq] at stepped
    | none =>
      simp only [step, at_promise, Option.some.injEq] at stepped
      rw [← stepped]
      exact .constructs at_promise
  | moveConstruct promise other =>
    cases at_promise : promises.objects promise with
    | some state => simp only [step, at_promise, reduceCtorEq] at stepped
    | none =>
      simp only [step, at_promise] at stepped
      obtain ⟨state, source, same⟩ := mapped stepped
      rw [← same]
      exact .moveConstructs at_promise source
  | moveAssign promise other =>
    cases at_promise : promises.objects promise with
    | none => simp only [step, at_promise, reduceCtorEq] at stepped
    | some old =>
      simp only [step, at_promise] at stepped
      obtain ⟨state, source, same⟩ := mapped stepped
      rw [← same]
      exact .moveAssigns at_promise source
  | getFuture promise =>
    obtain ⟨state, object, same⟩ := mapped stepped
    rw [← same]
    exact .reads object
  | setValue promise value =>
    obtain ⟨state, object, same⟩ := mapped stepped
    rw [← same]
    exact .setsValue object
  | setException promise error =>
    obtain ⟨state, object, same⟩ := mapped stepped
    rw [← same]
    exact .setsException object
  | destroy promise =>
    obtain ⟨state, object, same⟩ := mapped stepped
    rw [← same]
    exact .destroys object

/-! ## The invariant -/

omit [Inhabited α] in
/-- What refers to a state after an object is gone did so before. -/
theorem put_refers {promise holder : PromiseId} {s : StateId}
    (refers : (promises.put promise none).objects holder = some (some s)) :
    holder ≠ promise ∧ promises.objects holder = some (some s) := by
  have apart : holder ≠ promise := by
    intro same
    rw [same, put_self] at refers
    cases refers
  rw [put_other _ _ apart] at refers
  exact ⟨apart, refers⟩

omit [Inhabited α] in
/-- Objects and states stay in order when an object is gone. -/
theorem Ok.remove (ok : promises.Ok) (promise : PromiseId) : (promises.put promise none).Ok := by
  constructor
  · intro holder s refers
    exact ok.valid holder s (put_refers refers).2
  · intro first second s refersFirst refersSecond
    exact ok.unique first second s (put_refers refersFirst).2 (put_refers refersSecond).2
  · exact ok.fresh
  · exact ok.decided
  · exact ok.unbroken

/-- A new state has one object and nothing has happened to it. -/
theorem Ok.construct (ok : promises.Ok) (promise : PromiseId) :
    ({ promises with
      next := promises.next + 1
      cell := Function.update promises.cell promises.next FutureState.new
      objects := Function.update promises.objects promise (some (some promises.next)) } :
      Promises α ε κ).Ok := by
  have refers {holder : PromiseId} {s : StateId}
      (made : Function.update promises.objects promise (some (some promises.next)) holder =
        some (some s)) :
      holder = promise ∧ s = promises.next ∨ s < promises.next ∧
        promises.objects holder = some (some s) := by
    by_cases same : holder = promise
    · rw [same, Function.update_self] at made
      exact Or.inl ⟨same, (Option.some.inj (Option.some.inj made)).symm⟩
    · rw [Function.update_of_ne same] at made
      exact Or.inr ⟨ok.valid holder s made, made⟩
  constructor
  · intro holder s made
    show s < promises.next + 1
    cases refers made with
    | inl new =>
      rw [new.2]
      exact Nat.lt_succ_self _
    | inr old => exact Nat.lt_succ_of_lt old.1
  · intro first second s madeFirst madeSecond
    cases refers madeFirst with
    | inl new =>
      cases refers madeSecond with
      | inl same => rw [new.1, same.1]
      | inr old => exact absurd new.2 (Nat.ne_of_lt old.1)
    | inr old =>
      cases refers madeSecond with
      | inl new => exact absurd new.2 (Nat.ne_of_lt old.1)
      | inr same => exact ok.unique first second s old.2 same.2
  · intro s later
    exact ok.fresh s (Nat.le_of_succ_le later)
  · intro s completed
    have apart : s ≠ promises.next := by
      intro same
      change promises.completed s = true at completed
      rw [same, ok.fresh promises.next (le_refl _)] at completed
      cases completed
    show (Function.update promises.cell promises.next FutureState.new s).outcome ≠ none
    rw [Function.update_of_ne apart]
    exact ok.decided s completed
  · intro s incomplete
    show (Function.update promises.cell promises.next FutureState.new s).outcome = none ∨
      (Function.update promises.cell promises.next FutureState.new s).outcome = _
    by_cases same : s = promises.next
    · rw [same, Function.update_self]
      exact Or.inl rfl
    · rw [Function.update_of_ne same]
      exact ok.unbroken s incomplete

theorem Stepped.ok (ok : promises.Ok) (stepped : Stepped kind promises call after) : after.Ok := by
  cases stepped with
  | @constructs promise vacant => exact ok.construct promise
  | moveConstructs vacant source | moveAssigns target source => exact ok.move source
  | reads object => exact ok
  | setsValue object => exact ok.complete object nofun
  | setsException object => exact ok.complete object nofun
  | @destroys promise state object => exact (ok.release state).remove promise

omit [Inhabited α] in
/-- A completing call leaves no state without its object. -/
theorem NoneAbandoned.complete (kept : promises.NoneAbandoned) {promise : PromiseId}
    {state : Option StateId} (object : promises.objects promise = some state) (c : Call α ε κ) :
    (promises.complete kind state c).NoneAbandoned := by
  cases state with
  | none => exact kept
  | some s =>
    intro t made unowned
    have apart : t ≠ s := by
      intro same
      rw [same] at unowned
      exact unowned ⟨promise, object⟩
    have same : (promises.complete kind (some s) c).cell t = promises.cell t :=
      call_other _ _ apart
    have incomplete : (promises.complete kind (some s) c).completed t = promises.completed t :=
      Function.update_of_ne apart _ _
    rw [same, incomplete]
    exact kept t made unowned

omit [Inhabited α] in
/-- The destructor of an object leaves its state decided. -/
theorem NoneAbandoned.destroy (kept : promises.NoneAbandoned) (ok : promises.Ok)
    {promise : PromiseId} {state : Option StateId}
    (object : promises.objects promise = some state) :
    ((promises.release kind state).put promise none).NoneAbandoned := by
  intro t made unowned
  by_cases own : state = some t
  · rw [own] at object ⊢
    show ((promises.release kind (some t)).cell t).outcome ≠ none ∧
      (promises.completed t = false → ((promises.release kind (some t)).cell t).outcome = _)
    rw [release_outcome]
    constructor
    · intro none
      cases (Option.or_eq_none_iff.mp none).2
    · intro incomplete
      cases ok.unbroken t incomplete with
      | inl none => rw [none, Option.none_or]
      | inr broken => rw [broken, Option.some_or]
  · have before : ¬ promises.Owned t := by
      intro owned
      obtain ⟨holder, refers⟩ := owned
      have apart : holder ≠ promise := by
        intro same
        rw [same, object] at refers
        exact own (Option.some.inj refers)
      refine unowned ⟨holder, ?_⟩
      rw [put_other _ _ apart]
      cases state with
      | none => exact refers
      | some s => exact refers
    cases state with
    | none => exact kept t made before
    | some s =>
      have apart : t ≠ s := by
        intro same
        exact own (congrArg some same.symm)
      have same : ((promises.release kind (some s)).put promise none).cell t = promises.cell t :=
        call_other _ _ apart
      rw [same]
      exact kept t made before

omit [Inhabited α] in
/-- A move that lets go of no undecided state abandons none. -/
theorem NoneAbandoned.move (kept : promises.NoneAbandoned) (ok : promises.Ok)
    {promise other : PromiseId} {state : Option StateId}
    (source : promises.objects other = some state)
    (spared : promise = other ∨ ∀ s, promises.objects promise = some (some s) →
      (promises.cell s).outcome ≠ none) :
    (promises.move promise other state).NoneAbandoned := by
  intro t made unowned
  by_cases owned : promises.Owned t
  · obtain ⟨holder, refers⟩ := owned
    have target : holder = promise := by
      by_contra apart
      exact unowned (owned_move source refers apart)
    rw [target] at refers
    have decided : (promises.cell t).outcome ≠ none := by
      cases spared with
      | inl same =>
        rw [← same, refers] at source
        refine absurd ⟨promise, ?_⟩ unowned
        unfold Promises.move
        rw [put_self, ← source]
      | inr decided => exact decided t refers
    exact ⟨decided, fun incomplete => (ok.unbroken t incomplete).resolve_left decided⟩
  · exact kept t made owned

theorem Stepped.noneAbandoned (ok : promises.Ok) (kept : promises.NoneAbandoned)
    (spared : promises.Spared call) (stepped : Stepped kind promises call after) :
    after.NoneAbandoned := by
  cases stepped with
  | @constructs promise vacant =>
    intro t made unowned
    have apart : t ≠ promises.next := by
      intro same
      rw [same] at unowned
      exact unowned ⟨promise, Function.update_self _ _ _⟩
    have before : ¬ promises.Owned t := by
      intro owned
      obtain ⟨holder, refers⟩ := owned
      refine unowned ⟨holder, ?_⟩
      show Function.update promises.objects promise _ holder = _
      rw [Function.update_of_ne]
      · exact refers
      · intro same
        rw [same, vacant] at refers
        cases refers
    show (Function.update promises.cell promises.next FutureState.new t).outcome ≠ none ∧
      (_ → (Function.update promises.cell promises.next FutureState.new t).outcome = _)
    rw [Function.update_of_ne apart]
    exact kept t (Nat.lt_of_le_of_ne (Nat.le_of_lt_succ made) apart) before
  | moveConstructs vacant source =>
    apply kept.move ok source
    right
    intro s refers
    rw [vacant] at refers
    cases refers
  | moveAssigns target source => exact kept.move ok source spared
  | reads object => exact kept
  | setsValue object | setsException object => exact kept.complete object _
  | destroys object => exact kept.destroy ok object

omit [Inhabited α] in
/-- A move assignment that lets go of an undecided state abandons it. -/
theorem Ok.abandons (ok : promises.Ok) {promise other : PromiseId} {state : Option StateId}
    {s : StateId} (source : promises.objects other = some state) (apart : promise ≠ other)
    (refers : promises.objects promise = some (some s))
    (undecided : (promises.cell s).outcome = none) :
    ¬ (promises.move promise other state).NoneAbandoned := by
  intro kept
  have unowned : ¬ (promises.move promise other state).Owned s := by
    intro owned
    obtain ⟨holder, still⟩ := owned
    cases move_refers still with
    | inl target =>
      rw [target.2] at source
      exact apart (ok.unique promise other s refers source)
    | inr other =>
      exact other.1 (ok.unique holder promise s other.2.2 refers)
  exact (kept s (ok.valid promise s refers) unowned).1 undecided

theorem ok_empty : (empty : Promises α ε κ).Ok := by
  constructor
  · intro promise s refers
    cases refers
  · intro promise other s refers
    cases refers
  · intro s later
    rfl
  · intro s completed
    cases completed
  · intro s incomplete
    exact Or.inl rfl

/-! ## Histories -/

/-- Objects and states are in order after any history. -/
theorem replay_ok {calls : List (PromiseCall α ε)} {last : Promises α ε κ}
    (replayed : (promiseObjects α ε κ kind).replay .empty calls = some last) : last.Ok := by
  let keeps (first last : Promises α ε κ) : Prop := first.Ok → last.Ok
  have kept : keeps .empty last := by
    apply System.replay_relates _ _ replayed
    · exact fun _ ok => ok
    · exact fun _ _ _ _ related stepped ok => (step_stepped stepped).ok (related ok)
  exact kept ok_empty

/-- In every history no future is abandoned undecided after any call, exactly if every move
assignment finds its target empty, decided, or being its own source. -/
theorem none_abandoned_iff {calls : List (PromiseCall α ε)} {last : Promises α ε κ}
    (replayed : (promiseObjects α ε κ kind).replay .empty calls = some last) :
    (∀ before after promises, calls = before ++ after →
        (promiseObjects α ε κ kind).replay .empty before = some promises →
          promises.NoneAbandoned) ↔
      ∀ before call after promises, calls = before ++ call :: after →
        (promiseObjects α ε κ kind).replay .empty before = some promises →
          promises.Spared call := by
  constructor
  · intro kept before call after promises split reached
    have ok := replay_ok reached
    rw [split, System.replay_append, reached, Option.bind_some] at replayed
    obtain ⟨next, stepped, rest⟩ := Option.bind_eq_some_iff.mp replayed
    have later : (promiseObjects α ε κ kind).replay .empty (before ++ [call]) = some next := by
      rw [System.replay_append, reached, Option.bind_some, System.replay, stepped]
      rfl
    have none := kept (before ++ [call]) after next (by rw [split, List.append_assoc]; rfl) later
    cases step_stepped stepped with
    | @moveAssigns promise other old state target source =>
      by_contra unspared
      obtain ⟨apart, found⟩ := not_or.mp unspared
      push Not at found
      obtain ⟨s, refers, undecided⟩ := found
      exact ok.abandons source apart refers undecided none
    | _ => trivial
  · intro spared before
    induction before using List.reverseRecOn with
    | nil =>
      intro after promises split reached
      rw [← Option.some.inj reached]
      intro s made
      exact absurd made (Nat.not_lt_zero s)
    | append_singleton before call ih =>
      intro after promises split reached
      rw [List.append_assoc] at split
      rw [System.replay_append] at reached
      obtain ⟨middle, earlier, stepped⟩ := Option.bind_eq_some_iff.mp reached
      obtain ⟨next, stepped, same⟩ := Option.bind_eq_some_iff.mp stepped
      rw [← Option.some.inj same]
      have kept := ih ([call] ++ after) middle split earlier
      exact (step_stepped stepped).noneAbandoned (replay_ok earlier) kept
        (spared before call after middle split earlier)

/-- Two promises, the first of which gives out a future; the second one is assigned to it. -/
def assignedRun : List (PromiseCall α ε) :=
  [.construct 0, .getFuture 0, .construct 1, .moveAssign 0 1]

/-- The assignment abandons the first state undecided. -/
theorem assignedRun_abandons (kind : Specialization) :
    ∃ last, (promiseObjects α ε κ kind).replay .empty assignedRun = some last ∧
      ¬ last.NoneAbandoned := by
  have reached : ∃ promises : Promises α ε κ, (promiseObjects α ε κ kind).replay .empty
      [.construct 0, .getFuture 0, .construct 1] = some promises ∧
      promises.objects 1 = some (some 1) ∧ promises.objects 0 = some (some 0) ∧
      (promises.cell 0).outcome = none := ⟨_, rfl, rfl, rfl, rfl⟩
  obtain ⟨promises, replayed, source, refers, undecided⟩ := reached
  refine ⟨promises.move 0 1 (some 1), ?_, ?_⟩
  · have split : (assignedRun : List (PromiseCall α ε)) =
        [.construct 0, .getFuture 0, .construct 1] ++ [.moveAssign 0 1] := rfl
    rw [split, System.replay_append, replayed, Option.bind_some, System.replay]
    have stepped : (promiseObjects α ε κ kind).step promises (.moveAssign 0 1) =
        some (promises.move 0 1 (some 1)) := by
      show promises.step kind (.moveAssign 0 1) = _
      simp only [step, refers, source, Option.map_some]
    rw [stepped]
    rfl
  · exact (replay_ok replayed).abandons source (by decide) refers undecided

/-- In neither class are futures never abandoned undecided. -/
theorem assigned_abandoned :
    (¬ ∀ calls last, (promiseObjects Nat String Unit .generic).replay .empty calls = some last →
      last.NoneAbandoned) ∧
    ¬ ∀ calls last, (promiseObjects Unit String Unit .void).replay .empty calls = some last →
      last.NoneAbandoned := by
  constructor
  · intro claim
    have found : ∃ last : Promises Nat String Unit,
        (promiseObjects Nat String Unit .generic).replay .empty assignedRun = some last ∧
          ¬ last.NoneAbandoned := assignedRun_abandons .generic
    obtain ⟨last, replayed, abandoned⟩ := found
    exact abandoned (claim assignedRun last replayed)
  · intro claim
    have found : ∃ last : Promises Unit String Unit,
        (promiseObjects Unit String Unit .void).replay .empty assignedRun = some last ∧
          ¬ last.NoneAbandoned := assignedRun_abandons .void
    obtain ⟨last, replayed, abandoned⟩ := found
    exact abandoned (claim assignedRun last replayed)

/-- A promise that was completed is assigned another one, and a moved one is destroyed. -/
def completedRun : List (PromiseCall Nat String) :=
  [.construct 0, .setValue 0 7, .construct 1, .moveAssign 0 1, .moveConstruct 2 0, .destroy 2]

theorem completedRun_replays :
    ((promiseObjects Nat String Unit .generic).replay .empty completedRun).isSome = true := by
  decide +kernel

/-- The completed state keeps its value without an object, the other one is broken. -/
theorem none_abandoned_completed :
    let last := ((promiseObjects Nat String Unit .generic).replay .empty completedRun).get
      completedRun_replays
    (last.cell 0).outcome = some (.value 7) ∧ (last.cell 1).outcome = some .brokenPromise ∧
      last.NoneAbandoned := by
  have replayed := (Option.some_get completedRun_replays).symm
  refine ⟨by decide +kernel, by decide +kernel, ?_⟩
  refine (none_abandoned_iff replayed).mpr ?_ completedRun [] _ rfl replayed
  intro before call after promises split reached
  have bound : before.length < 6 := by
    have length := congrArg List.length split
    rw [List.length_append, List.length_cons] at length
    change 6 = _ at length
    omega
  have prefixed : before = completedRun.take before.length := by
    rw [split, List.take_left]
  have called : completedRun[before.length]? = some call := by
    rw [split, List.getElem?_append_right (le_refl _), Nat.sub_self]
    rfl
  generalize before.length = position at bound prefixed called
  rw [prefixed] at reached
  match position with
  | 0 | 1 | 2 | 4 | 5 =>
    rw [← Option.some.inj called]
    trivial
  | 3 =>
    rw [← Option.some.inj called, ← Option.some.inj reached]
    right
    intro s refers
    rw [← Option.some.inj (Option.some.inj refers)]
    decide +kernel

end Promises

end Azul.Async
