import Azul.Async.BlockingCalls

/-!
# Waiting threads

A thread that has not been woken waits for an undecided state, because the step that decides a
state notifies its condition; and a thread that has been notified finds the state decided. A
blocking call is on top of its thread, so that no step of the runtime uncovers or buries it.
-/

namespace Azul.Async

open Foundation

variable {V ε : Type}

/-! ## Notifications -/

section Notifications

variable {X : Type} {h h' : Heap V ε} {x : Instr V ε X} {new : List (Instr V ε X)} {s : StateId}

theorem decided_update {cell : FutureState (Value V) ε StateId} {t : StateId}
    (decided : (Function.update h.cell t cell s).outcome ≠ none) : s = t ∨ h.Decided s := by
  by_cases same : s = t
  · exact Or.inl same
  · rw [Function.update_of_ne same] at decided
    exact Or.inr decided

/-- A step that decides a state notifies its condition. -/
theorem execute_notifies (typed : x.Typed h) (executed : execute h x = some (h', new))
    (decided : h'.Decided s) : h.Decided s ∨ x.notifies h = some s := by
  have changed {t : StateId} {cell : FutureState (Value V) ε StateId}
      (now : (Function.update h.cell t cell s).outcome ≠ none)
      (notifies : x.notifies h = some t) : h.Decided s ∨ x.notifies h = some s := by
    cases decided_update now with
    | inl same =>
      rw [same]
      exact Or.inr notifies
    | inr before => exact Or.inl before
  cases x with
  | setValue t value | resolve t value =>
    rcases Heap.setValue_cases typed.1 with ⟨_, set⟩ | ⟨_, set⟩ | ⟨_, set⟩
    all_goals
      simp only [execute, set, Option.some.injEq, Prod.mk.injEq] at executed
      rw [← executed.1] at decided
    · apply changed decided
      simp only [Instr.notifies, set]
    · exact Or.inl decided
    · exact Or.inl decided
  | setException t error | aboutToDestroyPromise t =>
    cases executed
    exact changed decided rfl
  | walk | invoke =>
    left
    simp only [execute] at executed
    split at executed <;> cases executed <;> exact decided
  | clear t =>
    left
    simp only [execute] at executed
    split at executed
    case h_1 =>
      cases executed
      exact decided
    case h_2 d rest found =>
      cases executed
      have same : (Function.update h.cell t { h.cell t with continuations := rest } s).outcome =
          (h.cell s).outcome := FutureState.outcome_update_same rfl
      show (h.cell s).outcome ≠ none
      rw [← same]
      exact decided
  | registerThen d =>
    left
    simp only [execute] at executed
    split at executed
    case h_1 t callable made =>
      rcases h.then_cases t d with ⟨_, stored⟩ | ⟨_, stored⟩
      · simp only [stored, Option.some.injEq, Prod.mk.injEq] at executed
        rw [← executed.1] at decided
        have same : (Function.update h.cell t ((h.cell t).append d) s).outcome =
            (h.cell s).outcome := FutureState.outcome_update_same rfl
        show (h.cell s).outcome ≠ none
        rw [← same]
        exact decided
      · simp only [stored, Option.some.injEq, Prod.mk.injEq] at executed
        rw [← executed.1] at decided
        exact decided
    case h_2 => cases executed
  | destroyClosure | thenFunc | releaseActivator =>
    cases executed
    exact Or.inl decided
  | inCallable | external => cases executed

/-- What an instruction notifies it leaves decided. -/
theorem notifies_decided (typed : x.Typed h) (executed : execute h x = some (h', new))
    (notifies : x.notifies h = some s) : h'.Decided s := by
  have stored {t : StateId} {result : Result V ε} (same : t = s) :
      (Function.update h.cell t ((h.cell t).complete result) s).outcome ≠ none := by
    rw [same, Function.update_self, outcome_complete]
    nofun
  cases x with
  | setValue t value | resolve t value =>
    rcases Heap.setValue_cases typed.1 with ⟨_, set⟩ | ⟨_, set⟩ | ⟨_, set⟩
    all_goals simp only [Instr.notifies, set, reduceCtorEq, Option.some.injEq] at notifies
    simp only [execute, set, Option.some.injEq, Prod.mk.injEq] at executed
    rw [← executed.1]
    exact stored notifies
  | setException t error =>
    cases executed
    have decided : (Function.update h.cell t ((h.cell t).complete (.error error)) s).outcome ≠
        none := stored (Option.some.inj notifies)
    exact decided
  | aboutToDestroyPromise t =>
    cases executed
    show (Function.update h.cell t (h.cell t).breakPromise s).outcome ≠ none
    rw [Option.some.inj notifies, Function.update_self, FutureState.outcome_breakPromise]
    intro none
    cases (Option.or_eq_none_iff.mp none).2
  | _ => cases notifies

end Notifications

/-! ## Steps -/

/-- The state that a blocking call is about. -/
def BlockingCode.s : BlockingCode → StateId
  | .enter _ s | .blocked _ s => s

namespace BlockingConfig

variable {σ σ' : BlockingConfig V ε} {thread : Nat} {s : StateId} {call : BlockingCall}
  {code : BlockingCode} {stack : List (Instr V ε BlockingCode)}

theorem top_iff : σ.top thread = some code ↔
    ∃ rest, σ.runtime.threads[thread]? = some (.external code :: rest) := by
  unfold top
  constructor
  · intro found
    split at found
    case h_1 other rest is =>
      rw [← Option.some.inj found]
      exact ⟨rest, is⟩
    case h_2 => cases found
  · intro found
    obtain ⟨rest, is⟩ := found
    rw [is]

/-- Everything a step can do. -/
inductive Stepped (σ : BlockingConfig V ε) : BlockingEvent V ε → BlockingConfig V ε → Prop
  | runtime {event after} (disciplined : Disciplined σ.runtime event)
      (allowed : σ.allows event = true) (stepped : σ.runtime.step event = some after.runtime)
      (waiting : after.waiting = σ.notifyAll (σ.notifies event))
      (returns : after.returns = σ.returns) : Stepped σ (.runtime event) after
  | enters {thread call s after} (free : σ.top thread = none) (valid : s < σ.runtime.heap.next)
      (stepped : σ.runtime.step (.enter thread false [.enter call s]) = some after.runtime)
      (waiting : after.waiting = σ.waiting) (returns : after.returns = σ.returns) :
    Stepped σ (.block thread call s) after
  | waits {event thread code call s after}
      (began : event = .look thread ∧ code = .enter call s ∨
        (∃ late, event = .resume thread late) ∧ code = .blocked call s ∧ call = .get)
      (top : σ.top thread = some code) (undecided : ¬ σ.runtime.heap.Decided s)
      (went : σ.go thread [.blocked call s] .asleep [] = some after) :
    Stepped σ event after
  | looks {thread call s returned after} (top : σ.top thread = some (.enter call s))
      (looked : call.look (σ.runtime.heap.cell s) = some returned)
      (went : σ.go thread [] (σ.waiting thread)
        [{ s := s, returned := returned, decided := (σ.runtime.heap.cell s).isReady }] =
          some after) :
    Stepped σ (.look thread) after
  | wakes {thread call s timeout} (top : σ.top thread = some (.blocked call s))
      (asleep : σ.waiting thread = .asleep) (timed : timeout = true → call = .waitFor) :
    Stepped σ (.wake thread timeout) { σ with
      waiting := Function.update σ.waiting thread (if timeout then .timeout else .spurious) }
  | resumes {thread late call s returned after} (top : σ.top thread = some (.blocked call s))
      (awake : σ.waiting thread ≠ .asleep)
      (looked : call.resume (σ.runtime.heap.cell s) (σ.waiting thread) late = some returned)
      (went : σ.go thread [] (σ.waiting thread)
        [{ s := s, returned := returned, decided := (σ.runtime.heap.cell s).isReady }] =
          some after) :
    Stepped σ (.resume thread late) after

theorem undecided_iff {h : Heap V ε} : ¬ h.Decided s ↔ (h.cell s).state = .undefined := by
  rw [Heap.Decided, not_not]
  exact FutureState.outcome_eq_none

/-- A call waits on an undecided state only. -/
theorem look_none {cell : FutureState (Value V) ε StateId} (waits : call.look cell = none) :
    cell.state = .undefined := by
  cases call with
  | get => exact FutureState.get_eq_none.mp (Option.map_eq_none_iff.mp waits)
  | wait | waitFor =>
    by_contra decided
    simp only [BlockingCall.look, decided, if_false, reduceCtorEq] at waits

/-- Only `Get` waits again. -/
theorem resume_none {cell : FutureState (Value V) ε StateId} {waiting : Waiting} {late : Bool}
    (waits : call.resume cell waiting late = none) : cell.state = .undefined ∧ call = .get := by
  cases call with
  | get => exact ⟨FutureState.get_eq_none.mp (Option.map_eq_none_iff.mp waits), rfl⟩
  | wait | waitFor => cases waits

theorem step_stepped {event : BlockingEvent V ε} (stepped : σ.step event = some σ') :
    Stepped σ event σ' := by
  cases event with
  | runtime event =>
    obtain ⟨⟨disciplined, allowed⟩, taken⟩ := Option.ite_none_right_eq_some.mp stepped
    obtain ⟨runtime, taken, same⟩ := Option.map_eq_some_iff.mp taken
    rw [← same]
    exact .runtime disciplined allowed taken rfl rfl
  | block thread call s =>
    obtain ⟨⟨free, valid⟩, taken⟩ := Option.ite_none_right_eq_some.mp stepped
    obtain ⟨runtime, taken, same⟩ := Option.map_eq_some_iff.mp taken
    rw [← same]
    exact .enters free valid taken rfl rfl
  | look thread =>
    simp only [step] at stepped
    split at stepped
    case h_1 call s top =>
      cases looked : call.look (σ.runtime.heap.cell s) with
      | none =>
        rw [looked] at stepped
        exact .waits (Or.inl ⟨rfl, rfl⟩) top (undecided_iff.mpr (look_none looked)) stepped
      | some returned =>
        rw [looked] at stepped
        exact .looks top looked stepped
    case h_2 => cases stepped
  | wake thread timeout =>
    simp only [step] at stepped
    split at stepped
    case h_1 call s top =>
      obtain ⟨⟨asleep, timed⟩, same⟩ := Option.ite_none_right_eq_some.mp stepped
      rw [← Option.some.inj same]
      exact .wakes top asleep timed
    case h_2 => cases stepped
  | resume thread late =>
    simp only [step] at stepped
    split at stepped
    case h_1 call s top =>
      by_cases asleep : σ.waiting thread = .asleep
      · rw [if_pos asleep] at stepped
        cases stepped
      · rw [if_neg asleep] at stepped
        cases looked : call.resume (σ.runtime.heap.cell s) (σ.waiting thread) late with
        | none =>
          rw [looked] at stepped
          obtain ⟨undefined, get⟩ := resume_none looked
          exact .waits (Or.inr ⟨⟨late, rfl⟩, rfl, get⟩) top (undecided_iff.mpr undefined) stepped
        | some returned =>
          rw [looked] at stepped
          exact .resumes top asleep looked stepped
    case h_2 => cases stepped

/-! ## The tops of stacks -/

/-- A stack without blocking calls. -/
def Internal (stack : List (Instr V ε BlockingCode)) : Prop :=
  ∀ x ∈ stack, x.isExternal = false

/-- Nothing is below a blocking call that is one itself. -/
def Topmost (σ : BlockingConfig V ε) : Prop :=
  ∀ (t : Nat) (stack : List (Instr V ε BlockingCode)),
    σ.runtime.threads[t]? = some stack → Internal stack.tail

theorem top_none {stack : List (Instr V ε BlockingCode)}
    (found : σ.runtime.threads[thread]? = some stack) (internal : Internal stack) :
    σ.top thread = none := by
  cases is : σ.top thread with
  | none => rfl
  | some code =>
    obtain ⟨rest, other⟩ := top_iff.mp is
    rw [found] at other
    rw [Option.some.inj other] at internal
    cases internal _ List.mem_cons_self

theorem Topmost.internal (topmost : σ.Topmost) {stack : List (Instr V ε BlockingCode)}
    (found : σ.runtime.threads[thread]? = some stack) (free : σ.top thread = none) :
    Internal stack := by
  intro x inside
  cases stack with
  | nil => cases inside
  | cons y rest =>
    cases List.mem_cons.mp inside with
    | inl same =>
      rw [same]
      cases y with
      | external code =>
        rw [top_iff.mpr ⟨rest, found⟩] at free
        cases free
      | _ => rfl
    | inr later => exact topmost thread _ found x later

/-- One thread goes on from a stack to another one. -/
structure Turned (σ σ' : BlockingConfig V ε) (thread : Nat)
    (stack : List (Instr V ε BlockingCode)) : Prop where
  here : σ'.runtime.threads[thread]? = some stack
  others : ∀ t, t ≠ thread → σ'.runtime.threads[t]? = σ.runtime.threads[t]?

theorem Turned.top (turned : Turned σ σ' thread stack) {t : Nat} (other : t ≠ thread) :
    σ'.top t = σ.top t := by
  unfold BlockingConfig.top
  rw [turned.others t other]

theorem Turned.topmost (turned : Turned σ σ' thread stack) (topmost : σ.Topmost)
    (internal : Internal stack.tail) : σ'.Topmost := by
  intro t other found
  by_cases same : t = thread
  · rw [same, turned.here] at found
    rw [← Option.some.inj found]
    exact internal
  · rw [turned.others t same] at found
    exact topmost t other found

/-- A stack is replaced. -/
theorem turned_update {heap : Heap V ε} {stack changed : List (Instr V ε BlockingCode)}
    (found : σ.runtime.threads[thread]? = some stack)
    (same : σ'.runtime = σ.runtime.update thread heap changed) :
    Turned σ σ' thread changed := by
  have bound := (List.getElem?_eq_some_iff.mp found).1
  constructor
  · rw [same]
    show (σ.runtime.threads.set thread changed)[thread]? = some changed
    rw [List.getElem?_set_self bound]
  · intro t other
    rw [same]
    show (σ.runtime.threads.set thread changed)[t]? = _
    rw [List.getElem?_set_ne (Ne.symm other)]

/-- A step of the runtime goes on in a thread that is in no blocking call. -/
theorem runtime_turned {event : Event V ε BlockingCode} (topmost : σ.Topmost)
    (allowed : σ.allows event = true) (stepped : σ.runtime.step event = some σ'.runtime) :
    ∃ thread stack, Turned σ σ' thread stack ∧ σ.top thread = none ∧ Internal stack := by
  have joined {new rest : List (Instr V ε BlockingCode)} (first : Internal new)
      (second : Internal rest) : Internal (new ++ rest) := by
    intro x inside
    cases List.mem_append.mp inside with
    | inl early => exact first x early
    | inr late => exact second x late
  have unblocked {x : Instr V ε BlockingCode} {rest : List (Instr V ε BlockingCode)} {thread : Nat}
      (found : σ.runtime.threads[thread]? = some (x :: rest)) (internal : x.isExternal = false) :
      σ.top thread = none := by
    apply top_none found
    intro y inside
    cases List.mem_cons.mp inside with
    | inl same =>
      rw [same]
      exact internal
    | inr later => exact topmost thread _ found y later
  cases event with
  | run thread =>
    simp only [Config.step] at stepped
    split at stepped
    case h_1 x rest found =>
      obtain ⟨⟨heap, new⟩, executed, same⟩ := Option.map_eq_some_iff.mp stepped
      have internal : x.isExternal = false := by
        cases x with
        | external code => cases executed
        | _ => rfl
      exact ⟨thread, new ++ rest, turned_update found same.symm, unblocked found internal,
        joined (execute_internal executed) (topmost thread _ found)⟩
    case h_2 => cases stepped
  | ret thread result =>
    simp only [Config.step] at stepped
    split at stepped
    case h_1 d rest found =>
      obtain ⟨_, same⟩ := Option.ite_none_right_eq_some.mp stepped
      refine ⟨thread, _, turned_update found (Option.some.inj same).symm, unblocked found rfl, ?_⟩
      intro x inside
      cases List.mem_cons.mp inside with
      | inl same =>
        rw [same]
        cases result with
        | ok | error => rfl
      | inr later => exact topmost thread _ found x later
    case h_2 => cases stepped
  | call thread api =>
    simp only [Config.step] at stepped
    split at stepped
    case h_1 stack found =>
      obtain ⟨_, same⟩ := Option.ite_none_right_eq_some.mp stepped
      obtain ⟨⟨heap, new⟩, begun, same⟩ := Option.map_eq_some_iff.mp same
      have free : σ.top thread = none := Option.isNone_iff_eq_none.mp allowed
      exact ⟨thread, new ++ stack, turned_update found same.symm, free,
        joined (begin_internal begun) (topmost.internal found free)⟩
    case h_2 => cases stepped
  | enter thread leave code => cases allowed

/-- A blocking call is put above what its thread does. -/
theorem enter_found {codes : List BlockingCode}
    (stepped : σ.runtime.step (.enter thread false codes) = some σ'.runtime) :
    ∃ stack, σ.runtime.threads[thread]? = some stack ∧
      σ'.runtime = σ.runtime.update thread σ.runtime.heap (codes.map .external ++ stack) := by
  simp only [Config.step] at stepped
  split at stepped
  case h_1 clash => cases clash
  case h_2 _ _ stack found _ =>
    obtain ⟨_, same⟩ := Option.ite_none_right_eq_some.mp stepped
    exact ⟨stack, found, (Option.some.inj same).symm⟩
  case h_3 => cases stepped

/-- The end of one phase of a blocking call. -/
theorem go_turned {codes : List BlockingCode} {waiting : Waiting} {returns : List (Return V ε)}
    (top : σ.top thread = some code) (went : σ.go thread codes waiting returns = some σ') :
    ∃ rest, σ.runtime.threads[thread]? = some (.external code :: rest) ∧
      Turned σ σ' thread (codes.map .external ++ rest) ∧
      σ'.runtime.heap = σ.runtime.heap ∧
      σ.runtime.step (.enter thread true codes) = some σ'.runtime ∧
      σ'.waiting = Function.update σ.waiting thread waiting ∧
      σ'.returns = σ.returns ++ returns := by
  obtain ⟨rest, found⟩ := top_iff.mp top
  obtain ⟨runtime, stepped, same⟩ := Option.map_eq_some_iff.mp went
  have replaced : runtime =
      σ.runtime.update thread σ.runtime.heap (codes.map .external ++ rest) := by
    simp only [Config.step, found] at stepped
    exact (Option.some.inj stepped).symm
  rw [← same]
  exact ⟨rest, found, turned_update found replaced, Config.enter_heap stepped, stepped, rfl, rfl⟩

/-! ## The invariant -/

/-- What holds in every reachable configuration. -/
structure Ok (σ : BlockingConfig V ε) : Prop where
  reached : (Async.runtime V ε BlockingCode).Reachable σ.runtime
  topmost : σ.Topmost
  /-- Nobody waits for a decided state without having been woken. -/
  asleep : ∀ t call s, σ.top t = some (.blocked call s) → σ.waiting t = .asleep →
    ¬ σ.runtime.heap.Decided s
  notified : ∀ t call s, σ.top t = some (.blocked call s) → σ.waiting t = .notified →
    σ.runtime.heap.Decided s
  timed : ∀ t call s, σ.top t = some (.blocked call s) → σ.waiting t = .timeout →
    call = .waitFor
  valid : ∀ t code, σ.top t = some code → code.s < σ.runtime.heap.next

/-- What a step of the runtime newly decides it notifies, and what it notifies is decided. -/
theorem Ok.runtime_notifies (ok : σ.Ok) {event : Event V ε BlockingCode}
    (stepped : σ.runtime.step event = some σ'.runtime) :
    (σ'.runtime.heap.Decided s → σ.runtime.heap.Decided s ∨ σ.notifies event = some s) ∧
      (σ.notifies event = some s → σ'.runtime.heap.Decided s) := by
  have layout := (Config.ok ok.reached).inv.layout
  cases event with
  | run thread =>
    simp only [Config.step] at stepped
    split at stepped
    case h_1 x rest found =>
      obtain ⟨⟨heap, new⟩, executed, same⟩ := Option.map_eq_some_iff.mp stepped
      have typed := layout.typed x (Stacks.mem_pending.mpr
        ⟨_, List.mem_of_getElem? found, List.mem_cons_self⟩)
      have notifies : σ.notifies (.run thread) = x.notifies σ.runtime.heap := by
        simp only [BlockingConfig.notifies, found]
      rw [notifies, ← same]
      exact ⟨execute_notifies typed executed, notifies_decided typed executed⟩
    case h_2 => cases stepped
  | ret thread result =>
    simp only [Config.step] at stepped
    split at stepped
    case h_1 d rest found =>
      obtain ⟨_, same⟩ := Option.ite_none_right_eq_some.mp stepped
      rw [← Option.some.inj same]
      refine ⟨Or.inl, ?_⟩
      intro notifies
      cases notifies
    case h_2 => cases stepped
  | call thread api =>
    simp only [Config.step] at stepped
    split at stepped
    case h_1 stack found =>
      obtain ⟨_, same⟩ := Option.ite_none_right_eq_some.mp stepped
      obtain ⟨⟨heap, new⟩, begun, same⟩ := Option.map_eq_some_iff.mp same
      have cells := begin_cell begun
      constructor
      · intro decided
        rw [← same] at decided
        change (heap.cell s).outcome ≠ none at decided
        rw [cells] at decided
        exact Or.inl decided
      · intro notifies
        cases notifies
    case h_2 => cases stepped
  | enter thread leave code =>
    rw [Heap.Decided, Config.enter_heap stepped]
    refine ⟨Or.inl, ?_⟩
    intro notifies
    cases notifies

theorem notifyAll_asleep {notified : Option StateId} {t : Nat}
    (asleep : σ.notifyAll notified t = .asleep) :
    (∀ s, notified = some s → ¬ σ.waitsFor t s = true) ∧ σ.waiting t = .asleep := by
  unfold notifyAll at asleep
  by_cases wakes : σ.waiting t = .asleep ∧ notified.any (σ.waitsFor t) = true
  · rw [if_pos wakes] at asleep
    cases asleep
  · rw [if_neg wakes] at asleep
    refine ⟨?_, asleep⟩
    intro s notifies waits
    apply wakes
    rw [notifies]
    exact ⟨asleep, waits⟩

theorem notifyAll_notified {notified : Option StateId} {t : Nat}
    (woken : σ.notifyAll notified t = .notified) :
    (∃ s, notified = some s ∧ σ.waitsFor t s = true) ∨ σ.waiting t = .notified := by
  unfold notifyAll at woken
  by_cases wakes : σ.waiting t = .asleep ∧ notified.any (σ.waitsFor t) = true
  · left
    obtain ⟨_, any⟩ := wakes
    cases notified with
    | none => cases any
    | some s => exact ⟨s, rfl, any⟩
  · rw [if_neg wakes] at woken
    exact Or.inr woken

theorem notifyAll_timeout {notified : Option StateId} {t : Nat}
    (timeout : σ.notifyAll notified t = .timeout) : σ.waiting t = .timeout := by
  unfold notifyAll at timeout
  by_cases wakes : σ.waiting t = .asleep ∧ notified.any (σ.waitsFor t) = true
  · rw [if_pos wakes] at timeout
    cases timeout
  · rw [if_neg wakes] at timeout
    exact timeout

/-- The step of a blocking call changes how one thread waits, and decides nothing. -/
theorem Ok.turned (ok : σ.Ok) (turned : Turned σ σ' thread stack)
    (reached : (Async.runtime V ε BlockingCode).Reachable σ'.runtime)
    (internal : Internal stack.tail) (heap : σ'.runtime.heap = σ.runtime.heap)
    (waiting : ∀ t, t ≠ thread → σ'.waiting t = σ.waiting t)
    (here : ∀ call s, σ'.top thread = some (.blocked call s) →
      σ'.waiting thread = .asleep ∧ ¬ σ.runtime.heap.Decided s)
    (valid : ∀ code, σ'.top thread = some code → code.s < σ.runtime.heap.next) : σ'.Ok := by
  constructor
  · exact reached
  · exact turned.topmost ok.topmost internal
  · intro t call s top asleep
    rw [Heap.Decided, heap]
    by_cases same : t = thread
    · rw [same] at top
      exact (here call s top).2
    · rw [turned.top same] at top
      rw [waiting t same] at asleep
      exact ok.asleep t call s top asleep
  · intro t call s top notified
    rw [Heap.Decided, heap]
    by_cases same : t = thread
    · rw [same] at top notified
      rw [(here call s top).1] at notified
      cases notified
    · rw [turned.top same] at top
      rw [waiting t same] at notified
      exact ok.notified t call s top notified
  · intro t call s top timeout
    by_cases same : t = thread
    · rw [same] at top timeout
      rw [(here call s top).1] at timeout
      cases timeout
    · rw [turned.top same] at top
      rw [waiting t same] at timeout
      exact ok.timed t call s top timeout
  · intro t code top
    rw [heap]
    by_cases same : t = thread
    · rw [same] at top
      exact valid code top
    · rw [turned.top same] at top
      exact ok.valid t code top

/-- A blocking call is followed by the code that was put in its place, or by none. -/
theorem Ok.go_top (ok : σ.Ok) {codes : List BlockingCode} {waiting : Waiting}
    {returns : List (Return V ε)} {other : BlockingCode} (top : σ.top thread = some code)
    (went : σ.go thread codes waiting returns = some σ') (now : σ'.top thread = some other) :
    ∃ later, codes = other :: later := by
  obtain ⟨rest, found, turned, _⟩ := go_turned top went
  obtain ⟨after, same⟩ := top_iff.mp now
  rw [turned.here] at same
  have split := Option.some.inj same
  cases codes with
  | nil =>
    have inside : .external other ∈ rest := by
      change rest = _ at split
      rw [split]
      exact List.mem_cons_self
    cases ok.topmost thread _ found _ inside
  | cons first later =>
    rw [Instr.external.inj (List.cons.inj split).1]
    exact ⟨later, rfl⟩

/-- A step that puts code of a blocking call in the place of other code of it. -/
theorem Ok.go (ok : σ.Ok) {codes : List BlockingCode} {waiting : Waiting}
    {returns : List (Return V ε)} (top : σ.top thread = some code)
    (went : σ.go thread codes waiting returns = some σ')
    (single : codes = [] ∨ ∃ call, codes = [.blocked call code.s] ∧ waiting = .asleep ∧
      ¬ σ.runtime.heap.Decided code.s) : σ'.Ok := by
  obtain ⟨rest, found, turned, heap, stepped, waits, _⟩ := go_turned top went
  have below : Internal rest := ok.topmost thread _ found
  have next {other : BlockingCode} (now : σ'.top thread = some other) :
      ∃ call, other = .blocked call code.s ∧ waiting = .asleep ∧
        ¬ σ.runtime.heap.Decided code.s := by
    obtain ⟨later, codesAre⟩ := ok.go_top top went now
    cases single with
    | inl empty =>
      rw [empty] at codesAre
      cases codesAre
    | inr one =>
      obtain ⟨call, one, asleep, undecided⟩ := one
      rw [one] at codesAre
      exact ⟨call, (List.cons.inj codesAre).1.symm, asleep, undecided⟩
  apply ok.turned turned _ _ heap
  · intro t other
    rw [waits, Function.update_of_ne other]
  · intro call s blocked
    rw [waits, Function.update_self]
    obtain ⟨other, same, asleep, undecided⟩ := next blocked
    rw [(BlockingCode.blocked.inj same).2]
    exact ⟨asleep, undecided⟩
  · intro other now
    obtain ⟨call, same, _⟩ := next now
    rw [same]
    exact ok.valid thread code top
  · have disciplined : Disciplined σ.runtime (.enter thread true codes) := trivial
    exact ok.reached.next (System.under_step.mpr ⟨disciplined, stepped⟩)
  · cases single with
    | inl empty =>
      rw [empty]
      intro x inside
      exact below x (List.mem_of_mem_tail inside)
    | inr one =>
      obtain ⟨call, one, _⟩ := one
      rw [one]
      exact below

theorem Stepped.ok {event : BlockingEvent V ε} (ok : σ.Ok) (stepped : Stepped σ event σ') :
    σ'.Ok := by
  cases stepped with
  | @runtime event after disciplined allowed stepped waiting returns =>
    have kept := ((Config.ok ok.reached).step_extends disciplined stepped).2
    obtain ⟨thread, stack, turned, free, internal⟩ := runtime_turned ok.topmost allowed stepped
    -- only threads that were blocked before are blocked after the step
    have before {t : Nat} {code : BlockingCode} (top : σ'.top t = some code) :
        σ.top t = some code := by
      by_cases same : t = thread
      · rw [same, top_none turned.here internal] at top
        cases top
      · rw [← turned.top same]
        exact top
    constructor
    · exact ok.reached.next (System.under_step.mpr ⟨disciplined, stepped⟩)
    · exact turned.topmost ok.topmost fun x inside => internal x (List.mem_of_mem_tail inside)
    · intro t call s top asleep decided
      rw [waiting] at asleep
      obtain ⟨unnotified, was⟩ := notifyAll_asleep asleep
      have undecided := ok.asleep t call s (before top) was
      have notified := (ok.runtime_notifies stepped).1 decided
      apply unnotified s (notified.resolve_left undecided)
      simp only [waitsFor, before top, beq_self_eq_true]
    · intro t call s top notified
      rw [waiting] at notified
      cases notifyAll_notified notified with
      | inl now =>
        obtain ⟨other, notifies, waits⟩ := now
        simp only [waitsFor, before top, beq_iff_eq] at waits
        rw [waits]
        exact (ok.runtime_notifies stepped).2 notifies
      | inr was => exact kept s (ok.notified t call s (before top) was)
    · intro t call s top timeout
      rw [waiting] at timeout
      exact ok.timed t call s (before top) (notifyAll_timeout timeout)
    · intro t code top
      have grown := ((Config.ok ok.reached).step_extends disciplined stepped).1.next
      exact Nat.lt_of_lt_of_le (ok.valid t code (before top)) grown
  | @enters thread call s after free valid stepped waiting returns =>
    obtain ⟨stack, found, replaced⟩ := enter_found stepped
    have turned := turned_update found replaced
    apply ok.turned turned
    · have disciplined : Disciplined σ.runtime (.enter thread false [.enter call s]) := trivial
      exact ok.reached.next (System.under_step.mpr ⟨disciplined, stepped⟩)
    · exact ok.topmost.internal found free
    · exact Config.enter_heap stepped
    · intro t other
      rw [waiting]
    · intro other state top
      rw [top_iff.mpr ⟨_, turned.here⟩] at top
      cases top
    · intro code top
      rw [top_iff.mpr ⟨_, turned.here⟩] at top
      rw [← Option.some.inj top]
      exact valid
  | @waits event thread code call s after began top undecided went =>
    have state : code.s = s := by
      cases began with
      | inl looks =>
        rw [looks.2]
        rfl
      | inr resumes =>
        rw [resumes.2.1]
        rfl
    apply ok.go top went
    right
    rw [state]
    exact ⟨call, rfl, rfl, undecided⟩
  | looks top looked went | resumes top awake looked went =>
    exact ok.go top went (Or.inl rfl)
  | @wakes thread call s timeout top asleep timed =>
    constructor
    · exact ok.reached
    · exact ok.topmost
    · intro t other state blocked sleeps
      change Function.update σ.waiting thread _ t = .asleep at sleeps
      by_cases same : t = thread
      · rw [same, Function.update_self] at sleeps
        cases timeout <;> cases sleeps
      · rw [Function.update_of_ne same] at sleeps
        exact ok.asleep t other state blocked sleeps
    · intro t other state blocked notified
      change Function.update σ.waiting thread _ t = .notified at notified
      by_cases same : t = thread
      · rw [same, Function.update_self] at notified
        cases timeout <;> cases notified
      · rw [Function.update_of_ne same] at notified
        exact ok.notified t other state blocked notified
    · intro t other state blocked late
      change Function.update σ.waiting thread _ t = .timeout at late
      by_cases same : t = thread
      · rw [same, Function.update_self] at late
        change σ.top t = some _ at blocked
        rw [same, top] at blocked
        rw [← (BlockingCode.blocked.inj (Option.some.inj blocked)).1]
        cases timeout with
        | false => cases late
        | true => exact timed rfl
      · rw [Function.update_of_ne same] at late
        exact ok.timed t other state blocked late
    · exact ok.valid

/-- At the start the threads do nothing. -/
theorem start_idle {count t : Nat} {stack : List (Instr V ε BlockingCode)}
    (found : (start count : BlockingConfig V ε).runtime.threads[t]? = some stack) : stack = [] :=
  List.eq_of_mem_replicate (List.mem_of_getElem? found)

theorem start_top {count t : Nat} {code : BlockingCode} :
    (start count : BlockingConfig V ε).top t ≠ some code := by
  intro top
  obtain ⟨rest, found⟩ := top_iff.mp top
  cases start_idle found

/-- Every reachable configuration is in order. -/
theorem ok (reached : (blockingSystem V ε).Reachable σ) : σ.Ok := by
  apply reached.invariant
  · intro σ initial
    obtain ⟨count, same⟩ := initial
    rw [same]
    constructor
    · have initial : (Async.runtime V ε BlockingCode).initial (start count).runtime := ⟨count, rfl⟩
      exact .start initial
    · intro t stack found
      rw [start_idle found]
      intro x inside
      cases inside
    · intro t call s top
      exact absurd top start_top
    · intro t call s top
      exact absurd top start_top
    · intro t call s top
      exact absurd top start_top
    · intro t code top
      exact absurd top start_top
  · intro σ event σ' _ ok stepped
    exact (step_stepped stepped).ok ok

end BlockingConfig

end Azul.Async
