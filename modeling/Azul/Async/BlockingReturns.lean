import Azul.Async.BlockingWaits

/-!
# What a blocking call tells its caller

`Get` looks at the state after every wait. `Wait` and `WaitFor` wait once and do not look again, so
what they tell is right as long as nothing but a notification or a timeout ends their waits, nothing
is decided between a timeout and the moment at which its thread has the mutex again, and a thread
that was notified has it before its deadline.
-/

namespace Azul.Async

open Foundation

variable {V ε : Type}

/-- A blocking call told its caller whether the state was decided. -/
def Return.Right (r : Return V ε) : Prop :=
  match r.returned with
  | .got _ | .waited => r.decided = true
  | .waitedFor value => value = r.decided

instance (r : Return V ε) : Decidable r.Right :=
  match r with
  | ⟨_, .got _, decided⟩ | ⟨_, .waited, decided⟩ => inferInstanceAs (Decidable (decided = true))
  | ⟨_, .waitedFor value, decided⟩ => inferInstanceAs (Decidable (value = decided))

namespace BlockingConfig

variable {σ σ' : BlockingConfig V ε} {event : BlockingEvent V ε}

/-- Some thread's time to wait for a state is over, and it does not have the mutex yet. -/
def TimedOut (σ : BlockingConfig V ε) (s : StateId) : Prop :=
  ∃ thread < σ.runtime.threads.length,
    σ.waitsFor thread s = true ∧ σ.waiting thread = .timeout

instance (σ : BlockingConfig V ε) (s : StateId) : Decidable (σ.TimedOut s) :=
  inferInstanceAs (Decidable (∃ thread < σ.runtime.threads.length,
    σ.waitsFor thread s = true ∧ σ.waiting thread = .timeout))

/-- A thread waits in `Wait` or `WaitFor`. -/
def waitsOnce (σ : BlockingConfig V ε) (thread : Nat) : Bool :=
  match σ.top thread with
  | some (.blocked .wait _) | some (.blocked .waitFor _) => true
  | _ => false

/-- A thread has been notified in `WaitFor`. -/
def notifiedOnce (σ : BlockingConfig V ε) (thread : Nat) : Bool :=
  match σ.top thread with
  | some (.blocked .waitFor _) => σ.waiting thread = .notified
  | _ => false

/-- `Wait` and `WaitFor` are not woken for no reason, no state is decided while the time of a thread
that waits for it is over, and a thread that was notified in `WaitFor` has the mutex again before
its deadline. -/
def Punctual (σ : BlockingConfig V ε) : BlockingEvent V ε → Prop
  | .wake thread timeout => timeout = true ∨ σ.waitsOnce thread = false
  | .runtime event => ∀ s ∈ σ.notifies event, σ.runtime.heap.Decided s ∨ ¬ σ.TimedOut s
  | .resume thread late => late = false ∨ σ.notifiedOnce thread = false
  | .block _ _ _ | .look _ => True

instance (σ : BlockingConfig V ε) : (event : BlockingEvent V ε) → Decidable (Punctual σ event)
  | .wake thread timeout =>
    inferInstanceAs (Decidable (timeout = true ∨ σ.waitsOnce thread = false))
  | .runtime event =>
    inferInstanceAs (Decidable (∀ s ∈ σ.notifies event,
      σ.runtime.heap.Decided s ∨ ¬ σ.TimedOut s))
  | .resume thread late =>
    inferInstanceAs (Decidable (late = false ∨ σ.notifiedOnce thread = false))
  | .block _ _ _ | .look _ => inferInstanceAs (Decidable True)

/-- What holds as long as all waits are punctual. -/
structure PunctualOk (σ : BlockingConfig V ε) : Prop where
  ok : σ.Ok
  spurious : ∀ t call s, σ.top t = some (.blocked call s) → σ.waiting t = .spurious → call = .get
  timeout : ∀ t call s, σ.top t = some (.blocked call s) → σ.waiting t = .timeout →
    ¬ σ.runtime.heap.Decided s
  right : ∀ r ∈ σ.returns, r.Right

theorem isReady_of_decided {cell : FutureState (Value V) ε StateId}
    (decided : cell.state ≠ .undefined) : cell.isReady = true := by
  unfold FutureState.isReady
  exact bne_iff_ne.mpr decided

/-- A first look tells what it sees. -/
theorem look_right {call : BlockingCall} {cell : FutureState (Value V) ε StateId} {s : StateId}
    {returned : Returned V ε} (looked : call.look cell = some returned) :
    Return.Right { s := s, returned := returned, decided := cell.isReady } := by
  cases call with
  | get =>
    obtain ⟨result, got, same⟩ := Option.map_eq_some_iff.mp looked
    rw [← same]
    apply isReady_of_decided
    intro undefined
    rw [FutureState.get_eq_none.mpr undefined] at got
    cases got
  | wait =>
    obtain ⟨decided, same⟩ := Option.ite_none_left_eq_some.mp looked
    rw [← Option.some.inj same]
    exact isReady_of_decided decided
  | waitFor =>
    obtain ⟨decided, same⟩ := Option.ite_none_left_eq_some.mp looked
    rw [← Option.some.inj same]
    exact (isReady_of_decided decided).symm

theorem decided_iff_isReady {h : Heap V ε} {s : StateId} :
    h.Decided s ↔ (h.cell s).isReady = true :=
  FutureState.isReady_iff.symm

/-- After a punctual wait a call tells what is. -/
theorem PunctualOk.resume_right (punctual : σ.PunctualOk) {thread : Nat} {late : Bool}
    {call : BlockingCall} {s : StateId} {returned : Returned V ε}
    (keeps : Punctual σ (.resume thread late)) (top : σ.top thread = some (.blocked call s))
    (awake : σ.waiting thread ≠ .asleep)
    (looked : call.resume (σ.runtime.heap.cell s) (σ.waiting thread) late = some returned) :
    Return.Right
      { s := s, returned := returned, decided := (σ.runtime.heap.cell s).isReady } := by
  cases call with
  | get =>
    have look : BlockingCall.get.look (σ.runtime.heap.cell s) = some returned := looked
    exact look_right look
  | wait =>
    rw [← Option.some.inj looked]
    apply decided_iff_isReady.mp
    cases how : σ.waiting thread with
    | asleep => exact absurd how awake
    | notified => exact punctual.ok.notified thread _ s top how
    | spurious => cases punctual.spurious thread _ s top how
    | timeout => cases punctual.ok.timed thread _ s top how
  | waitFor =>
    rw [← Option.some.inj looked]
    show (decide (σ.waiting thread ≠ .timeout ∧ late = false)) = (σ.runtime.heap.cell s).isReady
    cases how : σ.waiting thread with
    | asleep => exact absurd how awake
    | notified =>
      have early : late = false := by
        apply keeps.resolve_right
        simp only [notifiedOnce, top, how, decide_true, Bool.true_eq_false, not_false_eq_true]
      have decided := punctual.ok.notified thread _ s top how
      rw [decided_iff_isReady.mp decided, early]
      rfl
    | spurious => cases punctual.spurious thread _ s top how
    | timeout =>
      have undecided := punctual.timeout thread _ s top how
      rw [decided_iff_isReady, Bool.not_eq_true] at undecided
      rw [undecided]
      rfl

/-! ## Steps -/

/-- How a blocked thread came to wait as it does. -/
theorem Stepped.blocked_cases (ok : σ.Ok) (stepped : Stepped σ event σ') {t : Nat}
    {call : BlockingCall} {s : StateId} (top : σ'.top t = some (.blocked call s)) :
    σ'.waiting t = .asleep ∨ σ.top t = some (.blocked call s) ∧
      (σ'.waiting t = .notified ∨ σ'.waiting t = σ.waiting t ∨
        ∃ timeout, event = .wake t timeout ∧
          σ'.waiting t = if timeout then .timeout else .spurious) := by
  cases stepped with
  | @runtime event after disciplined allowed stepped waiting returns =>
    obtain ⟨thread, stack, turned, free, internal⟩ := runtime_turned ok.topmost allowed stepped
    have other : t ≠ thread := by
      intro same
      rw [same, top_none turned.here internal] at top
      cases top
    rw [turned.top other] at top
    refine Or.inr ⟨top, ?_⟩
    rw [waiting]
    unfold notifyAll
    split_ifs
    · exact Or.inl rfl
    · exact Or.inr (Or.inl rfl)
  | @enters thread other state after free valid stepped waiting returns =>
    obtain ⟨stack, found, replaced⟩ := enter_found stepped
    have turned := turned_update found replaced
    have apart : t ≠ thread := by
      intro same
      rw [same, top_iff.mpr ⟨_, turned.here⟩] at top
      cases top
    rw [turned.top apart] at top
    rw [waiting]
    exact Or.inr ⟨top, Or.inr (Or.inl rfl)⟩
  | @waits event thread code other state after began before undecided went =>
    obtain ⟨rest, found, turned, heap, stepped, waits, _⟩ := go_turned before went
    rw [waits]
    by_cases same : t = thread
    · rw [same, Function.update_self]
      exact Or.inl rfl
    · rw [turned.top same] at top
      rw [Function.update_of_ne same]
      exact Or.inr ⟨top, Or.inr (Or.inl rfl)⟩
  | @looks thread _ _ _ after before looked went
  | @resumes thread _ _ _ _ after before awake looked went =>
    obtain ⟨rest, found, turned, heap, stepped, waits, _⟩ := go_turned before went
    have other : t ≠ thread := by
      intro same
      rw [same] at top
      obtain ⟨later, none⟩ := ok.go_top before went top
      cases none
    rw [turned.top other] at top
    rw [waits, Function.update_of_ne other]
    exact Or.inr ⟨top, Or.inr (Or.inl rfl)⟩
  | @wakes thread other state timeout before asleep timed =>
    refine Or.inr ⟨top, Or.inr ?_⟩
    by_cases same : t = thread
    · rw [same]
      exact Or.inr ⟨timeout, rfl, Function.update_self _ _ _⟩
    · exact Or.inl (Function.update_of_ne same _ _)

/-- What a step newly decides it notifies. -/
theorem Stepped.decided_before (ok : σ.Ok) (stepped : Stepped σ event σ') {s : StateId}
    (decided : σ'.runtime.heap.Decided s) :
    σ.runtime.heap.Decided s ∨ ∃ e, event = .runtime e ∧ σ.notifies e = some s := by
  cases stepped with
  | @runtime e after disciplined allowed stepped waiting returns =>
    cases (ok.runtime_notifies stepped).1 decided with
    | inl before => exact Or.inl before
    | inr notifies => exact Or.inr ⟨e, rfl, notifies⟩
  | enters free valid stepped =>
    left
    rw [Heap.Decided, Config.enter_heap stepped] at decided
    exact decided
  | waits _ top _ went | looks top _ went | resumes top _ _ went =>
    left
    obtain ⟨_, _, _, heap, _⟩ := go_turned top went
    rw [Heap.Decided, heap] at decided
    exact decided
  | wakes => exact Or.inl decided

/-- How a blocking call came to an end. -/
theorem Stepped.returns_cases (stepped : Stepped σ event σ') {r : Return V ε}
    (inside : r ∈ σ'.returns) :
    r ∈ σ.returns ∨ ∃ (thread : Nat) (call : BlockingCall) (s : StateId) (returned : Returned V ε),
      r = { s := s, returned := returned, decided := (σ.runtime.heap.cell s).isReady } ∧
      (call.look (σ.runtime.heap.cell s) = some returned ∨ ∃ late, event = .resume thread late ∧
        σ.top thread = some (.blocked call s) ∧ σ.waiting thread ≠ .asleep ∧
        call.resume (σ.runtime.heap.cell s) (σ.waiting thread) late = some returned) := by
  cases stepped with
  | runtime _ _ _ _ returns | enters _ _ _ _ returns =>
    rw [returns] at inside
    exact Or.inl inside
  | waits _ top _ went =>
    obtain ⟨_, _, _, _, _, _, returns⟩ := go_turned top went
    rw [returns, List.append_nil] at inside
    exact Or.inl inside
  | @looks thread call s returned after top looked went =>
    obtain ⟨_, _, _, _, _, _, returns⟩ := go_turned top went
    rw [returns] at inside
    cases List.mem_append.mp inside with
    | inl before => exact Or.inl before
    | inr new =>
      exact Or.inr ⟨thread, call, s, returned, List.mem_singleton.mp new, Or.inl looked⟩
  | @resumes thread late call s returned after top awake looked went =>
    obtain ⟨_, _, _, _, _, _, returns⟩ := go_turned top went
    rw [returns] at inside
    cases List.mem_append.mp inside with
    | inl before => exact Or.inl before
    | inr new =>
      exact Or.inr ⟨thread, call, s, returned, List.mem_singleton.mp new,
        Or.inr ⟨late, rfl, top, awake, looked⟩⟩
  | wakes => exact Or.inl inside

theorem timedOut_of_top {t : Nat} {call : BlockingCall} {s : StateId}
    (top : σ.top t = some (.blocked call s)) (timeout : σ.waiting t = .timeout) :
    σ.TimedOut s := by
  obtain ⟨rest, found⟩ := top_iff.mp top
  refine ⟨t, (List.getElem?_eq_some_iff.mp found).1, ?_, timeout⟩
  simp only [waitsFor, top, beq_self_eq_true]

/-- A thread that waits once waits in `Wait` or `WaitFor`. -/
theorem get_of_not_waitsOnce {t : Nat} {call : BlockingCall} {s : StateId}
    (top : σ.top t = some (.blocked call s)) (other : σ.waitsOnce t = false) : call = .get := by
  unfold waitsOnce at other
  rw [top] at other
  cases call with
  | get => rfl
  | wait | waitFor => cases other

theorem PunctualOk.step (punctual : σ.PunctualOk) (keeps : Punctual σ event)
    (stepped : Stepped σ event σ') : σ'.PunctualOk := by
  constructor
  · exact stepped.ok punctual.ok
  · intro t call s top spurious
    cases stepped.blocked_cases punctual.ok top with
    | inl asleep =>
      rw [asleep] at spurious
      cases spurious
    | inr before =>
      obtain ⟨before, woken | same | ⟨timeout, same, how⟩⟩ := before
      · rw [woken] at spurious
        cases spurious
      · rw [same] at spurious
        exact punctual.spurious t call s before spurious
      · rw [how] at spurious
        rw [same] at keeps
        cases timeout with
        | true => cases spurious
        | false => exact get_of_not_waitsOnce before (keeps.resolve_left nofun)
  · intro t call s top timeout decided
    cases stepped.blocked_cases punctual.ok top with
    | inl asleep =>
      rw [asleep] at timeout
      cases timeout
    | inr before =>
      obtain ⟨before, woken | same | ⟨timed, same, how⟩⟩ := before
      · rw [woken] at timeout
        cases timeout
      · rw [same] at timeout
        have undecided := punctual.timeout t call s before timeout
        obtain ⟨e, same, notifies⟩ :=
          (stepped.decided_before punctual.ok decided).resolve_left undecided
        rw [same] at keeps
        cases keeps s notifies with
        | inl early => exact undecided early
        | inr nobody => exact nobody (timedOut_of_top before timeout)
      · -- the time of a thread that has not been woken is over
        rw [same] at stepped
        have asleep : σ.waiting t = .asleep := by
          cases stepped with
          | waits began => cases began with
            | inl looks => cases looks.1
            | inr resumes =>
              obtain ⟨late, resumed⟩ := resumes.1
              cases resumed
          | wakes _ asleep => exact asleep
        have undecided := punctual.ok.asleep t call s before asleep
        obtain ⟨e, clash, _⟩ :=
          (stepped.decided_before punctual.ok decided).resolve_left undecided
        cases clash
  · intro r inside
    cases stepped.returns_cases inside with
    | inl before => exact punctual.right r before
    | inr new =>
      obtain ⟨thread, call, s, returned, same, looked | resumed⟩ := new
      · rw [same]
        exact look_right looked
      · obtain ⟨late, resumes, top, awake, told⟩ := resumed
        rw [resumes] at keeps
        rw [same]
        exact punctual.resume_right keeps top awake told

theorem punctualOk (reached : ((blockingSystem V ε).under Punctual).Reachable σ) :
    σ.PunctualOk := by
  apply reached.invariant
  · intro σ initial
    have reached : (blockingSystem V ε).Reachable σ := .start initial
    obtain ⟨count, same⟩ := initial
    constructor
    · exact BlockingConfig.ok reached
    · intro t call s top
      rw [same] at top
      exact absurd top start_top
    · intro t call s top
      rw [same] at top
      exact absurd top start_top
    · intro r inside
      rw [same] at inside
      cases inside
  · intro σ event σ' _ punctual stepped
    obtain ⟨keeps, stepped⟩ := System.under_step.mp stepped
    exact punctual.step keeps (step_stepped stepped)

/-! ## What a caller is told -/

/-- A thread has got the mutex back and is about to return. -/
theorem resumed {thread : Nat} {late : Bool} {call : BlockingCall} {s : StateId}
    {returned : Returned V ε} (top : σ.top thread = some (.blocked call s))
    (awake : σ.waiting thread ≠ .asleep)
    (looked : call.resume (σ.runtime.heap.cell s) (σ.waiting thread) late = some returned) :
    ∃ σ', σ.step (.resume thread late) = some σ' ∧ σ'.returns = σ.returns ++
      [{ s := s, returned := returned, decided := (σ.runtime.heap.cell s).isReady }] := by
  obtain ⟨rest, found⟩ := top_iff.mp top
  simp only [BlockingConfig.step, top, if_neg awake, looked, proceed, go, Config.step, found,
    Option.map_some]
  exact ⟨_, rfl, rfl⟩

/-- A step that is not punctual tells a caller what is not, or lets some call do so. -/
theorem Ok.unpunctual (ok : σ.Ok) (stepped : Stepped σ event σ') (breaks : ¬ Punctual σ event) :
    (∃ r ∈ σ'.returns, ¬ r.Right) ∨
      ∃ (thread : Nat) (σ'' : BlockingConfig V ε), σ'.step (.resume thread false) = some σ'' ∧
        ∃ r ∈ σ''.returns, ¬ r.Right := by
  have wrong {thread : Nat} {call : BlockingCall} {s : StateId} {returned : Returned V ε}
      (top : σ'.top thread = some (.blocked call s)) (awake : σ'.waiting thread ≠ .asleep)
      (looked : call.resume (σ'.runtime.heap.cell s) (σ'.waiting thread) false = some returned)
      (wrong : ¬ Return.Right
        { s := s, returned := returned, decided := (σ'.runtime.heap.cell s).isReady }) :
      (∃ r ∈ σ'.returns, ¬ r.Right) ∨
        ∃ (thread : Nat) (σ'' : BlockingConfig V ε), σ'.step (.resume thread false) = some σ'' ∧
          ∃ r ∈ σ''.returns, ¬ r.Right := by
    obtain ⟨σ'', stepped, returns⟩ := resumed top awake looked
    refine Or.inr ⟨thread, σ'', stepped, _, ?_, wrong⟩
    rw [returns]
    exact List.mem_append_right _ List.mem_cons_self
  cases stepped with
  | @runtime e after disciplined allowed stepped waiting returns =>
    simp only [Punctual, not_forall, not_or, not_not] at breaks
    obtain ⟨s, notifies, undecided, t, bound, waits, timeout⟩ := breaks
    obtain ⟨call, top⟩ : ∃ call, σ.top t = some (.blocked call s) := by
      unfold waitsFor at waits
      split at waits
      case h_1 call other top =>
        rw [beq_iff_eq] at waits
        rw [waits] at top
        exact ⟨call, top⟩
      case h_2 => cases waits
    have waitFor := ok.timed t call s top timeout
    obtain ⟨thread, stack, turned, free, internal⟩ := runtime_turned ok.topmost allowed stepped
    have other : t ≠ thread := by
      intro same
      rw [same, free] at top
      cases top
    have late : σ'.waiting t = .timeout := by
      rw [waiting]
      unfold notifyAll
      rw [if_neg _, timeout]
      rw [timeout]
      nofun
    have decided := (ok.runtime_notifies stepped).2 notifies
    rw [waitFor, ← turned.top other] at top
    apply wrong top
    · rw [late]
      nofun
    · rfl
    · intro right
      change (decide (σ'.waiting t ≠ .timeout ∧ false = false)) = _ at right
      rw [late, decided_iff_isReady.mp decided] at right
      cases right
  | enters | looks => exact absurd trivial breaks
  | @resumes thread late call s returned after top awake looked went =>
    obtain ⟨passed, notified⟩ := not_or.mp breaks
    rw [Bool.not_eq_false] at passed notified
    unfold notifiedOnce at notified
    rw [top] at notified
    cases call with
    | get | wait => cases notified
    | waitFor =>
      have decided := ok.notified thread _ s top (of_decide_eq_true notified)
      obtain ⟨_, _, _, _, _, _, returns⟩ := go_turned top went
      left
      refine ⟨_, by rw [returns]; exact List.mem_append_right _ List.mem_cons_self, ?_⟩
      intro right
      rw [← Option.some.inj looked, passed, decided_iff_isReady.mp decided] at right
      change decide (σ.waiting thread ≠ .timeout ∧ true = false) = true at right
      exact absurd (of_decide_eq_true right).2 nofun
  | waits began top =>
    cases began with
    | inl looks =>
      rw [looks.1] at breaks
      exact absurd trivial breaks
    | inr resumes =>
      obtain ⟨⟨late, resumes⟩, blocked, get⟩ := resumes
      rw [resumes] at breaks
      rw [blocked, get] at top
      exfalso
      apply breaks
      right
      simp only [notifiedOnce, top]
  | @wakes thread call s timeout top asleep timed =>
    have woken : timeout = false := by
      cases timeout with
      | false => rfl
      | true => exact absurd (Or.inl rfl) breaks
    have undecided := ok.asleep thread call s top asleep
    rw [decided_iff_isReady, Bool.not_eq_true] at undecided
    have spurious :
        Function.update σ.waiting thread (if timeout then .timeout else .spurious) thread =
          .spurious := by
      rw [Function.update_self, woken]
      rfl
    have awake :
        Function.update σ.waiting thread (if timeout then .timeout else .spurious) thread ≠
          .asleep := by
      rw [spurious]
      nofun
    cases call with
    | get =>
      exfalso
      apply breaks
      right
      simp only [waitsOnce, top]
    | wait =>
      apply wrong top awake rfl
      intro right
      change (σ.runtime.heap.cell s).isReady = true at right
      rw [undecided] at right
      cases right
    | waitFor =>
      apply wrong top awake rfl
      intro right
      change (decide (Function.update σ.waiting thread _ thread ≠ .timeout ∧ false = false)) =
        (σ.runtime.heap.cell s).isReady at right
      rw [undecided, spurious] at right
      cases right

end BlockingConfig

/-- As long as all waits are punctual, every blocking call tells its caller what is; and any other
step tells a caller what is not, or lets some call do so. -/
theorem returns_right {σ : BlockingConfig V ε}
    (reached : ((blockingSystem V ε).under BlockingConfig.Punctual).Reachable σ) :
    (∀ r ∈ σ.returns, r.Right) ∧
      ∀ (event : BlockingEvent V ε) (σ' : BlockingConfig V ε), σ.step event = some σ' →
        ¬ BlockingConfig.Punctual σ event →
        (∃ r ∈ σ'.returns, ¬ r.Right) ∨
          ∃ (thread : Nat) (σ'' : BlockingConfig V ε), σ'.step (.resume thread false) = some σ'' ∧
            ∃ r ∈ σ''.returns, ¬ r.Right := by
  have punctual := BlockingConfig.punctualOk reached
  refine ⟨punctual.right, ?_⟩
  intro event σ' stepped breaks
  exact punctual.ok.unpunctual (BlockingConfig.step_stepped stepped) breaks

/-- The time of one thread is over before the value comes, and another one is notified. -/
def punctualRun : List (BlockingEvent Nat String) :=
  [.runtime (Event.call 0 (.newPromise false)), .block 1 .waitFor 0, .look 1, .block 2 .wait 0,
    .look 2, .wake 1 true, .resume 1 true, .runtime (Event.call 0 (.complete 0 (.ok (.val 7)))),
    .runtime (.run 0), .resume 2 false]

theorem punctualRun_replays :
    (((blockingSystem Nat String).under BlockingConfig.Punctual).replay (.start 3)
      punctualRun).isSome = true := by
  decide +kernel

def punctualEnd : BlockingConfig Nat String :=
  (((blockingSystem Nat String).under BlockingConfig.Punctual).replay (.start 3)
    punctualRun).get punctualRun_replays

/-- Both of them return, and are told what is. -/
theorem returns_right_punctual :
    punctualEnd.returns.map (·.decided) = [false, true] ∧ ∀ r ∈ punctualEnd.returns, r.Right := by
  have initial : ((blockingSystem Nat String).under BlockingConfig.Punctual).initial
      (.start 3) := ⟨3, rfl⟩
  have reached := System.Reachable.of_replay initial punctualRun_replays
  exact ⟨by decide +kernel, (returns_right reached).1⟩

/-- `Wait` and `WaitFor` wake up for no reason, the time of a third thread is over just before the
value comes, and that of a fourth one, which it notifies, just after. -/
def earlyRun : List (BlockingEvent Nat String) :=
  [.runtime (Event.call 0 (.newPromise false)), .runtime (Event.call 0 (.newPromise true)),
    .block 1 .wait 1, .look 1, .block 2 .waitFor 0, .look 2, .block 3 .waitFor 0, .look 3,
    .block 4 .waitFor 0, .look 4, .wake 1 false, .resume 1 false, .wake 2 false, .resume 2 false,
    .wake 3 true, .runtime (Event.call 0 (.complete 0 (.ok (.val 7)))), .runtime (.run 0),
    .resume 3 true, .resume 4 true]

theorem earlyRun_replays :
    ((blockingSystem Nat String).replay (.start 5) earlyRun).isSome = true := by
  decide +kernel

def earlyEnd : BlockingConfig Nat String :=
  ((blockingSystem Nat String).replay (.start 5) earlyRun).get earlyRun_replays

/-- All four are told what is not. -/
theorem returned_early :
    ¬ ∀ σ, (blockingSystem Nat String).Reachable σ → ∀ r ∈ σ.returns, r.Right := by
  intro claim
  have returns : earlyEnd.returns.map (fun r => decide r.Right) = [false, false, false, false] := by
    decide +kernel
  have initial : (blockingSystem Nat String).initial (.start 5) := ⟨5, rfl⟩
  have reached := System.Reachable.of_replay initial earlyRun_replays
  have right := claim earlyEnd reached
  have all : earlyEnd.returns.map (fun r => decide r.Right) =
      earlyEnd.returns.map fun _ => true :=
    List.map_congr_left fun r inside => decide_eq_true (right r inside)
  rw [returns] at all
  exact absurd all (by decide +kernel)

end Azul.Async
