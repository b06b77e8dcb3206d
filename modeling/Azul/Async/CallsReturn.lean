import Azul.Async.RuntimeWork

/-!
# Calls of the library return

Every step of a thread inside a call of the library, and every return of a callable, pays out of the
weights of what is pending; only the program adds to these. So the library makes a bounded number of
steps for all calls of the program together, and when the program makes no further call every thread
comes back to it.
-/

namespace Azul.Async

open Foundation

variable {V ε X : Type} {h h' : Heap V ε} {x : Instr V ε X} {new : List (Instr V ε X)}

/-- The instruction is about to allocate a state. -/
def Instr.allocates : Instr V ε X → Bool
  | .thenFunc _ _ => true
  | _ => false

/-- The instructions of the library allocate what they were going to allocate. -/
theorem execute_allocates (executed : execute h x = some (h', new)) :
    new.countP Instr.allocates + h'.next = (if x.allocates = true then 1 else 0) + h.next := by
  cases x with
  | setValue | resolve | walk | clear | invoke =>
    simp only [execute] at executed
    split at executed <;> cases executed <;> rfl
  | setException | aboutToDestroyPromise =>
    cases executed
    rfl
  | thenFunc s callable =>
    cases executed
    exact (Nat.zero_add _).trans (Nat.add_comm _ _)
  | destroyClosure d copy =>
    cases executed
    have none : ((if h.lastCopy d copy then [(.aboutToDestroyPromise d : Instr V ε X)] else []) ++
        h.releaseCallable d copy).countP Instr.allocates = 0 := by
      apply List.countP_eq_zero.mpr
      intro y inside
      rcases mem_dropped inside with ⟨-, rfl⟩ | ⟨_, _, -, rfl⟩ <;> exact Bool.false_ne_true
    rw [none]
    rfl
  | registerThen d =>
    simp only [execute] at executed
    split at executed
    case h_1 => split at executed <;> cases executed <;> rfl
    case h_2 => cases executed
  | releaseActivator all owner =>
    cases executed
    split <;> rfl
  | inCallable | external => cases executed

/-- A thread goes on in a call of the library, or a callable returns. -/
def Event.continues : Event V ε X → Bool
  | .run _ | .ret _ _ => true
  | _ => false

/-- What an event is charged. -/
def Event.cost (size : Nat) : Event V ε X → Nat
  | .call _ api => api.cost size
  | _ => 0

namespace Config

variable {σ σ' : Config V ε X} {event : Event V ε X}

/-- Room for the states that there are and for those that combinators in progress will derive. -/
def size (σ : Config V ε X) : Nat := Stacks.count σ.pending Instr.allocates + σ.heap.next

/-- The weight of all that is pending. -/
def work (σ : Config V ε X) (size : Nat) : Nat :=
  Stacks.weigh (Instr.weight size σ.heap) σ.pending

/-- What happened, by the kind of the event. -/
theorem step_events (stepped : σ.step event = some σ') :
    ∃ thread old new base, Replaced σ σ' thread old new base ∧
      match event with
      | .run _ => ∃ x, old = [x] ∧ execute σ.heap x = some (σ'.heap, new)
      | .ret _ _ => ∃ d x, old = [.inCallable d] ∧ new = [x] ∧ σ'.heap.next = σ.heap.next ∧
          ((∃ value, x = .resolve d value) ∨ ∃ error, x = .setException d error)
      | .call _ api => old = [] ∧ σ.heap.begin api = some (σ'.heap, new)
      | .enter _ _ code => new = code.map .external ∧ σ'.heap = σ.heap ∧
          ∀ x ∈ old, x.isExternal = true := by
  cases event with
  | run thread =>
    simp only [Config.step] at stepped
    split at stepped
    case h_1 x rest found =>
      obtain ⟨⟨heap, new⟩, executed, same⟩ := Option.map_eq_some_iff.mp stepped
      cases same
      exact ⟨thread, [x], new, rest, ⟨found, rfl⟩, x, rfl, executed⟩
    case h_2 => cases stepped
  | ret thread result =>
    simp only [Config.step] at stepped
    split at stepped
    case h_1 d rest found =>
      obtain ⟨-, same⟩ := Option.ite_none_right_eq_some.mp stepped
      cases same
      cases result with
      | ok value =>
        exact ⟨thread, _, [.resolve d value], rest, ⟨found, rfl⟩, d, _, rfl, rfl, rfl,
          Or.inl ⟨value, rfl⟩⟩
      | error error =>
        exact ⟨thread, _, [.setException d error], rest, ⟨found, rfl⟩, d, _, rfl, rfl, rfl,
          Or.inr ⟨error, rfl⟩⟩
    case h_2 => cases stepped
  | call thread api =>
    simp only [Config.step] at stepped
    split at stepped
    case h_1 stack found =>
      obtain ⟨-, same⟩ := Option.ite_none_right_eq_some.mp stepped
      obtain ⟨⟨heap, new⟩, begun, same⟩ := Option.map_eq_some_iff.mp same
      cases same
      exact ⟨thread, [], new, stack, ⟨found, rfl⟩, rfl, begun⟩
    case h_2 => cases stepped
  | enter thread leave code =>
    simp only [Config.step] at stepped
    split at stepped
    case h_1 c rest found _ =>
      cases stepped
      refine ⟨thread, [.external c], _, rest, ⟨found, rfl⟩, rfl, rfl, fun y inside => ?_⟩
      rw [List.mem_singleton.mp inside]
      rfl
    case h_2 stack found _ =>
      obtain ⟨-, same⟩ := Option.ite_none_right_eq_some.mp stepped
      cases same
      exact ⟨thread, [], _, stack, ⟨found, rfl⟩, rfl, rfl,
        fun y inside => absurd inside List.not_mem_nil⟩
    case h_3 => cases stepped

/-- Going on keeps the room, and the program only adds to it. -/
theorem Ok.size_le (ok : σ.Ok) (disciplined : Disciplined σ event)
    (stepped : σ.step event = some σ') :
    σ.size ≤ σ'.size ∧ (event.continues = true → σ'.size = σ.size) := by
  obtain ⟨thread, old, new, base, replaced, happened⟩ := step_events stepped
  obtain ⟨rest, before, after⟩ := replaced.pending
  have grows : @LE.le Nat _ σ.heap.next σ'.heap.next :=
    (ok.step_extends disciplined stepped).1.next
  unfold Config.size
  rw [before, after, Stacks.count_add, Stacks.count_add, Stacks.count_coe, Stacks.count_coe]
  cases event with
  | run thread =>
    obtain ⟨x, same, executed⟩ := happened
    have kept := execute_allocates executed
    rw [same, List.countP_singleton]
    exact ⟨by omega, fun _ => by omega⟩
  | ret thread result =>
    obtain ⟨d, x, was, now, next, completes⟩ := happened
    have quiet : [x].countP Instr.allocates = 0 := by
      rcases completes with ⟨value, rfl⟩ | ⟨error, rfl⟩ <;> rfl
    have silent : [(.inCallable d : Instr V ε X)].countP Instr.allocates = 0 := rfl
    rw [was, now, quiet, silent, next]
    exact ⟨le_refl _, fun _ => rfl⟩
  | call thread api =>
    rw [happened.1]
    refine ⟨?_, nofun⟩
    simp only [List.countP_nil]
    omega
  | enter thread leave code =>
    have silent : old.countP Instr.allocates = 0 := by
      apply List.countP_eq_zero.mpr
      intro x inside allocates
      have outside := happened.2.2 x inside
      cases x with
      | external => cases allocates
      | _ => cases outside
    refine ⟨?_, nofun⟩
    rw [silent]
    omega

/-- Every step is accounted for. -/
theorem Ok.accounts (ok : σ.Ok) (disciplined : Disciplined σ event)
    (stepped : σ.step event = some σ') {size : Nat} (room : σ'.size ≤ size) :
    (if event.continues = true then 1 else 0) + σ'.work size ≤
      σ.work size + event.cost size := by
  have before : @LE.le Nat _ σ.heap.next size := by
    have old := (ok.size_le disciplined stepped).1
    unfold Config.size at old room
    omega
  have lighter : ∀ y ∈ σ.pending, y.weight size σ'.heap ≤ y.weight size σ.heap := by
    intro y inside
    cases ok.heap_change disciplined stepped with
    | inl same => rw [same]
    | inr changed =>
      obtain ⟨P', change⟩ := changed
      exact change.weight_le ok.inv inside
  obtain ⟨thread, old, new, base, replaced, happened⟩ := step_events stepped
  obtain ⟨rest, was, now⟩ := replaced.pending
  unfold Config.work
  rw [now, was]
  apply Stacks.weigh_step fun y inside =>
    lighter y (was ▸ Multiset.mem_add.mpr (Or.inr inside))
  rw [Stacks.weigh_coe, Stacks.weigh_coe]
  cases event with
  | run thread =>
    obtain ⟨x, same, executed⟩ := happened
    have inside : x ∈ σ.pending := by
      rw [was, same]
      exact Multiset.mem_add.mpr (Or.inl (Multiset.mem_coe.mpr List.mem_cons_self))
    have pays := execute_pays ok.inv.layout (ok.inv.layout.typed x inside) before executed
    rw [same, List.map_singleton, List.sum_singleton]
    exact pays
  | ret thread result =>
    obtain ⟨d, x, top, next, -, completes⟩ := happened
    rw [top, next]
    rcases completes with ⟨value, rfl⟩ | ⟨error, rfl⟩ <;>
      simp only [List.map_singleton, List.sum_singleton, Instr.weight, Event.continues,
        Event.cost, if_true] <;> omega
  | call thread api =>
    have charged : weighCode size σ'.heap new ≤ api.cost size := begin_charged happened.2
    rw [happened.1]
    unfold weighCode at charged
    simp only [Event.continues, Event.cost, List.map_nil, List.sum_nil, Bool.false_eq_true,
      if_false]
    omega
  | enter thread leave code =>
    have none : (new.map (Instr.weight size σ'.heap)).sum = 0 := by
      apply List.sum_eq_zero
      intro weight inside
      rw [happened.1, List.map_map] at inside
      obtain ⟨c, -, same⟩ := List.mem_map.mp inside
      exact same.symm
    rw [none]
    exact Nat.zero_le _

end Config

/-- An instruction of the library can be executed, if it is not a callable of the program. -/
theorem Instr.Typed.executes {h : Heap V ε} {x : Instr V ε X} (typed : x.Typed h) :
    (execute h x).isSome = true ∨ (∃ d, x = .inCallable d) ∨ ∃ c, x = .external c := by
  cases x with
  | inCallable d => exact Or.inr (Or.inl ⟨d, rfl⟩)
  | external c => exact Or.inr (Or.inr ⟨c, rfl⟩)
  | setValue s value | resolve s value =>
    left
    simp only [execute]
    split <;> rfl
  | walk s index | clear s =>
    left
    simp only [execute]
    split <;> rfl
  | invoke d copy =>
    left
    obtain ⟨s, callable, made⟩ := typed.2
    simp only [execute, made]
    cases callable <;> rfl
  | registerThen d =>
    left
    obtain ⟨s, callable, made⟩ := typed
    simp only [execute, made]
    split <;> rfl
  | _ => exact Or.inl rfl

/-- A thread inside a call of the library can go on. -/
theorem Config.Ok.enabled {σ : Config V ε X} (ok : σ.Ok) {thread : Nat} {x : Instr V ε X}
    {rest : List (Instr V ε X)} (found : σ.threads[thread]? = some (x :: rest))
    (internal : x.isExternal = false) :
    ∃ event : Event V ε X, event.continues = true ∧
      ((runtime V ε X).step σ event).isSome = true := by
  have typed : x.Typed σ.heap := ok.inv.layout.typed x
    (Stacks.mem_pending.mpr ⟨_, List.mem_of_getElem? found, List.mem_cons_self⟩)
  rcases typed.executes with executes | ⟨d, returns⟩ | ⟨c, outside⟩
  · refine ⟨.run thread, rfl, ?_⟩
    obtain ⟨⟨heap, new⟩, executed⟩ := Option.isSome_iff_exists.mp executes
    have stepped : (runtime V ε X).step σ (.run thread) =
        some (σ.update thread heap (new ++ rest)) := by
      apply System.under_step.mpr
      refine ⟨trivial, ?_⟩
      simp only [Config.step, found, executed, Option.map_some]
    rw [stepped]
    rfl
  · refine ⟨.ret thread (.error .null), rfl, ?_⟩
    rw [returns] at found
    have stepped : (runtime V ε X).step σ (.ret thread (.error .null)) =
        some (σ.update thread (σ.heap.receive d (.error .null))
          (.setException d .null :: rest)) := by
      apply System.under_step.mpr
      refine ⟨trivial, ?_⟩
      simp only [Config.step, found, Result.fits, if_true]
    rw [stepped]
    rfl
  · rw [outside] at internal
    cases internal

/-- The steps of a run are covered by what was pending and by what its events are charged. -/
theorem Config.replay_pays {σ last : Config V ε X} {events : List (Event V ε X)}
    (reached : (runtime V ε X).Reachable σ)
    (replayed : (runtime V ε X).replay σ events = some last) :
    events.countP Event.continues + last.work last.size ≤
      σ.work last.size +
        (runtime V ε X).total (fun _ => Event.cost last.size) σ events := by
  apply (reached.replay_accounts (fun state => state.size ≤ last.size)
    (fun state => state.work last.size) Event.continues (fun _ => Event.cost last.size) _ _ replayed
    (le_refl _)).2
  · intro state event after old stepped room
    obtain ⟨disciplined, taken⟩ := System.under_step.mp stepped
    exact ((Config.ok old).size_le disciplined taken).1.trans room
  · intro state event after old room stepped
    obtain ⟨disciplined, taken⟩ := System.under_step.mp stepped
    exact (Config.ok old).accounts disciplined taken room

/-- Whatever the program calls, and in whatever order its threads go on: the steps that threads make
inside calls of the library, together with the returns of callables, are covered by what was pending
and by what the calls are charged. -/
theorem steps_charged {σ last : Config V ε X} {events : List (Event V ε X)}
    (reached : (runtime V ε X).Reachable σ)
    (replayed : (runtime V ε X).replay σ events = some last) :
    events.countP Event.continues + last.work last.size ≤
      σ.work last.size + (events.map (Event.cost last.size)).sum := by
  rw [← System.total_sum replayed]
  exact Config.replay_pays reached replayed

/-- A promise is made, two callables are attached one after the other, and the promise is completed;
the thread is about to set the value. -/
def chainRun : List (Event Nat String Empty) :=
  [.call 0 (.newPromise false), .call 0 (.then 0 false), .run 0, .run 0, .run 0,
    .call 0 (.then 1 false), .run 0, .run 0, .run 0, .call 0 (.complete 0 (.ok (.val 7)))]

theorem chainRun_replays :
    ((runtime Nat String Empty).replay (Config.start 1) chainRun).isSome = true := by
  decide

/-- The six steps of the two registrations are charged to the calls. -/
theorem steps_charged_chain :
    chainRun.countP Event.continues = 6 ∧
      6 + (Config.after 1 chainRun chainRun_replays).work
          (Config.after 1 chainRun chainRun_replays).size ≤
        (Config.start 1 : Config Nat String Empty).work
            (Config.after 1 chainRun chainRun_replays).size +
          (chainRun.map (Event.cost (Config.after 1 chainRun chainRun_replays).size)).sum := by
  have initial : (runtime Nat String Empty).initial (Config.start 1) := ⟨1, rfl⟩
  exact ⟨rfl, steps_charged (.start initial) (Option.some_get chainRun_replays).symm⟩

/-- Nobody is inside a call of the library: every thread is idle, or code of a component above the
library is in control of it. -/
def Config.AtRest (σ : Config V ε X) : Prop :=
  ∀ stack ∈ σ.threads, ∀ x rest, stack = x :: rest → x.isExternal = true

/-- Going on keeps the room. -/
theorem Config.size_kept {σ last : Config V ε X} {events : List (Event V ε X)}
    (reached : (runtime V ε X).Reachable σ) (only : ∀ event ∈ events, event.continues = true)
    (replayed : (runtime V ε X).replay σ events = some last) : last.size = σ.size := by
  apply reached.replay_keeps Config.size _ only replayed
  intro state event after old continues stepped
  obtain ⟨disciplined, taken⟩ := System.under_step.mp stepped
  exact ((Config.ok old).size_le disciplined taken).2 continues

/-- When the program makes no further call, the threads make a bounded number of steps in whatever
order they go on, and no step is impossible as long as one of them is inside a call of the
library. -/
theorem calls_return {σ : Config V ε X} (reached : (runtime V ε X).Reachable σ) :
    (runtime V ε X).Settles (fun event => event.continues = true) (σ.work σ.size) Config.AtRest
      σ := by
  intro events last only replayed
  constructor
  · have charged := Config.replay_pays reached replayed
    have all : events.countP Event.continues = events.length := List.countP_eq_length.mpr only
    have free : (runtime V ε X).total (fun _ => Event.cost last.size) σ events = 0 := by
      apply System.total_free _ replayed
      intro state event member _
      have continues := only event member
      cases event with
      | call => cases continues
      | _ => rfl
    rw [all, free, Config.size_kept reached only replayed] at charged
    omega
  · intro none stack member x rest same
    rw [same] at member
    obtain ⟨thread, found⟩ := List.getElem?_of_mem member
    by_contra internal
    obtain ⟨event, continues, enabled⟩ :=
      (Config.ok (reached.replay replayed)).enabled found (Bool.not_eq_true _ ▸ internal)
    rw [none event continues] at enabled
    cases enabled

/-- The callables of the chain are still to be called, and the thread comes to rest. -/
theorem calls_return_chain :
    ¬ (Config.after 1 chainRun chainRun_replays).AtRest ∧
      ∃ events last, (∀ event ∈ events, event.continues = true) ∧
        (runtime Nat String Empty).replay (Config.after 1 chainRun chainRun_replays) events =
          some last ∧ last.AtRest := by
  refine ⟨fun rest => ?_, (calls_return (Config.reachable_after chainRun_replays)).reaches⟩
  have threads : (Config.after 1 chainRun chainRun_replays).threads =
      [[.setValue 0 (.val 7)]] := by rfl
  have outside := rest [.setValue 0 (.val 7)] (threads ▸ List.mem_cons_self) _ _ rfl
  cases outside

end Azul.Async
