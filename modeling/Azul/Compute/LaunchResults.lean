import Azul.Compute.LaunchInvariant

/-!
# What the future of a launch says

When the future of a launch is ready, the futures of all its chunks are decided, so that no kernel
of the launch runs and none will. Whether the kernel has returned normally from all its calls is
another question: `WaitFor` does not look at what the futures of the chunks hold. It has, in every
run in which no kernel of the launch throws and no chunk of it is still queued when the destructor
of the pool clears the queue.
-/

namespace Azul.Compute

open Azul.Foundation Azul.Async

variable {w : Nat} {V ε : Type} {workers : Nat}

namespace LaunchConfig

variable {σ σ' : LaunchConfig w V ε} {event : LaunchEvent w V ε}

/-! ## What a step changes -/

/-- A step of the pool is part of a launch step: callables of chunks only end as their loops do. -/
structure Below (σ : LaunchConfig w V ε) (event : LaunchEvent w V ε) (below : PoolEvent V ε) :
    Prop where
  run : ∀ thread woken, below = .run thread woken → event = .pool (.run thread woken)
  funcReturn : ∀ thread error, below = .funcReturn thread (.error error) →
    σ.chunkAt thread = none ∨ event = .kernelReturn thread (some error)

/-- What a step leaves of the records. -/
structure Moved (workers : Nat) (σ σ' : LaunchConfig w V ε) (event : LaunchEvent w V ε) :
    Prop where
  pool : σ'.pool = σ.pool ∨
    ∃ below, σ.pool.step workers below = some σ'.pool ∧ σ.Below event below
  /-- A launch that is joined does not change. -/
  launches : ∀ (l : Nat) (launch : Launch w), σ.launches[l]? = some launch →
    launch.future ≠ none → σ'.launches[l]? = some launch
  /-- A chunk is an old one, which calls the kernel only while its callable runs, or a new one of a
  launch that is not joined. -/
  chunks : ∀ p chunk', σ'.chunks p = some chunk' →
    (∃ chunk, σ.chunks p = some chunk ∧ chunk'.launch = chunk.launch ∧
      (chunk'.invoked = chunk.invoked ∨ ∃ task : Async.Task, task.promise = p ∧
        .external (.func task) ∈ σ.pool.runtime.pending)) ∨
    (∃ launch, σ.launches[chunk'.launch]? = some launch ∧ launch.future = none) ∧
      σ'.pool.pool.results p = none ∧ σ'.pool.runtime.heap.destroyed p = false

/-- Every step moves the records in this way. -/
theorem Ok.moved (ok : σ.Ok workers) (stepped : σ.step workers event = some σ') :
    Moved workers σ σ' event := by
  have old {pool' : PoolConfig V ε} {p : StateId} {chunk : Chunk w}
      (recorded : σ.chunks p = some chunk) :
      (∃ before, σ.chunks p = some before ∧ chunk.launch = before.launch ∧
        (chunk.invoked = before.invoked ∨ ∃ task : Async.Task, task.promise = p ∧
          .external (.func task) ∈ σ.pool.runtime.pending)) ∨
      (∃ launch, σ.launches[chunk.launch]? = some launch ∧ launch.future = none) ∧
        pool'.pool.results p = none ∧ pool'.runtime.heap.destroyed p = false :=
    Or.inl ⟨chunk, recorded, rfl, Or.inl rfl⟩
  have other {l k : Nat} {launch changed mine : Launch w} (known : σ.launches[k]? = some mine)
      (unjoined : mine.future = none) (found : σ.launches[l]? = some launch)
      (joined : launch.future ≠ none) : (σ.launches.set k changed)[l]? = some launch := by
    rw [List.getElem?_set_ne, found]
    rintro rfl
    cases known.symm.trans found
    exact joined unjoined
  cases event with
  | pool event =>
    obtain ⟨allowed, stepped⟩ := Option.ite_none_right_eq_some.mp stepped
    obtain ⟨pool, taken, rfl⟩ := withPool_cases stepped
    have below : σ.Below (.pool event) event := by
      refine ⟨fun thread woken same => congrArg _ same, ?_⟩
      rintro thread error rfl
      exact Or.inl (Option.isNone_iff_eq_none.mp (Bool.and_eq_true_iff.mp allowed).2)
    have quiet : Moved workers σ { σ with pool := pool } (.pool event) :=
      ⟨Or.inr ⟨event, taken, below⟩, fun l launch found _ => found, fun p chunk => old⟩
    cases event with
    | run thread woken =>
      simp only [recorded]
      split
      case h_1 frame launch submitting =>
        obtain ⟨entered, known, phase, -⟩ := submitting_cases submitting
        obtain ⟨mine, same, open_, -⟩ := ok.frames thread frame entered
        cases known.symm.trans same
        have unjoined := open_ (by rw [phase]; decide)
        obtain ⟨-, -, unset, alive⟩ := ok.submitted_fresh submitting taken
        refine ⟨Or.inr ⟨_, taken, below⟩, fun l launch => other known unjoined,
          fun p chunk now => ?_⟩
        rcases updated_cases now with ⟨rfl, rfl⟩ | recorded
        · exact Or.inr ⟨⟨launch, known, unjoined⟩, unset, alive⟩
        · exact old recorded
      case h_2 => exact quiet
    | _ => exact quiet
  | execute thread work =>
    simp only [LaunchConfig.step] at stepped
    split at stepped
    case h_1 stack found =>
      obtain ⟨-, same⟩ := Option.ite_none_right_eq_some.mp stepped
      cases same
      refine ⟨Or.inl rfl, fun l launch found _ => ?_, fun p chunk => old⟩
      change (σ.launches ++ [.new work])[l]? = some launch
      rwa [List.getElem?_append_left (List.getElem?_eq_some_iff.mp found).1]
    case h_2 => cases stepped
  | go thread =>
    obtain ⟨frame, control, stepped⟩ := Option.bind_eq_some_iff.mp stepped
    obtain ⟨launch, known, stepped⟩ := Option.bind_eq_some_iff.mp stepped
    obtain ⟨mine, same, open_, -⟩ := ok.frames thread frame (control_cases control)
    cases known.symm.trans same
    simp only [LaunchConfig.go] at stepped
    split at stepped
    case h_1 phase =>
      split_ifs at stepped
      · obtain ⟨pool, taken, rfl⟩ := withPool_cases stepped
        exact ⟨Or.inr ⟨_, taken, by rintro _ _ ⟨⟩, by rintro _ _ ⟨⟩⟩, fun l launch found _ => found,
          fun p chunk => old⟩
      · obtain ⟨pool, taken, rfl⟩ := withPool_cases stepped
        have unjoined := open_ (by rw [phase]; decide)
        exact ⟨Or.inr ⟨_, taken, by rintro _ _ ⟨⟩, by rintro _ _ ⟨⟩⟩,
          fun l launch => other known unjoined, fun p chunk => old⟩
    case h_2 => cases stepped
    case h_3 =>
      cases stepped
      exact ⟨Or.inl rfl, fun l launch found _ => found, fun p chunk => old⟩
  | kernel thread =>
    simp only [LaunchConfig.step] at stepped
    split at stepped
    case h_1 p chunk _ top =>
      obtain ⟨-, stepped⟩ := Option.ite_none_right_eq_some.mp stepped
      simp only [LaunchConfig.kernel] at stepped
      split_ifs at stepped
      · cases stepped
        refine ⟨Or.inl rfl, fun l launch found _ => found, fun q other now => ?_⟩
        rcases updated_cases now with ⟨rfl, rfl⟩ | recorded
        · exact Or.inl ⟨chunk, (chunkAt_cases top).1, rfl, Or.inr (Ok.chunk_pending top)⟩
        · exact old recorded
      · obtain ⟨pool, taken, rfl⟩ := withPool_cases stepped
        exact ⟨Or.inr ⟨_, taken, by rintro _ _ ⟨⟩, by rintro _ _ ⟨⟩⟩, fun l launch found _ => found,
          fun p chunk => old⟩
    case h_2 => cases stepped
  | kernelReturn thread thrown =>
    simp only [LaunchConfig.step] at stepped
    split at stepped
    case h_1 p chunk _ top =>
      obtain ⟨globalIndex, calling, stepped⟩ := Option.bind_eq_some_iff.mp stepped
      have recorded := (chunkAt_cases top).1
      cases thrown with
      | none =>
        cases stepped
        refine ⟨Or.inl rfl, fun l launch found _ => found, fun q other now => ?_⟩
        rcases updated_cases now with ⟨rfl, rfl⟩ | recorded'
        · exact Or.inl ⟨chunk, recorded, rfl, Or.inl rfl⟩
        · exact old recorded'
      | some error =>
        obtain ⟨pool, taken, rfl⟩ := withPool_cases stepped
        refine ⟨Or.inr ⟨_, taken, by rintro _ _ ⟨⟩, ?_⟩, fun l launch found _ => found,
          fun q other now => ?_⟩
        · rintro _ _ ⟨⟩
          exact Or.inr rfl
        rcases updated_cases now with ⟨rfl, rfl⟩ | recorded'
        · exact Or.inl ⟨chunk, recorded, rfl, Or.inl rfl⟩
        · exact old recorded'
    case h_2 => cases stepped

/-! ## When a launch is ready -/

/-- The future of a launch is ready. -/
def Ready (l : Nat) (σ : LaunchConfig w V ε) : Prop :=
  ∃ launch f, σ.launches[l]? = some launch ∧ launch.future = some f ∧
    σ.pool.runtime.heap.Decided f

/-- When a launch is ready, the futures of its chunks are decided. -/
theorem Ok.chunk_decided (ok : σ.Ok workers) {l : Nat} (ready : σ.Ready l) {p : StateId}
    {chunk : Chunk w} (recorded : σ.chunks p = some chunk) (own : chunk.launch = l) :
    σ.pool.runtime.heap.Decided p := by
  obtain ⟨launch, f, found, joined, decided⟩ := ready
  obtain ⟨-, -, other, known, listed⟩ := ok.chunk p chunk recorded
  rw [own] at known
  cases found.symm.trans known
  have origin := (ok.future l launch f found joined).2
  exact (Config.ok (PoolConfig.ok ok.reached).reached).whenAll_inputs origin decided listed

/-- When a launch is ready, no callable of a chunk of it is running. -/
theorem Ok.no_callable (ok : σ.Ok workers) {l : Nat} (ready : σ.Ready l) {task : Async.Task}
    {chunk : Chunk w} (recorded : σ.chunks task.promise = some chunk) (own : chunk.launch = l) :
    .external (.func task) ∉ σ.pool.runtime.pending := fun pending =>
  (PoolConfig.ok ok.reached).running_undecided pending (ok.chunk_decided ready recorded own)

/-- When a launch is ready, no kernel of it is running. -/
theorem Ok.no_kernel (ok : σ.Ok workers) {l : Nat} (ready : σ.Ready l) {p : StateId}
    {chunk : Chunk w} (recorded : σ.chunks p = some chunk) (own : chunk.launch = l) :
    chunk.kernel = none := by
  by_contra calling
  obtain ⟨task, rfl, pending⟩ := ok.running p chunk recorded calling
  exact ok.no_callable ready recorded own pending

/-- A launch that is ready stays ready. -/
theorem Ok.ready_kept (ok : σ.Ok workers) {l : Nat} (ready : σ.Ready l)
    (moved : Moved workers σ σ' event) : σ'.Ready l := by
  obtain ⟨launch, f, found, joined, decided⟩ := ready
  refine ⟨launch, f, moved.launches l launch found (by simp [joined]), joined, ?_⟩
  rcases moved.pool with same | ⟨below, taken, -⟩
  · rwa [same]
  · have poolOk := PoolConfig.ok ok.reached
    exact (poolOk.later (poolOk.stepped taken)).decided f decided

/-- While a launch is ready, its chunks do not call the kernel. -/
theorem Ok.invoked_kept (ok : σ.Ok workers) {l : Nat} (ready : σ.Ready l)
    (moved : Moved workers σ σ' event) {p : StateId} {chunk : Chunk w}
    (recorded : σ'.chunks p = some chunk) (own : chunk.launch = l) :
    ∃ before, σ.chunks p = some before ∧ before.launch = l ∧ chunk.invoked = before.invoked := by
  rcases moved.chunks p chunk recorded with
    ⟨before, was, same, invoked⟩ | ⟨⟨launch, known, open_⟩, -⟩
  · refine ⟨before, was, same.symm.trans own, invoked.resolve_right ?_⟩
    rintro ⟨task, rfl, pending⟩
    exact ok.no_callable ready was (same.symm.trans own) pending
  · obtain ⟨joined, f, found, future, -⟩ := ready
    rw [own] at known
    cases found.symm.trans known
    cases open_.symm.trans future

/-- From the moment the future of a launch is ready, in every later configuration no kernel of the
launch is running, and none was called since. -/
theorem launch_over (reached : (launchSystem w V ε workers).Reachable σ) {l : Nat}
    {launch : Launch w} {f : StateId} (found : σ.launches[l]? = some launch)
    (future : launch.future = some f)
    (ready : σ.pool.runtime.heap.Decided f) {events : List (LaunchEvent w V ε)}
    (later : (launchSystem w V ε workers).replay σ events = some σ') :
    ∀ p chunk, σ'.chunks p = some chunk → chunk.launch = l →
      chunk.kernel = none ∧
        ∃ before, σ.chunks p = some before ∧ before.launch = l ∧
          chunk.invoked = before.invoked := by
  induction events generalizing σ launch with
  | nil =>
    cases later
    intro p chunk recorded own
    exact ⟨(ok reached).no_kernel ⟨launch, f, found, future, ready⟩ recorded own, chunk, recorded,
      own, rfl⟩
  | cons event events ih =>
    obtain ⟨middle, stepped, rest⟩ := Option.bind_eq_some_iff.mp later
    have good := ok reached
    have here : σ.Ready l := ⟨launch, f, found, future, ready⟩
    have moved := good.moved stepped
    obtain ⟨joined, g, kept, same, decided⟩ := good.ready_kept here moved
    cases kept.symm.trans (moved.launches l launch found (by simp [future]))
    cases same.symm.trans future
    intro p chunk recorded own
    obtain ⟨idle, between, was, mine, invoked⟩ :=
      ih (reached.next stepped) kept same decided rest p chunk recorded own
    obtain ⟨before, first, own, same⟩ := good.invoked_kept here moved was mine
    exact ⟨idle, before, first, own, invoked.trans same⟩

end LaunchConfig

/-- One work item on one worker: the kernel throws, and the worker completes the futures. -/
def throwingRun : List (LaunchEvent 64 Nat String) :=
  [LaunchEvent.execute 1 (.one ![1] ![0]), LaunchEvent.go 1] ++
    List.replicate 9 (LaunchEvent.pool (.run 1 0)) ++ [LaunchEvent.go 1] ++
    List.replicate 8 (LaunchEvent.pool (.run 1 0)) ++ [LaunchEvent.go 1] ++
    List.replicate 5 (LaunchEvent.pool (.run 0 0)) ++
    [LaunchEvent.kernel 0, LaunchEvent.kernelReturn 0 (some (.user "kernel"))] ++
    List.replicate 9 (LaunchEvent.pool (.run 0 0))

/-- The run can be replayed. -/
theorem throwingRun_replays :
    ((launchSystem 64 Nat String 1).replay (.start 1 1) throwingRun).isSome = true := by
  decide +kernel

/-- The configuration after the run. -/
def thrown : LaunchConfig 64 Nat String := .after 1 1 throwingRun throwingRun_replays

/-- There is a launch in it. -/
theorem thrown_launched : thrown.launches[0]?.isSome = true := by decide +kernel

/-- The worker can go on from it. -/
theorem thrown_continues : ((launchSystem 64 Nat String 1).replay thrown
    (List.replicate 10 (.pool (.run 0 0)))).isSome = true := by
  decide +kernel

/-- The configuration after the worker has gone on. -/
def continued : LaunchConfig 64 Nat String :=
  ((launchSystem 64 Nat String 1).replay thrown (List.replicate 10 (.pool (.run 0 0)))).get
    thrown_continues

/-- There is a chunk of the launch in it. -/
theorem continued_chunk : (continued.chunks 1).isSome = true := by decide +kernel

/-- After the run the launch is ready; when the worker has gone on, no kernel of it is running. -/
theorem thrown_over : ((continued.chunks 1).get continued_chunk).kernel = none := by
  have ready : thrown.pool.runtime.heap.Decided 2 := by decide +kernel
  have joined : (thrown.launches[0]?.get thrown_launched).future = some 2 := by decide +kernel
  have own : ((continued.chunks 1).get continued_chunk).launch = 0 := by decide +kernel
  exact (LaunchConfig.launch_over (LaunchConfig.reachable_after _)
    (Option.some_get thrown_launched).symm joined ready (Option.some_get thrown_continues).symm 1
    _ (Option.some_get continued_chunk).symm own).1

end Azul.Compute
