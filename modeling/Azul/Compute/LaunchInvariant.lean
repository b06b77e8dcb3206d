import Azul.Compute.Launch

/-!
# The invariant of launches

The tasks of a launch are the turns of its loop so far, the future that `WaitFor` returns is the
`WhenAll` of all of them, the calls of the kernel in a chunk are the turns of the loop of its
lambda, and a kernel only runs inside the callable of its task. A launch step is a step of the pool,
a change of these records, or both, so there is one lemma for a step of the pool and one for each
kind of change.
-/

namespace Azul.Compute

open Azul.Foundation Azul.Async

variable {w : Nat} {V ε : Type}

/-! ## Loops that have not ended -/

/-- A loop has run its body for the visited values of its variable, which now is `i`. -/
inductive Visited (bound step start : SizeT w) : List (SizeT w) → SizeT w → Prop
  | start : Visited bound step start [] start
  | next {visited i} (before : Visited bound step start visited i) (continues : i < bound) :
      Visited bound step start (visited ++ [i]) (i + step)

/-- What is left of a loop is the loop from the value it has come to. -/
theorem Visited.forLoop {bound step start i : SizeT w} {visited : List (SizeT w)}
    (come : Visited bound step start visited i) (fuel : Nat) :
    forLoop bound step (visited.length + fuel) start =
      (forLoop bound step fuel i).map (visited ++ ·) := by
  induction come generalizing fuel with
  | start => simp
  | @next visited i _ continues ih =>
    rw [List.length_append, List.length_singleton, Nat.add_assoc, Nat.add_comm 1, ih,
      Compute.forLoop, if_pos continues]
    cases Compute.forLoop bound step fuel (i + step) <;> simp

/-- More fuel does not change where a loop ends. -/
theorem forLoop_more {bound step i : SizeT w} {fuel : Nat} {visited : List (SizeT w)}
    (ends : forLoop bound step fuel i = some visited) (more : Nat) :
    forLoop bound step (fuel + more) i = some visited := by
  induction fuel generalizing i visited with
  | zero => cases ends
  | succ fuel ih =>
    rw [Nat.add_right_comm, forLoop]
    rw [forLoop] at ends
    split_ifs at ends ⊢ with continues
    · obtain ⟨rest, rested, same⟩ := Option.map_eq_some_iff.mp ends
      rw [ih rested, Option.map_some, same]
    · exact ends

/-- A loop that has come to the end of its condition has visited what the whole loop visits. -/
theorem Visited.ended {bound step start i : SizeT w} {visited all : List (SizeT w)}
    (come : Visited bound step start visited i) (ended : ¬ i < bound) {fuel : Nat}
    (whole : Compute.forLoop bound step fuel start = some all) : visited = all := by
  have stops : Compute.forLoop bound step 1 i = some [] := by
    rw [Compute.forLoop, if_neg ended]
  have here := come.forLoop 1
  rw [stops, Option.map_some, List.append_nil] at here
  have first := forLoop_more here fuel
  have second := forLoop_more whole (visited.length + 1)
  rw [Nat.add_comm, second] at first
  exact (Option.some.inj first).symm

/-! ## Launches and chunks -/

/-- The turns of the loop of `Execute` so far have submitted the lambdas of the launch. -/
def Launch.Loop (threadCount : SizeT w) (launch : Launch w) : Prop :=
  ∃ visited,
    Visited launch.work.workItems (launch.workItemsPerTask threadCount) 0 visited launch.i ∧
    launch.tasks = visited.map fun i => launch.work.task i
      (stdMin (launch.workItemsPerTask threadCount) (launch.work.workItems - i))

/-- A call of the kernel reads the ids that a lambda sets for a value of its variable. -/
def Task.Reads (task : Task w) (j : SizeT w) (globalIndex : GlobalIndex w) : Prop :=
  ∃ left, globalIndex = task.setIds j left

/-- The turns of the loop of a lambda so far have called the kernel, which has returned. -/
structure Chunk.Loop (chunk : Chunk w) : Prop where
  visited : ∃ visited, Visited (chunk.task.start + chunk.task.count) 1 chunk.task.start visited
      chunk.j ∧ List.Forall₂ chunk.task.Reads visited chunk.returned
  kernel : ∀ globalIndex, chunk.kernel = some globalIndex →
    chunk.continues ∧ chunk.task.Reads chunk.j globalIndex

/-- The loop of a lambda has ended. -/
structure Chunk.Completed (chunk : Chunk w) : Prop where
  idle : chunk.kernel = none
  ended : ¬ chunk.continues

/-- The loop of a new launch has not begun. -/
theorem Launch.Loop.new (threadCount : SizeT w) (work : WorkSize w) :
    (Launch.new work).Loop threadCount := ⟨[], .start, rfl⟩

/-- A turn of the loop of `Execute`. -/
theorem Launch.Loop.submitted {threadCount : SizeT w} {launch : Launch w}
    (loop : launch.Loop threadCount) (continues : launch.i < launch.work.workItems)
    (promise : StateId) : (launch.submitted threadCount promise).Loop threadCount := by
  obtain ⟨visited, come, tasks⟩ := loop
  refine ⟨visited ++ [launch.i], come.next continues, ?_⟩
  rw [Launch.submitted, List.map_append, List.map_singleton]
  exact congrArg (· ++ [launch.task threadCount]) tasks

/-- The lambdas of a launch whose loop has ended are those of its overload. -/
theorem Launch.Loop.ended {threadCount : SizeT w} {launch : Launch w}
    (loop : launch.Loop threadCount) (ended : ¬ launch.i < launch.work.workItems) {fuel : Nat}
    {tasks : List (Task w)} (whole : launch.work.execute threadCount fuel = some tasks) :
    launch.tasks = tasks := by
  obtain ⟨visited, come, submitted⟩ := loop
  rw [WorkSize.execute_eq] at whole
  obtain ⟨all, ends, same⟩ := Option.map_eq_some_iff.mp whole
  rw [submitted, ← same, come.ended ended ends]
  rfl

namespace Chunk.Loop

variable {chunk : Chunk w}

/-- The loop of a lambda that was not called has not begun. -/
theorem new (launch : Nat) (task : Task w) : (Chunk.new launch task).Loop where
  visited := ⟨[], .start, .nil⟩
  kernel _ calling := by cases calling

/-- A call of the kernel. -/
theorem call (loop : chunk.Loop) (continues : chunk.continues) (left : GlobalIndex w) :
    (chunk.call (chunk.task.setIds chunk.j left)).Loop where
  visited := loop.visited
  kernel _ calling := ⟨continues, left, (Option.some.inj calling).symm⟩

/-- A normal return of the kernel. -/
theorem next (loop : chunk.Loop) {globalIndex : GlobalIndex w}
    (calling : chunk.kernel = some globalIndex) : (chunk.next globalIndex).Loop where
  visited := by
    obtain ⟨visited, come, reads⟩ := loop.visited
    obtain ⟨continues, reading⟩ := loop.kernel globalIndex calling
    exact ⟨visited ++ [chunk.j], come.next continues,
      List.rel_append reads (.cons reading .nil)⟩
  kernel _ calling := by cases calling

/-- An exception of the kernel. -/
theorem thrown (loop : chunk.Loop) : chunk.thrown.Loop where
  visited := loop.visited
  kernel _ calling := by cases calling

/-- When the loop of a lambda has ended, the kernel has returned from all its calls. -/
theorem completed (loop : chunk.Loop) (completed : chunk.Completed) {fuel : Nat}
    {visited : List (SizeT w)}
    (whole : forLoop (chunk.task.start + chunk.task.count) 1 fuel chunk.task.start = some visited) :
    List.Forall₂ chunk.task.Reads visited chunk.returned := by
  obtain ⟨sofar, come, reads⟩ := loop.visited
  rwa [come.ended completed.ended whole] at reads

end Chunk.Loop

namespace LaunchConfig

/-- The invariant of a program that launches kernels. -/
structure Ok (workers : Nat) (σ : LaunchConfig w V ε) : Prop where
  reached : (poolSystem V ε workers).Reachable σ.pool
  frames : ∀ thread frame, σ.frames thread = some frame →
    ∃ launch, σ.launches[frame.launch]? = some launch ∧
      (frame.phase ≠ .waitFor → launch.future = none) ∧
      (frame.phase = .execute → launch.i < launch.work.workItems)
  apart : ∀ first second one two, σ.frames first = some one → σ.frames second = some two →
    one.launch = two.launch → first = second
  threads : ∀ (l : Nat) (launch : Launch w), σ.launches[l]? = some launch →
    threadCount w workers ≠ 0
  loops : ∀ (l : Nat) (launch : Launch w), σ.launches[l]? = some launch →
    launch.Loop (threadCount w workers)
  future : ∀ (l : Nat) (launch : Launch w) f, σ.launches[l]? = some launch →
    launch.future = some f →
    ¬ launch.i < launch.work.workItems ∧
      σ.pool.runtime.heap.origin f = some (.whenAll launch.taskResults)
  results : ∀ (l : Nat) (launch : Launch w), σ.launches[l]? = some launch →
    List.Forall₂ (fun p task => ∃ chunk, σ.chunks p = some chunk ∧ chunk.launch = l ∧
      chunk.task = task) launch.taskResults launch.tasks
  chunk : ∀ p chunk, σ.chunks p = some chunk → chunk.Loop ∧
    (∃ task ∈ σ.pool.pool.made, task.promise = p) ∧
    ∃ launch, σ.launches[chunk.launch]? = some launch ∧ p ∈ launch.taskResults
  running : ∀ p chunk, σ.chunks p = some chunk → chunk.kernel ≠ none →
    ∃ task : Async.Task, task.promise = p ∧ .external (.func task) ∈ σ.pool.runtime.pending
  ended : ∀ p chunk value, σ.chunks p = some chunk →
    σ.pool.pool.results p = some (.ok value) → chunk.Completed

/-- The chunks after the records of one were changed. -/
theorem updated_cases {p q : StateId} {chunk other : Chunk w} {chunks : StateId → Option (Chunk w)}
    (now : Function.update chunks p (some chunk) q = some other) :
    (q = p ∧ other = chunk) ∨ chunks q = some other := by
  by_cases same : q = p
  · subst same
    rw [Function.update_self] at now
    exact Or.inl ⟨rfl, (Option.some.inj now).symm⟩
  · rw [Function.update_of_ne same] at now
    exact Or.inr now

namespace Ok

variable {workers : Nat} {σ : LaunchConfig w V ε}

/-- A step of the pool keeps the invariant, unless it ends the callable of a chunk in another way
than the loop of its lambda does. -/
theorem poolStep (ok : σ.Ok workers) {event : PoolEvent V ε} {pool : PoolConfig V ε}
    (stepped : σ.pool.step workers event = some pool)
    (returns : ∀ thread result task base, event = .funcReturn thread result →
      σ.pool.runtime.threads[thread]? = some (.external (.func task) :: base) →
      ∀ chunk, σ.chunks task.promise = some chunk →
        chunk.kernel = none ∧ ∀ value, result = .ok value → chunk.Completed) :
    ({ σ with pool := pool } : LaunchConfig w V ε).Ok workers := by
  have poolOk := PoolConfig.ok ok.reached
  have kind := poolOk.stepped stepped
  constructor
  case reached => exact ok.reached.next stepped
  case frames => exact ok.frames
  case apart => exact ok.apart
  case threads => exact ok.threads
  case loops => exact ok.loops
  case future =>
    intro l launch f found made
    obtain ⟨ended, origin⟩ := ok.future l launch f found made
    exact ⟨ended, (poolOk.later kind).origin f _ origin⟩
  case results => exact ok.results
  case chunk =>
    intro p chunk found
    obtain ⟨loop, ⟨task, made, promise⟩, launch⟩ := ok.chunk p chunk found
    exact ⟨loop, ⟨task, kind.made made, promise⟩, launch⟩
  case running =>
    intro p chunk found calling
    obtain ⟨task, rfl, pending⟩ := ok.running p chunk found calling
    rcases kind.func pending with pending | ⟨thread, result, base, rfl, top⟩
    · exact ⟨task, rfl, pending⟩
    · exact absurd (returns thread result task base rfl top chunk found).1 calling
  case ended =>
    intro p chunk value found returned
    rcases kind.results with same | ⟨thread, result, task, base, rfl, top, set⟩
    · exact ok.ended p chunk value found (congrFun same p ▸ returned)
    · change pool.pool.results p = _ at returned
      rw [set] at returned
      by_cases own : p = task.promise
      · subst own
        rw [Function.update_self] at returned
        exact (returns thread result task base rfl top chunk found).2 value
          (Option.some.inj returned)
      · rw [Function.update_of_ne own] at returned
        exact ok.ended p chunk value found returned

/-- The records of one chunk may change as its loop goes on. -/
theorem changeChunk (ok : σ.Ok workers) {p : StateId} {before chunk : Chunk w}
    (found : σ.chunks p = some before) (loop : chunk.Loop) (launch : chunk.launch = before.launch)
    (task : chunk.task = before.task)
    (running : chunk.kernel ≠ none →
      ∃ task : Async.Task, task.promise = p ∧ .external (.func task) ∈ σ.pool.runtime.pending)
    (unended : ¬ before.Completed) (globalIndex : Nat → GlobalIndex w) :
    ({ σ with
      globalIndex := globalIndex
      chunks := Function.update σ.chunks p (some chunk) } : LaunchConfig w V ε).Ok workers := by
  constructor
  case reached => exact ok.reached
  case frames => exact ok.frames
  case apart => exact ok.apart
  case threads => exact ok.threads
  case loops => exact ok.loops
  case future => exact ok.future
  case results =>
    intro l other listed
    refine (ok.results l other listed).imp ?_
    rintro q lambda ⟨old, was, ofLaunch, ofTask⟩
    by_cases same : q = p
    · subst same
      cases found.symm.trans was
      exact ⟨chunk, Function.update_self _ _ _, launch.trans ofLaunch, task.trans ofTask⟩
    · exact ⟨old, (Function.update_of_ne same _ _).trans was, ofLaunch, ofTask⟩
  case chunk =>
    intro q other now
    rcases updated_cases now with ⟨rfl, rfl⟩ | old
    · obtain ⟨-, made, whole⟩ := ok.chunk q before found
      exact ⟨loop, made, launch ▸ whole⟩
    · exact ok.chunk q other old
  case running =>
    intro q other now calling
    rcases updated_cases now with ⟨rfl, rfl⟩ | old
    · exact running calling
    · exact ok.running q other old calling
  case ended =>
    intro q other value now returned
    rcases updated_cases now with ⟨rfl, rfl⟩ | old
    · exact absurd (ok.ended q before value found returned) unended
    · exact ok.ended q other value old returned

/-- A thread may enter a phase of a launch that no other thread is in, or leave `Execute`. -/
theorem changeFrame (ok : σ.Ok workers) {thread : Nat} {changed : Option Frame}
    (fits : ∀ frame, changed = some frame →
      (∃ launch, σ.launches[frame.launch]? = some launch ∧
        (frame.phase ≠ .waitFor → launch.future = none) ∧
        (frame.phase = .execute → launch.i < launch.work.workItems)) ∧
      ∀ other two, σ.frames other = some two → two.launch = frame.launch → other = thread) :
    ({ σ with frames := Function.update σ.frames thread changed } : LaunchConfig w V ε).Ok
      workers := by
  have updated {other : Nat} {frame : Frame}
      (now : Function.update σ.frames thread changed other = some frame) :
      (other = thread ∧ changed = some frame) ∨ (other ≠ thread ∧ σ.frames other = some frame) := by
    by_cases same : other = thread
    · subst same
      rw [Function.update_self] at now
      exact Or.inl ⟨rfl, now⟩
    · rw [Function.update_of_ne same] at now
      exact Or.inr ⟨same, now⟩
  constructor
  case frames =>
    intro other frame now
    rcases updated now with ⟨rfl, entered⟩ | ⟨-, old⟩
    · exact (fits frame entered).1
    · exact ok.frames other frame old
  case apart =>
    intro first second one two now also same
    rcases updated now with ⟨rfl, entered⟩ | ⟨-, old⟩
    · rcases updated also with ⟨rfl, -⟩ | ⟨-, old⟩
      · rfl
      · exact ((fits one entered).2 second two old same.symm).symm
    · rcases updated also with ⟨rfl, entered⟩ | ⟨-, kept⟩
      · exact (fits two entered).2 first one old same
      · exact ok.apart first second one two old kept same
  case reached => exact ok.reached
  case threads => exact ok.threads
  case loops => exact ok.loops
  case future => exact ok.future
  case results => exact ok.results
  case chunk => exact ok.chunk
  case running => exact ok.running
  case ended => exact ok.ended

/-- The launch at a position after one was changed. -/
theorem set_cases {launches : List (Launch w)} {l k : Nat} {changed other : Launch w}
    (found : (launches.set l changed)[k]? = some other) :
    (k = l ∧ other = changed) ∨ (k ≠ l ∧ launches[k]? = some other) := by
  by_cases same : k = l
  · subst same
    have bound : k < launches.length := by
      have := (List.getElem?_eq_some_iff.mp found).1
      rwa [List.length_set] at this
    rw [List.getElem?_set_self bound] at found
    exact Or.inl ⟨rfl, (Option.some.inj found).symm⟩
  · rw [List.getElem?_set_ne (Ne.symm same)] at found
    exact Or.inr ⟨same, found⟩

/-- A launch is still there after one was changed. -/
theorem set_found {launches : List (Launch w)} {l k : Nat} {changed before other : Launch w}
    (known : launches[l]? = some before) (found : launches[k]? = some other) :
    (launches.set l changed)[k]? = some (if k = l then changed else other) := by
  have bound := (List.getElem?_eq_some_iff.mp known).1
  split_ifs with same
  · subst same
    rw [List.getElem?_set_self bound]
  · rw [List.getElem?_set_ne (Ne.symm same), found]

/-- A launch may begin. -/
theorem addLaunch (ok : σ.Ok workers) (work : WorkSize w) (threads : threadCount w workers ≠ 0) :
    ({ σ with launches := σ.launches ++ [.new work] } : LaunchConfig w V ε).Ok workers := by
  have old {l : Nat} {launch : Launch w} (found : σ.launches[l]? = some launch) :
      (σ.launches ++ [.new work])[l]? = some launch := by
    rwa [List.getElem?_append_left (List.getElem?_eq_some_iff.mp found).1]
  have either {l : Nat} {launch : Launch w}
      (found : (σ.launches ++ [.new work])[l]? = some launch) :
      σ.launches[l]? = some launch ∨ launch = .new work := by
    rw [List.getElem?_append] at found
    split_ifs at found
    · exact Or.inl found
    · exact Or.inr (List.mem_singleton.mp (List.mem_of_getElem? found))
  constructor
  case reached => exact ok.reached
  case frames =>
    intro thread frame entered
    obtain ⟨launch, found, fits⟩ := ok.frames thread frame entered
    exact ⟨launch, old found, fits⟩
  case apart => exact ok.apart
  case threads => exact fun _ _ _ => threads
  case loops =>
    intro l launch found
    rcases either found with found | rfl
    · exact ok.loops l launch found
    · exact .new _ work
  case future =>
    intro l launch f found made
    rcases either found with found | rfl
    · exact ok.future l launch f found made
    · cases made
  case results =>
    intro l launch found
    rcases either found with found | rfl
    · exact ok.results l launch found
    · exact .nil
  case chunk =>
    intro p chunk known
    obtain ⟨loop, made, launch, found, listed⟩ := ok.chunk p chunk known
    exact ⟨loop, made, launch, old found, listed⟩
  case running => exact ok.running
  case ended => exact ok.ended

/-- `WaitFor` may join the futures of a launch whose loop has ended. -/
theorem setFuture (ok : σ.Ok workers) {l : Nat} {launch : Launch w} {f : StateId}
    (known : σ.launches[l]? = some launch) (ended : ¬ launch.i < launch.work.workItems)
    (origin : σ.pool.runtime.heap.origin f = some (.whenAll launch.taskResults))
    (phase : ∀ thread frame, σ.frames thread = some frame → frame.launch = l →
      frame.phase = .waitFor) :
    ({ σ with launches := σ.launches.set l { launch with future := some f } } :
      LaunchConfig w V ε).Ok workers := by
  constructor
  case reached => exact ok.reached
  case frames =>
    intro thread frame entered
    obtain ⟨other, found, fits⟩ := ok.frames thread frame entered
    refine ⟨_, set_found known found, ?_⟩
    split_ifs with same
    · have waiting := phase thread frame entered same
      rw [waiting]
      exact ⟨fun clash => absurd rfl clash, fun clash => by cases clash⟩
    · exact fits
  case apart => exact ok.apart
  case threads => exact fun _ _ _ => ok.threads l launch known
  case loops =>
    intro k other found
    rcases set_cases found with ⟨rfl, rfl⟩ | ⟨-, found⟩
    · exact ok.loops k launch known
    · exact ok.loops k other found
  case future =>
    intro k other g found made
    rcases set_cases found with ⟨rfl, rfl⟩ | ⟨-, found⟩
    · cases made
      exact ⟨ended, origin⟩
    · exact ok.future k other g found made
  case results =>
    intro k other found
    rcases set_cases found with ⟨rfl, rfl⟩ | ⟨-, found⟩
    · exact ok.results k launch known
    · exact ok.results k other found
  case chunk =>
    intro p chunk recorded
    obtain ⟨loop, made, other, found, listed⟩ := ok.chunk p chunk recorded
    refine ⟨loop, made, _, set_found known found, ?_⟩
    split_ifs with same
    · subst same
      cases known.symm.trans found
      exact listed
    · exact listed
  case running => exact ok.running
  case ended => exact ok.ended

/-- The pool may make the task of a chunk. -/
theorem addChunk (ok : σ.Ok workers) {l : Nat} {launch : Launch w} {p : StateId}
    (known : σ.launches[l]? = some launch) (continues : launch.i < launch.work.workItems)
    (open_ : launch.future = none) (fresh : σ.chunks p = none)
    (made : ∃ task ∈ σ.pool.pool.made, task.promise = p) (unset : σ.pool.pool.results p = none)
    (phase : ∀ thread frame, σ.frames thread = some frame → frame.launch = l →
      frame.phase ≠ .execute) :
    ({ σ with
      launches := σ.launches.set l (launch.submitted (threadCount w workers) p)
      chunks := Function.update σ.chunks p
        (some (.new l (launch.task (threadCount w workers)))) } :
      LaunchConfig w V ε).Ok workers := by
  have kept {q : StateId} {chunk : Chunk w} (recorded : σ.chunks q = some chunk) : q ≠ p := by
    rintro rfl
    rw [fresh] at recorded
    cases recorded
  have relisted {tasks : List (Task w)} {results : List StateId} {k : Nat}
      (listed : List.Forall₂ (fun q task => ∃ chunk, σ.chunks q = some chunk ∧
        chunk.launch = k ∧ chunk.task = task) results tasks) :
      List.Forall₂ (fun q task => ∃ chunk, Function.update σ.chunks p
        (some (.new l (launch.task (threadCount w workers)))) q = some chunk ∧
          chunk.launch = k ∧ chunk.task = task) results tasks := by
    refine listed.imp ?_
    rintro q lambda ⟨chunk, recorded, same⟩
    exact ⟨chunk, (Function.update_of_ne (kept recorded) _ _).trans recorded, same⟩
  constructor
  case reached => exact ok.reached
  case frames =>
    intro thread frame entered
    obtain ⟨other, found, fits⟩ := ok.frames thread frame entered
    refine ⟨_, set_found known found, ?_⟩
    split_ifs with same
    · exact ⟨fun _ => open_, fun executing => absurd executing (phase thread frame entered same)⟩
    · exact fits
  case apart => exact ok.apart
  case threads => exact fun _ _ _ => ok.threads l launch known
  case loops =>
    intro k other found
    rcases set_cases found with ⟨rfl, rfl⟩ | ⟨-, found⟩
    · exact (ok.loops k launch known).submitted continues p
    · exact ok.loops k other found
  case future =>
    intro k other g found joined
    rcases set_cases found with ⟨rfl, rfl⟩ | ⟨-, found⟩
    · cases open_.symm.trans joined
    · exact ok.future k other g found joined
  case results =>
    intro k other found
    rcases set_cases found with ⟨rfl, rfl⟩ | ⟨-, found⟩
    · refine List.rel_append (relisted (ok.results k launch known)) (.cons ?_ .nil)
      exact ⟨_, Function.update_self _ _ _, rfl, rfl⟩
    · exact relisted (ok.results k other found)
  case chunk =>
    intro q chunk now
    rcases updated_cases now with ⟨rfl, rfl⟩ | recorded
    · refine ⟨.new _ _, made, _, set_found known known, ?_⟩
      have here : (Chunk.new l (launch.task (threadCount w workers))).launch = l := rfl
      rw [if_pos here]
      exact List.mem_append_right _ (List.mem_singleton_self q)
    · obtain ⟨loop, made, other, found, listed⟩ := ok.chunk q chunk recorded
      refine ⟨loop, made, _, set_found known found, ?_⟩
      split_ifs with same
      · subst same
        cases known.symm.trans found
        exact List.mem_append_left _ listed
      · exact listed
  case running =>
    intro q chunk now calling
    rcases updated_cases now with ⟨rfl, rfl⟩ | recorded
    · exact absurd rfl calling
    · exact ok.running q chunk recorded calling
  case ended =>
    intro q chunk value now returned
    rcases updated_cases now with ⟨rfl, rfl⟩ | recorded
    · cases unset.symm.trans returned
    · exact ok.ended q chunk value recorded returned

/-- The only thread in a launch is in the phase that it has entered. -/
theorem phase_of (ok : σ.Ok workers) {thread other : Nat} {frame two : Frame} {phase : Phase}
    (entered : σ.frames thread = some frame)
    (now : Function.update σ.frames thread (some { frame with phase := phase }) other = some two)
    (same : two.launch = frame.launch) : two.phase = phase := by
  by_cases here : other = thread
  · subst here
    rw [Function.update_self] at now
    cases now
    rfl
  · rw [Function.update_of_ne here] at now
    exact absurd (ok.apart other thread two frame now entered same) here

/-- A thread in `Execute` is in a phase that its launch allows. -/
theorem frame_kept (ok : σ.Ok workers) {thread : Nat} {frame : Frame} {launch : Launch w}
    (entered : σ.frames thread = some frame) (found : σ.launches[frame.launch]? = some launch)
    (phase : Phase) (fits : phase ≠ .waitFor → launch.future = none)
    (continues : phase = .execute → launch.i < launch.work.workItems) :
    ({ σ with frames := Function.update σ.frames thread (some { frame with phase := phase }) } :
      LaunchConfig w V ε).Ok workers := by
  refine ok.changeFrame ?_
  rintro changed ⟨⟩
  exact ⟨⟨launch, found, fits, continues⟩, fun other two also same =>
    ok.apart other thread two frame also entered same⟩

end Ok

variable {workers : Nat} {σ σ' : LaunchConfig w V ε}

/-- A step of the pool with new records. -/
theorem withPool_cases {event : PoolEvent V ε} {rest : LaunchConfig w V ε}
    (stepped : σ.withPool workers event rest = some σ') :
    ∃ pool, σ.pool.step workers event = some pool ∧ σ' = { rest with pool := pool } := by
  obtain ⟨pool, taken, rfl⟩ := Option.map_eq_some_iff.mp stepped
  exact ⟨pool, taken, rfl⟩

/-- `Execute` in control of a thread is in one of its launches. -/
theorem control_cases {thread : Nat} {frame : Frame} (control : σ.control thread = some frame) :
    σ.frames thread = some frame := (Option.filter_eq_some_iff.mp control).1

/-- The lambda on top of a thread is the callable of the task whose promise names it. -/
theorem chunkAt_cases {thread : Nat} {p : StateId} {chunk : Chunk w}
    (top : σ.chunkAt thread = some (p, chunk)) :
    σ.chunks p = some chunk ∧ ∃ task : Async.Task, task.promise = p ∧ ∃ base,
      σ.pool.runtime.threads[thread]? = some (.external (.func task) :: base) := by
  unfold chunkAt at top
  split at top
  case h_1 task base found =>
    obtain ⟨chunk, recorded, same⟩ := Option.map_eq_some_iff.mp top
    cases same
    exact ⟨recorded, task, rfl, base, found⟩
  case h_2 => cases top

/-- A thread that is about to make the task of a chunk. -/
theorem submitting_cases {thread : Nat} {frame : Frame} {launch : Launch w}
    (submitting : σ.submitting thread = some (frame, launch)) :
    σ.frames thread = some frame ∧ σ.launches[frame.launch]? = some launch ∧
      frame.phase = .execute ∧ ∃ isVoid dependencies dependency base,
        σ.pool.runtime.threads[thread]? =
          some (.external (.makeTask isVoid dependencies dependency) :: base) := by
  unfold LaunchConfig.submitting at submitting
  split at submitting
  case h_1 frame isVoid dependencies dependency base entered found =>
    obtain ⟨⟨phase, -⟩, known⟩ := Option.ite_none_right_eq_some.mp submitting
    obtain ⟨launch, known, same⟩ := Option.map_eq_some_iff.mp known
    cases same
    exact ⟨entered, known, phase, isVoid, dependencies, dependency, base, found⟩
  case h_2 => cases submitting

namespace Ok

/-- The lambda on top of a thread is running. -/
theorem chunk_pending {thread : Nat} {p : StateId} {chunk : Chunk w}
    (top : σ.chunkAt thread = some (p, chunk)) :
    ∃ task : Async.Task, task.promise = p ∧
      .external (.func task) ∈ σ.pool.runtime.pending := by
  obtain ⟨-, task, promise, base, found⟩ := chunkAt_cases top
  exact ⟨task, promise, Stacks.mem_pending.mpr
    ⟨_, List.mem_of_getElem? found, List.mem_cons_self⟩⟩

/-- The end of the callable of a chunk keeps the invariant, if its kernel is not running and a
normal end is the end of its loop. -/
theorem chunkReturn (ok : σ.Ok workers) {thread : Nat} {p : StateId} {chunk : Chunk w}
    (top : σ.chunkAt thread = some (p, chunk)) {result : Result V ε} {pool : PoolConfig V ε}
    (stepped : σ.pool.step workers (.funcReturn thread result) = some pool)
    (idle : chunk.kernel = none) (normal : ∀ value, result = .ok value → chunk.Completed) :
    ({ σ with pool := pool } : LaunchConfig w V ε).Ok workers := by
  obtain ⟨recorded, task, rfl, base, found⟩ := chunkAt_cases top
  refine ok.poolStep stepped ?_
  rintro _ _ other _ ⟨⟩ also chunk' known
  cases found.symm.trans also
  cases recorded.symm.trans known
  exact ⟨idle, normal⟩

/-- A thread that makes the task of a chunk makes a task that was not there. -/
theorem submitted_fresh (ok : σ.Ok workers) {thread woken : Nat} {frame : Frame}
    {launch : Launch w} {pool : PoolConfig V ε}
    (submitting : σ.submitting thread = some (frame, launch))
    (taken : σ.pool.step workers (.run thread woken) = some pool) :
    (∃ task ∈ pool.pool.made, task.promise = σ.pool.runtime.heap.next) ∧
      σ.chunks σ.pool.runtime.heap.next = none ∧
      pool.pool.results σ.pool.runtime.heap.next = none ∧
      pool.runtime.heap.destroyed σ.pool.runtime.heap.next = false := by
  obtain ⟨-, -, -, isVoid, dependencies, dependency, base, top⟩ := submitting_cases submitting
  have poolOk := PoolConfig.ok ok.reached
  obtain ⟨made, destroyed⟩ := PoolConfig.makeTask_made top taken
  have unmade : ¬ ∃ task ∈ σ.pool.pool.made, task.promise = σ.pool.runtime.heap.next := by
    rintro ⟨task, made, promise⟩
    exact Nat.ne_of_lt (poolOk.promise_lt made) promise
  refine ⟨made, ?_, ?_, ?_⟩
  · by_contra recorded
    obtain ⟨chunk, recorded⟩ := Option.ne_none_iff_exists'.mp recorded
    exact unmade (ok.chunk _ chunk recorded).2.1
  · by_contra returned
    obtain ⟨result, returned⟩ := Option.ne_none_iff_exists'.mp returned
    rcases (poolOk.stepped taken).results with same | ⟨_, _, _, _, clash, -⟩
    · exact unmade (PoolConfig.results_made ok.reached (congrFun same _ ▸ returned))
    · cases clash
  · rw [destroyed]
    exact ((Config.ok poolOk.reached).inv.layout.blank _ (Nat.le_refl _)).destroyed

/-- A step of the pool or of the program keeps the invariant. -/
theorem pool (ok : σ.Ok workers) {event : PoolEvent V ε}
    (stepped : σ.step workers (.pool event) = some σ') : σ'.Ok workers := by
  obtain ⟨allowed, stepped⟩ := Option.ite_none_right_eq_some.mp stepped
  obtain ⟨pool, taken, rfl⟩ := withPool_cases stepped
  have quiet : ({ σ with pool := pool } : LaunchConfig w V ε).Ok workers := by
    refine ok.poolStep taken ?_
    rintro thread result task base rfl top chunk recorded
    have unowned : σ.chunkAt thread = none :=
      Option.isNone_iff_eq_none.mp (Bool.and_eq_true_iff.mp allowed).2
    simp [chunkAt, top, recorded] at unowned
  cases event with
  | run thread woken =>
    simp only [recorded]
    split
    case h_1 frame launch submitting =>
      obtain ⟨entered, known, phase, -⟩ := submitting_cases submitting
      obtain ⟨other, same, open_, continues⟩ := ok.frames thread frame entered
      cases known.symm.trans same
      obtain ⟨made, fresh, unset, -⟩ := ok.submitted_fresh submitting taken
      have submit := quiet.frame_kept entered known .submit (fun _ => open_ (by rw [phase]; decide))
        (fun clash => by cases clash)
      refine submit.addChunk known (continues phase) (open_ (by rw [phase]; decide)) fresh made
        unset ?_
      intro other two now same
      rw [ok.phase_of entered now same]
      decide
    case h_2 => exact quiet
  | _ => exact quiet

/-- The start of a launch keeps the invariant. -/
theorem execute (ok : σ.Ok workers) {thread : Nat} {work : WorkSize w}
    (stepped : σ.step workers (.execute thread work) = some σ') : σ'.Ok workers := by
  simp only [step] at stepped
  split at stepped
  case h_1 stack found =>
    obtain ⟨⟨-, -, -, threads⟩, same⟩ := Option.ite_none_right_eq_some.mp stepped
    cases same
    refine (ok.addLaunch work threads).changeFrame ?_
    rintro frame ⟨⟩
    refine ⟨⟨.new work, ?_, fun _ => rfl, fun clash => by cases clash⟩, ?_⟩
    · exact List.getElem?_concat_length
    · intro other two entered same
      obtain ⟨launch, known, -⟩ := ok.frames other two entered
      have bound := (List.getElem?_eq_some_iff.mp known).1
      rw [same] at bound
      exact absurd bound (Nat.lt_irrefl _)
  case h_2 => cases stepped

/-- A step of `Execute` keeps the invariant. -/
theorem go (ok : σ.Ok workers) {thread : Nat}
    (stepped : σ.step workers (.go thread) = some σ') : σ'.Ok workers := by
  obtain ⟨frame, control, stepped⟩ := Option.bind_eq_some_iff.mp stepped
  obtain ⟨launch, known, stepped⟩ := Option.bind_eq_some_iff.mp stepped
  have entered := control_cases control
  obtain ⟨other, same, open_, -⟩ := ok.frames thread frame entered
  cases known.symm.trans same
  simp only [LaunchConfig.go] at stepped
  split at stepped
  case h_1 phase =>
    have unjoined := open_ (by rw [phase]; decide)
    split_ifs at stepped with continues
    · obtain ⟨pool, taken, rfl⟩ := withPool_cases stepped
      have executed := ok.poolStep taken (by rintro _ _ _ _ ⟨⟩)
      exact executed.frame_kept entered known .execute (fun _ => unjoined) fun _ => continues
    · obtain ⟨pool, taken, rfl⟩ := withPool_cases stepped
      have called := ok.poolStep taken (by rintro _ _ _ _ ⟨⟩)
      have waiting := called.frame_kept entered known .waitFor (fun clash => absurd rfl clash)
        fun clash => by cases clash
      exact waiting.setFuture known continues (PoolConfig.whenAll_made taken)
        fun other two now same => ok.phase_of entered now same
  case h_2 => cases stepped
  case h_3 =>
    cases stepped
    exact ok.changeFrame fun _ clash => by cases clash

/-- A step of the lambda of a chunk keeps the invariant. -/
theorem kernel (ok : σ.Ok workers) {thread : Nat}
    (stepped : σ.step workers (.kernel thread) = some σ') : σ'.Ok workers := by
  simp only [step] at stepped
  split at stepped
  case h_1 p chunk _ top =>
    obtain ⟨idle, stepped⟩ := Option.ite_none_right_eq_some.mp stepped
    have recorded := (chunkAt_cases top).1
    simp only [LaunchConfig.kernel] at stepped
    split_ifs at stepped with continues
    · cases stepped
      exact ok.changeChunk recorded ((ok.chunk p chunk recorded).1.call continues _) rfl rfl
        (fun _ => chunk_pending top) (fun completed => completed.ended continues) _
    · obtain ⟨pool, taken, rfl⟩ := withPool_cases stepped
      exact ok.chunkReturn top taken idle fun _ _ => ⟨idle, continues⟩
  case h_2 => cases stepped

/-- The end of a call of the kernel keeps the invariant. -/
theorem kernelReturn (ok : σ.Ok workers) {thread : Nat} {thrown : Option (ExceptionPtr ε)}
    (stepped : σ.step workers (.kernelReturn thread thrown) = some σ') : σ'.Ok workers := by
  simp only [step] at stepped
  split at stepped
  case h_1 p chunk _ top =>
    obtain ⟨globalIndex, calling, stepped⟩ := Option.bind_eq_some_iff.mp stepped
    have recorded := (chunkAt_cases top).1
    have loop := (ok.chunk p chunk recorded).1
    have unended : ¬ chunk.Completed := fun completed => by
      rw [completed.idle] at calling
      cases calling
    cases thrown with
    | none =>
      cases stepped
      exact ok.changeChunk recorded (loop.next calling) rfl rfl (fun clash => absurd rfl clash)
        unended _
    | some error =>
      obtain ⟨pool, taken, rfl⟩ := withPool_cases stepped
      have left := ok.changeChunk recorded loop.thrown rfl rfl (fun clash => absurd rfl clash)
        unended σ.globalIndex
      obtain ⟨-, task, rfl, base, found⟩ := chunkAt_cases top
      refine left.poolStep taken ?_
      rintro _ _ other _ ⟨⟩ also chunk' known
      cases found.symm.trans also
      have same := (Function.update_self task.promise (some chunk.thrown) σ.chunks).symm.trans known
      cases same
      exact ⟨rfl, fun value clash => by cases clash⟩
  case h_2 => cases stepped

/-- Every step keeps the invariant. -/
theorem step (ok : σ.Ok workers) {event : LaunchEvent w V ε}
    (stepped : σ.step workers event = some σ') : σ'.Ok workers := by
  cases event with
  | pool event => exact ok.pool stepped
  | execute thread work => exact ok.execute stepped
  | go thread => exact ok.go stepped
  | kernel thread => exact ok.kernel stepped
  | kernelReturn thread thrown => exact ok.kernelReturn stepped

/-- The invariant holds when nothing was launched. -/
theorem start (outside : Nat) :
    (LaunchConfig.start workers outside : LaunchConfig w V ε).Ok workers where
  reached := .start ⟨outside, rfl⟩
  frames _ _ entered := by cases entered
  apart _ _ _ _ entered := by cases entered
  threads _ _ found := by simp [LaunchConfig.start] at found
  loops _ _ found := by simp [LaunchConfig.start] at found
  future _ _ _ found := by simp [LaunchConfig.start] at found
  results _ _ found := by simp [LaunchConfig.start] at found
  chunk _ _ recorded := by cases recorded
  running _ _ recorded := by cases recorded
  ended _ _ _ recorded := by cases recorded

end Ok

/-- Every reachable configuration is in order. -/
theorem ok (reached : (launchSystem w V ε workers).Reachable σ) : σ.Ok workers :=
  reached.invariant (fun _ ⟨outside, same⟩ => same ▸ Ok.start outside)
    fun _ _ _ _ ok stepped => ok.step stepped

/-- The configuration that a replayable run reaches. -/
def after (workers outside : Nat) (events : List (LaunchEvent w V ε))
    (replays : ((launchSystem w V ε workers).replay (start workers outside) events).isSome = true) :
    LaunchConfig w V ε :=
  ((launchSystem w V ε workers).replay (start workers outside) events).get replays

/-- A replayable run reaches a reachable configuration. -/
theorem reachable_after {workers outside : Nat} {events : List (LaunchEvent w V ε)}
    (replays : ((launchSystem w V ε workers).replay (start workers outside) events).isSome = true) :
    (launchSystem w V ε workers).Reachable (after workers outside events replays) :=
  have initial : (launchSystem w V ε workers).initial (start workers outside) := ⟨outside, rfl⟩
  System.Reachable.of_replay initial replays

end LaunchConfig

end Azul.Compute
