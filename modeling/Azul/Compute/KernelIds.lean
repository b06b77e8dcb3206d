import Azul.Async.WorkerStacks
import Azul.Compute.LaunchFailures

/-!
# The ids that a kernel reads

`global_index` belongs to a thread, not to a launch: a chunk of a launch writes it in the dimensions
of the launch, and a kernel reads in the others what an earlier launch has left there. So a kernel
reads the ids of its own work item as long as the thread that runs it has zeros there.
-/

namespace Azul.Compute

open Azul.Foundation Azul.Async

variable {w : Nat} {V ε : Type}

namespace WorkSize

/-- The number of dimensions. -/
def dims : WorkSize w → Nat
  | .one _ _ => 1
  | .two _ _ => 2
  | .three _ _ => 3

/-- The ids of a work item: what its launch says in the dimensions that it has, and zero in the
others. -/
def ids (work : WorkSize w) (j : SizeT w) : GlobalIndex w :=
  (work.task 0 0).setIds j fun _ => 0

/-- A chunk sets the ids of a work item in the dimensions of its launch only. -/
theorem setIds_apply (work : WorkSize w) (i count j : SizeT w) (left : GlobalIndex w)
    (dim : Fin 3) :
    (work.task i count).setIds j left dim =
      if dim.val < work.dims then work.ids j dim else left dim := by
  cases work with
  | one | two | three =>
    match dim with
    | 0 => rfl
    | 1 => rfl
    | 2 => rfl

/-- The dimensions that a launch does not have read zero. -/
theorem ids_beyond (work : WorkSize w) (j : SizeT w) {dim : Fin 3}
    (beyond : work.dims ≤ dim.val) : work.ids j dim = 0 := by
  have ids := work.setIds_apply 0 0 j (fun _ => 0) dim
  rw [if_neg (Nat.not_lt.mpr beyond)] at ids
  exact ids

end WorkSize

namespace LaunchConfig

variable {workers : Nat} {σ σ' : LaunchConfig w V ε}

/-- Every kernel that runs reads the ids of its own work item. -/
def ReadsOwn (σ : LaunchConfig w V ε) : Prop :=
  ∀ (thread : Nat) (stack : List (Instr V ε PoolCode)) (task : Async.Task) (chunk : Chunk w)
    (launch : Launch w),
    σ.pool.runtime.threads[thread]? = some stack → .external (.func task) ∈ stack →
    σ.chunks task.promise = some chunk → chunk.kernel ≠ none →
    σ.launches[chunk.launch]? = some launch →
    ∀ dim, getGlobalId (σ.globalIndex thread) dim = launch.work.ids chunk.j dim

/-- A thread that is about to call a kernel has zeros in the dimensions that its launch does not
have. -/
def Cleared (σ : LaunchConfig w V ε) : LaunchEvent w V ε → Prop
  | .kernel thread =>
    ∀ top ∈ σ.chunkAt thread, top.2.continues → ∀ launch ∈ σ.launches[top.2.launch]?,
      ∀ dim : Fin 3, launch.work.dims ≤ dim.val → σ.globalIndex thread dim = 0
  | _ => True

instance (σ : LaunchConfig w V ε) : (event : LaunchEvent w V ε) → Decidable (Cleared σ event)
  | .kernel thread =>
    inferInstanceAs (Decidable (∀ top ∈ σ.chunkAt thread, top.2.continues →
      ∀ launch ∈ σ.launches[top.2.launch]?, ∀ dim : Fin 3, launch.work.dims ≤ dim.val →
        σ.globalIndex thread dim = 0))
  | .pool _ | .execute _ _ | .go _ | .kernelReturn _ _ => inferInstanceAs (Decidable True)

/-- What a step that calls no kernel leaves to the kernels that run. -/
structure Leaves (σ : LaunchConfig w V ε) (event : LaunchEvent w V ε) (σ' : LaunchConfig w V ε) :
    Prop where
  index : σ'.globalIndex = σ.globalIndex
  chunks : ∀ p chunk, σ'.chunks p = some chunk → chunk.kernel ≠ none → σ.chunks p = some chunk
  launches : ∀ (l : Nat) (launch' : Launch w), σ'.launches[l]? = some launch' →
    (∃ launch, σ.launches[l]? = some launch ∧ launch'.work = launch.work) ∨
      (σ.launches[l]? = none ∧ ∃ thread, event = .execute thread launch'.work)
  threads : ∀ (t : Nat) (stack : List (Instr V ε PoolCode)) (task : Async.Task) (chunk : Chunk w),
    σ'.pool.runtime.threads[t]? = some stack → .external (.func task) ∈ stack →
    σ.chunks task.promise = some chunk → chunk.kernel ≠ none →
    ∃ before, σ.pool.runtime.threads[t]? = some before ∧ .external (.func task) ∈ before

variable {event : LaunchEvent w V ε}

/-- A launch keeps its arguments. -/
theorem Leaves.work (leaves : Leaves σ event σ') {l : Nat} {launch launch' : Launch w}
    (before : σ.launches[l]? = some launch) (after : σ'.launches[l]? = some launch') :
    launch'.work = launch.work := by
  cases leaves.launches l launch' after with
  | inl kept =>
    obtain ⟨same, known, work⟩ := kept
    rw [before] at known
    rw [work, Option.some.inj known]
  | inr added =>
    rw [before] at added
    cases added.1

theorem Leaves.readsOwn (leaves : Leaves σ event σ') (ok : σ.Ok workers) (reads : σ.ReadsOwn) :
    σ'.ReadsOwn := by
  intro thread stack task chunk launch found inside recorded running launched dim
  have before := leaves.chunks _ _ recorded running
  obtain ⟨_, _, old, known, _⟩ := ok.chunk _ _ before
  obtain ⟨earlier, found, inside⟩ := leaves.threads _ _ _ _ found inside before running
  rw [leaves.index, leaves.work known launched]
  exact reads thread earlier task chunk old found inside before running known dim

/-- A step of the pool leaves the kernels that run on their threads. -/
theorem Ok.threads_kept (ok : σ.Ok workers) {event : PoolEvent V ε} {pool : PoolConfig V ε}
    (taken : σ.pool.step workers event = some pool) {t : Nat}
    {stack : List (Instr V ε PoolCode)} {task : Async.Task} {chunk : Chunk w}
    (found : pool.runtime.threads[t]? = some stack) (inside : .external (.func task) ∈ stack)
    (recorded : σ.chunks task.promise = some chunk) (running : chunk.kernel ≠ none) :
    ∃ before, σ.pool.runtime.threads[t]? = some before ∧ .external (.func task) ∈ before := by
  have poolOk := PoolConfig.ok ok.reached
  apply ((poolOk.stepped taken).func_cases found inside).resolve_right
  -- a callable that runs is not about to be called
  intro calls
  obtain ⟨other, promise, pending⟩ := ok.running _ _ recorded running
  have holding : (PoolCode.call task).holding = some (task, .taken) := rfl
  have runs : (PoolCode.func other).holding = some (other, .running) := rfl
  obtain ⟨R, split⟩ := Multiset.exists_cons_of_mem (mem_poolCode.mpr calls)
  have ledger := poolOk.ledger
  have listed := mem_poolCode.mpr pending
  rw [split] at ledger listed
  have made := (ledger.held _ (Multiset.mem_cons_self _ R) task _ holding).1
  have other_made := (ledger.held _ listed other _ runs).1
  have same : other = task :=
    List.inj_on_of_nodup_map ledger.distinct other_made made promise
  have rest : PoolCode.func other ∈ R := by
    cases Multiset.mem_cons.mp listed with
    | inl clash => cases clash
    | inr rest => exact rest
  exact ledger.held_ne holding rest runs same

/-- The records of a launch are changed, but for its arguments. -/
theorem set_work {launches : List (Launch w)} {l k : Nat} {mine changed launch' : Launch w}
    (known : launches[l]? = some mine) (after : (launches.set l changed)[k]? = some launch')
    (work : changed.work = mine.work) :
    ∃ launch, launches[k]? = some launch ∧ launch'.work = launch.work := by
  cases Ok.set_cases after with
  | inl here =>
    obtain ⟨same, is⟩ := here
    rw [same, is]
    exact ⟨mine, known, work⟩
  | inr other => exact ⟨launch', other.2, rfl⟩

/-- A kernel that runs after the records of one chunk were changed ran before. -/
theorem set_running {chunks : StateId → Option (Chunk w)} {p q : StateId} {changed chunk : Chunk w}
    (idle : changed.kernel = none)
    (recorded : Function.update chunks p (some changed) q = some chunk)
    (running : chunk.kernel ≠ none) : chunks q = some chunk := by
  cases updated_cases recorded with
  | inl here =>
    rw [here.2] at running
    exact absurd idle running
  | inr other => exact other

/-- A step of the pool with new records. -/
theorem Leaves.withPool (ok : σ.Ok workers) {pooled : PoolEvent V ε} {rest : LaunchConfig w V ε}
    (stepped : σ.withPool workers pooled rest = some σ')
    (index : rest.globalIndex = σ.globalIndex)
    (chunks : ∀ p chunk, rest.chunks p = some chunk → chunk.kernel ≠ none →
      σ.chunks p = some chunk)
    (launches : ∀ (l : Nat) (launch' : Launch w), rest.launches[l]? = some launch' →
      ∃ launch, σ.launches[l]? = some launch ∧ launch'.work = launch.work) :
    Leaves σ event σ' := by
  obtain ⟨pool, taken, same⟩ := withPool_cases stepped
  rw [same]
  constructor
  · exact index
  · exact chunks
  · exact fun l launch' after => Or.inl (launches l launch' after)
  · intro t stack task chunk found inside recorded running
    exact ok.threads_kept taken found inside recorded running

/-- The kernel is called for the next work item of a chunk. -/
def called (σ : LaunchConfig w V ε) (thread : Nat) (p : StateId) (chunk : Chunk w) :
    LaunchConfig w V ε :=
  let globalIndex := chunk.task.setIds chunk.j (σ.globalIndex thread)
  { σ with
    globalIndex := Function.update σ.globalIndex thread globalIndex
    chunks := Function.update σ.chunks p (some (chunk.call globalIndex)) }

/-- A step calls a kernel, or leaves the kernels that run and has nothing to clear. -/
theorem Ok.step_leaves (ok : σ.Ok workers) (stepped : σ.step workers event = some σ') :
    Leaves σ event σ' ∧ σ.Cleared event ∨ ∃ (thread : Nat) (p : StateId) (chunk : Chunk w),
      event = .kernel thread ∧ σ.chunkAt thread = some (p, chunk) ∧ chunk.continues ∧
        σ' = σ.called thread p chunk := by
  have work_kept (l : Nat) (launch' : Launch w) (after : σ.launches[l]? = some launch') :
      ∃ launch, σ.launches[l]? = some launch ∧ launch'.work = launch.work :=
    ⟨launch', after, rfl⟩
  have chunk_kept (p : StateId) (chunk : Chunk w) (recorded : σ.chunks p = some chunk)
      (_ : chunk.kernel ≠ none) : σ.chunks p = some chunk := recorded
  cases event with
  | pool event =>
    refine Or.inl ⟨?_, trivial⟩
    obtain ⟨_, stepped⟩ := Option.ite_none_right_eq_some.mp stepped
    cases event with
    | run thread woken =>
      simp only [recorded] at stepped
      split at stepped
      case h_1 frame launch submitting =>
        obtain ⟨_, known, _⟩ := submitting_cases submitting
        apply Leaves.withPool ok stepped rfl
        · intro p chunk recorded running
          exact set_running rfl recorded running
        · intro l launch' after
          exact set_work known after rfl
      case h_2 => exact Leaves.withPool ok stepped rfl chunk_kept work_kept
    | ret | call | execute | funcReturn | destroy =>
      exact Leaves.withPool ok stepped rfl chunk_kept work_kept
  | execute thread work =>
    refine Or.inl ⟨?_, trivial⟩
    simp only [LaunchConfig.step] at stepped
    split at stepped
    case h_1 stack found =>
      obtain ⟨_, same⟩ := Option.ite_none_right_eq_some.mp stepped
      rw [← Option.some.inj same]
      constructor
      · rfl
      · exact chunk_kept
      · intro l launch' after
        change (σ.launches ++ [.new work])[l]? = some launch' at after
        by_cases bound : l < σ.launches.length
        · rw [List.getElem?_append_left bound] at after
          exact Or.inl ⟨launch', after, rfl⟩
        · have beyond := Nat.not_lt.mp bound
          rw [List.getElem?_append_right beyond] at after
          refine Or.inr ⟨List.getElem?_eq_none beyond, thread, ?_⟩
          have new := List.mem_singleton.mp (List.mem_of_getElem? after)
          rw [new]
          rfl
      · intro t stack task chunk found inside _ _
        exact ⟨stack, found, inside⟩
    case h_2 => cases stepped
  | go thread =>
    refine Or.inl ⟨?_, trivial⟩
    obtain ⟨frame, control, stepped⟩ := Option.bind_eq_some_iff.mp stepped
    obtain ⟨launch, known, stepped⟩ := Option.bind_eq_some_iff.mp stepped
    simp only [LaunchConfig.go] at stepped
    split at stepped
    case h_1 =>
      split_ifs at stepped
      · exact Leaves.withPool ok stepped rfl chunk_kept work_kept
      · apply Leaves.withPool ok stepped rfl chunk_kept
        intro l launch' after
        exact set_work known after rfl
    case h_2 => cases stepped
    case h_3 =>
      rw [← Option.some.inj stepped]
      exact ⟨rfl, chunk_kept, fun l launch' after => Or.inl (work_kept l launch' after),
        fun t stack task chunk found inside _ _ => ⟨stack, found, inside⟩⟩
  | kernel thread =>
    simp only [LaunchConfig.step] at stepped
    split at stepped
    case h_1 p chunk _ top =>
      obtain ⟨_, stepped⟩ := Option.ite_none_right_eq_some.mp stepped
      simp only [LaunchConfig.kernel] at stepped
      split_ifs at stepped with continues
      · exact Or.inr ⟨thread, p, chunk, rfl, top, continues, (Option.some.inj stepped).symm⟩
      · refine Or.inl ⟨Leaves.withPool ok stepped rfl chunk_kept work_kept, ?_⟩
        intro other same more
        rw [top] at same
        rw [← Option.some.inj same] at more
        exact absurd more continues
    case h_2 => cases stepped
  | kernelReturn thread thrown =>
    refine Or.inl ⟨?_, trivial⟩
    simp only [LaunchConfig.step] at stepped
    split at stepped
    case h_1 p chunk _ top =>
      obtain ⟨globalIndex, calling, stepped⟩ := Option.bind_eq_some_iff.mp stepped
      cases thrown with
      | none =>
        rw [← Option.some.inj stepped]
        constructor
        · rfl
        · intro q other recorded running
          exact set_running rfl recorded running
        · exact fun l launch' after => Or.inl (work_kept l launch' after)
        · intro t stack task chunk found inside _ _
          exact ⟨stack, found, inside⟩
      | some error =>
        apply Leaves.withPool ok stepped rfl _ work_kept
        intro q other recorded running
        exact set_running rfl recorded running
    case h_2 => cases stepped

/-- A chunk is one of its launch. -/
theorem Ok.chunk_task (ok : σ.Ok workers) {p : StateId} {chunk : Chunk w} {launch : Launch w}
    (recorded : σ.chunks p = some chunk) (launched : σ.launches[chunk.launch]? = some launch) :
    ∃ i count, chunk.task = launch.work.task i count := by
  obtain ⟨_, _, other, known, listed⟩ := ok.chunk p chunk recorded
  rw [launched] at known
  rw [← Option.some.inj known] at listed
  obtain ⟨task, submitted, mine, found, _, same⟩ :=
    forall₂_right (ok.results chunk.launch launch launched) listed
  rw [recorded] at found
  rw [← Option.some.inj found] at same
  obtain ⟨visited, _, tasks⟩ := ok.loops chunk.launch launch launched
  rw [tasks] at submitted
  obtain ⟨i, _, is⟩ := List.mem_map.mp submitted
  exact ⟨i, _, by rw [same, ← is]⟩

/-- The ids that a kernel reads when it is called. -/
theorem Ok.called_ids (ok : σ.Ok workers) {thread : Nat} {p : StateId} {chunk : Chunk w}
    {launch : Launch w} (recorded : σ.chunks p = some chunk)
    (launched : σ.launches[chunk.launch]? = some launch) (dim : Fin 3) :
    getGlobalId ((σ.called thread p chunk).globalIndex thread) dim =
      if dim.val < launch.work.dims then launch.work.ids chunk.j dim
      else σ.globalIndex thread dim := by
  obtain ⟨i, count, task⟩ := ok.chunk_task recorded launched
  show Function.update σ.globalIndex thread (chunk.task.setIds chunk.j (σ.globalIndex thread))
    thread dim = _
  rw [Function.update_self, task, WorkSize.setIds_apply]

/-- A task runs on one thread. -/
theorem Ok.func_unique (ok : σ.Ok workers) {one two : Nat}
    {first second : List (Instr V ε PoolCode)}
    {task other : Async.Task} (found : σ.pool.runtime.threads[one]? = some first)
    (found' : σ.pool.runtime.threads[two]? = some second)
    (inside : .external (.func task) ∈ first) (inside' : .external (.func other) ∈ second)
    (same : other.promise = task.promise) : one = two := by
  by_contra apart
  obtain ⟨rest, split⟩ := Stacks.pending_apart found found' apart
  have ledger := (PoolConfig.ok ok.reached).ledger
  rw [Config.pending, split, poolCode_add, poolCode_add] at ledger
  have here : PoolCode.func task ∈ poolCode (first : Multiset (Instr V ε PoolCode)) :=
    mem_poolCode.mpr (Multiset.mem_coe.mpr inside)
  have there : PoolCode.func other ∈ poolCode (second : Multiset (Instr V ε PoolCode)) :=
    mem_poolCode.mpr (Multiset.mem_coe.mpr inside')
  obtain ⟨R, cons⟩ := Multiset.exists_cons_of_mem here
  rw [cons, Multiset.cons_add] at ledger
  have runs : (PoolCode.func task).holding = some (task, .running) := rfl
  have runs' : (PoolCode.func other).holding = some (other, .running) := rfl
  have listed : PoolCode.func other ∈ R + (poolCode (second : Multiset (Instr V ε PoolCode)) +
      poolCode rest) :=
    Multiset.mem_add.mpr (Or.inr (Multiset.mem_add.mpr (Or.inl there)))
  have made := (ledger.held _ (Multiset.mem_cons_self _ _) task _ runs).1
  have made' := (ledger.held _ (Multiset.mem_cons_of_mem listed) other _ runs').1
  exact ledger.held_ne runs listed runs'
    (List.inj_on_of_nodup_map ledger.distinct made' made same)

/-- The task whose callable is on top of a thread is the only one that runs on it. -/
theorem Ok.func_top (ok : σ.Ok workers) {thread : Nat} {task other : Async.Task}
    {base : List (Instr V ε PoolCode)}
    (found : σ.pool.runtime.threads[thread]? = some (.external (.func task) :: base))
    (inside : .external (.func other) ∈ Instr.external (PoolCode.func task) :: base) :
    other = task := by
  have poolOk := PoolConfig.ok ok.reached
  have bound := poolOk.placed.assigned thread _ found _ List.mem_cons_self
  obtain ⟨stack, known, stands⟩ := (PoolConfig.staffed ok.reached).working thread bound
  rw [found] at known
  rw [← Option.some.inj known] at stands
  obtain ⟨c, works⟩ := stands.resolve_left fun empty => by cases empty.1
  have mine : PoolCode.func task = c := works.unique List.mem_cons_self rfl
  have also : PoolCode.func other = c := works.unique inside rfl
  exact PoolCode.func.inj (also.trans mine.symm)

/-- A kernel that is called reads the ids of its own work item if and only if its thread was
cleared. -/
theorem Ok.called_reads (ok : σ.Ok workers) (reads : σ.ReadsOwn) {thread : Nat} {p : StateId}
    {chunk : Chunk w} (top : σ.chunkAt thread = some (p, chunk)) (continues : chunk.continues) :
    (σ.called thread p chunk).ReadsOwn ↔ σ.Cleared (.kernel thread) := by
  obtain ⟨recorded, task, promise, base, found⟩ := chunkAt_cases top
  have now : (σ.called thread p chunk).chunks p =
      some (chunk.call (chunk.task.setIds chunk.j (σ.globalIndex thread))) :=
    Function.update_self p _ _
  constructor
  · intro own top' same _ launch launched dim beyond
    rw [top] at same
    rw [← Option.some.inj same] at launched
    have ids : getGlobalId ((σ.called thread p chunk).globalIndex thread) dim = _ :=
      ok.called_ids recorded launched dim
    rw [if_neg (Nat.not_lt.mpr beyond)] at ids
    have mine : (σ.called thread p chunk).chunks task.promise =
        some (chunk.call (chunk.task.setIds chunk.j (σ.globalIndex thread))) := by
      rw [promise]
      exact now
    have reading := own thread _ task _ launch found List.mem_cons_self mine
      (Option.some_ne_none _) launched dim
    rw [← ids, reading]
    exact launch.work.ids_beyond chunk.j beyond
  · intro cleared t stack other chunk' launch found' inside recorded' running launched dim
    by_cases here : t = thread
    · rw [here] at found' ⊢
      change σ.pool.runtime.threads[thread]? = some stack at found'
      rw [found] at found'
      rw [← Option.some.inj found'] at inside
      rw [ok.func_top found inside, promise, now] at recorded'
      rw [← Option.some.inj recorded'] at launched ⊢
      rw [ok.called_ids recorded launched]
      by_cases within : dim.val < launch.work.dims
      · rw [if_pos within]
        rfl
      · have beyond := Nat.not_lt.mp within
        rw [if_neg within, cleared _ top continues launch launched dim beyond]
        exact (launch.work.ids_beyond chunk.j beyond).symm
    · have apart : other.promise ≠ p := by
        intro same
        rw [← promise] at same
        exact here (ok.func_unique found found' List.mem_cons_self inside same).symm
      have before : σ.chunks other.promise = some chunk' := by
        rw [← recorded']
        exact (Function.update_of_ne apart _ _).symm
      have index : (σ.called thread p chunk).globalIndex t = σ.globalIndex t :=
        Function.update_of_ne here _ _
      rw [index]
      exact reads t stack other chunk' launch found' inside before running launched dim

/-- A step leaves every kernel the ids of its own work item if and only if it calls none on a
thread that was not cleared. -/
theorem Ok.reads_iff (ok : σ.Ok workers) (reads : σ.ReadsOwn)
    (stepped : σ.step workers event = some σ') : σ'.ReadsOwn ↔ σ.Cleared event := by
  cases ok.step_leaves stepped with
  | inl quiet =>
    obtain ⟨leaves, cleared⟩ := quiet
    exact ⟨fun _ => cleared, fun _ => leaves.readsOwn ok reads⟩
  | inr calls =>
    obtain ⟨thread, p, chunk, is, top, continues, same⟩ := calls
    rw [is, same]
    exact ok.called_reads reads top continues

/-- In every run in which kernels are only called on threads that were cleared, every kernel that
runs reads the ids of its own work item; and the first step of another kind ends this. -/
theorem reads_own (reached : ((launchSystem w V ε workers).under Cleared).Reachable σ) :
    σ.ReadsOwn ∧ ∀ (event : LaunchEvent w V ε) (σ' : LaunchConfig w V ε),
      σ.step workers event = some σ' → (σ'.ReadsOwn ↔ σ.Cleared event) := by
  have both : σ.Ok workers ∧ σ.ReadsOwn := by
    apply reached.invariant
    · intro σ initial
      refine ⟨LaunchConfig.ok (.start initial), ?_⟩
      obtain ⟨outside, same⟩ := initial
      intro thread stack task chunk launch _ _ recorded
      rw [same] at recorded
      cases recorded
    · intro σ event σ' _ both stepped
      obtain ⟨cleared, stepped⟩ := System.under_step.mp stepped
      exact ⟨both.1.step stepped, (both.1.reads_iff both.2 stepped).mpr cleared⟩
  exact ⟨both.2, fun event σ' stepped => both.1.reads_iff both.2 stepped⟩

/-! ## Launches of one number of dimensions -/

/-- A program whose launches all have a number of dimensions. -/
def Uniform (dims : Nat) (_ : LaunchConfig w V ε) : LaunchEvent w V ε → Prop
  | .execute _ work => work.dims = dims
  | _ => True

instance (dims : Nat) (σ : LaunchConfig w V ε) :
    (event : LaunchEvent w V ε) → Decidable (Uniform dims σ event)
  | .execute _ work => inferInstanceAs (Decidable (work.dims = dims))
  | .pool _ | .go _ | .kernel _ | .kernelReturn _ _ => inferInstanceAs (Decidable True)

/-- No launch has set an id beyond the dimensions of the program. -/
structure Within (dims : Nat) (σ : LaunchConfig w V ε) : Prop where
  launches : ∀ (l : Nat) (launch : Launch w), σ.launches[l]? = some launch →
    launch.work.dims = dims
  zeros : ∀ (thread : Nat) (dim : Fin 3), dims ≤ dim.val → σ.globalIndex thread dim = 0

variable {dims : Nat}

/-- All threads are cleared for the launches of the program. -/
theorem Within.cleared (within : σ.Within dims) (event : LaunchEvent w V ε) :
    σ.Cleared event := by
  cases event with
  | kernel thread =>
    intro top _ _ launch launched dim beyond
    rw [within.launches top.2.launch launch launched] at beyond
    exact within.zeros thread dim beyond
  | pool | execute | go | kernelReturn => trivial

/-- A step of the program sets no id beyond its dimensions. -/
theorem Within.step (within : σ.Within dims) (ok : σ.Ok workers) (uniform : σ.Uniform dims event)
    (stepped : σ.step workers event = some σ') : σ'.Within dims := by
  cases ok.step_leaves stepped with
  | inl quiet =>
    obtain ⟨leaves, _⟩ := quiet
    constructor
    · intro l launch' after
      cases leaves.launches l launch' after with
      | inl kept =>
        obtain ⟨launch, known, work⟩ := kept
        rw [work]
        exact within.launches l launch known
      | inr added =>
        obtain ⟨_, thread, is⟩ := added
        rw [is] at uniform
        exact uniform
    · intro thread dim beyond
      rw [leaves.index]
      exact within.zeros thread dim beyond
  | inr calls =>
    obtain ⟨caller, p, chunk, _, top, _, same⟩ := calls
    rw [same]
    constructor
    · exact within.launches
    · intro thread dim beyond
      by_cases here : thread = caller
      · have recorded := (chunkAt_cases top).1
        obtain ⟨_, _, launch, launched, _⟩ := ok.chunk p chunk recorded
        have ids : (σ.called caller p chunk).globalIndex caller dim = _ :=
          ok.called_ids recorded launched dim
        rw [within.launches chunk.launch launch launched, if_neg (Nat.not_lt.mpr beyond)] at ids
        rw [here, ids]
        exact within.zeros caller dim beyond
      · have index : (σ.called caller p chunk).globalIndex thread = σ.globalIndex thread :=
          Function.update_of_ne here _ _
        rw [index]
        exact within.zeros thread dim beyond

/-- In every run of a program whose launches all have the same number of dimensions, every kernel
that runs reads the ids of its own work item. With three dimensions there is nothing to clear. -/
theorem uniform_reads_own
    (reached : ((launchSystem w V ε workers).under (Uniform dims)).Reachable σ) : σ.ReadsOwn := by
  have both : ((launchSystem w V ε workers).under Cleared).Reachable σ ∧ σ.Within dims := by
    apply reached.invariant
    · intro σ initial
      refine ⟨.start initial, ?_⟩
      obtain ⟨outside, same⟩ := initial
      rw [same]
      exact ⟨fun l launch known => (Option.some_ne_none launch known.symm).elim, fun _ _ _ => rfl⟩
    · intro σ event σ' _ both stepped
      obtain ⟨uniform, stepped⟩ := System.under_step.mp stepped
      obtain ⟨before, within⟩ := both
      have ok := LaunchConfig.ok before.of_under
      exact ⟨before.next (System.under_step.mpr ⟨within.cleared event, stepped⟩),
        within.step ok uniform stepped⟩
  exact (reads_own both.1).1

end LaunchConfig

/-- A launch with one chunk. -/
def launching (work : WorkSize 64) : List (LaunchEvent 64 Nat String) :=
  [LaunchEvent.execute 1 work, LaunchEvent.go 1] ++
    List.replicate 9 (LaunchEvent.pool (.run 1 0)) ++ [LaunchEvent.go 1] ++
    List.replicate 8 (LaunchEvent.pool (.run 1 0)) ++ [LaunchEvent.go 1]

/-- The worker goes on. -/
def working (steps : Nat) : List (LaunchEvent 64 Nat String) :=
  List.replicate steps (LaunchEvent.pool (.run 0 0))

/-- One work item on one worker, until its kernel is called. -/
def callingRun : List (LaunchEvent 64 Nat String) :=
  launching (.one ![1] ![2]) ++ working 5 ++ [LaunchEvent.kernel 0]

/-- The run can be replayed, and it calls no kernel on a thread that was not cleared. -/
theorem callingRun_replays :
    (((launchSystem 64 Nat String 1).under LaunchConfig.Cleared).replay (.start 1 1)
      callingRun).isSome = true := by
  decide +kernel

/-- The configuration after the run. -/
def calling : LaunchConfig 64 Nat String :=
  (((launchSystem 64 Nat String 1).under LaunchConfig.Cleared).replay (.start 1 1)
    callingRun).get callingRun_replays

/-- The kernel that runs reads the ids of its own work item. -/
theorem calling_reads : calling.ReadsOwn := by
  have initial : ((launchSystem 64 Nat String 1).under LaunchConfig.Cleared).initial
      (.start 1 1) := ⟨1, rfl⟩
  exact (LaunchConfig.reads_own (System.Reachable.of_replay initial callingRun_replays)).1

/-- Two work items of a launch in two dimensions, and then one of a launch in one dimension on the
same worker, until the kernel is called for it. -/
def leftRun : List (LaunchEvent 64 Nat String) :=
  launching (.two ![1, 2] ![0, 0]) ++ working 5 ++
    [LaunchEvent.kernel 0, LaunchEvent.kernelReturn 0 none, LaunchEvent.kernel 0,
      LaunchEvent.kernelReturn 0 none, LaunchEvent.kernel 0] ++
    working 9 ++ launching (.one ![1] ![0]) ++ working 15 ++ [LaunchEvent.kernel 0]

/-- The run can be replayed. -/
theorem leftRun_replays :
    ((launchSystem 64 Nat String 1).replay (.start 1 1) leftRun).isSome = true := by
  decide +kernel

/-- The configuration after the run. -/
def left : LaunchConfig 64 Nat String := .after 1 1 leftRun leftRun_replays

/-- There is a chunk on top of the worker in it. -/
theorem left_chunk : (left.chunkAt 0).isSome = true := by decide +kernel

/-- There is a second launch in it. -/
theorem left_launch : left.launches[1]?.isSome = true := by decide +kernel

/-- The chunk is one of the second launch, its kernel runs, and its work item has the id 0. -/
theorem left_second : ∀ top ∈ left.chunkAt 0, ∀ launch ∈ left.launches[1]?,
    top.2.kernel ≠ none ∧ top.2.launch = 1 ∧ launch.work.ids top.2.j 1 = 0 := by
  decide +kernel

/-- The kernel of the second launch reads an id that the first launch has left on its thread. -/
theorem left_reads : ¬ ∀ σ : LaunchConfig 64 Nat String,
    (launchSystem 64 Nat String 1).Reachable σ → σ.ReadsOwn := by
  intro all
  obtain ⟨⟨p, chunk⟩, top⟩ := Option.isSome_iff_exists.mp left_chunk
  obtain ⟨launch, known⟩ := Option.isSome_iff_exists.mp left_launch
  obtain ⟨running, second, expected⟩ := left_second (p, chunk) top launch known
  obtain ⟨recorded, task, promise, base, found⟩ := LaunchConfig.chunkAt_cases top
  rw [← promise] at recorded
  change chunk.launch = 1 at second
  rw [← second] at known
  have same := all left (LaunchConfig.reachable_after _) 0 _ task chunk launch found
    List.mem_cons_self recorded running known 1
  have actual : getGlobalId (left.globalIndex 0) 1 = 1 := by decide +kernel
  rw [actual, expected] at same
  exact absurd same (by decide)

end Azul.Compute
