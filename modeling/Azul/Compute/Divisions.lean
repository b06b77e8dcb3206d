import Azul.Compute.OpenClComputeExecutor

/-!
# The divisions of a launch

`Execute` divides by the number of threads, and its tasks divide by sizes of dimensions and by a
product of two of them, all of which may be zero, the product because it wraps around. Here every
division is checked. The loops are followed for any number of turns, whether they end or not. The
tasks that divide by a size are only created if the product of all sizes is not zero, and then no
divisor in them is; what remains is the number of threads.
-/

namespace Azul.Compute

variable {w : Nat}

/-- The loop of the constructor of `StaticThreadPool`: the number of threads after it, `none` when
`fuel` tests do not end it. Its variable has 32 bits. -/
def startThreads (numberOfThreads : SizeT w) : Nat → BitVec 32 → Nat → Option Nat
  | 0, _, _ => none
  | fuel + 1, i, threads =>
    if i.toNat < numberOfThreads.toNat then startThreads numberOfThreads fuel (i + 1) (threads + 1)
    else some threads

/-- A checked task divides by nothing that is zero, and does what the task does. -/
structure CheckedTask.Agrees (checked : CheckedTask w) (task : Task w) : Prop where
  start : checked.start = task.start
  count : checked.count = task.count
  setIds : ∀ j globalIndex, checked.setIds j globalIndex = .ok (task.setIds j globalIndex)

/-- Neither a launch nor a task that it creates ever divides by zero. -/
def NeverDividesByZero (launch : Nat → Checked (List (CheckedTask w))) : Prop :=
  ∀ turns, launch turns ≠ .error .divisionByZero ∧
    ∀ tasks, launch turns = .ok tasks → ∀ task ∈ tasks, ∀ fuel globalIndex,
      task.run fuel globalIndex ≠ .error .divisionByZero

/-! ## Divisions that are checked -/

theorem divide_ok {b : SizeT w} (nonzero : b ≠ 0) (a : SizeT w) : divide a b = .ok (a / b) :=
  if_neg nonzero

theorem modulo_ok {b : SizeT w} (nonzero : b ≠ 0) (a : SizeT w) : modulo a b = .ok (a % b) :=
  if_neg nonzero

/-- A number of threads that does not fit into the variable of the loop is never reached. -/
theorem startThreads_endless {numberOfThreads : SizeT w}
    (large : 4294967296 ≤ numberOfThreads.toNat) (fuel : Nat) (i : BitVec 32) (threads : Nat) :
    startThreads numberOfThreads fuel i threads = none := by
  induction fuel generalizing i threads with
  | zero => rfl
  | succ fuel ih =>
    have before : i.toNat < numberOfThreads.toNat := Nat.lt_of_lt_of_le i.isLt large
    rw [startThreads, if_pos before, ih]

/-- A pool that has been constructed has as many threads as its constructor was asked for. -/
theorem startThreads_count {numberOfThreads : SizeT w} {fuel : Nat} {i : BitVec 32}
    {threads count : Nat} (same : i.toNat = threads) (below : threads ≤ numberOfThreads.toNat)
    (constructed : startThreads numberOfThreads fuel i threads = some count) :
    count = numberOfThreads.toNat := by
  by_cases large : 4294967296 ≤ numberOfThreads.toNat
  · rw [startThreads_endless large] at constructed
    cases constructed
  induction fuel generalizing i threads with
  | zero => cases constructed
  | succ fuel ih =>
    rw [startThreads] at constructed
    split at constructed
    case isTrue before =>
      have next : (i + 1).toNat = threads + 1 := by
        rw [BitVec.toNat_add, same]
        apply Nat.mod_eq_of_lt
        show threads + 1 < 4294967296
        omega
      exact ih next (by omega) constructed
    case isFalse ended =>
      have ends := Option.some.inj constructed
      omega

/-- The turns of a loop that ends are all that it takes. -/
theorem loopTurns_forLoop {bound step : SizeT w} {turns : Nat} {i : SizeT w}
    {visited : List (SizeT w)} (ends : forLoop bound step turns i = some visited) :
    loopTurns bound step turns i = visited := by
  induction turns generalizing i visited with
  | zero => cases ends
  | succ turns ih =>
    rw [forLoop] at ends
    rw [loopTurns]
    split at ends
    case isTrue before =>
      obtain ⟨rest, later, all⟩ := Option.map_eq_some_iff.mp ends
      rw [if_pos before, ih later, all]
    case isFalse ended => rw [if_neg ended, Option.some.inj ends]

/-- A loop up to zero has no turns. -/
theorem loopTurns_zero (step : SizeT w) (turns : Nat) : loopTurns 0 step turns 0 = [] := by
  cases turns with
  | zero => rfl
  | succ turns =>
    have ended : ¬ (0 : SizeT w) < 0 := by
      rw [BitVec.lt_def]
      exact Nat.lt_irrefl _
    rw [loopTurns, if_neg ended]

namespace CheckedTask

/-- The loop of a checked task does what the loop of the task does. -/
theorem calls_agree {setIds : SizeT w → GlobalIndex w → Checked (GlobalIndex w)}
    {plain : SizeT w → GlobalIndex w → GlobalIndex w}
    (same : ∀ j globalIndex, setIds j globalIndex = .ok (plain j globalIndex)) (bound : SizeT w)
    (fuel : Nat) (j : SizeT w) (globalIndex : GlobalIndex w) :
    calls setIds bound fuel j globalIndex =
      ((forLoop bound 1 fuel j).map (Task.calls plain globalIndex)).elim
        (.error .outOfFuel) .ok := by
  induction fuel generalizing j globalIndex with
  | zero => rfl
  | succ fuel ih =>
    rw [calls, forLoop]
    by_cases before : j < bound
    · rw [if_pos before, if_pos before, same, Option.map_map]
      show (calls setIds bound fuel (j + 1) (plain j globalIndex) >>= fun rest =>
        pure (plain j globalIndex :: rest)) = _
      rw [ih]
      cases forLoop bound 1 fuel (j + 1) with
      | none => rfl
      | some visited => rfl
    · rw [if_neg before, if_neg before]
      rfl

/-- A checked task that agrees with a task runs as that task. -/
theorem Agrees.run {checked : CheckedTask w} {task : Task w} (agrees : checked.Agrees task)
    (fuel : Nat) (globalIndex : GlobalIndex w) :
    checked.run fuel globalIndex = (task.run fuel globalIndex).elim (.error .outOfFuel) .ok := by
  unfold CheckedTask.run Task.run
  rw [calls_agree agrees.setIds, agrees.start, agrees.count]

/-- So it does not divide by zero. -/
theorem Agrees.safe {checked : CheckedTask w} {task : Task w} (agrees : checked.Agrees task)
    (fuel : Nat) (globalIndex : GlobalIndex w) :
    checked.run fuel globalIndex ≠ .error .divisionByZero := by
  rw [agrees.run]
  cases task.run fuel globalIndex with
  | none => nofun
  | some log => nofun

end CheckedTask

/-! ## Launches -/

section Launches

variable {workItems threadCount : SizeT w} {checked : SizeT w → SizeT w → CheckedTask w}
  {task : SizeT w → SizeT w → Task w}

/-- A launch on a pool without threads divides by zero. -/
theorem launchChecked_zero (turns : Nat) :
    launchChecked workItems 0 checked turns = .error .divisionByZero := by
  unfold launchChecked divide
  rw [if_pos rfl]
  rfl

/-- A launch on a pool with threads creates a task for every turn of its loop. -/
theorem launchChecked_ok (threads : threadCount ≠ 0) (turns : Nat) :
    launchChecked workItems threadCount checked turns =
      .ok ((loopTurns workItems (stdMax (workItems / threadCount) 1) turns 0).map fun i =>
        checked i (stdMin (stdMax (workItems / threadCount) 1) (workItems - i))) := by
  unfold launchChecked
  rw [divide_ok threads]
  rfl

/-- A product with zero wraps around to nothing but zero. -/
theorem left_ne_zero {a b : SizeT w} (product : a * b ≠ 0) : a ≠ 0 := by
  intro none
  rw [none] at product
  exact product BitVec.zero_mul

/-- The turns of a loop over no work items create no tasks. -/
theorem work_of_created {step : SizeT w} {turns : Nat} {i : SizeT w}
    (turn : i ∈ loopTurns workItems step turns 0) : workItems ≠ 0 := by
  intro none
  rw [none, loopTurns_zero] at turn
  cases turn

/-- A launch whose tasks agree with plain ones whenever there is work divides by zero exactly on a
pool without threads. -/
theorem launchChecked_safe_iff
    (agrees : workItems ≠ 0 → ∀ i count, (checked i count).Agrees (task i count)) :
    NeverDividesByZero (launchChecked workItems threadCount checked) ↔ threadCount ≠ 0 := by
  constructor
  · intro safe none
    rw [none] at safe
    exact (safe 0).1 (launchChecked_zero 0)
  · intro threads turns
    rw [launchChecked_ok threads]
    refine ⟨nofun, ?_⟩
    intro tasks created one inside
    rw [← Except.ok.inj created] at inside
    obtain ⟨i, turn, same⟩ := List.mem_map.mp inside
    rw [← same]
    exact (agrees (work_of_created turn) i _).safe

/-- On a pool with threads it creates the tasks of the plain launch, if the loop of that ends. -/
theorem launchChecked_agrees (threads : threadCount ≠ 0)
    (agrees : workItems ≠ 0 → ∀ i count, (checked i count).Agrees (task i count)) {turns : Nat}
    {tasks : List (Task w)} (launched : launch workItems threadCount task turns = some tasks) :
    ∃ created, launchChecked workItems threadCount checked turns = .ok created ∧
      List.Forall₂ CheckedTask.Agrees created tasks := by
  obtain ⟨visited, ends, same⟩ := Option.map_eq_some_iff.mp launched
  refine ⟨_, launchChecked_ok threads turns, ?_⟩
  have all := loopTurns_forLoop ends
  rw [all, ← same, List.forall₂_map_left_iff, List.forall₂_map_right_iff, List.forall₂_same]
  intro i turn
  rw [← all] at turn
  exact agrees (work_of_created turn) i _

/-- A checked overload divides by zero exactly on a pool without threads, and otherwise launches
what the plain one does. -/
structure Checks (threadCount : SizeT w) (checked : Nat → Checked (List (CheckedTask w)))
    (plain : Nat → Option (List (Task w))) : Prop where
  safe_iff : NeverDividesByZero checked ↔ threadCount ≠ 0
  agrees : threadCount ≠ 0 → ∀ turns tasks, plain turns = some tasks →
    ∃ created, checked turns = .ok created ∧ List.Forall₂ CheckedTask.Agrees created tasks

theorem launch_checks
    (agrees : workItems ≠ 0 → ∀ i count, (checked i count).Agrees (task i count)) :
    Checks threadCount (launchChecked workItems threadCount checked)
      (launch workItems threadCount task) :=
  ⟨launchChecked_safe_iff agrees, fun threads _ _ => launchChecked_agrees threads agrees⟩

end Launches

section Overloads

variable (threadCount : SizeT w)

theorem executeChecked1_checks (size offset : Fin 1 → SizeT w) :
    Checks threadCount (executeChecked1 threadCount size offset)
      (execute1 threadCount size offset) :=
  launch_checks fun _ _ _ => ⟨rfl, rfl, fun _ _ => rfl⟩

/-- When there is work in two dimensions, the first of them is not zero. -/
theorem executeChecked2_checks (size offset : Fin 2 → SizeT w) :
    Checks threadCount (executeChecked2 threadCount size offset)
      (execute2 threadCount size offset) := by
  apply launch_checks
  intro work i count
  have first := left_ne_zero work
  refine ⟨rfl, rfl, fun j globalIndex => ?_⟩
  show (modulo j (size 0) >>= fun _ => divide j (size 0) >>= fun _ => _) = _
  rw [modulo_ok first, divide_ok first]
  rfl

/-- When there is work in three dimensions, neither the first of them nor the product of two is
zero: a product that wraps around to zero stays zero. -/
theorem executeChecked3_checks (size offset : Fin 3 → SizeT w) :
    Checks threadCount (executeChecked3 threadCount size offset)
      (execute3 threadCount size offset) := by
  apply launch_checks
  intro work i count
  have plane := left_ne_zero work
  have first := left_ne_zero plane
  refine ⟨rfl, rfl, fun j globalIndex => ?_⟩
  show (divide j (size 0 * size 1) >>= fun _ => modulo j (size 0 * size 1) >>= fun rest =>
    divide rest (size 0) >>= fun _ => modulo j (size 0) >>= fun _ => _) = _
  rw [divide_ok plane, modulo_ok plane]
  show (divide (j % (size 0 * size 1)) (size 0) >>= fun _ => modulo j (size 0) >>= fun _ => _) = _
  rw [divide_ok first, modulo_ok first]
  rfl

end Overloads

/-- On a pool that was constructed for any number of threads, and for all sizes, neither a launch
nor a task that it creates divides by zero exactly if that number is not zero. -/
theorem divisions_safe_iff {numberOfThreads : SizeT w} {fuel threads : Nat}
    (constructed : startThreads numberOfThreads fuel 0 0 = some threads) :
    (∀ size offset, NeverDividesByZero (executeChecked1 (BitVec.ofNat w threads) size offset) ↔
      numberOfThreads ≠ 0) ∧
    (∀ size offset, NeverDividesByZero (executeChecked2 (BitVec.ofNat w threads) size offset) ↔
      numberOfThreads ≠ 0) ∧
    ∀ size offset, NeverDividesByZero (executeChecked3 (BitVec.ofNat w threads) size offset) ↔
      numberOfThreads ≠ 0 := by
  have count := startThreads_count rfl (Nat.zero_le _) constructed
  have threadCount : BitVec.ofNat w threads = numberOfThreads := by
    rw [count, BitVec.ofNat_toNat, BitVec.setWidth_eq]
  rw [threadCount]
  exact ⟨fun size offset => (executeChecked1_checks _ size offset).safe_iff,
    fun size offset => (executeChecked2_checks _ size offset).safe_iff,
    fun size offset => (executeChecked3_checks _ size offset).safe_iff⟩

/-- A box whose sizes multiply to zero, on two threads. -/
theorem divisions_safe_wrapped :
    NeverDividesByZero (executeChecked3 (w := 64) 2 ![4294967296, 4294967296, 7] ![0, 0, 0]) := by
  have constructed : startThreads (2 : SizeT 64) 3 0 0 = some 2 := by decide
  exact ((divisions_safe_iff constructed).2.2 _ _).mpr (by decide)

/-- A pool without threads is constructed, and a launch on it divides by zero. -/
theorem divides_by_zero :
    startThreads (0 : SizeT 64) 1 0 0 = some 0 ∧
      executeChecked1 (w := 64) 0 ![8] ![0] 1 = .error .divisionByZero ∧
      ¬ NeverDividesByZero (executeChecked1 (w := 64) 0 ![8] ![0]) :=
  ⟨rfl, launchChecked_zero 1, fun safe => (safe 1).1 (launchChecked_zero 1)⟩

end Azul.Compute
