import Azul.Async.CallsReturn
import Azul.Async.WorkerStacks
import Mathlib.Data.Finset.Card

/-!
# The work of a pool

What the pool's code may still do, on top of what it makes the library do. A worker that looks for a
task looks at every queued one, a task that it takes is paid for when it is submitted, and a
notification pays for one more look of the worker that it wakes. So the steps of the workers and of
the threads inside `Execute` and the destructor are covered by what the program asked for, and by
the waits on `_condition` that end without a notification.
-/

namespace Azul.Async

open Foundation

variable {V ε : Type}

/-! ## Weights -/

/-- What a worker does from the end of a wait to the start of the next one, if it takes no task. -/
def nap (size : Nat) : Nat := size + 6

/-- What is left to do for a task, by the code that holds it. -/
def taskWork (workers size : Nat) : PoolCode → Nat
  | .release _ => work size 0 + nap size
  | .notify _ index => (workers - index) * (nap size + 1) + (work size 0 + nap size) + 1
  | .relock _ => workers * (nap size + 1) + (work size 0 + nap size) + 2
  | .func _ => workers * (nap size + 1) + (2 * work size 0 + nap size) + 3
  | .call _ => workers * (nap size + 1) + (2 * work size 0 + nap size) + 4
  | .unlock _ => workers * (nap size + 1) + (2 * work size 0 + nap size) + 5
  | _ => 0

/-- What a queued task makes a worker do. -/
def queuedWork (workers size : Nat) : Nat :=
  workers * (nap size + 1) + (2 * work size 0 + nap size) + 5

/-- What `Execute` does, and the task that it submits. -/
def executeWork (workers size : Nat) (dependencies : List StateId) : Nat :=
  dependencies.length * (15 * work size 0) + 2 * (work size 0 + 1) +
    (queuedWork workers size + nap size) + 5

/-- A bound on the steps that a piece of the pool's code sets off. -/
def PoolCode.weight (workers size : Nat) (shut : Bool) : PoolCode → Nat
  | .execute _ dependencies => executeWork workers size dependencies
  | .whenAll _ dependencies => executeWork workers size dependencies - 1
  | .makeTask _ _ _ => queuedWork workers size + nap size + 3
  | .emplaceBack _ => queuedWork workers size + nap size + 2
  | .getFuture _ => 1
  | .threadLoop | .waitFor => nap size
  | .loop => if shut then 1 else size + 5
  | .nextTask index => size - index + 3
  | .noTask => 2
  | .shutdownNotifyThreads => workers * nap size + workers + 3
  | .shutdownJoinThreads index => workers - index + 2
  | .shutdownDestroyRemainingTasks => 1
  | c => taskWork workers size c

/-- The states that a piece of the pool's code is going to allocate, or to have allocated. -/
def PoolCode.allocates : PoolCode → Nat
  | .execute _ dependencies | .whenAll _ dependencies => dependencies.length + 2
  | .makeTask _ _ _ => 1
  | _ => 0

/-- After the shutdown less is left to do. -/
theorem PoolCode.weight_shut {workers size : Nat} {before after : Bool}
    (kept : before = true → after = true) (c : PoolCode) :
    c.weight workers size after ≤ c.weight workers size before := by
  cases c with
  | loop =>
    unfold PoolCode.weight
    cases before with
    | true =>
      rw [kept rfl]
    | false =>
      cases after with
      | true => exact Nat.le_add_left 1 _
      | false => exact le_refl _
  | _ => exact le_refl _

section Statements

variable {pool pool' : Pool V ε} {h : Heap V ε} {finished : Nat → Bool}
  {workers thread woken size : Nat} {c : PoolCode} {next : List PoolCode} {api : Option (Api V ε)}

/-- The potential of the queue and of the workers that are awake. -/
def Pool.spare (workers size : Nat) (pool : Pool V ε) : Nat :=
  pool.tasks.length * queuedWork workers size + (workers - pool.sleeping.card) * nap size

/-- What a piece of code is charged besides what it weighs: a worker that leaves its wait without
having been notified will look for a task. -/
def Pool.surcharge (pool : Pool V ε) (size thread : Nat) : Nat :=
  if thread ∈ pool.sleeping then nap size + 1 else 0

/-- Waking a worker costs one more look for a task. -/
theorem Pool.erase_spare (pool : Pool V ε) (workers size woken : Nat) :
    (workers - (pool.sleeping.erase woken).card) * nap size ≤
      (workers - pool.sleeping.card) * nap size + nap size := by
  have less := Finset.pred_card_le_card_erase (s := pool.sleeping) (a := woken)
  calc (workers - (pool.sleeping.erase woken).card) * nap size
      ≤ (workers - pool.sleeping.card + 1) * nap size := by
        apply Nat.mul_le_mul_right
        omega
    _ = (workers - pool.sleeping.card) * nap size + nap size := Nat.succ_mul _ _

/-- The weight of what follows a statement, and the cost of the library call that it makes. -/
def follows (workers size : Nat) (shut : Bool) (next : List PoolCode) (api : Option (Api V ε)) :
    Nat :=
  (next.map (PoolCode.weight workers size shut)).sum + api.elim 0 (Api.cost size)

/-- Every statement pays one unit. -/
theorem Pool.run_pays
    (ran : pool.run h finished workers thread woken c = some (pool', next, api))
    (queue : pool.tasks.length ≤ size) (few : pool'.sleeping.card ≤ workers)
    (awake : c ≠ .waitFor → thread ∉ pool.sleeping) :
    1 + follows workers size pool'.shutdownInitiated next api + pool'.spare workers size ≤
      c.weight workers size pool.shutdownInitiated + pool.spare workers size +
        pool.surcharge size thread := by
  have loops (shut : Bool) : PoolCode.loop.weight workers size shut ≤ size + 5 := by
    cases shut with
    | true => exact Nat.le_add_left 1 _
    | false => exact le_refl _
  cases c with
  | execute isVoid dependencies =>
    obtain ⟨locked, lock, same⟩ := Option.map_eq_some_iff.mp ran
    cases same
    obtain ⟨-, rfl⟩ := Pool.lock_eq lock
    simp only [follows, PoolCode.weight, executeWork, Pool.spare, List.map_cons, List.map_nil,
      List.sum_cons, List.sum_nil, Option.elim_none]
    omega
  | whenAll isVoid dependencies =>
    cases ran
    simp only [follows, PoolCode.weight, executeWork, Pool.spare, List.map_cons, List.map_nil,
      List.sum_cons, List.sum_nil, Option.elim_some, Api.cost]
    omega
  | makeTask isVoid dependencies dependency =>
    cases ran
    simp only [follows, PoolCode.weight, Pool.spare, List.map_cons, List.map_nil,
      List.sum_cons, List.sum_nil, Option.elim_some, Api.cost]
    omega
  | emplaceBack task =>
    obtain ⟨notified, notify, same⟩ := Option.map_eq_some_iff.mp ran
    cases same
    obtain ⟨-, rfl⟩ := Pool.notifyOne_eq notify
    have woke := pool.erase_spare workers size woken
    simp only [follows, PoolCode.weight, Pool.spare, List.map_cons, List.map_nil,
      List.sum_cons, List.sum_nil, Option.elim_none, List.length_append, List.length_singleton]
    rw [Nat.add_mul pool.tasks.length 1]
    omega
  | getFuture promise =>
    cases ran
    simp only [follows, PoolCode.weight, Pool.spare, Pool.unlock, List.map_nil, List.sum_nil,
      Option.elim_none]
    omega
  | threadLoop =>
    obtain ⟨locked, lock, same⟩ := Option.map_eq_some_iff.mp ran
    cases same
    obtain ⟨-, rfl⟩ := Pool.lock_eq lock
    have looping := loops pool.shutdownInitiated
    simp only [follows, Pool.spare, List.map_cons, List.map_nil,
      List.sum_cons, List.sum_nil, Option.elim_none]
    change _ ≤ nap size + _ + _
    unfold nap
    omega
  | loop =>
    simp only [Pool.run] at ran
    split at ran
    case isTrue shut =>
      cases ran
      simp only [follows, PoolCode.weight, Pool.spare, Pool.unlock, shut, List.map_nil,
        List.sum_nil, Option.elim_none, if_true]
      omega
    case isFalse running =>
      cases ran
      simp only [follows, PoolCode.weight, Pool.spare, running, List.map_cons, List.map_nil,
        List.sum_cons, List.sum_nil, Option.elim_none, Bool.false_eq_true, if_false]
      omega
  | nextTask index =>
    simp only [Pool.run] at ran
    split at ran
    case h_1 =>
      cases ran
      simp only [follows, PoolCode.weight, Pool.spare, List.map_cons, List.map_nil,
        List.sum_cons, List.sum_nil, Option.elim_none]
      omega
    case h_2 task found =>
      obtain ⟨inside, -⟩ := List.getElem?_eq_some_iff.mp found
      split at ran
      · cases ran
        have one : pool.tasks.length = pool.tasks.length - 1 + 1 := by omega
        have taken : (PoolCode.unlock task).weight workers size pool.shutdownInitiated =
            queuedWork workers size := rfl
        simp only [follows, Pool.spare, List.map_cons, List.map_nil, List.sum_cons, List.sum_nil,
          Option.elim_none, taken, List.length_eraseIdx_of_lt inside]
        rw [one, Nat.add_mul (pool.tasks.length - 1) 1]
        simp only [PoolCode.weight, Nat.add_sub_cancel]
        omega
      · cases ran
        simp only [follows, PoolCode.weight, Pool.spare, List.map_cons, List.map_nil,
          List.sum_cons, List.sum_nil, Option.elim_none]
        omega
  | unlock task | call task =>
    cases ran
    simp only [follows, PoolCode.weight, taskWork, Pool.spare, Pool.unlock, List.map_cons,
      List.map_nil, List.sum_cons, List.sum_nil, Option.elim_none]
    omega
  | func task => cases ran
  | relock task =>
    obtain ⟨locked, lock, same⟩ := Option.map_eq_some_iff.mp ran
    cases same
    obtain ⟨-, rfl⟩ := Pool.lock_eq lock
    simp only [follows, PoolCode.weight, taskWork, Pool.spare, List.map_cons, List.map_nil,
      List.sum_cons, List.sum_nil, Option.elim_none, Nat.sub_zero]
    omega
  | notify task index =>
    simp only [Pool.run] at ran
    split at ran
    case isTrue more =>
      obtain ⟨notified, notify, same⟩ := Option.map_eq_some_iff.mp ran
      cases same
      obtain ⟨-, rfl⟩ := Pool.notifyOne_eq notify
      have woke := pool.erase_spare workers size woken
      have left : workers - index = workers - (index + 1) + 1 := by omega
      simp only [follows, PoolCode.weight, taskWork, Pool.spare, List.map_cons, List.map_nil,
        List.sum_cons, List.sum_nil, Option.elim_none]
      rw [left, Nat.add_mul (workers - (index + 1)) 1]
      omega
    case isFalse =>
      cases ran
      simp only [follows, PoolCode.weight, taskWork, Pool.spare, List.map_cons, List.map_nil,
        List.sum_cons, List.sum_nil, Option.elim_none]
      omega
  | release task =>
    cases ran
    have looping := loops pool.shutdownInitiated
    simp only [follows, Pool.spare, List.map_cons, List.map_nil, List.sum_cons, List.sum_nil,
      Option.elim_some, Api.cost]
    change _ ≤ work size 0 + nap size + _ + _
    unfold nap
    omega
  | noTask =>
    simp only [Pool.run] at ran
    split at ran
    case isTrue shut =>
      cases ran
      simp only [follows, PoolCode.weight, Pool.spare, shut, List.map_cons, List.map_nil,
        List.sum_cons, List.sum_nil, Option.elim_none, if_true]
      omega
    case isFalse running =>
      cases ran
      have added := Finset.card_insert_of_notMem (awake (by decide))
      change (insert thread pool.sleeping).card ≤ workers at few
      have room : workers - pool.sleeping.card =
          workers - (insert thread pool.sleeping).card + 1 := by omega
      simp only [follows, PoolCode.weight, Pool.spare, Pool.unlock, List.map_cons, List.map_nil,
        List.sum_cons, List.sum_nil, Option.elim_none]
      rw [room, Nat.add_mul (workers - (insert thread pool.sleeping).card) 1]
      omega
  | waitFor =>
    simp only [Pool.run] at ran
    split at ran
    case isTrue asleep =>
      cases ran
      have woke := pool.erase_spare workers size thread
      simp only [follows, PoolCode.weight, Pool.spare, Pool.surcharge, asleep, List.map_cons,
        List.map_nil, List.sum_cons, List.sum_nil, Option.elim_none, if_true]
      omega
    case isFalse up =>
      obtain ⟨locked, lock, same⟩ := Option.map_eq_some_iff.mp ran
      cases same
      obtain ⟨-, rfl⟩ := Pool.lock_eq lock
      have looping := loops pool.shutdownInitiated
      simp only [follows, Pool.spare, List.map_cons, List.map_nil,
        List.sum_cons, List.sum_nil, Option.elim_none]
      change _ ≤ nap size + _ + _
      unfold nap
      omega
  | shutdownNotifyThreads =>
    obtain ⟨locked, lock, same⟩ := Option.map_eq_some_iff.mp ran
    cases same
    obtain ⟨-, rfl⟩ := Pool.lock_eq lock
    simp only [follows, PoolCode.weight, Pool.spare, Pool.unlock, List.map_cons, List.map_nil,
      List.sum_cons, List.sum_nil, Option.elim_none, Finset.card_empty, Nat.sub_zero]
    omega
  | shutdownJoinThreads index =>
    simp only [Pool.run] at ran
    split at ran
    · split at ran
      · cases ran
        simp only [follows, PoolCode.weight, Pool.spare, List.map_cons, List.map_nil,
          List.sum_cons, List.sum_nil, Option.elim_none]
        omega
      · cases ran
    · cases ran
      simp only [follows, PoolCode.weight, Pool.spare, List.map_cons, List.map_nil,
        List.sum_cons, List.sum_nil, Option.elim_none]
      omega
  | shutdownDestroyRemainingTasks =>
    simp only [Pool.run] at ran
    split at ran
    case h_1 =>
      cases ran
      simp only [follows, PoolCode.weight, Pool.spare, List.map_nil, List.sum_nil,
        Option.elim_none]
      omega
    case h_2 task rest queued =>
      cases ran
      have covers : work size 0 + 1 ≤ queuedWork workers size := by
        unfold queuedWork
        omega
      simp only [follows, PoolCode.weight, Pool.spare, List.map_cons, List.map_nil,
        List.sum_cons, List.sum_nil, Option.elim_some, Api.cost, queued, List.length_cons]
      rw [Nat.add_mul rest.length 1]
      omega

end Statements

end Azul.Async
