import Azul.Foundation.System
import Azul.Ipc.QueueRefinement

/-!
# A process that dies inside a call of the queue

A process that dies between two stores of a call leaves a part of them behind, and the robust mutex
hands the region to the next process as it is. Moving a position and counting are separate stores,
so that only a queue of one slot, or a call that so far has only stored an item, leaves the words in
order.
-/

namespace Azul.Ipc

open Azul.Foundation Operation

variable {Item : Type} [DecidableEq Item]

/-- The stores of a call. -/
def Call.stores (queue : Queue) (memory : Memory Item) (call : Call Item) : List (Store Item) :=
  ((call.operation queue).perform (Run.new memory)).2.stores

/-- What a process leaves that dies after a number of the stores of a call. -/
def Call.left (queue : Queue) (memory : Memory Item) (call : Call Item) (made : Nat) :
    Memory Item :=
  ((call.stores queue memory).take made).foldl Store.apply memory

/-- A process dies between two stores of a call. -/
def Call.Between (queue : Queue) (memory : Memory Item) (call : Call Item) (made : Nat) : Prop :=
  0 < made ∧ made < (call.stores queue memory).length
  deriving Decidable

/-- The first store of the call is that of an item. -/
def Call.storesItem : Call Item → Bool
  | pushBack _ | remove _ => true
  | pop | popBack | front | back | contains _ | count | spaceAvailable => false

/-- The stores made so far do not tell the positions from the count: there is one position only, or
just an item was stored. -/
def Call.Harmless (queue : Queue) (call : Call Item) (made : Nat) : Prop :=
  queue.size.toNat = 1 ∨ made = 1 ∧ call.storesItem = true
  deriving Decidable

/-- What processes do to the region. -/
inductive QueueEvent (Item : Type)
  | call (handle : Queue) (call : Call Item)
  | dies (handle : Queue) (call : Call Item) (made : Nat)

/-- The region of a queue from its construction on. The mutex makes calls of handles follow each
other, also after a process has died in one. -/
def queueSystem (queue : Queue) : System (Memory Item) (QueueEvent Item) where
  initial memory := ∃ itemSize size before constructed,
    (Queue.construct itemSize size true).perform (Run.new before) = (.ok queue, constructed) ∧
      constructed.memory = memory
  step memory
    | .call handle call =>
      if handle.size = queue.size then
        some ((call.operation handle).perform (Run.new memory)).2.memory
      else
        none
    | .dies handle call made =>
      if handle.size = queue.size ∧ call.Between handle memory made then
        some (call.left handle memory made)
      else
        none

/-- No process dies where it leaves the words in disorder. -/
def QueueEvent.Harmless (_ : Memory Item) : QueueEvent Item → Prop
  | call _ _ => True
  | dies handle interrupted made => interrupted.Harmless handle made

instance (memory : Memory Item) (event : QueueEvent Item) :
    Decidable (event.Harmless memory) := by
  cases event with
  | call handle call => exact inferInstanceAs (Decidable True)
  | dies handle call made => exact inferInstanceAs (Decidable (call.Harmless handle made))

/-! ## The stores of each call -/

/-- The stores of a call, and when it makes them. -/
inductive Stored (queue : Queue) (memory : Memory Item) : Call Item → List (Store Item) → Prop
  | none (call : Call Item) : Stored queue memory call []
  | pushBack (item : Item) (space : memory.count < queue.size) :
    Stored queue memory (.pushBack item) [
      .item memory.writePosition item,
      .writePosition ((memory.writePosition + 1 + queue.size) % queue.size),
      .count (memory.count + 1)]
  | pop (available : 0 < memory.count) : Stored queue memory .pop [
      .readPosition ((memory.readPosition + 1 + queue.size) % queue.size),
      .count (memory.count - 1)]
  | popBack (available : 0 < memory.count) : Stored queue memory .popBack [
      .writePosition ((memory.writePosition - 1 + queue.size) % queue.size),
      .count (memory.count - 1)]
  | remove (item : Item) (position : Word32) (available : 0 < memory.count) :
    Stored queue memory (.remove item) [
      .item position (memory.items (queue.backSlot memory).toNat),
      .writePosition ((memory.writePosition - 1 + queue.size) % queue.size),
      .count (memory.count - 1)]

variable {queue : Queue} {memory : Memory Item}

/-- Every call makes the stores listed for it. -/
theorem Call.stored (room : 3 * queue.size.toNat ≤ 2 ^ 32) (valid : memory.Valid queue.size)
    (call : Call Item) : Stored queue memory call (call.stores queue memory) := by
  unfold Call.stores
  cases call with
  | pushBack item =>
    rw [Call.operation]
    by_cases space : memory.count < queue.size
    · rw [perform_bind (Queue.pushBack_perform space item), perform_pure]
      exact Stored.pushBack item space
    · rw [perform_bind_throw (Queue.pushBack_throws space item)]
      exact Stored.none _
  | pop =>
    rw [Call.operation]
    by_cases available : 0 < memory.count
    · rw [perform_bind (Queue.pop_perform available), perform_pure]
      exact Stored.pop available
    · rw [perform_bind_throw (Queue.pop_throws available)]
      exact Stored.none _
  | popBack =>
    rw [Call.operation]
    by_cases available : 0 < memory.count
    · rw [perform_bind (Queue.popBack_perform available), perform_pure]
      exact Stored.popBack available
    · rw [perform_bind_throw (Queue.popBack_throws available)]
      exact Stored.none _
  | front =>
    rw [Call.operation]
    by_cases available : 0 < memory.count
    · rw [perform_bind (Queue.front_perform available), perform_pure]
      exact Stored.none _
    · rw [perform_bind_throw (Queue.front_throws available)]
      exact Stored.none _
  | back =>
    rw [Call.operation]
    by_cases available : 0 < memory.count
    · rw [perform_bind (Queue.back_perform available), perform_pure]
      exact Stored.none _
    · rw [perform_bind_throw (Queue.back_throws available)]
      exact Stored.none _
  | remove item =>
    obtain ⟨found, slots, finds, _, what, _⟩ :=
      @Queue.find_perform _ queue (Run.new memory) _ room valid item
        (Run.new memory).memory.count.toNat 0 (Nat.zero_add _)
    rw [Call.operation]
    cases found with
    | some position =>
      obtain ⟨j, before, _⟩ := what
      have available : 0 < memory.count := by
        show 0 < memory.count.toNat
        exact Nat.zero_lt_of_lt before
      rw [perform_bind (Queue.remove_perform available finds), perform_pure]
      exact Stored.remove item position available
    | none =>
      obtain ⟨searched, performed, _⟩ := Queue.remove_misses finds
      rw [perform_bind performed, perform_pure]
      exact Stored.none _
  | contains item =>
    obtain ⟨found, slots, finds, _⟩ :=
      @Queue.find_perform _ queue (Run.new memory) _ room valid item
        (Run.new memory).memory.count.toNat 0 (Nat.zero_add _)
    have contained := Queue.contains_perform finds
    rw [Call.operation, perform_bind contained, perform_pure]
    exact Stored.none _
  | count =>
    rw [Call.operation, perform_bind (Queue.count_perform _), perform_pure]
    exact Stored.none _
  | spaceAvailable =>
    rw [Call.operation, perform_bind (queue.spaceAvailable_perform _), perform_pure]
    exact Stored.none _

/-! ## What is left behind -/

section Room

variable (room : 3 * queue.size.toNat ≤ 2 ^ 32) (valid : memory.Valid queue.size)

include room valid

/-- What a process leaves that dies inside a call is in order exactly at the harmless points. -/
theorem Call.left_valid_iff (call : Call Item) {made : Nat}
    (between : call.Between queue memory made) :
    (call.left queue memory made).Valid queue.size ↔ call.Harmless queue made := by
  obtain ⟨some_made, some_left⟩ := between
  have stored := call.stored room valid
  unfold Call.left Call.Harmless
  generalize call.stores queue memory = stores at stored some_left ⊢
  cases stored with
  | none => exact absurd some_left (Nat.not_lt_zero made)
  | pop available =>
    have first : made = 1 := by
      rw [show ([_, _] : List (Store Item)).length = 2 from rfl] at some_left
      omega
    rw [first]
    simp only [List.take_succ_cons, List.take_zero, List.foldl_cons, List.foldl_nil]
    rw [valid.advanced_iff room available]
    simp [Call.storesItem]
  | popBack available =>
    have first : made = 1 := by
      rw [show ([_, _] : List (Store Item)).length = 2 from rfl] at some_left
      omega
    rw [first]
    simp only [List.take_succ_cons, List.take_zero, List.foldl_cons, List.foldl_nil]
    rw [valid.retreated_iff room available]
    simp [Call.storesItem]
  | pushBack item space =>
    rw [show ([_, _, _] : List (Store Item)).length = 3 from rfl] at some_left
    have point : made = 1 ∨ made = 2 := by omega
    rcases point with first | second
    · rw [first]
      exact iff_of_true (valid.item _ _) (Or.inr ⟨rfl, rfl⟩)
    · rw [second]
      simp only [List.take_succ_cons, List.take_zero, List.foldl_cons, List.foldl_nil]
      have extended := (valid.item memory.writePosition item).extended_iff room space
      apply extended.trans
      simp [Call.storesItem]
  | remove item position available =>
    rw [show ([_, _, _] : List (Store Item)).length = 3 from rfl] at some_left
    have point : made = 1 ∨ made = 2 := by omega
    rcases point with first | second
    · rw [first]
      exact iff_of_true (valid.item _ _) (Or.inr ⟨rfl, rfl⟩)
    · rw [second]
      simp only [List.take_succ_cons, List.take_zero, List.foldl_cons, List.foldl_nil]
      have retreated := (valid.item position
        (memory.items (queue.backSlot memory).toNat)).retreated_iff room available
      apply retreated.trans
      simp [Call.storesItem]

end Room

/-! ## Runs -/

/-- In every run in which processes die only at harmless points the words are in order. -/
theorem reachable_valid {queue : Queue} (room : 3 * queue.size.toNat ≤ 2 ^ 32)
    {memory : Memory Item}
    (reached : ((queueSystem queue).under QueueEvent.Harmless).Reachable memory) :
    memory.Valid queue.size := by
  apply reached.invariant
  · intro initial starts
    obtain ⟨itemSize, size, before, constructed, constructs, same⟩ := starts
    rw [Queue.construct_perform] at constructs
    obtain ⟨_, started⟩ := Prod.mk.inj constructs
    rw [← same, ← started]
    exact Memory.valid_zero before.items queue.size
  · intro memory event after _ valid stepped
    obtain ⟨harmless, stepped⟩ := System.under_step.mp stepped
    cases event with
    | call handle call =>
      obtain ⟨shares, same⟩ := Option.ite_none_right_eq_some.mp stepped
      rw [← shares] at room valid ⊢
      rw [← Option.some.inj same]
      exact (@Call.refines _ handle (Run.new memory) _ room valid call).valid
    | dies handle call made =>
      obtain ⟨⟨shares, between⟩, same⟩ := Option.ite_none_right_eq_some.mp stepped
      rw [← shares] at room valid ⊢
      rw [← Option.some.inj same]
      exact (call.left_valid_iff room valid between).mpr harmless

/-- The region is in order, and the calls of the surviving processes behave as those of a
double-ended list. -/
structure Survives (queue : Queue) (memory : Memory Item) : Prop where
  valid : memory.Valid queue.size
  calls : ∀ (handle : Queue) (call : Call Item), handle.size = queue.size →
    call.Refines queue.size (Run.new memory) ((call.operation handle).perform (Run.new memory))

/-- The invariant is all that the surviving processes need. -/
theorem Survives.of_valid {queue : Queue} (room : 3 * queue.size.toNat ≤ 2 ^ 32)
    {memory : Memory Item} (valid : memory.Valid queue.size) : Survives queue memory where
  valid := valid
  calls handle call shares := by
    rw [← shares] at room valid ⊢
    exact @Call.refines _ handle (Run.new memory) _ room valid call

/-- After every run in which processes died at harmless points only, the queue survives a process
that dies between two stores of a call exactly if that point is harmless too. -/
theorem survives_iff_harmless {queue : Queue} (room : 3 * queue.size.toNat ≤ 2 ^ 32)
    {memory : Memory Item}
    (reached : ((queueSystem queue).under QueueEvent.Harmless).Reachable memory)
    {handle : Queue} (shares : handle.size = queue.size) (call : Call Item) {made : Nat}
    (between : call.Between handle memory made) :
    Survives queue (call.left handle memory made) ↔ call.Harmless handle made := by
  have valid := reachable_valid room reached
  have left : (call.left handle memory made).Valid queue.size ↔ call.Harmless handle made := by
    rw [← shares] at room valid ⊢
    exact call.left_valid_iff room valid between
  rw [← left]
  exact ⟨Survives.valid, Survives.of_valid room⟩

/-- Three slots of fresh memory. -/
def fresh : Memory Nat where
  items slot := slot
  readPosition := 0
  writePosition := 0
  count := 0

/-- Three slots, of which the first holds an item. -/
def oneItem : Memory Nat :=
  (((Call.pushBack 7).operation ⟨3⟩).perform (Run.new fresh)).2.memory

/-- The constructor leaves fresh memory with its words cleared. -/
theorem fresh_initial : (queueSystem ⟨3⟩).initial fresh :=
  ⟨4, 24, fresh, _, Queue.construct_perform 4 24 fresh, rfl⟩

/-- Pushing an item into a fresh queue, and dying in a `Pop` after its first store. -/
theorem survives_iff_harmless_pop :
    Survives ⟨3⟩ (Call.pop.left ⟨3⟩ oneItem 1) ↔ (Call.pop : Call Nat).Harmless ⟨3⟩ 1 := by
  have reached : ((queueSystem ⟨3⟩).under QueueEvent.Harmless).Reachable oneItem := by
    have harmless : QueueEvent.Harmless fresh (.call ⟨3⟩ (.pushBack 7)) := trivial
    have starts : ((queueSystem ⟨3⟩).under QueueEvent.Harmless).initial fresh := fresh_initial
    exact (System.Reachable.start starts).next (System.under_step.mpr ⟨harmless, rfl⟩)
  exact @survives_iff_harmless Nat _ ⟨3⟩ (by decide) oneItem reached ⟨3⟩ rfl .pop 1 (by decide)

/-- The words are in disorder then, and the next process is handed an item nobody has pushed. -/
theorem pop_dies :
    (queueSystem ⟨3⟩).Reachable oneItem ∧ oneItem.Valid 3 ∧ Call.pop.Between ⟨3⟩ oneItem 1 ∧
      ¬ Survives ⟨3⟩ (Call.pop.left ⟨3⟩ oneItem 1) ∧
      (Queue.front.perform (Run.new (Call.pop.left ⟨3⟩ oneItem 1))).1.toOption = some 1 := by
  refine ⟨?_, ⟨by decide, by decide, by decide, by decide⟩, by decide, ?_, by decide⟩
  · apply System.Reachable.next (System.Reachable.start fresh_initial)
    exact (rfl : (queueSystem ⟨3⟩).step fresh (.call ⟨3⟩ (.pushBack 7)) = some oneItem)
  · intro survives
    exact absurd survives.valid.write_eq (by decide)

end Azul.Ipc
