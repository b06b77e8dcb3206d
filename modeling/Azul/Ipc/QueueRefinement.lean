import Azul.Ipc.QueueContents

/-!
# Runs of the queue refine runs of a bounded double-ended list

The abstract model is a list of at most `capacity` items. A call of a handle performs its operation
on the region, and what it replies and leaves behind is what the abstract model allows. By
induction this holds of every sequence of calls through handles of one capacity.
-/

namespace Azul.Ipc

open Azul.Foundation Operation

variable {Item : Type} {queue : Queue} {run : Run Item}

/-! ## Operations -/

namespace Queue

/-- What the initializing constructor leaves. -/
theorem construct_perform (itemSize size : Word32) (memory : Memory Item) :
    (construct itemSize size true).perform (Run.new memory) =
      (.ok { size := (size - 4 * 3) / itemSize },
        (Run.new memory).stored [.readPosition 0, .writePosition 0, .count 0]) := rfl

theorem pop_perform (available : 0 < run.memory.count) :
    queue.pop.perform run = (.ok (), run.stored [
      .readPosition ((run.memory.readPosition + 1 + queue.size) % queue.size),
      .count (run.memory.count - 1)]) := by
  unfold pop
  rw [perform_bind (perform_words _), if_pos available, perform_bind (perform_words _),
    perform_bind (perform_store _ _), perform_bind (perform_words _), perform_store,
    Run.stored_stored]
  rfl

theorem pop_throws (none : ¬ 0 < run.memory.count) :
    queue.pop.perform run = (.error "no item available", run) := by
  unfold pop
  rw [perform_bind (perform_words _), if_neg none, perform_throw]

theorem popBack_perform (available : 0 < run.memory.count) :
    queue.popBack.perform run = (.ok (), run.stored [
      .writePosition ((run.memory.writePosition - 1 + queue.size) % queue.size),
      .count (run.memory.count - 1)]) := by
  unfold popBack
  rw [perform_bind (perform_words _), if_pos available, perform_bind (perform_words _),
    perform_bind (perform_store _ _), perform_bind (perform_words _), perform_store,
    Run.stored_stored]
  rfl

theorem popBack_throws (none : ¬ 0 < run.memory.count) :
    queue.popBack.perform run = (.error "no item available", run) := by
  unfold popBack
  rw [perform_bind (perform_words _), if_neg none, perform_throw]

theorem front_perform (available : 0 < run.memory.count) :
    front.perform run = (.ok (run.memory.items run.memory.readPosition.toNat),
      run.loaded [run.memory.readPosition.toNat]) := by
  unfold front
  rw [perform_bind (perform_words _), if_pos available, perform_bind (perform_words _),
    perform_load]

theorem front_throws (none : ¬ 0 < run.memory.count) :
    front.perform run = (.error "no item available", run) := by
  unfold front
  rw [perform_bind (perform_words _), if_neg none, perform_throw]

/-- The slot `Back` reads. -/
def backSlot (queue : Queue) (memory : Memory Item) : Word32 :=
  (memory.writePosition + queue.size - 1) % queue.size

theorem back_perform (available : 0 < run.memory.count) :
    queue.back.perform run = (.ok (run.memory.items (queue.backSlot run.memory).toNat),
      run.loaded [(queue.backSlot run.memory).toNat]) := by
  unfold back
  rw [perform_bind (perform_words _), if_pos available, perform_bind (perform_words _),
    perform_load]
  rfl

theorem back_throws (none : ¬ 0 < run.memory.count) :
    queue.back.perform run = (.error "no item available", run) := by
  unfold back
  rw [perform_bind (perform_words _), if_neg none, perform_throw]

theorem count_perform (run : Run Item) : count.perform run = (.ok run.memory.count, run) := rfl

theorem spaceAvailable_perform (queue : Queue) (run : Run Item) :
    queue.spaceAvailable.perform run = (.ok (run.memory.count < queue.size), run) := rfl

theorem pushBack_perform (space : run.memory.count < queue.size) (item : Item) :
    (queue.pushBack item).perform run = (.ok (), run.stored [
      .item run.memory.writePosition item,
      .writePosition ((run.memory.writePosition + 1 + queue.size) % queue.size),
      .count (run.memory.count + 1)]) := by
  have available := queue.spaceAvailable_perform run
  rw [decide_eq_true space] at available
  unfold pushBack
  rw [perform_bind available, if_pos rfl, perform_bind (perform_words _),
    perform_bind (perform_store _ _), perform_bind (perform_words _),
    perform_bind (perform_store _ _), perform_bind (perform_words _), perform_store,
    Run.stored_stored, Run.stored_stored]
  rfl

theorem pushBack_throws (full : ¬ run.memory.count < queue.size) (item : Item) :
    (queue.pushBack item).perform run = (.error "no space available", run) := by
  have available := queue.spaceAvailable_perform run
  rw [decide_eq_false full] at available
  unfold pushBack
  rw [perform_bind available, if_neg Bool.false_ne_true, perform_throw]

end Queue

/-! ## Searching -/

/-- What the loop of `Contains` and `Remove` finds from the item at an index on. -/
def Memory.Found (memory : Memory Item) (size : Word32) (item : Item) (start : Nat) :
    Option Word32 → Prop
  | some position => ∃ j < memory.count.toNat,
      position.toNat = (memory.readPosition.toNat + j) % size.toNat ∧
        memory.items position.toNat = item
  | none => ∀ j, start ≤ j → j < memory.count.toNat →
      memory.items ((memory.readPosition.toNat + j) % size.toNat) ≠ item

/-- No item from an index on is the one that is found later. -/
def Memory.Skipped (memory : Memory Item) (size : Word32) (item : Item) (start : Nat)
    (found : Option Word32) : Prop :=
  ∀ position, found = some position → ∃ j < memory.count.toNat,
    position.toNat = (memory.readPosition.toNat + j) % size.toNat ∧
      ∀ k, start ≤ k → k < j →
        memory.items ((memory.readPosition.toNat + k) % size.toNat) ≠ item

namespace Queue

variable [DecidableEq Item]

/-- The loop loads items from slots of the queue until it finds the item. -/
theorem find_perform (room : 3 * queue.size.toNat ≤ 2 ^ 32) (valid : run.memory.Valid queue.size)
    (item : Item) (turns : Nat) (i : Word32) (left : i.toNat + turns = run.memory.count.toNat) :
    ∃ found slots, (queue.find item turns i).perform run = (.ok found, run.loaded slots) ∧
      (∀ slot ∈ slots, slot < queue.size.toNat) ∧
      run.memory.Found queue.size item i.toNat found ∧
      run.memory.Skipped queue.size item i.toNat found := by
  induction turns generalizing i run with
  | zero =>
    refine ⟨none, [], ?_, fun slot member => absurd member List.not_mem_nil, ?_, nofun⟩
    · rw [find, perform_pure]
      unfold Run.loaded
      rw [List.append_nil]
    · intro j from_i before
      omega
  | succ turns ih =>
    have before : i.toNat < run.memory.count.toNat := by omega
    have continues : i < run.memory.count := before
    have fits := valid.count_le
    have slots : 0 < queue.size.toNat := by omega
    have at_i := slot_toNat room (valid.read_lt slots) (show i.toNat ≤ queue.size.toNat by omega)
    rw [find, perform_bind (perform_words _), if_pos continues, perform_bind (perform_words _),
      perform_bind (perform_load _ _)]
    generalize (run.memory.readPosition + i + queue.size) % queue.size = position at at_i ⊢
    have inside : position.toNat < queue.size.toNat := by
      rw [at_i]
      exact Nat.mod_lt _ slots
    by_cases same : run.memory.items position.toNat = item
    · refine ⟨some position, [position.toNat], by rw [if_pos same, perform_pure], ?_,
        ⟨i.toNat, before, at_i, same⟩, ?_⟩
      · intro slot member
        rw [List.mem_singleton.mp member]
        exact inside
      · intro found is
        rw [← Option.some.inj is]
        exact ⟨i.toNat, before, at_i, fun k from_i below => by omega⟩
    · have next : (i + 1).toNat = i.toNat + 1 := by
        have := run.memory.count.isLt
        exact BitVec.toNat_add_of_lt (by rw [show (1 : Word32).toNat = 1 from rfl]; omega)
      obtain ⟨found, rest, performed, below, finds, skips⟩ :=
        @ih (run.loaded [position.toNat]) valid (i + 1) (by rw [next, Run.loaded_memory]; omega)
      have other : run.memory.items
          ((run.memory.readPosition.toNat + i.toNat) % queue.size.toNat) ≠ item := by
        rw [← at_i]
        exact same
      refine ⟨found, [position.toNat] ++ rest,
        by rw [if_neg same, performed, Run.loaded_loaded], ?_, ?_, ?_⟩
      · intro slot member
        rw [List.singleton_append, List.mem_cons] at member
        rcases member with here | later
        · rw [here]
          exact inside
        · exact below slot later
      · match found, finds with
        | some _, finds => exact finds
        | none, misses =>
          intro j from_i before_end
          by_cases here : j = i.toNat
          · rw [here]
            exact other
          · exact misses j (by rw [next]; omega) before_end
      · intro place is
        obtain ⟨j, bound, at_j, skipped⟩ := skips place is
        refine ⟨j, bound, at_j, fun k from_i before_j => ?_⟩
        by_cases here : k = i.toNat
        · rw [here]
          exact other
        · exact skipped k (by rw [next]; omega) before_j

/-- Whether the loop finds an item is whether the item is listed. -/
theorem found_iff {memory : Memory Item} {size : Word32} {item : Item} {found : Option Word32}
    (finds : memory.Found size item 0 found) :
    found.isSome = decide (item ∈ memory.contents size) := by
  unfold Memory.contents
  match found, finds with
  | some position, ⟨j, before, at_j, same⟩ =>
    rw [at_j] at same
    exact (decide_eq_true (CircularBuffer.mem_contents.mpr ⟨j, before, same⟩)).symm
  | none, misses =>
    apply (decide_eq_false _).symm
    intro listed
    obtain ⟨j, before, same⟩ := CircularBuffer.mem_contents.mp listed
    exact misses j (Nat.zero_le j) before same

theorem contains_perform {item : Item} {found : Option Word32} {slots : List Nat}
    (finds : (queue.find item run.memory.count.toNat 0).perform run =
      (.ok found, run.loaded slots)) :
    (queue.contains item).perform run = (.ok found.isSome, run.loaded slots) := by
  unfold contains
  rw [perform_bind (perform_words _), perform_bind finds, perform_pure]

/-- Removing stores the last item into the slot of the found one and pops the last one. -/
theorem remove_perform {item : Item} (available : 0 < run.memory.count) {position : Word32}
    {slots : List Nat}
    (finds : (queue.find item run.memory.count.toNat 0).perform run =
      (.ok (some position), run.loaded slots)) :
    (queue.remove item).perform run =
      (.ok true, (run.loaded (slots ++ [(queue.backSlot run.memory).toNat])).stored [
        .item position (run.memory.items (queue.backSlot run.memory).toNat),
        .writePosition ((run.memory.writePosition - 1 + queue.size) % queue.size),
        .count (run.memory.count - 1)]) := by
  have some_items : ¬ run.memory.count = 0 := fun none => by
    rw [none] at available
    exact absurd available (by decide)
  unfold remove
  rw [perform_bind (count_perform run), if_neg some_items,
    perform_bind (perform_words _), perform_bind finds]
  change (queue.back >>= _).perform _ = _
  have at_back : 0 < (run.loaded slots).memory.count := available
  have at_pop : 0 < ((run.loaded (slots ++ [(queue.backSlot run.memory).toNat])).stored
      [.item position (run.memory.items (queue.backSlot run.memory).toNat)]).memory.count :=
    available
  rw [perform_bind (back_perform at_back), Run.loaded_loaded, perform_bind (perform_store _ _)]
  rw [Run.loaded_memory]
  rw [perform_bind (popBack_perform at_pop), Run.stored_stored, perform_pure]
  rfl

/-- Removing an item that no slot of the queue holds changes nothing. -/
theorem remove_misses {item : Item} {slots : List Nat}
    (finds : (queue.find item run.memory.count.toNat 0).perform run =
      (.ok none, run.loaded slots)) :
    ∃ slots', (queue.remove item).perform run = (.ok false, run.loaded slots') ∧
      slots' ⊆ slots := by
  unfold remove
  rw [perform_bind (count_perform run)]
  by_cases empty : run.memory.count = 0
  · refine ⟨[], ?_, List.nil_subset _⟩
    rw [if_pos empty, perform_pure]
    unfold Run.loaded
    rw [List.append_nil]
  · refine ⟨slots, ?_, fun _ member => member⟩
    rw [if_neg empty, perform_bind (perform_words _), perform_bind finds]
    rfl

end Queue

/-- The last item is in the slot before the write position, and a store replaces an item in its
place; then `PopBack` drops the last one. -/
theorem Memory.Valid.moved {memory : Memory Item} (valid : memory.Valid queue.size)
    (room : 3 * queue.size.toNat ≤ 2 ^ 32) (available : 0 < memory.count) {position : Word32}
    {j : Nat} (before : j < memory.count.toNat)
    (at_j : position.toNat = (memory.readPosition.toNat + j) % queue.size.toNat) :
    let last := memory.items (queue.backSlot memory).toNat
    let moved := Store.apply memory (.item position last)
    (memory.contents queue.size)[(memory.contents queue.size).length - 1]? = some last ∧
      moved.contents queue.size = (memory.contents queue.size).set j last ∧
      ∃ other, moved.contents queue.size =
        (moved.poppedBack queue.size).contents queue.size ++ [other] := by
  intro last moved
  have slots := valid.slots available
  have back : (queue.backSlot memory).toNat =
      (memory.readPosition.toNat + (memory.count.toNat - 1)) % queue.size.toNat := by
    unfold Queue.backSlot
    rw [last_toNat room (valid.write_lt slots), valid.last available]
  refine ⟨?_, ?_, ?_⟩
  · rw [Memory.contents_length]
    show _ = some (memory.items _)
    rw [back]
    exact CircularBuffer.contents_getElem? _ _ (by omega)
  · show CircularBuffer.contents (Function.update _ position.toNat _) _ _ _ = _
    rw [at_j]
    exact CircularBuffer.contents_update _ _ valid.count_le (before.trans_le valid.count_le) _
  · exact ((valid.item position last).poppedBack room available).2

/-- The region that `Remove` leaves holds one occurrence of the item less. -/
theorem Memory.Valid.removed [DecidableEq Item] {memory : Memory Item}
    (valid : memory.Valid queue.size) (room : 3 * queue.size.toNat ≤ 2 ^ 32)
    (available : 0 < memory.count) {item : Item} {position : Word32}
    (found : memory.Found queue.size item 0 (some position)) :
    let moved := Store.apply memory
      (.item position (memory.items (queue.backSlot memory).toNat))
    (moved.poppedBack queue.size).Valid queue.size ∧
      ((moved.poppedBack queue.size).contents queue.size).Perm
        ((memory.contents queue.size).erase item) := by
  intro moved
  obtain ⟨j, before, at_j, same⟩ := found
  have found : (memory.contents queue.size)[j]? = some item := by
    rw [← same, at_j]
    exact CircularBuffer.contents_getElem? _ _ before
  obtain ⟨last, replaced, other, shorter⟩ := valid.moved room available before at_j
  rw [replaced] at shorter
  exact ⟨((valid.item position _).poppedBack room available).1,
    CircularBuffer.moved_perm found last shorter⟩

/-! ## Calls -/

/-- A call of a handle. -/
inductive Call (Item : Type)
  | pushBack (item : Item)
  | pop
  | popBack
  | front
  | back
  | remove (item : Item)
  | contains (item : Item)
  | count
  | spaceAvailable
  deriving DecidableEq

/-- What a call returns. -/
inductive Reply (Item : Type)
  | done
  | item (value : Item)
  | flag (value : Bool)
  | number (value : Nat)
  deriving DecidableEq

/-- The operation of a call. -/
def Call.operation [DecidableEq Item] (queue : Queue) : Call Item → Operation Item (Reply Item)
  | pushBack item => do
    queue.pushBack item
    return .done
  | pop => do
    queue.pop
    return .done
  | popBack => do
    queue.popBack
    return .done
  | front => return .item (← Queue.front)
  | back => return .item (← queue.back)
  | remove item => return .flag (← queue.remove item)
  | contains item => return .flag (← queue.contains item)
  | count => return .number (← Queue.count).toNat
  | spaceAvailable => return .flag (← queue.spaceAvailable)

/-- What a call of a double-ended list of at most `capacity` items may reply and leave behind. -/
def Call.Meets [DecidableEq Item] (capacity : Nat) (contents : List Item) :
    Call Item → Except String (Reply Item) → List Item → Prop
  | pushBack item, reply, after =>
    if contents.length = capacity then
      reply = .error "no space available" ∧ after = contents
    else
      reply = .ok .done ∧ after = contents ++ [item]
  | pop, reply, after =>
    if contents = [] then
      reply = .error "no item available" ∧ after = contents
    else
      reply = .ok .done ∧ after = contents.tail
  | popBack, reply, after =>
    if contents = [] then
      reply = .error "no item available" ∧ after = contents
    else
      reply = .ok .done ∧ after = contents.dropLast
  | front, reply, after =>
    reply = (contents.head?.map Reply.item).elim (.error "no item available") .ok ∧
      after = contents
  | back, reply, after =>
    reply = (contents.getLast?.map Reply.item).elim (.error "no item available") .ok ∧
      after = contents
  | remove item, reply, after =>
    if item ∈ contents then
      reply = .ok (.flag true) ∧ after.Perm (contents.erase item)
    else
      reply = .ok (.flag false) ∧ after = contents
  | contains item, reply, after => reply = .ok (.flag (item ∈ contents)) ∧ after = contents
  | count, reply, after => reply = .ok (.number contents.length) ∧ after = contents
  | spaceAvailable, reply, after =>
    reply = .ok (.flag (contents.length < capacity)) ∧ after = contents

/-- A call keeps the invariant, accesses no slot beyond the capacity, and does what the abstract
model allows. -/
structure Call.Refines [DecidableEq Item] (size : Word32) (run : Run Item) (call : Call Item)
    (result : Except String (Reply Item) × Run Item) : Prop where
  valid : result.2.memory.Valid size
  meets : call.Meets size.toNat (run.memory.contents size) result.1 (result.2.memory.contents size)
  accessed : ∀ slot ∈ result.2.accessed, slot ∈ run.accessed ∨ slot < size.toNat

/-- Whether an item is available is whether the contents have one. -/
theorem contents_eq_nil : run.memory.contents queue.size = [] ↔ ¬ 0 < run.memory.count := by
  rw [← List.length_eq_zero_iff, Memory.contents_length]
  show _ ↔ ¬ 0 < run.memory.count.toNat
  omega

/-- Whether space is available is whether the contents are shorter than the capacity. -/
theorem contents_full (valid : run.memory.Valid queue.size) :
    (run.memory.contents queue.size).length = queue.size.toNat ↔
      ¬ run.memory.count < queue.size := by
  have fits := valid.count_le
  rw [Memory.contents_length]
  show _ ↔ ¬ run.memory.count.toNat < queue.size.toNat
  omega

/-- The slots that stores access are added to the log. -/
theorem Run.stored_accessed {written : List (Store Item)}
    (below : ∀ slot ∈ written.flatMap Store.slots, slot < queue.size.toNat) :
    ∀ slot ∈ (run.stored written).accessed, slot ∈ run.accessed ∨ slot < queue.size.toNat := by
  intro slot member
  rcases List.mem_append.mp member with before | here
  · exact Or.inl before
  · exact Or.inr (below slot here)

section Refinement

variable [DecidableEq Item]

/-- A call that at most loads items leaves the contents as they are. -/
theorem Call.Refines.loads (valid : run.memory.Valid queue.size) {call : Call Item}
    {reply : Except String (Reply Item)} {slots : List Nat}
    (below : ∀ slot ∈ slots, slot < queue.size.toNat)
    (meets : call.Meets queue.size.toNat (run.memory.contents queue.size) reply
      (run.memory.contents queue.size)) :
    call.Refines queue.size run (reply, run.loaded slots) where
  valid := valid
  meets := meets
  accessed slot member := by
    rcases List.mem_append.mp member with before | here
    · exact Or.inl before
    · exact Or.inr (below slot here)

/-- A call that does not access the items leaves the contents as they are. -/
theorem Call.Refines.unchanged (valid : run.memory.Valid queue.size) {call : Call Item}
    {reply : Except String (Reply Item)}
    (meets : call.Meets queue.size.toNat (run.memory.contents queue.size) reply
      (run.memory.contents queue.size)) :
    call.Refines queue.size run (reply, run) where
  valid := valid
  meets := meets
  accessed _ member := Or.inl member

theorem front_refines (valid : run.memory.Valid queue.size) :
    Call.front.Refines queue.size run ((Call.front.operation queue).perform run) := by
  rw [Call.operation]
  by_cases available : 0 < run.memory.count
  · have read := valid.read_lt (valid.slots available)
    rw [perform_bind (Queue.front_perform available), perform_pure]
    apply Call.Refines.loads valid
    · intro slot member
      rw [List.mem_singleton.mp member]
      exact read
    · have first : (run.memory.contents queue.size).head? =
          some (run.memory.items run.memory.readPosition.toNat) := by
        rw [List.head?_eq_getElem?]
        have count : 0 < run.memory.count.toNat := available
        have at_zero := @CircularBuffer.contents_getElem? _ queue.size.toNat run.memory.items
          run.memory.readPosition.toNat _ _ count
        rw [Nat.add_zero, Nat.mod_eq_of_lt read] at at_zero
        exact at_zero
      rw [Call.Meets, first]
      exact ⟨rfl, rfl⟩
  · rw [perform_bind_throw (Queue.front_throws available)]
    apply Call.Refines.unchanged valid
    rw [Call.Meets, contents_eq_nil.mpr available]
    exact ⟨rfl, rfl⟩

section Room

variable (room : 3 * queue.size.toNat ≤ 2 ^ 32) (valid : run.memory.Valid queue.size)

include room valid

theorem pushBack_refines (item : Item) :
    (Call.pushBack item).Refines queue.size run
      (((Call.pushBack item).operation queue).perform run) := by
  rw [Call.operation]
  by_cases space : run.memory.count < queue.size
  · have fits : run.memory.count.toNat < queue.size.toNat := space
    obtain ⟨kept, appended⟩ := valid.pushed room space item
    rw [perform_bind (Queue.pushBack_perform space item), perform_pure]
    constructor
    · exact kept
    · rw [Call.Meets, if_neg (fun full => (contents_full valid).mp full space)]
      exact ⟨rfl, appended⟩
    · apply Run.stored_accessed
      intro slot member
      rw [List.mem_singleton.mp member]
      exact valid.write_lt (by omega)
  · rw [perform_bind_throw (Queue.pushBack_throws space item)]
    apply Call.Refines.unchanged valid
    rw [Call.Meets, if_pos ((contents_full valid).mpr space)]
    exact ⟨rfl, rfl⟩

theorem pop_refines :
    Call.pop.Refines queue.size run ((Call.pop.operation queue).perform run) := by
  rw [Call.operation]
  by_cases available : 0 < run.memory.count
  · obtain ⟨kept, dropped⟩ := valid.popped room available
    rw [perform_bind (Queue.pop_perform available), perform_pure]
    constructor
    · exact kept
    · rw [Call.Meets, if_neg (fun empty => contents_eq_nil.mp empty available), dropped]
      exact ⟨rfl, rfl⟩
    · exact Run.stored_accessed fun slot member => absurd member List.not_mem_nil
  · rw [perform_bind_throw (Queue.pop_throws available)]
    apply Call.Refines.unchanged valid
    rw [Call.Meets, if_pos (contents_eq_nil.mpr available)]
    exact ⟨rfl, rfl⟩

theorem popBack_refines :
    Call.popBack.Refines queue.size run ((Call.popBack.operation queue).perform run) := by
  rw [Call.operation]
  by_cases available : 0 < run.memory.count
  · obtain ⟨kept, item, dropped⟩ := valid.poppedBack room available
    rw [perform_bind (Queue.popBack_perform available), perform_pure]
    constructor
    · exact kept
    · rw [Call.Meets, if_neg (fun empty => contents_eq_nil.mp empty available), dropped,
        List.dropLast_concat]
      exact ⟨rfl, rfl⟩
    · exact Run.stored_accessed fun slot member => absurd member List.not_mem_nil
  · rw [perform_bind_throw (Queue.popBack_throws available)]
    apply Call.Refines.unchanged valid
    rw [Call.Meets, if_pos (contents_eq_nil.mpr available)]
    exact ⟨rfl, rfl⟩

theorem back_refines :
    Call.back.Refines queue.size run ((Call.back.operation queue).perform run) := by
  rw [Call.operation]
  by_cases available : 0 < run.memory.count
  · have slots := valid.slots available
    have count : 0 < run.memory.count.toNat := available
    have back : (queue.backSlot run.memory).toNat =
        (run.memory.readPosition.toNat + (run.memory.count.toNat - 1)) % queue.size.toNat := by
      unfold Queue.backSlot
      rw [last_toNat room (valid.write_lt slots), valid.last available]
    rw [perform_bind (Queue.back_perform available), perform_pure]
    apply Call.Refines.loads valid
    · intro slot member
      rw [List.mem_singleton.mp member, back]
      exact Nat.mod_lt _ slots
    · have last : (run.memory.contents queue.size).getLast? =
          some (run.memory.items (queue.backSlot run.memory).toNat) := by
        rw [List.getLast?_eq_getElem?, Memory.contents_length, back]
        exact CircularBuffer.contents_getElem? _ _ (by omega)
      rw [Call.Meets, last]
      exact ⟨rfl, rfl⟩
  · rw [perform_bind_throw (Queue.back_throws available)]
    apply Call.Refines.unchanged valid
    rw [Call.Meets, contents_eq_nil.mpr available]
    exact ⟨rfl, rfl⟩

theorem remove_refines (item : Item) :
    (Call.remove item).Refines queue.size run
      (((Call.remove item).operation queue).perform run) := by
  obtain ⟨found, slots, finds, below, what, _⟩ :=
    Queue.find_perform room valid item run.memory.count.toNat 0 (Nat.zero_add _)
  have listed := Queue.found_iff what
  rw [Call.operation]
  match found, finds, what with
  | some position, finds, what =>
    have member := of_decide_eq_true listed.symm
    have available : 0 < run.memory.count := by
      by_contra none
      rw [contents_eq_nil.mpr none] at member
      exact List.not_mem_nil member
    have has_slots := valid.slots available
    obtain ⟨kept, removed⟩ := valid.removed room available what
    rw [perform_bind (Queue.remove_perform available finds), perform_pure]
    constructor
    · exact kept
    · rw [Call.Meets, if_pos member]
      exact ⟨rfl, removed⟩
    · intro slot accessed
      have inside : position.toNat < queue.size.toNat := by
        obtain ⟨j, _, at_j, _⟩ := what
        rw [at_j]
        exact Nat.mod_lt _ has_slots
      rcases Run.stored_accessed (fun slot member => by
        rw [List.mem_singleton.mp member]
        exact inside) slot accessed with loaded | stored
      · rcases List.mem_append.mp loaded with before | here
        · exact Or.inl before
        · rcases List.mem_append.mp here with searched | last
          · exact Or.inr (below slot searched)
          · rw [List.mem_singleton.mp last, Queue.backSlot,
              last_toNat room (valid.write_lt has_slots)]
            exact Or.inr (Nat.mod_lt _ has_slots)
      · exact Or.inr stored
  | none, finds, what =>
    obtain ⟨searched, performed, fewer⟩ := Queue.remove_misses finds
    rw [perform_bind performed, perform_pure]
    apply Call.Refines.loads valid (fun slot member => below slot (fewer member))
    rw [Call.Meets, if_neg (of_decide_eq_false listed.symm)]
    exact ⟨rfl, rfl⟩

theorem contains_refines (item : Item) :
    (Call.contains item).Refines queue.size run
      (((Call.contains item).operation queue).perform run) := by
  obtain ⟨found, slots, finds, below, what, _⟩ :=
    Queue.find_perform room valid item run.memory.count.toNat 0 (Nat.zero_add _)
  rw [Call.operation, perform_bind (Queue.contains_perform finds), perform_pure]
  apply Call.Refines.loads valid below
  rw [Call.Meets, Queue.found_iff what]
  exact ⟨rfl, rfl⟩

/-- Every call does what the abstract model allows. -/
theorem Call.refines (call : Call Item) :
    call.Refines queue.size run ((call.operation queue).perform run) := by
  cases call with
  | pushBack item => exact pushBack_refines room valid item
  | pop => exact pop_refines room valid
  | popBack => exact popBack_refines room valid
  | front => exact front_refines valid
  | back => exact back_refines room valid
  | remove item => exact remove_refines room valid item
  | contains item => exact contains_refines room valid item
  | count =>
    rw [Call.operation, perform_bind (Queue.count_perform run), perform_pure]
    apply Call.Refines.unchanged valid
    rw [Call.Meets, Memory.contents_length]
    exact ⟨rfl, rfl⟩
  | spaceAvailable =>
    rw [Call.operation, perform_bind (queue.spaceAvailable_perform run), perform_pure]
    apply Call.Refines.unchanged valid
    rw [Call.Meets, Memory.contents_length]
    exact ⟨rfl, rfl⟩

end Room

/-! ## Sequences of calls -/

/-- The calls of a sequence, each through its handle, with what they reply. -/
def performAll : List (Queue × Call Item) → Run Item →
    List (Call Item × Except String (Reply Item)) × Run Item
  | [], run => ([], run)
  | (queue, call) :: calls, run =>
    let (reply, next) := (call.operation queue).perform run
    let (replies, last) := performAll calls next
    ((call, reply) :: replies, last)

/-- A run of a double-ended list of at most `capacity` items, from one list to another. -/
inductive Behaves (capacity : Nat) :
    List Item → List (Call Item × Except String (Reply Item)) → List Item → Prop
  | done (contents : List Item) : Behaves capacity contents [] contents
  | call {contents next last : List Item} {call : Call Item} {reply : Except String (Reply Item)}
      {replies : List (Call Item × Except String (Reply Item))}
      (meets : call.Meets capacity contents reply next)
      (rest : Behaves capacity next replies last) :
      Behaves capacity contents ((call, reply) :: replies) last

/-- A sequence of calls through handles of one capacity behaves as the abstract model, keeps the
invariant and accesses no slot beyond the capacity. -/
theorem performAll_behaves {size : Word32} (room : 3 * size.toNat ≤ 2 ^ 32)
    (calls : List (Queue × Call Item)) (attached : ∀ entry ∈ calls, entry.1.size = size)
    {run : Run Item} (valid : run.memory.Valid size)
    (accessed : ∀ slot ∈ run.accessed, slot < size.toNat) :
    (performAll calls run).2.memory.Valid size ∧
      Behaves size.toNat (run.memory.contents size) (performAll calls run).1
        ((performAll calls run).2.memory.contents size) ∧
      ∀ slot ∈ (performAll calls run).2.accessed, slot < size.toNat := by
  induction calls generalizing run with
  | nil => exact ⟨valid, Behaves.done _, accessed⟩
  | cons entry calls ih =>
    have same : entry.1.size = size := attached entry List.mem_cons_self
    subst size
    have refined := entry.2.refines room valid
    have inside : ∀ slot ∈ ((entry.2.operation entry.1).perform run).2.accessed,
        slot < entry.1.size.toNat := fun slot member =>
      (refined.accessed slot member).elim (accessed slot) id
    obtain ⟨kept, behaves, below⟩ :=
      ih (fun other member => attached other (List.mem_cons_of_mem _ member)) refined.valid inside
    exact ⟨kept, Behaves.call refined.meets behaves, below⟩

/-- From the initializing constructor on, every sequence of calls through handles of the same
capacity is a run of a double-ended list of that capacity, which starts empty, and so is every
further call. -/
theorem queue_behaves {itemSize size : Word32} {memory : Memory Item} {queue : Queue}
    {constructed : Run Item}
    (constructs : (Queue.construct itemSize size true).perform (Run.new memory) =
      (.ok queue, constructed))
    (room : 3 * queue.size.toNat ≤ 2 ^ 32) (calls : List (Queue × Call Item))
    (attached : ∀ entry ∈ calls, entry.1.size = queue.size) :
    constructed.memory.contents queue.size = [] ∧
      Behaves queue.size.toNat [] (performAll calls constructed).1
        ((performAll calls constructed).2.memory.contents queue.size) ∧
      (∀ slot ∈ (performAll calls constructed).2.accessed, slot < queue.size.toNat) ∧
      ∀ (handle : Queue) (call : Call Item), handle.size = queue.size →
        call.Refines queue.size (performAll calls constructed).2
          ((call.operation handle).perform (performAll calls constructed).2) := by
  rw [Queue.construct_perform] at constructs
  obtain ⟨_, same⟩ := Prod.mk.inj constructs
  have initial : constructed.memory.Valid queue.size := by
    rw [← same]
    exact Memory.valid_zero memory.items queue.size
  have empty : constructed.memory.contents queue.size = [] := by
    rw [← same]
    rfl
  have accessed : ∀ slot ∈ constructed.accessed, slot < queue.size.toNat := by
    rw [← same]
    exact fun slot member => absurd member List.not_mem_nil
  obtain ⟨valid, behaves, below⟩ := performAll_behaves room calls attached initial accessed
  rw [empty] at behaves
  refine ⟨empty, behaves, below, fun handle call shares => ?_⟩
  rw [← shares] at valid room ⊢
  exact call.refines room valid

/-- Seven calls on three slots, around the end of the slots. -/
theorem queue_behaves_rotated :
    Behaves 3 ([] : List Nat)
      [(.pushBack 4, .ok .done), (.pushBack 5, .ok .done), (.pop, .ok .done),
        (.pushBack 6, .ok .done), (.pushBack 7, .ok .done), (.remove 5, .ok (.flag true)),
        (.back, .ok (.item 6))] [7, 6] :=
  (queue_behaves (Queue.construct_perform 4 24 ⟨fun slot => slot, 9, 9, 9⟩) (by decide)
    [(⟨3⟩, .pushBack 4), (⟨3⟩, .pushBack 5), (⟨3⟩, .pop), (⟨3⟩, .pushBack 6), (⟨3⟩, .pushBack 7),
      (⟨3⟩, .remove 5), (⟨3⟩, .back)] (by decide)).2.1

end Refinement

end Azul.Ipc
