import Azul.Foundation.CircularBuffer
import Mathlib.Data.Multiset.AddSub

/-!
# The queue in shared memory

`Queue.hpp` keeps three 32-bit words and an array of items in a region of shared memory: a read
position, a write position and a count. An operation is a sequence of loads and stores of that
region, which logs the slots it accesses and the stores it makes, so that the state which a part
of an operation leaves behind can be told from the log.
-/

namespace Azul.Ipc

open Azul.Foundation

/-- `std::uint32_t`. -/
abbrev Word32 := BitVec 32

/-- The words and the items of the region. -/
@[ext] structure Memory (Item : Type) where
  items : Nat → Item
  readPosition : Word32
  writePosition : Word32
  count : Word32

/-- A store to the region. -/
inductive Store (Item : Type)
  | item (slot : Word32) (value : Item)
  | readPosition (value : Word32)
  | writePosition (value : Word32)
  | count (value : Word32)
  deriving DecidableEq

/-- The region after a store. -/
def Store.apply {Item : Type} (memory : Memory Item) : Store Item → Memory Item
  | item slot value => { memory with items := Function.update memory.items slot.toNat value }
  | readPosition value => { memory with readPosition := value }
  | writePosition value => { memory with writePosition := value }
  | count value => { memory with count := value }

/-- The slots a store accesses. -/
def Store.slots {Item : Type} : Store Item → List Nat
  | item slot _ => [slot.toNat]
  | readPosition _ | writePosition _ | count _ => []

/-- The region, and the log of the slots accessed and the stores made so far. -/
structure Run (Item : Type) where
  memory : Memory Item
  accessed : List Nat
  stores : List (Store Item)

namespace Run

variable {Item : Type}

/-- A run that has made no access yet. -/
def new (memory : Memory Item) : Run Item where
  memory := memory
  accessed := []
  stores := []

/-- A run after more loads of items. -/
def loaded (run : Run Item) (slots : List Nat) : Run Item where
  memory := run.memory
  accessed := run.accessed ++ slots
  stores := run.stores

/-- A run after more stores. -/
def stored (run : Run Item) (written : List (Store Item)) : Run Item where
  memory := written.foldl Store.apply run.memory
  accessed := run.accessed ++ written.flatMap Store.slots
  stores := run.stores ++ written

@[simp] theorem loaded_memory (run : Run Item) (slots : List Nat) :
    (run.loaded slots).memory = run.memory := rfl

@[simp] theorem stored_memory (run : Run Item) (written : List (Store Item)) :
    (run.stored written).memory = written.foldl Store.apply run.memory := rfl

@[simp] theorem loaded_loaded (run : Run Item) (first rest : List Nat) :
    (run.loaded first).loaded rest = run.loaded (first ++ rest) := by
  unfold loaded
  rw [List.append_assoc]

@[simp] theorem stored_stored (run : Run Item) (first rest : List (Store Item)) :
    (run.stored first).stored rest = run.stored (first ++ rest) := by
  unfold stored
  rw [List.foldl_append, List.flatMap_append, List.append_assoc, List.append_assoc]

end Run

/-- Code that accesses the region and may throw a `std::runtime_error`. -/
abbrev Operation (Item α : Type) := ExceptT String (StateM (Run Item)) α

namespace Operation

variable {Item α : Type}

/-- A load of the words. -/
def words : Operation Item (Memory Item) := do return (← get).memory

/-- A load of the item in a slot. -/
def load (slot : Word32) : Operation Item Item := do
  modify fun run => run.loaded [slot.toNat]
  return (← get).memory.items slot.toNat

/-- A store to the region. -/
def store (written : Store Item) : Operation Item Unit :=
  modify fun run => run.stored [written]

/-- Perform an operation on a run. -/
def perform (operation : Operation Item α) (run : Run Item) : Except String α × Run Item :=
  operation.run.run run

@[simp] theorem perform_pure (value : α) (run : Run Item) :
    (pure value : Operation Item α).perform run = (.ok value, run) := rfl

@[simp] theorem perform_throw (message : String) (run : Run Item) :
    (throw message : Operation Item α).perform run = (.error message, run) := rfl

@[simp] theorem perform_words (run : Run Item) : words.perform run = (.ok run.memory, run) := rfl

@[simp] theorem perform_load (slot : Word32) (run : Run Item) :
    (load slot).perform run = (.ok (run.memory.items slot.toNat), run.loaded [slot.toNat]) := rfl

@[simp] theorem perform_store (written : Store Item) (run : Run Item) :
    (store written).perform run = (.ok (), run.stored [written]) := rfl

/-- The rest of a sequence runs on what its first operation leaves, unless that one throws. -/
theorem perform_bind {β : Type} {first : Operation Item α} {rest : α → Operation Item β}
    {run after : Run Item} {value : α} (performed : first.perform run = (.ok value, after)) :
    (first >>= rest).perform run = (rest value).perform after := by
  change (first >>= rest) run = _
  change first run = _ at performed
  simp only [bind, ExceptT.bind, ExceptT.mk, ExceptT.bindCont, StateT.bind, performed]
  rfl

/-- An exception of the first operation of a sequence ends it. -/
theorem perform_bind_throw {β : Type} {first : Operation Item α} {rest : α → Operation Item β}
    {run after : Run Item} {message : String}
    (performed : first.perform run = (.error message, after)) :
    (first >>= rest).perform run = (.error message, after) := by
  change (first >>= rest) run = _
  change first run = _ at performed
  simp only [bind, ExceptT.bind, ExceptT.mk, ExceptT.bindCont, StateT.bind, performed]
  rfl

end Operation

/-- A handle: the capacity that its constructor computes. -/
structure Queue where
  size : Word32
  deriving DecidableEq

namespace Queue

variable {Item : Type}

/-- `Queue::Queue`, attached to `size` bytes of memory for items of `itemSize` bytes. -/
def construct (itemSize size : Word32) (initializes : Bool) : Operation Item Queue := do
  if initializes then
    Operation.store (.readPosition 0)
    Operation.store (.writePosition 0)
    Operation.store (.count 0)
  return { size := (size - 4 * 3) / itemSize }

variable (queue : Queue)

/-- `Queue::SpaceAvailable`. -/
def spaceAvailable : Operation Item Bool := do
  return (← Operation.words).count < queue.size

/-- `Queue::Count`. -/
def count : Operation Item Word32 := do
  return (← Operation.words).count

/-- The loop of `Contains` and `Remove`: the first position, from the `i`-th item on, that holds
an item. It has as many turns as there are items, which do not change before it ends. -/
def find [DecidableEq Item] (item : Item) : (turns : Nat) → (i : Word32) →
    Operation Item (Option Word32)
  | 0, _ => return none
  | turns + 1, i => do
    if i < (← Operation.words).count then
      let position := ((← Operation.words).readPosition + i + queue.size) % queue.size
      if (← Operation.load position) = item then
        return some position
      else
        find item turns (i + 1)
    else
      return none

/-- `Queue::Contains`. -/
def contains [DecidableEq Item] (item : Item) : Operation Item Bool := do
  let turns := (← Operation.words).count.toNat
  return (← queue.find item turns 0).isSome

/-- `Queue::Pop`. -/
def pop : Operation Item Unit := do
  if 0 < (← Operation.words).count then
    Operation.store
      (.readPosition (((← Operation.words).readPosition + 1 + queue.size) % queue.size))
    Operation.store (.count ((← Operation.words).count - 1))
  else
    throw "no item available"

/-- `Queue::Front`. -/
def front : Operation Item Item := do
  if 0 < (← Operation.words).count then
    Operation.load (← Operation.words).readPosition
  else
    throw "no item available"

/-- `Queue::PopBack`. -/
def popBack : Operation Item Unit := do
  if 0 < (← Operation.words).count then
    Operation.store
      (.writePosition (((← Operation.words).writePosition - 1 + queue.size) % queue.size))
    Operation.store (.count ((← Operation.words).count - 1))
  else
    throw "no item available"

/-- `Queue::Back`. -/
def back : Operation Item Item := do
  if 0 < (← Operation.words).count then
    Operation.load (((← Operation.words).writePosition + queue.size - 1) % queue.size)
  else
    throw "no item available"

/-- `Queue::PushBack`. -/
def pushBack (item : Item) : Operation Item Unit := do
  if ← queue.spaceAvailable then
    Operation.store (.item (← Operation.words).writePosition item)
    Operation.store
      (.writePosition (((← Operation.words).writePosition + 1 + queue.size) % queue.size))
    Operation.store (.count ((← Operation.words).count + 1))
  else
    throw "no space available"

/-- `Queue::Remove`. -/
def remove [DecidableEq Item] (item : Item) : Operation Item Bool := do
  if (← count) = 0 then
    return false
  else
    let turns := (← Operation.words).count.toNat
    match ← queue.find item turns 0 with
    | some position =>
      Operation.store (.item position (← queue.back))
      queue.popBack
      return true
    | none => return false

end Queue

end Azul.Ipc
