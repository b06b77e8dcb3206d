import Azul.Ipc.Queue

/-!
# The queue is a bounded double-ended list

The items from the read position over `count` slots are the contents of the queue. The write
position is the slot behind them, which makes the third word redundant; every operation keeps it
so. What the operations do to the contents is what a bounded double-ended list does, except that a
removal moves the last item to the place of the removed one.
-/

namespace Azul.Ipc

open Azul.Foundation Operation

variable {Item : Type} {size : Word32}

/-! ## Positions -/

/-- A position before the end of the slots, moved by at most their number, does not wrap around
before the modulo takes effect. -/
theorem slot_toNat (room : 3 * size.toNat ≤ 2 ^ 32) {position i : Word32}
    (below : position.toNat < size.toNat) (moved : i.toNat ≤ size.toNat) :
    ((position + i + size) % size).toNat = (position.toNat + i.toNat) % size.toNat := by
  have step : (position + i).toNat = position.toNat + i.toNat :=
    BitVec.toNat_add_of_lt (by omega)
  have sum : (position + i + size).toNat = position.toNat + i.toNat + size.toNat := by
    rw [BitVec.toNat_add_of_lt (by omega), step]
  rw [BitVec.toNat_umod, sum, Nat.add_mod_right]

/-- The position before one, also when the subtraction wraps around. -/
theorem previous_toNat (room : 3 * size.toNat ≤ 2 ^ 32) {position : Word32}
    (below : position.toNat < size.toNat) :
    ((position - 1 + size) % size).toNat = (position.toNat + (size.toNat - 1)) % size.toNat := by
  have sum : (position - 1 + size).toNat = position.toNat + (size.toNat - 1) := by
    rw [BitVec.toNat_add, BitVec.toNat_sub, show (1 : Word32).toNat = 1 from rfl]
    omega
  rw [BitVec.toNat_umod, sum]

/-- `Back` computes the position before the write position in another order. -/
theorem last_toNat (room : 3 * size.toNat ≤ 2 ^ 32) {position : Word32}
    (below : position.toNat < size.toNat) :
    ((position + size - 1) % size).toNat = (position.toNat + (size.toNat - 1)) % size.toNat := by
  have same : position + size - 1 = position - 1 + size := by
    rw [BitVec.sub_eq_add_neg, BitVec.sub_eq_add_neg, BitVec.add_assoc, BitVec.add_assoc,
      BitVec.add_comm size]
  rw [same, previous_toNat room below]

/-! ## The invariant -/

namespace Memory

/-- The items from the read position over `count` slots. -/
def contents (memory : Memory Item) (size : Word32) : List Item :=
  CircularBuffer.contents memory.items size.toNat memory.readPosition.toNat memory.count.toNat

/-- What holds of the words between operations. A queue without slots has no positions. -/
structure Valid (memory : Memory Item) (size : Word32) : Prop where
  count_le : memory.count.toNat ≤ size.toNat
  read_lt : 0 < size.toNat → memory.readPosition.toNat < size.toNat
  write_lt : 0 < size.toNat → memory.writePosition.toNat < size.toNat
  write_eq : memory.writePosition.toNat =
    (memory.readPosition.toNat + memory.count.toNat) % size.toNat

variable {memory : Memory Item}

@[simp] theorem contents_length : (memory.contents size).length = memory.count.toNat :=
  CircularBuffer.contents_length _ _ _

/-- The words that the constructor initializes describe an empty queue. -/
theorem valid_zero (items : Nat → Item) (size : Word32) :
    Valid { items := items, readPosition := 0, writePosition := 0, count := 0 } size where
  count_le := Nat.zero_le _
  read_lt positive := positive
  write_lt positive := positive
  write_eq := (Nat.zero_mod _).symm

/-- An item that is available has a slot. -/
theorem Valid.slots (valid : memory.Valid size) (available : 0 < memory.count) :
    0 < size.toNat := by
  have count : 0 < memory.count.toNat := available
  have fits := valid.count_le
  omega

/-- The last item is in the slot before the write position. -/
theorem Valid.last (valid : memory.Valid size) (available : 0 < memory.count) :
    (memory.writePosition.toNat + (size.toNat - 1)) % size.toNat =
      (memory.readPosition.toNat + (memory.count.toNat - 1)) % size.toNat := by
  have slots := valid.slots available
  have count : 0 < memory.count.toNat := available
  rw [valid.write_eq, Nat.mod_add_mod,
    show memory.readPosition.toNat + memory.count.toNat + (size.toNat - 1) =
      memory.readPosition.toNat + (memory.count.toNat - 1) + size.toNat by omega,
    Nat.add_mod_right]

/-- The words after `Pop`. -/
def popped (memory : Memory Item) (size : Word32) : Memory Item :=
  { memory with
    readPosition := (memory.readPosition + 1 + size) % size
    count := memory.count - 1 }

/-- The words after `PopBack`. -/
def poppedBack (memory : Memory Item) (size : Word32) : Memory Item :=
  { memory with
    writePosition := (memory.writePosition - 1 + size) % size
    count := memory.count - 1 }

/-- The region after `PushBack`. -/
def pushed (memory : Memory Item) (size : Word32) (item : Item) : Memory Item where
  items := Function.update memory.items memory.writePosition.toNat item
  readPosition := memory.readPosition
  writePosition := (memory.writePosition + 1 + size) % size
  count := memory.count + 1

theorem count_pred (available : 0 < memory.count) :
    (memory.count - 1).toNat = memory.count.toNat - 1 := by
  have count : 0 < memory.count.toNat := available
  rw [BitVec.toNat_sub, show (1 : Word32).toNat = 1 from rfl]
  have := memory.count.isLt
  omega

/-- `Pop` keeps the invariant and drops the first item. -/
theorem Valid.popped (valid : memory.Valid size) (room : 3 * size.toNat ≤ 2 ^ 32)
    (available : 0 < memory.count) :
    (memory.popped size).Valid size ∧
      memory.contents size =
        memory.items memory.readPosition.toNat :: (memory.popped size).contents size := by
  have slots := valid.slots available
  have count : 0 < memory.count.toNat := available
  have fits := valid.count_le
  have fewer := count_pred available
  have read : ((memory.readPosition + 1 + size) % size).toNat =
      (memory.readPosition.toNat + 1) % size.toNat :=
    slot_toNat room (valid.read_lt slots) slots
  constructor
  · constructor
    · show (memory.count - 1).toNat ≤ size.toNat
      omega
    · show _ → ((memory.readPosition + 1 + size) % size).toNat < size.toNat
      intro positive
      rw [read]
      exact Nat.mod_lt _ positive
    · exact valid.write_lt
    · show memory.writePosition.toNat = (((memory.readPosition + 1 + size) % size).toNat +
        (memory.count - 1).toNat) % size.toNat
      rw [read, fewer, Nat.mod_add_mod, valid.write_eq]
      congr 1
      omega
  · have front := @CircularBuffer.contents_front _ size.toNat memory.items
      memory.readPosition.toNat (memory.count.toNat - 1)
    rw [Nat.sub_add_cancel count, ← read, ← fewer, Nat.mod_eq_of_lt (valid.read_lt slots)] at front
    exact front

/-- `PopBack` keeps the invariant and drops the last item. -/
theorem Valid.poppedBack (valid : memory.Valid size) (room : 3 * size.toNat ≤ 2 ^ 32)
    (available : 0 < memory.count) :
    (memory.poppedBack size).Valid size ∧
      ∃ item, memory.contents size = (memory.poppedBack size).contents size ++ [item] := by
  have slots := valid.slots available
  have count : 0 < memory.count.toNat := available
  have fits := valid.count_le
  have fewer := count_pred available
  have write : ((memory.writePosition - 1 + size) % size).toNat =
      (memory.readPosition.toNat + (memory.count.toNat - 1)) % size.toNat := by
    rw [previous_toNat room (valid.write_lt slots), valid.last available]
  constructor
  · constructor
    · show (memory.count - 1).toNat ≤ size.toNat
      omega
    · exact valid.read_lt
    · show _ → ((memory.writePosition - 1 + size) % size).toNat < size.toNat
      intro positive
      rw [write]
      exact Nat.mod_lt _ positive
    · show ((memory.writePosition - 1 + size) % size).toNat =
        (memory.readPosition.toNat + (memory.count - 1).toNat) % size.toNat
      rw [write, fewer]
  · have back := @CircularBuffer.contents_back _ size.toNat memory.items
      memory.readPosition.toNat (memory.count.toNat - 1)
    rw [Nat.sub_add_cancel count, ← fewer] at back
    exact ⟨_, back⟩

/-- `PushBack` keeps the invariant and appends its item. -/
theorem Valid.pushed (valid : memory.Valid size) (room : 3 * size.toNat ≤ 2 ^ 32)
    (space : memory.count < size) (item : Item) :
    (memory.pushed size item).Valid size ∧
      (memory.pushed size item).contents size = memory.contents size ++ [item] := by
  have fits : memory.count.toNat < size.toNat := space
  have slots : 0 < size.toNat := by omega
  have more : (memory.count + 1).toNat = memory.count.toNat + 1 :=
    BitVec.toNat_add_of_lt (by rw [show (1 : Word32).toNat = 1 from rfl]; omega)
  have write : ((memory.writePosition + 1 + size) % size).toNat =
      (memory.writePosition.toNat + 1) % size.toNat :=
    slot_toNat room (valid.write_lt slots) slots
  constructor
  · constructor
    · show (memory.count + 1).toNat ≤ size.toNat
      omega
    · exact valid.read_lt
    · show _ → ((memory.writePosition + 1 + size) % size).toNat < size.toNat
      intro positive
      rw [write]
      exact Nat.mod_lt _ positive
    · show ((memory.writePosition + 1 + size) % size).toNat =
        (memory.readPosition.toNat + (memory.count + 1).toNat) % size.toNat
      rw [write, more, valid.write_eq, Nat.mod_add_mod, Nat.add_assoc]
  · unfold contents Memory.pushed
    rw [valid.write_eq, more]
    exact CircularBuffer.contents_push memory.items _ fits item

/-! ## Stores of one word -/

/-- A stored read position is in order if it is where the write position counts back to. -/
theorem Valid.readPosition_iff (valid : memory.Valid size) {position : Word32}
    (below : position.toNat < size.toNat) :
    (Store.apply memory (.readPosition position)).Valid size ↔
      (position.toNat + memory.count.toNat) % size.toNat =
        (memory.readPosition.toNat + memory.count.toNat) % size.toNat := by
  constructor
  · intro kept
    rw [← valid.write_eq]
    exact kept.write_eq.symm
  · intro same
    exact ⟨valid.count_le, fun _ => below, valid.write_lt, valid.write_eq.trans same.symm⟩

/-- A stored write position is in order if it is still the slot behind the items. -/
theorem Valid.writePosition_iff (valid : memory.Valid size) {position : Word32}
    (below : position.toNat < size.toNat) :
    (Store.apply memory (.writePosition position)).Valid size ↔
      position.toNat =
        (memory.readPosition.toNat + memory.count.toNat) % size.toNat := by
  constructor
  · intro kept
    exact kept.write_eq
  · intro same
    exact ⟨valid.count_le, valid.read_lt, fun _ => below, same⟩

/-- The invariant does not depend on the items. -/
theorem Valid.item (valid : memory.Valid size) (slot : Word32) (value : Item) :
    (Store.apply memory (.item slot value)).Valid size :=
  ⟨valid.count_le, valid.read_lt, valid.write_lt, valid.write_eq⟩

/-- A read position moved by `Pop` is in order before the count only on a circle of one slot. -/
theorem Valid.advanced_iff (valid : memory.Valid size) (room : 3 * size.toNat ≤ 2 ^ 32)
    (available : 0 < memory.count) :
    (Store.apply memory
        (.readPosition ((memory.readPosition + 1 + size) % size))).Valid size ↔
      size.toNat = 1 := by
  have slots := valid.slots available
  have read : ((memory.readPosition + 1 + size) % size).toNat =
      (memory.readPosition.toNat + 1) % size.toNat :=
    slot_toNat room (valid.read_lt slots) slots
  have below : ((memory.readPosition + 1 + size) % size).toNat <
      size.toNat := by
    rw [read]
    exact Nat.mod_lt _ slots
  rw [valid.readPosition_iff below, read, Nat.mod_add_mod, Nat.add_right_comm]
  exact CircularBuffer.next_eq_iff _

/-- A write position moved by `PushBack` is in order before the count only on a circle of one
slot. -/
theorem Valid.extended_iff (valid : memory.Valid size) (room : 3 * size.toNat ≤ 2 ^ 32)
    (space : memory.count < size) :
    (Store.apply memory
        (.writePosition ((memory.writePosition + 1 + size) % size))).Valid size ↔
      size.toNat = 1 := by
  have fits : memory.count.toNat < size.toNat := space
  have slots : 0 < size.toNat := by omega
  have write : ((memory.writePosition + 1 + size) % size).toNat =
      (memory.writePosition.toNat + 1) % size.toNat :=
    slot_toNat room (valid.write_lt slots) slots
  have below : ((memory.writePosition + 1 + size) % size).toNat <
      size.toNat := by
    rw [write]
    exact Nat.mod_lt _ slots
  rw [valid.writePosition_iff below, write, valid.write_eq, Nat.mod_add_mod]
  exact CircularBuffer.next_eq_iff _

/-- A write position moved by `PopBack` is in order before the count only on a circle of one
slot. -/
theorem Valid.retreated_iff (valid : memory.Valid size) (room : 3 * size.toNat ≤ 2 ^ 32)
    (available : 0 < memory.count) :
    (Store.apply memory
        (.writePosition ((memory.writePosition - 1 + size) % size))).Valid size ↔
      size.toNat = 1 := by
  have slots := valid.slots available
  have count : 0 < memory.count.toNat := available
  have write : ((memory.writePosition - 1 + size) % size).toNat =
      (memory.readPosition.toNat + (memory.count.toNat - 1)) % size.toNat := by
    rw [previous_toNat room (valid.write_lt slots), valid.last available]
  have below : ((memory.writePosition - 1 + size) % size).toNat <
      size.toNat := by
    rw [write]
    exact Nat.mod_lt _ slots
  rw [valid.writePosition_iff below, write, eq_comm,
    show memory.readPosition.toNat + memory.count.toNat =
      memory.readPosition.toNat + (memory.count.toNat - 1) + 1 by omega]
  exact CircularBuffer.next_eq_iff _

end Memory

end Azul.Ipc
