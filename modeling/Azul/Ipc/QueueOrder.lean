import Azul.Ipc.QueueRefinement

/-!
# What `Remove` does to the order

`Remove` fills the slot of the item it deletes with the last item of the queue. The others then
keep their order exactly if the last item was not moved past a different one, that is, if all items
behind the deleted one are equal.
-/

namespace Azul.Ipc

open Azul.Foundation Operation

variable {Item : Type} [DecidableEq Item]

/-- All items behind the first occurrence of an item are equal. -/
def UniformBehind (item : Item) (contents : List Item) : Prop :=
  ∀ a ∈ contents.drop (contents.idxOf item + 1), ∀ b ∈ contents.drop (contents.idxOf item + 1),
    a = b

/-- Of a valid region, `Remove` deletes the first occurrence of an item and keeps the order of the
others exactly if all items behind it are equal. -/
theorem Memory.Valid.removed_iff {memory : Memory Item} {queue : Queue}
    (valid : memory.Valid queue.size) (room : 3 * queue.size.toNat ≤ 2 ^ 32)
    (available : 0 < memory.count) {item : Item} {position : Word32}
    (found : memory.Found queue.size item 0 (some position))
    (skipped : memory.Skipped queue.size item 0 (some position)) :
    ((Store.apply memory (.item position (memory.items (queue.backSlot memory).toNat))).poppedBack
        queue.size).contents queue.size = (memory.contents queue.size).erase item ↔
      UniformBehind item (memory.contents queue.size) := by
  obtain ⟨_, _, _, same⟩ := found
  obtain ⟨j, before, at_j, others⟩ := skipped position rfl
  have inside : (memory.contents queue.size)[j]? = some item := by
    rw [← same, at_j]
    exact CircularBuffer.contents_getElem? _ _ before
  have first : item ∉ (memory.contents queue.size).take j := by
    intro listed
    obtain ⟨k, below, is⟩ := List.mem_take_iff_getElem.mp listed
    have small : k < j := by omega
    have there : (memory.contents queue.size)[k]? = some item :=
      List.getElem?_eq_some_iff.mpr ⟨_, is⟩
    have listed : k < memory.count.toNat := by omega
    have slot : (memory.contents queue.size)[k]? = _ :=
      CircularBuffer.contents_getElem? memory.items memory.readPosition.toNat listed
    exact others k (Nat.zero_le k) small (Option.some.inj (slot.symm.trans there))
  obtain ⟨last, replaced, other, shorter⟩ := valid.moved room available before at_j
  rw [replaced] at shorter
  exact CircularBuffer.moved_eq_iff inside first last shorter

/-- Whatever calls came before, when `Remove` returns true, the queue has lost the first occurrence
of its item and kept the others in their order exactly if all items behind it were equal. -/
theorem remove_keeps_order_iff {itemSize size : Word32} {memory : Memory Item} {queue : Queue}
    {constructed : Run Item}
    (constructs : (Queue.construct itemSize size true).perform (Run.new memory) =
      (.ok queue, constructed))
    (room : 3 * queue.size.toNat ≤ 2 ^ 32) (calls : List (Queue × Call Item))
    (attached : ∀ entry ∈ calls, entry.1.size = queue.size) {handle : Queue}
    (shares : handle.size = queue.size) {item : Item} {after : Run Item}
    (removes : (handle.remove item).perform (performAll calls constructed).2 =
      (.ok true, after)) :
    after.memory.contents queue.size =
        ((performAll calls constructed).2.memory.contents queue.size).erase item ↔
      UniformBehind item ((performAll calls constructed).2.memory.contents queue.size) := by
  rw [Queue.construct_perform] at constructs
  have initial : constructed.memory.Valid queue.size := by
    rw [← (Prod.mk.inj constructs).2]
    exact Memory.valid_zero memory.items queue.size
  have accessed : ∀ slot ∈ constructed.accessed, slot < queue.size.toNat := by
    rw [← (Prod.mk.inj constructs).2]
    exact fun slot member => absurd member List.not_mem_nil
  have valid := (performAll_behaves room calls attached initial accessed).1
  generalize (performAll calls constructed).2 = before at removes valid ⊢
  rw [← shares] at valid room ⊢
  obtain ⟨found, slots, finds, _, what, skipped⟩ :=
    Queue.find_perform room valid item before.memory.count.toNat 0 (Nat.zero_add _)
  match found, finds, what, skipped with
  | some position, finds, what, skipped =>
    have available : 0 < before.memory.count := by
      obtain ⟨j, below, _⟩ := what
      exact Nat.zero_lt_of_lt below
    rw [Queue.remove_perform available finds] at removes
    rw [← (Prod.mk.inj removes).2]
    exact valid.removed_iff room available what skipped
  | none, finds, _, _ =>
    obtain ⟨_, performed, _⟩ := Queue.remove_misses finds
    rw [performed] at removes
    cases (Prod.mk.inj removes).1

/-- Three items, on as many slots. -/
def threeItems : Run Nat :=
  (performAll [(⟨3⟩, .pushBack 1), (⟨3⟩, .pushBack 2), (⟨3⟩, .pushBack 3)]
    ((Queue.construct 4 24 true).perform (Run.new ⟨fun slot => slot, 9, 9, 9⟩)).2).2

/-- Removing the next-to-last item keeps the order. -/
theorem remove_keeps_order_two :
    ((Queue.remove ⟨3⟩ 2).perform threeItems).2.memory.contents 3 =
      (threeItems.memory.contents 3).erase 2 := by
  have removes : (Queue.remove ⟨3⟩ 2).perform threeItems =
      (.ok true, ((Queue.remove ⟨3⟩ 2).perform threeItems).2) := Prod.ext (by decide) rfl
  have uniform : UniformBehind 2 (threeItems.memory.contents 3) := by
    unfold UniformBehind
    decide
  have constructs : (Queue.construct 4 24 true).perform (Run.new ⟨fun slot => slot, 9, 9, 9⟩) =
      (.ok ⟨3⟩, ((Queue.construct 4 24 true).perform (Run.new ⟨fun slot => slot, 9, 9, 9⟩)).2) :=
    Queue.construct_perform 4 24 ⟨fun slot => slot, 9, 9, 9⟩
  exact (remove_keeps_order_iff constructs (by decide)
    [(⟨3⟩, .pushBack 1), (⟨3⟩, .pushBack 2), (⟨3⟩, .pushBack 3)] (by decide) rfl removes).mpr
    uniform

/-- Removing the first item moves the last one past the other. -/
theorem remove_reorders :
    ((Queue.remove ⟨3⟩ 1).perform threeItems).1.toOption = some true ∧
      ((Queue.remove ⟨3⟩ 1).perform threeItems).2.memory.contents 3 = [3, 2] ∧
      (threeItems.memory.contents 3).erase 1 = [2, 3] := by
  decide

end Azul.Ipc
