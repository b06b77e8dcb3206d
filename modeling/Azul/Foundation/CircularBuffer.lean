import Mathlib.Data.List.Perm.Basic
import Mathlib.Data.List.Range
import Mathlib.Data.Nat.ModEq
import Mathlib.Logic.Function.Basic

/-!
# Circular buffers

A circle of slots holds a list in the slots from a first one on, in the order of the circle. The
position of an item is the first slot plus its index, modulo the capacity, so that the list may
wrap around the end of the slots. Pushing and popping move the ends of the list by one slot and
leave the other slots as they are.
-/

namespace Azul.Foundation.CircularBuffer

variable {α : Type*} {capacity : Nat}

/-- The items in `count` slots from `first` on, around a circle of `capacity` slots. -/
def contents (slots : Nat → α) (capacity first count : Nat) : List α :=
  (List.range count).map fun i => slots ((first + i) % capacity)

@[simp] theorem contents_length (slots : Nat → α) (first count : Nat) :
    (contents slots capacity first count).length = count := by
  unfold contents
  rw [List.length_map, List.length_range]

@[simp] theorem contents_zero (slots : Nat → α) (first : Nat) :
    contents slots capacity first 0 = [] := rfl

/-- The item at an index is in the slot that far from the first one. -/
theorem contents_getElem? (slots : Nat → α) (first : Nat) {count i : Nat} (below : i < count) :
    (contents slots capacity first count)[i]? = some (slots ((first + i) % capacity)) := by
  unfold contents
  rw [List.getElem?_map, List.getElem?_range below, Option.map_some]

/-- Only the slot counts, not how often the circle was walked around before it. -/
theorem contents_mod (slots : Nat → α) (first count : Nat) :
    contents slots capacity (first % capacity) count = contents slots capacity first count := by
  unfold contents
  simp only [Nat.mod_add_mod]

/-- One more slot at the end holds one more item at the back. -/
theorem contents_back (slots : Nat → α) (first count : Nat) :
    contents slots capacity first (count + 1) =
      contents slots capacity first count ++ [slots ((first + count) % capacity)] := by
  unfold contents
  rw [List.range_succ, List.map_append, List.map_singleton]

/-- Starting one slot later leaves out the item at the front. -/
theorem contents_front (slots : Nat → α) (first count : Nat) :
    contents slots capacity first (count + 1) =
      slots (first % capacity) :: contents slots capacity ((first + 1) % capacity) count := by
  rw [contents_mod]
  unfold contents
  rw [List.range_succ_eq_map, List.map_cons, List.map_map, Nat.add_zero]
  simp only [Function.comp_def, Nat.succ_eq_add_one, Nat.add_assoc, Nat.add_comm 1]

/-- Slots at different distances below the capacity are different. -/
theorem slot_injective (first : Nat) {i j : Nat} (left : i < capacity) (right : j < capacity)
    (same : (first + i) % capacity = (first + j) % capacity) : i = j := by
  have congruent : i % capacity = j % capacity := Nat.ModEq.add_left_cancel' first same
  rwa [Nat.mod_eq_of_lt left, Nat.mod_eq_of_lt right] at congruent

/-- Only on a circle of one slot is the next slot the same one. -/
theorem next_eq_iff (first : Nat) : (first + 1) % capacity = first % capacity ↔ capacity = 1 := by
  constructor
  · intro same
    have congruent : 1 ≡ 0 [MOD capacity] := Nat.ModEq.add_left_cancel' first same
    exact Nat.dvd_one.mp (Nat.modEq_zero_iff_dvd.mp congruent)
  · intro one
    rw [one, Nat.mod_one, Nat.mod_one]

/-- Storing into a slot of the list replaces the item at its index. -/
theorem contents_update (slots : Nat → α) (first : Nat) {count i : Nat} (room : count ≤ capacity)
    (below : i < capacity) (item : α) :
    contents (Function.update slots ((first + i) % capacity) item) capacity first count =
      (contents slots capacity first count).set i item := by
  apply List.ext_getElem?
  intro j
  by_cases listed : j < count
  · rw [contents_getElem? _ _ listed, List.getElem?_set, contents_length,
      contents_getElem? _ _ listed]
    by_cases same : i = j
    · rw [same, Function.update_self, if_pos rfl, if_pos listed]
    · have other : (first + j) % capacity ≠ (first + i) % capacity := fun equal =>
        same (slot_injective first below (by omega) equal.symm)
      rw [Function.update_of_ne other, if_neg same]
  · rw [List.getElem?_eq_none (by rw [contents_length]; omega),
      List.getElem?_eq_none (by rw [List.length_set, contents_length]; omega)]

/-- Storing into the slot behind the list leaves the list as it is. -/
theorem contents_update_behind (slots : Nat → α) (first : Nat) {count : Nat}
    (room : count < capacity) (item : α) :
    contents (Function.update slots ((first + count) % capacity) item) capacity first count =
      contents slots capacity first count := by
  rw [contents_update slots first room.le room]
  apply List.set_eq_of_length_le
  rw [contents_length]

/-- An item stored behind the list becomes its last one. -/
theorem contents_push (slots : Nat → α) (first : Nat) {count : Nat} (room : count < capacity)
    (item : α) :
    contents (Function.update slots ((first + count) % capacity) item) capacity first (count + 1) =
      contents slots capacity first count ++ [item] := by
  rw [contents_back, contents_update_behind slots first room, Function.update_self]

/-- An item is listed if one of the slots holds it. -/
theorem mem_contents {slots : Nat → α} {first count : Nat} {item : α} :
    item ∈ contents slots capacity first count ↔
      ∃ i < count, slots ((first + i) % capacity) = item := by
  unfold contents
  simp only [List.mem_map, List.mem_range]

/-- Moving the last item to the place of an item, and shortening the list, removes one occurrence
of that item. -/
theorem moved_perm [DecidableEq α] {items shorter : List α} {i : Nat} {item last other : α}
    (found : items[i]? = some item) (ends : items[items.length - 1]? = some last)
    (moved : items.set i last = shorter ++ [other]) : shorter.Perm (items.erase item) := by
  obtain ⟨below, same⟩ := List.getElem?_eq_some_iff.mp found
  have length : items.length = shorter.length + 1 := by
    rw [← List.length_set (i := i) (a := last), moved, List.length_append, List.length_singleton]
  have kept : (items.set i last)[shorter.length]? = some last := by
    rw [length, Nat.add_sub_cancel] at ends
    rw [List.getElem?_set, ends]
    by_cases here : i = shorter.length
    · rw [if_pos here, if_pos (by omega)]
    · rw [if_neg here]
  have other_eq : other = last := by
    rw [moved, List.getElem?_concat_length] at kept
    exact Option.some.inj kept
  have front : (last :: shorter).Perm (last :: items.eraseIdx i) := by
    apply List.Perm.trans _ (List.set_perm_cons_eraseIdx below last)
    rw [moved, other_eq]
    exact (List.perm_append_singleton last shorter).symm
  have whole : (item :: items.eraseIdx i).Perm (item :: items.erase item) := by
    apply List.Perm.trans _ (List.perm_cons_erase (List.mem_of_getElem? found))
    rw [← same]
    exact List.getElem_cons_eraseIdx_perm below
  exact front.cons_inv.trans whole.cons_inv

/-- Turning the last item to the front changes nothing exactly if all items are that one. -/
theorem cons_eq_concat_iff {front : List α} {last : α} :
    last :: front = front ++ [last] ↔ ∀ item ∈ front, item = last := by
  induction front with
  | nil => exact ⟨fun _ => nofun, fun _ => rfl⟩
  | cons first front ih =>
    constructor
    · intro same
      rw [List.cons_append] at same
      obtain ⟨head, tail⟩ := List.cons.inj same
      rw [← head] at tail
      intro item inside
      cases List.mem_cons.mp inside with
      | inl is => rw [is, head]
      | inr later => exact ih.mp tail item later
    · intro all
      have head : first = last := all first List.mem_cons_self
      have tail := ih.mpr fun item inside => all item (List.mem_cons_of_mem _ inside)
      rw [List.cons_append, ← tail, head]

/-- Moving the last item to the place of the first occurrence of an item, and shortening the list,
deletes that occurrence and keeps the order exactly if all items behind it are equal. -/
theorem moved_eq_iff [DecidableEq α] {items shorter : List α} {i : Nat} {item last other : α}
    (found : items[i]? = some item) (first : item ∉ items.take i)
    (ends : items[items.length - 1]? = some last) (moved : items.set i last = shorter ++ [other]) :
    shorter = items.erase item ↔
      ∀ a ∈ items.drop (items.idxOf item + 1), ∀ b ∈ items.drop (items.idxOf item + 1), a = b := by
  obtain ⟨below, is⟩ := List.getElem?_eq_some_iff.mp found
  have split : items = items.take i ++ item :: items.drop (i + 1) := by
    rw [← is, ← List.drop_eq_getElem_cons below, List.take_append_drop]
  have index : items.idxOf item = i := by
    rw [split, List.idxOf_append, if_neg first, List.idxOf_cons_self, List.length_take]
    omega
  have erased : items.erase item = items.take i ++ items.drop (i + 1) := by
    rw [List.erase_eq_eraseIdx_of_idxOf index, List.eraseIdx_eq_take_drop_succ]
  rw [List.set_eq_take_append_cons_drop, if_pos below] at moved
  rw [index, erased]
  cases List.eq_nil_or_concat (items.drop (i + 1)) with
  | inl nothing =>
    rw [nothing] at moved ⊢
    have shortened := (List.append_inj' moved rfl).1
    rw [← shortened, List.append_nil]
    exact iff_of_true rfl nofun
  | inr behind =>
    obtain ⟨front, z, behind⟩ := behind
    rw [List.concat_eq_append] at behind
    rw [behind] at moved ⊢
    have same : last = z := by
      rw [← List.getLast?_eq_getElem?, split, behind, ← List.cons_append, ← List.append_assoc,
        List.getLast?_concat] at ends
      exact (Option.some.inj ends).symm
    rw [← List.cons_append, ← List.append_assoc] at moved
    have shortened := (List.append_inj' moved rfl).1
    rw [← shortened, List.append_right_inj, same, cons_eq_concat_iff]
    constructor
    · intro all
      have each (a : α) (inside : a ∈ front ++ [z]) : a = z := by
        cases List.mem_append.mp inside with
        | inl before => exact all a before
        | inr last => exact List.mem_singleton.mp last
      intro a one b two
      rw [each a one, each b two]
    · intro equal a inside
      exact equal a (List.mem_append_left _ inside) z
        (List.mem_append_right _ List.mem_cons_self)

end Azul.Foundation.CircularBuffer
