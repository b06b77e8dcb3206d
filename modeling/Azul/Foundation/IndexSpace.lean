import Mathlib.Algebra.BigOperators.Fin
import Mathlib.Algebra.Order.Floor.Div
import Mathlib.Algebra.Order.Ring.Nat
import Mathlib.Data.List.Dedup
import Mathlib.Data.List.Range

/-!
# Cutting and decoding an index range

A range `[0, total)` is cut into chunks of a fixed size, the last one shortened, and a linear
index is decoded into the digits of a mixed-radix numeral, dimension 0 the fastest. Both are facts
about natural numbers: the number of chunks, that the chunks concatenate to the range, and that
decoding enumerates every tuple of the box exactly once.
-/

namespace Azul.Foundation

/-! ## Chunks -/

variable {total step : Nat}

/-- No chunk starts at or past the end. -/
theorem chunks_ended (start : Nat) (ended : total ≤ start) : (total - start) ⌈/⌉ step = 0 := by
  rw [Nat.sub_eq_zero_of_le ended, zero_ceilDiv]

/-- Before the end there is one chunk more than from the next start on. -/
theorem chunks_next (positive : 0 < step) (start : Nat) (before : start < total) :
    (total - start) ⌈/⌉ step = (total - (start + step)) ⌈/⌉ step + 1 := by
  simp only [Nat.ceilDiv_eq_add_pred_div]
  by_cases last : total ≤ start + step
  · rw [Nat.sub_eq_zero_of_le last, Nat.zero_add, Nat.div_eq_of_lt (Nat.sub_lt positive one_pos),
      Nat.div_eq_of_lt_le]
    · omega
    · omega
  · rw [show total - start + step - 1 = total - (start + step) + step - 1 + step by omega,
      Nat.add_div_right _ positive]

/-- Every chunk starts before the end. -/
theorem chunk_start_lt (positive : 0 < step) {first : Nat}
    (member : first ∈ List.range' 0 (total ⌈/⌉ step) step) : first < total := by
  obtain ⟨chunk, chunk_lt, rfl⟩ := List.mem_range'.mp member
  rw [Nat.zero_add]
  by_contra past
  apply Nat.not_le_of_lt chunk_lt
  rw [ceilDiv_le_iff_le_mul positive]
  exact Nat.le_of_not_lt past

/-- There are no more chunks than elements. -/
theorem chunks_le (positive : 0 < step) : total ⌈/⌉ step ≤ total := by
  rw [ceilDiv_le_iff_le_mul positive]
  exact Nat.le_mul_of_pos_left total positive

/-- The chunks from a start on concatenate to the rest of the range. -/
theorem chunks_concatenate (positive : 0 < step) (start : Nat) :
    (List.range' start ((total - start) ⌈/⌉ step) step).flatMap
      (fun first => List.range' first (min step (total - first))) =
      List.range' start (total - start) := by
  generalize remaining : total - start = rest
  induction rest using Nat.strongRecOn generalizing start with
  | _ rest ih =>
    subst remaining
    by_cases before : start < total
    · rw [chunks_next positive start before, List.range'_succ, List.flatMap_cons,
        ih (total - (start + step)) (by omega) (start + step) rfl]
      by_cases last : total ≤ start + step
      · rw [Nat.sub_eq_zero_of_le last, List.range'_zero, List.append_nil,
          min_eq_right (by omega)]
      · rw [min_eq_left (by omega), List.range'_append_1,
          show step + (total - (start + step)) = total - start by omega]
    · rw [chunks_ended start (Nat.le_of_not_lt before), Nat.sub_eq_zero_of_le (by omega)]
      rfl

/-- Chunks of an equal share for each of `shares`, but of at least one element, number at least
the smaller of the two. -/
theorem chunks_fewest {shares : Nat} (positive : 0 < shares) :
    min shares total ≤ total ⌈/⌉ max (total / shares) 1 := by
  by_cases few : total < shares
  · rw [Nat.div_eq_of_lt few, max_eq_right (Nat.zero_le 1), ceilDiv_one]
    exact min_le_right shares total
  · have share : 1 ≤ total / shares := Nat.div_pos (Nat.le_of_not_lt few) positive
    rw [max_eq_left share, min_eq_left (Nat.le_of_not_lt few)]
    by_contra fewer
    have covered : total ≤ total / shares * (shares - 1) := by
      apply (ceilDiv_le_iff_le_mul share).mp
      omega
    have whole : total / shares * shares ≤ total := Nat.div_mul_le_self total shares
    have split : total / shares * shares = total / shares * (shares - 1) + total / shares := by
      rw [← Nat.mul_succ, Nat.succ_eq_add_one, Nat.sub_add_cancel positive]
    omega

/-- They number at most one less than twice the shares: the remainder of the division needs fewer
than `shares` further chunks. -/
theorem chunks_most {shares : Nat} (positive : 0 < shares) :
    total ⌈/⌉ max (total / shares) 1 ≤ 2 * shares - 1 := by
  by_cases few : total < shares
  · rw [Nat.div_eq_of_lt few, max_eq_right (Nat.zero_le 1), ceilDiv_one]
    omega
  · have share : 1 ≤ total / shares := Nat.div_pos (Nat.le_of_not_lt few) positive
    rw [max_eq_left share, ceilDiv_le_iff_le_mul share]
    have remainder : total % shares ≤ total / shares * (shares - 1) := by
      calc total % shares ≤ shares - 1 := Nat.le_sub_one_of_lt (Nat.mod_lt total positive)
        _ ≤ total / shares * (shares - 1) := Nat.le_mul_of_pos_left _ share
    calc total = total / shares * shares + total % shares := (Nat.div_add_mod' total shares).symm
      _ ≤ total / shares * shares + total / shares * (shares - 1) := by omega
      _ = total / shares * (2 * shares - 1) := by
        rw [← Nat.mul_add]
        congr 1
        omega

/-! ## Boxes -/

variable {dims : Nat}

/-- One digit of a linear index, dimension 0 the fastest. -/
def digit (size : Fin dims → Nat) (index : Nat) (dim : Fin dims) : Nat :=
  index / (∏ lower : Fin dim, size (Fin.castLE dim.isLt.le lower)) % size dim

/-- Below the volume of the box, an index is determined by its digits. -/
theorem digits_injective (size : Fin dims → Nat) {first second : Nat}
    (first_lt : first < ∏ dim, size dim) (second_lt : second < ∏ dim, size dim)
    (same : ∀ dim, digit size first dim = digit size second dim) : first = second := by
  have decoded : finPiFinEquiv.symm ⟨first, first_lt⟩ = finPiFinEquiv.symm ⟨second, second_lt⟩ :=
    funext fun dim => Fin.ext (same dim)
  exact Fin.mk.inj (finPiFinEquiv.symm.injective decoded)

/-- Every tuple of the box is the digits of an index. -/
theorem digits_surjective (size tuple : Fin dims → Nat) (inside : ∀ dim, tuple dim < size dim) :
    ∃ index < ∏ dim, size dim, ∀ dim, digit size index dim = tuple dim := by
  let encoded := finPiFinEquiv (n := size) fun dim => ⟨tuple dim, inside dim⟩
  refine ⟨encoded, encoded.isLt, fun dim => ?_⟩
  have decoded : finPiFinEquiv.symm encoded dim = ⟨tuple dim, inside dim⟩ := by
    rw [Equiv.symm_apply_apply]
  exact congrArg Fin.val decoded

/-- Digits are below the sizes. -/
theorem digit_lt (size : Fin dims → Nat) {index : Nat} (below : index < ∏ dim, size dim)
    (dim : Fin dims) : digit size index dim < size dim :=
  (finPiFinEquiv.symm ⟨index, below⟩ dim).isLt

/-- The digit of a one-dimensional index is the index. -/
theorem digit_one {index : Nat} (size : Fin 1 → Nat) (below : index < ∏ dim, size dim) :
    digit size index 0 = index := by
  rw [Fin.prod_univ_one] at below
  change index / (∏ lower : Fin 0, _) % size 0 = index
  rw [Fin.prod_univ_zero, Nat.div_one, Nat.mod_eq_of_lt below]

/-- The digits of a two-dimensional index: the last one needs no remainder. -/
theorem digit_two {index : Nat} (size : Fin 2 → Nat) (below : index < ∏ dim, size dim) :
    digit size index 0 = index % size 0 ∧ digit size index 1 = index / size 0 := by
  rw [Fin.prod_univ_two] at below
  constructor
  · change index / (∏ lower : Fin 0, _) % size 0 = index % size 0
    rw [Fin.prod_univ_zero, Nat.div_one]
  · change index / (∏ lower : Fin 1, _) % size 1 = index / size 0
    rw [Fin.prod_univ_one]
    exact Nat.mod_eq_of_lt (Nat.div_lt_of_lt_mul below)

/-- The digits of a three-dimensional index, by row and plane. -/
theorem digit_three {index : Nat} (size : Fin 3 → Nat) (below : index < ∏ dim, size dim) :
    digit size index 0 = index % size 0 ∧
      digit size index 1 = index % (size 0 * size 1) / size 0 ∧
      digit size index 2 = index / (size 0 * size 1) := by
  rw [Fin.prod_univ_three] at below
  refine ⟨?_, ?_, ?_⟩
  · change index / (∏ lower : Fin 0, _) % size 0 = index % size 0
    rw [Fin.prod_univ_zero, Nat.div_one]
  · change index / (∏ lower : Fin 1, _) % size 1 = _
    rw [Fin.prod_univ_one, Nat.mod_mul_right_div_self]
    rfl
  · change index / (∏ lower : Fin 2, _) % size 2 = _
    rw [Fin.prod_univ_two]
    exact Nat.mod_eq_of_lt (Nat.div_lt_of_lt_mul below)

/-- A box at an offset, enumerated by a decoding of the linear index, holds every tuple of the box
exactly once and no other tuple. -/
theorem box_count {τ : Type*} [DecidableEq τ] (coordinate : τ → Nat)
    (injective : Function.Injective coordinate) (size offset : Fin dims → Nat)
    (decode : Nat → Fin dims → τ)
    (decodes : ∀ index < ∏ dim, size dim, ∀ dim,
      coordinate (decode index dim) = offset dim + digit size index dim)
    (tuple : Fin dims → τ) :
    ((List.range (∏ dim, size dim)).map decode).count tuple =
      if ∀ dim, offset dim ≤ coordinate (tuple dim) ∧
        coordinate (tuple dim) < offset dim + size dim then 1 else 0 := by
  have distinct : ((List.range (∏ dim, size dim)).map decode).Nodup := by
    apply List.Nodup.map_on _ List.nodup_range
    intro first first_mem second second_mem same
    rw [List.mem_range] at first_mem second_mem
    apply digits_injective size first_mem second_mem
    intro dim
    apply Nat.add_left_cancel
    rw [← decodes first first_mem dim, ← decodes second second_mem dim, same]
  have members : tuple ∈ (List.range (∏ dim, size dim)).map decode ↔
      ∀ dim, offset dim ≤ coordinate (tuple dim) ∧
        coordinate (tuple dim) < offset dim + size dim := by
    rw [List.mem_map]
    constructor
    · rintro ⟨index, index_mem, rfl⟩ dim
      rw [List.mem_range] at index_mem
      rw [decodes index index_mem dim]
      have below := digit_lt size index_mem dim
      omega
    · intro inside
      obtain ⟨index, below, digits⟩ := digits_surjective size
        (fun dim => coordinate (tuple dim) - offset dim) fun dim => by
          have := inside dim
          omega
      refine ⟨index, List.mem_range.mpr below, funext fun dim => injective ?_⟩
      rw [decodes index below dim, digits dim, Nat.add_sub_cancel' (inside dim).1]
  split_ifs with inside
  · exact List.count_eq_one_of_mem distinct (members.mpr inside)
  · exact List.count_eq_zero_of_not_mem fun member => inside (members.mp member)

end Azul.Foundation
