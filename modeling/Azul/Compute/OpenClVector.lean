import Azul.Foundation.Assignments
import Mathlib.Data.BitVec
import Mathlib.Tactic.Ring

/-!
# Vectors

`Vec2` and `Vec4` over an integral component type of any width, signed or not, whose arithmetic
wraps around; that the operands of a narrow type are promoted does not show in its results. The
compound operators take their argument by reference and assign one component after the other, so
they work on a store in which the argument may be the vector itself or one of its components.
-/

namespace Azul.Compute

open Foundation Foundation.Assignments

variable {w : Nat}

/-- `a / b`, which is not defined for the divisor zero. -/
def quotient (signed : Bool) (a b : BitVec w) : Option (BitVec w) :=
  if b = 0 then none else some (if signed then a.sdiv b else a / b)

/-- What a reference to a component type denotes. -/
inductive Place (κ : Type)
  /-- A component of a vector. -/
  | component (object : Nat) (component : κ)
  /-- Any other variable. -/
  | variable (name : Nat)
  deriving DecidableEq

/-- The values of all variables of a component type. -/
abbrev Store (κ : Type) (w : Nat) := Place κ → BitVec w

/-- `*this op= argument`, one component after the other. -/
def compound {κ : Type} [DecidableEq κ] (op : BitVec w → BitVec w → Option (BitVec w))
    (components : List κ) (store : Store κ w) (this : Nat) (argument : κ → Place κ) :
    Option (Store κ w) :=
  execute op (components.map fun c => (.component this c, argument c)) store

/-! ## `Vec2` -/

/-- The data members of a `Vec2`. -/
inductive Component2
  | x
  | y
  deriving DecidableEq

/-- `Vec2<TValue>`. -/
structure Vec2 (α : Type) where
  x : α
  y : α
  deriving DecidableEq

namespace Vec2

/-- The data members in the order of the assignments. -/
def components : List Component2 := [.x, .y]

/-- The value of a vector. -/
def read (this : Nat) (store : Store Component2 w) : Vec2 (BitVec w) :=
  ⟨store (.component this .x), store (.component this .y)⟩

/-- `operator +=`. -/
def addAssign (store : Store Component2 w) (this other : Nat) : Option (Store Component2 w) :=
  compound (fun a b => some (a + b)) components store this (.component other)

/-- `operator +`. -/
def add (v other : Vec2 (BitVec w)) : Vec2 (BitVec w) := ⟨v.x + other.x, v.y + other.y⟩

/-- `operator -=`. -/
def subAssign (store : Store Component2 w) (this other : Nat) : Option (Store Component2 w) :=
  compound (fun a b => some (a - b)) components store this (.component other)

/-- `operator -`. -/
def sub (v other : Vec2 (BitVec w)) : Vec2 (BitVec w) := ⟨v.x - other.x, v.y - other.y⟩

/-- `operator *=`. -/
def mulAssign (store : Store Component2 w) (this : Nat) (factor : Place Component2) :
    Option (Store Component2 w) :=
  compound (fun a b => some (a * b)) components store this fun _ => factor

/-- `operator *`. -/
def mul (v : Vec2 (BitVec w)) (factor : BitVec w) : Vec2 (BitVec w) :=
  ⟨v.x * factor, v.y * factor⟩

/-- `operator /=`. -/
def divAssign (signed : Bool) (store : Store Component2 w) (this : Nat)
    (factor : Place Component2) : Option (Store Component2 w) :=
  compound (quotient signed) components store this fun _ => factor

/-- `operator /`. -/
def div (signed : Bool) (v : Vec2 (BitVec w)) (factor : BitVec w) : Option (Vec2 (BitVec w)) := do
  let x ← quotient signed v.x factor
  let y ← quotient signed v.y factor
  return ⟨x, y⟩

end Vec2

/-! ## `Vec4` -/

/-- The data members of a `Vec4`. -/
inductive Component4
  | x
  | y
  | z
  | w
  deriving DecidableEq

/-- `Vec4<TValue>`. -/
structure Vec4 (α : Type) where
  x : α
  y : α
  z : α
  w : α
  deriving DecidableEq

namespace Vec4

/-- The data members in the order of the assignments. -/
def components : List Component4 := [.x, .y, .z, .w]

/-- The value of a vector. -/
def read (this : Nat) (store : Store Component4 w) : Vec4 (BitVec w) :=
  ⟨store (.component this .x), store (.component this .y), store (.component this .z),
    store (.component this .w)⟩

/-- `operator +=`. -/
def addAssign (store : Store Component4 w) (this other : Nat) : Option (Store Component4 w) :=
  compound (fun a b => some (a + b)) components store this (.component other)

/-- `operator +`. -/
def add (v other : Vec4 (BitVec w)) : Vec4 (BitVec w) :=
  ⟨v.x + other.x, v.y + other.y, v.z + other.z, v.w + other.w⟩

/-- `operator -=`. -/
def subAssign (store : Store Component4 w) (this other : Nat) : Option (Store Component4 w) :=
  compound (fun a b => some (a - b)) components store this (.component other)

/-- `operator -`. -/
def sub (v other : Vec4 (BitVec w)) : Vec4 (BitVec w) :=
  ⟨v.x - other.x, v.y - other.y, v.z - other.z, v.w - other.w⟩

/-- `operator *=`. -/
def mulAssign (store : Store Component4 w) (this : Nat) (factor : Place Component4) :
    Option (Store Component4 w) :=
  compound (fun a b => some (a * b)) components store this fun _ => factor

/-- `operator *`. -/
def mul (v : Vec4 (BitVec w)) (other : BitVec w) : Vec4 (BitVec w) :=
  ⟨v.x * other, v.y * other, v.z * other, v.w * other⟩

/-- `operator /=`. -/
def divAssign (signed : Bool) (store : Store Component4 w) (this : Nat)
    (factor : Place Component4) : Option (Store Component4 w) :=
  compound (quotient signed) components store this fun _ => factor

/-- `operator /`. -/
def div (signed : Bool) (v : Vec4 (BitVec w)) (other : BitVec w) : Option (Vec4 (BitVec w)) := do
  let x ← quotient signed v.x other
  let y ← quotient signed v.y other
  let z ← quotient signed v.z other
  let w ← quotient signed v.w other
  return ⟨x, y, z, w⟩

end Vec4

/-! ## Integral arithmetic -/

/-- A component is multiplied by a factor and by its square alike. -/
def MulSteady (a factor : BitVec w) : Prop := a * factor * (factor - 1) = 0

/-- A component is divided by a divisor and by one alike. -/
def DivSteady (signed : Bool) (a factor : BitVec w) : Prop :=
  a = 0 ∨ factor = 1 ∨ signed = true ∧ a = BitVec.intMin w ∧ factor = -1

instance (a factor : BitVec w) : Decidable (MulSteady a factor) :=
  inferInstanceAs (Decidable (a * factor * (factor - 1) = 0))

instance (signed : Bool) (a factor : BitVec w) : Decidable (DivSteady signed a factor) :=
  inferInstanceAs (Decidable (a = 0 ∨ factor = 1 ∨ signed = true ∧ a = BitVec.intMin w ∧
    factor = -1))

theorem mulSteady_iff {a factor : BitVec w} :
    a * (factor * factor) = a * factor ↔ MulSteady a factor := by
  have difference : a * factor * (factor - 1) = a * (factor * factor) - a * factor := by ring
  unfold MulSteady
  rw [difference, sub_eq_zero]

section Quotients

variable {signed : Bool} {a factor : BitVec w}

theorem quotient_eq (nonzero : factor ≠ 0) :
    quotient signed a factor = some (if signed then a.sdiv factor else a / factor) :=
  if_neg nonzero

/-- A number divided by itself is one. -/
theorem quotient_self (nonzero : factor ≠ 0) : quotient signed factor factor = some 1 := by
  have differs : ¬ (factor == 0#w) = true := fun same => nonzero (eq_of_beq same)
  rw [quotient_eq nonzero]
  cases signed with
  | true => exact congrArg some (BitVec.sdiv_self.trans (if_neg differs))
  | false => exact congrArg some (BitVec.udiv_self.trans (if_neg differs))

/-- There is a number other than zero, so one is not zero. -/
theorem one_ne_zero (nonzero : factor ≠ 0) : (1 : BitVec w) ≠ 0 := by
  intro same
  apply nonzero
  calc factor = factor * 1 := (BitVec.mul_one factor).symm
    _ = factor * 0 := by rw [same]
    _ = 0 := BitVec.mul_zero

theorem quotient_one (nonzero : factor ≠ 0) : quotient signed a 1 = some a := by
  rw [quotient_eq (one_ne_zero nonzero)]
  cases signed with
  | true => simp
  | false => simp

/-- A quotient is the dividend only for a dividend of zero and for divisors of one or minus one. -/
theorem tdiv_eq_self {m n : Int} (same : m.tdiv n = m) : m = 0 ∨ n = 1 ∨ n = -1 := by
  have sizes := congrArg Int.natAbs same
  rw [Int.natAbs_tdiv] at sizes
  cases Nat.div_eq_self.mp sizes with
  | inl zero => exact Or.inl (Int.natAbs_eq_zero.mp zero)
  | inr one => omega

/-- A signed quotient is the dividend only for a dividend of zero, for the divisor one, and where
it overflows. -/
theorem sdiv_eq_self_iff : a.sdiv factor = a ↔
    a = 0 ∨ factor = 1 ∨ a = BitVec.intMin w ∧ factor = -1 := by
  constructor
  · intro same
    by_cases overflows : a = BitVec.intMin w ∧ factor = -1
    · exact Or.inr (Or.inr overflows)
    have fits := BitVec.toInt_sdiv_of_ne_or_ne a factor
      (Decidable.not_and_iff_not_or_not.mp overflows)
    rw [same] at fits
    have back {n : BitVec w} {value : Int} (is : n.toInt = value) : n = BitVec.ofInt w value := by
      rw [← is, BitVec.ofInt_toInt]
    have zero (is : a.toInt = 0) : a = 0 := back is
    rcases tdiv_eq_self fits.symm with none | one | negative
    · exact Or.inl (zero none)
    · exact Or.inr (Or.inl (back one))
    · left
      apply zero
      rw [negative, Int.tdiv_neg, Int.tdiv_one] at fits
      omega
  · intro steady
    rcases steady with zero | one | overflows
    · rw [zero]
      exact BitVec.zero_sdiv
    · rw [one]
      exact BitVec.sdiv_one
    · rw [overflows.1, overflows.2]
      exact BitVec.intMin_sdiv_neg_one

/-- An unsigned quotient is the dividend only for a dividend of zero and for the divisor one. -/
theorem udiv_eq_self_iff : a / factor = a ↔ a = 0 ∨ factor = 1 := by
  constructor
  · intro same
    have values := congrArg BitVec.toNat same
    rw [BitVec.toNat_udiv] at values
    cases Nat.div_eq_self.mp values with
    | inl zero => exact Or.inl (BitVec.eq_of_toNat_eq (zero.trans BitVec.toNat_zero.symm))
    | inr one =>
      right
      have fits : 1 < 2 ^ w := by
        rw [← one]
        exact factor.isLt
      apply BitVec.eq_of_toNat_eq
      rw [one]
      exact (Nat.mod_eq_of_lt fits).symm
  · intro steady
    cases steady with
    | inl zero =>
      rw [zero]
      exact BitVec.zero_udiv
    | inr one =>
      rw [one]
      exact BitVec.udiv_one

theorem divSteady_iff (nonzero : factor ≠ 0) :
    quotient signed a 1 = quotient signed a factor ↔ DivSteady signed a factor := by
  rw [quotient_one nonzero, quotient_eq nonzero, Option.some.injEq, eq_comm]
  unfold DivSteady
  cases signed with
  | true =>
    rw [if_pos rfl, sdiv_eq_self_iff]
    simp
  | false =>
    rw [if_neg Bool.false_ne_true, udiv_eq_self_iff]
    simp

end Quotients

/-! ## Components one after the other -/

section Compound

variable {κ : Type} {op : BitVec w → BitVec w → Option (BitVec w)} {components : List κ}
  {store after : Store κ w} {this : Nat} {argument : κ → Place κ} {factor : Place κ}

/-- The components of a vector are different variables. -/
theorem targets_nodup (distinct : components.Nodup) :
    ((components.map fun c => ((.component this c : Place κ), argument c)).map Prod.fst).Nodup := by
  rw [List.map_map]
  apply distinct.map
  intro one two same
  exact (Place.component.inj same).2

variable [DecidableEq κ]

/-- Every component is combined with the old value of its argument exactly if an argument that was
assigned before does the same. -/
theorem compound_iff (distinct : components.Nodup)
    (done : compound op components store this argument = some after) :
    (∀ c ∈ components, op (store (.component this c)) (store (argument c)) =
      some (after (.component this c))) ↔
    components.Pairwise fun earlier later => argument later = .component this earlier →
      op (store (.component this later)) (after (argument later)) =
        op (store (.component this later)) (store (argument later)) := by
  have both := simultaneous_iff (targets_nodup distinct) done
  rw [List.pairwise_map] at both
  rw [← both]
  constructor
  · intro all assignment inside
    obtain ⟨c, listed, same⟩ := List.mem_map.mp inside
    rw [← same]
    exact all c listed
  · intro all c listed
    exact all (.component this c, argument c) (List.mem_map_of_mem listed)

/-- A vector argument is read as it was, also if it is the vector itself. -/
theorem compound_vector (distinct : components.Nodup) {other : Nat}
    (done : compound op components store this (.component other) = some after) :
    ∀ c ∈ components, op (store (.component this c)) (store (.component other c)) =
      some (after (.component this c)) := by
  rw [compound_iff distinct done]
  apply distinct.imp
  intro earlier later apart same
  exact absurd (Place.component.inj same).2.symm apart

/-- A factor is read as it was exactly if it is no component that is assigned before another one
for which the new value makes a difference. -/
theorem compound_factor (distinct : components.Nodup)
    (done : compound op components store this (fun _ => factor) = some after) :
    (∀ c ∈ components, op (store (.component this c)) (store factor) =
      some (after (.component this c))) ↔
    components.Pairwise fun earlier later => factor = .component this earlier →
      ∀ value, op (store factor) (store factor) = some value →
        op (store (.component this later)) value =
          op (store (.component this later)) (store factor) := by
  rw [compound_iff distinct done, pairwise_iff_split, pairwise_iff_split]
  have assigned {before rest : List κ} {later earlier : κ}
      (split : components = before ++ later :: rest) (inside : earlier ∈ before)
      (same : factor = .component this earlier) :
      op (store factor) (store factor) = some (after factor) := by
    obtain ⟨first, middle, earlierSplit⟩ := List.append_of_mem inside
    have unassigned : earlier ∉ first := by
      rw [split, earlierSplit, List.append_assoc, List.cons_append] at distinct
      intro again
      exact (List.nodup_append.mp distinct).2.2 earlier again earlier List.mem_cons_self rfl
    let assign (c : κ) : Place κ × Place κ := (.component this c, factor)
    have parted : components.map assign =
        first.map assign ++ (factor, factor) :: (middle ++ later :: rest).map assign := by
      have itself : assign earlier = (factor, factor) := congrArg (·, factor) same.symm
      rw [split, earlierSplit, List.append_assoc, List.map_append, List.cons_append,
        List.map_cons, itself]
    have target := execute_target (targets_nodup distinct) done parted
    rw [if_neg] at target
    · exact target
    · intro inside
      rw [List.map_map] at inside
      obtain ⟨c, listed, is⟩ := List.mem_map.mp inside
      rw [same] at is
      rw [← (Place.component.inj is).2] at unassigned
      exact unassigned listed
  constructor
  · intro steady before later rest split earlier inside same value computed
    rw [assigned split inside same] at computed
    rw [← Option.some.inj computed]
    exact steady before later rest split earlier inside same
  · intro steady before later rest split earlier inside same
    exact steady before later rest split earlier inside same _ (assigned split inside same)

/-- A factor that is a component of the vector is assigned before another component only if that
one does not notice. -/
def Unnoticed (steady : BitVec w → BitVec w → Prop) (components : List κ) (store : Store κ w)
    (this : Nat) (factor : Place κ) : Prop :=
  components.Pairwise fun earlier later => factor = .component this earlier →
    steady (store (.component this later)) (store factor)

instance (steady : BitVec w → BitVec w → Prop) [∀ a b, Decidable (steady a b)] :
    Decidable (Unnoticed steady components store this factor) :=
  inferInstanceAs (Decidable (List.Pairwise _ _))

/-- Operations that are always defined can be executed. -/
theorem compound_defined (total : ∀ a b, ∃ value, op a b = some value) :
    ∃ after, compound op components store this argument = some after := by
  have defined (store : Store κ w) (_ : True) (assignment : Place κ × Place κ)
      (_ : assignment ∈ components.map fun c => (.component this c, argument c)) :
      ∃ value, op (store assignment.1) (store assignment.2) = some value ∧ True := by
    obtain ⟨value, computed⟩ := total (store assignment.1) (store assignment.2)
    exact ⟨value, computed, trivial⟩
  exact execute_defined defined trivial

/-- A divisor that is divided by itself does not become zero. -/
theorem compound_quotient {signed : Bool} (nonzero : store factor ≠ 0) :
    ∃ after, compound (quotient signed) components store this (fun _ => factor) = some after := by
  have defined (store : Store κ w) (nonzero : store factor ≠ 0)
      (assignment : Place κ × Place κ)
      (inside : assignment ∈ components.map fun c => (.component this c, factor)) :
      ∃ value, quotient signed (store assignment.1) (store assignment.2) = some value ∧
        Function.update store assignment.1 value factor ≠ 0 := by
    obtain ⟨c, _, is⟩ := List.mem_map.mp inside
    have divisor : assignment.2 = factor := by
      rw [← is]
    rw [divisor]
    by_cases same : assignment.1 = factor
    · rw [same]
      refine ⟨1, quotient_self nonzero, ?_⟩
      rw [Function.update_self]
      exact one_ne_zero nonzero
    · refine ⟨_, quotient_eq nonzero, ?_⟩
      rw [Function.update_of_ne (Ne.symm same)]
      exact nonzero
  exact execute_defined defined nonzero

/-- Products use the old factor exactly if no component notices that it changed. -/
theorem compound_mul (distinct : components.Nodup)
    (done : compound (fun a b => some (a * b)) components store this (fun _ => factor) =
      some after) :
    (∀ c ∈ components, some (store (.component this c) * store factor) =
      some (after (.component this c))) ↔ Unnoticed MulSteady components store this factor := by
  rw [compound_factor distinct done]
  unfold Unnoticed
  have steps (a : BitVec w) : (∀ value, some (store factor * store factor) = some value →
      some (a * value) = some (a * store factor)) ↔ MulSteady a (store factor) := by
    rw [← mulSteady_iff]
    simp
  simp only [steps]

/-- Quotients use the old divisor exactly if no component notices that it changed. -/
theorem compound_div {signed : Bool} (nonzero : store factor ≠ 0) (distinct : components.Nodup)
    (done : compound (quotient signed) components store this (fun _ => factor) = some after) :
    (∀ c ∈ components, quotient signed (store (.component this c)) (store factor) =
      some (after (.component this c))) ↔
    Unnoticed (DivSteady signed) components store this factor := by
  rw [compound_factor distinct done]
  unfold Unnoticed
  have steps (a : BitVec w) : (∀ value, quotient signed (store factor) (store factor) = some value →
      quotient signed a value = quotient signed a (store factor)) ↔
        DivSteady signed a (store factor) := by
    rw [← divSteady_iff nonzero, quotient_self nonzero]
    simp
  simp only [steps]

end Compound

/-! ## Vectors -/

namespace Vec2

variable {store after : Store Component2 w} {this : Nat}
  {op : BitVec w → BitVec w → Option (BitVec w)} {argument : Component2 → Place Component2}

/-- An operator agrees with its plain counterpart if it does so for every component. -/
theorem agree_iff (done : compound op components store this argument = some after) :
    ((compound op components store this argument).map (read this) = do
      let x ← op (store (.component this .x)) (store (argument .x))
      let y ← op (store (.component this .y)) (store (argument .y))
      return ⟨x, y⟩) ↔
    ∀ c ∈ components,
      op (store (.component this c)) (store (argument c)) = some (after (.component this c)) := by
  rw [done, Option.map_some]
  constructor
  · intro same
    obtain ⟨x, first, rest⟩ := Option.bind_eq_some_iff.mp same.symm
    obtain ⟨y, second, whole⟩ := Option.bind_eq_some_iff.mp rest
    have read := Option.some.inj whole
    intro c _
    cases c with
    | x => exact first.trans (congrArg some (congrArg Vec2.x read))
    | y => exact second.trans (congrArg some (congrArg Vec2.y read))
  · intro all
    rw [all .x (by decide), all .y (by decide)]
    rfl

/-- `v += o` leaves `v + o`, also for `v += v`. -/
theorem addAssign_eq (other : Nat) : (addAssign store this other).map (read this) =
    some ((read this store).add (read other store)) := by
  have defined : ∃ after, addAssign store this other = some after :=
    compound_defined fun a b => ⟨a + b, rfl⟩
  obtain ⟨after, done⟩ := defined
  exact (agree_iff done).mpr (compound_vector (by decide) done)

/-- `v -= o` leaves `v - o`, also for `v -= v`. -/
theorem subAssign_eq (other : Nat) : (subAssign store this other).map (read this) =
    some ((read this store).sub (read other store)) := by
  have defined : ∃ after, subAssign store this other = some after :=
    compound_defined fun a b => ⟨a - b, rfl⟩
  obtain ⟨after, done⟩ := defined
  exact (agree_iff done).mpr (compound_vector (by decide) done)

/-- When `v *= f` leaves `v * f`. -/
theorem mulAssign_iff (factor : Place Component2) : (mulAssign store this factor).map (read this) =
    some ((read this store).mul (store factor)) ↔
      Unnoticed MulSteady components store this factor := by
  have defined : ∃ after, mulAssign store this factor = some after :=
    compound_defined fun a b => ⟨a * b, rfl⟩
  obtain ⟨after, done⟩ := defined
  exact (agree_iff done).trans (compound_mul (by decide) done)

/-- When `v /= f` leaves `v / f`. -/
theorem divAssign_iff {signed : Bool} {factor : Place Component2} (nonzero : store factor ≠ 0) :
    (divAssign signed store this factor).map (read this) =
      (read this store).div signed (store factor) ↔
        Unnoticed (DivSteady signed) components store this factor := by
  have defined : ∃ after, divAssign signed store this factor = some after :=
    compound_quotient nonzero
  obtain ⟨after, done⟩ := defined
  exact (agree_iff done).trans (compound_div nonzero (by decide) done)

end Vec2

namespace Vec4

variable {store after : Store Component4 w} {this : Nat}
  {op : BitVec w → BitVec w → Option (BitVec w)} {argument : Component4 → Place Component4}

/-- An operator agrees with its plain counterpart if it does so for every component. -/
theorem agree_iff (done : compound op components store this argument = some after) :
    ((compound op components store this argument).map (read this) = do
      let x ← op (store (.component this .x)) (store (argument .x))
      let y ← op (store (.component this .y)) (store (argument .y))
      let z ← op (store (.component this .z)) (store (argument .z))
      let w ← op (store (.component this .w)) (store (argument .w))
      return ⟨x, y, z, w⟩) ↔
    ∀ c ∈ components,
      op (store (.component this c)) (store (argument c)) = some (after (.component this c)) := by
  rw [done, Option.map_some]
  constructor
  · intro same
    obtain ⟨x, first, same⟩ := Option.bind_eq_some_iff.mp same.symm
    obtain ⟨y, second, same⟩ := Option.bind_eq_some_iff.mp same
    obtain ⟨z, third, same⟩ := Option.bind_eq_some_iff.mp same
    obtain ⟨w, fourth, same⟩ := Option.bind_eq_some_iff.mp same
    have read := Option.some.inj same
    intro c _
    cases c with
    | x => exact first.trans (congrArg some (congrArg Vec4.x read))
    | y => exact second.trans (congrArg some (congrArg Vec4.y read))
    | z => exact third.trans (congrArg some (congrArg Vec4.z read))
    | w => exact fourth.trans (congrArg some (congrArg Vec4.w read))
  · intro all
    rw [all .x (by decide), all .y (by decide), all .z (by decide), all .w (by decide)]
    rfl

/-- `v += o` leaves `v + o`, also for `v += v`. -/
theorem addAssign_eq (other : Nat) : (addAssign store this other).map (read this) =
    some ((read this store).add (read other store)) := by
  have defined : ∃ after, addAssign store this other = some after :=
    compound_defined fun a b => ⟨a + b, rfl⟩
  obtain ⟨after, done⟩ := defined
  exact (agree_iff done).mpr (compound_vector (by decide) done)

/-- `v -= o` leaves `v - o`, also for `v -= v`. -/
theorem subAssign_eq (other : Nat) : (subAssign store this other).map (read this) =
    some ((read this store).sub (read other store)) := by
  have defined : ∃ after, subAssign store this other = some after :=
    compound_defined fun a b => ⟨a - b, rfl⟩
  obtain ⟨after, done⟩ := defined
  exact (agree_iff done).mpr (compound_vector (by decide) done)

/-- When `v *= f` leaves `v * f`. -/
theorem mulAssign_iff (factor : Place Component4) : (mulAssign store this factor).map (read this) =
    some ((read this store).mul (store factor)) ↔
      Unnoticed MulSteady components store this factor := by
  have defined : ∃ after, mulAssign store this factor = some after :=
    compound_defined fun a b => ⟨a * b, rfl⟩
  obtain ⟨after, done⟩ := defined
  exact (agree_iff done).trans (compound_mul (by decide) done)

/-- When `v /= f` leaves `v / f`. -/
theorem divAssign_iff {signed : Bool} {factor : Place Component4} (nonzero : store factor ≠ 0) :
    (divAssign signed store this factor).map (read this) =
      (read this store).div signed (store factor) ↔
        Unnoticed (DivSteady signed) components store this factor := by
  have defined : ∃ after, divAssign signed store this factor = some after :=
    compound_quotient nonzero
  obtain ⟨after, done⟩ := defined
  exact (agree_iff done).trans (compound_div nonzero (by decide) done)

end Vec4

/-! ## The operators -/

/-- A compound operator leaves what the plain one computes from the old values: always where its
argument is a vector, and otherwise exactly if the factor is no component that is assigned before
another one which notices. -/
theorem compound_operators_iff (signed : Bool) (this : Nat) :
    (∀ store : Store Component2 w,
      (∀ other,
        (Vec2.addAssign store this other).map (Vec2.read this) =
          some ((Vec2.read this store).add (Vec2.read other store)) ∧
        (Vec2.subAssign store this other).map (Vec2.read this) =
          some ((Vec2.read this store).sub (Vec2.read other store))) ∧
      ∀ factor,
        ((Vec2.mulAssign store this factor).map (Vec2.read this) =
          some ((Vec2.read this store).mul (store factor)) ↔
            Unnoticed MulSteady Vec2.components store this factor) ∧
        (store factor ≠ 0 →
          ((Vec2.divAssign signed store this factor).map (Vec2.read this) =
            (Vec2.read this store).div signed (store factor) ↔
              Unnoticed (DivSteady signed) Vec2.components store this factor))) ∧
    ∀ store : Store Component4 w,
      (∀ other,
        (Vec4.addAssign store this other).map (Vec4.read this) =
          some ((Vec4.read this store).add (Vec4.read other store)) ∧
        (Vec4.subAssign store this other).map (Vec4.read this) =
          some ((Vec4.read this store).sub (Vec4.read other store))) ∧
      ∀ factor,
        ((Vec4.mulAssign store this factor).map (Vec4.read this) =
          some ((Vec4.read this store).mul (store factor)) ↔
            Unnoticed MulSteady Vec4.components store this factor) ∧
        (store factor ≠ 0 →
          ((Vec4.divAssign signed store this factor).map (Vec4.read this) =
            (Vec4.read this store).div signed (store factor) ↔
              Unnoticed (DivSteady signed) Vec4.components store this factor)) := by
  constructor
  · intro store
    constructor
    · intro other
      exact ⟨Vec2.addAssign_eq other, Vec2.subAssign_eq other⟩
    · intro factor
      exact ⟨Vec2.mulAssign_iff factor, Vec2.divAssign_iff⟩
  · intro store
    constructor
    · intro other
      exact ⟨Vec4.addAssign_eq other, Vec4.subAssign_eq other⟩
    · intro factor
      exact ⟨Vec4.mulAssign_iff factor, Vec4.divAssign_iff⟩

/-- The variables of a program with one vector. -/
def vector2 (x y : BitVec 32) : Store Component2 32
  | .component 0 .x => x
  | .component 0 .y => y
  | _ => 0

/-- A vector is divided by its last component. -/
theorem compound_operators_last : (Vec2.divAssign true (vector2 6 2) 0 (.component 0 .y)).map
    (Vec2.read 0) = some ⟨3, 1⟩ := by
  have agrees := ((compound_operators_iff true 0).1 (vector2 6 2)).2 (.component 0 .y)
  exact (agrees.2 (by decide)).mpr (by decide)

/-- A vector is divided or multiplied by its first component. -/
theorem compound_operators_spoiled :
    (Vec2.divAssign true (vector2 2 6) 0 (.component 0 .x)).map (Vec2.read 0) = some ⟨1, 6⟩ ∧
      (Vec2.read 0 (vector2 2 6)).div true 2 = some ⟨1, 3⟩ ∧
      (Vec2.mulAssign (vector2 2 6) 0 (.component 0 .x)).map (Vec2.read 0) = some ⟨4, 24⟩ ∧
      (Vec2.read 0 (vector2 2 6)).mul 2 = ⟨4, 12⟩ ∧
      ¬ ∀ (store : Store Component2 32) this factor, store factor ≠ 0 →
        (Vec2.divAssign true store this factor).map (Vec2.read this) =
          (Vec2.read this store).div true (store factor) := by
  refine ⟨by decide, by decide, by decide, by decide, fun agrees => ?_⟩
  have same := agrees (vector2 2 6) 0 (.component 0 .x) (by decide)
  exact absurd same (by decide)

end Azul.Compute
