import Mathlib.Algebra.Order.Group.Multiset

/-!
# Threads as stacks of pending instructions

A thread is the list of instructions it still has to execute, the next one first; executing an
instruction replaces it by the instructions it schedules. Facts about what is still going to happen
do not depend on the order, so they are stated over the multiset of all pending instructions
(`pending`), where one step removes an instruction and adds others (`pending_split`). What does
depend on the order is nesting: an instruction that runs on behalf of a suspended one needs
something below it in its own stack (`Nested`).
-/

namespace Azul.Foundation.Stacks

variable {ι : Type*}

/-- All instructions that some thread still has to execute. -/
def pending (threads : List (List ι)) : Multiset ι := ((threads.flatten : List ι) : Multiset ι)

/-- Pending instructions are the members of the stacks. -/
theorem mem_pending {threads : List (List ι)} {x : ι} :
    x ∈ pending threads ↔ ∃ stack ∈ threads, x ∈ stack := by
  simp [pending]

/-- Idle threads have nothing pending. -/
theorem pending_replicate_nil (count : Nat) :
    pending (List.replicate count ([] : List ι)) = 0 := by
  simp [pending]

/-- Replacing one stack leaves the instructions of all other threads in place. -/
theorem pending_split {threads : List (List ι)} {thread : Nat} {stack : List ι}
    (found : threads[thread]? = some stack) :
    ∃ others : Multiset ι, pending threads = (stack : Multiset ι) + others ∧
      ∀ changed : List ι,
        pending (threads.set thread changed) = (changed : Multiset ι) + others := by
  induction threads generalizing thread with
  | nil => simp at found
  | cons first threads ih =>
    cases thread with
    | zero =>
      obtain rfl : first = stack := by simpa using found
      exact ⟨pending threads, by simp [pending], by simp [pending]⟩
    | succ thread =>
      obtain ⟨others, split, replaced⟩ := ih (by simpa using found)
      refine ⟨(first : Multiset ι) + others, ?_, fun changed => ?_⟩
      · have unfolded : pending (first :: threads) = (first : Multiset ι) + pending threads := by
          simp [pending]
        rw [unfolded, split, add_left_comm]
      · have unfolded : pending (first :: threads.set thread changed) =
            (first : Multiset ι) + pending (threads.set thread changed) := by
          simp [pending]
        rw [List.set_cons_succ, unfolded, replaced, add_left_comm]

/-- The instructions of two threads are pending beside each other. -/
theorem pending_apart {threads : List (List ι)} {one two : Nat} {first second : List ι}
    (found : threads[one]? = some first) (other : threads[two]? = some second)
    (apart : one ≠ two) :
    ∃ rest : Multiset ι, pending threads =
      (first : Multiset ι) + ((second : Multiset ι) + rest) := by
  obtain ⟨others, split, changed⟩ := pending_split found
  have still : (threads.set one [])[two]? = some second := by
    rw [List.getElem?_set_ne apart]
    exact other
  obtain ⟨rest, splits, _⟩ := pending_split still
  rw [changed []] at splits
  have same : others = (second : Multiset ι) + rest := by
    rw [← splits]
    exact (zero_add others).symm
  exact ⟨rest, by rw [split, same]⟩

/-- Scheduling code schedules its instructions. -/
theorem coe_cons_add (x : ι) (code : List ι) (others : Multiset ι) :
    ((x :: code : List ι) : Multiset ι) + others = x ::ₘ ((code : Multiset ι) + others) := by
  rw [← Multiset.cons_coe, Multiset.cons_add]

/-- Scheduling no code schedules nothing. -/
theorem coe_nil_add (others : Multiset ι) : (([] : List ι) : Multiset ι) + others = others :=
  zero_add others

/-- The number of pending instructions with a property. -/
def count (pending : Multiset ι) (p : ι → Bool) : Nat := pending.countP fun x => p x = true

@[simp]
theorem count_zero (p : ι → Bool) : count (0 : Multiset ι) p = 0 := rfl

@[simp]
theorem count_cons (p : ι → Bool) (x : ι) (others : Multiset ι) :
    count (x ::ₘ others) p = count others p + if p x = true then 1 else 0 :=
  Multiset.countP_cons _ x others

@[simp]
theorem count_add (p : ι → Bool) (first second : Multiset ι) :
    count (first + second) p = count first p + count second p :=
  Multiset.countP_add _ first second

@[simp]
theorem count_coe (p : ι → Bool) (code : List ι) : count (code : Multiset ι) p = code.countP p := by
  simp [count, Multiset.coe_countP]

/-- A property is counted exactly when a pending instruction has it. -/
theorem count_pos {pending : Multiset ι} {p : ι → Bool} :
    0 < count pending p ↔ ∃ x ∈ pending, p x = true :=
  Multiset.countP_pos

/-- A property that no pending instruction has is counted zero times. -/
theorem count_eq_zero {pending : Multiset ι} {p : ι → Bool} :
    count pending p = 0 ↔ ∀ x ∈ pending, p x = false := by
  simp [count, Multiset.countP_eq_zero]

/-- Every suspended instruction of a stack finds below it what it needs. -/
def Nested (needs : ι → (ι → Prop) → Prop) : List ι → Prop
  | [] => True
  | x :: rest => needs x (· ∈ rest) ∧ Nested needs rest

/-- A change of the needs that leaves those met by instructions of this stack met. -/
theorem Nested.mono {needs changed : ι → (ι → Prop) → Prop} {stack : List ι}
    (kept : ∀ x ∈ stack, ∀ below : ι → Prop, (∀ y, below y → y ∈ stack) →
      needs x below → changed x below)
    (nested : Nested needs stack) : Nested changed stack := by
  induction stack with
  | nil => trivial
  | cons x rest ih =>
    have later (y : ι) : y ∈ rest → y ∈ x :: rest := List.mem_cons_of_mem x
    exact ⟨kept x List.mem_cons_self _ later nested.1,
      ih (fun y inside below limit => kept y (later y inside) below fun z held =>
        later z (limit z held)) nested.2⟩

/-- The lower part of a nested stack is nested. -/
theorem Nested.suffix {needs : ι → (ι → Prop) → Prop} {top bottom : List ι}
    (nested : Nested needs (top ++ bottom)) : Nested needs bottom := by
  induction top with
  | nil => exact nested
  | cons x top ih => exact ih nested.2

/-- Instructions that find what they need exactly in what is below them may be stacked. -/
theorem Nested.append_below {needs : ι → (ι → Prop) → Prop} {new rest : List ι}
    (met : ∀ (before : List ι) (x : ι) (after : List ι), new = before ++ x :: after →
      needs x (· ∈ after ++ rest))
    (nested : Nested needs rest) : Nested needs (new ++ rest) := by
  induction new with
  | nil => exact nested
  | cons x new ih =>
    refine ⟨met [] x new rfl, ih ?_⟩
    intro before y after split
    exact met (x :: before) y after (by rw [split, List.cons_append])

/-- Instructions that find what they need among the later ones and below may be stacked. -/
theorem Nested.append_split {needs : ι → (ι → Prop) → Prop} {new rest : List ι}
    (met : ∀ (before : List ι) (x : ι) (after : List ι), new = before ++ x :: after →
      ∀ below : ι → Prop, (∀ y ∈ after ++ rest, below y) → needs x below)
    (nested : Nested needs rest) : Nested needs (new ++ rest) := by
  apply Nested.append_below _ nested
  intro before x after split
  exact met before x after split _ fun y inside => inside

/-- Instructions that need nothing but what is below all of them may be stacked on it. -/
theorem Nested.append {needs : ι → (ι → Prop) → Prop} {new rest : List ι}
    (met : ∀ x ∈ new, ∀ below : ι → Prop, (∀ y ∈ rest, below y) → needs x below)
    (nested : Nested needs rest) : Nested needs (new ++ rest) := by
  apply Nested.append_split _ nested
  intro before x after split below all
  have inside : x ∈ new := by
    rw [split]
    exact List.mem_append_right before List.mem_cons_self
  exact met x inside below fun y lower => all y (List.mem_append_right after lower)

/-- What a stacked instruction needs is pending in its own thread. -/
theorem Nested.needs {needs : ι → (ι → Prop) → Prop}
    (grows : ∀ x below wider, (∀ y, below y → wider y) → needs x below → needs x wider)
    {stack : List ι} (nested : Nested needs stack) {x : ι} (inside : x ∈ stack) :
    needs x (· ∈ stack) := by
  induction stack with
  | nil => cases inside
  | cons y rest ih =>
    rcases List.mem_cons.mp inside with rfl | inside
    · exact grows _ _ _ (fun _ => List.mem_cons_of_mem _) nested.1
    · exact grows _ _ _ (fun _ => List.mem_cons_of_mem _) (ih nested.2 inside)

end Azul.Foundation.Stacks
