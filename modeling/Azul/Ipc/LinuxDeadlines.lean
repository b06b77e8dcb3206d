import Azul.Ipc.LinuxConditionVariable

/-!
# The deadline of a wait on `linux`

`getAbsoluteTime` on 64-bit words computes the same as on integers as long as the seconds of the
deadline can be represented. The deadline then is exactly the timeout after now; but it carries a
second only above 1000000000 nanoseconds, so that it is no valid time exactly when the nanoseconds
add up to that number.
-/

namespace Azul.Ipc.Linux.ConditionVariable

/-- The nanoseconds that a time stands for. -/
def Timespec.nanoseconds (time : Timespec) : Int := time.tvSec * 1000000000 + time.tvNsec

/-- A `timespec` in memory. -/
structure TimespecWords where
  tvSec : Int64
  tvNsec : Int64
  deriving DecidableEq

/-- The numbers in a `timespec`. -/
def TimespecWords.value (time : TimespecWords) : Timespec where
  tvSec := time.tvSec.toInt
  tvNsec := time.tvNsec.toInt

/-- `ConditionVariable::getAbsoluteTime`, with the words that it computes with. -/
def getAbsoluteTimeWords (time : TimespecWords) (timeout : Int64) : TimespecWords :=
  let additionalSeconds := timeout / 1000
  let timeout := timeout - additionalSeconds * 1000
  let time : TimespecWords :=
    { tvSec := time.tvSec + additionalSeconds, tvNsec := time.tvNsec + timeout * 1000000 }
  if time.tvNsec > 1000000000 then
    { tvSec := time.tvSec + 1, tvNsec := time.tvNsec - 1000000000 }
  else
    time

/-! ## Numbers -/

section Numbers

variable {now : Timespec} {timeout : Int}

/-- The deadline is as long after now as the timeout says. -/
theorem getAbsoluteTime_nanoseconds :
    (getAbsoluteTime now timeout).nanoseconds = now.nanoseconds + timeout * 1000000 := by
  unfold getAbsoluteTime Timespec.nanoseconds
  dsimp only
  split
  · dsimp only
    omega
  · dsimp only
    omega

/-- The deadline is a valid time unless the nanoseconds add up to a second. -/
theorem getAbsoluteTime_valid_iff (current : now.Valid) (nonnegative : 0 ≤ timeout) :
    (getAbsoluteTime now timeout).Valid ↔
      now.tvNsec + timeout % 1000 * 1000000 ≠ 1000000000 := by
  have rest : timeout - timeout.tdiv 1000 * 1000 = timeout % 1000 := by
    rw [Int.tdiv_eq_ediv_of_nonneg nonnegative]
    omega
  obtain ⟨lower, upper⟩ := current
  unfold getAbsoluteTime Timespec.Valid
  dsimp only
  rw [rest]
  split
  case isTrue above =>
    show 0 ≤ now.tvNsec + timeout % 1000 * 1000000 - 1000000000 ∧
      now.tvNsec + timeout % 1000 * 1000000 - 1000000000 < 1000000000 ↔ _
    omega
  case isFalse below =>
    show 0 ≤ now.tvNsec + timeout % 1000 * 1000000 ∧
      now.tvNsec + timeout % 1000 * 1000000 < 1000000000 ↔ _
    omega

end Numbers

/-! ## Words -/

section Range

variable {left right : Int64}

/-- A word holds the sum, the difference or the product of others if that is in range. -/
theorem toInt_add (lower : -9223372036854775808 ≤ left.toInt + right.toInt)
    (upper : left.toInt + right.toInt < 9223372036854775808) :
    (left + right).toInt = left.toInt + right.toInt := by
  rw [Int64.toInt_add, Int.bmod_eq_of_le]
  · omega
  · omega

theorem toInt_sub (lower : -9223372036854775808 ≤ left.toInt - right.toInt)
    (upper : left.toInt - right.toInt < 9223372036854775808) :
    (left - right).toInt = left.toInt - right.toInt := by
  rw [Int64.toInt_sub, Int.bmod_eq_of_le]
  · omega
  · omega

theorem toInt_mul (lower : -9223372036854775808 ≤ left.toInt * right.toInt)
    (upper : left.toInt * right.toInt < 9223372036854775808) :
    (left * right).toInt = left.toInt * right.toInt := by
  rw [Int64.toInt_mul, Int.bmod_eq_of_le]
  · omega
  · omega

end Range

/-- The seconds and the nanoseconds of a deadline stay in range when a second is carried. -/
theorem carried_range {sec nsec timeout : Int} (least : -9223372036854775808 ≤ sec)
    (lower : 0 ≤ nsec) (upper : nsec < 1000000000) (positive : 0 ≤ timeout)
    (seconds : sec * 1000000000 + nsec + timeout * 1000000 < 9223372036854775808 * 1000000000)
    (above : nsec + (timeout - timeout / 1000 * 1000) * 1000000 > 1000000000) :
    (-9223372036854775808 ≤ sec + timeout / 1000 + 1 ∧
      sec + timeout / 1000 + 1 < 9223372036854775808) ∧
    -9223372036854775808 ≤ nsec + (timeout - timeout / 1000 * 1000) * 1000000 - 1000000000 ∧
      nsec + (timeout - timeout / 1000 * 1000) * 1000000 - 1000000000 < 9223372036854775808 := by
  omega

section Deadline

variable {now : TimespecWords} {timeout : Int64}
  (current : now.value.Valid) (nonnegative : 0 ≤ timeout)
  (seconds : now.value.nanoseconds + timeout.toInt * 1000000 < 9223372036854775808 * 1000000000)

include current nonnegative seconds

/-- The words of the deadline do not overflow. -/
theorem getAbsoluteTimeWords_value :
    (getAbsoluteTimeWords now timeout).value = getAbsoluteTime now.value timeout.toInt := by
  have thousand : (1000 : Int64).toInt = 1000 := by decide
  have million : (1000000 : Int64).toInt = 1000000 := by decide
  have billion : (1000000000 : Int64).toInt = 1000000000 := by decide
  have one : (1 : Int64).toInt = 1 := by decide
  have least := Int64.le_toInt now.tvSec
  have most := Int64.toInt_lt timeout
  have positive : 0 ≤ timeout.toInt := Int64.le_iff_toInt_le.mp nonnegative
  obtain ⟨nsec, carry⟩ := current
  change 0 ≤ now.tvNsec.toInt at nsec
  change now.tvNsec.toInt < 1000000000 at carry
  change now.tvSec.toInt * 1000000000 + now.tvNsec.toInt + timeout.toInt * 1000000 <
    9223372036854775808 * 1000000000 at seconds
  have additional : (timeout / 1000).toInt = timeout.toInt.tdiv 1000 := by
    rw [Int64.toInt_div_of_ne_right _ _ (by decide), thousand]
  have quotient : timeout.toInt.tdiv 1000 = timeout.toInt / 1000 :=
    Int.tdiv_eq_ediv_of_nonneg positive
  have product : (timeout / 1000 * 1000).toInt = timeout.toInt.tdiv 1000 * 1000 := by
    rw [toInt_mul, additional, thousand] <;> rw [additional, thousand, quotient] <;> omega
  have rest : (timeout - timeout / 1000 * 1000).toInt =
      timeout.toInt - timeout.toInt.tdiv 1000 * 1000 := by
    rw [toInt_sub, product] <;> rw [product, quotient] <;> omega
  have scaled : ((timeout - timeout / 1000 * 1000) * 1000000).toInt =
      (timeout.toInt - timeout.toInt.tdiv 1000 * 1000) * 1000000 := by
    rw [toInt_mul, rest, million] <;> rw [rest, million, quotient] <;> omega
  have sec : (now.tvSec + timeout / 1000).toInt =
      now.tvSec.toInt + timeout.toInt.tdiv 1000 := by
    rw [toInt_add, additional] <;> rw [additional, quotient] <;> omega
  have sum : (now.tvNsec + (timeout - timeout / 1000 * 1000) * 1000000).toInt =
      now.tvNsec.toInt + (timeout.toInt - timeout.toInt.tdiv 1000 * 1000) * 1000000 := by
    rw [toInt_add, scaled] <;> rw [scaled, quotient] <;> omega
  have carries : now.tvNsec + (timeout - timeout / 1000 * 1000) * 1000000 > 1000000000 ↔
      now.tvNsec.toInt + (timeout.toInt - timeout.toInt.tdiv 1000 * 1000) * 1000000 >
        1000000000 := by
    rw [gt_iff_lt, Int64.lt_iff_toInt_lt, billion, sum]
  by_cases above : now.tvNsec.toInt + (timeout.toInt - timeout.toInt.tdiv 1000 * 1000) * 1000000 >
      1000000000
  · have words : getAbsoluteTimeWords now timeout =
        { tvSec := now.tvSec + timeout / 1000 + 1
          tvNsec := now.tvNsec + (timeout - timeout / 1000 * 1000) * 1000000 - 1000000000 } :=
      if_pos (carries.mpr above)
    have numbers : getAbsoluteTime now.value timeout.toInt =
        { tvSec := now.tvSec.toInt + timeout.toInt.tdiv 1000 + 1
          tvNsec := now.tvNsec.toInt +
            (timeout.toInt - timeout.toInt.tdiv 1000 * 1000) * 1000000 - 1000000000 } :=
      if_pos above
    rw [quotient] at above
    obtain ⟨secRange, nsecRange⟩ := carried_range least nsec carry positive seconds above
    rw [← quotient] at secRange nsecRange
    have next : (now.tvSec + timeout / 1000 + 1).toInt =
        now.tvSec.toInt + timeout.toInt.tdiv 1000 + 1 := by
      rw [toInt_add, sec, one]
      · rw [sec, one]
        exact secRange.1
      · rw [sec, one]
        exact secRange.2
    have carried : (now.tvNsec + (timeout - timeout / 1000 * 1000) * 1000000 - 1000000000).toInt =
        now.tvNsec.toInt + (timeout.toInt - timeout.toInt.tdiv 1000 * 1000) * 1000000 -
          1000000000 := by
      rw [toInt_sub, sum, billion]
      · rw [sum, billion]
        exact nsecRange.1
      · rw [sum, billion]
        exact nsecRange.2
    rw [words, numbers]
    exact congrArg₂ Timespec.mk next carried
  · have words : getAbsoluteTimeWords now timeout =
        { tvSec := now.tvSec + timeout / 1000
          tvNsec := now.tvNsec + (timeout - timeout / 1000 * 1000) * 1000000 } :=
      if_neg (mt carries.mp above)
    have numbers : getAbsoluteTime now.value timeout.toInt =
        { tvSec := now.tvSec.toInt + timeout.toInt.tdiv 1000
          tvNsec := now.tvNsec.toInt +
            (timeout.toInt - timeout.toInt.tdiv 1000 * 1000) * 1000000 } :=
      if_neg above
    rw [words, numbers]
    exact congrArg₂ Timespec.mk sec sum

/-- The deadline of a wait is a valid time that is exactly the timeout after now, and `WaitFor` is
not refused because of it, unless the nanoseconds add up to a second. -/
theorem deadline_right_iff :
    ((getAbsoluteTimeWords now timeout).value.Valid ∧
        (getAbsoluteTimeWords now timeout).value.nanoseconds =
          now.value.nanoseconds + timeout.toInt * 1000000 ∧
        (Call.waitFor timeout.toInt).Accepted now.value) ↔
      now.value.tvNsec + timeout.toInt % 1000 * 1000000 ≠ 1000000000 := by
  have valid := getAbsoluteTime_valid_iff current (Int64.le_iff_toInt_le.mp nonnegative)
  rw [getAbsoluteTimeWords_value current nonnegative seconds, ← valid]
  constructor
  · intro right
    exact right.1
  · intro accepted
    exact ⟨accepted, getAbsoluteTime_nanoseconds, accepted⟩

end Deadline

/-- A quarter of a second before a full one, and a timeout beyond it. -/
theorem deadline_right_beyond :
    (getAbsoluteTimeWords ⟨7, 750000000⟩ 1500).value.Valid ∧
      (getAbsoluteTimeWords ⟨7, 750000000⟩ 1500).value.nanoseconds =
        (TimespecWords.value ⟨7, 750000000⟩).nanoseconds + Int64.toInt 1500 * 1000000 ∧
      (Call.waitFor (Int64.toInt 1500)).Accepted (TimespecWords.value ⟨7, 750000000⟩) :=
  (deadline_right_iff (by decide) (by decide) (by decide)).mpr (by decide)

/-- A timeout that ends at a full second. -/
theorem deadline_invalid :
    (TimespecWords.value ⟨7, 999000000⟩).Valid ∧
      (getAbsoluteTimeWords ⟨7, 999000000⟩ 1).value = { tvSec := 7, tvNsec := 1000000000 } ∧
      ¬ (getAbsoluteTimeWords ⟨7, 999000000⟩ 1).value.Valid ∧
      (Call.waitFor 1).ends RobustMutex.EINVAL =
        .thrown "pthread_cond_timedwait failed, error: 22" := by
  decide

end Azul.Ipc.Linux.ConditionVariable
