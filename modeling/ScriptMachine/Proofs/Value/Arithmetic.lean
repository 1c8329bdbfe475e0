import Mathlib.Tactic.Common
import ScriptMachine.Value.Operators

/-!
# Arithmetic on whole numbers

An operator on two whole numbers has an exact result, whatever its size, unless the divisor is zero.
The result of the operator is the exact one or a fault: division by zero, or an overflow where the
exact result does not fit 64 bits. One pair of operands is an exception. A remainder is taken
together with its quotient, so that of the least number by minus one is refused as an overflow,
although it is zero.
-/

namespace ScriptMachine

/-! ## Words -/

section Words

variable {value : Int} {fault overflow : RuntimeFault}

theorem fitsInt64_iff :
    fitsInt64 value = true ↔ -9223372036854775808 ≤ value ∧ value < 9223372036854775808 := by
  rw [fitsInt64, decide_eq_true_iff]
  exact Iff.rfl

theorem fitsInt64_toInt (number : Int64) : fitsInt64 number.toInt = true :=
  fitsInt64_iff.mpr ⟨number.le_toInt, number.toInt_lt⟩

theorem toInt_ofInt_of_fits (fits : fitsInt64 value = true) : (Int64.ofInt value).toInt = value :=
  Int64.toInt_ofInt_of_le (fitsInt64_iff.mp fits).1 (fitsInt64_iff.mp fits).2

theorem checkedInt_eq_ok_iff {number : Int64} :
    checkedInt overflow value = .ok (.int number) ↔ number.toInt = value := by
  unfold checkedInt
  split
  · rename_i fits
    have same := toInt_ofInt_of_fits fits
    constructor
    · intro found
      cases found
      exact same
    · intro exact
      rw [← Int64.toInt_inj.mp (same.trans exact.symm)]
  · rename_i large
    simp only [reduceCtorEq, false_iff]
    intro exact
    apply large
    rw [← exact]
    exact fitsInt64_toInt number

theorem checkedInt_eq_error_iff :
    checkedInt overflow value = .error fault ↔ fitsInt64 value = false ∧ overflow = fault := by
  unfold checkedInt
  split <;> simp_all

end Words

/-! ## Division -/

/-- A quotient truncated toward zero, and the remainder that belongs to it: it has the sign of the
dividend. -/
structure Truncates (dividend divisor quotient remainder : Int) : Prop where
  whole : dividend = quotient * divisor + remainder
  small : remainder.natAbs < divisor.natAbs
  sign : (0 ≤ dividend → 0 ≤ remainder) ∧ (dividend ≤ 0 → remainder ≤ 0)

section Division

variable {dividend divisor quotient remainder : Int}

theorem truncates_tdiv (nonzero : divisor ≠ 0) :
    Truncates dividend divisor (dividend.tdiv divisor) (dividend.tmod divisor) where
  whole := (Int.tdiv_mul_add_tmod dividend divisor).symm
  small := by
    rw [Int.natAbs_tmod]
    exact Nat.mod_lt _ (Int.natAbs_pos.mpr nonzero)
  sign := by
    refine ⟨Int.tmod_nonneg divisor, ?_⟩
    intro negative
    have opposite := Int.tmod_nonneg divisor (Int.neg_nonneg_of_nonpos negative)
    rw [Int.neg_tmod] at opposite
    omega

theorem Truncates.divisor_ne_zero (truncates : Truncates dividend divisor quotient remainder) :
    divisor ≠ 0 := by
  have small := truncates.small
  omega

/-- Two remainders of one sign differ by less than the divisor, so there is only one. -/
theorem Truncates.unique (truncates : Truncates dividend divisor quotient remainder)
    {other rest : Int} (again : Truncates dividend divisor other rest) :
    quotient = other ∧ remainder = rest := by
  have divides : divisor ∣ rest - remainder := by
    refine ⟨quotient - other, ?_⟩
    have whole := truncates.whole.symm.trans again.whole
    rw [Int.mul_sub, Int.mul_comm divisor, Int.mul_comm divisor]
    omega
  have near : (rest - remainder).natAbs < divisor.natAbs := by
    have small := truncates.small
    have smallToo := again.small
    rcases Int.le_total 0 dividend with positive | negative
    · have sign := truncates.sign.1 positive
      have signToo := again.sign.1 positive
      omega
    · have sign := truncates.sign.2 negative
      have signToo := again.sign.2 negative
      omega
  have same : remainder = rest := by
    have none := Int.eq_zero_of_dvd_of_natAbs_lt_natAbs divides near
    omega
  refine ⟨?_, same⟩
  apply Int.eq_of_mul_eq_mul_right truncates.divisor_ne_zero
  have whole := truncates.whole.symm.trans again.whole
  omega

theorem truncates_iff :
    Truncates dividend divisor quotient remainder ↔
      divisor ≠ 0 ∧ quotient = dividend.tdiv divisor ∧ remainder = dividend.tmod divisor := by
  constructor
  · intro truncates
    have nonzero := truncates.divisor_ne_zero
    exact ⟨nonzero, truncates.unique (truncates_tdiv nonzero)⟩
  · rintro ⟨nonzero, rfl, rfl⟩
    exact truncates_tdiv nonzero

end Division

/-! ## Exact results -/

/-- The operators of arithmetic. -/
def BinaryOp.arithmetic : List BinaryOp := [.add, .sub, .mul, .div, .mod]

/-- The exact result of an operator of arithmetic, whatever its size. -/
inductive ExactResult (left right : Int) : BinaryOp → Int → Prop
  | add : ExactResult left right .add (left + right)
  | sub : ExactResult left right .sub (left - right)
  | mul : ExactResult left right .mul (left * right)
  | div {quotient remainder : Int} (truncates : Truncates left right quotient remainder) :
      ExactResult left right .div quotient
  | mod {quotient remainder : Int} (truncates : Truncates left right quotient remainder) :
      ExactResult left right .mod remainder

/-- The fault of an operator whose result does not fit. -/
def overflowFault (operator : BinaryOp) (left right : Int64) : RuntimeFault :=
  .unknown ("integer overflow in " ++ toString left.toInt ++ " " ++ operator.symbol ++ " " ++
    toString right.toInt)

/-- A remainder whose quotient does not fit. -/
def QuotientOverflows (operator : BinaryOp) (left right : Int64) : Prop :=
  operator = .mod ∧ left = Int64.minValue ∧ right = -1

/-- What an operator of arithmetic makes of two whole numbers. -/
structure ExactOrFault (operator : BinaryOp) (left right : Int64) (result : OperatorResult) :
    Prop where
  /-- A number is the result exactly if it is the exact one, the exception apart. -/
  ok : ∀ number : Int64, result = some (.ok (.int number)) ↔
    ExactResult left.toInt right.toInt operator number.toInt ∧
      ¬QuotientOverflows operator left right
  byZero : result = some (.error .divisionByZero) ↔
    (operator = .div ∨ operator = .mod) ∧ right = 0
  overflow : result = some (.error (overflowFault operator left right)) ↔
    (∃ number, ExactResult left.toInt right.toInt operator number ∧
      ¬(-(twoTo 63 : Int) ≤ number ∧ number < (twoTo 63 : Int))) ∨
    QuotientOverflows operator left right
  /-- There is no other result. -/
  total : (∃ number, result = some (.ok (.int number))) ∨
    result = some (.error .divisionByZero) ∨
    result = some (.error (overflowFault operator left right))

section Results

variable {operator : BinaryOp} {left right : Int64} {dividend divisor number : Int}

theorem exactResult_iff :
    ExactResult dividend divisor operator number ↔
      match operator with
      | .add => number = dividend + divisor
      | .sub => number = dividend - divisor
      | .mul => number = dividend * divisor
      | .div => divisor ≠ 0 ∧ number = dividend.tdiv divisor
      | .mod => divisor ≠ 0 ∧ number = dividend.tmod divisor
      | _ => False := by
  constructor
  · intro exact
    cases exact with
    | add => rfl
    | sub => rfl
    | mul => rfl
    | div truncates =>
        rcases truncates_iff.mp truncates with ⟨nonzero, same, _⟩
        exact ⟨nonzero, same⟩
    | mod truncates =>
        rcases truncates_iff.mp truncates with ⟨nonzero, _, same⟩
        exact ⟨nonzero, same⟩
  · intro result
    cases operator with
    | add => exact result ▸ .add
    | sub => exact result ▸ .sub
    | mul => exact result ▸ .mul
    | div =>
        rcases result with ⟨nonzero, rfl⟩
        exact .div (truncates_tdiv nonzero)
    | mod =>
        rcases result with ⟨nonzero, rfl⟩
        exact .mod (truncates_tdiv nonzero)
    | _ => exact result.elim

/-- An operation that has one exact result and does not look at anything else. -/
theorem ExactOrFault.checked {exact : Int}
    (divides : operator = .div ∨ operator = .mod → right ≠ 0)
    (paired : ¬QuotientOverflows operator left right)
    (only : ∀ number, ExactResult left.toInt right.toInt operator number ↔ number = exact) :
    ExactOrFault operator left right
      (some (checkedInt (overflowFault operator left right) exact)) where
  ok := by
    intro number
    rw [Option.some.injEq, checkedInt_eq_ok_iff, only]
    simp [paired]
  byZero := by
    rw [Option.some.injEq, checkedInt_eq_error_iff]
    constructor
    · rintro ⟨_, ⟨⟩⟩
    · rintro ⟨division, zero⟩
      exact absurd zero (divides division)
  overflow := by
    rw [Option.some.injEq, checkedInt_eq_error_iff]
    simp [paired, only, fitsInt64]
  total := by
    rcases result : checkedInt (overflowFault operator left right) exact with fault | value
    · rw [(checkedInt_eq_error_iff.mp result).2]
      exact .inr (.inr rfl)
    · unfold checkedInt at result
      split at result
      · cases result
        exact .inl ⟨_, rfl⟩
      · cases result

theorem ExactOrFault.zero (division : operator = .div ∨ operator = .mod) :
    ExactOrFault operator left 0 (some (.error .divisionByZero)) where
  ok := by
    intro number
    rcases division with rfl | rfl
    · simp [exactResult_iff]
    · simp [exactResult_iff]
  byZero := by simp [division]
  overflow := by
    have other : ¬QuotientOverflows operator left 0 := by
      rintro ⟨_, _, ⟨⟩⟩
    rcases division with rfl | rfl
    · simp [exactResult_iff, overflowFault, other]
    · simp [exactResult_iff, overflowFault, other]
  total := .inr (.inl rfl)

/-- The one remainder that is refused. -/
theorem ExactOrFault.least :
    ExactOrFault .mod Int64.minValue (-1)
      (some (.error (overflowFault .mod Int64.minValue (-1)))) where
  ok := by simp [QuotientOverflows]
  byZero := by simp [overflowFault]
  overflow := by simp [QuotientOverflows]
  total := .inr (.inr rfl)

/-- All quotients but one fit. -/
theorem fitsInt64_tdiv_iff (nonzero : right ≠ 0) :
    fitsInt64 (left.toInt.tdiv right.toInt) = true ↔ ¬(left = Int64.minValue ∧ right = -1) := by
  have least : left = Int64.minValue ↔ left.toInt = -9223372036854775808 := Int64.toInt_inj.symm
  have minus : right = -1 ↔ right.toInt = -1 := Int64.toInt_inj.symm
  have zero : right = 0 ↔ right.toInt = 0 := Int64.toInt_inj.symm
  rw [fitsInt64_iff, least, minus]
  rw [ne_eq, zero] at nonzero
  have leftLow := left.le_toInt
  have leftHigh := left.toInt_lt
  have smaller := Int.natAbs_tdiv_le_natAbs left.toInt right.toInt
  by_cases opposite : right.toInt = -1
  · rw [opposite, Int.tdiv_neg, Int.tdiv_one]
    omega
  · have sign : left.toInt = -9223372036854775808 →
        left.toInt.tdiv right.toInt ≠ 9223372036854775808 := by
      intro lowest same
      have whole := Int.tdiv_mul_add_tmod left.toInt right.toInt
      have truncates := @truncates_tdiv left.toInt right.toInt nonzero
      have small := truncates.small
      have signs := truncates.sign.2 (by omega)
      rw [same] at whole
      omega
    omega

end Results

/-- Arithmetic on whole numbers is exact or faults. There is one remainder that faults although it
is a number: that of the least number by minus one, whose quotient does not fit. -/
theorem arithmetic_exact_or_faults {operator : BinaryOp}
    (arithmetic : operator ∈ BinaryOp.arithmetic) (store : Store) (left right : Int64) :
    ExactOrFault operator left right ((Value.int left).binary store operator (.int right)) := by
  have nonzero (some : right ≠ 0) : right.toInt ≠ 0 := fun none => some (Int64.toInt_inj.mp none)
  cases operator with
  | add | sub | mul =>
      apply ExactOrFault.checked (by simp) (by simp [QuotientOverflows])
      simp [exactResult_iff]
  | div =>
      by_cases zero : right = 0
      · subst zero
        exact .zero (.inl rfl)
      · have result : (Value.int left).binary store .div (.int right) =
            some (checkedInt (overflowFault .div left right) (left.toInt.tdiv right.toInt)) := by
          simp [Value.binary, intBinary, nonzero zero, overflowFault]
        rw [result]
        apply ExactOrFault.checked (fun _ => zero) (by simp [QuotientOverflows])
        simp [exactResult_iff, nonzero zero]
  | mod =>
      by_cases zero : right = 0
      · subst zero
        exact .zero (.inr rfl)
      · by_cases exception : left = Int64.minValue ∧ right = -1
        · rcases exception with ⟨rfl, rfl⟩
          exact .least
        · have fits := (fitsInt64_tdiv_iff zero).mpr exception
          have result : (Value.int left).binary store .mod (.int right) =
              some (checkedInt (overflowFault .mod left right) (left.toInt.tmod right.toInt)) := by
            simp [Value.binary, intBinary, nonzero zero, fits, overflowFault]
          rw [result]
          apply ExactOrFault.checked (fun _ => zero) (by simpa [QuotientOverflows] using exception)
          simp [exactResult_iff, nonzero zero]
  | _ => simp [BinaryOp.arithmetic] at arithmetic

/-- The least number divided by minus one is the one quotient that does not fit. -/
theorem arithmetic_exact_or_faults_quotient :
    BinaryOp.div ∈ BinaryOp.arithmetic ∧
      (Value.int Int64.minValue).binary .empty .div (.int (-1)) =
        some (.error (overflowFault .div Int64.minValue (-1))) := by
  have settled := @arithmetic_exact_or_faults .div (by decide) .empty Int64.minValue (-1)
  refine ⟨by decide, settled.overflow.mpr (.inl ⟨9223372036854775808, ?_, by decide⟩)⟩
  exact .div (truncates_tdiv (by decide))

/-- Not every remainder that fits is given: that of the least number by minus one is zero, and it is
refused. -/
theorem least_remainder_refused :
    ExactResult Int64.minValue.toInt (-1 : Int64).toInt .mod (0 : Int64).toInt ∧
      (Value.int Int64.minValue).binary .empty .mod (.int (-1)) =
        some (.error (.unknown "integer overflow in -9223372036854775808 % -1")) ∧
      ¬∀ (left right number : Int64), ExactResult left.toInt right.toInt .mod number.toInt →
        (Value.int left).binary .empty .mod (.int right) = some (.ok (.int number)) := by
  have zero : ExactResult Int64.minValue.toInt (-1 : Int64).toInt .mod (0 : Int64).toInt :=
    .mod (truncates_tdiv (by decide))
  refine ⟨zero, rfl, ?_⟩
  intro claimed
  cases claimed Int64.minValue (-1) 0 zero

end ScriptMachine
