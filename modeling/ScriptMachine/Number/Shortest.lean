import ScriptMachine.Number.Binary64

/-!
# The fewest digits that read back

Every real number in a certain interval around a binary64 number rounds to that number. The interval
reaches half way to both neighbours and includes its ends exactly when the significand is even. A
decimal with few digits that lies inside is the natural way to write the number.

`shortest` looks at grids of decimals with one, two, up to seventeen significant digits. On each
grid only the two neighbours of the number matter: if any point of the grid lies inside the
interval, one of them does. The first grid with a hit wins, and of two hits the nearer one; which of
two that are equally near is left to the caller. All comparisons are between natural numbers.
-/

namespace ScriptMachine

/-- The decimal `digits * 10 ^ exponent`. -/
structure Decimal where
  digits : Nat
  exponent : Int
deriving DecidableEq, Inhabited

namespace Decimal

/-- How many decimal digits a natural number has; zero has none. -/
def digitCount (value : Nat) : Nat := if value = 0 then 0 else (Nat.toDigits 10 value).length

/-- Drops trailing zeros, at most as many as `bound`. -/
def stripZeros : Nat → Decimal → Decimal
  | 0, decimal => decimal
  | bound + 1, decimal =>
      if decimal.digits ≠ 0 ∧ decimal.digits % 10 = 0 then
        stripZeros bound ⟨decimal.digits / 10, decimal.exponent + 1⟩
      else decimal

/-- The power of ten of the leading digit. -/
def leadingExponent (decimal : Decimal) : Int :=
  decimal.exponent + (digitCount decimal.digits : Int) - 1

end Decimal

/-- Which of two decimals on a grid is taken when they are equally near. -/
inductive TieBreak where
  /-- The upper one. -/
  | up
  /-- The one with an even last digit. -/
  | even
deriving DecidableEq

/-- Whether a tie goes to the lower decimal, which has the given digits. -/
def TieBreak.takesLower : TieBreak → Nat → Bool
  | .up, _ => false
  | .even, digits => digits % 2 == 0

namespace Binary64

/-- The numerator of a positive finite number over `2 ^ 1076`, so that the interval's ends are
whole. -/
def quarters (number : Binary64) : Nat := 4 * number.magnitude

/-- The distance to the interval's lower end in the same units. Below a power of two the
neighbours are closer together. -/
def gapBelow (number : Binary64) : Nat :=
  (if number.fraction = 0 ∧ 1 < number.biasedExponent then 1 else 2) * twoTo number.scale

def gapAbove (number : Binary64) : Nat := 2 * twoTo number.scale

/-- Whether a decimal given as `candidate * unit` rounds to the number, where all quantities are
multiplied with `factor`. -/
def accepts (number : Binary64) (factor unit candidate : Nat) : Bool :=
  let lower := (number.quarters - number.gapBelow) * factor
  let upper := (number.quarters + number.gapAbove) * factor
  let value := candidate * unit
  if number.significand % 2 = 0 then decide (lower ≤ value ∧ value ≤ upper)
  else decide (lower < value ∧ value < upper)

/-- The power of ten of the leading digit of a positive number. -/
def leadingPower (number : Binary64) : Int :=
  let denominator := twoTo 1076
  if denominator ≤ number.quarters then
    (Decimal.digitCount (number.quarters / denominator) : Int) - 1
  else
    let inverse := (denominator + number.quarters - 1) / number.quarters
    Int.negOfNat (Decimal.digitCount (inverse - 1))

/-- The best decimal of the grid with the given unit exponent, if one reads back. -/
def onGrid (number : Binary64) (tie : TieBreak) (unitExponent : Int) : Option Decimal :=
  let factor := tenTo (-unitExponent).toNat
  let unit := twoTo 1076 * tenTo unitExponent.toNat
  let below := number.quarters * factor / unit
  let rest := number.quarters * factor % unit
  let acceptsBelow := number.accepts factor unit below
  let acceptsAbove := number.accepts factor unit (below + 1)
  let prefersBelow := decide (2 * rest < unit) || (2 * rest == unit && tie.takesLower below)
  if acceptsBelow && (!acceptsAbove || prefersBelow) then
    some ⟨below, unitExponent⟩
  else if acceptsAbove then some ⟨below + 1, unitExponent⟩
  else none

/-- Tries grids from the given digit count on, at most `bound` of them. Seventeen digits are enough
for every number, so the last resort is not met from `shortest`. -/
def search (number : Binary64) (tie : TieBreak) (leading : Int) : Nat → Nat → Decimal
  | 0, _ => ⟨number.quarters / twoTo 1076, 0⟩
  | bound + 1, count =>
      match number.onGrid tie (leading - count + 1) with
      | some decimal => decimal
      | none => number.search tie leading bound (count + 1)

/-- The shortest decimal that reads back as the magnitude of a finite number. -/
def shortest (number : Binary64) (tie : TieBreak) : Decimal :=
  if number.magnitude = 0 then ⟨0, 0⟩
  else Decimal.stripZeros 400 (number.search tie number.leadingPower 17 1)

end Binary64

end ScriptMachine
