/-!
# Machine words and binary64 numbers

Powers bound words and scale numbers; a whole number is a word if it fits 64 bits.

A floating-point number of a script is its 64-bit pattern. Keeping the pattern, and not a value of
an abstract number type, makes equality decidable and lets an image carry every number, not-a-number
payloads included, without a change.

A finite pattern denotes `significand * 2 ^ exponent`, with the sign apart. `ofRatio` is the
converse: the pattern nearest to a ratio of natural numbers, ties to the even significand. The four
basic operations go through the processor's arithmetic; remainder, which that arithmetic lacks, is
computed exactly on significands.
-/

namespace ScriptMachine

/-! ## Words -/

/-- Two to a power. -/
abbrev twoTo (exponent : Nat) : Nat := Nat.pow 2 exponent

/-- Ten to a power. -/
abbrev tenTo (exponent : Nat) : Nat := Nat.pow 10 exponent

/-- Whether a whole number fits 64 bits, one of them for the sign. -/
def fitsInt64 (value : Int) : Bool :=
  decide (-(twoTo 63 : Int) ≤ value ∧ value < (twoTo 63 : Int))

/-- The word of a whole number that fits it. -/
def int64? (value : Int) : Option Int64 :=
  if fitsInt64 value then some (Int64.ofInt value) else none

/-! ## Numbers -/

/-- A floating-point number, given by its bit pattern. -/
structure Binary64 where
  /-- Sign, biased exponent and fraction, from the top bit down. -/
  bits : UInt64
deriving DecidableEq, Inhabited

namespace Binary64

/-- The pattern as a natural number. -/
def word (number : Binary64) : Nat := number.bits.toNat

/-- Whether the sign bit is set. -/
def isNegative (number : Binary64) : Bool := decide (twoTo 63 ≤ number.word)

/-- The eleven exponent bits. -/
def biasedExponent (number : Binary64) : Nat := number.word / twoTo 52 % twoTo 11

/-- The fifty-two fraction bits. -/
def fraction (number : Binary64) : Nat := number.word % twoTo 52

def isNaN (number : Binary64) : Bool :=
  number.biasedExponent == 2047 && number.fraction != 0

def isInfinite (number : Binary64) : Bool :=
  number.biasedExponent == 2047 && number.fraction == 0

def isFinite (number : Binary64) : Bool := number.biasedExponent != 2047

/-- Whether the number is one of the two zeros. -/
def isZero (number : Binary64) : Bool := number.word % twoTo 63 == 0

/-- The integer that a finite number's power of two is multiplied with. -/
def significand (number : Binary64) : Nat :=
  if number.biasedExponent = 0 then number.fraction else number.fraction + twoTo 52

/-- How far the exponent of a finite number lies above the least one, which is `-1074`. -/
def scale (number : Binary64) : Nat := number.biasedExponent - 1

/-- The magnitude of a finite number in units of the least positive number. -/
def magnitude (number : Binary64) : Nat := number.significand * twoTo number.scale

/-- The pattern with the given sign and the given low 63 bits. -/
def ofSignAndMagnitude (negative : Bool) (magnitudeBits : Nat) : Binary64 :=
  ⟨UInt64.ofNat (magnitudeBits % twoTo 63 + if negative then twoTo 63 else 0)⟩

def zero : Binary64 := ⟨0⟩

/-- The one not-a-number pattern that arithmetic produces. -/
def nan : Binary64 := ⟨0x7FF8000000000000⟩

def infinity (negative : Bool) : Binary64 := ofSignAndMagnitude negative (2047 * twoTo 52)

/-- Rounds a ratio to the nearest integer, a tie to the even one. -/
def roundQuotient (numerator denominator : Nat) : Nat :=
  let quotient := numerator / denominator
  let doubledRest := 2 * (numerator % denominator)
  if doubledRest < denominator then quotient
  else if denominator < doubledRest then quotient + 1
  else if quotient % 2 = 0 then quotient else quotient + 1

/-- The low 63 bits of the number nearest to a ratio. A significand that rounds up to the next
power of two carries into the exponent bits, which is the right pattern for it. -/
def magnitudeOfRatio (numerator denominator : Nat) : Nat :=
  if numerator = 0 then 0
  else
    -- The ratio lies between 2 ^ (lead - 1) and 2 ^ (lead + 1), counted in least numbers.
    let lead := numerator.log2 + 1074 - denominator.log2
    let shift := if numerator * twoTo 1074 < denominator * twoTo lead then lead - 53 else lead - 52
    let rounded := roundQuotient (numerator * twoTo 1074) (denominator * twoTo shift)
    let pattern := if rounded < twoTo 52 then rounded else shift * twoTo 52 + rounded
    min pattern (2047 * twoTo 52)

/-- The number nearest to a ratio of natural numbers, with the given sign. -/
def ofRatio (negative : Bool) (numerator denominator : Nat) : Binary64 :=
  ofSignAndMagnitude negative (magnitudeOfRatio numerator denominator)

/-- The number nearest to an integer. -/
def ofInt (value : Int) : Binary64 := ofRatio (decide (value < 0)) value.natAbs 1

/-- The number nearest to `digits * 10 ^ exponent`. Magnitudes far outside the range are settled
without building the power. -/
def ofDecimal (negative : Bool) (digits : Nat) (exponent : Int) : Binary64 :=
  let lead := exponent + (Nat.toDigits 10 digits).length
  if digits = 0 then ofSignAndMagnitude negative 0
  else if 310 < lead then infinity negative
  else if lead < -330 then ofSignAndMagnitude negative 0
  else if 0 ≤ exponent then ofRatio negative (digits * tenTo exponent.toNat) 1
  else ofRatio negative digits (tenTo (-exponent).toNat)

/-- The processor's view of the pattern. -/
def toFloat (number : Binary64) : Float := Float.ofBits number.bits

/-- The pattern of a result, not-a-number results made one. -/
def ofFloat (result : Float) : Binary64 := if result.isNaN then nan else ⟨result.toBits⟩

def add (left right : Binary64) : Binary64 := ofFloat (left.toFloat + right.toFloat)

def sub (left right : Binary64) : Binary64 := ofFloat (left.toFloat - right.toFloat)

def mul (left right : Binary64) : Binary64 := ofFloat (left.toFloat * right.toFloat)

def div (left right : Binary64) : Binary64 := ofFloat (left.toFloat / right.toFloat)

def sqrt (number : Binary64) : Binary64 := ofFloat number.toFloat.sqrt

def pow (base exponent : Binary64) : Binary64 := ofFloat (base.toFloat.pow exponent.toFloat)

/-- The number with its sign bit flipped. -/
def neg (number : Binary64) : Binary64 :=
  ofSignAndMagnitude (!number.isNegative) number.word

/-- The number with its sign bit cleared. -/
def abs (number : Binary64) : Binary64 := ofSignAndMagnitude false number.word

/-- The remainder of the division truncated toward zero; it has the sign of the dividend. -/
def rem (dividend divisor : Binary64) : Binary64 :=
  if dividend.isNaN || divisor.isNaN || dividend.isInfinite || divisor.isZero then nan
  else if divisor.isInfinite then dividend
  else ofRatio dividend.isNegative (dividend.magnitude % divisor.magnitude) (twoTo 1074)

/-- The number's place in the order of all numbers that are not not-a-number. -/
def rank (number : Binary64) : Int :=
  if number.isNegative then -((number.word % twoTo 63 : Nat) : Int) else (number.word : Int)

/-- Numerical equality: zeros are equal and not-a-number differs from everything. -/
def numEq (left right : Binary64) : Bool :=
  !left.isNaN && !right.isNaN && left.rank == right.rank

def numLt (left right : Binary64) : Bool :=
  !left.isNaN && !right.isNaN && decide (left.rank < right.rank)

def numLe (left right : Binary64) : Bool :=
  !left.isNaN && !right.isNaN && decide (left.rank ≤ right.rank)

/-- The smaller number, of two equal ones the second. A not-a-number operand gives way to the other
one. -/
def least (left right : Binary64) : Binary64 :=
  if right.isNaN then left else if left.numLt right then left else right

/-- The larger number, of two equal ones the second. A not-a-number operand gives way to the other
one. -/
def greatest (left right : Binary64) : Binary64 :=
  if right.isNaN then left else if right.numLt left then left else right

end Binary64

end ScriptMachine
