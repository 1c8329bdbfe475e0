import ScriptMachine.Number.Shortest

/-!
# Number layouts

How a decimal is laid out as text is a matter of a few decisions, which a `Layout` records: where
positional notation ends, whether a whole number keeps a fraction, how an exponent is marked, and
which of two equally good decimals is written.
The three layouts in use stand at the end.
-/

namespace ScriptMachine

/-- The decisions that turn a decimal into text. -/
structure Layout where
  /-- The least leading exponent that is written positionally, if there is a limit. -/
  positionalFrom : Option Int
  /-- The least leading exponent above the positional ones, if there is a limit. -/
  positionalBelow : Option Int
  /-- What follows a whole number in positional notation. -/
  wholeSuffix : String
  /-- What stands between the digits and a non-negative exponent. -/
  exponentMark : String
  /-- What stands between the digits and the magnitude of a negative exponent. -/
  negativeExponentMark : String
  /-- Which of two equally near decimals is written. -/
  tie : TieBreak

namespace Layout

/-- Whether a leading exponent calls for positional notation. -/
def isPositional (layout : Layout) (leading : Int) : Bool :=
  (layout.positionalFrom.all fun least => decide (least ≤ leading)) &&
    (layout.positionalBelow.all fun limit => decide (leading < limit))

/-- Decimal digits as characters. -/
def digitsText (value : Nat) : List Char := Nat.toDigits 10 value

/-- Digits with a point and the zeros that their place calls for. -/
def positional (layout : Layout) (decimal : Decimal) : String :=
  let digits := digitsText decimal.digits
  if 0 ≤ decimal.exponent then
    String.ofList (digits ++ List.replicate decimal.exponent.toNat '0') ++ layout.wholeSuffix
  else
    let places := (-decimal.exponent).toNat
    if places < digits.length then
      let whole := digits.length - places
      String.ofList (digits.take whole ++ '.' :: digits.drop whole)
    else
      String.ofList ('0' :: '.' :: List.replicate (places - digits.length) '0' ++ digits)

/-- One digit, a fraction if there are more, and the exponent. -/
def scientific (layout : Layout) (decimal : Decimal) : String :=
  let mantissa :=
    match digitsText decimal.digits with
    | first :: second :: rest => first :: '.' :: second :: rest
    | digits => digits
  let leading := decimal.leadingExponent
  String.ofList mantissa ++
    (if leading < 0 then layout.negativeExponentMark else layout.exponentMark) ++
    toString leading.natAbs

/-- The text of a decimal. -/
def render (layout : Layout) (decimal : Decimal) : String :=
  if decimal.digits = 0 || layout.isPositional decimal.leadingExponent then
    layout.positional decimal
  else layout.scientific decimal

/-- The text of a number. -/
def number (layout : Layout) (value : Binary64) : String :=
  if value.isNaN then "NaN"
  else
    let sign := if value.isNegative then "-" else ""
    if value.isInfinite then sign ++ "inf" else sign ++ layout.render (value.shortest layout.tie)

/-- Numbers in program output are positional throughout, and a whole number has no fraction. -/
def plain : Layout := ⟨none, none, "", "e", "e-", .up⟩

/-- Numbers in listings keep a fraction and turn to an exponent below `1e-4` and from `1e16` on. -/
def exact : Layout := ⟨some (-4), some 16, ".0", "e", "e-", .up⟩

/-- Numbers in trees keep a fraction and turn to a signed exponent below `1e-5` and from `1e16` on.
A tie goes to the even digit. -/
def tree : Layout := ⟨some (-5), some 16, ".0", "e+", "e-", .even⟩

end Layout

end ScriptMachine
