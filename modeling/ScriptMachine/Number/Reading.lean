import ScriptMachine.Number.Binary64

/-!
# Numbers in text

Reading of whole numbers and of decimals as a command line gives them: an optional sign, then digits
with an optional point and exponent, or one of the names of the infinite and undefined numbers in
any case.
-/

namespace ScriptMachine

namespace Reading

/-- The value of a decimal digit. -/
def digit? (character : Char) : Option Nat :=
  if '0' ≤ character ∧ character ≤ '9' then some (character.toNat - '0'.toNat) else none

def isDigit (character : Char) : Bool := (digit? character).isSome

/-- The value of a hexadecimal digit. -/
def hexDigit? (character : Char) : Option Nat :=
  if '0' ≤ character ∧ character ≤ '9' then some (character.toNat - '0'.toNat)
  else if 'a' ≤ character ∧ character ≤ 'f' then some (character.toNat - 'a'.toNat + 10)
  else if 'A' ≤ character ∧ character ≤ 'F' then some (character.toNat - 'A'.toNat + 10)
  else none

/-- The value of a run of decimal digits, continued from `start`. -/
def digitsValue (start : Nat) (digits : List Char) : Nat :=
  digits.foldl (fun value character => value * 10 + (digit? character).getD 0) start

/-- Splits an optional sign off. -/
def splitSign : List Char → Bool × List Char
  | '-' :: rest => (true, rest)
  | '+' :: rest => (false, rest)
  | text => (false, text)

/-- A 64-bit whole number: a sign if any, and digits only. -/
def integer? (text : String) : Option Int64 :=
  let (negative, digits) := splitSign text.toList
  if digits.isEmpty || !digits.all isDigit then none
  else
    let magnitude : Int := digitsValue 0 digits
    let value := if negative then -magnitude else magnitude
    int64? value

/-- The value of an exponent after its mark: a sign if any, and digits only. -/
def exponent? (text : List Char) : Option Int :=
  let (negative, digits) := splitSign text
  if digits.isEmpty || !digits.all isDigit then none
  else
    let magnitude : Int := digitsValue 0 digits
    some (if negative then -magnitude else magnitude)

/-- What follows the digits of a decimal: nothing, or an exponent. -/
def tailExponent? : List Char → Option Int
  | [] => some 0
  | mark :: rest => if mark = 'e' ∨ mark = 'E' then exponent? rest else none

/-- Digits with an optional point and exponent; at least one digit stands beside the point. -/
def decimal? (negative : Bool) (text : List Char) : Option Binary64 :=
  let whole := text.takeWhile isDigit
  let afterWhole := text.dropWhile isDigit
  let (places, afterPlaces) :=
    match afterWhole with
    | '.' :: rest => (rest.takeWhile isDigit, rest.dropWhile isDigit)
    | rest => ([], rest)
  if whole.isEmpty && places.isEmpty then none
  else
    (tailExponent? afterPlaces).map fun exponent =>
      Binary64.ofDecimal negative (digitsValue (digitsValue 0 whole) places)
        (exponent - places.length)

/-- A floating-point number, finite or named. -/
def number? (text : String) : Option Binary64 :=
  let (negative, magnitude) := splitSign text.toList
  let name := magnitude.map Char.toLower
  if name = "inf".toList ∨ name = "infinity".toList then some (Binary64.infinity negative)
  else if name = "nan".toList then
    some (Binary64.ofSignAndMagnitude negative Binary64.nan.word)
  else decimal? negative magnitude

end Reading

end ScriptMachine
