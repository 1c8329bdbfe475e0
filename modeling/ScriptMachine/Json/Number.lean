import ScriptMachine.Json.Basic
import ScriptMachine.Number.Reading

/-!
# Numbers of the interchange format

A whole number that fits 64 bits is read exactly. Every other number is read as a significand of at
most 64 bits and a power of ten, digits beyond the significand only moving the exponent, and the two
are joined by one rounded product or quotient. A number that is too large is refused.
-/

namespace ScriptMachine

namespace Json

/-- Why a text is not a tree. -/
inductive ParseError where
  /-- The text goes on in a way that no tree does. -/
  | syntaxError
  /-- The text ends inside a tree. -/
  | endOfText
deriving DecidableEq, Repr

/-- A reader of a leading part of a text gives its result and the rest. -/
abbrev Parsed (α : Type) := Except ParseError (α × List Char)

/-- The error for an unexpected rest: the text ended, or it goes on wrongly. -/
def unexpected {α : Type} : List Char → Except ParseError α
  | [] => .error .endOfText
  | _ => .error .syntaxError

/-- Ten to a power, rounded. -/
def powerOfTen (exponent : Nat) : Binary64 := Binary64.ofRatio false (tenTo exponent) 1

/-- Divides by the largest power of ten until the exponent is in reach; zero stays zero. -/
def scaleDown : Nat → Binary64 → Nat → Binary64
  | 0, value, _ => value
  | bound + 1, value, exponent =>
      if exponent ≤ 308 then value.div (powerOfTen exponent)
      else if value.isZero then value
      else scaleDown bound (value.div (powerOfTen 308)) (exponent - 308)

/-- The product of a significand and a power of ten, if it is in range. -/
def scaled (negative : Bool) (significand : Nat) (exponent : Int) : Except ParseError Binary64 :=
  let start := Binary64.ofInt significand
  let signed (value : Binary64) := if negative then value.neg else value
  if 0 ≤ exponent then
    if 308 < exponent then
      if start.isZero then .ok (signed start) else .error .syntaxError
    else
      let value := start.mul (powerOfTen exponent.toNat)
      if value.isInfinite then .error .syntaxError else .ok (signed value)
  else .ok (signed (scaleDown 4 start (-exponent).toNat))

/-- The largest significand. -/
def significandLimit : Nat := twoTo 64 - 1

/-- Takes digits into the significand while it stays within 64 bits. -/
def gather : Nat → Nat → List Char → Nat × Nat × List Char
  | significand, taken, character :: rest =>
      match Reading.digit? character with
      | some digit =>
          if significand * 10 + digit ≤ significandLimit then
            gather (significand * 10 + digit) (taken + 1) rest
          else (significand, taken, character :: rest)
      | none => (significand, taken, character :: rest)
  | significand, taken, [] => (significand, taken, [])

/-- An exponent after its mark, joined with the significand. -/
def withExponent (negative : Bool) (significand : Nat) (exponent : Int) (text : List Char) :
    Parsed Json :=
  let (below, digits) := Reading.splitSign text
  match digits.takeWhile Reading.isDigit with
  | [] => unexpected digits
  | run =>
      let magnitude := Reading.digitsValue 0 run
      let rest := digits.dropWhile Reading.isDigit
      if twoTo 31 ≤ magnitude then
        if significand ≠ 0 && !below then .error .syntaxError
        else .ok (.number (Binary64.ofSignAndMagnitude negative 0), rest)
      else
        let shift : Int := if below then -magnitude else magnitude
        (scaled negative significand (exponent + shift)).map fun value => (.number value, rest)

/-- What may follow the digits of a number that is not whole. -/
def afterDigits (negative : Bool) (significand : Nat) (exponent : Int) (text : List Char) :
    Parsed Json :=
  match text with
  | 'e' :: rest | 'E' :: rest => withExponent negative significand exponent rest
  | rest => (scaled negative significand exponent).map fun value => (.number value, rest)

/-- The digits after a point, of which there is at least one. -/
def withFraction (negative : Bool) (significand : Nat) (exponent : Int) (text : List Char) :
    Parsed Json :=
  let (joined, taken, rest) := gather significand 0 text
  let afterRun := rest.dropWhile Reading.isDigit
  if taken = 0 && (rest.takeWhile Reading.isDigit).isEmpty then unexpected rest
  else afterDigits negative joined (exponent - taken) afterRun

/-- A whole number that needs no rounding, or its nearest number: a negative zero, or one below the
64-bit range. -/
def whole (negative : Bool) (significand : Nat) : Json :=
  if !negative then .integer significand
  else if significand = 0 || twoTo 63 < significand then
    .number (Binary64.ofInt significand).neg
  else .integer (-significand)

/-- A number without its minus sign. -/
def parseUnsigned (negative : Bool) (text : List Char) : Parsed Json :=
  let continued (significand dropped : Nat) (rest : List Char) : Parsed Json :=
    match rest with
    | '.' :: places => withFraction negative significand dropped places
    | 'e' :: places | 'E' :: places => withExponent negative significand dropped places
    | _ =>
        if dropped = 0 then .ok (whole negative significand, rest)
        else (scaled negative significand dropped).map fun value => (.number value, rest)
  match text with
  | '0' :: rest =>
      match rest with
      | next :: _ => if Reading.isDigit next then .error .syntaxError else continued 0 0 rest
      | [] => continued 0 0 rest
  | first :: _ =>
      if Reading.isDigit first then
        let (significand, _, rest) := gather 0 0 text
        let afterRun := rest.dropWhile Reading.isDigit
        continued significand (rest.takeWhile Reading.isDigit).length afterRun
      else .error .syntaxError
  | [] => .error .endOfText

end Json

end ScriptMachine
