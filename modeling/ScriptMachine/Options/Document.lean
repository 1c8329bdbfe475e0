import ScriptMachine.Options.Moment
import ScriptMachine.Options.Quoted

/-!
# Options documents

Options are written line by line: `key = value`, or a header `[key]` in front of the lines that
belong to it. A key is a name or several names with points between them; a name is bare, or in
quotes. A `#` starts a comment, which goes to the end of its line.

The first character of a value tells its kind, except that numbers, days and times all start with
digits. Lists and tables hold further values, down to a fixed number of levels.
-/

namespace ScriptMachine

namespace Reads

/-- A decimal number without a sign. Only zero itself starts with a zero. -/
def decimal : Reads Nat := do
  if (← take? ['0']).isSome then return 0
  return numberOf 10 (← digits 10)

/-- The digits behind a point, if there is one. -/
def places? : Reads (Option (List Nat)) := do
  if (← take? ['.']).isSome then return some (← digits 10) else return none

/-- The power of ten behind its mark, if there is one. -/
def exponent? : Reads (Option Int) := do
  if (← take? ['e', 'E']).isNone then return none
  let sign ← take? ['+', '-']
  let magnitude : Int := numberOf 10 (← digits 10)
  return some (if sign = some '-' then -magnitude else magnitude)

/-- A whole number, which has to fit 64 bits. -/
def integer (number : Int) : Reads Setting :=
  if fitsInt64 number then return .integer number else failure

/-- A number with a fraction or an exponent. It is rounded, and the positive ones must not be
rounded to infinity. -/
def rounded (negative : Bool) (whole : Nat) (places : List Nat) (exponent : Int) : Reads Setting :=
  let digits := places.foldl (fun value digit => value * 10 + digit) whole
  let number := Binary64.ofDecimal negative digits (exponent - places.length)
  if number = .infinity false then failure else return .real number

/-- What follows the sign of a number, which may be missing. -/
def unsigned (negative : Bool) : Reads Setting := do
  if ← takeWord "inf" then return .real (.infinity negative)
  if ← takeWord "nan" then return .real (.ofSignAndMagnitude negative Binary64.nan.word)
  let whole ← decimal
  let places ← places?
  let exponent ← exponent?
  if places.isNone && exponent.isNone then integer (if negative then Int.negOfNat whole else whole)
  else rounded negative whole (places.getD []) (exponent.getD 0)

/-- A number. A base other than ten is told by what stands in front, without a sign. -/
def number : Reads Setting := do
  if ← takeWord "0x" then integer (numberOf 16 (← digits 16))
  else if ← takeWord "0o" then integer (numberOf 8 (← digits 8))
  else if ← takeWord "0b" then integer (numberOf 2 (← digits 2))
  else do
    let sign ← take? ['+', '-']
    unsigned (sign = some '-')

/-- A value that holds no further values. -/
def single : Reads Setting := do
  let text ← get
  match text with
  | '"' :: _ => return .text (← quotedText '"')
  | '\x27' :: _ => return .text (← quotedText '\x27')
  | 't' :: _ => if ← takeWord "true" then return .boolean true else failure
  | 'f' :: _ => if ← takeWord "false" then return .boolean false else failure
  | _ =>
      if startsWithDay text || startsWithTime text then return .moment (← moment) else number

/-- The items of a list and the bracket behind them. A comma may follow the last item. -/
def items (item : Reads Setting) : Nat → Reads (List Setting)
  | 0 => failure
  | bound + 1 => do
      skipLines (← get).length
      if (← take? [']']).isSome then return []
      let first ← item
      skipLines (← get).length
      match ← take? [']', ','] with
      | some ']' => return [first]
      | some _ => return first :: (← items item bound)
      | none => failure

/-- The members of a table, at least one, and the brace behind them. -/
def members (content : Reads Setting) : Nat → Reads (List (List String × Setting))
  | 0 => failure
  | bound + 1 => do
      let path ← key
      expect '='
      skipSeparators
      let value ← content
      skipSeparators
      match ← take? ['\x7d', ','] with
      | some '\x7d' => return [(path, value)]
      | some _ => return (path, value) :: (← members content bound)
      | none => failure

/-- A list from behind its opening bracket. -/
def list (item : Reads Setting) : Reads Setting := do
  return .list (← items item ((← get).length + 1))

/-- A table from behind its opening brace. -/
def table (content : Reads Setting) : Reads Setting := do
  skipSeparators
  if (← take? ['\x7d']).isSome then return .table []
  Setting.table? (← members content ((← get).length + 1))

/-- A value with lists and tables nested to at most the given number of levels. -/
def value : Nat → Reads Setting
  | 0 => single
  | levels + 1 => do
      match ← take? ['[', '\x7b'] with
      | some '[' => list (value levels)
      | some _ => table (value levels)
      | none => single

/-- How deep lists and tables may be nested. -/
def levelsLimit : Nat := 79

/-- The lines of a document that say something. -/
def lines : Nat → Reads (List SettingLine)
  | 0 => failure
  | bound + 1 => do
      skipSeparators
      match ← get with
      | [] => return []
      | '#' :: _ | '\n' :: _ | '\r' :: _ => do
          lineEnd
          lines bound
      | '[' :: rest => do
          set rest
          let path ← key
          expect ']'
          lineEnd
          return .header path :: (← lines bound)
      | _ => do
          let path ← key
          expect '='
          skipSeparators
          let content ← value levelsLimit
          lineEnd
          return .assignment path content :: (← lines bound)

end Reads

/-- The lines of a document, if it is well formed. A byte order mark may stand in front. -/
def SettingLine.listOfText? (text : String) : Option (List SettingLine) :=
  let characters :=
    match text.toList with
    | '\uFEFF' :: rest => rest
    | all => all
  ((Reads.lines (characters.length + 1)).run characters).map Prod.fst

end ScriptMachine
