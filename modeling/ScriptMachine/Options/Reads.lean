import ScriptMachine.Number.Reading

/-!
# Reading parts of a document

A reader takes characters off the front of a text or fails. Here are the readers of what stands
between the values of an options document, and of digits.
-/

namespace ScriptMachine

/-- A reader of a part of a document: it fails, or takes characters off the front of the text. -/
abbrev Reads := StateT (List Char) Option

namespace Reads

/-- A character that separates within a line. -/
def isSeparator (character : Char) : Bool := character == ' ' || character == '\t'

def skipSeparators : Reads Unit := modify (List.dropWhile isSeparator)

/-- A character that may stand in a comment or between quotes: a tab or no control character. -/
def isPlain (character : Char) : Bool :=
  character == '\t' || (0x20 ≤ character.toNat && character.toNat ≠ 0x7F)

/-- A comment goes to the end of its line. -/
def skipComment : Reads Unit :=
  modify fun text =>
    match text with
    | '#' :: rest => rest.dropWhile isPlain
    | _ => text

/-- Takes one expected character. -/
def expect (expected : Char) : Reads Unit := do
  match ← get with
  | character :: rest => if character = expected then set rest else failure
  | [] => failure

/-- Takes one of the given characters if it is next. -/
def take? (wanted : List Char) : Reads (Option Char) := do
  match ← get with
  | character :: rest =>
      if wanted.contains character then do
        set rest
        return some character
      else return none
  | [] => return none

/-- Takes a given word if it is next. -/
def takeWord (word : String) : Reads Bool := do
  let text ← get
  if word.toList.isPrefixOf text then do
    set (text.drop word.length)
    return true
  else return false

/-- What follows a line end, if the text starts with one. -/
def afterLineEnd? : List Char → Option (List Char)
  | '\n' :: rest => some rest
  | '\r' :: '\n' :: rest => some rest
  | _ => none

/-- The end of a line, or of the text, behind separators and a comment. -/
def lineEnd : Reads Unit := do
  skipSeparators
  skipComment
  let text ← get
  match afterLineEnd? text with
  | some rest => set rest
  | none => if text.isEmpty then return else failure

/-- Separators, comments and line ends, as they may stand between the items of a list. -/
def skipLines : Nat → Reads Unit
  | 0 => return
  | bound + 1 => do
      skipSeparators
      match ← get with
      | '#' :: _ | '\n' :: _ | '\r' :: _ => do
          lineEnd
          skipLines bound
      | _ => return

/-- The value of a digit in a base. -/
def digitIn? (base : Nat) (character : Char) : Option Nat :=
  (Reading.hexDigit? character).filter fun value => value < base

/-- The number that digits make in a base. -/
def numberOf (base : Nat) (digits : List Nat) : Nat :=
  digits.foldl (fun value digit => value * base + digit) 0

/-- The digits at the front of a text; a single underscore may stand between two. -/
def leadingDigits (base : Nat) : List Char → Option (List Nat × List Char)
  | '_' :: character :: rest =>
      match digitIn? base character with
      | none => none
      | some digit => (leadingDigits base rest).map fun (digits, rest) => (digit :: digits, rest)
  | character :: rest =>
      match digitIn? base character with
      | none => some ([], character :: rest)
      | some digit => (leadingDigits base rest).map fun (digits, rest) => (digit :: digits, rest)
  | [] => some ([], [])

/-- A run of digits, of which there is at least one. -/
def digits (base : Nat) : Reads (List Nat) := do
  match ← get with
  | [] => failure
  | first :: _ =>
      if (digitIn? base first).isNone then failure
      match leadingDigits base (← get) with
      | none => failure
      | some (digits, rest) => do
          set rest
          return digits

/-- A number of exactly so many digits. -/
def fixedDigits (base count : Nat) : Reads Nat := do
  let text ← get
  match (text.take count).mapM (digitIn? base) with
  | none => failure
  | some digits =>
      if digits.length = count then do
        set (text.drop count)
        return numberOf base digits
      else failure

end Reads

end ScriptMachine
