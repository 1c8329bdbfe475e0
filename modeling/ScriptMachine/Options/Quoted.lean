import ScriptMachine.Options.Reads

/-!
# Quoted texts

A text stands between quotes on one line, or between threefold quotes on several lines. Between
double quotes a backslash starts an escape; between single quotes every character stands for itself.
-/

namespace ScriptMachine

namespace Reads

/-- The character with a code of so many hexadecimal digits. -/
def codeCharacter (count : Nat) : Reads Char := do
  let code ← fixedDigits 16 count
  if code.isValidChar then return Char.ofNat code else failure

/-- The character that an escape stands for. -/
def escaped : Reads Char := do
  match ← get with
  | [] => failure
  | mark :: rest => do
      set rest
      match mark with
      | 'b' => return '\x08'
      | 't' => return '\t'
      | 'n' => return '\n'
      | 'f' => return '\x0c'
      | 'r' => return '\r'
      | '"' => return '"'
      | '\\' => return '\\'
      | 'u' => codeCharacter 4
      | 'U' => codeCharacter 8
      | _ => failure

/-- One character of a quoted text, written as itself or as an escape. -/
def quotedCharacter (quote : Char) : Reads Char := do
  match ← get with
  | [] => failure
  | character :: rest => do
      set rest
      if character = '\\' ∧ quote = '"' then escaped
      else if isPlain character then return character
      else failure

/-- The characters up to a closing quote. -/
def lineRest (quote : Char) : Nat → Reads (List Char)
  | 0 => failure
  | bound + 1 => do
      if (← take? [quote]).isSome then return []
      let character ← quotedCharacter quote
      return character :: (← lineRest quote bound)

/-- A text on one line, from its opening quote on. -/
def lineText (quote : Char) : Reads String := do
  expect quote
  return .ofList (← lineRest quote ((← get).length + 1))

/-- Drops separators and line ends. -/
def dropSpace : List Char → List Char
  | '\r' :: '\n' :: rest => dropSpace rest
  | character :: rest =>
      if isSeparator character || character == '\n' then dropSpace rest else character :: rest
  | [] => []

/-- What follows a backslash at the end of a line, which joins the line with the next text. -/
def afterJoint? : List Char → Option (List Char)
  | '\\' :: rest => (afterLineEnd? (rest.dropWhile isSeparator)).map dropSpace
  | _ => none

/-- The characters up to three closing quotes. One or two more may stand in front of those and
belong to the text. -/
def blockRest (quote : Char) : Nat → Reads (List Char)
  | 0 => failure
  | bound + 1 => do
      let text ← get
      let quotes := min 5 (text.takeWhile (· = quote)).length
      if 3 ≤ quotes then do
        set (text.drop quotes)
        return List.replicate (quotes - 3) quote
      match afterLineEnd? text, (afterJoint? text).filter fun _ => quote = '"' with
      | some rest, _ => do
          set rest
          return '\n' :: (← blockRest quote bound)
      | none, some rest => do
          set rest
          blockRest quote bound
      | none, none => do
          let character ← quotedCharacter quote
          return character :: (← blockRest quote bound)

/-- A text on several lines, behind its opening quotes. A line end right there is not part of it. -/
def blockText (quote : Char) : Reads String := do
  modify fun text => (afterLineEnd? text).getD text
  return .ofList (← blockRest quote ((← get).length + 1))

/-- A text in either form, from its first quote on. -/
def quotedText (quote : Char) : Reads String := do
  if ← takeWord (.ofList [quote, quote, quote]) then blockText quote else lineText quote

/-- A character of a name without quotes. -/
def isBareCharacter (character : Char) : Bool :=
  character.isAlphanum || character == '_' || character == '-'

/-- One name of a key. -/
def name : Reads String := do
  let text ← get
  match text with
  | '"' :: _ => lineText '"'
  | '\x27' :: _ => lineText '\x27'
  | _ => do
      let bare := text.takeWhile isBareCharacter
      if bare.isEmpty then failure
      set (text.dropWhile isBareCharacter)
      return .ofList bare

/-- The names of a key, with separators around them; a point stands between two. -/
def names : Nat → Reads (List String)
  | 0 => failure
  | bound + 1 => do
      skipSeparators
      let first ← name
      skipSeparators
      if (← take? ['.']).isSome then return first :: (← names bound) else return [first]

/-- How many names a key may have. -/
def namesLimit : Nat := 79

def key : Reads (List String) := names namesLimit

end Reads

end ScriptMachine
