import ScriptMachine.Text.Character

/-!
# Text for readers

Listings show a text between quotation marks, with short escapes for the common control characters,
and code points in braces for every other character that cannot stand for itself.

Some control characters make a terminal do something: ring, step back, start a command. Lines that
are meant for a terminal show these by their codes, and leave all other characters as they are.
-/

namespace ScriptMachine

namespace Text

/-! ## Between quotation marks -/

/-- The lower-case hexadecimal digits of a number. -/
def hexDigits (value : Nat) : List Char := Nat.toDigits 16 value

/-- The hexadecimal digit of a number below sixteen. -/
def hexDigit (value : Nat) : Char := (hexDigits value).headD '0'

/-- A character as it stands between quotation marks. -/
def quotedChar (character : Char) : List Char :=
  match character with
  | '\x00' => ['\\', '0']
  | '\t' => ['\\', 't']
  | '\r' => ['\\', 'r']
  | '\n' => ['\\', 'n']
  | '\\' => ['\\', '\\']
  | '"' => ['\\', '"']
  | _ =>
      if ' ' ≤ character ∧ character ≤ '~' then [character]
      else if isEscaped character then
        ['\\', 'u', '\x7b'] ++ hexDigits character.toNat ++ ['\x7d']
      else [character]

/-- A text between quotation marks. -/
def quoted (text : String) : String :=
  String.ofList ('"' :: text.toList.flatMap quotedChar ++ ['"'])

/-- A number with leading zeros up to four digits. -/
def fourDigits (value : Nat) : String :=
  let digits := Nat.toDigits 10 value
  String.ofList (List.replicate (4 - digits.length) '0' ++ digits)

/-! ## On a terminal -/

/-- The control characters of the first block that a terminal acts on in a harmful way, the one at
its end included. -/
def terminalCommands : List Char := ['\x07', '\x08', '\x0c', '\x1b', '\x7f']

/-- A character as it is shown on a terminal. -/
def shownChar (character : Char) : List Char :=
  if terminalCommands.contains character then
    ['\\', 'x', hexDigit (character.toNat / 16), hexDigit (character.toNat % 16)]
  else if 0x80 ≤ character.toNat ∧ character.toNat ≤ 0x9F then
    ['\\', 'u', '\x7b'] ++ hexDigits character.toNat ++ ['\x7d']
  else [character]

/-- A text as it is shown on a terminal. -/
def shown (text : String) : String := String.ofList (text.toList.flatMap shownChar)

end Text

end ScriptMachine
