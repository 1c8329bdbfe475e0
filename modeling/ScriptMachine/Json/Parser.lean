import ScriptMachine.Json.Number

/-!
# Reading trees

The reader takes a text and a limit on nesting. It fails in two ways only: the text ends too early,
or it goes on in a way that no tree does; a value nested deeper than the limit is of the second
kind. What follows a whole tree is the caller's business, so that a caller may inspect the tree
first.

A value takes at least one character, and so do the items or members around it, so twice the length
of the text bounds the recursion. What is left of the bound then exceeds what is left of the text,
and so it bounds the characters of a string as well.
-/

namespace ScriptMachine

namespace Json

/-- Blank characters between the parts of a tree. -/
def isSpace (character : Char) : Bool :=
  character == ' ' || character == '\n' || character == '\t' || character == '\r'

def skipSpace (text : List Char) : List Char := text.dropWhile isSpace

/-- Takes a fixed word; the text must not end inside it. -/
def keyword (result : Json) : List Char → List Char → Parsed Json
  | [], rest => .ok (result, rest)
  | expected :: word, character :: rest =>
      if expected = character then keyword result word rest else .error .syntaxError
  | _, [] => .error .endOfText

/-- The bytes that a text takes in its encoded form. -/
def byteLength (text : List Char) : Nat :=
  text.foldl (fun length character => length + character.utf8Size) 0

/-- Four hexadecimal digits. A text with fewer than four bytes left has ended. -/
def hexEscape (text : List Char) : Parsed Nat :=
  if byteLength (text.take 4) < 4 then .error .endOfText
  else
    match text with
    | first :: second :: third :: fourth :: rest =>
        match [first, second, third, fourth].mapM Reading.hexDigit? with
        | some digits => .ok (digits.foldl (fun code digit => code * 16 + digit) 0, rest)
        | none => .error .syntaxError
    | _ => .error .syntaxError

/-- The second half of a surrogate pair, with its own escape. -/
def trailingSurrogate (leading : Nat) (text : List Char) : Parsed Char :=
  match text with
  | '\\' :: 'u' :: rest =>
      match hexEscape rest with
      | .error error => .error error
      | .ok (trailing, rest) =>
          if 0xDC00 ≤ trailing ∧ trailing ≤ 0xDFFF then
            .ok (Char.ofNat (0x10000 + (leading - 0xD800) * 0x400 + (trailing - 0xDC00)), rest)
          else .error .syntaxError
  | ['\\'] => .error .endOfText
  | rest => unexpected rest

/-- The character that an escape stands for, given what follows the backslash. -/
def escape (text : List Char) : Parsed Char :=
  match text with
  | '"' :: rest => .ok ('"', rest)
  | '\\' :: rest => .ok ('\\', rest)
  | '/' :: rest => .ok ('/', rest)
  | 'b' :: rest => .ok ('\x08', rest)
  | 'f' :: rest => .ok ('\x0c', rest)
  | 'n' :: rest => .ok ('\n', rest)
  | 'r' :: rest => .ok ('\r', rest)
  | 't' :: rest => .ok ('\t', rest)
  | 'u' :: rest =>
      match hexEscape rest with
      | .error error => .error error
      | .ok (code, rest) =>
          if 0xDC00 ≤ code ∧ code ≤ 0xDFFF then .error .syntaxError
          else if 0xD800 ≤ code ∧ code ≤ 0xDBFF then trailingSurrogate code rest
          else .ok (Char.ofNat code, rest)
  | rest => unexpected rest

/-- The rest of a string after its opening mark; `read` holds the characters so far, last first. -/
def stringBody : Nat → List Char → List Char → Parsed String
  | 0, _, text => unexpected text
  | _ + 1, _, [] => .error .endOfText
  | bound + 1, read, character :: rest =>
      if character = '"' then .ok (String.ofList read.reverse, rest)
      else if character = '\\' then
        match escape rest with
        | .ok (escaped, rest) => stringBody bound (escaped :: read) rest
        | .error error => .error error
      else if character < ' ' then .error .syntaxError
      else stringBody bound (character :: read) rest

/-- A string after its opening mark. -/
def parseString (bound : Nat) (text : List Char) : Parsed String := stringBody bound [] text

mutual

/-- One value at the start of a text; `levels` more levels of nesting are allowed. -/
def parseValue : Nat → Nat → List Char → Parsed Json
  | 0, _, text => unexpected text
  | bound + 1, levels, text =>
      match skipSpace text with
      | [] => .error .endOfText
      | 'n' :: rest => keyword .null "ull".toList rest
      | 't' :: rest => keyword (.bool true) "rue".toList rest
      | 'f' :: rest => keyword (.bool false) "alse".toList rest
      | '-' :: rest => parseUnsigned true rest
      | '"' :: rest => (parseString bound rest).map fun (text, rest) => (.string text, rest)
      | '[' :: rest =>
          match levels with
          | 0 => .error .syntaxError
          | levels + 1 =>
              match skipSpace rest with
              | ']' :: rest => .ok (.array [], rest)
              | [] => .error .endOfText
              | rest =>
                  (parseItems bound levels rest).map fun (items, rest) => (.array items, rest)
      | '\x7b' :: rest =>
          match levels with
          | 0 => .error .syntaxError
          | levels + 1 =>
              match skipSpace rest with
              | '\x7d' :: rest => .ok (.object [], rest)
              | [] => .error .endOfText
              | rest =>
                  (parseMembers bound levels rest).map fun (members, rest) =>
                    (.object members, rest)
      | text => parseUnsigned false text

/-- The items of an array that has at least one more, up to its closing bracket. -/
def parseItems : Nat → Nat → List Char → Parsed (List Json)
  | 0, _, text => unexpected text
  | bound + 1, levels, text =>
      match parseValue bound levels text with
      | .error error => .error error
      | .ok (item, rest) =>
          match skipSpace rest with
          | ']' :: rest => .ok ([item], rest)
          | ',' :: rest =>
              match skipSpace rest with
              | ']' :: _ => .error .syntaxError
              | rest =>
                  (parseItems bound levels rest).map fun (items, rest) => (item :: items, rest)
          | rest => unexpected rest

/-- The members of an object that has at least one more, up to its closing brace. -/
def parseMembers : Nat → Nat → List Char → Parsed (List (String × Json))
  | 0, _, text => unexpected text
  | bound + 1, levels, text =>
      match skipSpace text with
      | '"' :: rest =>
          match parseString bound rest with
          | .error error => .error error
          | .ok (name, rest) =>
              match skipSpace rest with
              | ':' :: rest =>
                  match parseValue bound levels rest with
                  | .error error => .error error
                  | .ok (value, rest) =>
                      match skipSpace rest with
                      | '\x7d' :: rest => .ok ([(name, value)], rest)
                      | ',' :: rest =>
                          match skipSpace rest with
                          | '\x7d' :: _ => .error .syntaxError
                          | rest =>
                              (parseMembers bound levels rest).map fun (members, rest) =>
                                ((name, value) :: members, rest)
                      | rest => unexpected rest
              | rest => unexpected rest
      | rest => unexpected rest

end

/-- One tree at the start of a text, nested to at most `levels` levels, and what follows it. -/
def parse (levels : Nat) (text : String) : Parsed Json :=
  let characters := text.toList
  parseValue (2 * characters.length + 2) levels characters

/-- The tree that a whole text holds, with no limit on nesting. -/
def ofText? (text : String) : Option Json :=
  match parse text.length text with
  | .ok (tree, rest) => if (skipSpace rest).isEmpty then some tree else none
  | .error _ => none

end Json

end ScriptMachine
