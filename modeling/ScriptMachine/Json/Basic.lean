import ScriptMachine.Number.Layout

/-!
# Trees of the interchange format

A tree keeps what the text said: a number is whole or not, and the members of an object stand in the
order of the text, repeated names included. Whether a repeated name is acceptable is for the reader
of the tree to decide.
-/

namespace ScriptMachine

/-- A tree of the interchange format. -/
inductive Json where
  | null
  | bool (value : Bool)
  /-- A number written without fraction or exponent that fits 64 bits. -/
  | integer (value : Int)
  /-- Any other number. -/
  | number (value : Binary64)
  | string (text : String)
  | array (items : List Json)
  | object (members : List (String × Json))
deriving Inhabited

namespace Json

mutual

/-- The number of levels of a tree. -/
def height : Json → Nat
  | .array items => heightOfItems items + 1
  | .object members => heightOfMembers members + 1
  | _ => 1

/-- The greatest height in a list of trees. -/
def heightOfItems : List Json → Nat
  | [] => 0
  | item :: rest => max item.height (heightOfItems rest)

/-- The greatest height in a list of members. -/
def heightOfMembers : List (String × Json) → Nat
  | [] => 0
  | (_, value) :: rest => max value.height (heightOfMembers rest)

end

/-- The first member of an object with the given name. -/
def member? (tree : Json) (name : String) : Option Json :=
  match tree with
  | .object members => (members.find? fun entry => entry.1 = name).map Prod.snd
  | _ => none

/-- A character as it stands in a string of the format. -/
def escapedChar (character : Char) : List Char :=
  match character with
  | '"' => ['\\', '"']
  | '\\' => ['\\', '\\']
  | '\n' => ['\\', 'n']
  | '\r' => ['\\', 'r']
  | '\t' => ['\\', 't']
  | '\x08' => ['\\', 'b']
  | '\x0c' => ['\\', 'f']
  | _ =>
      if character < ' ' then
        let digits := Nat.toDigits 16 character.toNat
        ['\\', 'u'] ++ List.replicate (4 - digits.length) '0' ++ digits
      else [character]

/-- A string of the format. -/
def stringText (text : String) : String :=
  String.ofList ('"' :: text.toList.flatMap escapedChar ++ ['"'])

mutual

/-- The text of a tree, without blanks. -/
def render : Json → String
  | .null => "null"
  | .bool value => if value then "true" else "false"
  | .integer value => toString value
  | .number value => if value.isFinite then Layout.tree.number value else "null"
  | .string text => stringText text
  | .array items => "[" ++ renderItems items ++ "]"
  | .object members => "\x7b" ++ renderMembers members ++ "\x7d"

/-- The texts of items, with commas between them. -/
def renderItems : List Json → String
  | [] => ""
  | [item] => item.render
  | item :: rest => item.render ++ "," ++ renderItems rest

/-- The texts of members, with commas between them. -/
def renderMembers : List (String × Json) → String
  | [] => ""
  | [(name, value)] => stringText name ++ ":" ++ value.render
  | (name, value) :: rest => stringText name ++ ":" ++ value.render ++ "," ++ renderMembers rest

end

end Json

end ScriptMachine
