import ScriptMachine.Source.Reader

/-!
# Lenient views of trees

Where a tree is known to have a certain shape, these views read it without failing: what is not
there counts as null, and what is of another kind as the empty value of the kind asked for.
-/

namespace ScriptMachine

namespace Json

/-- The member of a name. -/
def get (tree : Json) (name : String) : Json := (tree.member? name).getD .null

def asText (tree : Json) : String := tree.text?.getD ""

def text (tree : Json) (name : String) : String := (tree.get name).asText

def asInt : Json → Int
  | .integer value => value
  | _ => 0

def asNat (tree : Json) : Nat := tree.asInt.toNat

def nat (tree : Json) (name : String) : Nat := (tree.get name).asNat

/-- The number of a name, or another one if it is not there. -/
def natOr (tree : Json) (name : String) (otherwise : Nat) : Nat :=
  if (tree.member? name).isSome then tree.nat name else otherwise

def asFlag : Json → Bool
  | .bool value => value
  | _ => false

def flag (tree : Json) (name : String) : Bool := (tree.get name).asFlag

def asItems (tree : Json) : List Json := tree.items?.getD []

def items (tree : Json) (name : String) : List Json := (tree.get name).asItems

/-- The item at a place. -/
def item (tree : Json) (place : Nat) : Json := tree.asItems[place]?.getD .null

def asTexts (tree : Json) : List String := tree.asItems.map asText

def texts (tree : Json) (name : String) : List String := (tree.get name).asTexts

/-- The members of the object of a name. -/
def members (tree : Json) (name : String) : List (String × Json) :=
  match tree.get name with
  | .object values => values
  | _ => []

end Json

end ScriptMachine
