import ScriptMachine.Engine.Lifecycle
import ScriptMachine.Options.Document
import ScriptMachine.Text.Character

/-!
# Reading options

A document holds one section, `runtime`, with the settings `stack_capacity` and `trace`. The section
is a header with lines behind it, a table, lines with dotted keys, or a list of the two settings in
their order; what is said twice, or is not known, makes the document invalid.
-/

namespace ScriptMachine

/-- Why a text holds no options. -/
inductive OptionsError where
  | invalid
  | zeroStackCapacity
deriving DecidableEq, Repr

def OptionsError.message : OptionsError → String
  | .invalid => "invalid configuration"
  | .zeroStackCapacity => "stack capacity must be greater than zero"

/-- What a document says about each setting. -/
structure GivenOptions where
  stackCapacity : Option Nat
  trace : Option Bool
deriving DecidableEq

namespace GivenOptions

def nothing : GivenOptions := ⟨none, none⟩

def capacity? : Setting → Option Nat
  | .integer value => if 0 ≤ value then some value.toNat else none
  | _ => none

def flag? : Setting → Option Bool
  | .boolean value => some value
  | _ => none

/-- Adds one setting that was not given yet. -/
def add? (given : GivenOptions) (name : String) (setting : Setting) : Option GivenOptions :=
  if name = "stack_capacity" ∧ given.stackCapacity.isNone then
    (capacity? setting).map fun capacity => { given with stackCapacity := some capacity }
  else if name = "trace" ∧ given.trace.isNone then
    (flag? setting).map fun flag => { given with trace := some flag }
  else none

/-- The settings of the members of a section. -/
def ofMembers? (members : List (List String × Setting)) : Option GivenOptions :=
  members.foldlM (fun given member =>
    match member.1 with
    | [name] => given.add? name member.2
    | _ => none) nothing

/-- The settings in their order; more than two items do no harm. -/
def ofItems? : List Setting → Option GivenOptions
  | capacity :: trace :: _ => do
      let capacity ← capacity? capacity
      let trace ← flag? trace
      return ⟨some capacity, some trace⟩
  | _ => none

/-- The key and the value of a line that is no header. -/
def assignment? : SettingLine → Option (List String × Setting)
  | .assignment path value => some (path, value)
  | .header _ => none

/-- A member of the section under a dotted key. -/
def dotted? : SettingLine → Option (List String × Setting)
  | .assignment ("runtime" :: path) value => some (path, value)
  | _ => none

/-- The settings of a whole document. -/
def ofLines? : List SettingLine → Option GivenOptions
  | [.assignment ["runtime"] (.table members)] => ofMembers? members
  | [.assignment ["runtime"] (.list items)] => ofItems? items
  | .header ["runtime"] :: rest => (rest.mapM assignment?).bind ofMembers?
  | lines => (lines.mapM dotted?).bind ofMembers?

end GivenOptions

/-- The options that a document holds; what it does not say is as usual. -/
def RunOptions.ofText (text : String) : Except OptionsError RunOptions :=
  match (SettingLine.listOfText? text).bind GivenOptions.ofLines? with
  | none => .error .invalid
  | some given =>
      if given.stackCapacity = some 0 then .error .zeroStackCapacity
      else
        .ok ⟨given.stackCapacity.getD RunOptions.standard.stackCapacity,
          given.trace.getD RunOptions.standard.trace⟩

/-- Whether the text of a switch turns it on; blanks around it and the case of letters do not
matter. -/
def isSwitchedOn (text : String) : Bool :=
  let word := String.ofList ((Text.trimBlanks text.toList).map Char.toLower)
  ["1", "true", "yes", "on"].contains word

end ScriptMachine
