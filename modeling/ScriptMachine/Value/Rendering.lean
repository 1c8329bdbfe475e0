import ScriptMachine.Value.Basic

/-!
# The text of values

Values have a plain text, for output, and an exact one, for inspection. Either is written piece by
piece to an outlet. The outlet may refuse a piece, and then nothing more is written.

An array may hold itself, directly or through others. The arrays whose text is being written are
noted, the innermost first, and one that is met again inside its own text is shown as `[...]`. An
array is taken off the notes when its text ends, also where the outlet refused it.
-/

namespace ScriptMachine

/-- What an array shows for itself inside its own text. -/
def nestedMark : String := "[...]"

/-- One of the two texts of a value. -/
inductive TextForm where
  | plain
  | exact
deriving DecidableEq, Inhabited

/-- The text of a value that is not looked into. -/
def Value.surface (store : Store) : TextForm → Value → String
  | .plain, .unit => "unit"
  | .exact, .unit => "Unit"
  | .plain, .bool value => if value then "true" else "false"
  | .exact, .bool value => if value then "Bool(true)" else "Bool(false)"
  | .plain, .int value => toString value.toInt
  | .exact, .int value => "Int(" ++ toString value.toInt ++ ")"
  | .plain, .float value => Layout.plain.number value
  | .exact, .float value => "Float(" ++ Layout.exact.number value ++ ")"
  | .plain, .str text => text
  | .exact, .str text => "Str(" ++ Text.quoted text ++ ")"
  | _, .array _ => nestedMark
  | .plain, .closure id => "<action " ++ (store.closure id).function.render ++ ">"
  | .exact, .closure id => "Closure(" ++ (store.closure id).function.render ++ ")"
  | .plain, .iterator _ => "<iterator>"
  | .exact, .iterator _ => "Iterator"
  | .plain, .object id => "<" ++ (store.object id).typeName ++ ">"
  | .exact, .object id => "Object(" ++ (store.object id).typeName ++ ")"
  | .plain, .useDefault => "<default>"
  | .exact, .useDefault => "UseDefault"

/-- Where text goes. It takes a piece or refuses it. -/
abbrev Outlet (σ : Type) := String → σ → Bool × σ

/-- Text put together in memory, where every piece finds room. -/
def Outlet.memory : Outlet String := fun piece text => (true, text ++ piece)

/-- What formatters share: the arrays whose text is being written, and the outlet as it stands. -/
structure Formatting (σ : Type) where
  active : List ArrayId
  outlet : σ

inductive Interruption where
  /-- The outlet did not take a piece. -/
  | refused
  /-- Arrays are nested deeper than the bound allows. -/
  | tooDeep
deriving DecidableEq, Inhabited

abbrev Formatter (σ : Type) := ExceptT Interruption (StateM (Formatting σ))

namespace Formatter

variable {σ : Type} (takes : Outlet σ)

def write (piece : String) : Formatter σ Unit := do
  let taken ← modifyGet fun formatting =>
    let (taken, outlet) := takes piece formatting.outlet
    (taken, { formatting with outlet := outlet })
  unless taken do throw .refused

/-- Writes what belongs to the text of an array, or the mark if that text is being written
already. -/
def within (id : ArrayId) (body : Formatter σ Unit) : Formatter σ Unit := do
  if (← get).active.contains id then write takes nestedMark
  else
    modify fun formatting => { formatting with active := id :: formatting.active }
    try body
    finally modify fun formatting => { formatting with active := formatting.active.tail }

/-- Writes items with commas between them. -/
def separated : List (Formatter σ Unit) → Formatter σ Unit
  | [] => pure ()
  | first :: rest => do
      first
      rest.forM fun item => do
        write takes ", "
        item

def bracketed (items : List (Formatter σ Unit)) : Formatter σ Unit := do
  write takes "["
  separated takes items
  write takes "]"

end Formatter

namespace Value

/-- Writes a text of a value, entering arrays as deep as the bound allows. Since no array is entered
inside itself, a bound larger than the number of arrays in the store is never reached. -/
def format {σ : Type} (takes : Outlet σ) (store : Store) (form : TextForm) :
    Nat → Value → Formatter σ Unit
  | 0, .array id => Formatter.within takes id (throw .tooDeep)
  | bound + 1, .array id =>
      Formatter.within takes id <| Formatter.bracketed takes <|
        (store.array id).toList.map (format takes store form bound)
  | _, value => Formatter.write takes (value.surface store form)

/-- A text of a value, put together in memory. -/
def text (store : Store) (form : TextForm) (value : Value) : String :=
  let formatting : Formatting String := ⟨[], ""⟩
  (value.format .memory store form (store.arrays.size + 1) formatting).2.outlet

/-- The plain text of a value. -/
def display (store : Store) (value : Value) : String := value.text store .plain

/-- The exact text of a value. -/
def inspect (store : Store) (value : Value) : String := value.text store .exact

end Value

/-- The exact text of a host object. -/
def HostObject.inspect (object : HostObject) (store : Store) : String :=
  let fields := object.fields.map fun field =>
    Text.quoted field.1 ++ ": " ++ field.2.inspect store
  "HostObject \x7b type_name: " ++ Text.quoted object.typeName ++ ", fields: \x7b" ++
    ", ".intercalate fields ++ "\x7d \x7d"

end ScriptMachine
