import ScriptMachine.Value.Iterator

/-!
# Host functions

A host function has a name, declared parameter types and a body. A body is a deterministic
transformer of the store: it sees the prepared call and the store, and gives a value or a failure
together with the store that it leaves behind. Optional parameters come last.
-/

namespace ScriptMachine

/-- The arguments of a host function once an overload is chosen. -/
structure HostCall where
  args : List Value
  /-- The types that the generic names of the function stand for in this call. -/
  typeArgs : Dictionary TypeRef
deriving Inhabited

namespace HostCall

/-- The argument at a place. -/
def arg (call : HostCall) (place : Nat) : Except HostError Value :=
  match call.args[place]? with
  | some value => .ok value
  | none => .error (.plain ("missing argument " ++ toString place))

/-- Whether the caller left an optional argument out. -/
def isDefault (call : HostCall) (place : Nat) : Bool :=
  match call.args[place]? with
  | none | some .useDefault => true
  | _ => false

/-- The failure of an argument that is not what the function needs. -/
def mustBe (store : Store) (place : Nat) (expected : String) (value : Value) : HostError :=
  .plain ("argument " ++ toString place ++ " must be " ++ expected ++ ", found " ++
    value.typeName store)

/-- An argument seen in a certain way. -/
def argAs {α : Type} (call : HostCall) (store : Store) (view : Value → Option α)
    (expected : String) (place : Nat) : Except HostError α := do
  let value ← call.arg place
  match view value with
  | some result => .ok result
  | none => .error (mustBe store place expected value)

def int (call : HostCall) (store : Store) (place : Nat) : Except HostError Int64 :=
  call.argAs store Value.asInt? "int" place

def float (call : HostCall) (store : Store) (place : Nat) : Except HostError Binary64 :=
  call.argAs store Value.asFloat? "float" place

def string (call : HostCall) (store : Store) (place : Nat) : Except HostError String :=
  call.argAs store Value.asStr? "string" place

def object (call : HostCall) (store : Store) (place : Nat) : Except HostError ObjectId :=
  call.argAs store (fun value => match value with | .object id => some id | _ => none)
    "an object" place

/-- What each generic name stands for. -/
def typeArgTexts (call : HostCall) : List String :=
  call.typeArgs.map fun entry => entry.1 ++ "=" ++ entry.2.render

end HostCall

/-- A declared parameter. -/
structure HostParam where
  type : TypeRef
  optional : Bool
deriving DecidableEq

/-- What a host function does. -/
abbrev HostBody := HostCall → Store → Except HostError Value × Store

/-- One overload of a host function. -/
structure HostFunction where
  name : String
  params : List HostParam
  body : HostBody

namespace HostFunction

/-- A function with required parameters. -/
def ofTypes (name : String) (types : List TypeRef) (body : HostBody) : HostFunction :=
  ⟨name, types.map (⟨·, false⟩), body⟩

/-- The function with one more, optional, parameter at the end. -/
def withOptional (function : HostFunction) (type : TypeRef) : HostFunction :=
  { function with params := function.params ++ [⟨type, true⟩] }

/-- How many arguments a call has to give. -/
def required (function : HostFunction) : Nat :=
  (function.params.takeWhile fun param => !param.optional).length

def signature (function : HostFunction) : List TypeRef := function.params.map HostParam.type

def reference (function : HostFunction) : HostFunctionRef := ⟨function.name, function.signature⟩

/-- The text that messages show for the function. -/
def describe (function : HostFunction) : String := function.reference.render

end HostFunction

end ScriptMachine
