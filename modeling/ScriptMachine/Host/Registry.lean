import ScriptMachine.Host.Overload

/-!
# The registry of the host

What a host makes known to scripts: functions by name, each with its overloads in the order of their
registration, types, and globals. A global is a cell of the store; the registry knows which.

A type may name a base, and bases may form a cycle or lead to a type that is not registered.
`lineage` follows them through the types not met yet, so it ends and meets every ancestor once.
-/

namespace ScriptMachine

/-- What scripts can do with a type of the host. Methods take the receiver as first argument. -/
structure HostType where
  name : String
  base : Option TypeRef
  generics : List String
  staticFields : Dictionary Value
  staticFunctions : Dictionary (List HostFunction)
  methods : Dictionary (List HostFunction)
  privateMembers : List String
  indexerGet : Option HostFunction
  indexerSet : Option HostFunction
  operators : List (BinaryOp × HostFunction)

namespace HostType

/-- A type without members. -/
def ofName (name : String) : HostType := ⟨name, none, [], [], [], [], [], none, none, []⟩

/-- Functions by name with one more overload at the end of its list. -/
def addOverload (functions : Dictionary (List HostFunction)) (function : HostFunction) :
    Dictionary (List HostFunction) :=
  functions.insert function.name ((functions.find? function.name).getD [] ++ [function])

def withStaticField (type : HostType) (name : String) (value : Value) : HostType :=
  { type with staticFields := type.staticFields.insert name value }

def withStaticFunction (type : HostType) (function : HostFunction) : HostType :=
  { type with staticFunctions := addOverload type.staticFunctions function }

def withMethod (type : HostType) (function : HostFunction) : HostType :=
  { type with methods := addOverload type.methods function }

def withPrivate (type : HostType) (member : String) : HostType :=
  { type with privateMembers := member :: type.privateMembers }

def withIndexer (type : HostType) (get : HostFunction) (set : Option HostFunction) : HostType :=
  { type with indexerGet := some get, indexerSet := set }

def withOperator (type : HostType) (operator : BinaryOp) (function : HostFunction) : HostType :=
  { type with operators := type.operators ++ [(operator, function)] }

/-- The overloads of a static function. -/
def staticOverloads (type : HostType) (name : String) : List HostFunction :=
  (type.staticFunctions.find? name).getD []

/-- The overloads of a method that the type itself declares. -/
def ownMethods (type : HostType) (name : String) : List HostFunction :=
  (type.methods.find? name).getD []

def isPrivate (type : HostType) (member : String) : Bool := type.privateMembers.contains member

/-- The name of the base, if there is one. -/
def baseName? (type : HostType) : Option String := type.base.bind TypeRef.baseName?

end HostType

/-- Everything that a host makes known. -/
structure Registry where
  functions : Dictionary (List HostFunction)
  types : Dictionary HostType
  globals : Dictionary CellId

namespace Registry

def empty : Registry := ⟨[], [], []⟩

def registerFunction (registry : Registry) (function : HostFunction) : Registry :=
  { registry with functions := HostType.addOverload registry.functions function }

/-- Registers a type, in lieu of one with the same name. -/
def registerType (registry : Registry) (type : HostType) : Registry :=
  { registry with types := registry.types.insert type.name type }

/-- Registers a global. One that is there keeps its cell and gets the value. -/
def registerGlobal (registry : Registry) (store : Store) (name : String) (value : Value) :
    Registry × Store :=
  match registry.globals.find? name with
  | some cell => (registry, store.setCell cell value)
  | none =>
      let (cell, store) := store.allocCell value
      ({ registry with globals := registry.globals.insert name cell }, store)

/-- Sets a global that is registered. -/
def setGlobal? (registry : Registry) (store : Store) (name : String) (value : Value) :
    Option Store :=
  (registry.globals.find? name).map fun cell => store.setCell cell value

/-- The value of a global. -/
def global? (registry : Registry) (store : Store) (name : String) : Option Value :=
  (registry.globals.find? name).map store.cell

def globalNames (registry : Registry) : List String := registry.globals.names

/-- The overloads of a function. -/
def overloads (registry : Registry) (name : String) : List HostFunction :=
  (registry.functions.find? name).getD []

def hasFunction (registry : Registry) (name : String) : Bool := registry.functions.contains name

/-- The first overload with a given signature. -/
def functionBySignature? (registry : Registry) (name : String) (signature : List TypeRef) :
    Option HostFunction :=
  (registry.overloads name).find? fun function => function.signature = signature

/-- The overload with a given signature, if it is the only one of its name. -/
def soleFunction? (registry : Registry) (name : String) (signature : List TypeRef) :
    Option HostFunction :=
  match registry.overloads name with
  | [only] => if only.signature = signature then some only else none
  | _ => none

def type? (registry : Registry) (name : String) : Option HostType := registry.types.find? name

/-- A type and its ancestors among the given types, the nearest first, each at most once. -/
def lineageIn (types : Dictionary HostType) (name : String) : List HostType :=
  match _found : types.find? name with
  | none => []
  | some type =>
      type ::
        match type.baseName? with
        | none => []
        | some base => lineageIn (types.erase name) base
termination_by types.length
decreasing_by exact Dictionary.length_erase_lt _found

/-- A type and its registered ancestors, the nearest first. -/
def lineage (registry : Registry) (name : String) : List HostType :=
  lineageIn registry.types name

/-- The declared bases along a type's lineage. -/
def baseChain (registry : Registry) (name : String) : List TypeRef :=
  (registry.lineage name).filterMap HostType.base

/-- The overloads of a method along a type's lineage. -/
def methods (registry : Registry) (typeName name : String) : List HostFunction :=
  (registry.lineage typeName).flatMap fun type => type.ownMethods name

/-- Whether a member is private in a type or one of its ancestors. -/
def isPrivate (registry : Registry) (typeName member : String) : Bool :=
  (registry.lineage typeName).any fun type => type.isPrivate member

/-- The function that reads an indexed element of a type, inherited if need be. -/
def indexerGet? (registry : Registry) (typeName : String) : Option HostFunction :=
  (registry.lineage typeName).findSome? HostType.indexerGet

/-- The function that writes an indexed element of a type, inherited if need be. -/
def indexerSet? (registry : Registry) (typeName : String) : Option HostFunction :=
  (registry.lineage typeName).findSome? HostType.indexerSet

/-- The types along the lineages of operands that are host objects, each once. -/
def operandTypes (registry : Registry) (store : Store) (operands : List Value) : List HostType :=
  operands.foldl (fun seen value =>
    match value with
    | .object id =>
        seen ++ (registry.lineage (store.object id).typeName).filter fun type =>
          !seen.any fun other => other.name == type.name
    | _ => seen) []

/-- The overloads of an operator that the types of the operands declare or inherit. -/
def operators (registry : Registry) (store : Store) (operator : BinaryOp) (operands : List Value) :
    List HostFunction :=
  (registry.operandTypes store operands).flatMap fun type =>
    (type.operators.filter fun entry => entry.1 = operator).map Prod.snd

/-- Chooses among candidates by the types of the arguments. -/
def resolve (registry : Registry) (store : Store) (name : String) (candidates : List HostFunction)
    (args : List Value) : Except RuntimeFault Resolved :=
  resolveOverload name candidates args registry.baseChain store

/-- Chooses the overload of a named function. -/
def resolveFunction (registry : Registry) (store : Store) (name : String) (args : List Value) :
    Except RuntimeFault Resolved :=
  match registry.overloads name with
  | [] => .error (.hostFunctionNotFound name)
  | candidates => registry.resolve store name candidates args

/-- The registered names, for inspection. -/
def inspect (registry : Registry) : String :=
  let list (names : List String) : String := "[" ++ ", ".intercalate (names.map Text.quoted) ++ "]"
  "HostRegistry \x7b functions: " ++ list registry.functions.names ++ ", types: " ++
    list registry.types.names ++ ", globals: " ++ list registry.globals.names ++ " \x7d"

end Registry

end ScriptMachine
