import ScriptMachine.Fault
import ScriptMachine.Program.Basic

/-!
# Values and the store

Values are immediate or refer to something shared: an array, a closure, an iterator or a host
object. Shared things live in a `Store` and are referred to by their number, so that two values are
the same thing exactly when their numbers agree. The store also holds the cells of the host's
globals and the text printed so far. It only grows; an operation on it returns the store that
follows.
-/

namespace ScriptMachine

/-- An array in the store. -/
structure ArrayId where
  index : Nat
deriving DecidableEq, Inhabited

/-- A closure in the store. -/
structure ClosureId where
  index : Nat
deriving DecidableEq, Inhabited

/-- An iterator in the store. -/
structure IteratorId where
  index : Nat
deriving DecidableEq, Inhabited

/-- A host object in the store. -/
structure ObjectId where
  index : Nat
deriving DecidableEq, Inhabited

/-- The cell of a global in the store. -/
structure CellId where
  index : Nat
deriving DecidableEq, Inhabited

/-- A value of a script. -/
inductive Value where
  | unit
  | bool (value : Bool)
  | int (value : Int64)
  | float (value : Binary64)
  | str (text : String)
  | array (id : ArrayId)
  | closure (id : ClosureId)
  | iterator (id : IteratorId)
  | object (id : ObjectId)
  /-- Stands for an optional argument that the caller left out. -/
  | useDefault
deriving DecidableEq, Inhabited

/-- An action with the values it keeps. The entry of its function is found at the first call and
kept from then on. -/
structure Closure where
  function : FunctionRef
  captures : ArrayId
  resolved : Option FunctionEntry
deriving Inhabited

/-- Where the elements of an iterator come from. -/
inductive IteratorSource where
  /-- Elements given beforehand; behind them the iterator ends, or fails every time. -/
  | items (rest : List Value) (failure : Option HostError)
  /-- The elements of an array as they are when they are reached. -/
  | elements (array : ArrayId) (next : Nat)
  /-- An arithmetic progression that stops before its bound. -/
  | range (next : Option Int64) (stop step : Int64)
deriving Inhabited

/-- An iterator with the element it stands at. -/
structure IteratorState where
  source : IteratorSource
  current : Value
deriving Inhabited

/-- An instance of a host type. -/
structure HostObject where
  typeName : String
  typeArgs : List TypeRef
  fields : Dictionary Value
deriving Inhabited

/-- Everything that values share. -/
structure Store where
  arrays : Array (Array Value)
  closures : Array Closure
  iterators : Array IteratorState
  objects : Array HostObject
  cells : Array Value
  /-- The text printed so far. -/
  printed : String
deriving Inhabited

namespace Store

def empty : Store := ⟨#[], #[], #[], #[], #[], ""⟩

/-- Something put into the store beside its reference. -/
abbrev Allocated (α : Type) := α × Store

def allocArray (store : Store) (items : Array Value) : Allocated ArrayId :=
  (⟨store.arrays.size⟩, { store with arrays := store.arrays.push items })

def allocClosure (store : Store) (closure : Closure) : Allocated ClosureId :=
  (⟨store.closures.size⟩, { store with closures := store.closures.push closure })

/-- A new iterator stands before its first element. -/
def allocIterator (store : Store) (source : IteratorSource) : Allocated IteratorId :=
  (⟨store.iterators.size⟩, { store with iterators := store.iterators.push ⟨source, .unit⟩ })

def allocObject (store : Store) (object : HostObject) : Allocated ObjectId :=
  (⟨store.objects.size⟩, { store with objects := store.objects.push object })

def allocCell (store : Store) (value : Value) : Allocated CellId :=
  (⟨store.cells.size⟩, { store with cells := store.cells.push value })

def array (store : Store) (id : ArrayId) : Array Value := store.arrays.getD id.index #[]

def closure (store : Store) (id : ClosureId) : Closure := store.closures.getD id.index default

def iterator (store : Store) (id : IteratorId) : IteratorState :=
  store.iterators.getD id.index default

def object (store : Store) (id : ObjectId) : HostObject := store.objects.getD id.index default

def cell (store : Store) (id : CellId) : Value := store.cells.getD id.index .unit

/-- Overwrites an element of an array, if it has it. -/
def setElement (store : Store) (id : ArrayId) (place : Nat) (value : Value) : Store :=
  { store with arrays := store.arrays.modify id.index fun items => items.setIfInBounds place value }

/-- Puts an element at the end of an array. -/
def pushElement (store : Store) (id : ArrayId) (value : Value) : Store :=
  { store with arrays := store.arrays.modify id.index fun items => items.push value }

/-- Notes the entry that a closure's function was found at. -/
def resolveClosure (store : Store) (id : ClosureId) (entry : FunctionEntry) : Store :=
  { store with
    closures := store.closures.modify id.index fun closure =>
      { closure with resolved := some entry } }

def setIterator (store : Store) (id : IteratorId) (state : IteratorState) : Store :=
  { store with iterators := store.iterators.setIfInBounds id.index state }

def setCell (store : Store) (id : CellId) (value : Value) : Store :=
  { store with cells := store.cells.setIfInBounds id.index value }

/-- Overwrites a field that an object has. -/
def setField (store : Store) (id : ObjectId) (name : String) (value : Value) : Store :=
  { store with
    objects := store.objects.modify id.index fun object =>
      { object with fields := Dictionary.insert object.fields name value } }

def print (store : Store) (text : String) : Store := { store with printed := store.printed ++ text }

end Store

namespace Value

/-- The name of a value's type. -/
def typeName (store : Store) : Value → String
  | .unit => "unit"
  | .bool _ => "bool"
  | .int _ => "int"
  | .float _ => "float"
  | .str _ => "string"
  | .array _ => "array"
  | .closure _ => "action"
  | .iterator _ => "iterator"
  | .object id => (store.object id).typeName
  | .useDefault => "default"

/-- The type that overload resolution sees. -/
def runtimeType (store : Store) (value : Value) : TypeRef :=
  match value with
  | .object id =>
      let object := store.object id
      if object.typeArgs.isEmpty then .named object.typeName
      else .applied object.typeName object.typeArgs
  | _ => .named (value.typeName store)

/-- Whether a value counts as true: all but unit and false do. -/
def isTruthy : Value → Bool
  | .unit => false
  | .bool value => value
  | _ => true

def asInt? : Value → Option Int64
  | .int value => some value
  | _ => none

/-- The value as a number, whole numbers rounded. -/
def asFloat? : Value → Option Binary64
  | .int value => some (Binary64.ofInt value.toInt)
  | .float value => some value
  | _ => none

def asStr? : Value → Option String
  | .str text => some text
  | _ => none

def asBool? : Value → Option Bool
  | .bool value => some value
  | _ => none

/-- The value of a constant. -/
def ofConstant : Constant → Value
  | .unit => .unit
  | .bool value => .bool value
  | .int value => .int value
  | .float value => .float value
  | .str text => .str text

end Value

end ScriptMachine
