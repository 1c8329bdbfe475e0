import ScriptMachine.Engine.Basic

/-!
# Effects on the store

What an instruction does apart from the stack is an effect: it reads and changes the store, and
gives a value or a fault. This file names the effects and shows that the steps of a machine are
these effects with operands taken from the stack before and a value put there after.

Whatever relates machines to something else, an invariant or another way to run a program, can
treat the store through effects, and never has to look into a step.
-/

namespace ScriptMachine

/-- Something that reads and changes the store and may fault. -/
abbrev Effect (α : Type) := Store → Except RuntimeFault α × Store

namespace Effect

/-- Calls the host function that is chosen, if one is. -/
def invoke (choose : Store → Except RuntimeFault Resolved) : Effect Value := fun store =>
  match choose store with
  | .ok resolved => resolved.invoke store
  | .error fault => (.error fault, store)

/-- Calls the candidate that fits the arguments. -/
def callHost (registry : Registry) (name : String) (candidates : List HostFunction)
    (args : List Value) : Effect Value :=
  invoke fun store => registry.resolve store name candidates args

/-- Calls a host function by name. A binding holds while its function is the only one. -/
def callNamed (registry : Registry) (name : String) (binding : Option HostFunctionRef)
    (args : List Value) : Effect Value :=
  match binding.bind fun reference => registry.soleFunction? reference.name reference.signature with
  | some function => callHost registry name [function] args
  | none => invoke fun store => registry.resolveFunction store name args

/-- Calls a static function of a host type. -/
def callStatic (registry : Registry) (typeName name : String) (args : List Value) :
    Effect Value := fun store =>
  match Step.accessibleType registry typeName name with
  | .error fault => (.error fault, store)
  | .ok type =>
      match type.staticOverloads name with
      | [] => (.error (.memberNotFound typeName name), store)
      | candidates => callHost registry (typeName ++ "." ++ name) candidates args store

/-- Reads a static field of a host type. -/
def loadStatic (registry : Registry) (typeName name : String) : Effect Value := fun store =>
  match Step.accessibleType registry typeName name with
  | .error fault => (.error fault, store)
  | .ok type =>
      match type.staticFields.find? name with
      | some value => (.ok value, store)
      | none => (.error (.memberNotFound typeName name), store)

/-- What calling a member comes to: the value of a host call, or a closure still to be called. -/
inductive Member where
  | value (value : Value)
  | closure (id : ClosureId)

/-- Calls a host function as a member of a value. -/
def callHostMember (registry : Registry) (name : String) (candidates : List HostFunction)
    (args : List Value) : Effect Member := fun store =>
  match callHost registry name candidates args store with
  | (.ok value, store) => (.ok (.value value), store)
  | (.error fault, store) => (.error fault, store)

/-- Calls a member of a value, up to the call of a closure in a field. -/
def callMember (registry : Registry) (receiver : Value) (name : String) (args : List Value) :
    Effect Member := fun store =>
  match receiver with
  | .object id =>
      let object := store.object id
      if registry.isPrivate object.typeName name then
        (.error (.privateMemberAccess object.typeName name), store)
      else
        match registry.methods object.typeName name with
        | [] =>
            match object.fields.find? name with
            | some (.closure closure) => (.ok (.closure closure), store)
            | _ => (.error (.memberNotFound object.typeName name), store)
        | methods =>
            callHostMember registry (object.typeName ++ "." ++ name) methods (receiver :: args)
              store
  | _ =>
      match registry.overloads name with
      | [] => (.error (.memberNotFound (receiver.typeName store) name), store)
      | candidates => callHostMember registry name candidates (receiver :: args) store

/-- Finds the code of a closure, which keeps the entry from then on. -/
def resolveClosure (program : Program) (id : ClosureId) (argc : Nat) : Effect Nat := fun store =>
  let closure := store.closure id
  match closure.resolved with
  | some entry => (Step.checkArity closure.function argc entry, store)
  | none =>
      match program.lookup? closure.function.path closure.function.name with
      | none => (.error (.functionNotFound closure.function.render), store)
      | some entry =>
          (Step.checkArity closure.function argc entry, store.resolveClosure id entry)

def loadField (registry : Registry) (target : Value) (name : String) : Effect Value := fun store =>
  match target with
  | .object id =>
      let object := store.object id
      if registry.isPrivate object.typeName name then
        (.error (.privateMemberAccess object.typeName name), store)
      else
        match object.fields.find? name with
        | some value => (.ok value, store)
        | none => (.error (.memberNotFound object.typeName name), store)
  | .array id =>
      if name = "length" then (.ok (.int (Int64.ofNat (store.array id).size)), store)
      else (.error (.memberNotFound (target.typeName store) name), store)
  | .str text =>
      if name = "length" then (.ok (.int (Int64.ofNat text.length)), store)
      else (.error (.memberNotFound (target.typeName store) name), store)
  | _ => (.error (.memberNotFound (target.typeName store) name), store)

def storeField (registry : Registry) (target : Value) (name : String) (value : Value) :
    Effect Unit := fun store =>
  match target with
  | .object id =>
      let object := store.object id
      if registry.isPrivate object.typeName name then
        (.error (.privateMemberAccess object.typeName name), store)
      else if object.fields.contains name then (.ok (), store.setField id name value)
      else (.error (.memberNotFound object.typeName name), store)
  | _ => (.error (.memberNotFound (target.typeName store) name), store)

def loadIndex (registry : Registry) (target index : Value) : Effect Value := fun store =>
  match target with
  | .array id =>
      match Step.elementIndex store index (store.array id).size with
      | .ok place => (.ok ((store.array id).getD place .unit), store)
      | .error fault => (.error fault, store)
  | .str text =>
      match Step.elementIndex store index text.toList.length with
      | .ok place =>
          (.ok (((text.toList[place]?).map fun character =>
            Value.str (.singleton character)).getD .unit), store)
      | .error fault => (.error fault, store)
  | .object id =>
      let owner := (store.object id).typeName
      match registry.indexerGet? owner with
      | none => (.error (.indexerNotFound owner), store)
      | some getter => callHost registry (owner ++ "[]") [getter] [target, index] store
  | _ => (.error (.indexerNotFound (target.typeName store)), store)

def storeIndex (registry : Registry) (target index value : Value) : Effect Unit := fun store =>
  match target with
  | .array id =>
      match Step.elementIndex store index (store.array id).size with
      | .ok place => (.ok (), store.setElement id place value)
      | .error fault => (.error fault, store)
  | .object id =>
      let owner := (store.object id).typeName
      match registry.indexerSet? owner with
      | none => (.error (.indexerNotFound owner), store)
      | some setter =>
          match callHost registry (owner ++ "[]=") [setter] [target, index, value] store with
          | (.ok _, store) => (.ok (), store)
          | (.error fault, store) => (.error fault, store)
  | _ => (.error (.indexerNotFound (target.typeName store)), store)

/-- Applies an operator to two values. -/
def binary (registry : Registry) (operator : BinaryOp) (left right : Value) : Effect Value :=
  fun store =>
    match registry.operators store operator [left, right] with
    | [] =>
        match left.binary store operator right with
        | some result => (result, store)
        | none =>
            (.error (.operatorNotFound operator.symbol
              [left.typeName store, right.typeName store]), store)
    | overloads => callHost registry operator.symbol overloads [left, right] store

/-- Applies an operator to one value. -/
def unary (operator : UnaryOp) (operand : Value) : Effect Value := fun store =>
  match operand.unary operator, operator with
  | some result, _ => (result, store)
  | none, .not => (.ok (.bool (!operand.isTruthy)), store)
  | none, .neg => (.error (.operatorNotFound operator.symbol [operand.typeName store]), store)

/-- Puts a fresh array into the store. -/
def makeArray (items : List Value) : Effect ArrayId := fun store =>
  let (id, store) := store.allocArray items.toArray
  (.ok id, store)

/-- Puts a fresh closure into the store. -/
def makeClosure (function : FunctionRef) (captures : ArrayId) : Effect ClosureId := fun store =>
  let (id, store) := store.allocClosure ⟨function, captures, none⟩
  (.ok id, store)

/-- Moves an iterator on, and tells whether it stands at an element. -/
def moveNext (id : IteratorId) : Effect Bool := fun store =>
  let (result, store) := store.advance id
  (result.mapError HostError.toFault, store)

/-- Writes the cell of a global, if the host has one of that name. -/
def storeGlobal (registry : Registry) (name : Option String) (value : Value) : Effect Unit :=
  fun store =>
    match name with
    | some name => (.ok (), (registry.setGlobal? store name value).getD store)
    | none => (.ok (), store)

end Effect

end ScriptMachine
