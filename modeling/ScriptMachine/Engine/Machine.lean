import ScriptMachine.Engine.Stack
import ScriptMachine.Host.Registry

/-!
# One instruction at a time

A machine is what changes while a program runs: the value stack, the instruction pointer, the base
of the running frame, the depth of calls, the active functions, and the store. `step` carries out
one instruction. A fault keeps what the instruction had done before it, as a stack that is shorter
by the operands it took.

A call finds its arguments on the stack, pushes the caller's base and return address, and makes the
first argument the new base. A return puts its value in their place.
-/

namespace ScriptMachine

/-- What changes while a program runs. -/
structure Machine where
  stack : ValueStack
  ip : Nat
  base : Nat
  depth : Nat
  /-- The active functions, innermost first. -/
  debugStack : List DebugContext
  store : Store

/-- A step of a machine that may fault. -/
abbrev Step := ExceptT RuntimeFault (StateM Machine)

/-- How a run goes on after an instruction. -/
inductive Control where
  | next
  | yielded (value : Value)
  | completed (value : Value)

/-- What a program runs against. -/
structure Surroundings where
  program : Program
  registry : Registry

namespace Step

@[inline]
def onStack {α : Type} (operation : ValueStack → StackResult α) : Step α :=
  ExceptT.mk fun machine =>
    let (result, stack) := operation machine.stack
    (result, { machine with stack := stack })

@[inline]
def onStore {α : Type} (operation : Store → Except RuntimeFault α × Store) : Step α :=
  ExceptT.mk fun machine =>
    let (result, store) := operation machine.store
    (result, { machine with store := store })

@[inline]
def push (value : Value) : Step Unit := onStack (ValueStack.push value)

@[inline]
def pop : Step Value := onStack ValueStack.pop

@[inline]
def popMany (count : Nat) : Step (List Value) := onStack (ValueStack.popMany count)

@[inline]
def peek : Step Value := onStack ValueStack.peek

@[inline]
def slot (index : Nat) : Step Value := onStack (ValueStack.get index)

@[inline]
def setSlot (index : Nat) (value : Value) : Step Unit := onStack (ValueStack.set index value)

@[inline]
def stackSize : Step Nat := return (← get).stack.size

@[inline]
def base : Step Nat := return (← get).base

@[inline]
def store : Step Store := return (← get).store

@[inline]
def jumpTo (target : Nat) : Step Unit := modify fun machine => { machine with ip := target }

/-- Pushes values in order. -/
def pushAll : List Value → Step Unit
  | [] => return
  | value :: rest => do
      push value
      pushAll rest

/-- Pushes so many units. -/
def pushUnits : Nat → Step Unit
  | 0 => return
  | count + 1 => do
      push .unit
      pushUnits count

/-- The name of a value's type. -/
def typeName (value : Value) : Step String := return value.typeName (← store)

/-- Enters a function whose arguments are on the stack. -/
def enterCall (offset argc : Nat) : Step Unit := do
  let size ← stackSize
  if size < argc then throw ValueStack.underflow
  let machine ← get
  push (.int (Int64.ofNat machine.base))
  push (.int (Int64.ofNat machine.ip))
  modify fun machine =>
    { machine with base := size - argc, depth := machine.depth + 1, ip := offset }

/-- A word of a frame header. -/
def frameWord (value : Value) : Except RuntimeFault Nat :=
  match value with
  | .int word =>
      if 0 ≤ word.toInt then .ok word.toInt.toNat
      else .error (.unknown "corrupt call frame header")
  | _ => .error (.unknown "corrupt call frame header")

/-- Leaves a function that has so many parameters with the value on top. -/
def returnFrom (params : Nat) : Step Control := do
  let value ← pop
  let header := (← base) + params
  let savedBase ← frameWord (← slot header)
  let returnIp ← frameWord (← slot (header + 1))
  modify fun machine =>
    { machine with stack := machine.stack.truncate machine.base, depth := machine.depth - 1 }
  push value
  if (← get).depth = 0 then return .completed value
  modify fun machine => { machine with base := savedBase, ip := returnIp }
  return .next

/-- The offset of a function that takes so many arguments. -/
def checkArity (function : FunctionRef) (argc : Nat) (entry : FunctionEntry) :
    Except RuntimeFault Nat :=
  if entry.arity = argc then .ok entry.offset
  else .error (.argumentCount function.render entry.arity argc)

/-- The offset of a function of the program. -/
def resolveFunction (program : Program) (function : FunctionRef) (argc : Nat) : Step Nat :=
  match program.lookup? function.path function.name with
  | some entry => checkArity function argc entry
  | none => throw (.functionNotFound function.render)

/-- The offset of a closure's function, which the closure keeps once it is found. -/
def resolveClosure (program : Program) (id : ClosureId) (argc : Nat) : Step Nat := do
  let closure := (← store).closure id
  match closure.resolved with
  | some entry => checkArity closure.function argc entry
  | none =>
      match program.lookup? closure.function.path closure.function.name with
      | none => throw (.functionNotFound closure.function.render)
      | some entry =>
          onStore fun store => (.ok (), store.resolveClosure id entry)
          checkArity closure.function argc entry

/-- Calls a chosen overload and pushes its value. -/
def invokeHost (resolved : Except RuntimeFault Resolved) : Step Unit := do
  let resolved ← resolved
  push (← onStore resolved.invoke)

/-- Chooses among candidates, calls the chosen one and pushes its value. -/
def callHost (registry : Registry) (name : String) (candidates : List HostFunction)
    (args : List Value) : Step Unit := do
  invokeHost (registry.resolve (← store) name candidates args)

/-- Calls a closure with arguments that are not on the stack. -/
def callClosure (program : Program) (id : ClosureId) (args : List Value) : Step Unit := do
  let argc := args.length + 1
  let offset ← resolveClosure program id argc
  push (.array ((← store).closure id).captures)
  pushAll args
  enterCall offset argc

/-- Calls a member: of a host object a method, else an action in a field; of any other value the
free function of that name. -/
def callMethod (surroundings : Surroundings) (receiver : Value) (name : String)
    (args : List Value) : Step Unit := do
  let registry := surroundings.registry
  match receiver with
  | .object id =>
      let object := (← store).object id
      if registry.isPrivate object.typeName name then
        throw (.privateMemberAccess object.typeName name)
      match registry.methods object.typeName name with
      | [] =>
          match object.fields.find? name with
          | some (.closure closure) => callClosure surroundings.program closure args
          | _ => throw (.memberNotFound object.typeName name)
      | methods => callHost registry (object.typeName ++ "." ++ name) methods (receiver :: args)
  | _ =>
      match registry.overloads name with
      | [] => throw (.memberNotFound (← typeName receiver) name)
      | candidates => callHost registry name candidates (receiver :: args)

/-- A registered type whose member is not private. -/
def accessibleType (registry : Registry) (typeName member : String) :
    Except RuntimeFault HostType :=
  match registry.type? typeName with
  | none => .error (.unresolvedType typeName)
  | some type =>
      if type.isPrivate member then .error (.privateMemberAccess typeName member) else .ok type

/-- Reads a field; arrays and texts have a length. -/
def loadField (registry : Registry) (target : Value) (name : String) : Step Value := do
  let store ← store
  match target with
  | .object id =>
      let object := store.object id
      if registry.isPrivate object.typeName name then
        throw (.privateMemberAccess object.typeName name)
      match object.fields.find? name with
      | some value => return value
      | none => throw (.memberNotFound object.typeName name)
  | .array id =>
      if name = "length" then return .int (Int64.ofNat (store.array id).size)
      throw (.memberNotFound (target.typeName store) name)
  | .str text =>
      if name = "length" then return .int (Int64.ofNat text.length)
      throw (.memberNotFound (target.typeName store) name)
  | _ => throw (.memberNotFound (target.typeName store) name)

/-- Writes a field that a host object has. -/
def storeField (registry : Registry) (target : Value) (name : String) (value : Value) :
    Step Unit := do
  match target with
  | .object id =>
      let object := (← store).object id
      if registry.isPrivate object.typeName name then
        throw (.privateMemberAccess object.typeName name)
      if object.fields.contains name then
        onStore fun store => (.ok (), store.setField id name value)
      else throw (.memberNotFound object.typeName name)
  | _ => throw (.memberNotFound (← typeName target) name)

/-- The place that an index names among so many elements. -/
def elementIndex (store : Store) (index : Value) (length : Nat) : Except RuntimeFault Nat :=
  match index with
  | .int raw =>
      if 0 ≤ raw.toInt ∧ raw.toInt < length then .ok raw.toInt.toNat
      else .error (.indexOutOfRange raw.toInt length)
  | _ => .error (.typeMismatch "int" (index.typeName store))

/-- Reads an element of an array or a text, or whatever a host type's indexer gives. -/
def loadIndex (registry : Registry) (target index : Value) : Step Unit := do
  let store ← store
  match target with
  | .array id =>
      let items := store.array id
      let place ← elementIndex store index items.size
      push (items.getD place .unit)
  | .str text =>
      let characters := text.toList
      let place ← elementIndex store index characters.length
      push (((characters[place]?).map fun character => Value.str (.singleton character)).getD .unit)
  | .object id =>
      let owner := (store.object id).typeName
      match registry.indexerGet? owner with
      | none => throw (.indexerNotFound owner)
      | some getter => callHost registry (owner ++ "[]") [getter] [target, index]
  | _ => throw (.indexerNotFound (target.typeName store))

/-- Writes an element of an array, or passes it to a host type's indexer. -/
def storeIndex (registry : Registry) (target index value : Value) : Step Unit := do
  match target with
  | .array id =>
      let place ← onStore fun store =>
        (elementIndex store index (store.array id).size, store)
      onStore fun store => (.ok (), store.setElement id place value)
  | .object id =>
      let owner := ((← store).object id).typeName
      match registry.indexerSet? owner with
      | none => throw (.indexerNotFound owner)
      | some setter =>
          let resolved ← registry.resolve (← store) (owner ++ "[]=") [setter] [target, index, value]
          discard (onStore resolved.invoke)
  | _ => throw (.indexerNotFound (← typeName target))

/-- Applies an operator. Overloads that the operands' host types declare come before the built-in
meaning. -/
def binary (registry : Registry) (operator : BinaryOp) (left right : Value) : Step Unit := do
  let store ← store
  match registry.operators store operator [left, right] with
  | [] =>
      match left.binary store operator right with
      | some result => push (← result)
      | none =>
          throw (.operatorNotFound operator.symbol [left.typeName store, right.typeName store])
  | overloads => callHost registry operator.symbol overloads [left, right]

/-- Applies an operator to one value. Negation of truth falls back on what counts as true. -/
def unary (operator : UnaryOp) (operand : Value) : Step Unit := do
  match operand.unary operator, operator with
  | some result, _ => push (← result)
  | none, .not => push (.bool (!operand.isTruthy))
  | none, .neg => throw (.operatorNotFound operator.symbol [← typeName operand])

/-- The iterator on top of the stack, which is taken off. -/
def popIterator (mnemonic : String) : Step IteratorId := do
  match ← pop with
  | .iterator id => return id
  | _ => throw (.unknown (mnemonic ++ " on a non-iterator"))

end Step

open Step in
/-- Carries out one instruction. The instruction pointer stands behind it already. -/
def step (surroundings : Surroundings) (instruction : Instruction) : Step Control := do
  let registry := surroundings.registry
  match instruction with
  | .nop => return .next
  | .pushConst constant =>
      push (.ofConstant constant)
      return .next
  | .loadLocal index =>
      push (← slot ((← base) + index))
      return .next
  | .storeLocal index =>
      let value ← pop
      setSlot ((← base) + index) value
      return .next
  | .loadGlobal index =>
      push (← slot index)
      return .next
  | .storeGlobal index =>
      let value ← pop
      if let some name := surroundings.program.globals[index]? then
        onStore fun store =>
          (.ok (), (registry.setGlobal? store name value).getD store)
      setSlot index value
      return .next
  | .pop =>
      discard pop
      return .next
  | .binary operator =>
      let right ← pop
      let left ← pop
      Step.binary registry operator left right
      return .next
  | .unary operator =>
      Step.unary operator (← pop)
      return .next
  | .jump target =>
      jumpTo target
      return .next
  | .jumpIfFalse target =>
      unless (← pop).isTruthy do jumpTo target
      return .next
  | .jumpIfFalseKeep target =>
      if (← peek).isTruthy then discard pop else jumpTo target
      return .next
  | .jumpIfTrueKeep target =>
      if (← peek).isTruthy then jumpTo target else discard pop
      return .next
  | .callFunction function argc =>
      enterCall (← resolveFunction surroundings.program function argc) argc
      return .next
  | .callHost name argc binding =>
      let args ← popMany argc
      -- A binding holds only while its function is the only one of its name.
      match binding.bind fun reference =>
          registry.soleFunction? reference.name reference.signature with
      | some function => Step.callHost registry name [function] args
      | none => invokeHost (registry.resolveFunction (← store) name args)
      return .next
  | .callMethod name argc =>
      let args ← popMany argc
      Step.callMethod surroundings (← pop) name args
      return .next
  | .callStatic typeName name argc _ =>
      let args ← popMany argc
      let type ← accessibleType registry typeName name
      match type.staticOverloads name with
      | [] => throw (.memberNotFound typeName name)
      | candidates => Step.callHost registry (typeName ++ "." ++ name) candidates args
      return .next
  | .invokeClosure argc =>
      let size ← stackSize
      if size < argc + 1 then throw ValueStack.underflow
      let place := size - (argc + 1)
      match ← slot place with
      | .closure id =>
          -- The place of the closure becomes the hidden first argument.
          setSlot place (.array ((← store).closure id).captures)
          enterCall (← resolveClosure surroundings.program id (argc + 1)) (argc + 1)
      | other => throw (.notCallable (← typeName other))
      return .next
  | .makeClosure function =>
      match ← pop with
      | .array captures =>
          let id ← onStore fun store =>
            let (id, store) := store.allocClosure ⟨function, captures, none⟩
            (.ok id, store)
          push (.closure id)
      | other => throw (.typeMismatch "array" (← typeName other))
      return .next
  | .loadField name =>
      push (← Step.loadField registry (← pop) name)
      return .next
  | .storeField name =>
      let value ← pop
      let target ← pop
      Step.storeField registry target name value
      return .next
  | .loadStatic typeName name _ =>
      let type ← accessibleType registry typeName name
      match type.staticFields.find? name with
      | some value => push value
      | none => throw (.memberNotFound typeName name)
      return .next
  | .loadIndex =>
      let index ← pop
      let target ← pop
      Step.loadIndex registry target index
      return .next
  | .storeIndex =>
      let value ← pop
      let index ← pop
      let target ← pop
      Step.storeIndex registry target index value
      return .next
  | .makeArray count =>
      let items ← popMany count
      let id ← onStore fun store =>
        let (id, store) := store.allocArray items.toArray
        (.ok id, store)
      push (.array id)
      return .next
  | .getIterator =>
      let value ← pop
      push (← onStore value.toIterator)
      return .next
  | .iterMoveNext =>
      let id ← popIterator "ITER_NEXT"
      let advanced ← onStore fun store =>
        let (result, store) := store.advance id
        (result.mapError HostError.toFault, store)
      push (.bool advanced)
      return .next
  | .iterCurrent =>
      let id ← popIterator "ITER_CURRENT"
      push ((← store).iterator id).current
      return .next
  | .yieldValue => return .yielded (← pop)
  | .returnValue params => returnFrom params
  | .allocFrame locals =>
      pushUnits locals
      return .next
  | .checkStep =>
      match ← peek with
      | .int value => if value = 0 then throw .zeroForStep
      | .float value => if value.isZero then throw .zeroForStep
      | _ => pure ()
      return .next
  | .pushDebug context =>
      modify fun machine => { machine with debugStack := context :: machine.debugStack }
      return .next
  | .popDebug =>
      modify fun machine => { machine with debugStack := machine.debugStack.tail }
      return .next

end ScriptMachine
