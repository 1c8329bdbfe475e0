import ScriptMachine.Proofs.Balance.Frames

/-!
# What a step changes

A step changes little of a tower. Most instructions take operands off the running frame, have an
effect on the store and leave operands in their place. The others copy a value out of a slot or into
one, make room for the locals, note the running function for fault reports, put a frame on top of the
caller's or take the topmost one off.

`Change` lists these possibilities, with all that the machine after the step is made of. Whatever is
to be known of every run follows from it, case by case, and needs no look into a step.
-/

namespace ScriptMachine

section Operands

variable (surroundings : Surroundings) (behind : Nat) (store : Store)

/-- What an instruction that leaves slots and frames alone makes of the operands that it takes: the
operands in their place, the store after it and the place where the machine goes on. -/
inductive Instruction.Works :
    Instruction → List Value → List Value → Store → Nat → Prop
  | nop : Works .nop [] [] store behind
  | pushConst {constant : Constant} :
      Works (.pushConst constant) [] [.ofConstant constant] store behind
  | loadStatic {typeName name : String} {bound : Bool} {value : Value} {later : Store}
      (gives : Effect.loadStatic surroundings.registry typeName name store = (.ok value, later)) :
      Works (.loadStatic typeName name bound) [] [value] later behind
  | pop {value : Value} : Works .pop [value] [] store behind
  | yieldValue {value : Value} : Works .yieldValue [value] [] store behind
  | checkStep {value : Value} : Works .checkStep [value] [value] store behind
  | unary {operator : UnaryOp} {operand value : Value} {later : Store}
      (gives : Effect.unary operator operand store = (.ok value, later)) :
      Works (.unary operator) [operand] [value] later behind
  | binary {operator : BinaryOp} {left right value : Value} {later : Store}
      (gives : Effect.binary surroundings.registry operator left right store =
        (.ok value, later)) :
      Works (.binary operator) [left, right] [value] later behind
  | loadField {name : String} {target value : Value} {later : Store}
      (gives : Effect.loadField surroundings.registry target name store = (.ok value, later)) :
      Works (.loadField name) [target] [value] later behind
  | storeField {name : String} {target value : Value} {later : Store}
      (gives : Effect.storeField surroundings.registry target name value store =
        (.ok (), later)) :
      Works (.storeField name) [target, value] [] later behind
  | loadIndex {target index value : Value} {later : Store}
      (gives : Effect.loadIndex surroundings.registry target index store = (.ok value, later)) :
      Works .loadIndex [target, index] [value] later behind
  | storeIndex {target index value : Value} {later : Store}
      (gives : Effect.storeIndex surroundings.registry target index value store =
        (.ok (), later)) :
      Works .storeIndex [target, index, value] [] later behind
  | callHost {name : String} {binding : Option HostFunctionRef} {args : List Value} {value : Value}
      {later : Store}
      (gives : Effect.callNamed surroundings.registry name binding args store =
        (.ok value, later)) :
      Works (.callHost name args.length binding) args [value] later behind
  | callStatic {typeName name : String} {bound : Bool} {args : List Value} {value : Value}
      {later : Store}
      (gives : Effect.callStatic surroundings.registry typeName name args store =
        (.ok value, later)) :
      Works (.callStatic typeName name args.length bound) args [value] later behind
  | callMethod {name : String} {receiver value : Value} {args : List Value} {later : Store}
      (gives : Effect.callMember surroundings.registry receiver name args store =
        (.ok (.value value), later)) :
      Works (.callMethod name args.length) (receiver :: args) [value] later behind
  | makeArray {items : List Value} :
      Works (.makeArray items.length) items [.array (store.allocArray items.toArray).1]
        (store.allocArray items.toArray).2 behind
  | makeClosure {function : FunctionRef} {captures : ArrayId} :
      Works (.makeClosure function) [.array captures]
        [.closure (store.allocClosure ⟨function, captures, none⟩).1]
        (store.allocClosure ⟨function, captures, none⟩).2 behind
  | getIterator {value iterator : Value} {later : Store}
      (gives : value.toIterator store = (.ok iterator, later)) :
      Works .getIterator [value] [iterator] later behind
  | iterMoveNext {id : IteratorId} {advanced : Bool} {later : Store}
      (gives : Effect.moveNext id store = (.ok advanced, later)) :
      Works .iterMoveNext [.iterator id] [.bool advanced] later behind
  | iterCurrent {id : IteratorId} :
      Works .iterCurrent [.iterator id] [(store.iterator id).current] store behind
  | jump {target : Nat} : Works (.jump target) [] [] store target
  | falseJumps {target : Nat} {value : Value} (truth : value.isTruthy = false) :
      Works (.jumpIfFalse target) [value] [] store target
  | falseStays {target : Nat} {value : Value} (truth : value.isTruthy = true) :
      Works (.jumpIfFalse target) [value] [] store behind
  | falseKeeps {target : Nat} {value : Value} (truth : value.isTruthy = false) :
      Works (.jumpIfFalseKeep target) [value] [value] store target
  | falseDrops {target : Nat} {value : Value} (truth : value.isTruthy = true) :
      Works (.jumpIfFalseKeep target) [value] [] store behind
  | trueKeeps {target : Nat} {value : Value} (truth : value.isTruthy = true) :
      Works (.jumpIfTrueKeep target) [value] [value] store target
  | trueDrops {target : Nat} {value : Value} (truth : value.isTruthy = false) :
      Works (.jumpIfTrueKeep target) [value] [] store behind

/-- What a call makes of the operands that it takes: the arguments of the function, the store after
it and the entry of the function. A closure gives its place to the values that it keeps. -/
inductive Instruction.Calls :
    Instruction → List Value → List Value → Store → FunctionEntry → Prop
  | function {function : FunctionRef} {args : List Value} {entry : FunctionEntry}
      (found : surroundings.program.lookup? function.path function.name = some entry)
      (arity : entry.arity = args.length) :
      Calls (.callFunction function args.length) args args store entry
  | closure {id : ClosureId} {args : List Value} {entry : FunctionEntry} {later : Store}
      (known : (Value.closure id).Known store)
      (found : surroundings.program.lookup? (store.closure id).function.path
        (store.closure id).function.name = some entry)
      (arity : entry.arity = args.length + 1)
      (resolves : Effect.resolveClosure surroundings.program id (args.length + 1) store =
        (.ok entry.offset, later)) :
      Calls (.invokeClosure args.length) (.closure id :: args)
        (.array (store.closure id).captures :: args) later entry
  | member {name : String} {receiver : Value} {id : ClosureId} {args : List Value}
      {entry : FunctionEntry} {middle later : Store}
      (gives : Effect.callMember surroundings.registry receiver name args store =
        (.ok (.closure id), middle))
      (known : (Value.closure id).Known middle)
      (found : surroundings.program.lookup? (middle.closure id).function.path
        (middle.closure id).function.name = some entry)
      (arity : entry.arity = args.length + 1)
      (resolves : Effect.resolveClosure surroundings.program id (args.length + 1) middle =
        (.ok entry.offset, later)) :
      Calls (.callMethod name args.length) (receiver :: args)
        (.array (later.closure id).captures :: args) later entry

end Operands

/-- What a step changes of a tower, of the functions noted for reports and of the store. Behind the
instruction is `behind`. -/
inductive Change (surroundings : Surroundings) (tower : Tower) (behind : Nat)
    (debug : List DebugContext) (store : Store) :
    Instruction → Tower → Nat → List DebugContext → Store → Prop
  | works {instruction : Instruction} {below taken left : List Value} {there : Nat} {later : Store}
      (operands : tower.active.operands = below ++ taken)
      (works : instruction.Works surroundings behind store taken left later there) :
      Change surroundings tower behind debug store instruction (tower.withOperands (below ++ left))
        there debug later
  | loadLocal {slot : Nat} {value : Value} (found : tower.active.slots[slot]? = some value) :
      Change surroundings tower behind debug store (.loadLocal slot)
        (tower.withOperands (tower.active.operands ++ [value])) behind debug store
  | storeLocal {slot : Nat} {below : List Value} {value : Value}
      (operands : tower.active.operands = below ++ [value])
      (valid : tower.active.shape.HasSlot slot) (inside : slot < tower.active.slots.length) :
      Change surroundings tower behind debug store (.storeLocal slot)
        ⟨tower.globals, ⟨tower.active.shape, tower.active.slots.set slot value, below⟩,
          tower.callers⟩ behind debug store
  | loadGlobal {slot : Nat} {value : Value} (found : tower.globals[slot]? = some value) :
      Change surroundings tower behind debug store (.loadGlobal slot)
        (tower.withOperands (tower.active.operands ++ [value])) behind debug store
  | storeGlobal {slot : Nat} {below : List Value} {value : Value}
      (operands : tower.active.operands = below ++ [value])
      (inside : slot < tower.globals.length) :
      Change surroundings tower behind debug store (.storeGlobal slot)
        ⟨tower.globals.set slot value, { tower.active with operands := below }, tower.callers⟩
        behind debug
        (Effect.storeGlobal surroundings.registry surroundings.program.globals[slot]? value store).2
  | allocFrame (operands : tower.active.operands = []) :
      Change surroundings tower behind debug store (.allocFrame tower.active.shape.locals)
        ⟨tower.globals, ⟨tower.active.shape,
          tower.active.slots ++ List.replicate tower.active.shape.locals .unit, []⟩, tower.callers⟩
        behind debug store
  | pushDebug {context : DebugContext} :
      Change surroundings tower behind debug store (.pushDebug context) tower behind
        (context :: debug) store
  | popDebug : Change surroundings tower behind debug store .popDebug tower behind debug.tail store
  | call {instruction : Instruction} {below taken args : List Value} {shape : Shape}
      {entry : FunctionEntry} {later : Store} (arity : shape.arity = entry.arity)
      (operands : tower.active.operands = below ++ taken)
      (calls : instruction.Calls surroundings store taken args later entry) :
      Change surroundings tower behind debug store instruction
        ⟨tower.globals,
          ⟨shape, args ++ headerWords tower.base behind, []⟩,
          { tower.active with operands := below } :: tower.callers⟩
        entry.offset debug later
  | leave {below : List Value} {value : Value} {caller : Activation} {rest : List Activation}
      {there : Nat} (operands : tower.active.operands = below ++ [value])
      (callers : tower.callers = caller :: rest)
      (header : tower.active.Header (tower.globals ++ content rest).length there) :
      Change surroundings tower behind debug store (.returnValue tower.active.shape.arity)
        ⟨tower.globals, { caller with operands := caller.operands ++ [value] }, rest⟩
        there debug store

section Shapes

variable {surroundings : Surroundings} {tower : Tower} {behind there : Nat}
  {debug : List DebugContext} {store later : Store} {instruction : Instruction}
  {below taken : List Value}

theorem Change.takes (operands : tower.active.operands = below ++ taken)
    (works : instruction.Works surroundings behind store taken [] later there) :
    Change surroundings tower behind debug store instruction (tower.withOperands below) there debug
      later := by
  have change : Change surroundings tower behind debug store instruction
    (tower.withOperands (below ++ [])) there debug later := .works operands works
  rwa [List.append_nil] at change

theorem Change.rests (operands : tower.active.operands = below ++ taken)
    (works : instruction.Works surroundings behind store taken taken later there) :
    Change surroundings tower behind debug store instruction tower there debug later := by
  have change : Change surroundings tower behind debug store instruction
    (tower.withOperands (below ++ taken)) there debug later := .works operands works
  rwa [← operands] at change

end Shapes

/-- What a fault leaves on the stack: the slots of all frames and what the callers wait with. -/
structure Tower.Stops (tower : Tower) (capacity : Nat) (debug : List DebugContext)
    (later : Machine) : Prop where
  stack : ∃ more, later.stack = .ofList capacity (tower.floor ++ more)
  debug : later.debugStack = debug

end ScriptMachine
