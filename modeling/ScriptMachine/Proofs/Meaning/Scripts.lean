import ScriptMachine.Proofs.Compiler.Entries
import ScriptMachine.Proofs.Meaning.Evaluation

/-!
# What programs mean

The meaning of statements and expressions, by recursion on them. It knows nothing of instructions,
slots or frames: variables are found by name, a loop is gone round, a function is run.

* Operands are evaluated from left to right. `&&` and `||` stop at the operand that decides.
* A variable is in scope from its `let` to the end of the block. What an action keeps of its
  surroundings is an array of its own, the carrier, with the values that the names had when the
  action was made.
* A numeric loop evaluates its stop, its step and its start, in this order, then repeats test, body
  and increment. The header of a loop does not belong to its body.
* Globals are copied when a run starts. An assignment changes the copy and the cell of the host.

A closure is called by the name of its function, which is the name of the literal that made it. When
it is called first it notes where the code of the function was found. Hosts can see the note in the
store, so it is a parameter here: `Script.entries`.
-/

namespace ScriptMachine

/-! ## Numbers of literals -/

/-- How many action literals an expression holds, those inside other literals not counted. -/
def Expr.literalCount (expr : Expr) : Nat := (expr.literals [] []).length

def Expr.optionLiteralCount (value : Option Expr) : Nat := (Expr.optionLiterals [] [] value).length

def Stmt.literalCount (statement : Stmt) : Nat := (statement.literals [] []).length

def Stmt.listLiteralCount (body : List Stmt) : Nat := (Stmt.listLiterals [] [] body).length

/-! ## Scripts -/

/-- The functions that are a function's literals, and theirs, down to a depth. -/
def FunctionSource.family : Nat → FunctionSource → List FunctionSource
  | 0, source => [source]
  | depth + 1, source => source :: source.actions.flatMap (family depth)

/-- The functions of units: those declared, and all their literals. -/
def functionSources (units : List ProgramUnit) : List FunctionSource :=
  (declaredSources units).flatMap fun source => source.family (Stmt.listActionCount source.body)

/-- A program as it is written, and what it is run with. -/
structure Script where
  units : List ProgramUnit
  globals : List String
  registry : Registry
  /-- What a closure notes when it is called. -/
  entries : FunctionRef → Option FunctionEntry
  /-- How often a loop may go round. -/
  turns : Nat

namespace Script

/-- What the functions can refer to. -/
def linkage (script : Script) : Linkage :=
  ⟨script.globals, (declaredSources script.units).map FunctionSource.reference⟩

/-- The function with a name. -/
def definition? (script : Script) (function : FunctionRef) : Option FunctionSource :=
  (functionSources script.units).find? fun source => source.reference = function

end Script

/-- How functions are run: with a carrier if they are actions, and with arguments. -/
abbrev FunctionRun := FunctionSource → Option ArrayId → List Value → World → Ending × World

/-- Where a part of a program stands: in a function that is being run. -/
structure Standpoint where
  script : Script
  source : FunctionSource
  carrier : Option ArrayId
  runner : FunctionRun

/-- What a name stands for. -/
inductive Referent where
  | variable
  | kept (index : Nat)
  | globalSlot (slot : Nat)
deriving DecidableEq

namespace Standpoint

open Evaluation

/-! ## Names -/

/-- What a name stands for: the innermost variable, else what the action keeps, else a global. -/
def referent? (here : Standpoint) (bindings : List (String × Value)) (name : String) : Option Referent :=
  if (bindings.lookup name).isSome then some .variable
  else
    match here.source.kept.idxOf? name with
    | some index => some (.kept index)
    | none => (here.script.linkage.globalSlot? name).map .globalSlot

def referent (here : Standpoint) (name : String) : Evaluation (Option Referent) :=
  inspect fun scene => here.referent? scene.bindings name

/-- The carrier as a value. -/
def carried (here : Standpoint) : Value := here.carrier.elim .unit .array

/-- Reads a name. No name without a meaning passes compilation. -/
def read (here : Standpoint) (name : String) : Evaluation Value := do
  match ← here.referent name with
  | some .variable => inspect fun scene => (scene.bindings.lookup name).getD .unit
  | some (.kept index) =>
      effect (.loadIndex here.script.registry here.carried (.int (Int64.ofNat index)))
  | some (.globalSlot slot) => inspect fun scene => scene.world.globals.getD slot .unit
  | none => fault (.unknown name)

/-- Reads names in order. -/
def readAll (here : Standpoint) : List String → Evaluation (List Value)
  | [] => return []
  | name :: rest => do
      let value ← here.read name
      let values ← here.readAll rest
      return value :: values

/-- Variables after the innermost one of a name has got a value. -/
def assigned (name : String) (value : Value) : List (String × Value) → List (String × Value)
  | [] => []
  | (other, old) :: rest =>
      if name = other then (other, value) :: rest else (other, old) :: assigned name value rest

/-- Writes a name. -/
def write (here : Standpoint) (name : String) (value : Value) : Evaluation Unit := do
  match ← here.referent name with
  | some .variable =>
      update fun scene => { scene with bindings := assigned name value scene.bindings }
  | some (.kept index) =>
      effect (.storeIndex here.script.registry here.carried (.int (Int64.ofNat index)) value)
  | some (.globalSlot slot) => do
      effect (.storeGlobal here.script.registry (some name) value)
      update fun scene =>
        { scene with world := { scene.world with globals := scene.world.globals.set slot value } }
  | none => fault (.unknown name)

/-- The host type that a receiver names: a name that stands for nothing else. -/
def hostType (here : Standpoint) : Expr → Evaluation (Option String)
  | .var name => do if (← here.referent name).isNone then return some name else return none
  | _ => return none

/-! ## Calls -/

/-- Runs a function if it takes so many arguments. -/
def enter (here : Standpoint) (source : FunctionSource) (carrier : Option ArrayId)
    (args : List Value) : Evaluation Value :=
  if source.params.length = args.length then ofFunction (here.runner source carrier args)
  else
    fault (.argumentCount source.reference.render source.arity
      (args.length + source.carrierCount))

/-- Calls what a name that is no variable stands for: a declared function, else one of the host. -/
def callNamed (here : Standpoint) (path : List String) (name : String) (args : List Value) :
    Evaluation Value :=
  match here.script.linkage.findFunction? here.source.path path name with
  | some target =>
      match here.script.definition? ⟨target, name⟩ with
      | some source => here.enter source none args
      | none => fault (.functionNotFound (FunctionRef.render ⟨target, name⟩))
  | none => effect (.callNamed here.script.registry (qualifiedName path name) none args)

/-- Notes at a closure where its function was found, unless that is noted already. -/
def note (entries : FunctionRef → Option FunctionEntry) (id : ClosureId) : Effect Unit :=
  fun store =>
    match (store.closure id).resolved, entries (store.closure id).function with
    | none, some entry => (.ok (), store.resolveClosure id entry)
    | _, _ => (.ok (), store)

/-- Calls a closure, which hands its function the array with what it keeps. -/
def callClosure (here : Standpoint) (id : ClosureId) (args : List Value) : Evaluation Value := do
  let closure ← inspect fun scene => scene.world.store.closure id
  match here.script.definition? closure.function with
  | some source => do
      effect (note here.script.entries id)
      here.enter source (some closure.captures) args
  | none => fault (.functionNotFound closure.function.render)

/-- Calls a value. -/
def invoke (here : Standpoint) (callee : Value) (args : List Value) : Evaluation Value := do
  match callee with
  | .closure id => here.callClosure id args
  | other => fault (.notCallable (← inspect fun scene => other.typeName scene.world.store))

/-- Calls a member of a value. -/
def callMember (here : Standpoint) (receiver : Value) (name : String) (args : List Value) :
    Evaluation Value := do
  match ← effect (.callMember here.script.registry receiver name args) with
  | .value value => return value
  | .closure id => here.callClosure id args

/-- Makes the closure of the literal with a number, which keeps the values that its names have. -/
def close (here : Standpoint) (number : Nat) (params : List String) (body : List Stmt) :
    Evaluation Value := do
  let names ← inspect fun scene => scene.bindings.map Prod.fst
  let values ← here.readAll (keptNames here.source.kept names params body)
  let carrier ← effect (.makeArray values)
  let id ← effect (.makeClosure (here.source.literalReference number) carrier)
  return .closure id

/-- Whether a numeric loop goes on: counting down to the stop if the step is negative, else up. -/
def inRange (here : Standpoint) (name : String) (stop step : Value) : Evaluation Value := do
  let registry := here.script.registry
  let down ← effect (.binary registry .lt step (.int 0))
  let current ← here.read name
  effect (.binary registry (if down.isTruthy then .ge else .le) current stop)

/-- Counts the variable of a numeric loop on. -/
def advance (here : Standpoint) (name : String) (step : Value) : Evaluation Unit := do
  let current ← here.read name
  here.write name (← effect (.binary here.script.registry .add current step))

end Standpoint

/-- The truth of the first operand at which an operator stops, if it may. -/
def decidedBy? : BinaryOp → Option Bool
  | .and => some false
  | .or => some true
  | _ => none

/-! ## Expressions and statements -/

open Evaluation

mutual

/-- Evaluates an expression; `number` counts the literals in front of it in the function. -/
def Expr.eval (here : Standpoint) (number : Nat) : Expr → Evaluation Value
  | .literal value => return .ofConstant (.ofLiteral value)
  | .var name => here.read name
  | .binary operator left right => do
      let first ← left.eval here number
      match decidedBy? operator with
      | some truth =>
          if first.isTruthy = truth then return first
          else right.eval here (number + left.literalCount)
      | none => do
          let second ← right.eval here (number + left.literalCount)
          effect (.binary here.script.registry operator first second)
  | .unary operator operand => do
      let value ← operand.eval here number
      effect (.unary operator value)
  | .call path name args => do
      if path.isEmpty && (← here.referent name).isSome then
        let callee ← here.read name
        let values ← Expr.evalAll here number args
        here.invoke callee values
      else
        let values ← Expr.evalAll here number args
        here.callNamed path name values
  | .methodCall receiver name args => do
      match ← here.hostType receiver with
      | some typeName => do
          let values ← Expr.evalAll here number args
          effect (.callStatic here.script.registry typeName name values)
      | none => do
          let target ← receiver.eval here number
          let values ← Expr.evalAll here (number + receiver.literalCount) args
          here.callMember target name values
  | .invoke callee args => do
      let target ← callee.eval here number
      let values ← Expr.evalAll here (number + callee.literalCount) args
      here.invoke target values
  | .field target name => do
      match ← here.hostType target with
      | some typeName => effect (.loadStatic here.script.registry typeName name)
      | none => do
          let value ← target.eval here number
          effect (.loadField here.script.registry value name)
  | .index target position => do
      let value ← target.eval here number
      let place ← position.eval here (number + target.literalCount)
      effect (.loadIndex here.script.registry value place)
  | .ifElse condition thenBody elseBody => do
      let test ← condition.eval here number
      if test.isTruthy then
        block (Stmt.evalBlock here (number + condition.literalCount) thenBody)
      else
        block (Stmt.evalElse here
          (number + condition.literalCount + Stmt.listLiteralCount thenBody) elseBody)
  | .action params body => here.close number params body
  | .array items => do
      let values ← Expr.evalAll here number items
      return .array (← effect (.makeArray values))
  | .await iterable => do
      let source ← iterator (← iterable.eval here number)
      loop (fun _ => do
        match ← nextElement source with
        | some element => do
            emit element
            return some element
        | none => return none) here.script.turns .unit

/-- Evaluates expressions in order. -/
def Expr.evalAll (here : Standpoint) (number : Nat) : List Expr → Evaluation (List Value)
  | [] => return []
  | item :: rest => do
      let value ← item.eval here number
      let values ← Expr.evalAll here (number + item.literalCount) rest
      return value :: values

/-- Evaluates an expression that may be absent. -/
def Expr.evalOption (here : Standpoint) (number : Nat) (default : Constant) :
    Option Expr → Evaluation Value
  | none => return .ofConstant default
  | some value => value.eval here number

/-- Carries out the statements of a block, which is worth what a trailing expression gives. -/
def Stmt.evalBlock (here : Standpoint) (number : Nat) : List Stmt → Evaluation Value
  | [] => return .unit
  | [.expr value] => value.eval here number
  | statement :: rest => do
      statement.eval here number
      Stmt.evalBlock here (number + statement.literalCount) rest

/-- Carries out the other branch, which may be absent. -/
def Stmt.evalElse (here : Standpoint) (number : Nat) : Option (List Stmt) → Evaluation Value
  | none => return .unit
  | some body => Stmt.evalBlock here number body

/-- Carries out statements. -/
def Stmt.evalAll (here : Standpoint) (number : Nat) : List Stmt → Evaluation Unit
  | [] => return
  | statement :: rest => do
      statement.eval here number
      Stmt.evalAll here (number + statement.literalCount) rest

/-- Carries out a statement. -/
def Stmt.eval (here : Standpoint) (number : Nat) : Stmt → Evaluation Unit
  | .letVar name value => do declare name (← value.eval here number)
  | .assign name value => do here.write name (← value.eval here number)
  | .fieldAssign target name value => do
      let object ← target.eval here number
      let content ← value.eval here (number + target.literalCount)
      effect (.storeField here.script.registry object name content)
  | .indexAssign target position value => do
      let object ← target.eval here number
      let place ← position.eval here (number + target.literalCount)
      let content ← value.eval here (number + target.literalCount + position.literalCount)
      effect (.storeIndex here.script.registry object place content)
  | .whileLoop condition body =>
      discard <| loop (fun _ => do
        let test ← condition.eval here number
        if test.isTruthy then
          if ← untilLeft (Stmt.evalAll here (number + condition.literalCount) body) then
            return some ()
          else return none
        else return none) here.script.turns ()
  | .forRange name start stop step body => do
      let last ← stop.eval here number
      let stride ← Expr.evalOption here (number + stop.literalCount) (.int 1) step
      checkStep stride
      let first ← start.eval here (number + stop.literalCount + Expr.optionLiteralCount step)
      block do
        declare name first
        discard <| loop (fun _ => do
          let test ← here.inRange name last stride
          if test.isTruthy then
            if ← untilLeft (Stmt.evalAll here (number + stop.literalCount +
                Expr.optionLiteralCount step + start.literalCount) body) then
              here.advance name stride
              return some ()
            else return none
          else return none) here.script.turns ()
  | .forEach name iterable body => do
      let source ← iterator (← iterable.eval here number)
      discard <| loop (fun _ => do
        match ← nextElement source with
        | some element =>
            if ← untilLeft do
                declare name element
                Stmt.evalAll here (number + iterable.literalCount) body then
              return some ()
            else return none
        | none => return none) here.script.turns ()
  | .breakLoop => leaveLoop
  | .yieldValue value => do emit (← Expr.evalOption here number .unit value)
  | .returnValue value => do returnWith (← Expr.evalOption here number .unit value)
  | .expr value => do discard (value.eval here number)

end

/-! ## Functions -/

namespace Script

/-- Runs a function, with no more than so many functions active at a time. -/
def run (script : Script) : Nat → FunctionRun
  | 0, _, _, _, world => (none, world)
  | depth + 1, source, carrier, args, world =>
      let here : Standpoint := ⟨script, source, carrier, script.run depth⟩
      match Stmt.evalAll here 0 source.body ⟨(source.params.zip args).reverse, world⟩ with
      | (.normal _, scene) | (.leaves, scene) => (some (.ok .unit), scene.world)
      | (.returns value, scene) => (some (.ok value), scene.world)
      | (.faults fault, scene) => (some (.error fault), scene.world)
      | (.unfinished, scene) => (none, scene.world)

/-- Starts a declared function: its arguments are counted, the globals are copied, and it is run. -/
def start (script : Script) (depth : Nat) (source : FunctionSource) (args : List Value)
    (store : Store) : Ending × World :=
  if source.params.length ≠ args.length then
    (some (.error (.argumentCount source.qualified source.arity args.length)), ⟨[], store, []⟩)
  else
    match script.globals.find? fun name => (script.registry.global? store name).isNone with
    | some missing => (some (.error (.globalNotFound missing)), ⟨[], store, []⟩)
    | none =>
        script.run depth source none args
          ⟨script.globals.filterMap (script.registry.global? store), store, []⟩

end Script

end ScriptMachine
