import ScriptMachine.Compiler.Lowering

/-!
# Compilation

The functions of all units are laid out one after the other in the order of their declaration. The
action literals met on the way follow, in the order in which they were met, and after them the
literals inside those. Every literal of the units is laid out once, so their number bounds the work.
-/

namespace ScriptMachine

/-- The most arguments that a function may take. -/
def parameterLimit : Nat := 65535

mutual

/-- How many action literals an expression holds, nested ones included. -/
def Expr.actionCount : Expr → Nat
  | .literal _ | .var _ => 0
  | .binary _ left right => left.actionCount + right.actionCount
  | .unary _ operand => operand.actionCount
  | .call _ _ args => Expr.listActionCount args
  | .methodCall receiver _ args => receiver.actionCount + Expr.listActionCount args
  | .invoke callee args => callee.actionCount + Expr.listActionCount args
  | .field target _ => target.actionCount
  | .index target position => target.actionCount + position.actionCount
  | .ifElse condition thenBody elseBody =>
      condition.actionCount + Stmt.listActionCount thenBody + Stmt.bodyActionCount elseBody
  | .action _ body => 1 + Stmt.listActionCount body
  | .array items => Expr.listActionCount items
  | .await iterable => iterable.actionCount

def Expr.listActionCount : List Expr → Nat
  | [] => 0
  | item :: rest => item.actionCount + Expr.listActionCount rest

def Expr.optionActionCount : Option Expr → Nat
  | none => 0
  | some value => value.actionCount

/-- How many action literals a statement holds, nested ones included. -/
def Stmt.actionCount : Stmt → Nat
  | .letVar _ value | .assign _ value => value.actionCount
  | .fieldAssign target _ value => target.actionCount + value.actionCount
  | .indexAssign target position value =>
      target.actionCount + position.actionCount + value.actionCount
  | .whileLoop condition body => condition.actionCount + Stmt.listActionCount body
  | .forRange _ start stop step body =>
      start.actionCount + stop.actionCount + Expr.optionActionCount step +
        Stmt.listActionCount body
  | .forEach _ iterable body => iterable.actionCount + Stmt.listActionCount body
  | .breakLoop => 0
  | .yieldValue value | .returnValue value => Expr.optionActionCount value
  | .expr value => value.actionCount

def Stmt.listActionCount : List Stmt → Nat
  | [] => 0
  | statement :: rest => statement.actionCount + Stmt.listActionCount rest

def Stmt.bodyActionCount : Option (List Stmt) → Nat
  | none => 0
  | some body => Stmt.listActionCount body

end

/-- The slots of the parameters, the last first, so that of two with one name the later counts. -/
def parameterScope (first : Nat) (params : List String) : List (String × Nat) :=
  (params.zipIdx first).reverse

/-- The code of a function that starts at `position`, and the action literals in it. -/
def lowerFunction (linkage : Linkage) (position : Nat) (source : FunctionSource) :
    Except CompileError (List Instruction × List FunctionSource) := do
  if parameterLimit < source.arity then
    throw (.tooManyParameters source.qualified source.arity parameterLimit)
  let frame : Frame := ⟨linkage, source⟩
  let site : Site := ⟨position + 2, parameterScope source.carrierCount source.params, 0, none⟩
  let (body, progress) ← (lowerStmts frame site source.body).run ⟨0, []⟩
  let stop := position + 2 + body.length
  return ([.allocFrame progress.locals,
      .pushDebug ⟨source.unit, source.qualified, source.range⟩] ++
      body.closeLoop stop ++ .pushConst .unit :: frame.leave,
    progress.actions)

/-- The functions laid out so far. -/
structure Assembly where
  instructions : Array Instruction
  namespaces : NamespaceNode

namespace Assembly

def empty : Assembly := ⟨#[], .empty⟩

/-- Lays out one function, and gives the action literals in it. -/
def place (assembly : Assembly) (linkage : Linkage) (source : FunctionSource) :
    Except CompileError (Assembly × List FunctionSource) := do
  let offset := assembly.instructions.size
  let (code, actions) ← lowerFunction linkage offset source
  let entry : FunctionEntry := ⟨offset, source.arity⟩
  return (⟨assembly.instructions ++ code.toArray,
    assembly.namespaces.insert source.path source.name entry⟩, actions)

/-- Lays out functions in order, and gives the action literals in all of them. -/
def placeAll (assembly : Assembly) (linkage : Linkage) :
    List FunctionSource → Except CompileError (Assembly × List FunctionSource)
  | [] => return (assembly, [])
  | source :: rest => do
      let (assembly, actions) ← assembly.place linkage source
      let (assembly, more) ← assembly.placeAll linkage rest
      return (assembly, actions ++ more)

/-- Lays out action literals, then the literals in them, and so on. The bound is the number of
literals that there are at all. -/
def placeActions (linkage : Linkage) :
    Nat → Assembly → List FunctionSource → Except CompileError Assembly
  | _, assembly, [] => return assembly
  | 0, assembly, _ :: _ => return assembly
  | bound + 1, assembly, source :: rest => do
      let (assembly, actions) ← assembly.place linkage source
      placeActions linkage bound assembly (rest ++ actions)

end Assembly

/-- The functions that the units declare, in order. -/
def declaredSources (units : List ProgramUnit) : List FunctionSource :=
  units.flatMap fun unit => unit.functions.map (FunctionSource.declared unit)

/-- The first function that has the namespace and name of an earlier one. -/
def firstDuplicate? : List FunctionRef → List FunctionRef → Option FunctionRef
  | _, [] => none
  | seen, function :: rest =>
      if seen.contains function then some function else firstDuplicate? (function :: seen) rest

/-- What every compiled program says about itself. -/
def compilerName : String := "marinescript 0.1.0"

/-- Compiles units together. The globals are named in the order of their slots. -/
def compileUnits (units : List ProgramUnit) (globals : List String) :
    Except CompileError Program := do
  if units.isEmpty then throw .noUnits
  let sources := declaredSources units
  let declared := sources.map fun source => (⟨source.path, source.name⟩ : FunctionRef)
  if let some function := firstDuplicate? [] declared then
    throw (.duplicateFunction function.render)
  let linkage : Linkage := ⟨globals, declared⟩
  let (assembly, actions) ← Assembly.empty.placeAll linkage sources
  let bound := sources.foldl (fun count source => count + Stmt.listActionCount source.body) 0
  let assembly ← Assembly.placeActions linkage bound assembly actions
  let unitNames := ",".intercalate (units.map ProgramUnit.name)
  return {
    instructions := assembly.instructions
    namespaces := assembly.namespaces
    globals := globals
    metadata := [("compiler", compilerName), ("units", unitNames)] }

end ScriptMachine
