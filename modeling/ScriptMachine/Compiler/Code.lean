import ScriptMachine.Program.Basic

/-!
# Code under construction

Lowering returns lists of cells. A cell is an instruction, or stands for the jump that leaves the
innermost loop: where that loop ends is known only when its body is complete, and then `closeLoop`
fills the cells in. All other jumps are made with their target, since a piece of code is told where
it will stand.
-/

namespace ScriptMachine

/-- Why units cannot be compiled. -/
inductive CompileError where
  | undefinedVariable (name function : String)
  | breakOutsideLoop (function : String)
  | duplicateFunction (name : String)
  | tooManyParameters (function : String) (count limit : Nat)
  | noUnits
deriving DecidableEq, Repr

/-- The name of the kind of an error. -/
def CompileError.kind : CompileError → String
  | .undefinedVariable _ _ => "UndefinedVariable"
  | .breakOutsideLoop _ => "BreakOutsideLoop"
  | .duplicateFunction _ => "DuplicateFunction"
  | .tooManyParameters _ _ _ => "TooManyParameters"
  | .noUnits => "NoUnits"

def CompileError.message : CompileError → String
  | .undefinedVariable name function =>
      "undefined variable '" ++ name ++ "' in function '" ++ function ++ "'"
  | .breakOutsideLoop function => "'break' outside of a loop in function '" ++ function ++ "'"
  | .duplicateFunction name => "duplicate function '" ++ name ++ "'"
  | .tooManyParameters function count limit =>
      "function '" ++ function ++ "' declares " ++ toString count ++ " parameters (limit " ++
        toString limit ++ ")"
  | .noUnits => "no program units loaded"

/-- One place in a piece of code. -/
inductive CodeCell where
  | ready (instruction : Instruction)
  /-- The jump out of the innermost loop. -/
  | leaveLoop
deriving DecidableEq

/-- A piece of code under construction. -/
abbrev Code := List CodeCell

namespace Code

/-- Complete instructions as a piece of code. -/
def ofInstructions (instructions : List Instruction) : Code := instructions.map .ready

/-- A cell after the loop around it has been found to end at `stop`. -/
def closeCell (stop : Nat) : CodeCell → Instruction
  | .ready instruction => instruction
  | .leaveLoop => .jump stop

/-- Completes the body of a loop that ends at `stop`. -/
def closeLoop (stop : Nat) (code : Code) : List Instruction := code.map (closeCell stop)

end Code

/-- A function whose code is still to be made: a declared one, or an action literal. -/
structure FunctionSource where
  unit : String
  path : List String
  name : String
  params : List String
  body : List Stmt
  range : SourceRange
  /-- The names that an action keeps from its surroundings; a declared function keeps none. -/
  captures : Option (List String)

namespace FunctionSource

/-- The declared function of a unit. -/
def declared (unit : ProgramUnit) (function : FunctionDef) : FunctionSource :=
  ⟨unit.name, unit.path, function.name, function.params, function.body, function.range, none⟩

/-- How many hidden parameters there are: an action takes its captures as one. -/
def carrierCount (source : FunctionSource) : Nat := if source.captures.isSome then 1 else 0

/-- How many arguments a call passes. -/
def arity (source : FunctionSource) : Nat := source.params.length + source.carrierCount

def qualified (source : FunctionSource) : String := qualifiedName source.path source.name

end FunctionSource

/-- What all functions of a program can refer to. -/
structure Linkage where
  globals : List String
  declared : List FunctionRef

namespace Linkage

def isDeclared (linkage : Linkage) (path : List String) (name : String) : Bool :=
  linkage.declared.contains ⟨path, name⟩

/-- The namespace of the declared function that a call in namespace `current` means, if any. -/
def findFunction? (linkage : Linkage) (current path : List String) (name : String) :
    Option (List String) :=
  if path.isEmpty then
    if linkage.isDeclared current name then some current
    else if linkage.isDeclared [] name then some []
    else none
  else if linkage.isDeclared path name then some path
  else if linkage.isDeclared (current ++ path) name then some (current ++ path)
  else none

/-- The slot of a global, counted from `slot` on; of two globals with one name the later counts. -/
def globalSlotFrom? (slot : Nat) : List String → String → Option Nat
  | [], _ => none
  | global :: rest, name =>
      match globalSlotFrom? (slot + 1) rest name with
      | some found => some found
      | none => if global = name then some slot else none

def globalSlot? (linkage : Linkage) (name : String) : Option Nat :=
  globalSlotFrom? 0 linkage.globals name

end Linkage

end ScriptMachine
