import ScriptMachine.Host.TypeRef
import ScriptMachine.Number.Layout
import ScriptMachine.Source.Basic
import ScriptMachine.Text.Quoted

/-!
# Instructions

The closed set of operations that an engine carries out. Slots of locals count from the base of the
running frame, slots of globals from the bottom of the stack, and jumps name an instruction by its
index in the whole program.
-/

namespace ScriptMachine

/-- A value that an instruction carries. -/
inductive Constant where
  | unit
  | bool (value : Bool)
  | int (value : Int64)
  | float (value : Binary64)
  | str (text : String)
deriving DecidableEq, Inhabited

namespace Constant

/-- The constant of a literal. -/
def ofLiteral : Literal → Constant
  | .unit => .unit
  | .bool value => .bool value
  | .int value => .int value
  | .float value => .float value
  | .str text => .str text

def render : Constant → String
  | .unit => "unit"
  | .bool value => if value then "true" else "false"
  | .int value => toString value.toInt
  | .float value => Layout.exact.number value
  | .str text => Text.quoted text

end Constant

/-- A function of a program by its namespace and name. -/
structure FunctionRef where
  path : List String
  name : String
deriving DecidableEq, Inhabited

/-- A name behind its namespace, joined by dots. -/
def qualifiedName (path : List String) (name : String) : String :=
  ".".intercalate (path ++ [name])

def FunctionRef.render (function : FunctionRef) : String :=
  qualifiedName function.path function.name

/-- A host function by its name and parameter types. -/
structure HostFunctionRef where
  name : String
  signature : List TypeRef
deriving DecidableEq

def HostFunctionRef.render (function : HostFunctionRef) : String :=
  function.name ++ "(" ++ ", ".intercalate (TypeRef.renderAll function.signature) ++ ")"

/-- What a fault report says about an active function. -/
structure DebugContext where
  unit : String
  function : String
  range : SourceRange
deriving DecidableEq

def DebugContext.render (context : DebugContext) : String :=
  context.unit ++ "::" ++ context.function ++ " (" ++ context.range.render ++ ")"

/-- One operation of an engine. -/
inductive Instruction where
  | nop
  | pushConst (constant : Constant)
  | loadLocal (slot : Nat)
  | storeLocal (slot : Nat)
  | loadGlobal (slot : Nat)
  | storeGlobal (slot : Nat)
  | pop
  | binary (operator : BinaryOp)
  | unary (operator : UnaryOp)
  | jump (target : Nat)
  | jumpIfFalse (target : Nat)
  /-- Jumps and keeps the tested value if it is false, else drops it. -/
  | jumpIfFalseKeep (target : Nat)
  /-- Jumps and keeps the tested value if it is true, else drops it. -/
  | jumpIfTrueKeep (target : Nat)
  | callFunction (function : FunctionRef) (argc : Nat)
  | callHost (name : String) (argc : Nat) (binding : Option HostFunctionRef)
  /-- The receiver lies below the arguments. -/
  | callMethod (name : String) (argc : Nat)
  | callStatic (typeName name : String) (argc : Nat) (bound : Bool)
  /-- The closure lies below the arguments. -/
  | invokeClosure (argc : Nat)
  /-- Turns the array of captures on top into a closure. -/
  | makeClosure (function : FunctionRef)
  | loadField (name : String)
  | storeField (name : String)
  | loadStatic (typeName name : String) (bound : Bool)
  | loadIndex
  | storeIndex
  | makeArray (count : Nat)
  | getIterator
  | iterMoveNext
  | iterCurrent
  | yieldValue
  | returnValue (params : Nat)
  | allocFrame (locals : Nat)
  /-- Faults if the step on top is zero, else leaves it. -/
  | checkStep
  | pushDebug (context : DebugContext)
  | popDebug
deriving DecidableEq

namespace Instruction

/-- The word that a listing starts the instruction with. -/
def mnemonic : Instruction → String
  | .nop => "NOP"
  | .pushConst _ => "PUSH_CONST"
  | .loadLocal _ => "LOAD_LOCAL"
  | .storeLocal _ => "STORE_LOCAL"
  | .loadGlobal _ => "LOAD_GLOBAL"
  | .storeGlobal _ => "STORE_GLOBAL"
  | .pop => "POP"
  | .binary _ => "BINARY"
  | .unary _ => "UNARY"
  | .jump _ => "JUMP"
  | .jumpIfFalse _ => "JUMP_IF_FALSE"
  | .jumpIfFalseKeep _ => "JUMP_IF_FALSE_KEEP"
  | .jumpIfTrueKeep _ => "JUMP_IF_TRUE_KEEP"
  | .callFunction _ _ => "CALL"
  | .callHost _ _ _ => "CALL_HOST"
  | .callMethod _ _ => "CALL_METHOD"
  | .callStatic _ _ _ _ => "CALL_STATIC"
  | .invokeClosure _ => "INVOKE"
  | .makeClosure _ => "MAKE_CLOSURE"
  | .loadField _ => "LOAD_FIELD"
  | .storeField _ => "STORE_FIELD"
  | .loadStatic _ _ _ => "LOAD_STATIC"
  | .loadIndex => "LOAD_INDEX"
  | .storeIndex => "STORE_INDEX"
  | .makeArray _ => "MAKE_ARRAY"
  | .getIterator => "GET_ITER"
  | .iterMoveNext => "ITER_NEXT"
  | .iterCurrent => "ITER_CURRENT"
  | .yieldValue => "YIELD"
  | .returnValue _ => "RETURN"
  | .allocFrame _ => "ALLOC_FRAME"
  | .checkStep => "CHECK_STEP"
  | .pushDebug _ => "PUSH_DEBUG"
  | .popDebug => "POP_DEBUG"

/-- What a listing shows after the word, if anything. -/
def operandText : Instruction → Option String
  | .pushConst constant => some constant.render
  | .loadLocal slot | .storeLocal slot | .loadGlobal slot | .storeGlobal slot =>
      some (toString slot)
  | .allocFrame count | .makeArray count | .invokeClosure count => some (toString count)
  | .binary operator => some operator.symbol
  | .unary operator => some operator.symbol
  | .jump target | .jumpIfFalse target | .jumpIfFalseKeep target | .jumpIfTrueKeep target =>
      some ("-> " ++ Text.fourDigits target)
  | .callFunction function argc => some (function.render ++ "/" ++ toString argc)
  | .callHost name argc none => some (name ++ "/" ++ toString argc)
  | .callHost _ _ (some binding) => some binding.render
  | .callMethod name argc => some ("." ++ name ++ "/" ++ toString argc)
  | .callStatic typeName name argc _ => some (typeName ++ "." ++ name ++ "/" ++ toString argc)
  | .makeClosure function => some function.render
  | .loadField name | .storeField name => some ("." ++ name)
  | .loadStatic typeName name _ => some (typeName ++ "." ++ name)
  | .returnValue params => some ("params=" ++ toString params)
  | .pushDebug context => some context.render
  | _ => none

/-- The instruction as a listing shows it. -/
def render (instruction : Instruction) : String :=
  match instruction.operandText with
  | none => instruction.mnemonic
  | some operand => instruction.mnemonic ++ " " ++ operand

/-- Where a jump goes. -/
def jumpTarget? : Instruction → Option Nat
  | .jump target | .jumpIfFalse target | .jumpIfFalseKeep target | .jumpIfTrueKeep target =>
      some target
  | _ => none

end Instruction

end ScriptMachine
