import ScriptMachine.Number.Binary64

/-!
# Source trees

A program comes as units. A unit has a namespace and declares functions; a function body is a list
of statements over expressions. Statements and expressions are mutually recursive: an `ifElse` is an
expression with statements inside, and so is an action literal.
-/

namespace ScriptMachine

/-- A place in a unit's text. -/
structure Position where
  line : UInt32
  column : UInt32
deriving DecidableEq, Inhabited

/-- A part of a unit's text. -/
structure SourceRange where
  start : Position
  stop : Position
deriving DecidableEq, Inhabited

/-- The range that functions without one have. -/
def SourceRange.nowhere : SourceRange := ⟨⟨0, 0⟩, ⟨0, 0⟩⟩

def SourceRange.render (range : SourceRange) : String :=
  s!"{range.start.line}:{range.start.column}-{range.stop.line}:{range.stop.column}"

/-- Literal values. -/
inductive Literal where
  | unit
  | bool (value : Bool)
  | int (value : Int64)
  | float (value : Binary64)
  | str (text : String)
deriving DecidableEq, Inhabited

/-- Operators between two operands. -/
inductive BinaryOp where
  | add | sub | mul | div | mod | eq | ne | lt | le | gt | ge | and | or
deriving DecidableEq, Inhabited

namespace BinaryOp

/-- All operators, in the order of their declaration. -/
def all : List BinaryOp := [add, sub, mul, div, mod, eq, ne, lt, le, gt, ge, and, or]

/-- The sign that messages and listings show. -/
def symbol : BinaryOp → String
  | add => "+"
  | sub => "-"
  | mul => "*"
  | div => "/"
  | mod => "%"
  | eq => "=="
  | ne => "!="
  | lt => "<"
  | le => "<="
  | gt => ">"
  | ge => ">="
  | and => "&&"
  | or => "||"

/-- The name in source trees. -/
def name : BinaryOp → String
  | add => "Add"
  | sub => "Sub"
  | mul => "Mul"
  | div => "Div"
  | mod => "Mod"
  | eq => "Eq"
  | ne => "Ne"
  | lt => "Lt"
  | le => "Le"
  | gt => "Gt"
  | ge => "Ge"
  | and => "And"
  | or => "Or"

/-- The operator with a given name. -/
def ofName? (name : String) : Option BinaryOp := all.find? fun operator => operator.name = name

end BinaryOp

/-- Operators on one operand. -/
inductive UnaryOp where
  | neg | not
deriving DecidableEq, Inhabited

namespace UnaryOp

/-- All operators, in the order of their declaration. -/
def all : List UnaryOp := [neg, not]

/-- The sign that messages and listings show. -/
def symbol : UnaryOp → String
  | neg => "-"
  | not => "!"

/-- The name in source trees. -/
def name : UnaryOp → String
  | neg => "Neg"
  | not => "Not"

/-- The operator with a given name. -/
def ofName? (name : String) : Option UnaryOp := all.find? fun operator => operator.name = name

end UnaryOp

mutual

/-- Expressions; each leaves one value. -/
inductive Expr where
  | literal (value : Literal)
  | var (name : String)
  | binary (operator : BinaryOp) (left right : Expr)
  | unary (operator : UnaryOp) (operand : Expr)
  /-- A call by name: of a variable that holds an action, a declared function or a host function. -/
  | call (path : List String) (name : String) (args : List Expr)
  /-- A member call: on a value, or on a host type if the receiver is a name that is no variable. -/
  | methodCall (receiver : Expr) (name : String) (args : List Expr)
  /-- A call of whatever action an expression gives. -/
  | invoke (callee : Expr) (args : List Expr)
  | field (target : Expr) (name : String)
  | index (target position : Expr)
  | ifElse (condition : Expr) (thenBody : List Stmt) (elseBody : Option (List Stmt))
  /-- An action literal: a function value that keeps the variables it mentions. -/
  | action (params : List String) (body : List Stmt)
  | array (items : List Expr)
  /-- Passes on every element of an iterator and is worth the last one. -/
  | await (iterable : Expr)

/-- Statements. -/
inductive Stmt where
  | letVar (name : String) (value : Expr)
  | assign (name : String) (value : Expr)
  | fieldAssign (target : Expr) (name : String) (value : Expr)
  | indexAssign (target position value : Expr)
  | whileLoop (condition : Expr) (body : List Stmt)
  /-- Counts from start to stop, which is included, by a step that is one if not given. -/
  | forRange (name : String) (start stop : Expr) (step : Option Expr) (body : List Stmt)
  | forEach (name : String) (iterable : Expr) (body : List Stmt)
  | breakLoop
  | yieldValue (value : Option Expr)
  | returnValue (value : Option Expr)
  | expr (value : Expr)

end

/-- A declared function. -/
structure FunctionDef where
  name : String
  params : List String
  body : List Stmt
  range : SourceRange

/-- One loaded source file. -/
structure ProgramUnit where
  name : String
  path : List String
  functions : List FunctionDef

end ScriptMachine
