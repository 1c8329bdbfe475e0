import ScriptMachine.Json.Basic
import ScriptMachine.Source.Basic

/-!
# Source trees as interchange trees

A record becomes an object with all its fields in the order of their declaration. A case of a choice
becomes an object whose one member has the case's name, or just the name if the case holds nothing.
An absent part is written as null, and so is a number that is not finite: the format has none.
-/

namespace ScriptMachine

/-- A list of names. -/
def Json.ofNames (names : List String) : Json := .array (names.map .string)

/-- A number of a program. -/
def Json.ofBinary64 (value : Binary64) : Json := if value.isFinite then .number value else .null

/-- A case that holds something. -/
def Json.ofCase (name : String) (content : Json) : Json := .object [(name, content)]

def Position.toJson (position : Position) : Json :=
  .object [("line", .integer position.line.toNat), ("column", .integer position.column.toNat)]

def SourceRange.toJson (range : SourceRange) : Json :=
  .object [("start", range.start.toJson), ("end", range.stop.toJson)]

def Literal.toJson : Literal → Json
  | .unit => .string "Unit"
  | .bool value => .ofCase "Bool" (.bool value)
  | .int value => .ofCase "Int" (.integer value.toInt)
  | .float value => .ofCase "Float" (.ofBinary64 value)
  | .str text => .ofCase "Str" (.string text)

mutual

def Expr.toJson : Expr → Json
  | .literal value => .ofCase "Literal" value.toJson
  | .var name => .ofCase "Variable" (.string name)
  | .binary operator left right =>
      .ofCase "Binary"
        (.object [("op", .string operator.name), ("lhs", left.toJson), ("rhs", right.toJson)])
  | .unary operator operand =>
      .ofCase "Unary" (.object [("op", .string operator.name), ("operand", operand.toJson)])
  | .call path name args =>
      .ofCase "Call"
        (.object [("namespace", .ofNames path), ("name", .string name),
          ("args", .array (Expr.listToJson args))])
  | .methodCall receiver name args =>
      .ofCase "MethodCall"
        (.object [("receiver", receiver.toJson), ("name", .string name),
          ("args", .array (Expr.listToJson args))])
  | .invoke callee args =>
      .ofCase "Invoke"
        (.object [("callee", callee.toJson), ("args", .array (Expr.listToJson args))])
  | .field target name =>
      .ofCase "Field" (.object [("target", target.toJson), ("name", .string name)])
  | .index target position =>
      .ofCase "Index" (.object [("target", target.toJson), ("index", position.toJson)])
  | .ifElse condition thenBody elseBody =>
      .ofCase "If"
        (.object [("cond", condition.toJson), ("then_body", .array (Stmt.listToJson thenBody)),
          ("else_body", Stmt.bodyToJson elseBody)])
  | .action params body =>
      .ofCase "Action"
        (.object [("params", .ofNames params), ("body", .array (Stmt.listToJson body))])
  | .array items => .ofCase "Array" (.array (Expr.listToJson items))
  | .await iterable => .ofCase "Await" iterable.toJson

def Expr.listToJson : List Expr → List Json
  | [] => []
  | item :: rest => item.toJson :: Expr.listToJson rest

def Expr.optionToJson : Option Expr → Json
  | none => .null
  | some value => value.toJson

def Stmt.toJson : Stmt → Json
  | .letVar name value =>
      .ofCase "Let" (.object [("name", .string name), ("value", value.toJson)])
  | .assign name value =>
      .ofCase "Assign" (.object [("name", .string name), ("value", value.toJson)])
  | .fieldAssign target name value =>
      .ofCase "FieldAssign"
        (.object [("target", target.toJson), ("field", .string name), ("value", value.toJson)])
  | .indexAssign target position value =>
      .ofCase "IndexAssign"
        (.object [("target", target.toJson), ("index", position.toJson), ("value", value.toJson)])
  | .whileLoop condition body =>
      .ofCase "While"
        (.object [("cond", condition.toJson), ("body", .array (Stmt.listToJson body))])
  | .forRange name start stop step body =>
      .ofCase "For"
        (.object [("var", .string name), ("start", start.toJson), ("end", stop.toJson),
          ("step", Expr.optionToJson step), ("body", .array (Stmt.listToJson body))])
  | .forEach name iterable body =>
      .ofCase "ForEach"
        (.object [("var", .string name), ("iterable", iterable.toJson),
          ("body", .array (Stmt.listToJson body))])
  | .breakLoop => .string "Break"
  | .yieldValue value => .ofCase "Yield" (Expr.optionToJson value)
  | .returnValue value => .ofCase "Return" (Expr.optionToJson value)
  | .expr value => .ofCase "Expr" value.toJson

def Stmt.listToJson : List Stmt → List Json
  | [] => []
  | statement :: rest => statement.toJson :: Stmt.listToJson rest

def Stmt.bodyToJson : Option (List Stmt) → Json
  | none => .null
  | some body => .array (Stmt.listToJson body)

end

def FunctionDef.toJson (function : FunctionDef) : Json :=
  .object [("name", .string function.name), ("params", .ofNames function.params),
    ("body", .array (Stmt.listToJson function.body)), ("range", function.range.toJson)]

def ProgramUnit.toJson (unit : ProgramUnit) : Json :=
  .object [("name", .string unit.name), ("namespace", .ofNames unit.path),
    ("functions", .array (unit.functions.map FunctionDef.toJson))]

end ScriptMachine
