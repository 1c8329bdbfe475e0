import ScriptMachine.Source.Basic

/-!
# Free variables of actions

The names that an action body mentions and does not bind itself, in the order of their first
mention. They are what an action may have to keep from its surroundings. A name that is called
counts, since a variable may hold an action; whether the surroundings bind it is not decided here.

The walk carries the names bound so far, `bound`, and the names found so far, `found`. A `letVar`
binds its name for the statements after it in the same block, and blocks inside expressions are
blocks like any other.
-/

namespace ScriptMachine

namespace FreeVariables

/-- Adds a mentioned name unless it is bound or already found. -/
def mention (bound found : List String) (name : String) : List String :=
  if bound.contains name || found.contains name then found else found ++ [name]

/-- Adds several mentioned names, one after the other. -/
def mentionAll (bound : List String) (found : List String) (names : List String) : List String :=
  names.foldl (mention bound) found

/-- The names bound after a statement of a block. -/
def boundAfter (bound : List String) : Stmt → List String
  | .letVar name _ => name :: bound
  | _ => bound

mutual

/-- The names found after an expression. -/
def ofExpr (bound found : List String) : Expr → List String
  | .literal _ => found
  | .var name => mention bound found name
  | .binary _ left right => ofExpr bound (ofExpr bound found left) right
  | .unary _ operand => ofExpr bound found operand
  | .call path name args =>
      ofExprs bound (if path.isEmpty then mention bound found name else found) args
  | .methodCall receiver _ args => ofExprs bound (ofExpr bound found receiver) args
  | .invoke callee args => ofExprs bound (ofExpr bound found callee) args
  | .field target _ => ofExpr bound found target
  | .index target position => ofExpr bound (ofExpr bound found target) position
  | .ifElse condition thenBody elseBody =>
      ofBody bound (ofBlock bound (ofExpr bound found condition) thenBody) elseBody
  | .action params body => mentionAll bound found (ofBlock params [] body)
  | .array items => ofExprs bound found items
  | .await iterable => ofExpr bound found iterable

/-- The names found after several expressions. -/
def ofExprs (bound found : List String) : List Expr → List String
  | [] => found
  | item :: rest => ofExprs bound (ofExpr bound found item) rest

/-- The names found after an expression that may be absent. -/
def ofOption (bound found : List String) : Option Expr → List String
  | none => found
  | some value => ofExpr bound found value

/-- The names found after the statements of a block. -/
def ofBlock (bound found : List String) : List Stmt → List String
  | [] => found
  | statement :: rest =>
      ofBlock (boundAfter bound statement) (ofStmt bound found statement) rest

/-- The names found after a block that may be absent. -/
def ofBody (bound found : List String) : Option (List Stmt) → List String
  | none => found
  | some body => ofBlock bound found body

/-- The names found after a statement. -/
def ofStmt (bound found : List String) : Stmt → List String
  | .letVar _ value => ofExpr bound found value
  | .assign name value => ofExpr bound (mention bound found name) value
  | .fieldAssign target _ value => ofExpr bound (ofExpr bound found target) value
  | .indexAssign target position value =>
      ofExpr bound (ofExpr bound (ofExpr bound found target) position) value
  | .whileLoop condition body => ofBlock bound (ofExpr bound found condition) body
  | .forRange name start stop step body =>
      ofBlock (name :: bound)
        (ofOption bound (ofExpr bound (ofExpr bound found start) stop) step) body
  | .forEach name iterable body => ofBlock (name :: bound) (ofExpr bound found iterable) body
  | .breakLoop => found
  | .yieldValue value => ofOption bound found value
  | .returnValue value => ofOption bound found value
  | .expr value => ofExpr bound found value

end

end FreeVariables

/-- The names that an action with these parameters and this body mentions and does not bind, in the
order of their first mention. -/
def freeVariables (params : List String) (body : List Stmt) : List String :=
  FreeVariables.ofBlock params [] body

end ScriptMachine
