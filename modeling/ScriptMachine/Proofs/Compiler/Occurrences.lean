import ScriptMachine.Proofs.Compiler.Literals

/-!
# Action literals in the source

The literals of a function are met one level at a time: those in its body when it is lowered, those
inside them when they are lowered themselves. Here all of them are read off the source at once,
whatever they keep and whatever they will be called. Level by level the same literals are met, each
as often as it is written.
-/

namespace ScriptMachine

/-- An action literal where it is written. -/
structure Occurrence where
  unit : String
  path : List String
  params : List String
  body : List Stmt

mutual

/-- The action literals of an expression, those inside other literals included. -/
def Expr.occurrences (unit : String) (path : List String) : Expr → List Occurrence
  | .literal _ | .var _ => []
  | .binary _ left right => left.occurrences unit path ++ right.occurrences unit path
  | .unary _ operand => operand.occurrences unit path
  | .call _ _ args => Expr.listOccurrences unit path args
  | .methodCall receiver _ args =>
      receiver.occurrences unit path ++ Expr.listOccurrences unit path args
  | .invoke callee args => callee.occurrences unit path ++ Expr.listOccurrences unit path args
  | .field target _ => target.occurrences unit path
  | .index target position => target.occurrences unit path ++ position.occurrences unit path
  | .ifElse condition thenBody elseBody =>
      condition.occurrences unit path ++ Stmt.listOccurrences unit path thenBody ++
        Stmt.bodyOccurrences unit path elseBody
  | .action params body => ⟨unit, path, params, body⟩ :: Stmt.listOccurrences unit path body
  | .array items => Expr.listOccurrences unit path items
  | .await iterable => iterable.occurrences unit path

def Expr.listOccurrences (unit : String) (path : List String) : List Expr → List Occurrence
  | [] => []
  | item :: rest => item.occurrences unit path ++ Expr.listOccurrences unit path rest

def Expr.optionOccurrences (unit : String) (path : List String) : Option Expr → List Occurrence
  | none => []
  | some value => value.occurrences unit path

/-- The action literals of a statement. A numeric loop has its stop and its step before its start. -/
def Stmt.occurrences (unit : String) (path : List String) : Stmt → List Occurrence
  | .letVar _ value | .assign _ value => value.occurrences unit path
  | .fieldAssign target _ value => target.occurrences unit path ++ value.occurrences unit path
  | .indexAssign target position value =>
      target.occurrences unit path ++ position.occurrences unit path ++ value.occurrences unit path
  | .whileLoop condition body =>
      condition.occurrences unit path ++ Stmt.listOccurrences unit path body
  | .forRange _ start stop step body =>
      stop.occurrences unit path ++ Expr.optionOccurrences unit path step ++
        start.occurrences unit path ++ Stmt.listOccurrences unit path body
  | .forEach _ iterable body =>
      iterable.occurrences unit path ++ Stmt.listOccurrences unit path body
  | .breakLoop => []
  | .yieldValue value | .returnValue value => Expr.optionOccurrences unit path value
  | .expr value => value.occurrences unit path

def Stmt.listOccurrences (unit : String) (path : List String) : List Stmt → List Occurrence
  | [] => []
  | statement :: rest => statement.occurrences unit path ++ Stmt.listOccurrences unit path rest

def Stmt.bodyOccurrences (unit : String) (path : List String) : Option (List Stmt) → List Occurrence
  | none => []
  | some body => Stmt.listOccurrences unit path body

end

/-- The action literals in the functions of a unit. -/
def ProgramUnit.occurrences (unit : ProgramUnit) : List Occurrence :=
  unit.functions.flatMap fun function => Stmt.listOccurrences unit.name unit.path function.body

/-! ## One level at a time -/

/-- A literal and those inside it. -/
def ActionLiteral.occurrences (unit : String) (path : List String) (literal : ActionLiteral) :
    List Occurrence :=
  ⟨unit, path, literal.params, literal.body⟩ :: Stmt.listOccurrences unit path literal.body

mutual

theorem Expr.flatMap_literals (unit : String) (path kept names : List String) (expr : Expr) :
    (expr.literals kept names).flatMap (ActionLiteral.occurrences unit path) =
      expr.occurrences unit path := by
  cases expr with
  | literal => rfl
  | var => rfl
  | binary operator left right =>
      rw [Expr.literals, List.flatMap_append, left.flatMap_literals, right.flatMap_literals,
        Expr.occurrences]
  | unary operator operand => exact operand.flatMap_literals unit path kept names
  | call _ name args => exact Expr.flatMap_listLiterals unit path kept names args
  | methodCall receiver name args =>
      rw [Expr.literals, List.flatMap_append, receiver.flatMap_literals, Expr.flatMap_listLiterals,
        Expr.occurrences]
  | invoke callee args =>
      rw [Expr.literals, List.flatMap_append, callee.flatMap_literals, Expr.flatMap_listLiterals,
        Expr.occurrences]
  | field target name => exact target.flatMap_literals unit path kept names
  | index target position =>
      rw [Expr.literals, List.flatMap_append, target.flatMap_literals, position.flatMap_literals,
        Expr.occurrences]
  | ifElse condition thenBody elseBody =>
      rw [Expr.literals, List.flatMap_append, List.flatMap_append, condition.flatMap_literals,
        Stmt.flatMap_listLiterals, Stmt.flatMap_bodyLiterals, Expr.occurrences]
  | action params body => exact List.append_nil _
  | array items => exact Expr.flatMap_listLiterals unit path kept names items
  | await iterable => exact iterable.flatMap_literals unit path kept names
termination_by structural expr

theorem Expr.flatMap_listLiterals (unit : String) (path kept names : List String)
    (items : List Expr) :
    (Expr.listLiterals kept names items).flatMap (ActionLiteral.occurrences unit path) =
      Expr.listOccurrences unit path items := by
  cases items with
  | nil => rfl
  | cons item rest =>
      rw [Expr.listLiterals, List.flatMap_append, item.flatMap_literals,
        Expr.flatMap_listLiterals unit path kept names rest, Expr.listOccurrences]
termination_by structural items

theorem Expr.flatMap_optionLiterals (unit : String) (path kept names : List String)
    (value : Option Expr) :
    (Expr.optionLiterals kept names value).flatMap (ActionLiteral.occurrences unit path) =
      Expr.optionOccurrences unit path value := by
  cases value with
  | none => rfl
  | some value => exact value.flatMap_literals unit path kept names
termination_by structural value

theorem Stmt.flatMap_literals (unit : String) (path kept names : List String) (statement : Stmt) :
    (statement.literals kept names).flatMap (ActionLiteral.occurrences unit path) =
      statement.occurrences unit path := by
  cases statement with
  | letVar name value => exact value.flatMap_literals unit path kept names
  | assign name value => exact value.flatMap_literals unit path kept names
  | fieldAssign target name value =>
      rw [Stmt.literals, List.flatMap_append, target.flatMap_literals, value.flatMap_literals,
        Stmt.occurrences]
  | indexAssign target position value =>
      rw [Stmt.literals, List.flatMap_append, List.flatMap_append, target.flatMap_literals,
        position.flatMap_literals, value.flatMap_literals, Stmt.occurrences]
  | whileLoop condition body =>
      rw [Stmt.literals, List.flatMap_append, condition.flatMap_literals, Stmt.flatMap_listLiterals,
        Stmt.occurrences]
  | forRange name start stop step body =>
      rw [Stmt.literals, List.flatMap_append, List.flatMap_append, List.flatMap_append,
        stop.flatMap_literals, Expr.flatMap_optionLiterals, start.flatMap_literals,
        Stmt.flatMap_listLiterals, Stmt.occurrences]
  | forEach name iterable body =>
      rw [Stmt.literals, List.flatMap_append, iterable.flatMap_literals, Stmt.flatMap_listLiterals,
        Stmt.occurrences]
  | breakLoop => rfl
  | yieldValue value => exact Expr.flatMap_optionLiterals unit path kept names value
  | returnValue value => exact Expr.flatMap_optionLiterals unit path kept names value
  | expr value => exact value.flatMap_literals unit path kept names
termination_by structural statement

theorem Stmt.flatMap_listLiterals (unit : String) (path kept names : List String)
    (body : List Stmt) :
    (Stmt.listLiterals kept names body).flatMap (ActionLiteral.occurrences unit path) =
      Stmt.listOccurrences unit path body := by
  cases body with
  | nil => rfl
  | cons statement rest =>
      rw [Stmt.listLiterals, List.flatMap_append, statement.flatMap_literals,
        Stmt.flatMap_listLiterals unit path kept (statement.names names) rest, Stmt.listOccurrences]
termination_by structural body

theorem Stmt.flatMap_bodyLiterals (unit : String) (path kept names : List String)
    (body : Option (List Stmt)) :
    (Stmt.bodyLiterals kept names body).flatMap (ActionLiteral.occurrences unit path) =
      Stmt.bodyOccurrences unit path body := by
  cases body with
  | none => rfl
  | some body => exact Stmt.flatMap_listLiterals unit path kept names body
termination_by structural body

end

/-! ## The literals of functions -/

namespace FunctionSource

/-- Where a literal that became a function is written. -/
def occurrence (source : FunctionSource) : Occurrence :=
  ⟨source.unit, source.path, source.params, source.body⟩

/-- The literals inside a function. -/
def inside (source : FunctionSource) : List Occurrence :=
  Stmt.listOccurrences source.unit source.path source.body

theorem flatMap_nestedFrom (source : FunctionSource) (index : Nat)
    (literals : List ActionLiteral) :
    (source.nestedFrom index literals).flatMap (fun action => action.occurrence :: action.inside) =
      literals.flatMap (ActionLiteral.occurrences source.unit source.path) := by
  induction literals generalizing index with
  | nil => rfl
  | cons literal rest ih => exact congrArg _ (ih (index + 1))

/-- What is inside a function are its literals and what is inside them. -/
theorem flatMap_actions (source : FunctionSource) :
    source.actions.flatMap (fun action => action.occurrence :: action.inside) = source.inside := by
  rw [actions, flatMap_nestedFrom, Stmt.flatMap_listLiterals, inside]

end FunctionSource

theorem flatMap_inside_declaredSources (units : List ProgramUnit) :
    (declaredSources units).flatMap FunctionSource.inside =
      units.flatMap ProgramUnit.occurrences := by
  simp only [declaredSources, List.flatMap_assoc, List.flatMap_map]
  rfl

end ScriptMachine
