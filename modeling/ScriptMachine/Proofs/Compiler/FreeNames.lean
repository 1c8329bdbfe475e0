import ScriptMachine.Compiler.FreeVariables

/-!
# Free names

A name is free in a part of a program if the part mentions it where it does not bind it itself. A
name is mentioned by reading it, by assigning to it and by calling it without a namespace. It is
bound by the parameters of an action in that action, by a `letVar` in the statements that follow in
the same block, and by a loop variable in the loop's body.

The walk that collects the names an action has to keep finds the free names of its body.
-/

namespace ScriptMachine

/-- Whether a statement binds a name for those that follow. -/
def Stmt.Binds (name : String) : Stmt → Prop
  | .letVar bound _ => bound = name
  | _ => False

mutual

/-- Whether a name is free in an expression. -/
def Expr.Free (name : String) : Expr → Prop
  | .literal _ => False
  | .var read => read = name
  | .binary _ left right => left.Free name ∨ right.Free name
  | .unary _ operand => operand.Free name
  | .call path called args => (path = [] ∧ called = name) ∨ Expr.ListFree name args
  | .methodCall receiver _ args => receiver.Free name ∨ Expr.ListFree name args
  | .invoke callee args => callee.Free name ∨ Expr.ListFree name args
  | .field target _ => target.Free name
  | .index target position => target.Free name ∨ position.Free name
  | .ifElse condition thenBody elseBody =>
      condition.Free name ∨ Stmt.ListFree name thenBody ∨ Stmt.BodyFree name elseBody
  | .action params body => name ∉ params ∧ Stmt.ListFree name body
  | .array items => Expr.ListFree name items
  | .await iterable => iterable.Free name

def Expr.ListFree (name : String) : List Expr → Prop
  | [] => False
  | item :: rest => item.Free name ∨ Expr.ListFree name rest

def Expr.OptionFree (name : String) : Option Expr → Prop
  | none => False
  | some value => value.Free name

/-- Whether a name is free in a statement. -/
def Stmt.Free (name : String) : Stmt → Prop
  | .letVar _ value => value.Free name
  | .assign assigned value => assigned = name ∨ value.Free name
  | .fieldAssign target _ value => target.Free name ∨ value.Free name
  | .indexAssign target position value => target.Free name ∨ position.Free name ∨ value.Free name
  | .whileLoop condition body => condition.Free name ∨ Stmt.ListFree name body
  | .forRange bound start stop step body =>
      start.Free name ∨ stop.Free name ∨ Expr.OptionFree name step ∨
        (bound ≠ name ∧ Stmt.ListFree name body)
  | .forEach bound iterable body => iterable.Free name ∨ (bound ≠ name ∧ Stmt.ListFree name body)
  | .breakLoop => False
  | .yieldValue value | .returnValue value => Expr.OptionFree name value
  | .expr value => value.Free name

/-- Whether a name is free in the statements of a block. -/
def Stmt.ListFree (name : String) : List Stmt → Prop
  | [] => False
  | statement :: rest =>
      statement.Free name ∨ (¬statement.Binds name ∧ Stmt.ListFree name rest)

def Stmt.BodyFree (name : String) : Option (List Stmt) → Prop
  | none => False
  | some body => Stmt.ListFree name body

end

namespace FreeVariables

theorem mem_mention {bound found : List String} {name mentioned : String} :
    name ∈ mention bound found mentioned ↔
      name ∈ found ∨ (name ∉ bound ∧ mentioned = name) := by
  unfold mention
  split
  · rename_i known
    simp only [Bool.or_eq_true, List.contains_iff_mem] at known
    grind
  · rename_i fresh
    simp only [Bool.or_eq_true, List.contains_iff_mem, not_or] at fresh
    grind

theorem mem_mentionAll {bound found names : List String} {name : String} :
    name ∈ mentionAll bound found names ↔ name ∈ found ∨ (name ∉ bound ∧ name ∈ names) := by
  unfold mentionAll
  induction names generalizing found with
  | nil => simp
  | cons first rest ih =>
      rw [List.foldl_cons, ih, mem_mention]
      grind

theorem mem_boundAfter {bound : List String} {statement : Stmt} {name : String} :
    name ∈ boundAfter bound statement ↔ name ∈ bound ∨ statement.Binds name := by
  cases statement <;> simp [boundAfter, Stmt.Binds, or_comm, eq_comm]

mutual

theorem mem_ofExpr {name : String} (expr : Expr) {bound found : List String} :
    name ∈ ofExpr bound found expr ↔ name ∈ found ∨ (name ∉ bound ∧ expr.Free name) := by
  cases expr with
  | literal value => simp [ofExpr, Expr.Free]
  | var read => rw [ofExpr, mem_mention, Expr.Free]
  | binary operator left right =>
      rw [ofExpr, mem_ofExpr right, mem_ofExpr left, Expr.Free]
      grind
  | unary operator operand => rw [ofExpr, mem_ofExpr operand, Expr.Free]
  | call path called args =>
      rw [ofExpr, mem_ofExprs args, Expr.Free]
      cases path with
      | nil =>
          rw [List.isEmpty_nil, if_pos rfl, mem_mention]
          grind
      | cons => simp
  | methodCall receiver member args =>
      rw [ofExpr, mem_ofExprs args, mem_ofExpr receiver, Expr.Free]
      grind
  | invoke callee args =>
      rw [ofExpr, mem_ofExprs args, mem_ofExpr callee, Expr.Free]
      grind
  | field target member => rw [ofExpr, mem_ofExpr target, Expr.Free]
  | index target position =>
      rw [ofExpr, mem_ofExpr position, mem_ofExpr target, Expr.Free]
      grind
  | ifElse condition thenBody elseBody =>
      rw [ofExpr, mem_ofBody elseBody, mem_ofBlock thenBody, mem_ofExpr condition, Expr.Free]
      grind
  | action params body =>
      rw [ofExpr, mem_mentionAll, mem_ofBlock body, Expr.Free]
      simp
  | array items => rw [ofExpr, mem_ofExprs items, Expr.Free]
  | await iterable => rw [ofExpr, mem_ofExpr iterable, Expr.Free]
termination_by structural expr

theorem mem_ofExprs {name : String} (items : List Expr) {bound found : List String} :
    name ∈ ofExprs bound found items ↔
      name ∈ found ∨ (name ∉ bound ∧ Expr.ListFree name items) := by
  cases items with
  | nil => simp [ofExprs, Expr.ListFree]
  | cons item rest =>
      rw [ofExprs, mem_ofExprs rest, mem_ofExpr item, Expr.ListFree]
      grind
termination_by structural items

theorem mem_ofOption {name : String} (value : Option Expr) {bound found : List String} :
    name ∈ ofOption bound found value ↔
      name ∈ found ∨ (name ∉ bound ∧ Expr.OptionFree name value) := by
  cases value with
  | none => simp [ofOption, Expr.OptionFree]
  | some value => rw [ofOption, mem_ofExpr value, Expr.OptionFree]
termination_by structural value

theorem mem_ofBlock {name : String} (body : List Stmt) {bound found : List String} :
    name ∈ ofBlock bound found body ↔
      name ∈ found ∨ (name ∉ bound ∧ Stmt.ListFree name body) := by
  cases body with
  | nil => simp [ofBlock, Stmt.ListFree]
  | cons statement rest =>
      rw [ofBlock, mem_ofBlock rest, mem_ofStmt statement, mem_boundAfter, Stmt.ListFree]
      grind
termination_by structural body

theorem mem_ofBody {name : String} (body : Option (List Stmt)) {bound found : List String} :
    name ∈ ofBody bound found body ↔
      name ∈ found ∨ (name ∉ bound ∧ Stmt.BodyFree name body) := by
  cases body with
  | none => simp [ofBody, Stmt.BodyFree]
  | some body => rw [ofBody, mem_ofBlock body, Stmt.BodyFree]
termination_by structural body

theorem mem_ofStmt {name : String} (statement : Stmt) {bound found : List String} :
    name ∈ ofStmt bound found statement ↔
      name ∈ found ∨ (name ∉ bound ∧ statement.Free name) := by
  cases statement with
  | letVar introduced value => rw [ofStmt, mem_ofExpr value, Stmt.Free]
  | assign assigned value =>
      rw [ofStmt, mem_ofExpr value, mem_mention, Stmt.Free]
      grind
  | fieldAssign target member value =>
      rw [ofStmt, mem_ofExpr value, mem_ofExpr target, Stmt.Free]
      grind
  | indexAssign target position value =>
      rw [ofStmt, mem_ofExpr value, mem_ofExpr position, mem_ofExpr target, Stmt.Free]
      grind
  | whileLoop condition body =>
      rw [ofStmt, mem_ofBlock body, mem_ofExpr condition, Stmt.Free]
      grind
  | forRange counter start stop step body =>
      rw [ofStmt, mem_ofBlock body, mem_ofOption step, mem_ofExpr stop, mem_ofExpr start, Stmt.Free]
      grind
  | forEach element iterable body =>
      rw [ofStmt, mem_ofBlock body, mem_ofExpr iterable, Stmt.Free]
      grind
  | breakLoop => simp [ofStmt, Stmt.Free]
  | yieldValue value => rw [ofStmt, mem_ofOption value, Stmt.Free]
  | returnValue value => rw [ofStmt, mem_ofOption value, Stmt.Free]
  | expr value => rw [ofStmt, mem_ofExpr value, Stmt.Free]
termination_by structural statement

end

end FreeVariables

/-- The free variables of an action are the free names of its body but for its parameters. -/
theorem mem_freeVariables {params : List String} {body : List Stmt} {name : String} :
    name ∈ freeVariables params body ↔ name ∉ params ∧ Stmt.ListFree name body := by
  simp [freeVariables, FreeVariables.mem_ofBlock]

end ScriptMachine
