import ScriptMachine.Proofs.Compiler.Layout

/-!
# Action literals of a function

An action literal is known by the function around it and by its number there: literals are numbered
in the order in which they are met, those inside other literals not counted. What a literal keeps of
its surroundings are the names that its body mentions and that are variables there.

This file reads the literals off a function's body, and shows that lowering meets these and no
others. So what is true of a program's functions can be seen from its source.
-/

namespace ScriptMachine

/-- An action literal with the names that it keeps. -/
structure ActionLiteral where
  params : List String
  body : List Stmt
  keeps : List String

/-- The names that a literal keeps, where some are variables and some are kept already. -/
def keptNames (kept names params : List String) (body : List Stmt) : List String :=
  (freeVariables params body).filter fun name => names.contains name || kept.contains name

/-- The names in scope behind a statement. -/
def Stmt.names (names : List String) : Stmt → List String
  | .letVar name _ => name :: names
  | _ => names

mutual

/-- The action literals of an expression in the order of their numbers. -/
def Expr.literals (kept names : List String) : Expr → List ActionLiteral
  | .literal _ | .var _ => []
  | .binary _ left right => left.literals kept names ++ right.literals kept names
  | .unary _ operand => operand.literals kept names
  | .call _ _ args => Expr.listLiterals kept names args
  | .methodCall receiver _ args =>
      receiver.literals kept names ++ Expr.listLiterals kept names args
  | .invoke callee args => callee.literals kept names ++ Expr.listLiterals kept names args
  | .field target _ => target.literals kept names
  | .index target position => target.literals kept names ++ position.literals kept names
  | .ifElse condition thenBody elseBody =>
      condition.literals kept names ++ Stmt.listLiterals kept names thenBody ++
        Stmt.bodyLiterals kept names elseBody
  | .action params body => [⟨params, body, keptNames kept names params body⟩]
  | .array items => Expr.listLiterals kept names items
  | .await iterable => iterable.literals kept names

def Expr.listLiterals (kept names : List String) : List Expr → List ActionLiteral
  | [] => []
  | item :: rest => item.literals kept names ++ Expr.listLiterals kept names rest

def Expr.optionLiterals (kept names : List String) : Option Expr → List ActionLiteral
  | none => []
  | some value => value.literals kept names

def Stmt.literals (kept names : List String) : Stmt → List ActionLiteral
  | .letVar _ value | .assign _ value => value.literals kept names
  | .fieldAssign target _ value => target.literals kept names ++ value.literals kept names
  | .indexAssign target position value =>
      target.literals kept names ++ position.literals kept names ++ value.literals kept names
  | .whileLoop condition body =>
      condition.literals kept names ++ Stmt.listLiterals kept names body
  | .forRange name start stop step body =>
      stop.literals kept names ++ Expr.optionLiterals kept names step ++
        start.literals kept names ++ Stmt.listLiterals kept (name :: names) body
  | .forEach name iterable body =>
      iterable.literals kept names ++ Stmt.listLiterals kept (name :: names) body
  | .breakLoop => []
  | .yieldValue value | .returnValue value => Expr.optionLiterals kept names value
  | .expr value => value.literals kept names

def Stmt.listLiterals (kept names : List String) : List Stmt → List ActionLiteral
  | [] => []
  | statement :: rest =>
      statement.literals kept names ++ Stmt.listLiterals kept (statement.names names) rest

def Stmt.bodyLiterals (kept names : List String) : Option (List Stmt) → List ActionLiteral
  | none => []
  | some body => Stmt.listLiterals kept names body

end

namespace FunctionSource

/-- The names that a function keeps from its surroundings. -/
def kept (source : FunctionSource) : List String := source.captures.getD []

/-- The function that a numbered literal of a function is. -/
def nested (source : FunctionSource) (index : Nat) (literal : ActionLiteral) : FunctionSource :=
  { source with
    name := source.name ++ "$action" ++ toString index
    params := literal.params
    body := literal.body
    captures := some literal.keeps }

/-- The functions that the literals of a function are, from a number on. -/
def nestedFrom (source : FunctionSource) (index : Nat) (literals : List ActionLiteral) :
    List FunctionSource :=
  (literals.zipIdx index).map fun entry => source.nested entry.2 entry.1

/-- The functions that the literals of a function are. -/
def actions (source : FunctionSource) : List FunctionSource :=
  source.nestedFrom 0 (Stmt.listLiterals source.kept source.params.reverse source.body)

end FunctionSource

/-! ## Lowering meets the literals -/

namespace Site

/-- The names in scope. -/
def names (site : Site) : List String := site.scope.map Prod.fst

end Site

namespace FunctionSource

theorem nestedFrom_append (source : FunctionSource) (index : Nat)
    (first second : List ActionLiteral) :
    source.nestedFrom index (first ++ second) =
      source.nestedFrom index first ++ source.nestedFrom (index + first.length) second := by
  simp [nestedFrom, List.zipIdx_append]

@[simp]
theorem length_nestedFrom (source : FunctionSource) (index : Nat)
    (literals : List ActionLiteral) :
    (source.nestedFrom index literals).length = literals.length := by
  simp [nestedFrom]

end FunctionSource

theorem LowersStmt.names {frame : Frame} {site : Site} {before after : Progress}
    {statement : Stmt} {code : Code} {scope : List (String × Nat)}
    (lowered : LowersStmt frame site before statement code scope after) :
    (site.behind code scope).names = statement.names site.names := by
  cases lowered <;> rfl

/-- On the way from one point of lowering to another these literals are met. -/
def Progress.Meets (source : FunctionSource) (before after : Progress)
    (literals : List ActionLiteral) : Prop :=
  after.actions = before.actions ++ source.nestedFrom before.actions.length literals

namespace Progress.Meets

variable {source : FunctionSource} {before middle after : Progress}
  {first second literals : List ActionLiteral} {count : Nat}

theorem refl : Progress.Meets source before before [] := by
  simp [Progress.Meets, FunctionSource.nestedFrom]

theorem trans (one : Progress.Meets source before middle first)
    (two : Progress.Meets source middle after second) :
    Progress.Meets source before after (first ++ second) := by
  unfold Progress.Meets at one two ⊢
  rw [two, one, FunctionSource.nestedFrom_append, List.length_append,
    FunctionSource.length_nestedFrom, List.append_assoc]

theorem take (one : Progress.Meets source before after literals) :
    Progress.Meets source before (after.take count) literals := one

end Progress.Meets

theorem isSome_lookup {scope : List (String × Nat)} {name : String} :
    (scope.lookup name).isSome = (scope.map Prod.fst).contains name := by
  induction scope with
  | nil => rfl
  | cons entry rest ih =>
      rcases entry with ⟨key, slot⟩
      rw [List.lookup_cons, List.map_cons, List.contains_cons, ← ih]
      cases name == key <;> rfl

theorem isSome_idxOf? {names : List String} {name : String} :
    (names.idxOf? name).isSome = names.contains name := by
  induction names with
  | nil => rfl
  | cons first rest ih =>
      rw [List.idxOf?_cons, List.contains_cons, Bool.beq_comm, ← ih]
      cases name == first <;> simp

theorem Frame.captured_eq {frame : Frame} {scope : List (String × Nat)} {params : List String}
    {body : List Stmt} :
    frame.captured scope params body =
      keptNames frame.source.kept (scope.map Prod.fst) params body := by
  unfold captured keptNames
  congr 1
  funext name
  rw [← isSome_lookup, ← isSome_idxOf?, resolve?, FunctionSource.kept]
  cases scope.lookup name with
  | some slot => rfl
  | none =>
      cases (frame.source.captures.getD []).idxOf? name with
      | some index => rfl
      | none => cases frame.linkage.globalSlot? name <;> rfl

mutual

theorem LowersExpr.literals {frame : Frame} {site : Site} {before after : Progress} {expr : Expr}
    {code : Code} (lowered : LowersExpr frame site before expr code after) :
    Progress.Meets frame.source before after (expr.literals frame.source.kept site.names) := by
  cases lowered with
  | literal => exact .refl
  | var => exact .refl
  | shortCircuit _ leftLowered rightLowered =>
      exact leftLowered.literals.trans rightLowered.literals
  | binary _ leftLowered rightLowered => exact leftLowered.literals.trans rightLowered.literals
  | unary operandLowered => exact operandLowered.literals
  | callVariable _ argsLowered => exact argsLowered.literals
  | call _ argsLowered => exact argsLowered.literals
  | staticCall static argsLowered =>
      rcases Frame.staticReceiver?_eq_some static with ⟨rfl, _⟩
      exact argsLowered.literals
  | methodCall _ receiverLowered argsLowered =>
      exact receiverLowered.literals.trans argsLowered.literals
  | invoke calleeLowered argsLowered => exact calleeLowered.literals.trans argsLowered.literals
  | staticField static =>
      rcases Frame.staticReceiver?_eq_some static with ⟨rfl, _⟩
      exact .refl
  | field _ targetLowered => exact targetLowered.literals
  | index targetLowered positionLowered =>
      exact targetLowered.literals.trans positionLowered.literals
  | ifElse testLowered thenLowered elseLowered =>
      exact (testLowered.literals.trans thenLowered.literals).trans elseLowered.literals
  | @action _ _ params body =>
      have same : frame.literal site.scope before.actions.length params body =
          frame.source.nested before.actions.length
            ⟨params, body, keptNames frame.source.kept site.names params body⟩ := by
        rw [Frame.literal, Frame.captured_eq]
        rfl
      rw [same]
      rfl
  | array itemsLowered => exact itemsLowered.literals
  | await sourceLowered => exact sourceLowered.literals.take

theorem LowersOperands.literals {frame : Frame} {site : Site} {before after : Progress}
    {items : List Expr} {code : Code}
    (lowered : LowersOperands frame site before items code after) :
    Progress.Meets frame.source before after
      (Expr.listLiterals frame.source.kept site.names items) := by
  cases lowered with
  | nil => exact .refl
  | cons itemLowered restLowered => exact itemLowered.literals.trans restLowered.literals

theorem LowersOption.literals {frame : Frame} {site : Site} {default : Constant}
    {before after : Progress} {value : Option Expr} {code : Code}
    (lowered : LowersOption frame site default before value code after) :
    Progress.Meets frame.source before after
      (Expr.optionLiterals frame.source.kept site.names value) := by
  cases lowered with
  | none => exact .refl
  | some valueLowered => exact valueLowered.literals

theorem LowersBlock.literals {frame : Frame} {site : Site} {before after : Progress}
    {body : List Stmt} {code : Code} (lowered : LowersBlock frame site before body code after) :
    Progress.Meets frame.source before after
      (Stmt.listLiterals frame.source.kept site.names body) := by
  cases lowered with
  | empty => exact .refl
  | trailing valueLowered => exact valueLowered.literals.trans .refl
  | statement _ statementLowered restLowered =>
      rw [Stmt.listLiterals, ← statementLowered.names]
      exact statementLowered.literals.trans restLowered.literals

theorem LowersElse.literals {frame : Frame} {site : Site} {before after : Progress}
    {body : Option (List Stmt)} {code : Code}
    (lowered : LowersElse frame site before body code after) :
    Progress.Meets frame.source before after
      (Stmt.bodyLiterals frame.source.kept site.names body) := by
  cases lowered with
  | absent => exact .refl
  | present bodyLowered => exact bodyLowered.literals

theorem LowersStmts.literals {frame : Frame} {site : Site} {before after : Progress}
    {body : List Stmt} {code : Code} (lowered : LowersStmts frame site before body code after) :
    Progress.Meets frame.source before after
      (Stmt.listLiterals frame.source.kept site.names body) := by
  cases lowered with
  | nil => exact .refl
  | cons statementLowered restLowered =>
      rw [Stmt.listLiterals, ← statementLowered.names]
      exact statementLowered.literals.trans restLowered.literals

theorem LowersStmt.literals {frame : Frame} {site : Site} {before after : Progress}
    {statement : Stmt} {code : Code} {scope : List (String × Nat)}
    (lowered : LowersStmt frame site before statement code scope after) :
    Progress.Meets frame.source before after
      (statement.literals frame.source.kept site.names) := by
  cases lowered with
  | letVar valueLowered => exact valueLowered.literals.take
  | assignLocal _ valueLowered => exact valueLowered.literals
  | assignCapture _ valueLowered => exact valueLowered.literals
  | assignGlobal _ valueLowered => exact valueLowered.literals
  | fieldAssign targetLowered valueLowered =>
      exact targetLowered.literals.trans valueLowered.literals
  | indexAssign targetLowered positionLowered valueLowered =>
      exact (targetLowered.literals.trans positionLowered.literals).trans valueLowered.literals
  | whileLoop testLowered bodyLowered => exact testLowered.literals.trans bodyLowered.literals
  | forRange stopLowered stepLowered startLowered _ bodyLowered =>
      exact ((stopLowered.literals.take.trans stepLowered.literals).take.trans
        startLowered.literals).take.trans bodyLowered.literals
  | forEach sourceLowered _ bodyLowered =>
      exact sourceLowered.literals.take.trans bodyLowered.literals
  | breakLoop => exact .refl
  | yieldValue valueLowered => exact valueLowered.literals
  | returnValue valueLowered => exact valueLowered.literals
  | expr valueLowered => exact valueLowered.literals

end

/-- The literals that lowering a function meets are those that its body shows. -/
theorem actions_of_lowerFunction {linkage : Linkage} {position : Nat} {source : FunctionSource}
    {code : List Instruction} {actions : List FunctionSource}
    (lowered : lowerFunction linkage position source = .ok (code, actions)) :
    actions = source.actions := by
  rcases lowerFunction_ok lowered with ⟨body, progress, bodyLowered, _, rfl⟩
  have met := bodyLowered.literals
  rw [Progress.Meets, List.nil_append] at met
  rw [met, FunctionSource.actions]
  congr 2
  simp [FunctionSource.site, Site.names, parameterScope, List.map_reverse]

end ScriptMachine
