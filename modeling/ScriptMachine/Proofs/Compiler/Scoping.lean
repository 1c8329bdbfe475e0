import ScriptMachine.Proofs.Compiler.FreeNames
import ScriptMachine.Proofs.Compiler.Literals

/-!
# Well-scoped programs

What it takes for units to compile can be said without the compiler: every variable that is read or
assigned has a binding around it, in its own function or in one around the action it stands in, or
is a global; every `breakLoop` has a loop around it in its own function or action; no parameter list
is too long, where an action needs one place for what it keeps; and no two functions have the same
name. A name in front of a member may stand for a type of the host instead, and a name that is
called for a function.

The compiler lowers the body of an action later, and knows its surroundings only by the names that
the action keeps. That this comes to the same is shown in two steps: a body is well scoped whatever
names around it are taken away, as long as its free names stay, and what an action keeps are the free
names of its body that are bound around it.
-/

namespace ScriptMachine

mutual

/-- Whether an expression is well scoped where the `visible` names are bound, inside of a loop or
not. -/
def Expr.Scoped (visible : List String) (inLoop : Bool) : Expr → Prop
  | .literal _ => True
  | .var name => name ∈ visible
  | .binary _ left right => left.Scoped visible inLoop ∧ right.Scoped visible inLoop
  | .unary _ operand => operand.Scoped visible inLoop
  | .call _ _ args => Expr.ListScoped visible inLoop args
  | .methodCall receiver _ args =>
      ((∃ name, receiver = .var name) ∨ receiver.Scoped visible inLoop) ∧
        Expr.ListScoped visible inLoop args
  | .invoke callee args => callee.Scoped visible inLoop ∧ Expr.ListScoped visible inLoop args
  | .field target _ => (∃ name, target = .var name) ∨ target.Scoped visible inLoop
  | .index target position => target.Scoped visible inLoop ∧ position.Scoped visible inLoop
  | .ifElse condition thenBody elseBody =>
      condition.Scoped visible inLoop ∧ Stmt.ListScoped visible inLoop thenBody ∧
        Stmt.BodyScoped visible inLoop elseBody
  | .action params body =>
      params.length + 1 ≤ parameterLimit ∧ Stmt.ListScoped (params ++ visible) false body
  | .array items => Expr.ListScoped visible inLoop items
  | .await iterable => iterable.Scoped visible inLoop

def Expr.ListScoped (visible : List String) (inLoop : Bool) : List Expr → Prop
  | [] => True
  | item :: rest => item.Scoped visible inLoop ∧ Expr.ListScoped visible inLoop rest

def Expr.OptionScoped (visible : List String) (inLoop : Bool) : Option Expr → Prop
  | none => True
  | some value => value.Scoped visible inLoop

/-- Whether a statement is well scoped. The header of a loop does not belong to its body. -/
def Stmt.Scoped (visible : List String) (inLoop : Bool) : Stmt → Prop
  | .letVar _ value => value.Scoped visible inLoop
  | .assign name value => name ∈ visible ∧ value.Scoped visible inLoop
  | .fieldAssign target _ value => target.Scoped visible inLoop ∧ value.Scoped visible inLoop
  | .indexAssign target position value =>
      target.Scoped visible inLoop ∧ position.Scoped visible inLoop ∧ value.Scoped visible inLoop
  | .whileLoop condition body =>
      condition.Scoped visible inLoop ∧ Stmt.ListScoped visible true body
  | .forRange name start stop step body =>
      start.Scoped visible inLoop ∧ stop.Scoped visible inLoop ∧
        Expr.OptionScoped visible inLoop step ∧ Stmt.ListScoped (name :: visible) true body
  | .forEach name iterable body =>
      iterable.Scoped visible inLoop ∧ Stmt.ListScoped (name :: visible) true body
  | .breakLoop => inLoop = true
  | .yieldValue value | .returnValue value => Expr.OptionScoped visible inLoop value
  | .expr value => value.Scoped visible inLoop

/-- Whether the statements of a block are well scoped. -/
def Stmt.ListScoped (visible : List String) (inLoop : Bool) : List Stmt → Prop
  | [] => True
  | statement :: rest =>
      statement.Scoped visible inLoop ∧ Stmt.ListScoped (statement.names visible) inLoop rest

def Stmt.BodyScoped (visible : List String) (inLoop : Bool) : Option (List Stmt) → Prop
  | none => True
  | some body => Stmt.ListScoped visible inLoop body

end

/-- Whether a declared function is well scoped in a program with these globals. -/
def FunctionDef.Scoped (globals : List String) (function : FunctionDef) : Prop :=
  function.params.length ≤ parameterLimit ∧
    Stmt.ListScoped (function.params ++ globals) false function.body

/-- Whether units are well scoped together. -/
structure WellScoped (globals : List String) (units : List ProgramUnit) : Prop where
  unique : (units.flatMap fun unit =>
    unit.functions.map fun function => (unit.path, function.name)).Nodup
  functions : ∀ unit ∈ units, ∀ function ∈ unit.functions, function.Scoped globals

/-! ## Only free names matter -/

/-- Where one list of names binds the free names of a part, the other does, and the other way
round. -/
def SameNames (Free : String → Prop) (first second : List String) : Prop :=
  ∀ name, Free name → (name ∈ first ↔ name ∈ second)

theorem Stmt.mem_names {statement : Stmt} {names : List String} {name : String} :
    name ∈ statement.names names ↔ name ∈ names ∨ statement.Binds name := by
  cases statement <;> simp [Stmt.names, Stmt.Binds, or_comm, eq_comm]

theorem Stmt.names_append {statement : Stmt} {names others : List String} :
    statement.names (names ++ others) = statement.names names ++ others := by
  cases statement <;> rfl

theorem forall_mem_append {α : Type} {P : α → Prop} {first second : List α}
    (one : ∀ item ∈ first, P item) (two : ∀ item ∈ second, P item) :
    ∀ item ∈ first ++ second, P item :=
  List.forall_mem_append.mpr ⟨one, two⟩

namespace SameNames

variable {Free Part : String → Prop} {first second : List String} {bound : String}

theorem part (same : SameNames Free first second) (inside : ∀ name, Part name → Free name) :
    SameNames Part first second := fun name free => same name (inside name free)

theorem cons (same : SameNames (fun name => bound ≠ name ∧ Part name) first second) :
    SameNames Part (bound :: first) (bound :: second) := by
  intro name free
  by_cases here : bound = name
  · simp [here]
  · have rest := same name ⟨here, free⟩
    simp [rest]

theorem append {params : List String}
    (same : SameNames (fun name => name ∉ params ∧ Part name) first second) :
    SameNames Part (params ++ first) (params ++ second) := by
  intro name free
  by_cases here : name ∈ params
  · simp [here]
  · have rest := same name ⟨here, free⟩
    simp [here, rest]

theorem names {statement : Stmt}
    (same : SameNames (fun name => ¬statement.Binds name ∧ Part name) first second) :
    SameNames Part (statement.names first) (statement.names second) := by
  intro name free
  rw [Stmt.mem_names, Stmt.mem_names]
  by_cases here : statement.Binds name
  · simp [here]
  · rw [same name ⟨here, free⟩]

end SameNames

mutual

theorem Expr.scoped_congr {first second : List String} {inLoop : Bool} (expr : Expr)
    (same : SameNames (fun name => expr.Free name) first second) :
    expr.Scoped first inLoop ↔ expr.Scoped second inLoop := by
  cases expr with
  | literal value => rfl
  | var name => exact same name rfl
  | binary operator left right =>
      exact and_congr (left.scoped_congr (same.part fun _ => .inl))
        (right.scoped_congr (same.part fun _ => .inr))
  | unary operator operand => exact operand.scoped_congr same
  | call path name args => exact Expr.listScoped_congr args (same.part fun _ => .inr)
  | methodCall receiver name args =>
      exact and_congr (or_congr_right (receiver.scoped_congr (same.part fun _ => .inl)))
        (Expr.listScoped_congr args (same.part fun _ => .inr))
  | invoke callee args =>
      exact and_congr (callee.scoped_congr (same.part fun _ => .inl))
        (Expr.listScoped_congr args (same.part fun _ => .inr))
  | field target name => exact or_congr_right (target.scoped_congr same)
  | index target position =>
      exact and_congr (target.scoped_congr (same.part fun _ => .inl))
        (position.scoped_congr (same.part fun _ => .inr))
  | ifElse condition thenBody elseBody =>
      exact and_congr (condition.scoped_congr (same.part fun _ => .inl))
        (and_congr (Stmt.listScoped_congr thenBody (same.part fun _ free => .inr (.inl free)))
          (Stmt.bodyScoped_congr elseBody (same.part fun _ free => .inr (.inr free))))
  | action params body => exact and_congr_right' (Stmt.listScoped_congr body (.append same))
  | array items => exact Expr.listScoped_congr items same
  | await iterable => exact iterable.scoped_congr same
termination_by structural expr

theorem Expr.listScoped_congr {first second : List String} {inLoop : Bool} (items : List Expr)
    (same : SameNames (fun name => Expr.ListFree name items) first second) :
    Expr.ListScoped first inLoop items ↔ Expr.ListScoped second inLoop items := by
  cases items with
  | nil => rfl
  | cons item rest =>
      exact and_congr (item.scoped_congr (same.part fun _ => .inl))
        (Expr.listScoped_congr rest (same.part fun _ => .inr))
termination_by structural items

theorem Expr.optionScoped_congr {first second : List String} {inLoop : Bool} (value : Option Expr)
    (same : SameNames (fun name => Expr.OptionFree name value) first second) :
    Expr.OptionScoped first inLoop value ↔ Expr.OptionScoped second inLoop value := by
  cases value with
  | none => rfl
  | some value => exact value.scoped_congr same
termination_by structural value

theorem Stmt.scoped_congr {first second : List String} {inLoop : Bool} (statement : Stmt)
    (same : SameNames (fun name => statement.Free name) first second) :
    statement.Scoped first inLoop ↔ statement.Scoped second inLoop := by
  cases statement with
  | letVar name value => exact value.scoped_congr same
  | assign name value =>
      exact and_congr (same name (.inl rfl)) (value.scoped_congr (same.part fun _ => .inr))
  | fieldAssign target name value =>
      exact and_congr (target.scoped_congr (same.part fun _ => .inl))
        (value.scoped_congr (same.part fun _ => .inr))
  | indexAssign target position value =>
      exact and_congr (target.scoped_congr (same.part fun _ => .inl))
        (and_congr (position.scoped_congr (same.part fun _ free => .inr (.inl free)))
          (value.scoped_congr (same.part fun _ free => .inr (.inr free))))
  | whileLoop condition body =>
      exact and_congr (condition.scoped_congr (same.part fun _ => .inl))
        (Stmt.listScoped_congr body (same.part fun _ => .inr))
  | forRange name start stop step body =>
      exact and_congr (start.scoped_congr (same.part fun _ => .inl))
        (and_congr (stop.scoped_congr (same.part fun _ free => .inr (.inl free)))
          (and_congr
            (Expr.optionScoped_congr step (same.part fun _ free => .inr (.inr (.inl free))))
            (Stmt.listScoped_congr body
              (.cons (same.part fun _ free => .inr (.inr (.inr free)))))))
  | forEach name iterable body =>
      exact and_congr (iterable.scoped_congr (same.part fun _ => .inl))
        (Stmt.listScoped_congr body (.cons (same.part fun _ => .inr)))
  | breakLoop => rfl
  | yieldValue value => exact Expr.optionScoped_congr value same
  | returnValue value => exact Expr.optionScoped_congr value same
  | expr value => exact value.scoped_congr same
termination_by structural statement

theorem Stmt.listScoped_congr {first second : List String} {inLoop : Bool} (body : List Stmt)
    (same : SameNames (fun name => Stmt.ListFree name body) first second) :
    Stmt.ListScoped first inLoop body ↔ Stmt.ListScoped second inLoop body := by
  cases body with
  | nil => rfl
  | cons statement rest =>
      exact and_congr (statement.scoped_congr (same.part fun _ => .inl))
        (Stmt.listScoped_congr rest (.names (same.part fun _ => .inr)))
termination_by structural body

theorem Stmt.bodyScoped_congr {first second : List String} {inLoop : Bool}
    (body : Option (List Stmt))
    (same : SameNames (fun name => Stmt.BodyFree name body) first second) :
    Stmt.BodyScoped first inLoop body ↔ Stmt.BodyScoped second inLoop body := by
  cases body with
  | none => rfl
  | some body => exact Stmt.listScoped_congr body same
termination_by structural body

end

/-! ## What an action keeps -/

namespace ActionLiteral

/-- Whether the body of a literal is well scoped with nothing around it but what it keeps. -/
def Scoped (globals : List String) (literal : ActionLiteral) : Prop :=
  literal.params.length + 1 ≤ parameterLimit ∧
    Stmt.ListScoped (literal.params ++ (literal.keeps ++ globals)) false literal.body

/-- To keep the free names that are bound around is as good as to keep all that is bound around. -/
theorem scoped_iff {globals kept names params : List String} {body : List Stmt} {inLoop : Bool} :
    Scoped globals ⟨params, body, keptNames kept names params body⟩ ↔
      (Expr.action params body).Scoped (names ++ (kept ++ globals)) inLoop := by
  refine and_congr_right' (Stmt.listScoped_congr body (.append ?_))
  rintro name ⟨noParameter, free⟩
  have found : name ∈ freeVariables params body := mem_freeVariables.mpr ⟨noParameter, free⟩
  simp [keptNames, found, or_assoc]

end ActionLiteral

mutual

/-- The literals of what is well scoped are well scoped by themselves. -/
theorem Expr.literals_scoped {globals kept names : List String} {inLoop : Bool} (expr : Expr)
    (inScope : expr.Scoped (names ++ (kept ++ globals)) inLoop) :
    ∀ literal ∈ expr.literals kept names, literal.Scoped globals := by
  cases expr with
  | literal value => nofun
  | var name => nofun
  | binary operator left right =>
      exact forall_mem_append (left.literals_scoped inScope.1) (right.literals_scoped inScope.2)
  | unary operator operand => exact operand.literals_scoped inScope
  | call path name args => exact Expr.listLiterals_scoped args inScope
  | methodCall receiver name args =>
      refine forall_mem_append ?_ (Expr.listLiterals_scoped args inScope.2)
      rcases inScope.1 with ⟨name, rfl⟩ | receiverInScope
      · nofun
      · exact receiver.literals_scoped receiverInScope
  | invoke callee args =>
      exact forall_mem_append (callee.literals_scoped inScope.1)
        (Expr.listLiterals_scoped args inScope.2)
  | field target name =>
      rcases inScope with ⟨name, rfl⟩ | targetInScope
      · nofun
      · exact target.literals_scoped targetInScope
  | index target position =>
      exact forall_mem_append (target.literals_scoped inScope.1)
        (position.literals_scoped inScope.2)
  | ifElse condition thenBody elseBody =>
      exact forall_mem_append
        (forall_mem_append (condition.literals_scoped inScope.1)
          (Stmt.listLiterals_scoped thenBody inScope.2.1))
        (Stmt.bodyLiterals_scoped elseBody inScope.2.2)
  | action params body =>
      intro literal present
      cases List.mem_singleton.mp present
      exact ActionLiteral.scoped_iff.mpr inScope
  | array items => exact Expr.listLiterals_scoped items inScope
  | await iterable => exact iterable.literals_scoped inScope
termination_by structural expr

theorem Expr.listLiterals_scoped {globals kept names : List String} {inLoop : Bool}
    (items : List Expr) (inScope : Expr.ListScoped (names ++ (kept ++ globals)) inLoop items) :
    ∀ literal ∈ Expr.listLiterals kept names items, literal.Scoped globals := by
  cases items with
  | nil => nofun
  | cons item rest =>
      exact forall_mem_append (item.literals_scoped inScope.1)
        (Expr.listLiterals_scoped rest inScope.2)
termination_by structural items

theorem Expr.optionLiterals_scoped {globals kept names : List String} {inLoop : Bool}
    (value : Option Expr) (inScope : Expr.OptionScoped (names ++ (kept ++ globals)) inLoop value) :
    ∀ literal ∈ Expr.optionLiterals kept names value, literal.Scoped globals := by
  cases value with
  | none => nofun
  | some value => exact value.literals_scoped inScope
termination_by structural value

theorem Stmt.literals_scoped {globals kept names : List String} {inLoop : Bool} (statement : Stmt)
    (inScope : statement.Scoped (names ++ (kept ++ globals)) inLoop) :
    ∀ literal ∈ statement.literals kept names, literal.Scoped globals := by
  cases statement with
  | letVar name value => exact value.literals_scoped inScope
  | assign name value => exact value.literals_scoped inScope.2
  | fieldAssign target name value =>
      exact forall_mem_append (target.literals_scoped inScope.1) (value.literals_scoped inScope.2)
  | indexAssign target position value =>
      exact forall_mem_append
        (forall_mem_append (target.literals_scoped inScope.1)
          (position.literals_scoped inScope.2.1))
        (value.literals_scoped inScope.2.2)
  | whileLoop condition body =>
      exact forall_mem_append (condition.literals_scoped inScope.1)
        (Stmt.listLiterals_scoped body inScope.2)
  | forRange name start stop step body =>
      rcases inScope with ⟨startInScope, stopInScope, stepInScope, bodyInScope⟩
      exact forall_mem_append
        (forall_mem_append
          (forall_mem_append (stop.literals_scoped stopInScope)
            (Expr.optionLiterals_scoped step stepInScope))
          (start.literals_scoped startInScope))
        (Stmt.listLiterals_scoped body bodyInScope)
  | forEach name iterable body =>
      exact forall_mem_append (iterable.literals_scoped inScope.1)
        (Stmt.listLiterals_scoped body inScope.2)
  | breakLoop => nofun
  | yieldValue value => exact Expr.optionLiterals_scoped value inScope
  | returnValue value => exact Expr.optionLiterals_scoped value inScope
  | expr value => exact value.literals_scoped inScope
termination_by structural statement

theorem Stmt.listLiterals_scoped {globals kept names : List String} {inLoop : Bool}
    (body : List Stmt) (inScope : Stmt.ListScoped (names ++ (kept ++ globals)) inLoop body) :
    ∀ literal ∈ Stmt.listLiterals kept names body, literal.Scoped globals := by
  cases body with
  | nil => nofun
  | cons statement rest =>
      have restInScope := inScope.2
      rw [Stmt.names_append] at restInScope
      exact forall_mem_append (statement.literals_scoped inScope.1)
        (Stmt.listLiterals_scoped rest restInScope)
termination_by structural body

theorem Stmt.bodyLiterals_scoped {globals kept names : List String} {inLoop : Bool}
    (body : Option (List Stmt))
    (inScope : Stmt.BodyScoped (names ++ (kept ++ globals)) inLoop body) :
    ∀ literal ∈ Stmt.bodyLiterals kept names body, literal.Scoped globals := by
  cases body with
  | none => nofun
  | some body => exact Stmt.listLiterals_scoped body inScope
termination_by structural body

end

end ScriptMachine
