import ScriptMachine.Proofs.Compiler.FreeNames

/-!
# Mentions and what is in scope there

Where a name is mentioned, some names are in scope: those that are bound on the way down from an
action's body to the mention. Here the way is spelled out. Each step goes from a fragment of the
program to one right inside it and notes what the outer one binds for the inner one: an action its
parameters, a loop its variable, and a block, for each of its statements, the variables of the
statements before it. Nothing else binds a name, so that a variable of a branch is unknown behind
the branch.

A name is free in a fragment exactly if it is mentioned there out of its own scope. So the names that
an action has to keep are those with such a mention in its body, apart from its parameters.
-/

namespace ScriptMachine

/-! ## Fragments -/

/-- A part of a program that names can be mentioned in. -/
inductive Fragment where
  | expr (expr : Expr)
  | statement (statement : Stmt)
  | block (body : List Stmt)

/-- The expressions right inside an expression. -/
def Expr.operands : Expr → List Expr
  | .literal _ | .var _ | .action _ _ => []
  | .binary _ left right => [left, right]
  | .unary _ operand => [operand]
  | .call _ _ args | .array args => args
  | .methodCall receiver _ args => receiver :: args
  | .invoke callee args => callee :: args
  | .field target _ => [target]
  | .index target position => [target, position]
  | .ifElse condition _ _ => [condition]
  | .await iterable => [iterable]

/-- The blocks right inside an expression, with the names that it binds for them. -/
def Expr.blocks : Expr → List (List String × List Stmt)
  | .ifElse _ thenBody elseBody => ([], thenBody) :: elseBody.toList.map fun body => ([], body)
  | .action params body => [(params, body)]
  | _ => []

/-- The expressions right inside a statement. -/
def Stmt.operands : Stmt → List Expr
  | .letVar _ value | .assign _ value | .expr value => [value]
  | .fieldAssign target _ value => [target, value]
  | .indexAssign target position value => [target, position, value]
  | .whileLoop condition _ => [condition]
  | .forRange _ start stop step _ => start :: stop :: step.toList
  | .forEach _ iterable _ => [iterable]
  | .breakLoop => []
  | .yieldValue value | .returnValue value => value.toList

/-- The blocks right inside a statement, with the names that it binds for them. -/
def Stmt.blocks : Stmt → List (List String × List Stmt)
  | .whileLoop _ body => [([], body)]
  | .forRange name _ _ _ body | .forEach name _ body => [([name], body)]
  | _ => []

/-- The name that a statement binds for those behind it. -/
def Stmt.bound? : Stmt → Option String
  | .letVar name _ => some name
  | _ => none

namespace Fragment

/-- A fragment is right inside another one, which binds some names for it. -/
inductive Holds : Fragment → List String → Fragment → Prop
  | operand {whole part : Expr} (among : part ∈ whole.operands) : Holds (.expr whole) [] (.expr part)
  | branch {whole : Expr} {bound : List String} {body : List Stmt}
      (among : (bound, body) ∈ whole.blocks) : Holds (.expr whole) bound (.block body)
  | value {whole : Stmt} {part : Expr} (among : part ∈ whole.operands) :
      Holds (.statement whole) [] (.expr part)
  | loop {whole : Stmt} {bound : List String} {body : List Stmt}
      (among : (bound, body) ∈ whole.blocks) : Holds (.statement whole) bound (.block body)
  | statement {earlier later : List Stmt} {statement : Stmt} :
      Holds (.block (earlier ++ statement :: later)) (earlier.filterMap Stmt.bound?)
        (.statement statement)

/-- A fragment is itself a mention: it reads a name, calls it without a namespace or assigns to
it. -/
inductive Names (name : String) : Fragment → Prop
  | read : Names name (.expr (.var name))
  | called {args : List Expr} : Names name (.expr (.call [] name args))
  | assigned {value : Expr} : Names name (.statement (.assign name value))

/-- A name is mentioned somewhere in a fragment, which has brought the names of `scope` into scope
there. -/
inductive Mentions (name : String) : Fragment → List String → Prop
  | here {fragment : Fragment} (names : fragment.Names name) : Mentions name fragment []
  | inside {outer inner : Fragment} {bound scope : List String} (holds : outer.Holds bound inner)
      (mentions : inner.Mentions name scope) : Mentions name outer (bound ++ scope)

end Fragment

/-! ## Smaller fragments -/

theorem Expr.sizeOf_operand_lt {whole part : Expr} (among : part ∈ whole.operands) :
    sizeOf part < sizeOf whole := by
  cases whole with
  | literal | var | action => cases among
  | unary | field | ifElse | await =>
      cases List.mem_singleton.mp among
      simp +arith
  | binary | index =>
      simp only [Expr.operands, List.mem_cons, List.not_mem_nil, or_false] at among
      rcases among with rfl | rfl <;> simp +arith
  | call path name args =>
      have smaller : sizeOf part < sizeOf args := List.sizeOf_lt_of_mem among
      simp only [Expr.call.sizeOf_spec]
      omega
  | array items =>
      have smaller : sizeOf part < sizeOf items := List.sizeOf_lt_of_mem among
      simp only [Expr.array.sizeOf_spec]
      omega
  | methodCall receiver name args =>
      rcases List.mem_cons.mp among with rfl | among
      · simp +arith
      · have smaller := List.sizeOf_lt_of_mem among
        simp only [Expr.methodCall.sizeOf_spec]
        omega
  | invoke callee args =>
      rcases List.mem_cons.mp among with rfl | among
      · simp +arith
      · have smaller := List.sizeOf_lt_of_mem among
        simp only [Expr.invoke.sizeOf_spec]
        omega

theorem Expr.sizeOf_block_lt {whole : Expr} {bound : List String} {body : List Stmt}
    (among : (bound, body) ∈ whole.blocks) : sizeOf body < sizeOf whole := by
  cases whole with
  | ifElse condition thenBody elseBody =>
      rcases List.mem_cons.mp among with same | among
      · cases same
        simp +arith
      · rcases List.mem_map.mp among with ⟨block, among, same⟩
        cases same
        cases Option.mem_toList.mp among
        simp +arith
  | action params block =>
      cases List.mem_singleton.mp among
      simp +arith
  | _ => cases among

theorem Stmt.sizeOf_operand_lt {whole : Stmt} {part : Expr} (among : part ∈ whole.operands) :
    sizeOf part < sizeOf whole := by
  cases whole with
  | letVar | assign | whileLoop | forEach | expr =>
      cases List.mem_singleton.mp among
      simp +arith
  | fieldAssign | indexAssign =>
      simp only [Stmt.operands, List.mem_cons, List.not_mem_nil, or_false] at among
      rcases among with rfl | among
      · simp +arith
      · rcases among with rfl | rfl <;> simp +arith
  | forRange name start stop step body =>
      simp only [Stmt.operands, List.mem_cons] at among
      rcases among with rfl | rfl | among
      · simp +arith
      · simp +arith
      · cases Option.mem_toList.mp among
        simp +arith
  | breakLoop => cases among
  | yieldValue | returnValue =>
      cases Option.mem_toList.mp among
      simp +arith

theorem Stmt.sizeOf_block_lt {whole : Stmt} {bound : List String} {body : List Stmt}
    (among : (bound, body) ∈ whole.blocks) : sizeOf body < sizeOf whole := by
  cases whole with
  | whileLoop | forRange | forEach =>
      cases List.mem_singleton.mp among
      simp +arith
  | _ => cases among

/-- Fragments get smaller on the way down. -/
theorem Fragment.Holds.sizeOf_lt {outer inner : Fragment} {bound : List String}
    (holds : outer.Holds bound inner) : sizeOf inner < sizeOf outer := by
  cases holds with
  | operand among => simpa using Expr.sizeOf_operand_lt among
  | branch among => simpa using Expr.sizeOf_block_lt among
  | value among => simpa using Stmt.sizeOf_operand_lt among
  | loop among => simpa using Stmt.sizeOf_block_lt among
  | @statement earlier later statement =>
      have member : statement ∈ earlier ++ statement :: later := by simp
      simpa using List.sizeOf_lt_of_mem member

/-! ## Free names, one step at a time -/

section Steps

variable {name : String}

theorem Expr.listFree_iff {items : List Expr} :
    Expr.ListFree name items ↔ ∃ item ∈ items, item.Free name := by
  induction items with
  | nil => simp [Expr.ListFree]
  | cons item rest ih => simp [Expr.ListFree, ih]

theorem Expr.optionFree_iff {value : Option Expr} :
    Expr.OptionFree name value ↔ ∃ item ∈ value.toList, item.Free name := by
  cases value <;> simp [Expr.OptionFree]

theorem Stmt.binds_iff {statement : Stmt} : statement.Binds name ↔ statement.bound? = some name := by
  cases statement <;> simp [Stmt.Binds, Stmt.bound?]

/-- A name is free in a block if it is so in a statement and none of those before it binds it. -/
theorem Stmt.listFree_iff {body : List Stmt} :
    Stmt.ListFree name body ↔ ∃ earlier statement later, body = earlier ++ statement :: later ∧
      name ∉ earlier.filterMap Stmt.bound? ∧ statement.Free name := by
  induction body with
  | nil => simp [Stmt.ListFree]
  | cons first rest ih =>
      rw [Stmt.ListFree, ih, Stmt.binds_iff]
      constructor
      · rintro (free | ⟨unbound, earlier, statement, later, rfl, hidden, free⟩)
        · exact ⟨[], first, rest, rfl, by simp, free⟩
        · refine ⟨first :: earlier, statement, later, rfl, ?_, free⟩
          simp only [List.mem_filterMap, List.mem_cons, exists_eq_or_imp, not_or] at hidden ⊢
          exact ⟨unbound, hidden⟩
      · rintro ⟨earlier, statement, later, same, hidden, free⟩
        cases earlier with
        | nil =>
            cases same
            exact .inl free
        | cons other earlier =>
            cases same
            simp only [List.mem_filterMap, List.mem_cons, exists_eq_or_imp, not_or] at hidden
            refine .inr ⟨hidden.1, earlier, statement, later, rfl, ?_, free⟩
            simpa only [List.mem_filterMap] using hidden.2

namespace Fragment

/-- Whether a name is free in a fragment. -/
def Free (name : String) : Fragment → Prop
  | expr whole => whole.Free name
  | statement whole => whole.Free name
  | block body => Stmt.ListFree name body

theorem names_expr_iff {whole : Expr} :
    (expr whole).Names name ↔ whole = .var name ∨ ∃ args, whole = .call [] name args := by
  constructor
  · rintro (_ | _)
    · exact .inl rfl
    · exact .inr ⟨_, rfl⟩
  · rintro (rfl | ⟨args, rfl⟩)
    · exact .read
    · exact .called

theorem names_statement_iff {whole : Stmt} :
    (statement whole).Names name ↔ ∃ value, whole = .assign name value := by
  constructor
  · rintro (_ | _)
    exact ⟨_, rfl⟩
  · rintro ⟨value, rfl⟩
    exact .assigned

end Fragment

theorem Expr.free_iff {whole : Expr} :
    whole.Free name ↔ (Fragment.expr whole).Names name ∨
      (∃ part ∈ whole.operands, part.Free name) ∨
      ∃ block ∈ whole.blocks, name ∉ block.1 ∧ Stmt.ListFree name block.2 := by
  rw [Fragment.names_expr_iff]
  cases whole with
  | ifElse condition thenBody elseBody =>
      cases elseBody <;> simp [Expr.Free, Stmt.BodyFree, Expr.operands, Expr.blocks]
  | _ => simp [Expr.Free, Expr.operands, Expr.blocks, Expr.listFree_iff]

theorem Stmt.free_iff {whole : Stmt} :
    whole.Free name ↔ (Fragment.statement whole).Names name ∨
      (∃ part ∈ whole.operands, part.Free name) ∨
      ∃ block ∈ whole.blocks, name ∉ block.1 ∧ Stmt.ListFree name block.2 := by
  rw [Fragment.names_statement_iff]
  cases whole <;>
    simp [Stmt.Free, Stmt.operands, Stmt.blocks, Expr.optionFree_iff, eq_comm, or_assoc]

namespace Fragment

/-- A name is free in a fragment that mentions it itself, or if it is so in one right inside and not
bound for it. -/
theorem free_iff {fragment : Fragment} :
    fragment.Free name ↔ fragment.Names name ∨
      ∃ bound inner, fragment.Holds bound inner ∧ name ∉ bound ∧ inner.Free name := by
  cases fragment with
  | expr whole =>
      rw [Free, Expr.free_iff]
      refine or_congr_right ⟨?_, ?_⟩
      · rintro (⟨part, among, free⟩ | ⟨⟨bound, body⟩, among, hidden, free⟩)
        · exact ⟨[], .expr part, .operand among, List.not_mem_nil, free⟩
        · exact ⟨bound, .block body, .branch among, hidden, free⟩
      · rintro ⟨bound, inner, holds, hidden, free⟩
        cases holds with
        | operand among => exact .inl ⟨_, among, free⟩
        | branch among => exact .inr ⟨_, among, hidden, free⟩
  | statement whole =>
      rw [Free, Stmt.free_iff]
      refine or_congr_right ⟨?_, ?_⟩
      · rintro (⟨part, among, free⟩ | ⟨⟨bound, body⟩, among, hidden, free⟩)
        · exact ⟨[], .expr part, .value among, List.not_mem_nil, free⟩
        · exact ⟨bound, .block body, .loop among, hidden, free⟩
      · rintro ⟨bound, inner, holds, hidden, free⟩
        cases holds with
        | value among => exact .inl ⟨_, among, free⟩
        | loop among => exact .inr ⟨_, among, hidden, free⟩
  | block body =>
      rw [Free, Stmt.listFree_iff]
      constructor
      · rintro ⟨earlier, whole, later, rfl, hidden, free⟩
        exact .inr ⟨_, .statement whole, .statement, hidden, free⟩
      · rintro (names | ⟨bound, inner, holds, hidden, free⟩)
        · cases names
        · cases holds with
          | @statement earlier later whole => exact ⟨earlier, whole, later, rfl, hidden, free⟩

/-- A name is free in a fragment that mentions it out of its scope. -/
theorem Mentions.free {fragment : Fragment} {scope : List String}
    (mentions : fragment.Mentions name scope) (hidden : name ∉ scope) : fragment.Free name := by
  induction mentions with
  | here names => exact free_iff.mpr (.inl names)
  | inside holds _ ih =>
      rw [List.mem_append, not_or] at hidden
      exact free_iff.mpr (.inr ⟨_, _, holds, hidden.1, ih hidden.2⟩)

/-- A name that is free in a fragment is mentioned there out of its scope. -/
theorem exists_mentions (fragment : Fragment) (free : fragment.Free name) :
    ∃ scope, fragment.Mentions name scope ∧ name ∉ scope := by
  rcases free_iff.mp free with names | ⟨bound, inner, holds, hidden, free⟩
  · exact ⟨[], .here names, List.not_mem_nil⟩
  · have := holds.sizeOf_lt
    rcases exists_mentions inner free with ⟨scope, mentions, outside⟩
    refine ⟨bound ++ scope, .inside holds mentions, ?_⟩
    rw [List.mem_append, not_or]
    exact ⟨hidden, outside⟩
termination_by sizeOf fragment

end Fragment

end Steps

/-! ## The walk -/

namespace FreeVariables

variable {bound found : List String}

theorem nodup_mention (name : String) (nodup : found.Nodup) : (mention bound found name).Nodup := by
  unfold mention
  split
  · exact nodup
  · rename_i fresh
    simp only [Bool.or_eq_true, List.contains_iff_mem, not_or] at fresh
    rw [List.nodup_append]
    simp only [List.mem_singleton]
    refine ⟨nodup, by simp, ?_⟩
    rintro other present _ rfl rfl
    exact fresh.2 present

theorem nodup_mentionAll (names : List String) (nodup : found.Nodup) :
    (mentionAll bound found names).Nodup := by
  unfold mentionAll
  induction names generalizing found with
  | nil => exact nodup
  | cons name rest ih => exact ih (nodup_mention name nodup)

mutual

theorem nodup_ofExpr (expr : Expr) {bound found : List String} (nodup : found.Nodup) :
    (ofExpr bound found expr).Nodup := by
  cases expr with
  | literal value => exact nodup
  | var name => exact nodup_mention name nodup
  | binary operator left right => exact nodup_ofExpr right (nodup_ofExpr left nodup)
  | unary operator operand => exact nodup_ofExpr operand nodup
  | call path name args =>
      rw [ofExpr]
      apply nodup_ofExprs args
      split
      · exact nodup_mention name nodup
      · exact nodup
  | methodCall receiver name args => exact nodup_ofExprs args (nodup_ofExpr receiver nodup)
  | invoke callee args => exact nodup_ofExprs args (nodup_ofExpr callee nodup)
  | field target name => exact nodup_ofExpr target nodup
  | index target position => exact nodup_ofExpr position (nodup_ofExpr target nodup)
  | ifElse condition thenBody elseBody =>
      exact nodup_ofBody elseBody (nodup_ofBlock thenBody (nodup_ofExpr condition nodup))
  | action params body => exact nodup_mentionAll _ nodup
  | array items => exact nodup_ofExprs items nodup
  | await iterable => exact nodup_ofExpr iterable nodup
termination_by structural expr

theorem nodup_ofExprs (items : List Expr) {bound found : List String} (nodup : found.Nodup) :
    (ofExprs bound found items).Nodup := by
  cases items with
  | nil => exact nodup
  | cons item rest => exact nodup_ofExprs rest (nodup_ofExpr item nodup)
termination_by structural items

theorem nodup_ofOption (value : Option Expr) {bound found : List String} (nodup : found.Nodup) :
    (ofOption bound found value).Nodup := by
  cases value with
  | none => exact nodup
  | some value => exact nodup_ofExpr value nodup
termination_by structural value

theorem nodup_ofBlock (body : List Stmt) {bound found : List String} (nodup : found.Nodup) :
    (ofBlock bound found body).Nodup := by
  cases body with
  | nil => exact nodup
  | cons statement rest => exact nodup_ofBlock rest (nodup_ofStmt statement nodup)
termination_by structural body

theorem nodup_ofBody (body : Option (List Stmt)) {bound found : List String}
    (nodup : found.Nodup) : (ofBody bound found body).Nodup := by
  cases body with
  | none => exact nodup
  | some body => exact nodup_ofBlock body nodup
termination_by structural body

theorem nodup_ofStmt (statement : Stmt) {bound found : List String} (nodup : found.Nodup) :
    (ofStmt bound found statement).Nodup := by
  cases statement with
  | letVar name value => exact nodup_ofExpr value nodup
  | assign name value => exact nodup_ofExpr value (nodup_mention name nodup)
  | fieldAssign target name value => exact nodup_ofExpr value (nodup_ofExpr target nodup)
  | indexAssign target position value =>
      exact nodup_ofExpr value (nodup_ofExpr position (nodup_ofExpr target nodup))
  | whileLoop condition body => exact nodup_ofBlock body (nodup_ofExpr condition nodup)
  | forRange name start stop step body =>
      apply nodup_ofBlock body
      exact nodup_ofOption step (nodup_ofExpr stop (nodup_ofExpr start nodup))
  | forEach name iterable body => exact nodup_ofBlock body (nodup_ofExpr iterable nodup)
  | breakLoop => exact nodup
  | yieldValue value => exact nodup_ofOption value nodup
  | returnValue value => exact nodup_ofOption value nodup
  | expr value => exact nodup_ofExpr value nodup
termination_by structural statement

end

end FreeVariables

/-- The free variables of an action, each given once, are the names with a mention in its body where
neither a parameter nor anything on the way down binds them. The way leads into nested actions too,
with their parameters and variables in scope inside. -/
theorem free_variables_mentioned_unbound (params : List String) (body : List Stmt) :
    (freeVariables params body).Nodup ∧
      ∀ name, name ∈ freeVariables params body ↔
        ∃ scope, (Fragment.block body).Mentions name scope ∧ name ∉ params ∧ name ∉ scope := by
  refine ⟨FreeVariables.nodup_ofBlock body List.nodup_nil, fun name => ?_⟩
  rw [mem_freeVariables]
  constructor
  · rintro ⟨unbound, free⟩
    rcases Fragment.exists_mentions (.block body) free with ⟨scope, mentions, outside⟩
    exact ⟨scope, mentions, unbound, outside⟩
  · rintro ⟨scope, mentions, unbound, outside⟩
    exact ⟨unbound, mentions.free outside⟩

/-- A variable is unknown in its own value, and that of a loop behind the loop. -/
example :
    freeVariables ["x"]
      [.forEach "item" (.var "items") [.expr (.call [] "print" [.var "item"])],
        .letVar "z" (.var "z"),
        .returnValue (some (.action ["y"]
          [.returnValue (some (.array [.var "y", .var "z", .var "item", .var "x"]))]))] =
      ["items", "print", "z", "item"] := by
  decide

end ScriptMachine
