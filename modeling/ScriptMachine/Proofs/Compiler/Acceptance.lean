import ScriptMachine.Proofs.Compiler.Scoping

/-!
# What the compiler accepts

Units are compiled exactly if they are well scoped. For a single function this is shown apart from
its action literals: code that could be lowered is well scoped as far as its literals are, and a
well-scoped body can be lowered. The rows of functions that compilation lays out extend this to whole
programs, since every literal comes to be lowered in its turn.
-/

namespace ScriptMachine

/-! ## Names -/

namespace Frame

/-- The names that a part of a function can use where some are in scope. -/
def visible (frame : Frame) (names : List String) : List String :=
  names ++ (frame.source.kept ++ frame.linkage.globals)

theorem isSome_globalSlotFrom? {slot : Nat} {globals : List String} {name : String} :
    (Linkage.globalSlotFrom? slot globals name).isSome ↔ name ∈ globals := by
  induction globals generalizing slot with
  | nil => simp [Linkage.globalSlotFrom?]
  | cons global rest ih =>
      rw [Linkage.globalSlotFrom?, List.mem_cons, ← @ih (slot + 1)]
      cases Linkage.globalSlotFrom? (slot + 1) rest name with
      | some found => simp
      | none =>
          by_cases same : global = name
          · simp [same]
          · simp [same, Ne.symm same]

theorem isSome_resolve? {frame : Frame} {scope : List (String × Nat)} {name : String} :
    (frame.resolve? scope name).isSome ↔ name ∈ frame.visible (scope.map Prod.fst) := by
  rw [visible, List.mem_append, List.mem_append, ← List.contains_iff_mem, ← isSome_lookup,
    ← List.contains_iff_mem, ← isSome_idxOf?, ← @isSome_globalSlotFrom? 0, resolve?,
    FunctionSource.kept]
  cases scope.lookup name with
  | some slot => simp
  | none =>
      cases (frame.source.captures.getD []).idxOf? name with
      | some index => simp
      | none =>
          rw [Linkage.globalSlot?]
          cases Linkage.globalSlotFrom? 0 frame.linkage.globals name <;> simp

theorem exists_load {frame : Frame} {scope : List (String × Nat)} {name : String} :
    (∃ loads, frame.load scope name = .ok loads) ↔
      name ∈ frame.visible (scope.map Prod.fst) := by
  rw [← isSome_resolve?, load]
  cases frame.resolve? scope name with
  | none => simp
  | some binding => cases binding <;> simp

theorem visible_captured {frame : Frame} {scope : List (String × Nat)} {params : List String}
    {body : List Stmt} :
    ∀ name ∈ frame.captured scope params body, name ∈ frame.visible (scope.map Prod.fst) := by
  intro name present
  rw [captured_eq, keptNames, List.mem_filter] at present
  simp only [Bool.or_eq_true, List.contains_iff_mem] at present
  rw [visible, List.mem_append, List.mem_append]
  exact present.2.imp_right .inl

theorem staticReceiver?_eq_none {frame : Frame} {scope : List (String × Nat)} {name : String}
    (dynamic : frame.staticReceiver? scope (.var name) = none) :
    name ∈ frame.visible (scope.map Prod.fst) := by
  rw [← isSome_resolve?]
  rw [staticReceiver?] at dynamic
  split at dynamic
  · cases dynamic
  · rename_i resolved
    simpa [Option.isSome_iff_ne_none] using resolved

end Frame

/-! ## What could be lowered is well scoped -/

mutual

theorem LowersExpr.scoped {frame : Frame} {site : Site} {before after : Progress} {expr : Expr}
    {code : Code} (lowered : LowersExpr frame site before expr code after)
    (inner : ∀ literal ∈ expr.literals frame.source.kept site.names,
      literal.Scoped frame.linkage.globals) :
    expr.Scoped (frame.visible site.names) site.loopOperands.isSome := by
  cases lowered with
  | literal => trivial
  | var loaded => exact Frame.exists_load.mp ⟨_, loaded⟩
  | shortCircuit _ leftLowered rightLowered =>
      rw [Expr.literals, List.forall_mem_append] at inner
      exact ⟨leftLowered.scoped inner.1, rightLowered.scoped inner.2⟩
  | binary _ leftLowered rightLowered =>
      rw [Expr.literals, List.forall_mem_append] at inner
      exact ⟨leftLowered.scoped inner.1, rightLowered.scoped inner.2⟩
  | unary operandLowered => exact operandLowered.scoped inner
  | callVariable _ argsLowered => exact argsLowered.scoped inner
  | call _ argsLowered => exact argsLowered.scoped inner
  | staticCall static argsLowered =>
      rcases Frame.staticReceiver?_eq_some static with ⟨rfl, _⟩
      exact ⟨.inl ⟨_, rfl⟩, argsLowered.scoped inner⟩
  | methodCall _ receiverLowered argsLowered =>
      rw [Expr.literals, List.forall_mem_append] at inner
      exact ⟨.inr (receiverLowered.scoped inner.1), argsLowered.scoped inner.2⟩
  | invoke calleeLowered argsLowered =>
      rw [Expr.literals, List.forall_mem_append] at inner
      exact ⟨calleeLowered.scoped inner.1, argsLowered.scoped inner.2⟩
  | staticField static =>
      rcases Frame.staticReceiver?_eq_some static with ⟨rfl, _⟩
      exact .inl ⟨_, rfl⟩
  | field _ targetLowered => exact .inr (targetLowered.scoped inner)
  | index targetLowered positionLowered =>
      rw [Expr.literals, List.forall_mem_append] at inner
      exact ⟨targetLowered.scoped inner.1, positionLowered.scoped inner.2⟩
  | ifElse testLowered thenLowered elseLowered =>
      rw [Expr.literals, List.forall_mem_append, List.forall_mem_append] at inner
      exact ⟨testLowered.scoped inner.1.1, thenLowered.scoped inner.1.2,
        elseLowered.scoped inner.2⟩
  | action => exact ActionLiteral.scoped_iff.mp (inner _ List.mem_cons_self)
  | array itemsLowered => exact itemsLowered.scoped inner
  | await sourceLowered => exact sourceLowered.scoped inner

theorem LowersOperands.scoped {frame : Frame} {site : Site} {before after : Progress}
    {items : List Expr} {code : Code}
    (lowered : LowersOperands frame site before items code after)
    (inner : ∀ literal ∈ Expr.listLiterals frame.source.kept site.names items,
      literal.Scoped frame.linkage.globals) :
    Expr.ListScoped (frame.visible site.names) site.loopOperands.isSome items := by
  cases lowered with
  | nil => trivial
  | cons itemLowered restLowered =>
      rw [Expr.listLiterals, List.forall_mem_append] at inner
      exact ⟨itemLowered.scoped inner.1, restLowered.scoped inner.2⟩

theorem LowersOption.scoped {frame : Frame} {site : Site} {default : Constant}
    {before after : Progress} {value : Option Expr} {code : Code}
    (lowered : LowersOption frame site default before value code after)
    (inner : ∀ literal ∈ Expr.optionLiterals frame.source.kept site.names value,
      literal.Scoped frame.linkage.globals) :
    Expr.OptionScoped (frame.visible site.names) site.loopOperands.isSome value := by
  cases lowered with
  | none => trivial
  | some valueLowered => exact valueLowered.scoped inner

theorem LowersBlock.scoped {frame : Frame} {site : Site} {before after : Progress}
    {body : List Stmt} {code : Code} (lowered : LowersBlock frame site before body code after)
    (inner : ∀ literal ∈ Stmt.listLiterals frame.source.kept site.names body,
      literal.Scoped frame.linkage.globals) :
    Stmt.ListScoped (frame.visible site.names) site.loopOperands.isSome body := by
  cases lowered with
  | empty => trivial
  | trailing valueLowered =>
      rw [Stmt.listLiterals, List.forall_mem_append] at inner
      exact ⟨valueLowered.scoped inner.1, trivial⟩
  | statement _ statementLowered restLowered =>
      rw [Stmt.listLiterals, List.forall_mem_append, ← statementLowered.names] at inner
      have rest := restLowered.scoped inner.2
      rw [statementLowered.names, Frame.visible, ← Stmt.names_append] at rest
      exact ⟨statementLowered.scoped inner.1, rest⟩

theorem LowersElse.scoped {frame : Frame} {site : Site} {before after : Progress}
    {body : Option (List Stmt)} {code : Code}
    (lowered : LowersElse frame site before body code after)
    (inner : ∀ literal ∈ Stmt.bodyLiterals frame.source.kept site.names body,
      literal.Scoped frame.linkage.globals) :
    Stmt.BodyScoped (frame.visible site.names) site.loopOperands.isSome body := by
  cases lowered with
  | absent => trivial
  | present bodyLowered => exact bodyLowered.scoped inner

theorem LowersStmts.scoped {frame : Frame} {site : Site} {before after : Progress}
    {body : List Stmt} {code : Code} (lowered : LowersStmts frame site before body code after)
    (inner : ∀ literal ∈ Stmt.listLiterals frame.source.kept site.names body,
      literal.Scoped frame.linkage.globals) :
    Stmt.ListScoped (frame.visible site.names) site.loopOperands.isSome body := by
  cases lowered with
  | nil => trivial
  | cons statementLowered restLowered =>
      rw [Stmt.listLiterals, List.forall_mem_append, ← statementLowered.names] at inner
      have rest := restLowered.scoped inner.2
      rw [statementLowered.names, Frame.visible, ← Stmt.names_append] at rest
      exact ⟨statementLowered.scoped inner.1, rest⟩

theorem LowersStmt.scoped {frame : Frame} {site : Site} {before after : Progress}
    {statement : Stmt} {code : Code} {scope : List (String × Nat)}
    (lowered : LowersStmt frame site before statement code scope after)
    (inner : ∀ literal ∈ statement.literals frame.source.kept site.names,
      literal.Scoped frame.linkage.globals) :
    statement.Scoped (frame.visible site.names) site.loopOperands.isSome := by
  cases lowered with
  | letVar valueLowered => exact valueLowered.scoped inner
  | assignLocal resolved valueLowered =>
      exact ⟨Frame.isSome_resolve?.mp (by rw [resolved]; rfl), valueLowered.scoped inner⟩
  | assignCapture resolved valueLowered =>
      exact ⟨Frame.isSome_resolve?.mp (by rw [resolved]; rfl), valueLowered.scoped inner⟩
  | assignGlobal resolved valueLowered =>
      exact ⟨Frame.isSome_resolve?.mp (by rw [resolved]; rfl), valueLowered.scoped inner⟩
  | fieldAssign targetLowered valueLowered =>
      rw [Stmt.literals, List.forall_mem_append] at inner
      exact ⟨targetLowered.scoped inner.1, valueLowered.scoped inner.2⟩
  | indexAssign targetLowered positionLowered valueLowered =>
      rw [Stmt.literals, List.forall_mem_append, List.forall_mem_append] at inner
      exact ⟨targetLowered.scoped inner.1.1, positionLowered.scoped inner.1.2,
        valueLowered.scoped inner.2⟩
  | whileLoop testLowered bodyLowered =>
      rw [Stmt.literals, List.forall_mem_append] at inner
      exact ⟨testLowered.scoped inner.1, bodyLowered.scoped inner.2⟩
  | forRange stopLowered stepLowered startLowered _ bodyLowered =>
      rw [Stmt.literals, List.forall_mem_append, List.forall_mem_append,
        List.forall_mem_append] at inner
      exact ⟨startLowered.scoped inner.1.2, stopLowered.scoped inner.1.1.1,
        stepLowered.scoped inner.1.1.2, bodyLowered.scoped inner.2⟩
  | forEach sourceLowered _ bodyLowered =>
      rw [Stmt.literals, List.forall_mem_append] at inner
      exact ⟨sourceLowered.scoped inner.1, bodyLowered.scoped inner.2⟩
  | breakLoop inLoop => rw [Stmt.Scoped, inLoop]; rfl
  | yieldValue valueLowered => exact valueLowered.scoped inner
  | returnValue valueLowered => exact valueLowered.scoped inner
  | expr valueLowered => exact valueLowered.scoped inner

end

/-! ## What is well scoped can be lowered -/

/-- A step of lowering that succeeds whatever was lowered before. -/
def Lower.Total {α : Type} (step : Lower α) : Prop :=
  ∀ before, ∃ result after, step.run before = .ok (result, after)

namespace Lower.Total

variable {α β : Type}

theorem pure {value : α} : Lower.Total (Pure.pure value) := fun before => ⟨value, before, rfl⟩

/-- What follows may rely on what the first step could give. -/
theorem bindOf {first : Lower α} {next : α → Lower β} (one : Lower.Total first)
    (two : ∀ before result after, first.run before = .ok (result, after) →
      Lower.Total (next result)) :
    Lower.Total (first >>= next) := by
  intro before
  rcases one before with ⟨result, middle, firstRan⟩
  rcases two before result middle firstRan middle with ⟨last, after, nextRan⟩
  refine ⟨last, after, ?_⟩
  change (first.run before >>= fun pair => (next pair.1).run pair.2) = _
  rw [firstRan]
  exact nextRan

theorem bind {first : Lower α} {next : α → Lower β} (one : Lower.Total first)
    (two : ∀ result, Lower.Total (next result)) : Lower.Total (first >>= next) :=
  one.bindOf fun _ result _ _ => two result

theorem lift {made : Except CompileError α} (succeeds : ∃ value, made = .ok value) :
    Lower.Total (liftM made) := by
  rcases succeeds with ⟨value, rfl⟩
  exact fun before => ⟨value, before, rfl⟩

theorem slot {frame : Frame} : Lower.Total (freshSlot frame) := fun _ => ⟨_, _, rfl⟩

theorem loads {frame : Frame} {scope : List (String × Nat)} {names : List String}
    (bound : ∀ name ∈ names, name ∈ frame.visible (scope.map Prod.fst)) :
    Lower.Total (names.mapM fun name => (liftM (frame.load scope name) : Lower _)) := by
  induction names with
  | nil => exact pure
  | cons name rest ih =>
      rw [List.mapM_cons]
      refine bind (lift (Frame.exists_load.mpr (bound name List.mem_cons_self))) fun _ => ?_
      exact bind (ih fun other later => bound other (List.mem_cons_of_mem _ later)) fun _ => pure

theorem action {frame : Frame} {site : Site} {params : List String} {body : List Stmt} :
    Lower.Total (lowerAction frame site params body) :=
  bind (loads Frame.visible_captured) fun _ _ => ⟨_, _, rfl⟩

end Lower.Total

section

open Lower.Total

theorem names_of_lowerStmt {frame : Frame} {site next : Site} {before after : Progress}
    {statement : Stmt} {code : Code}
    (ran : (lowerStmt frame site statement).run before = .ok ((code, next), after)) :
    next.names = statement.names site.names ∧ next.loopOperands = site.loopOperands := by
  rcases lowersStmt_of_run statement ran with ⟨scope, rfl, lowered⟩
  exact ⟨lowered.names, rfl⟩

/-- What is well scoped where a statement ends is so at the site behind the statement. -/
theorem scoped_behind {frame : Frame} {site next : Site} {before after : Progress}
    {statement : Stmt} {code : Code} {rest : List Stmt}
    (ran : (lowerStmt frame site statement).run before = .ok ((code, next), after))
    (inScope : Stmt.ListScoped (statement.names (frame.visible site.names))
      site.loopOperands.isSome rest) :
    Stmt.ListScoped (frame.visible next.names) next.loopOperands.isSome rest := by
  rcases names_of_lowerStmt ran with ⟨names, inLoop⟩
  rw [names, inLoop]
  rwa [Frame.visible, Stmt.names_append] at inScope

mutual

theorem lowerExpr_total {frame : Frame} {site : Site} (expr : Expr)
    (inScope : expr.Scoped (frame.visible site.names) site.loopOperands.isSome) :
    Lower.Total (lowerExpr frame site expr) := by
  cases expr with
  | literal value => exact pure
  | var name =>
      rw [lowerExpr]
      exact bind (lift (Frame.exists_load.mpr inScope)) fun _ => pure
  | binary operator left right =>
      rw [lowerExpr]
      split
      · exact bind (lowerExpr_total left inScope.1) fun _ =>
          bind (lowerExpr_total right inScope.2) fun _ => pure
      · exact bind (lowerExpr_total left inScope.1) fun _ =>
          bind (lowerExpr_total right inScope.2) fun _ => pure
  | unary operator operand =>
      rw [lowerExpr]
      exact bind (lowerExpr_total operand inScope) fun _ => pure
  | call path name args =>
      rw [lowerExpr]
      split
      · rename_i isVariable
        have bound := Frame.isSome_resolve?.mp (Bool.and_eq_true_iff.mp isVariable).2
        exact bind (lift (Frame.exists_load.mpr bound)) fun _ =>
          bind (lowerOperands_total args inScope) fun _ => pure
      · exact bind (lowerOperands_total args inScope) fun _ => pure
  | methodCall receiver name args =>
      rw [lowerExpr]
      split
      · exact bind (lowerOperands_total args inScope.2) fun _ => pure
      · rename_i dynamic
        refine bind ?_ fun _ => bind (lowerOperands_total args inScope.2) fun _ => pure
        rcases inScope.1 with ⟨name, rfl⟩ | receiverInScope
        · have bound := Frame.staticReceiver?_eq_none dynamic
          rw [lowerExpr]
          exact bind (lift (Frame.exists_load.mpr bound)) fun _ => pure
        · exact lowerExpr_total receiver receiverInScope
  | invoke callee args =>
      rw [lowerExpr]
      exact bind (lowerExpr_total callee inScope.1) fun _ =>
        bind (lowerOperands_total args inScope.2) fun _ => pure
  | field target name =>
      rw [lowerExpr]
      split
      · exact pure
      · rename_i dynamic
        refine bind ?_ fun _ => pure
        rcases inScope with ⟨name, rfl⟩ | targetInScope
        · have bound := Frame.staticReceiver?_eq_none dynamic
          rw [lowerExpr]
          exact bind (lift (Frame.exists_load.mpr bound)) fun _ => pure
        · exact lowerExpr_total target targetInScope
  | index target position =>
      rw [lowerExpr]
      exact bind (lowerExpr_total target inScope.1) fun _ =>
        bind (lowerExpr_total position inScope.2) fun _ => pure
  | ifElse condition thenBody elseBody =>
      rw [lowerExpr]
      exact bind (lowerExpr_total condition inScope.1) fun _ =>
        bind (lowerBlock_total thenBody inScope.2.1) fun _ =>
        bind (lowerElse_total elseBody inScope.2.2) fun _ => pure
  | action params body =>
      rw [lowerExpr]
      exact action
  | array items =>
      rw [lowerExpr]
      exact bind (lowerOperands_total items inScope) fun _ => pure
  | await iterable =>
      rw [lowerExpr]
      exact bind (lowerExpr_total iterable inScope) fun _ => bind slot fun _ => bind slot fun _ =>
        pure
termination_by structural expr

theorem lowerOperands_total {frame : Frame} {site : Site} (items : List Expr)
    (inScope : Expr.ListScoped (frame.visible site.names) site.loopOperands.isSome items) :
    Lower.Total (lowerOperands frame site items) := by
  cases items with
  | nil => exact pure
  | cons item rest =>
      rw [lowerOperands]
      exact bind (lowerExpr_total item inScope.1) fun _ =>
        bind (lowerOperands_total rest inScope.2) fun _ => pure
termination_by structural items

theorem lowerOption_total {frame : Frame} {site : Site} {default : Constant} (value : Option Expr)
    (inScope : Expr.OptionScoped (frame.visible site.names) site.loopOperands.isSome value) :
    Lower.Total (lowerOption frame site default value) := by
  cases value with
  | none => exact pure
  | some value => exact lowerExpr_total value inScope
termination_by structural value

theorem lowerBlock_total {frame : Frame} {site : Site} (body : List Stmt)
    (inScope : Stmt.ListScoped (frame.visible site.names) site.loopOperands.isSome body) :
    Lower.Total (lowerBlock frame site body) := by
  cases body with
  | nil => exact pure
  | cons statement rest =>
      by_cases trailing : ∃ value, statement = .expr value ∧ rest = []
      · cases rest with
        | cons => simp at trailing
        | nil =>
            cases statement with
            | expr value => exact lowerExpr_total value inScope.1
            | _ => simp at trailing
      · rw [lowerBlock_cons trailing]
        exact bindOf (lowerStmt_total statement inScope.1) fun _ _ _ ran =>
          bind (lowerBlock_total rest (scoped_behind ran inScope.2)) fun _ => pure
termination_by structural body

theorem lowerElse_total {frame : Frame} {site : Site} (body : Option (List Stmt))
    (inScope : Stmt.BodyScoped (frame.visible site.names) site.loopOperands.isSome body) :
    Lower.Total (lowerElse frame site body) := by
  cases body with
  | none => exact pure
  | some body => exact lowerBlock_total body inScope
termination_by structural body

theorem lowerStmts_total {frame : Frame} {site : Site} (body : List Stmt)
    (inScope : Stmt.ListScoped (frame.visible site.names) site.loopOperands.isSome body) :
    Lower.Total (lowerStmts frame site body) := by
  cases body with
  | nil => exact pure
  | cons statement rest =>
      rw [lowerStmts]
      exact bindOf (lowerStmt_total statement inScope.1) fun _ _ _ ran =>
        bind (lowerStmts_total rest (scoped_behind ran inScope.2)) fun _ => pure
termination_by structural body

theorem lowerStmt_total {frame : Frame} {site : Site} (statement : Stmt)
    (inScope : statement.Scoped (frame.visible site.names) site.loopOperands.isSome) :
    Lower.Total (lowerStmt frame site statement) := by
  cases statement with
  | letVar name value =>
      rw [lowerStmt]
      exact bind (lowerExpr_total value inScope) fun _ => bind slot fun _ => pure
  | assign name value =>
      have bound := Frame.isSome_resolve?.mpr inScope.1
      rw [lowerStmt]
      split
      · exact bind (lowerExpr_total value inScope.2) fun _ => pure
      · exact bind (lowerExpr_total value inScope.2) fun _ => pure
      · exact bind (lowerExpr_total value inScope.2) fun _ => pure
      · rename_i unbound
        rw [unbound] at bound
        cases bound
  | fieldAssign target name value =>
      rw [lowerStmt]
      exact bind (lowerExpr_total target inScope.1) fun _ =>
        bind (lowerExpr_total value inScope.2) fun _ => pure
  | indexAssign target position value =>
      rw [lowerStmt]
      exact bind (lowerExpr_total target inScope.1) fun _ =>
        bind (lowerExpr_total position inScope.2.1) fun _ =>
        bind (lowerExpr_total value inScope.2.2) fun _ => pure
  | whileLoop condition body =>
      rw [lowerStmt]
      exact bind (lowerExpr_total condition inScope.1) fun _ =>
        bind (lowerStmts_total body inScope.2) fun _ => pure
  | forRange name start stop step body =>
      rcases inScope with ⟨startInScope, stopInScope, stepInScope, bodyInScope⟩
      rw [lowerStmt]
      exact bind (lowerExpr_total stop stopInScope) fun _ => bind slot fun _ =>
        bind (lowerOption_total step stepInScope) fun _ => bind slot fun _ =>
        bind (lowerExpr_total start startInScope) fun _ => bind slot fun _ =>
        bind (lowerStmts_total body bodyInScope) fun _ => pure
  | forEach name iterable body =>
      rw [lowerStmt]
      exact bind (lowerExpr_total iterable inScope.1) fun _ => bind slot fun _ => bind slot fun _ =>
        bind (lowerStmts_total body inScope.2) fun _ => pure
  | breakLoop =>
      rw [lowerStmt]
      split
      · rename_i outside
        rw [Stmt.Scoped, outside] at inScope
        cases inScope
      · exact pure
  | yieldValue value =>
      rw [lowerStmt]
      exact bind (lowerOption_total value inScope) fun _ => pure
  | returnValue value =>
      rw [lowerStmt]
      exact bind (lowerOption_total value inScope) fun _ => pure
  | expr value =>
      rw [lowerStmt]
      exact bind (lowerExpr_total value inScope) fun _ => pure
termination_by structural statement

end

end

/-! ## Functions -/

namespace FunctionSource

/-- Whether the body of a function is well scoped with nothing around it but what it keeps. -/
def Scoped (globals : List String) (source : FunctionSource) : Prop :=
  source.arity ≤ parameterLimit ∧
    Stmt.ListScoped (source.params ++ (source.kept ++ globals)) false source.body

variable {source : FunctionSource} {linkage : Linkage} {position : Nat}

theorem names_site : (source.site position).names = source.params.reverse := by
  simp [site, Site.names, parameterScope, List.map_reverse]

/-- At the start of a function the parameters are in scope, the later of two with one name. -/
theorem scoped_body :
    Stmt.ListScoped (source.params.reverse ++ (source.kept ++ linkage.globals)) false
        source.body ↔
      Stmt.ListScoped (source.params ++ (source.kept ++ linkage.globals)) false source.body := by
  apply Stmt.listScoped_congr
  intro name _
  simp

theorem mem_nestedFrom {index : Nat} {literals : List ActionLiteral} {action : FunctionSource}
    (present : action ∈ source.nestedFrom index literals) :
    ∃ number, ∃ literal ∈ literals, action = source.nested number literal := by
  rcases List.mem_map.mp present with ⟨⟨literal, number⟩, numbered, rfl⟩
  exact ⟨number, literal, List.fst_mem_of_mem_zipIdx numbered, rfl⟩

theorem exists_nested_mem {index : Nat} {literals : List ActionLiteral} {literal : ActionLiteral}
    (present : literal ∈ literals) :
    ∃ number, source.nested number literal ∈ source.nestedFrom index literals := by
  rcases List.mem_iff_getElem.mp present with ⟨number, inside, rfl⟩
  refine ⟨index + number, List.mem_map.mpr ⟨(literals[number], index + number), ?_, rfl⟩⟩
  exact List.mk_add_mem_zipIdx_iff_getElem?.mpr (List.getElem?_eq_getElem inside)

theorem actions_scoped (inScope : source.Scoped linkage.globals) :
    ∀ action ∈ source.actions, action.Scoped linkage.globals := by
  intro action present
  rcases mem_nestedFrom present with ⟨number, literal, inside, rfl⟩
  exact Stmt.listLiterals_scoped source.body (scoped_body.mpr inScope.2) literal inside

theorem exists_lowerFunction (inScope : source.Scoped linkage.globals) :
    ∃ code, lowerFunction linkage position source = .ok (code, source.actions) := by
  have bodyInScope := scoped_body.mpr inScope.2
  rw [← @names_site source position] at bodyInScope
  rcases @lowerStmts_total ⟨linkage, source⟩ (source.site position) source.body bodyInScope
    ⟨0, []⟩ with ⟨body, progress, ran⟩
  have lowered : ∃ result, lowerFunction linkage position source = .ok result := by
    unfold lowerFunction
    rw [if_neg (Nat.not_lt.mpr inScope.1)]
    unfold site at ran
    exact ⟨_, by simp only [ran]; rfl⟩
  rcases lowered with ⟨⟨code, actions⟩, lowered⟩
  exact ⟨code, actions_of_lowerFunction lowered ▸ lowered⟩

/-- A function that could be lowered is well scoped if its literals are. -/
theorem scoped_of_lowerFunction {code : List Instruction} {actions : List FunctionSource}
    (lowered : lowerFunction linkage position source = .ok (code, actions))
    (inner : ∀ action ∈ actions, action.Scoped linkage.globals) :
    source.Scoped linkage.globals := by
  have small : source.arity ≤ parameterLimit := by
    unfold lowerFunction at lowered
    split at lowered
    · cases lowered
    · omega
  rcases lowerFunction_ok lowered with ⟨body, progress, bodyLowered, _, _⟩
  have bodyInScope := bodyLowered.scoped ?inner
  case inner =>
    rw [names_site]
    intro literal present
    rcases source.exists_nested_mem present with ⟨number, among⟩
    rw [actions_of_lowerFunction lowered] at inner
    exact inner _ among
  rw [names_site] at bodyInScope
  exact ⟨small, scoped_body.mp bodyInScope⟩

end FunctionSource

/-! ## Programs -/

namespace Assembly

variable {linkage : Linkage} {assembly : Assembly} {pending : List FunctionSource}

theorem exists_place {source : FunctionSource} (inScope : source.Scoped linkage.globals) :
    ∃ later, assembly.place linkage source = .ok (later, source.actions) := by
  rcases source.exists_lowerFunction inScope with ⟨code, lowered⟩
  exact ⟨_, by rw [place, lowered]; rfl⟩

theorem exists_placeAll (inScope : ∀ source ∈ pending, source.Scoped linkage.globals) :
    ∃ later, assembly.placeAll linkage pending =
      .ok (later, pending.flatMap FunctionSource.actions) := by
  induction pending generalizing assembly with
  | nil => exact ⟨assembly, rfl⟩
  | cons source rest ih =>
      rcases exists_place (inScope source List.mem_cons_self) with ⟨next, first⟩
      rcases ih fun other later => inScope other (List.mem_cons_of_mem _ later) with
        ⟨last, others⟩
      refine ⟨last, ?_⟩
      rw [placeAll, first]
      change (next.placeAll linkage rest >>= fun pair => pure (pair.1, source.actions ++ pair.2)) = _
      rw [others]
      rfl

theorem exists_placeActions {bound : Nat}
    (inScope : ∀ source ∈ pending, source.Scoped linkage.globals) :
    ∃ last, placeActions linkage bound assembly pending = .ok last := by
  induction bound generalizing assembly pending with
  | zero => cases pending <;> exact ⟨assembly, rfl⟩
  | succ bound ih =>
      cases pending with
      | nil => exact ⟨assembly, rfl⟩
      | cons source rest =>
          have first := inScope source List.mem_cons_self
          rcases exists_place first with ⟨next, placing⟩
          rw [placeActions, placing]
          apply ih
          exact forall_mem_append (fun other later => inScope other (List.mem_cons_of_mem _ later))
            (FunctionSource.actions_scoped first)

end Assembly

theorem exists_bind_ok {ε α β : Type} {first : Except ε α} {next : α → Except ε β} {value : α}
    (one : first = .ok value) (two : ∃ result, next value = .ok result) :
    ∃ result, (first >>= next) = .ok result := by
  subst first
  exact two

theorem firstDuplicate?_eq_none {seen functions : List FunctionRef} :
    firstDuplicate? seen functions = none ↔
      functions.Nodup ∧ ∀ function ∈ functions, function ∉ seen := by
  induction functions generalizing seen with
  | nil => simp [firstDuplicate?]
  | cons function rest ih =>
      rw [firstDuplicate?]
      by_cases before : function ∈ seen
      · simp [before]
      · simp only [List.contains_iff_mem, before, ↓reduceIte, ih, List.nodup_cons, List.mem_cons]
        grind

theorem reference_declaredSources (units : List ProgramUnit) :
    (declaredSources units).map FunctionSource.reference =
      (units.flatMap fun unit => unit.functions.map fun function =>
        (unit.path, function.name)).map fun name => ⟨name.1, name.2⟩ := by
  simp [declaredSources, List.map_flatMap, Function.comp_def, FunctionSource.reference,
    FunctionSource.declared]

theorem unique_iff {units : List ProgramUnit} :
    firstDuplicate? [] ((declaredSources units).map FunctionSource.reference) = none ↔
      (units.flatMap fun unit =>
        unit.functions.map fun function => (unit.path, function.name)).Nodup := by
  rw [firstDuplicate?_eq_none, reference_declaredSources]
  simp only [List.not_mem_nil, not_false_eq_true, implies_true, and_true]
  constructor
  · intro unique
    refine List.Pairwise.of_map _ ?_ unique
    rintro first second different rfl
    exact different rfl
  · intro unique
    refine List.Pairwise.map _ ?_ unique
    rintro ⟨path, name⟩ ⟨other, wanted⟩ different same
    cases same
    exact different rfl

theorem declared_scoped {units : List ProgramUnit} {globals : List String} :
    (∀ source ∈ declaredSources units, source.Scoped globals) ↔
      ∀ unit ∈ units, ∀ function ∈ unit.functions, function.Scoped globals := by
  simp only [declaredSources, List.mem_flatMap, List.mem_map, forall_exists_index, and_imp]
  constructor
  · exact fun sources unit known function declared =>
      sources _ unit known function declared rfl
  · rintro functions _ unit known function declared rfl
    exact functions unit known function declared

theorem listActionCount_lt_literalCount {sources : List FunctionSource} {source : FunctionSource}
    (present : source ∈ sources) : Stmt.listActionCount source.body < literalCount sources := by
  induction sources with
  | nil => cases present
  | cons first rest ih =>
      rw [literalCount]
      rcases List.mem_cons.mp present with rfl | later
      · omega
      · have := ih later
        omega

/-- Every function of a compiled program is well scoped. The induction is on the number of literals
in a body: those in it are functions of the program too, and hold fewer. -/
theorem Program.Compiled.scoped {units : List ProgramUnit} {globals : List String}
    {program : Program} {placed : List Placement}
    (compiled : program.Compiled units globals placed) {placement : Placement}
    (member : placement ∈ placed) : placement.source.Scoped globals := by
  generalize size : Stmt.listActionCount placement.source.body = count
  induction count using Nat.strongRecOn generalizing placement with
  | ind count ih =>
      have lowered := (compiled.laidOut.split member).1
      refine FunctionSource.scoped_of_lowerFunction lowered fun action met => ?_
      have among : action ∈ placed.map Placement.source := by
        rw [compiled.sources]
        exact List.mem_append_right _ (List.mem_flatMap.mpr ⟨placement, member, met⟩)
      rcases List.mem_map.mp among with ⟨inner, innerMember, rfl⟩
      refine ih _ ?_ innerMember rfl
      rw [← size, ← Assembly.literalCount_lowerFunction lowered]
      exact listActionCount_lt_literalCount met

/-- Units are compiled exactly if there are any and they are well scoped. -/
theorem compile_accepts_iff (units : List ProgramUnit) (globals : List String) :
    (∃ program, compileUnits units globals = .ok program) ↔
      units ≠ [] ∧ WellScoped globals units := by
  constructor
  · rintro ⟨program, accepted⟩
    have present : units ≠ [] := by
      rintro rfl
      cases accepted
    rcases compileUnits_ok accepted with ⟨placed, compiled⟩
    refine ⟨present, unique_iff.mp compiled.unique, declared_scoped.mp fun source declared => ?_⟩
    have among : source ∈ placed.map Placement.source := by
      rw [compiled.sources]
      exact List.mem_append_left _ declared
    rcases List.mem_map.mp among with ⟨placement, member, rfl⟩
    exact compiled.scoped member
  · rintro ⟨present, wellScoped⟩
    have inScope := declared_scoped.mpr wellScoped.functions
    have unique := unique_iff.mpr wellScoped.unique
    let linkage : Linkage := ⟨globals, (declaredSources units).map FunctionSource.reference⟩
    rcases @Assembly.exists_placeAll linkage .empty _ inScope with
      ⟨declared, placing⟩
    have inner : ∀ source ∈ (declaredSources units).flatMap FunctionSource.actions,
        source.Scoped globals := by
      intro action met
      rcases List.mem_flatMap.mp met with ⟨source, known, among⟩
      exact @FunctionSource.actions_scoped source linkage (inScope source known) action among
    rcases @Assembly.exists_placeActions linkage declared _
      ((declaredSources units).foldl
        (fun count source => count + Stmt.listActionCount source.body) 0) inner with
      ⟨last, placingActions⟩
    unfold compileUnits
    split
    · rename_i empty
      exact absurd (List.isEmpty_iff.mp empty) present
    · dsimp only
      split
      · rename_i function duplicate
        cases unique.symm.trans duplicate
      · exact exists_bind_ok placing (exists_bind_ok placingActions ⟨_, rfl⟩)

end ScriptMachine
