import ScriptMachine.Compiler.Basic

/-!
# Lowering as a relation

Lowering is a computation that counts slots and literals on the way and may fail. Once it has
succeeded, what matters is how the code of a part is put together from the code of its parts. This
file states that as a relation with one rule for each form of a statement or an expression, and
shows that every successful lowering obeys it. Properties of lowered code are then proved by
induction on the rules.
-/

namespace ScriptMachine

namespace Frame

/-- The function that an action literal becomes; `index` counts the literals of the function around
it. -/
def literal (frame : Frame) (scope : List (String × Nat)) (index : Nat) (params : List String)
    (body : List Stmt) : FunctionSource :=
  { frame.source with
    name := frame.source.name ++ "$action" ++ toString index
    params := params
    body := body
    captures := some (frame.captured scope params body) }

/-- The slot that the next local takes. -/
def slot (frame : Frame) (locals : Nat) : Nat := frame.source.arity + frameHeader + locals

end Frame

namespace FunctionSource

/-- How a program refers to the function. -/
def reference (source : FunctionSource) : FunctionRef := ⟨source.path, source.name⟩

end FunctionSource

namespace Site

/-- The site behind a statement's code, with the names that are in scope from there on. -/
def behind (site : Site) (code : Code) (scope : List (String × Nat)) : Site :=
  { site with position := site.position + code.length, scope := scope }

end Site

namespace Progress

/-- Some more slots are taken. -/
def take (progress : Progress) (count : Nat) : Progress :=
  { progress with locals := progress.locals + count }

/-- One more literal is met. -/
def meet (progress : Progress) (literal : FunctionSource) : Progress :=
  { progress with actions := progress.actions ++ [literal] }

end Progress

namespace Code

/-- The loop of an `await` whose first instruction stands at `start`, behind the source. -/
def awaitLoop (start iterator current : Nat) : List Instruction :=
  [.getIterator, .storeLocal iterator, .pushConst .unit, .storeLocal current,
    .loadLocal iterator, .iterMoveNext, .jumpIfFalse (start + 9),
    .loadLocal iterator, .iterCurrent, .storeLocal current,
    .loadLocal current, .yieldValue, .jump start,
    .loadLocal current]

/-- The test of a numeric loop, which depends on the sign of the step. -/
def rangeTest (first after slot stopSlot stepSlot : Nat) : List Instruction :=
  [.loadLocal stepSlot, .pushConst (.int 0), .binary .lt, .jumpIfFalse (first + 8),
    .loadLocal slot, .loadLocal stopSlot, .binary .ge, .jump (first + 11),
    .loadLocal slot, .loadLocal stopSlot, .binary .le, .jumpIfFalse after]

/-- The end of a numeric loop, which goes on to the next number. -/
def rangeNext (first slot stepSlot : Nat) : List Instruction :=
  [.loadLocal slot, .loadLocal stepSlot, .binary .add, .storeLocal slot, .jump first]

/-- The test of a loop over an iterator, which binds the next element. -/
def eachTest (after iterator slot : Nat) : List Instruction :=
  [.loadLocal iterator, .iterMoveNext, .jumpIfFalse after,
    .loadLocal iterator, .iterCurrent, .storeLocal slot]

end Code

mutual

/-- The code of an expression at a site, with the progress before and after it. -/
inductive LowersExpr (frame : Frame) : Site → Progress → Expr → Code → Progress → Prop
  | literal {site before value} :
      LowersExpr frame site before (.literal value) [.ready (.pushConst (.ofLiteral value))] before
  | var {site before name loads} (loaded : frame.load site.scope name = .ok loads) :
      LowersExpr frame site before (.var name) (.ofInstructions loads) before
  | shortCircuit {site before operator left right jump leftCode middle rightCode after}
      (short : shortCircuit? operator = some jump)
      (leftLowered : LowersExpr frame site before left leftCode middle)
      (rightLowered :
        LowersExpr frame (site.after (leftCode.length + 1)) middle right rightCode after) :
      LowersExpr frame site before (.binary operator left right)
        (leftCode ++
          .ready (jump (site.position + leftCode.length + 1 + rightCode.length)) :: rightCode)
        after
  | binary {site before operator left right leftCode middle rightCode after}
      (strict : shortCircuit? operator = none)
      (leftLowered : LowersExpr frame site before left leftCode middle)
      (rightLowered : LowersExpr frame ((site.after leftCode.length).deeper 1) middle right
        rightCode after) :
      LowersExpr frame site before (.binary operator left right)
        (leftCode ++ rightCode ++ [.ready (.binary operator)]) after
  | unary {site before operator operand code after}
      (operandLowered : LowersExpr frame site before operand code after) :
      LowersExpr frame site before (.unary operator operand)
        (code ++ [.ready (.unary operator)]) after
  | callVariable {site before name args loads code after}
      (loaded : frame.load site.scope name = .ok loads)
      (argsLowered : LowersOperands frame ((site.after loads.length).deeper 1) before args
        code after) :
      LowersExpr frame site before (.call [] name args)
        (.ofInstructions loads ++ code ++ [.ready (.invokeClosure args.length)]) after
  | call {site before path name args code after}
      (notVariable : path = [] → frame.resolve? site.scope name = none)
      (argsLowered : LowersOperands frame site before args code after) :
      LowersExpr frame site before (.call path name args)
        (code ++ [.ready (callInstruction frame path name args.length)]) after
  | staticCall {site before receiver typeName name args code after}
      (static : frame.staticReceiver? site.scope receiver = some typeName)
      (argsLowered : LowersOperands frame site before args code after) :
      LowersExpr frame site before (.methodCall receiver name args)
        (code ++ [.ready (.callStatic typeName name args.length false)]) after
  | methodCall {site before receiver name args receiverCode middle code after}
      (dynamic : frame.staticReceiver? site.scope receiver = none)
      (receiverLowered : LowersExpr frame site before receiver receiverCode middle)
      (argsLowered : LowersOperands frame ((site.after receiverCode.length).deeper 1) middle args
        code after) :
      LowersExpr frame site before (.methodCall receiver name args)
        (receiverCode ++ code ++ [.ready (.callMethod name args.length)]) after
  | invoke {site before callee args calleeCode middle code after}
      (calleeLowered : LowersExpr frame site before callee calleeCode middle)
      (argsLowered : LowersOperands frame ((site.after calleeCode.length).deeper 1) middle args
        code after) :
      LowersExpr frame site before (.invoke callee args)
        (calleeCode ++ code ++ [.ready (.invokeClosure args.length)]) after
  | staticField {site before target typeName name}
      (static : frame.staticReceiver? site.scope target = some typeName) :
      LowersExpr frame site before (.field target name)
        [.ready (.loadStatic typeName name false)] before
  | field {site before target name code after}
      (dynamic : frame.staticReceiver? site.scope target = none)
      (targetLowered : LowersExpr frame site before target code after) :
      LowersExpr frame site before (.field target name) (code ++ [.ready (.loadField name)]) after
  | index {site before target position targetCode middle positionCode after}
      (targetLowered : LowersExpr frame site before target targetCode middle)
      (positionLowered : LowersExpr frame ((site.after targetCode.length).deeper 1) middle position
        positionCode after) :
      LowersExpr frame site before (.index target position)
        (targetCode ++ positionCode ++ [.ready .loadIndex]) after
  | ifElse {site before condition thenBody elseBody test afterTest thenCode afterThen elseCode after}
      (testLowered : LowersExpr frame site before condition test afterTest)
      (thenLowered : LowersBlock frame (site.after (test.length + 1)) afterTest thenBody
        thenCode afterThen)
      (elseLowered : LowersElse frame (site.after (test.length + 1 + thenCode.length + 1))
        afterThen elseBody elseCode after) :
      LowersExpr frame site before (.ifElse condition thenBody elseBody)
        (test ++ .ready (.jumpIfFalse (site.position + (test.length + 1 + thenCode.length + 1))) ::
          thenCode ++
          .ready (.jump (site.position + (test.length + 1 + thenCode.length + 1) +
            elseCode.length)) :: elseCode)
        after
  | action {site before params body loads}
      (loaded : (frame.captured site.scope params body).mapM (frame.load site.scope) = .ok loads) :
      LowersExpr frame site before (.action params body)
        (.ofInstructions (loads.flatten ++
          [.makeArray (frame.captured site.scope params body).length,
            .makeClosure
              (frame.literal site.scope before.actions.length params body).reference]))
        (before.meet (frame.literal site.scope before.actions.length params body))
  | array {site before items code after}
      (itemsLowered : LowersOperands frame site before items code after) :
      LowersExpr frame site before (.array items) (code ++ [.ready (.makeArray items.length)]) after
  | await {site before iterable source after}
      (sourceLowered : LowersExpr frame site before iterable source after) :
      LowersExpr frame site before (.await iterable)
        (source ++ .ofInstructions (Code.awaitLoop (site.position + source.length + 4)
          (frame.slot after.locals) (frame.slot (after.locals + 1))))
        (after.take 2)

/-- The code of operands, each waiting while the next is evaluated. -/
inductive LowersOperands (frame : Frame) : Site → Progress → List Expr → Code → Progress → Prop
  | nil {site before} : LowersOperands frame site before [] [] before
  | cons {site before item rest code middle restCode after}
      (itemLowered : LowersExpr frame site before item code middle)
      (restLowered : LowersOperands frame ((site.after code.length).deeper 1) middle rest
        restCode after) :
      LowersOperands frame site before (item :: rest) (code ++ restCode) after

/-- The code of an expression that may be absent. -/
inductive LowersOption (frame : Frame) :
    Site → Constant → Progress → Option Expr → Code → Progress → Prop
  | none {site default before} :
      LowersOption frame site default before none [.ready (.pushConst default)] before
  | some {site default before value code after}
      (valueLowered : LowersExpr frame site before value code after) :
      LowersOption frame site default before (some value) code after

/-- The code of a block that leaves its value. -/
inductive LowersBlock (frame : Frame) : Site → Progress → List Stmt → Code → Progress → Prop
  | empty {site before} : LowersBlock frame site before [] [.ready (.pushConst .unit)] before
  | trailing {site before value code after}
      (valueLowered : LowersExpr frame site before value code after) :
      LowersBlock frame site before [.expr value] code after
  | statement {site before statement rest code scope middle restCode after}
      (notTrailing : ∀ value, statement = .expr value → rest ≠ [])
      (statementLowered : LowersStmt frame site before statement code scope middle)
      (restLowered : LowersBlock frame (site.behind code scope) middle rest restCode after) :
      LowersBlock frame site before (statement :: rest) (code ++ restCode) after

/-- The code of the other branch, which may be absent. -/
inductive LowersElse (frame : Frame) :
    Site → Progress → Option (List Stmt) → Code → Progress → Prop
  | absent {site before} : LowersElse frame site before none [.ready (.pushConst .unit)] before
  | present {site before body code after}
      (bodyLowered : LowersBlock frame site before body code after) :
      LowersElse frame site before (some body) code after

/-- The code of statements. -/
inductive LowersStmts (frame : Frame) : Site → Progress → List Stmt → Code → Progress → Prop
  | nil {site before} : LowersStmts frame site before [] [] before
  | cons {site before statement rest code scope middle restCode after}
      (statementLowered : LowersStmt frame site before statement code scope middle)
      (restLowered : LowersStmts frame (site.behind code scope) middle rest restCode after) :
      LowersStmts frame site before (statement :: rest) (code ++ restCode) after

/-- The code of a statement, with the names that are in scope behind it. -/
inductive LowersStmt (frame : Frame) :
    Site → Progress → Stmt → Code → List (String × Nat) → Progress → Prop
  | letVar {site before name value code after}
      (valueLowered : LowersExpr frame site before value code after) :
      LowersStmt frame site before (.letVar name value)
        (code ++ [.ready (.storeLocal (frame.slot after.locals))])
        ((name, frame.slot after.locals) :: site.scope) (after.take 1)
  | assignLocal {site before name value slot code after}
      (resolved : frame.resolve? site.scope name = some (.localSlot slot))
      (valueLowered : LowersExpr frame site before value code after) :
      LowersStmt frame site before (.assign name value) (code ++ [.ready (.storeLocal slot)])
        site.scope after
  | assignCapture {site before name value index code after}
      (resolved : frame.resolve? site.scope name = some (.capture index))
      (valueLowered : LowersExpr frame ((site.after 2).deeper 2) before value code after) :
      LowersStmt frame site before (.assign name value)
        (.ofInstructions [.loadLocal 0, .pushConst (.int (Int64.ofNat index))] ++ code ++
          [.ready .storeIndex])
        site.scope after
  | assignGlobal {site before name value slot code after}
      (resolved : frame.resolve? site.scope name = some (.globalSlot slot))
      (valueLowered : LowersExpr frame site before value code after) :
      LowersStmt frame site before (.assign name value) (code ++ [.ready (.storeGlobal slot)])
        site.scope after
  | fieldAssign {site before target name value targetCode middle code after}
      (targetLowered : LowersExpr frame site before target targetCode middle)
      (valueLowered : LowersExpr frame ((site.after targetCode.length).deeper 1) middle value
        code after) :
      LowersStmt frame site before (.fieldAssign target name value)
        (targetCode ++ code ++ [.ready (.storeField name)])
        site.scope after
  | indexAssign {site before target position value targetCode afterTarget positionCode
        afterPosition code after}
      (targetLowered : LowersExpr frame site before target targetCode afterTarget)
      (positionLowered : LowersExpr frame ((site.after targetCode.length).deeper 1) afterTarget
        position positionCode afterPosition)
      (valueLowered : LowersExpr frame
        ((site.after (targetCode.length + positionCode.length)).deeper 2) afterPosition value
        code after) :
      LowersStmt frame site before (.indexAssign target position value)
        (targetCode ++ positionCode ++ code ++ [.ready .storeIndex])
        site.scope after
  | whileLoop {site before condition body test afterTest bodyCode after}
      (testLowered : LowersExpr frame site before condition test afterTest)
      (bodyLowered : LowersStmts frame (site.after (test.length + 1)).enterLoop afterTest body
        bodyCode after) :
      LowersStmt frame site before (.whileLoop condition body)
        (test ++
          .ready (.jumpIfFalse (site.position + test.length + 1 + bodyCode.length + 1)) ::
          Code.ofInstructions
            (bodyCode.closeLoop (site.position + test.length + 1 + bodyCode.length + 1) ++
              [.jump site.position]))
        site.scope after
  | forRange {site before name start stop step body stopCode afterStop stepCode afterStep startCode
        afterStart bodyCode after first}
      (stopLowered : LowersExpr frame site before stop stopCode afterStop)
      (stepLowered : LowersOption frame (site.after (stopCode.length + 1)) (.int 1)
        (afterStop.take 1) step stepCode afterStep)
      (startLowered : LowersExpr frame
        ((site.after (stopCode.length + 1)).after (stepCode.length + 2)) (afterStep.take 1) start
        startCode afterStart)
      (here : first = site.position + (stopCode.length + 1) + (stepCode.length + 2) +
        (startCode.length + 1))
      (bodyLowered : LowersStmts frame
        (((((site.after (stopCode.length + 1)).after (stepCode.length + 2)).after
          (startCode.length + 1)).after 12).bind name (frame.slot afterStart.locals)).enterLoop
        (afterStart.take 1) body bodyCode after) :
      LowersStmt frame site before (.forRange name start stop step body)
        (stopCode ++ .ready (.storeLocal (frame.slot afterStop.locals)) ::
          stepCode ++
          .ofInstructions [.checkStep, .storeLocal (frame.slot afterStep.locals)] ++
          startCode ++ .ofInstructions
            (.storeLocal (frame.slot afterStart.locals) ::
              Code.rangeTest first (first + 12 + bodyCode.length + 5)
                (frame.slot afterStart.locals) (frame.slot afterStop.locals)
                (frame.slot afterStep.locals) ++
              bodyCode.closeLoop (first + 12 + bodyCode.length + 5) ++
              Code.rangeNext first (frame.slot afterStart.locals) (frame.slot afterStep.locals)))
        site.scope after
  | forEach {site before name iterable body source afterSource bodyCode after first}
      (sourceLowered : LowersExpr frame site before iterable source afterSource)
      (here : first = site.position + (source.length + 2))
      (bodyLowered : LowersStmts frame
        (((site.after (source.length + 2)).after 6).bind name
          (frame.slot (afterSource.locals + 1))).enterLoop
        (afterSource.take 2) body bodyCode after) :
      LowersStmt frame site before (.forEach name iterable body)
        (source ++ .ofInstructions
          ([.getIterator, .storeLocal (frame.slot afterSource.locals)] ++
            Code.eachTest (first + 6 + bodyCode.length + 1) (frame.slot afterSource.locals)
              (frame.slot (afterSource.locals + 1)) ++
            bodyCode.closeLoop (first + 6 + bodyCode.length + 1) ++ [.jump first]))
        site.scope after
  | breakLoop {site before operands} (inLoop : site.loopOperands = some operands) :
      LowersStmt frame site before .breakLoop
        (List.replicate (site.operands - operands) (.ready .pop) ++ [.leaveLoop])
        site.scope before
  | yieldValue {site before value code after}
      (valueLowered : LowersOption frame site .unit before value code after) :
      LowersStmt frame site before (.yieldValue value) (code ++ [.ready .yieldValue])
        site.scope after
  | returnValue {site before value code after}
      (valueLowered : LowersOption frame site .unit before value code after) :
      LowersStmt frame site before (.returnValue value)
        (code ++ .ofInstructions frame.leave) site.scope after
  | expr {site before value code after}
      (valueLowered : LowersExpr frame site before value code after) :
      LowersStmt frame site before (.expr value) (code ++ [.ready .pop])
        site.scope after

end

theorem exists_of_bind_ok {ε α β : Type} {first : Except ε α} {next : α → Except ε β} {result : β}
    (ran : (first >>= next) = .ok result) :
    ∃ value, first = .ok value ∧ next value = .ok result := by
  cases first with
  | error error => cases ran
  | ok value => exact ⟨value, rfl, ran⟩

namespace Lower

variable {α β : Type} {before after : Progress}

theorem run_bind_ok {first : Lower α} {next : α → Lower β} {result : β}
    (ran : (first >>= next).run before = .ok (result, after)) :
    ∃ value middle, first.run before = .ok (value, middle) ∧
      (next value).run middle = .ok (result, after) := by
  change (first.run before >>= fun pair => (next pair.1).run pair.2) = _ at ran
  rcases exists_of_bind_ok ran with ⟨⟨value, middle⟩, met, ran⟩
  exact ⟨value, middle, met, ran⟩

theorem run_lift_ok {made : Except CompileError α} {result : α}
    (ran : (liftM made : Lower α).run before = .ok (result, after)) :
    made = .ok result ∧ before = after := by
  cases made with
  | error error => cases ran
  | ok value =>
      cases ran
      exact ⟨rfl, rfl⟩

theorem run_freshSlot_ok {frame : Frame} {slot : Nat}
    (ran : (freshSlot frame).run before = .ok (slot, after)) :
    slot = frame.slot before.locals ∧ after = before.take 1 := by
  cases ran
  exact ⟨rfl, rfl⟩

end Lower

open Lower

theorem mapM_load_ok {frame : Frame} {scope : List (String × Nat)} {names : List String}
    {before after : Progress} {loads : List (List Instruction)}
    (ran : (names.mapM fun name => (liftM (frame.load scope name) : Lower _)).run before =
      .ok (loads, after)) :
    names.mapM (frame.load scope) = .ok loads ∧ before = after := by
  induction names generalizing loads after with
  | nil =>
      cases ran
      exact ⟨rfl, rfl⟩
  | cons name rest ih =>
      rw [List.mapM_cons] at ran
      rcases run_bind_ok ran with ⟨first, middle, firstRan, ran⟩
      rcases run_lift_ok firstRan with ⟨firstLoaded, rfl⟩
      rcases run_bind_ok ran with ⟨others, last, restRan, ran⟩
      rcases ih restRan with ⟨restLoaded, rfl⟩
      cases ran
      refine ⟨?_, rfl⟩
      rw [List.mapM_cons, firstLoaded, restLoaded]
      rfl

theorem lowersExpr_of_lowerAction {frame : Frame} {site : Site} {params : List String}
    {body : List Stmt} {before after : Progress} {code : Code}
    (ran : (lowerAction frame site params body).run before = .ok (code, after)) :
    LowersExpr frame site before (.action params body) code after := by
  unfold lowerAction at ran
  rcases run_bind_ok ran with ⟨loads, middle, loadsRan, ran⟩
  rcases mapM_load_ok loadsRan with ⟨loaded, rfl⟩
  cases ran
  exact .action loaded

theorem lowerBlock_cons {frame : Frame} {site : Site} {statement : Stmt} {rest : List Stmt}
    (notTrailing : ¬∃ value, statement = .expr value ∧ rest = []) :
    lowerBlock frame site (statement :: rest) = do
      let (code, next) ← lowerStmt frame site statement
      let restCode ← lowerBlock frame next rest
      return code ++ restCode := by
  rw [lowerBlock]
  rintro value rfl rfl
  exact notTrailing ⟨value, rfl, rfl⟩

mutual

theorem lowersExpr_of_run {frame : Frame} {site : Site} (expr : Expr) {before after : Progress}
    {code : Code} (ran : (lowerExpr frame site expr).run before = .ok (code, after)) :
    LowersExpr frame site before expr code after := by
  cases expr with
  | literal value =>
      cases ran
      exact .literal
  | var name =>
      rw [lowerExpr] at ran
      rcases run_bind_ok ran with ⟨loads, middle, loadRan, ran⟩
      rcases run_lift_ok loadRan with ⟨loaded, rfl⟩
      cases ran
      exact .var loaded
  | binary operator left right =>
      rw [lowerExpr] at ran
      cases short : shortCircuit? operator with
      | some jump =>
          rw [short] at ran
          rcases run_bind_ok ran with ⟨leftCode, middle, leftRan, ran⟩
          rcases run_bind_ok ran with ⟨rightCode, after, rightRan, ran⟩
          cases ran
          exact .shortCircuit short (lowersExpr_of_run left leftRan)
            (lowersExpr_of_run right rightRan)
      | none =>
          rw [short] at ran
          rcases run_bind_ok ran with ⟨leftCode, middle, leftRan, ran⟩
          rcases run_bind_ok ran with ⟨rightCode, after, rightRan, ran⟩
          cases ran
          exact .binary short (lowersExpr_of_run left leftRan) (lowersExpr_of_run right rightRan)
  | unary operator operand =>
      rw [lowerExpr] at ran
      rcases run_bind_ok ran with ⟨code, middle, operandRan, ran⟩
      cases ran
      exact .unary (lowersExpr_of_run operand operandRan)
  | call path name args =>
      rw [lowerExpr] at ran
      split at ran
      · rename_i isVariable
        rcases run_bind_ok ran with ⟨loads, middle, loadRan, ran⟩
        rcases run_lift_ok loadRan with ⟨loaded, rfl⟩
        rcases run_bind_ok ran with ⟨code, after, argsRan, ran⟩
        cases ran
        have empty : path = [] := by simpa using (Bool.and_eq_true_iff.mp isVariable).1
        subst path
        refine .callVariable loaded (lowersOperands_of_run args ?_)
        simpa [Code.ofInstructions] using argsRan
      · rename_i notVariable
        rcases run_bind_ok ran with ⟨code, middle, argsRan, ran⟩
        cases ran
        refine .call ?_ (lowersOperands_of_run args argsRan)
        rintro rfl
        simpa using notVariable
  | methodCall receiver name args =>
      rw [lowerExpr] at ran
      cases static : frame.staticReceiver? site.scope receiver with
      | some typeName =>
          rw [static] at ran
          rcases run_bind_ok ran with ⟨code, middle, argsRan, ran⟩
          cases ran
          exact .staticCall static (lowersOperands_of_run args argsRan)
      | none =>
          rw [static] at ran
          rcases run_bind_ok ran with ⟨receiverCode, middle, receiverRan, ran⟩
          rcases run_bind_ok ran with ⟨code, after, argsRan, ran⟩
          cases ran
          exact .methodCall static (lowersExpr_of_run receiver receiverRan)
            (lowersOperands_of_run args argsRan)
  | invoke callee args =>
      rw [lowerExpr] at ran
      rcases run_bind_ok ran with ⟨calleeCode, middle, calleeRan, ran⟩
      rcases run_bind_ok ran with ⟨code, after, argsRan, ran⟩
      cases ran
      exact .invoke (lowersExpr_of_run callee calleeRan) (lowersOperands_of_run args argsRan)
  | field target name =>
      rw [lowerExpr] at ran
      cases static : frame.staticReceiver? site.scope target with
      | some typeName =>
          rw [static] at ran
          cases ran
          exact .staticField static
      | none =>
          rw [static] at ran
          rcases run_bind_ok ran with ⟨code, middle, targetRan, ran⟩
          cases ran
          exact .field static (lowersExpr_of_run target targetRan)
  | index target position =>
      rw [lowerExpr] at ran
      rcases run_bind_ok ran with ⟨targetCode, middle, targetRan, ran⟩
      rcases run_bind_ok ran with ⟨positionCode, after, positionRan, ran⟩
      cases ran
      exact .index (lowersExpr_of_run target targetRan) (lowersExpr_of_run position positionRan)
  | ifElse condition thenBody elseBody =>
      rw [lowerExpr] at ran
      rcases run_bind_ok ran with ⟨test, afterTest, testRan, ran⟩
      rcases run_bind_ok ran with ⟨thenCode, afterThen, thenRan, ran⟩
      rcases run_bind_ok ran with ⟨elseCode, after, elseRan, ran⟩
      cases ran
      exact .ifElse (lowersExpr_of_run condition testRan) (lowersBlock_of_run thenBody thenRan)
        (lowersElse_of_run elseBody elseRan)
  | action params body =>
      rw [lowerExpr] at ran
      exact lowersExpr_of_lowerAction ran
  | array items =>
      rw [lowerExpr] at ran
      rcases run_bind_ok ran with ⟨code, middle, itemsRan, ran⟩
      cases ran
      exact .array (lowersOperands_of_run items itemsRan)
  | await iterable =>
      rw [lowerExpr] at ran
      rcases run_bind_ok ran with ⟨source, middle, sourceRan, ran⟩
      rcases run_bind_ok ran with ⟨iterator, next, iteratorRan, ran⟩
      rcases run_freshSlot_ok iteratorRan with ⟨rfl, rfl⟩
      rcases run_bind_ok ran with ⟨current, last, currentRan, ran⟩
      rcases run_freshSlot_ok currentRan with ⟨rfl, rfl⟩
      cases ran
      exact .await (lowersExpr_of_run iterable sourceRan)
termination_by structural expr

theorem lowersOperands_of_run {frame : Frame} {site : Site} (items : List Expr)
    {before after : Progress} {code : Code}
    (ran : (lowerOperands frame site items).run before = .ok (code, after)) :
    LowersOperands frame site before items code after := by
  cases items with
  | nil =>
      cases ran
      exact .nil
  | cons item rest =>
      rw [lowerOperands] at ran
      rcases run_bind_ok ran with ⟨itemCode, middle, itemRan, ran⟩
      rcases run_bind_ok ran with ⟨restCode, after, restRan, ran⟩
      cases ran
      exact .cons (lowersExpr_of_run item itemRan) (lowersOperands_of_run rest restRan)
termination_by structural items

theorem lowersOption_of_run {frame : Frame} {site : Site} {default : Constant}
    (value : Option Expr) {before after : Progress} {code : Code}
    (ran : (lowerOption frame site default value).run before = .ok (code, after)) :
    LowersOption frame site default before value code after := by
  cases value with
  | none =>
      cases ran
      exact .none
  | some value => exact .some (lowersExpr_of_run value ran)
termination_by structural value

theorem lowersBlock_of_run {frame : Frame} {site : Site} (body : List Stmt)
    {before after : Progress} {code : Code}
    (ran : (lowerBlock frame site body).run before = .ok (code, after)) :
    LowersBlock frame site before body code after := by
  cases body with
  | nil =>
      cases ran
      exact .empty
  | cons statement rest =>
      by_cases trailing : ∃ value, statement = .expr value ∧ rest = []
      · cases rest with
        | cons => simp at trailing
        | nil =>
            cases statement with
            | expr value => exact .trailing (lowersExpr_of_run value ran)
            | _ => simp at trailing
      · rw [lowerBlock_cons trailing] at ran
        rcases run_bind_ok ran with ⟨⟨statementCode, next⟩, middle, statementRan, ran⟩
        rcases run_bind_ok ran with ⟨restCode, after, restRan, ran⟩
        cases ran
        rcases lowersStmt_of_run statement statementRan with ⟨scope, rfl, lowered⟩
        refine .statement ?_ lowered (lowersBlock_of_run rest restRan)
        rintro value rfl rfl
        exact trailing ⟨value, rfl, rfl⟩
termination_by structural body

theorem lowersElse_of_run {frame : Frame} {site : Site} (body : Option (List Stmt))
    {before after : Progress} {code : Code}
    (ran : (lowerElse frame site body).run before = .ok (code, after)) :
    LowersElse frame site before body code after := by
  cases body with
  | none =>
      cases ran
      exact .absent
  | some body => exact .present (lowersBlock_of_run body ran)
termination_by structural body

theorem lowersStmts_of_run {frame : Frame} {site : Site} (body : List Stmt)
    {before after : Progress} {code : Code}
    (ran : (lowerStmts frame site body).run before = .ok (code, after)) :
    LowersStmts frame site before body code after := by
  cases body with
  | nil =>
      cases ran
      exact .nil
  | cons statement rest =>
      rw [lowerStmts] at ran
      rcases run_bind_ok ran with ⟨⟨statementCode, next⟩, middle, statementRan, ran⟩
      rcases run_bind_ok ran with ⟨restCode, after, restRan, ran⟩
      cases ran
      rcases lowersStmt_of_run statement statementRan with ⟨scope, rfl, lowered⟩
      exact .cons lowered (lowersStmts_of_run rest restRan)
termination_by structural body

theorem lowersStmt_of_run {frame : Frame} {site : Site} (statement : Stmt)
    {before after : Progress} {code : Code} {next : Site}
    (ran : (lowerStmt frame site statement).run before = .ok ((code, next), after)) :
    ∃ scope, next = site.behind code scope ∧
      LowersStmt frame site before statement code scope after := by
  cases statement with
  | letVar name value =>
      rw [lowerStmt] at ran
      rcases run_bind_ok ran with ⟨code, middle, valueRan, ran⟩
      rcases run_bind_ok ran with ⟨slot, after, slotRan, ran⟩
      rcases run_freshSlot_ok slotRan with ⟨rfl, rfl⟩
      cases ran
      refine ⟨_, ?_, .letVar (lowersExpr_of_run value valueRan)⟩
      simp [Site.behind, Site.after, Site.bind]
  | assign name value =>
      rw [lowerStmt] at ran
      cases resolved : frame.resolve? site.scope name with
      | none =>
          rw [resolved] at ran
          cases ran
      | some binding =>
          cases binding with
          | localSlot slot =>
              rw [resolved] at ran
              rcases run_bind_ok ran with ⟨code, middle, valueRan, ran⟩
              cases ran
              exact ⟨_, rfl, .assignLocal resolved (lowersExpr_of_run value valueRan)⟩
          | capture index =>
              rw [resolved] at ran
              rcases run_bind_ok ran with ⟨code, middle, valueRan, ran⟩
              cases ran
              exact ⟨_, rfl, .assignCapture resolved (lowersExpr_of_run value valueRan)⟩
          | globalSlot slot =>
              rw [resolved] at ran
              rcases run_bind_ok ran with ⟨code, middle, valueRan, ran⟩
              cases ran
              exact ⟨_, rfl, .assignGlobal resolved (lowersExpr_of_run value valueRan)⟩
  | fieldAssign target name value =>
      rw [lowerStmt] at ran
      rcases run_bind_ok ran with ⟨targetCode, middle, targetRan, ran⟩
      rcases run_bind_ok ran with ⟨code, after, valueRan, ran⟩
      cases ran
      exact ⟨_, rfl, .fieldAssign (lowersExpr_of_run target targetRan)
        (lowersExpr_of_run value valueRan)⟩
  | indexAssign target position value =>
      rw [lowerStmt] at ran
      rcases run_bind_ok ran with ⟨targetCode, afterTarget, targetRan, ran⟩
      rcases run_bind_ok ran with ⟨positionCode, afterPosition, positionRan, ran⟩
      rcases run_bind_ok ran with ⟨code, after, valueRan, ran⟩
      cases ran
      have valueLowered := lowersExpr_of_run value valueRan
      rw [List.length_append] at valueLowered
      exact ⟨_, rfl, .indexAssign (lowersExpr_of_run target targetRan)
        (lowersExpr_of_run position positionRan) valueLowered⟩
  | whileLoop condition body =>
      rw [lowerStmt] at ran
      rcases run_bind_ok ran with ⟨test, afterTest, testRan, ran⟩
      rcases run_bind_ok ran with ⟨bodyCode, after, bodyRan, ran⟩
      cases ran
      exact ⟨_, rfl, .whileLoop (lowersExpr_of_run condition testRan)
        (lowersStmts_of_run body bodyRan)⟩
  | forRange name start stop step body =>
      rw [lowerStmt] at ran
      rcases run_bind_ok ran with ⟨stopCode, afterStop, stopRan, ran⟩
      rcases run_bind_ok ran with ⟨stopSlot, _, stopSlotRan, ran⟩
      rcases run_freshSlot_ok stopSlotRan with ⟨rfl, rfl⟩
      rcases run_bind_ok ran with ⟨stepCode, afterStep, stepRan, ran⟩
      rcases run_bind_ok ran with ⟨stepSlot, _, stepSlotRan, ran⟩
      rcases run_freshSlot_ok stepSlotRan with ⟨rfl, rfl⟩
      rcases run_bind_ok ran with ⟨startCode, afterStart, startRan, ran⟩
      rcases run_bind_ok ran with ⟨slot, _, slotRan, ran⟩
      rcases run_freshSlot_ok slotRan with ⟨rfl, rfl⟩
      rcases run_bind_ok ran with ⟨bodyCode, after, bodyRan, ran⟩
      cases ran
      exact ⟨_, rfl, .forRange (lowersExpr_of_run stop stopRan) (lowersOption_of_run step stepRan)
        (lowersExpr_of_run start startRan) rfl (lowersStmts_of_run body bodyRan)⟩
  | forEach name iterable body =>
      rw [lowerStmt] at ran
      rcases run_bind_ok ran with ⟨source, afterSource, sourceRan, ran⟩
      rcases run_bind_ok ran with ⟨iterator, _, iteratorRan, ran⟩
      rcases run_freshSlot_ok iteratorRan with ⟨rfl, rfl⟩
      rcases run_bind_ok ran with ⟨slot, _, slotRan, ran⟩
      rcases run_freshSlot_ok slotRan with ⟨rfl, rfl⟩
      rcases run_bind_ok ran with ⟨bodyCode, after, bodyRan, ran⟩
      cases ran
      exact ⟨_, rfl, .forEach (lowersExpr_of_run iterable sourceRan) rfl
        (lowersStmts_of_run body bodyRan)⟩
  | breakLoop =>
      rw [lowerStmt] at ran
      cases inLoop : site.loopOperands with
      | none =>
          rw [inLoop] at ran
          cases ran
      | some operands =>
          rw [inLoop] at ran
          cases ran
          exact ⟨_, rfl, .breakLoop inLoop⟩
  | yieldValue value =>
      rw [lowerStmt] at ran
      rcases run_bind_ok ran with ⟨code, middle, valueRan, ran⟩
      cases ran
      exact ⟨_, rfl, .yieldValue (lowersOption_of_run value valueRan)⟩
  | returnValue value =>
      rw [lowerStmt] at ran
      rcases run_bind_ok ran with ⟨code, middle, valueRan, ran⟩
      cases ran
      exact ⟨_, rfl, .returnValue (lowersOption_of_run value valueRan)⟩
  | expr value =>
      rw [lowerStmt] at ran
      rcases run_bind_ok ran with ⟨code, middle, valueRan, ran⟩
      cases ran
      exact ⟨_, rfl, .expr (lowersExpr_of_run value valueRan)⟩
termination_by structural statement

end

/-! ## Whole functions -/

namespace FunctionSource

/-- Where the body of a function that starts at `position` begins. -/
def site (source : FunctionSource) (position : Nat) : Site :=
  ⟨position + 2, parameterScope source.carrierCount source.params, 0, none⟩

/-- The code of a function around the code of its body. -/
def wrap (source : FunctionSource) (position locals : Nat) (body : Code) : List Instruction :=
  [.allocFrame locals, .pushDebug ⟨source.unit, source.qualified, source.range⟩] ++
    body.closeLoop (position + 2 + body.length) ++
    [.pushConst .unit, .popDebug, .returnValue source.arity]

end FunctionSource

/-- The code of a function and the action literals in it. -/
theorem lowerFunction_ok {linkage : Linkage} {position : Nat} {source : FunctionSource}
    {code : List Instruction} {actions : List FunctionSource}
    (lowered : lowerFunction linkage position source = .ok (code, actions)) :
    ∃ body progress,
      LowersStmts ⟨linkage, source⟩ (source.site position) ⟨0, []⟩ source.body body progress ∧
      code = source.wrap position progress.locals body ∧ actions = progress.actions := by
  unfold lowerFunction at lowered
  split at lowered
  · cases lowered
  · rcases exists_of_bind_ok lowered with ⟨⟨body, progress⟩, ran, lowered⟩
    cases lowered
    exact ⟨body, progress, lowersStmts_of_run source.body ran, rfl, rfl⟩

end ScriptMachine
