import ScriptMachine.Compiler.Code
import ScriptMachine.Compiler.FreeVariables

/-!
# Lowering of function bodies

A frame holds the arguments, a header of two words, the locals and, above them, the operands of
expressions that are not finished. Every `letVar`, every loop and every `await` takes slots of its
own, so a slot has one purpose in a function.

Lowering of a part is told its `Site`: the position of its first instruction, the slots of the names
in scope, how many operands wait below it, and how many waited where the innermost loop began. It
returns the part's code. Beside that it counts slots and action literals and collects the literals,
whose bodies are lowered later as functions of their own.
-/

namespace ScriptMachine

/-- The words between the arguments and the locals of a frame. -/
def frameHeader : Nat := 2

/-- What counts up while a function is lowered. -/
structure Progress where
  /-- How many local slots are taken. -/
  locals : Nat
  /-- The action literals met, in order. -/
  actions : List FunctionSource

/-- A step of lowering. -/
abbrev Lower := StateT Progress (Except CompileError)

/-- The function that is being lowered, and what it can refer to. -/
structure Frame where
  linkage : Linkage
  source : FunctionSource

/-- Where a part of a function stands. -/
structure Site where
  /-- The index of the part's first instruction. -/
  position : Nat
  /-- The slots of the names in scope, the innermost first. -/
  scope : List (String × Nat)
  /-- How many operands wait for the part. -/
  operands : Nat
  /-- How many operands waited where the innermost loop began. -/
  loopOperands : Option Nat

namespace Site

/-- The site behind some instructions. -/
def after (site : Site) (count : Nat) : Site := { site with position := site.position + count }

/-- The site with more operands waiting. -/
def deeper (site : Site) (count : Nat) : Site := { site with operands := site.operands + count }

/-- The site with one more name in scope. -/
def bind (site : Site) (name : String) (slot : Nat) : Site :=
  { site with scope := (name, slot) :: site.scope }

/-- The site of a loop body. -/
def enterLoop (site : Site) : Site := { site with loopOperands := some site.operands }

end Site

/-- What a name stands for. -/
inductive Binding where
  | localSlot (slot : Nat)
  | capture (index : Nat)
  | globalSlot (slot : Nat)
deriving DecidableEq

namespace Frame

/-- What a name stands for: the innermost variable, else a capture, else a global. -/
def resolve? (frame : Frame) (scope : List (String × Nat)) (name : String) : Option Binding :=
  match scope.lookup name with
  | some slot => some (.localSlot slot)
  | none =>
      match (frame.source.captures.getD []).idxOf? name with
      | some index => some (.capture index)
      | none => (frame.linkage.globalSlot? name).map .globalSlot

/-- The host type that a receiver names: a name that is no variable. -/
def staticReceiver? (frame : Frame) (scope : List (String × Nat)) : Expr → Option String
  | .var name => if (frame.resolve? scope name).isNone then some name else none
  | _ => none

/-- The names of a literal's body that it has to keep: those bound in the function around it. -/
def captured (frame : Frame) (scope : List (String × Nat)) (params : List String)
    (body : List Stmt) : List String :=
  (freeVariables params body).filter fun name =>
    match frame.resolve? scope name with
    | some (.localSlot _) | some (.capture _) => true
    | _ => false

/-- Reads a variable. -/
def load (frame : Frame) (scope : List (String × Nat)) (name : String) :
    Except CompileError (List Instruction) :=
  match frame.resolve? scope name with
  | some (.localSlot slot) => .ok [.loadLocal slot]
  | some (.capture index) =>
      .ok [.loadLocal 0, .pushConst (.int (Int64.ofNat index)), .loadIndex]
  | some (.globalSlot slot) => .ok [.loadGlobal slot]
  | none => .error (.undefinedVariable name frame.source.name)

/-- Leaves the function with the value on top. -/
def leave (frame : Frame) : List Instruction := [.popDebug, .returnValue frame.source.arity]

end Frame

/-- Takes a fresh slot for a local. -/
def freshSlot (frame : Frame) : Lower Nat := do
  let progress ← get
  set { progress with locals := progress.locals + 1 }
  return frame.source.arity + frameHeader + progress.locals

/-- Registers an action literal and gives its code: the captured values, and a closure over them. -/
def lowerAction (frame : Frame) (site : Site) (params : List String) (body : List Stmt) :
    Lower Code := do
  let captures := frame.captured site.scope params body
  let loads ← captures.mapM fun name => frame.load site.scope name
  let progress ← get
  let name := frame.source.name ++ "$action" ++ toString progress.actions.length
  let literal : FunctionSource :=
    { frame.source with name := name, params := params, body := body, captures := some captures }
  set { progress with actions := progress.actions ++ [literal] }
  return Code.ofInstructions
    (loads.flatten ++ [.makeArray captures.length, .makeClosure ⟨frame.source.path, name⟩])

/-- The call of a named function once its arguments are on the stack. -/
def callInstruction (frame : Frame) (path : List String) (name : String) (argc : Nat) :
    Instruction :=
  match frame.linkage.findFunction? frame.source.path path name with
  | some target => .callFunction ⟨target, name⟩ argc
  | none => .callHost (qualifiedName path name) argc none

/-- The jump of a short-circuit operator, if it is one. -/
def shortCircuit? : BinaryOp → Option (Nat → Instruction)
  | .and => some .jumpIfFalseKeep
  | .or => some .jumpIfTrueKeep
  | _ => none

mutual

/-- Code that leaves the value of an expression. -/
def lowerExpr (frame : Frame) (site : Site) : Expr → Lower Code
  | .literal value => return [.ready (.pushConst (.ofLiteral value))]
  | .var name => return .ofInstructions (← frame.load site.scope name)
  | .binary operator left right =>
      match shortCircuit? operator with
      | some jump => do
          let leftCode ← lowerExpr frame site left
          let rightCode ← lowerExpr frame (site.after (leftCode.length + 1)) right
          let stop := site.position + leftCode.length + 1 + rightCode.length
          return leftCode ++ .ready (jump stop) :: rightCode
      | none => do
          let leftCode ← lowerExpr frame site left
          let rightCode ← lowerExpr frame ((site.after leftCode.length).deeper 1) right
          return leftCode ++ rightCode ++ [.ready (.binary operator)]
  | .unary operator operand => do
      let code ← lowerExpr frame site operand
      return code ++ [.ready (.unary operator)]
  | .call path name args =>
      if path.isEmpty && (frame.resolve? site.scope name).isSome then do
        let callee := Code.ofInstructions (← frame.load site.scope name)
        let code ← lowerOperands frame ((site.after callee.length).deeper 1) args
        return callee ++ code ++ [.ready (.invokeClosure args.length)]
      else do
        let code ← lowerOperands frame site args
        return code ++ [.ready (callInstruction frame path name args.length)]
  | .methodCall receiver name args =>
      match frame.staticReceiver? site.scope receiver with
      | some typeName => do
          let code ← lowerOperands frame site args
          return code ++ [.ready (.callStatic typeName name args.length false)]
      | none => do
          let receiverCode ← lowerExpr frame site receiver
          let code ← lowerOperands frame ((site.after receiverCode.length).deeper 1) args
          return receiverCode ++ code ++ [.ready (.callMethod name args.length)]
  | .invoke callee args => do
      let calleeCode ← lowerExpr frame site callee
      let code ← lowerOperands frame ((site.after calleeCode.length).deeper 1) args
      return calleeCode ++ code ++ [.ready (.invokeClosure args.length)]
  | .field target name =>
      match frame.staticReceiver? site.scope target with
      | some typeName => return [.ready (.loadStatic typeName name false)]
      | none => do
          let code ← lowerExpr frame site target
          return code ++ [.ready (.loadField name)]
  | .index target position => do
      let targetCode ← lowerExpr frame site target
      let positionCode ← lowerExpr frame ((site.after targetCode.length).deeper 1) position
      return targetCode ++ positionCode ++ [.ready .loadIndex]
  | .ifElse condition thenBody elseBody => do
      let test ← lowerExpr frame site condition
      let thenCode ← lowerBlock frame (site.after (test.length + 1)) thenBody
      let elseStart := test.length + 1 + thenCode.length + 1
      let elseCode ← lowerElse frame (site.after elseStart) elseBody
      return test ++ .ready (.jumpIfFalse (site.position + elseStart)) :: thenCode ++
        .ready (.jump (site.position + elseStart + elseCode.length)) :: elseCode
  | .action params body => lowerAction frame site params body
  | .array items => do
      let code ← lowerOperands frame site items
      return code ++ [.ready (.makeArray items.length)]
  | .await iterable => do
      let source ← lowerExpr frame site iterable
      let iterator ← freshSlot frame
      let current ← freshSlot frame
      let start := site.position + source.length + 4
      return source ++ Code.ofInstructions
        [.getIterator, .storeLocal iterator, .pushConst .unit, .storeLocal current,
          .loadLocal iterator, .iterMoveNext, .jumpIfFalse (start + 9),
          .loadLocal iterator, .iterCurrent, .storeLocal current,
          .loadLocal current, .yieldValue, .jump start,
          .loadLocal current]

/-- Code that leaves the values of expressions, each waiting while the next is evaluated. -/
def lowerOperands (frame : Frame) (site : Site) : List Expr → Lower Code
  | [] => return []
  | item :: rest => do
      let code ← lowerExpr frame site item
      let restCode ← lowerOperands frame ((site.after code.length).deeper 1) rest
      return code ++ restCode

/-- Code that leaves the value of an expression that may be absent. -/
def lowerOption (frame : Frame) (site : Site) (default : Constant) : Option Expr → Lower Code
  | none => return [.ready (.pushConst default)]
  | some value => lowerExpr frame site value

/-- Code that leaves the value of a block: that of a trailing expression, else unit. -/
def lowerBlock (frame : Frame) (site : Site) : List Stmt → Lower Code
  | [] => return [.ready (.pushConst .unit)]
  | [.expr value] => lowerExpr frame site value
  | statement :: rest => do
      let (code, next) ← lowerStmt frame site statement
      let restCode ← lowerBlock frame next rest
      return code ++ restCode

/-- Code that leaves the value of the other branch, which may be absent. -/
def lowerElse (frame : Frame) (site : Site) : Option (List Stmt) → Lower Code
  | none => return [.ready (.pushConst .unit)]
  | some body => lowerBlock frame site body

/-- Code of statements, which leaves nothing. -/
def lowerStmts (frame : Frame) (site : Site) : List Stmt → Lower Code
  | [] => return []
  | statement :: rest => do
      let (code, next) ← lowerStmt frame site statement
      let restCode ← lowerStmts frame next rest
      return code ++ restCode

/-- Code of a statement, which leaves nothing, and the site of the next one. -/
def lowerStmt (frame : Frame) (site : Site) : Stmt → Lower (Code × Site)
  | .letVar name value => do
      let code ← lowerExpr frame site value
      let slot ← freshSlot frame
      return (code ++ [.ready (.storeLocal slot)], (site.after (code.length + 1)).bind name slot)
  | .assign name value =>
      match frame.resolve? site.scope name with
      | some (.localSlot slot) => do
          let code ← lowerExpr frame site value
          return placed site (code ++ [.ready (.storeLocal slot)])
      | some (.capture index) => do
          let carrier := Code.ofInstructions
            [.loadLocal 0, .pushConst (.int (Int64.ofNat index))]
          let code ← lowerExpr frame ((site.after carrier.length).deeper 2) value
          return placed site (carrier ++ code ++ [.ready .storeIndex])
      | some (.globalSlot slot) => do
          let code ← lowerExpr frame site value
          return placed site (code ++ [.ready (.storeGlobal slot)])
      | none => throw (.undefinedVariable name frame.source.name)
  | .fieldAssign target name value => do
      let targetCode ← lowerExpr frame site target
      let code ← lowerExpr frame ((site.after targetCode.length).deeper 1) value
      return placed site (targetCode ++ code ++ [.ready (.storeField name)])
  | .indexAssign target position value => do
      let targetCode ← lowerExpr frame site target
      let positionCode ← lowerExpr frame ((site.after targetCode.length).deeper 1) position
      let operandCode := targetCode ++ positionCode
      let code ← lowerExpr frame ((site.after operandCode.length).deeper 2) value
      return placed site (operandCode ++ code ++ [.ready .storeIndex])
  | .whileLoop condition body => do
      let test ← lowerExpr frame site condition
      let bodyCode ← lowerStmts frame (site.after (test.length + 1)).enterLoop body
      let stop := site.position + test.length + 1 + bodyCode.length + 1
      return placed site
        (test ++ .ready (.jumpIfFalse stop) ::
          Code.ofInstructions (bodyCode.closeLoop stop ++ [.jump site.position]))
  | .forRange name start stop step body => do
      let stopCode ← lowerExpr frame site stop
      let stopSlot ← freshSlot frame
      let stepSite := site.after (stopCode.length + 1)
      let stepCode ← lowerOption frame stepSite (.int 1) step
      let stepSlot ← freshSlot frame
      let startSite := stepSite.after (stepCode.length + 2)
      let startCode ← lowerExpr frame startSite start
      let slot ← freshSlot frame
      let testSite := startSite.after (startCode.length + 1)
      let bodyCode ← lowerStmts frame ((testSite.after 12).bind name slot).enterLoop body
      let first := testSite.position
      let after := first + 12 + bodyCode.length + 5
      return placed site
        (stopCode ++ .ready (.storeLocal stopSlot) ::
          stepCode ++ Code.ofInstructions [.checkStep, .storeLocal stepSlot] ++
          startCode ++ Code.ofInstructions
            ([.storeLocal slot,
              .loadLocal stepSlot, .pushConst (.int 0), .binary .lt, .jumpIfFalse (first + 8),
              .loadLocal slot, .loadLocal stopSlot, .binary .ge, .jump (first + 11),
              .loadLocal slot, .loadLocal stopSlot, .binary .le, .jumpIfFalse after] ++
              bodyCode.closeLoop after ++
              [.loadLocal slot, .loadLocal stepSlot, .binary .add, .storeLocal slot,
                .jump first]))
  | .forEach name iterable body => do
      let source ← lowerExpr frame site iterable
      let iterator ← freshSlot frame
      let slot ← freshSlot frame
      let testSite := site.after (source.length + 2)
      let bodyCode ← lowerStmts frame ((testSite.after 6).bind name slot).enterLoop body
      let first := testSite.position
      let after := first + 6 + bodyCode.length + 1
      return placed site
        (source ++ Code.ofInstructions
          ([.getIterator, .storeLocal iterator,
            .loadLocal iterator, .iterMoveNext, .jumpIfFalse after,
            .loadLocal iterator, .iterCurrent, .storeLocal slot] ++
            bodyCode.closeLoop after ++ [.jump first]))
  | .breakLoop =>
      match site.loopOperands with
      | none => throw (.breakOutsideLoop frame.source.name)
      | some operands =>
          return placed site
            (List.replicate (site.operands - operands) (.ready .pop) ++ [.leaveLoop])
  | .yieldValue value => do
      let code ← lowerOption frame site .unit value
      return placed site (code ++ [.ready .yieldValue])
  | .returnValue value => do
      let code ← lowerOption frame site .unit value
      return placed site (code ++ Code.ofInstructions frame.leave)
  | .expr value => do
      let code ← lowerExpr frame site value
      return placed site (code ++ [.ready .pop])
where
  /-- A statement's code with the site behind it. -/
  placed (site : Site) (code : Code) : Code × Site := (code, site.after code.length)

end

end ScriptMachine
