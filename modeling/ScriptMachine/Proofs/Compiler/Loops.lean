import ScriptMachine.Proofs.Compiler.Pieces

/-!
# Loops with hidden slots

An `await` keeps its iterator and the element that it met last in slots of the frame that no name
stands for, and so does a numeric loop with its stop and its step. Two things are shown of them.
Each loop that is written in a function has its code somewhere in that of the function. And code
writes to the slots of the names in scope and to those that it takes itself, which come behind all
that were taken before, so nothing inside a loop writes to the hidden slots of the loop.
-/

namespace ScriptMachine

/-! ## Loops in the source -/

/-- A loop that keeps values in slots without a name. -/
inductive HiddenLoop where
  | await (iterable : Expr)
  | range (name : String) (start stop : Expr) (step : Option Expr) (body : List Stmt)

mutual

/-- The loops of an expression. Those in an action literal belong to another function. -/
def Expr.loops : Expr → List HiddenLoop
  | .literal _ | .var _ | .action _ _ => []
  | .binary _ left right => left.loops ++ right.loops
  | .unary _ operand => operand.loops
  | .call _ _ args => Expr.listLoops args
  | .methodCall receiver _ args => receiver.loops ++ Expr.listLoops args
  | .invoke callee args => callee.loops ++ Expr.listLoops args
  | .field target _ => target.loops
  | .index target position => target.loops ++ position.loops
  | .ifElse condition thenBody elseBody =>
      condition.loops ++ Stmt.listLoops thenBody ++ Stmt.bodyLoops elseBody
  | .array items => Expr.listLoops items
  | .await iterable => .await iterable :: iterable.loops

def Expr.listLoops : List Expr → List HiddenLoop
  | [] => []
  | item :: rest => item.loops ++ Expr.listLoops rest

def Expr.optionLoops : Option Expr → List HiddenLoop
  | none => []
  | some value => value.loops

/-- The loops of a statement. -/
def Stmt.loops : Stmt → List HiddenLoop
  | .letVar _ value | .assign _ value => value.loops
  | .fieldAssign target _ value => target.loops ++ value.loops
  | .indexAssign target position value => target.loops ++ position.loops ++ value.loops
  | .whileLoop condition body => condition.loops ++ Stmt.listLoops body
  | .forRange name start stop step body =>
      .range name start stop step body ::
        (stop.loops ++ Expr.optionLoops step ++ start.loops ++ Stmt.listLoops body)
  | .forEach _ iterable body => iterable.loops ++ Stmt.listLoops body
  | .breakLoop => []
  | .yieldValue value | .returnValue value => Expr.optionLoops value
  | .expr value => value.loops

def Stmt.listLoops : List Stmt → List HiddenLoop
  | [] => []
  | statement :: rest => statement.loops ++ Stmt.listLoops rest

def Stmt.bodyLoops : Option (List Stmt) → List HiddenLoop
  | none => []
  | some body => Stmt.listLoops body

end

/-- The loops of a function. -/
def FunctionSource.loops (source : FunctionSource) : List HiddenLoop := Stmt.listLoops source.body

/-! ## Scopes -/

/-- The names in scope stand for slots that are taken. -/
def Site.Below (frame : Frame) (site : Site) (locals : Nat) : Prop :=
  ∀ entry ∈ site.scope, entry.2 < frame.slot locals

namespace Site.Below

variable {frame : Frame} {site : Site} {before after : Progress} {locals more : Nat}

theorem mono (below : site.Below frame locals) (grows : locals ≤ more) : site.Below frame more := by
  intro entry among
  have taken := below entry among
  simp only [Frame.slot] at taken ⊢
  omega

theorem grow (below : site.Below frame before.locals) {count : Nat}
    (grows : before.Grows after count) : site.Below frame after.locals :=
  below.mono grows.locals

theorem bind (below : site.Below frame locals) (name : String) :
    (site.bind name (frame.slot locals)).Below frame (locals + 1) := by
  intro entry among
  rcases List.mem_cons.mp among with rfl | among
  · simp only [Frame.slot]
    omega
  · exact below.mono (Nat.le_succ locals) entry among

theorem behind (below : site.Below frame before.locals) {statement : Stmt} {code : Code}
    {scope : List (String × Nat)}
    (lowered : LowersStmt frame site before statement code scope after) :
    (site.behind code scope).Below frame after.locals := by
  have grown := below.grow lowered.grows
  cases lowered with
  | @letVar _ _ name _ _ _ valueLowered => exact (below.grow valueLowered.grows).bind name
  | _ => exact grown

theorem parameters (source : FunctionSource) (linkage : Linkage) (position : Nat) :
    (source.site position).Below ⟨linkage, source⟩ 0 := by
  rintro ⟨name, slot⟩ among
  have upper := List.snd_lt_add_of_mem_zipIdx (List.mem_reverse.mp among)
  simp only [Frame.slot, FunctionSource.arity]
  omega

end Site.Below

/-! ## Loops in the code -/

/-- The code of a loop at a site. -/
inductive HiddenLoop.Lowers (frame : Frame) :
    HiddenLoop → Site → Progress → Code → Progress → Prop
  | await {site before iterable code after}
      (lowered : LowersExpr frame site before (.await iterable) code after) :
      Lowers frame (.await iterable) site before code after
  | range {site before name start stop step body code scope after}
      (lowered : LowersStmt frame site before (.forRange name start stop step body) code scope
        after) :
      Lowers frame (.range name start stop step body) site before code after

/-- Instructions from a position on that have the code of a loop among them. -/
inductive HiddenLoop.Stands (loop : HiddenLoop) (frame : Frame) (position : Nat) :
    List Instruction → Prop
  | here {site before code after stop front back}
      (lowered : loop.Lowers frame site before code after)
      (below : site.Below frame before.locals)
      (place : site.position = position + front.length) :
      Stands loop frame position (front ++ code.closeLoop stop ++ back)

/-- Code that has the code of a loop in it, wherever the loop around it ends. -/
def HiddenLoop.Within (loop : HiddenLoop) (frame : Frame) (position : Nat) (code : Code) : Prop :=
  ∀ stop, loop.Stands frame position (code.closeLoop stop)

namespace HiddenLoop

variable {loop : HiddenLoop} {frame : Frame} {position place : Nat}

theorem Stands.front {first second : List Instruction} (stands : loop.Stands frame position first) :
    loop.Stands frame position (first ++ second) := by
  cases stands with
  | here lowered below place =>
      rw [List.append_assoc]
      exact .here lowered below place

theorem Stands.back {first second : List Instruction}
    (stands : loop.Stands frame (position + first.length) second) :
    loop.Stands frame position (first ++ second) := by
  cases stands with
  | here lowered below place =>
      rw [← List.append_assoc, ← List.append_assoc]
      refine .here lowered below ?_
      rw [place, List.length_append, Nat.add_assoc]

namespace Within

variable {code first second : Code} {cell : CodeCell}

theorem whole {site : Site} {before after : Progress}
    (lowered : loop.Lowers frame site before code after) (below : site.Below frame before.locals) :
    loop.Within frame site.position code := by
  intro stop
  have stands := @Stands.here loop frame site.position site before code after stop [] [] lowered
    below rfl
  simpa using stands

theorem front (within : loop.Within frame position first) :
    loop.Within frame position (first ++ second) := by
  intro stop
  rw [Code.closeLoop_append]
  exact (within stop).front

theorem back (within : loop.Within frame (position + first.length) second) :
    loop.Within frame position (first ++ second) := by
  intro stop
  rw [Code.closeLoop_append]
  have stands := within stop
  have length : (first.closeLoop stop).length = first.length := Code.length_closeLoop
  rw [← length] at stands
  exact stands.back

theorem cons (within : loop.Within frame (position + 1) code) :
    loop.Within frame position (cell :: code) :=
  @back loop frame position [cell] code within

theorem moved (within : loop.Within frame position code) (same : position = place) :
    loop.Within frame place code := same ▸ within

/-- The body of a loop between the instructions that make it one. -/
theorem enclosed {before after : List Instruction} {stop : Nat}
    (within : loop.Within frame (position + before.length) code) :
    loop.Within frame position
      (.ofInstructions (before ++ code.closeLoop stop ++ after)) := by
  intro outer
  rw [Code.closeLoop_ofInstructions]
  exact (within stop).back.front

end Within

end HiddenLoop

theorem Frame.loops_of_staticReceiver {frame : Frame} {scope : List (String × Nat)}
    {receiver : Expr} {typeName : String}
    (static : frame.staticReceiver? scope receiver = some typeName) : receiver.loops = [] := by
  cases receiver with
  | var name => rfl
  | _ => cases static

mutual

/-- Every loop of an expression has its code in that of the expression. -/
theorem LowersExpr.loops {frame : Frame} {site : Site} {before after : Progress} {expr : Expr}
    {code : Code} (lowered : LowersExpr frame site before expr code after)
    (below : site.Below frame before.locals) {loop : HiddenLoop} (among : loop ∈ expr.loops) :
    loop.Within frame site.position code := by
  cases lowered with
  | literal | var | action => cases among
  | shortCircuit _ leftLowered rightLowered =>
      rcases List.mem_append.mp among with inLeft | inRight
      · exact (leftLowered.loops below inLeft).front
      · exact (rightLowered.loops (below.grow leftLowered.grows) inRight).cons.back
  | binary _ leftLowered rightLowered =>
      rcases List.mem_append.mp among with inLeft | inRight
      · exact (leftLowered.loops below inLeft).front.front
      · exact (rightLowered.loops (below.grow leftLowered.grows) inRight).back.front
  | unary operandLowered => exact (operandLowered.loops below among).front
  | callVariable _ argsLowered =>
      refine .front (.back ((argsLowered.loops below among).moved ?_))
      rw [Code.length_ofInstructions]
      rfl
  | call _ argsLowered => exact (argsLowered.loops below among).front
  | staticCall static argsLowered =>
      rw [Expr.loops, Frame.loops_of_staticReceiver static] at among
      exact (argsLowered.loops below among).front
  | methodCall _ receiverLowered argsLowered =>
      rcases List.mem_append.mp among with inReceiver | inArgs
      · exact (receiverLowered.loops below inReceiver).front.front
      · exact (argsLowered.loops (below.grow receiverLowered.grows) inArgs).back.front
  | invoke calleeLowered argsLowered =>
      rcases List.mem_append.mp among with inCallee | inArgs
      · exact (calleeLowered.loops below inCallee).front.front
      · exact (argsLowered.loops (below.grow calleeLowered.grows) inArgs).back.front
  | staticField static =>
      rw [Expr.loops, Frame.loops_of_staticReceiver static] at among
      cases among
  | field _ targetLowered => exact (targetLowered.loops below among).front
  | index targetLowered positionLowered =>
      rcases List.mem_append.mp among with inTarget | inPosition
      · exact (targetLowered.loops below inTarget).front.front
      · exact (positionLowered.loops (below.grow targetLowered.grows) inPosition).back.front
  | ifElse testLowered thenLowered elseLowered =>
      have belowThen := below.grow testLowered.grows
      rcases List.mem_append.mp among with inTestOrThen | inElse
      · rcases List.mem_append.mp inTestOrThen with inTest | inThen
        · exact (testLowered.loops below inTest).front.front
        · exact (thenLowered.loops belowThen inThen).cons.back.front
      · have inside := elseLowered.loops (belowThen.grow thenLowered.grows) inElse
        refine .back (.cons (inside.moved ?_))
        simp only [Site.after, List.length_append, List.length_cons]
        omega
  | array itemsLowered => exact (itemsLowered.loops below among).front
  | await sourceLowered =>
      rcases List.mem_cons.mp among with rfl | inSource
      · exact .whole (.await (.await sourceLowered)) below
      · exact (sourceLowered.loops below inSource).front

theorem LowersOperands.loops {frame : Frame} {site : Site} {before after : Progress}
    {items : List Expr} {code : Code}
    (lowered : LowersOperands frame site before items code after)
    (below : site.Below frame before.locals) {loop : HiddenLoop}
    (among : loop ∈ Expr.listLoops items) : loop.Within frame site.position code := by
  cases lowered with
  | nil => cases among
  | cons itemLowered restLowered =>
      rcases List.mem_append.mp among with inItem | inRest
      · exact (itemLowered.loops below inItem).front
      · exact (restLowered.loops (below.grow itemLowered.grows) inRest).back

theorem LowersOption.loops {frame : Frame} {site : Site} {default : Constant}
    {before after : Progress} {value : Option Expr} {code : Code}
    (lowered : LowersOption frame site default before value code after)
    (below : site.Below frame before.locals) {loop : HiddenLoop}
    (among : loop ∈ Expr.optionLoops value) : loop.Within frame site.position code := by
  cases lowered with
  | none => cases among
  | some valueLowered => exact valueLowered.loops below among

theorem LowersBlock.loops {frame : Frame} {site : Site} {before after : Progress}
    {body : List Stmt} {code : Code} (lowered : LowersBlock frame site before body code after)
    (below : site.Below frame before.locals) {loop : HiddenLoop}
    (among : loop ∈ Stmt.listLoops body) : loop.Within frame site.position code := by
  cases lowered with
  | empty => cases among
  | trailing valueLowered =>
      rw [Stmt.listLoops, Stmt.listLoops, List.append_nil] at among
      exact valueLowered.loops below among
  | statement _ statementLowered restLowered =>
      rcases List.mem_append.mp among with inStatement | inRest
      · exact (statementLowered.loops below inStatement).front
      · exact (restLowered.loops (below.behind statementLowered) inRest).back

theorem LowersElse.loops {frame : Frame} {site : Site} {before after : Progress}
    {body : Option (List Stmt)} {code : Code}
    (lowered : LowersElse frame site before body code after)
    (below : site.Below frame before.locals) {loop : HiddenLoop}
    (among : loop ∈ Stmt.bodyLoops body) : loop.Within frame site.position code := by
  cases lowered with
  | absent => cases among
  | present bodyLowered => exact bodyLowered.loops below among

theorem LowersStmts.loops {frame : Frame} {site : Site} {before after : Progress}
    {body : List Stmt} {code : Code} (lowered : LowersStmts frame site before body code after)
    (below : site.Below frame before.locals) {loop : HiddenLoop}
    (among : loop ∈ Stmt.listLoops body) : loop.Within frame site.position code := by
  cases lowered with
  | nil => cases among
  | cons statementLowered restLowered =>
      rcases List.mem_append.mp among with inStatement | inRest
      · exact (statementLowered.loops below inStatement).front
      · exact (restLowered.loops (below.behind statementLowered) inRest).back

theorem LowersStmt.loops {frame : Frame} {site : Site} {before after : Progress}
    {statement : Stmt} {code : Code} {scope : List (String × Nat)}
    (lowered : LowersStmt frame site before statement code scope after)
    (below : site.Below frame before.locals) {loop : HiddenLoop} (among : loop ∈ statement.loops) :
    loop.Within frame site.position code := by
  cases lowered with
  | letVar valueLowered => exact (valueLowered.loops below among).front
  | assignLocal _ valueLowered => exact (valueLowered.loops below among).front
  | assignCapture _ valueLowered => exact (valueLowered.loops below among).cons.cons.front
  | assignGlobal _ valueLowered => exact (valueLowered.loops below among).front
  | fieldAssign targetLowered valueLowered =>
      rcases List.mem_append.mp among with inTarget | inValue
      · exact (targetLowered.loops below inTarget).front.front
      · exact (valueLowered.loops (below.grow targetLowered.grows) inValue).back.front
  | indexAssign targetLowered positionLowered valueLowered =>
      have belowPosition := below.grow targetLowered.grows
      rcases List.mem_append.mp among with inPlace | inValue
      · rcases List.mem_append.mp inPlace with inTarget | inPosition
        · exact (targetLowered.loops below inTarget).front.front.front
        · exact (positionLowered.loops belowPosition inPosition).back.front.front
      · refine .front (.back
          ((valueLowered.loops (belowPosition.grow positionLowered.grows) inValue).moved ?_))
        simp only [Site.after, Site.deeper, List.length_append]
  | whileLoop testLowered bodyLowered =>
      rcases List.mem_append.mp among with inTest | inBody
      · exact (testLowered.loops below inTest).front
      · have inside := bodyLowered.loops (below.grow testLowered.grows) inBody
        exact (@HiddenLoop.Within.enclosed loop frame _ _ [] _ _ inside).cons.back
  | forRange stopLowered stepLowered startLowered here bodyLowered =>
      rcases List.mem_cons.mp among with rfl | inside
      · have whole := LowersStmt.forRange stopLowered stepLowered startLowered here bodyLowered
        exact .whole (.range whole) below
      have belowStep := (below.grow stopLowered.grows).mono (Nat.le_succ _)
      have belowStart := (belowStep.grow stepLowered.grows).mono (Nat.le_succ _)
      have belowBody := (belowStart.grow startLowered.grows).bind
      rcases List.mem_append.mp inside with inBounds | inBody
      · rcases List.mem_append.mp inBounds with inStopOrStep | inStart
        · rcases List.mem_append.mp inStopOrStep with inStop | inStep
          · exact (stopLowered.loops below inStop).front.front.front.front
          · exact (stepLowered.loops belowStep inStep).cons.back.front.front.front
        · refine .front (.back ((startLowered.loops belowStart inStart).moved ?_))
          simp only [Site.after, List.length_append, List.length_cons, Code.length_ofInstructions,
            List.length_nil]
          omega
      · refine .back (.enclosed ((bodyLowered.loops (belowBody _) inBody).moved ?_))
        simp only [Site.after, Site.bind, Site.enterLoop, List.length_append, List.length_cons,
          Code.length_ofInstructions, List.length_nil, Code.rangeTest]
        omega
  | forEach sourceLowered here bodyLowered =>
      have belowBody := ((below.grow sourceLowered.grows).mono (Nat.le_succ _)).bind
      rcases List.mem_append.mp among with inSource | inBody
      · exact (sourceLowered.loops below inSource).front
      · refine .back (.enclosed ((bodyLowered.loops (belowBody _) inBody).moved ?_))
        simp only [Site.after, Site.bind, Site.enterLoop, List.length_append, List.length_cons,
          List.length_nil, Code.eachTest]
        omega
  | breakLoop => cases among
  | yieldValue valueLowered => exact (valueLowered.loops below among).front
  | returnValue valueLowered => exact (valueLowered.loops below among).front
  | expr valueLowered => exact (valueLowered.loops below among).front

end

/-! ## Slots that code writes to -/

/-- The slots that code may write to: those of the names in scope, and those that are not taken. -/
def Frame.Owns (frame : Frame) (scope : List (String × Nat)) (locals slot : Nat) : Prop :=
  frame.slot locals ≤ slot ∨ ∃ entry ∈ scope, entry.2 = slot

namespace Frame.Owns

variable {frame : Frame} {scope : List (String × Nat)} {locals later slot : Nat}

theorem free (grows : locals ≤ later) : frame.Owns scope locals (frame.slot later) := by
  left
  simp only [Frame.slot]
  omega

theorem shrink (owned : frame.Owns scope later slot) (grows : locals ≤ later) :
    frame.Owns scope locals slot := by
  rcases owned with free | named
  · left
    simp only [Frame.slot] at free ⊢
    omega
  · exact .inr named

/-- A slot that is taken and no name stands for is not written to. -/
theorem ne (owned : frame.Owns scope locals slot) {hidden : Nat}
    (taken : hidden < frame.slot locals) (nameless : ∀ entry ∈ scope, entry.2 ≠ hidden) :
    slot ≠ hidden := by
  rintro rfl
  rcases owned with free | ⟨entry, named, same⟩
  · exact absurd taken (Nat.not_lt.mpr free)
  · exact nameless entry named same

end Frame.Owns

/-- Code that takes slots, and writes to none of those that were taken before but the ones
of the names in scope. -/
structure Code.Fills (frame : Frame) (scope : List (String × Nat)) (before : Progress) (code : Code)
    (after : Progress) : Prop where
  grows : before.locals ≤ after.locals
  writes : ∀ stop slot, .storeLocal slot ∈ code.closeLoop stop →
    frame.Owns scope before.locals slot

namespace Code.Fills

variable {frame : Frame} {site : Site} {scope : List (String × Nat)}
  {before middle after : Progress} {code first second : Code} {instruction : Instruction}
  {instructions : List Instruction}

theorem emitted
    (owned : ∀ slot, .storeLocal slot ∈ instructions → frame.Owns scope before.locals slot) :
    Fills frame scope before (.ofInstructions instructions) before where
  grows := Nat.le_refl _
  writes stop slot among := by
    rw [closeLoop_ofInstructions] at among
    exact owned slot among

theorem nil : Fills frame scope before [] before := @emitted frame scope before [] nofun

theorem append (one : Fills frame scope before first middle)
    (two : Fills frame scope middle second after) :
    Fills frame scope before (first ++ second) after where
  grows := Nat.le_trans one.grows two.grows
  writes stop slot among := by
    rw [closeLoop_append] at among
    rcases List.mem_append.mp among with inFirst | inSecond
    · exact one.writes stop slot inFirst
    · exact (two.writes stop slot inSecond).shrink one.grows

theorem single
    (owned : ∀ slot, .storeLocal slot = instruction → frame.Owns scope before.locals slot) :
    Fills frame scope before [.ready instruction] before := by
  refine @emitted frame scope before [instruction] fun slot among => ?_
  exact owned slot (List.mem_singleton.mp among)

theorem store :
    Fills frame scope before [.ready (.storeLocal (frame.slot before.locals))] (before.take 1) where
  grows := Nat.le_succ _
  writes _ slot among := by
    cases List.mem_singleton.mp among
    exact .free (Nat.le_refl _)

theorem cons (other : ∀ slot, Instruction.storeLocal slot ≠ instruction)
    (rest : Fills frame scope before code after) :
    Fills frame scope before (.ready instruction :: code) after :=
  (single fun slot same => absurd same (other slot)).append rest

theorem snoc (front : Fills frame scope before code after)
    (other : ∀ slot, Instruction.storeLocal slot ≠ instruction) :
    Fills frame scope before (code ++ [.ready instruction]) after :=
  front.append (single fun slot same => absurd same (other slot))

theorem take (part : Fills frame scope before code after) (count : Nat) :
    Fills frame scope before code (after.take count) :=
  ⟨Nat.le_trans part.grows (Nat.le_add_right _ _), part.writes⟩

/-- The body of a loop between the instructions that make it one. -/
theorem enclosed {front back : List Instruction} {stop : Nat}
    (ahead : ∀ slot, .storeLocal slot ∈ front → frame.Owns scope before.locals slot)
    (body : Fills frame scope before code after)
    (behind : ∀ slot, .storeLocal slot ∈ back → frame.Owns scope before.locals slot) :
    Fills frame scope before (.ofInstructions (front ++ code.closeLoop stop ++ back)) after where
  grows := body.grows
  writes outer slot among := by
    rw [closeLoop_ofInstructions] at among
    rcases List.mem_append.mp among with inFront | inBack
    · rcases List.mem_append.mp inFront with inAhead | inBody
      · exact ahead slot inAhead
      · exact body.writes stop slot inBody
    · exact behind slot inBack

theorem load {scope : List (String × Nat)} {name : String}
    (loaded : frame.load scope name = .ok instructions) :
    Fills frame scope before (.ofInstructions instructions) before := by
  refine emitted fun slot among => ?_
  rcases Frame.load_cases loaded with ⟨_, _, _, rfl⟩ | ⟨_, _, _, rfl⟩ | ⟨_, _, _, rfl⟩ <;>
    simp at among

theorem loads {scope : List (String × Nat)} {names : List String} {loads : List (List Instruction)}
    (loaded : names.mapM (frame.load scope) = .ok loads) :
    Fills frame scope before (.ofInstructions loads.flatten) before := by
  induction names generalizing loads with
  | nil =>
      cases loaded
      exact nil
  | cons name names ih =>
      rw [List.mapM_cons] at loaded
      rcases exists_of_bind_ok loaded with ⟨first, firstLoaded, loaded⟩
      rcases exists_of_bind_ok loaded with ⟨others, othersLoaded, loaded⟩
      cases loaded
      rw [List.flatten_cons, Code.ofInstructions, List.map_append]
      exact (load firstLoaded).append (ih othersLoaded)

/-- Code in which one more name is in scope, with a slot that is taken for it. -/
theorem bound {name : String} {later : Progress}
    (part : Fills frame ((name, frame.slot later.locals) :: scope) (later.take 1) code after) :
    Fills frame scope later code after where
  grows := Nat.le_of_succ_le part.grows
  writes stop slot among := by
    rcases part.writes stop slot among with free | ⟨entry, named, rfl⟩
    · exact .shrink (.inl free) (Nat.le_succ _)
    · rcases List.mem_cons.mp named with rfl | named
      · exact .free (Nat.le_refl _)
      · exact .inr ⟨entry, named, rfl⟩

/-- What comes behind a statement may have one more name in scope. -/
theorem follow {statement : Stmt}
    (lowered : LowersStmt frame site before statement first scope middle)
    (one : Fills frame site.scope before first middle)
    (two : Fills frame scope middle second after) :
    Fills frame site.scope before (first ++ second) after := by
  cases lowered with
  | letVar valueLowered =>
      refine ⟨Nat.le_trans one.grows two.grows, fun stop slot among => ?_⟩
      rw [closeLoop_append] at among
      rcases List.mem_append.mp among with inFirst | inSecond
      · exact one.writes stop slot inFirst
      · rcases two.writes stop slot inSecond with free | ⟨entry, named, rfl⟩
        · exact .shrink (.inl free) one.grows
        · rcases List.mem_cons.mp named with rfl | named
          · exact .free valueLowered.grows.locals
          · exact .inr ⟨entry, named, rfl⟩
  | _ => exact one.append two

end Code.Fills

open Code.Fills

mutual

/-- Lowered code writes to the slots of names in scope and to its own. -/
theorem LowersExpr.fills {frame : Frame} {site : Site} {before after : Progress} {expr : Expr}
    {code : Code} (lowered : LowersExpr frame site before expr code after) :
    Code.Fills frame site.scope before code after := by
  cases lowered with
  | literal => exact single nofun
  | var loaded => exact load loaded
  | @shortCircuit _ _ operator _ _ _ _ _ _ _ short leftLowered rightLowered =>
      refine leftLowered.fills.append (cons ?_ rightLowered.fills)
      intro slot same
      cases operator <;> cases short <;> cases same
  | binary _ leftLowered rightLowered =>
      exact (leftLowered.fills.append rightLowered.fills).snoc nofun
  | unary operandLowered => exact operandLowered.fills.snoc nofun
  | callVariable loaded argsLowered => exact ((load loaded).append argsLowered.fills).snoc nofun
  | call _ argsLowered =>
      refine argsLowered.fills.snoc fun slot same => ?_
      unfold callInstruction at same
      split at same <;> cases same
  | staticCall _ argsLowered => exact argsLowered.fills.snoc nofun
  | methodCall _ receiverLowered argsLowered =>
      exact (receiverLowered.fills.append argsLowered.fills).snoc nofun
  | invoke calleeLowered argsLowered =>
      exact (calleeLowered.fills.append argsLowered.fills).snoc nofun
  | staticField => exact single nofun
  | field _ targetLowered => exact targetLowered.fills.snoc nofun
  | index targetLowered positionLowered =>
      exact (targetLowered.fills.append positionLowered.fills).snoc nofun
  | ifElse testLowered thenLowered elseLowered =>
      refine (testLowered.fills.append (cons ?_ thenLowered.fills)).append
        (cons ?_ elseLowered.fills)
      · nofun
      · nofun
  | @action _ _ params body _ loaded =>
      have made := (loads loaded).append (@emitted frame site.scope before
        [.makeArray (frame.captured site.scope params body).length,
          .makeClosure (frame.literal site.scope before.actions.length params body).reference]
        (by simp))
      rw [Code.ofInstructions, List.map_append]
      exact ⟨made.grows, made.writes⟩
  | array itemsLowered => exact itemsLowered.fills.snoc nofun
  | @await _ _ _ _ after sourceLowered =>
      refine (sourceLowered.fills.append (emitted fun slot among => ?_)).take 2
      have own : slot = frame.slot after.locals ∨ slot = frame.slot (after.locals + 1) := by
        simpa [Code.awaitLoop] using among
      rcases own with rfl | rfl
      · exact .free (Nat.le_refl _)
      · exact .free (Nat.le_succ _)

theorem LowersOperands.fills {frame : Frame} {site : Site} {before after : Progress}
    {items : List Expr} {code : Code}
    (lowered : LowersOperands frame site before items code after) :
    Code.Fills frame site.scope before code after := by
  cases lowered with
  | nil => exact nil
  | cons itemLowered restLowered => exact itemLowered.fills.append restLowered.fills

theorem LowersOption.fills {frame : Frame} {site : Site} {default : Constant}
    {before after : Progress} {value : Option Expr} {code : Code}
    (lowered : LowersOption frame site default before value code after) :
    Code.Fills frame site.scope before code after := by
  cases lowered with
  | none => exact single nofun
  | some valueLowered => exact valueLowered.fills

theorem LowersBlock.fills {frame : Frame} {site : Site} {before after : Progress}
    {body : List Stmt} {code : Code} (lowered : LowersBlock frame site before body code after) :
    Code.Fills frame site.scope before code after := by
  cases lowered with
  | empty => exact single nofun
  | trailing valueLowered => exact valueLowered.fills
  | statement _ statementLowered restLowered =>
      exact .follow statementLowered statementLowered.fills restLowered.fills

theorem LowersElse.fills {frame : Frame} {site : Site} {before after : Progress}
    {body : Option (List Stmt)} {code : Code}
    (lowered : LowersElse frame site before body code after) :
    Code.Fills frame site.scope before code after := by
  cases lowered with
  | absent => exact single nofun
  | present bodyLowered => exact bodyLowered.fills

theorem LowersStmts.fills {frame : Frame} {site : Site} {before after : Progress}
    {body : List Stmt} {code : Code} (lowered : LowersStmts frame site before body code after) :
    Code.Fills frame site.scope before code after := by
  cases lowered with
  | nil => exact nil
  | cons statementLowered restLowered =>
      exact .follow statementLowered statementLowered.fills restLowered.fills

theorem LowersStmt.fills {frame : Frame} {site : Site} {before after : Progress}
    {statement : Stmt} {code : Code} {scope : List (String × Nat)}
    (lowered : LowersStmt frame site before statement code scope after) :
    Code.Fills frame site.scope before code after := by
  cases lowered with
  | letVar valueLowered => exact valueLowered.fills.append store
  | assignLocal resolved valueLowered =>
      have assigned := LowersExpr.fills valueLowered
      refine ⟨assigned.grows, (assigned.append (single fun slot same => ?_)).writes⟩
      cases same
      exact .inr ⟨_, Frame.mem_scope_of_resolve? resolved, rfl⟩
  | assignCapture _ valueLowered =>
      exact ((emitted (by simp)).append valueLowered.fills).snoc nofun
  | assignGlobal _ valueLowered => exact valueLowered.fills.snoc nofun
  | fieldAssign targetLowered valueLowered =>
      exact (targetLowered.fills.append valueLowered.fills).snoc nofun
  | indexAssign targetLowered positionLowered valueLowered =>
      have operands := targetLowered.fills.append positionLowered.fills
      exact (operands.append valueLowered.fills).snoc nofun
  | whileLoop testLowered bodyLowered =>
      refine testLowered.fills.append (cons ?_ (@enclosed _ _ _ _ _ [] _ _ ?_ bodyLowered.fills ?_))
      · nofun
      · nofun
      · simp
  | @forRange _ _ _ _ _ _ _ _ _ _ _ _ afterStart _ _ _ stopLowered stepLowered startLowered _
      bodyLowered =>
      have body : Code.Fills frame site.scope afterStart _ after := bodyLowered.fills.bound
      refine .append (.append (.append (.append stopLowered.fills (.append store stepLowered.fills))
        (cons ?check store)) startLowered.fills) (enclosed ?slot body ?next)
      case check => nofun
      case slot =>
        intro slot among
        have own : slot = frame.slot afterStart.locals := by simpa [Code.rangeTest] using among
        rw [own]
        exact .free (Nat.le_refl _)
      case next =>
        intro slot among
        have own : slot = frame.slot afterStart.locals := by simpa [Code.rangeNext] using among
        rw [own]
        exact .free (Nat.le_refl _)
  | @forEach _ _ _ _ _ _ afterSource _ _ _ sourceLowered _ bodyLowered =>
      have body : Code.Fills frame site.scope (afterSource.take 1) _ after :=
        bodyLowered.fills.bound
      have inner := Nat.le_of_succ_le body.grows
      refine sourceLowered.fills.append ⟨inner, (enclosed ?_ ⟨inner, ?_⟩ ?_).writes⟩
      · intro slot among
        have own : slot = frame.slot afterSource.locals ∨
            slot = frame.slot (afterSource.locals + 1) := by
          simpa [Code.eachTest] using among
        rcases own with rfl | rfl
        · exact .free (Nat.le_refl _)
        · exact .free (Nat.le_succ _)
      · intro stop slot among
        exact (body.writes stop slot among).shrink (Nat.le_succ _)
      · simp
  | breakLoop =>
      refine ⟨Nat.le_refl _, fun stop slot among => ?_⟩
      simp [Code.closeLoop, Code.closeCell] at among
  | yieldValue valueLowered => exact valueLowered.fills.snoc nofun
  | returnValue valueLowered =>
      exact valueLowered.fills.append (emitted (by simp [Frame.leave]))
  | expr valueLowered => exact valueLowered.fills.snoc nofun

end

/-! ## Where the code of a loop stands -/

/-- Instructions that a program has from a position on. -/
def Program.Has (program : Program) (position : Nat) (instructions : List Instruction) : Prop :=
  ∀ index instruction, instructions[index]? = some instruction →
    program.instructions[position + index]? = some instruction

namespace Program.Has

variable {program : Program} {position : Nat} {first second : List Instruction}

theorem front (has : program.Has position (first ++ second)) : program.Has position first := by
  intro index instruction found
  have inside := (List.getElem?_eq_some_iff.mp found).1
  exact has index instruction (by rwa [List.getElem?_append_left inside])

theorem back (has : program.Has position (first ++ second)) :
    program.Has (position + first.length) second := by
  intro index instruction found
  rw [Nat.add_assoc]
  refine has _ instruction ?_
  rwa [List.getElem?_append_right (Nat.le_add_right _ _), Nat.add_sub_cancel_left]

/-- What stands at a place among instructions that the program has. -/
theorem mem (has : program.Has position first) {ip : Nat} {instruction : Instruction}
    (lower : position ≤ ip) (upper : ip < position + first.length)
    (found : program.instructions[ip]? = some instruction) : instruction ∈ first := by
  have inside : ip - position < first.length := by omega
  have here := has (ip - position) first[ip - position] (List.getElem?_eq_getElem inside)
  rw [Nat.add_sub_cancel' lower] at here
  cases found.symm.trans here
  exact List.getElem_mem inside

end Program.Has

section Places

variable {units : List ProgramUnit} {globals : List String} {program : Program}
  {placed : List Placement} {placement : Placement}

theorem Program.Compiled.has_code (compiled : program.Compiled units globals placed)
    (member : placement ∈ placed) : program.Has placement.offset placement.code := by
  rcases (compiled.laidOut.split member).2 with ⟨first, second, same, here⟩
  have whole : program.Has 0 (placed.flatMap Placement.code) := by
    intro index instruction found
    rwa [Nat.zero_add, ← Array.getElem?_toList, compiled.instructions]
  rw [same, List.flatMap_append, List.flatMap_cons] at whole
  rw [here]
  exact whole.back.front

/-- The code of a loop in a program. It is the one that the function's own code has of the loop, and
all names in scope there have slots that were taken before those of the loop. -/
structure Program.HasLoop (program : Program) (frame : Frame) (loop : HiddenLoop) (site : Site)
    (before : Progress) (code : Code) (after : Progress) (stop : Nat) : Prop where
  lowered : loop.Lowers frame site before code after
  below : site.Below frame before.locals
  has : program.Has site.position (code.closeLoop stop)

/-- Every loop that is written in a function of a compiled program has its code in that of the
function. -/
theorem Program.Compiled.exists_hasLoop (compiled : program.Compiled units globals placed)
    (member : placement ∈ placed) {loop : HiddenLoop} (among : loop ∈ placement.source.loops) :
    ∃ site before code after stop,
      program.HasLoop ⟨⟨globals, (declaredSources units).map FunctionSource.reference⟩,
        placement.source⟩ loop site before code after stop ∧
      placement.offset ≤ site.position ∧
      site.position + code.length ≤ placement.offset + placement.code.length := by
  have has := compiled.has_code member
  rcases lowerFunction_ok (compiled.laidOut.split member).1 with
    ⟨body, progress, bodyLowered, wrapped, _⟩
  have stands := bodyLowered.loops (Site.Below.parameters _ _ _) among
    (placement.offset + 2 + body.length)
  rw [wrapped, FunctionSource.wrap] at has
  have inBody := has.front.back
  generalize closed : body.closeLoop (placement.offset + 2 + body.length) = instructions
    at stands inBody
  cases stands with
  | @here site before code after stop front back lowered below place =>
      have length := congrArg List.length closed
      simp only [FunctionSource.site] at place
      simp only [Code.length_closeLoop, List.length_append] at length
      refine ⟨site, before, code, after, stop, ⟨lowered, below, ?_⟩, ?_, ?_⟩
      · rw [place]
        exact inBody.front.back
      · omega
      · rw [wrapped, FunctionSource.wrap]
        simp only [List.length_append, Code.length_closeLoop, List.length_cons, List.length_nil]
        omega

end Places

end ScriptMachine
