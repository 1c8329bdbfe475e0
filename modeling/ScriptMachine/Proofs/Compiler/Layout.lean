import ScriptMachine.Proofs.Compiler.Lowered
import ScriptMachine.Proofs.Value.Dictionary

/-!
# The layout of a program

A compiled program is a row of functions: the declared ones in order, then the action literals in
the order in which they were met. The bound on the number of literals is never the reason to stop,
since placing a literal uses up one of the bound and brings in no more literals than its body holds.
So every literal that some function makes closures of is placed, and the namespaces lead to it.
-/

namespace ScriptMachine

/-! ## Progress -/

/-- How many literals there are in a list of functions, each counted with those in its body. -/
def literalCount : List FunctionSource → Nat
  | [] => 0
  | source :: rest => 1 + Stmt.listActionCount source.body + literalCount rest

@[simp]
theorem literalCount_append (first second : List FunctionSource) :
    literalCount (first ++ second) = literalCount first + literalCount second := by
  induction first with
  | nil => simp [literalCount]
  | cons source rest ih => simp [literalCount, ih, Nat.add_assoc]

/-- Lowering a part took slots and met literals, so many in all. -/
structure Progress.Grows (before after : Progress) (count : Nat) : Prop where
  locals : before.locals ≤ after.locals
  actions : ∃ met, after.actions = before.actions ++ met ∧ literalCount met = count

namespace Progress.Grows

variable {before middle after : Progress} {first second count taken : Nat}

theorem refl : before.Grows before 0 := ⟨Nat.le_refl _, [], by simp, rfl⟩

theorem trans (one : before.Grows middle first) (two : middle.Grows after second) :
    before.Grows after (first + second) := by
  rcases one.actions with ⟨metFirst, same, counted⟩
  rcases two.actions with ⟨metSecond, sameSecond, countedSecond⟩
  refine ⟨Nat.le_trans one.locals two.locals, metFirst ++ metSecond, ?_, ?_⟩
  · rw [sameSecond, same, List.append_assoc]
  · rw [literalCount_append, counted, countedSecond]

theorem take (one : before.Grows after count) : before.Grows (after.take taken) count :=
  ⟨Nat.le_trans one.locals (Nat.le_add_right _ _), one.actions⟩

theorem mem_actions (one : before.Grows after count) {source : FunctionSource}
    (met : source ∈ before.actions) : source ∈ after.actions := by
  rcases one.actions with ⟨more, same, _⟩
  rw [same]
  exact List.mem_append_left _ met

end Progress.Grows

theorem Frame.staticReceiver?_eq_some {frame : Frame} {scope : List (String × Nat)} {receiver : Expr}
    {typeName : String} (static : frame.staticReceiver? scope receiver = some typeName) :
    receiver = .var typeName ∧ frame.resolve? scope typeName = none := by
  cases receiver with
  | var name =>
      simp only [staticReceiver?] at static
      split at static
      · rename_i unresolved
        cases static
        exact ⟨rfl, Option.isNone_iff_eq_none.mp unresolved⟩
      · cases static
  | _ => cases static

mutual

theorem LowersExpr.grows {frame : Frame} {site : Site} {before after : Progress} {expr : Expr}
    {code : Code} (lowered : LowersExpr frame site before expr code after) :
    before.Grows after expr.actionCount := by
  cases lowered with
  | literal => simpa [Expr.actionCount] using Progress.Grows.refl
  | var => simpa [Expr.actionCount] using Progress.Grows.refl
  | shortCircuit _ leftLowered rightLowered =>
      exact leftLowered.grows.trans rightLowered.grows
  | binary _ leftLowered rightLowered => exact leftLowered.grows.trans rightLowered.grows
  | unary operandLowered => exact operandLowered.grows
  | callVariable _ argsLowered => exact argsLowered.grows
  | call _ argsLowered => exact argsLowered.grows
  | staticCall static argsLowered =>
      rcases Frame.staticReceiver?_eq_some static with ⟨rfl, _⟩
      have grown := Progress.Grows.refl.trans argsLowered.grows
      simpa [Expr.actionCount] using grown
  | methodCall _ receiverLowered argsLowered =>
      exact receiverLowered.grows.trans argsLowered.grows
  | invoke calleeLowered argsLowered => exact calleeLowered.grows.trans argsLowered.grows
  | staticField static =>
      rcases Frame.staticReceiver?_eq_some static with ⟨rfl, _⟩
      exact .refl
  | field _ targetLowered => exact targetLowered.grows
  | index targetLowered positionLowered =>
      exact targetLowered.grows.trans positionLowered.grows
  | ifElse testLowered thenLowered elseLowered =>
      exact (testLowered.grows.trans thenLowered.grows).trans elseLowered.grows
  | @action _ _ params body =>
      exact ⟨Nat.le_refl _, [_], rfl, by simp [literalCount, Frame.literal, Expr.actionCount]⟩
  | array itemsLowered => exact itemsLowered.grows
  | await sourceLowered => exact sourceLowered.grows.take

theorem LowersOperands.grows {frame : Frame} {site : Site} {before after : Progress}
    {items : List Expr} {code : Code}
    (lowered : LowersOperands frame site before items code after) :
    before.Grows after (Expr.listActionCount items) := by
  cases lowered with
  | nil => exact .refl
  | cons itemLowered restLowered => exact itemLowered.grows.trans restLowered.grows

theorem LowersOption.grows {frame : Frame} {site : Site} {default : Constant}
    {before after : Progress} {value : Option Expr} {code : Code}
    (lowered : LowersOption frame site default before value code after) :
    before.Grows after (Expr.optionActionCount value) := by
  cases lowered with
  | none => exact .refl
  | some valueLowered => exact valueLowered.grows

theorem LowersBlock.grows {frame : Frame} {site : Site} {before after : Progress}
    {body : List Stmt} {code : Code} (lowered : LowersBlock frame site before body code after) :
    before.Grows after (Stmt.listActionCount body) := by
  cases lowered with
  | empty => exact .refl
  | trailing valueLowered => exact valueLowered.grows
  | statement _ statementLowered restLowered =>
      exact statementLowered.grows.trans restLowered.grows

theorem LowersElse.grows {frame : Frame} {site : Site} {before after : Progress}
    {body : Option (List Stmt)} {code : Code}
    (lowered : LowersElse frame site before body code after) :
    before.Grows after (Stmt.bodyActionCount body) := by
  cases lowered with
  | absent => exact .refl
  | present bodyLowered => exact bodyLowered.grows

theorem LowersStmts.grows {frame : Frame} {site : Site} {before after : Progress}
    {body : List Stmt} {code : Code} (lowered : LowersStmts frame site before body code after) :
    before.Grows after (Stmt.listActionCount body) := by
  cases lowered with
  | nil => exact .refl
  | cons statementLowered restLowered => exact statementLowered.grows.trans restLowered.grows

theorem LowersStmt.grows {frame : Frame} {site : Site} {before after : Progress}
    {statement : Stmt} {code : Code} {scope : List (String × Nat)}
    (lowered : LowersStmt frame site before statement code scope after) :
    before.Grows after statement.actionCount := by
  cases lowered with
  | letVar valueLowered => exact valueLowered.grows.take
  | assignLocal _ valueLowered => exact valueLowered.grows
  | assignCapture _ valueLowered => exact valueLowered.grows
  | assignGlobal _ valueLowered => exact valueLowered.grows
  | fieldAssign targetLowered valueLowered => exact targetLowered.grows.trans valueLowered.grows
  | indexAssign targetLowered positionLowered valueLowered =>
      exact (targetLowered.grows.trans positionLowered.grows).trans valueLowered.grows
  | whileLoop testLowered bodyLowered => exact testLowered.grows.trans bodyLowered.grows
  | @forRange _ _ name start stop step body _ _ _ _ _ _ _ _ _ stopLowered stepLowered startLowered _
      bodyLowered =>
      have grown := ((stopLowered.grows.take.trans stepLowered.grows).take.trans
        startLowered.grows).take.trans bodyLowered.grows
      have same : Stmt.actionCount (.forRange name start stop step body) =
          stop.actionCount + Expr.optionActionCount step + start.actionCount +
            Stmt.listActionCount body := by
        simp only [Stmt.actionCount]
        omega
      rw [same]
      exact grown
  | forEach sourceLowered _ bodyLowered => exact sourceLowered.grows.take.trans bodyLowered.grows
  | breakLoop => exact .refl
  | yieldValue valueLowered => exact valueLowered.grows
  | returnValue valueLowered => exact valueLowered.grows
  | expr valueLowered => exact valueLowered.grows

end

/-! ## Functions in a row -/

/-- A function that has been laid out. -/
structure Placement where
  source : FunctionSource
  offset : Nat
  code : List Instruction
  /-- The action literals in the function. -/
  actions : List FunctionSource

namespace Placement

/-- What the namespaces say about the function. -/
def entry (placement : Placement) : FunctionEntry := ⟨placement.offset, placement.source.arity⟩

/-- Enters the function into the namespaces. -/
def register (node : NamespaceNode) (placement : Placement) : NamespaceNode :=
  node.insert placement.source.path placement.source.name placement.entry

end Placement

/-- Functions laid out in a row from an offset on. -/
inductive LaidOut (linkage : Linkage) : Nat → List Placement → Prop
  | nil {offset} : LaidOut linkage offset []
  | cons {offset source code actions rest}
      (lowered : lowerFunction linkage offset source = .ok (code, actions))
      (restLaidOut : LaidOut linkage (offset + code.length) rest) :
      LaidOut linkage offset (⟨source, offset, code, actions⟩ :: rest)

/-- An assembly that holds these functions and no others. -/
structure Assembly.Holds (linkage : Linkage) (assembly : Assembly) (placed : List Placement) :
    Prop where
  laidOut : LaidOut linkage 0 placed
  instructions : assembly.instructions.toList = placed.flatMap Placement.code
  namespaces : assembly.namespaces = placed.foldl Placement.register .empty

/-- Works through functions from the front until none is left: each is laid out, and the literals in
it go to the back. The order is the one in which functions are laid out. -/
inductive Assembly.Drains (linkage : Linkage) :
    Assembly → List FunctionSource → List FunctionSource → Assembly → Prop
  | done {assembly} : Drains linkage assembly [] [] assembly
  | next {assembly following last source actions rest order}
      (placing : assembly.place linkage source = .ok (following, actions))
      (later : Drains linkage following (rest ++ actions) order last) :
      Drains linkage assembly (source :: rest) (source :: order) last

theorem LaidOut.append {linkage : Linkage} {offset : Nat} {first second : List Placement}
    (one : LaidOut linkage offset first)
    (two : LaidOut linkage (offset + (first.flatMap Placement.code).length) second) :
    LaidOut linkage offset (first ++ second) := by
  induction one with
  | nil => simpa using two
  | cons lowered _ ih =>
      refine .cons lowered (ih ?_)
      simpa [Nat.add_assoc] using two

/-- Each function of a row is the code of its source at its offset, between those around it. -/
theorem LaidOut.split {linkage : Linkage} {offset : Nat} {placed : List Placement}
    (laidOut : LaidOut linkage offset placed) {placement : Placement} (member : placement ∈ placed) :
    lowerFunction linkage placement.offset placement.source =
        .ok (placement.code, placement.actions) ∧
      ∃ first second, placed = first ++ placement :: second ∧
        placement.offset = offset + (first.flatMap Placement.code).length := by
  induction laidOut with
  | nil => cases member
  | cons lowered restLaidOut ih =>
      rcases List.mem_cons.mp member with rfl | member
      · exact ⟨lowered, [], _, rfl, rfl⟩
      · rcases ih member with ⟨loweredHere, first, second, same, here⟩
        refine ⟨loweredHere, _ :: first, second, congrArg _ same, ?_⟩
        rw [here]
        simp [Nat.add_assoc]

namespace Assembly

variable {linkage : Linkage} {assembly later : Assembly} {placed : List Placement}
  {actions : List FunctionSource}

theorem holds_empty : empty.Holds linkage [] := ⟨.nil, rfl, rfl⟩

theorem place_holds {source : FunctionSource} (held : assembly.Holds linkage placed)
    (placing : assembly.place linkage source = .ok (later, actions)) :
    ∃ code, later.Holds linkage (placed ++ [⟨source, assembly.instructions.size, code, actions⟩]) := by
  rcases exists_of_bind_ok placing with ⟨⟨code, found⟩, lowered, placing⟩
  cases placing
  have size : assembly.instructions.size = (placed.flatMap Placement.code).length := by
    rw [← held.instructions, Array.length_toList]
  refine ⟨code, ?_, ?_, ?_⟩
  · refine held.laidOut.append ?_
    rw [Nat.zero_add, ← size]
    exact .cons lowered .nil
  · simp [held.instructions]
  · rw [List.foldl_append, ← held.namespaces]
    rfl

theorem placeAll_holds {sources : List FunctionSource} (held : assembly.Holds linkage placed)
    (placing : assembly.placeAll linkage sources = .ok (later, actions)) :
    ∃ added, later.Holds linkage (placed ++ added) ∧ added.map Placement.source = sources ∧
      actions = added.flatMap Placement.actions := by
  induction sources generalizing assembly placed actions with
  | nil =>
      cases placing
      exact ⟨[], by simpa using held, rfl, rfl⟩
  | cons source rest ih =>
      rcases exists_of_bind_ok placing with ⟨⟨next, found⟩, first, placing⟩
      rcases exists_of_bind_ok placing with ⟨⟨last, more⟩, others, placing⟩
      cases placing
      rcases place_holds held first with ⟨code, heldNext⟩
      rcases ih heldNext others with ⟨added, heldLast, same, sameActions⟩
      exact ⟨⟨source, assembly.instructions.size, code, found⟩ :: added,
        by simpa using heldLast, by simp [same], by simp [sameActions]⟩

theorem literalCount_lowerFunction {position : Nat} {source : FunctionSource}
    {code : List Instruction}
    (lowered : lowerFunction linkage position source = .ok (code, actions)) :
    literalCount actions = Stmt.listActionCount source.body := by
  rcases lowerFunction_ok lowered with ⟨body, progress, bodyLowered, _, rfl⟩
  rcases bodyLowered.grows.actions with ⟨met, same, counted⟩
  rw [same, List.nil_append, counted]

theorem lowered_of_place {source : FunctionSource}
    (placing : assembly.place linkage source = .ok (later, actions)) :
    ∃ code, lowerFunction linkage assembly.instructions.size source = .ok (code, actions) := by
  rcases exists_of_bind_ok placing with ⟨⟨code, found⟩, lowered, placing⟩
  cases placing
  exact ⟨code, lowered⟩

/-- The bound is never the reason to stop: laying out a literal uses up one of it, and brings in no
more literals than the body holds. -/
theorem drains_of_placeActions {bound : Nat} {pending : List FunctionSource}
    (enough : literalCount pending ≤ bound)
    (placing : placeActions linkage bound assembly pending = .ok later) :
    ∃ order, assembly.Drains linkage pending order later := by
  induction bound generalizing assembly pending with
  | zero =>
      cases pending with
      | nil =>
          cases placing
          exact ⟨[], .done⟩
      | cons source rest =>
          simp only [literalCount] at enough
          omega
  | succ bound ih =>
      cases pending with
      | nil =>
          cases placing
          exact ⟨[], .done⟩
      | cons source rest =>
          rcases exists_of_bind_ok placing with ⟨⟨following, found⟩, first, placing⟩
          rcases lowered_of_place first with ⟨code, lowered⟩
          have counted := literalCount_lowerFunction lowered
          have enoughLater : literalCount (rest ++ found) ≤ bound := by
            simp only [literalCount] at enough
            rw [literalCount_append, counted]
            omega
          rcases ih enoughLater placing with ⟨order, drains⟩
          exact ⟨source :: order, .next first drains⟩

theorem Drains.holds {pending order : List FunctionSource} (held : assembly.Holds linkage placed)
    (drains : assembly.Drains linkage pending order later) :
    ∃ added, later.Holds linkage (placed ++ added) ∧ added.map Placement.source = order ∧
      order = pending ++ added.flatMap Placement.actions := by
  induction drains generalizing placed with
  | done => exact ⟨[], by simpa using held, rfl, rfl⟩
  | @next assembly _ _ source actions _ _ placing _ ih =>
      rcases place_holds held placing with ⟨code, heldNext⟩
      rcases ih heldNext with ⟨added, heldLast, same, order⟩
      exact ⟨⟨source, assembly.instructions.size, code, actions⟩ :: added,
        by simpa using heldLast, by simp [same], by simp [order]⟩

end Assembly

/-! ## Namespaces -/

namespace NamespaceNode

theorem functions_mk {functions : Dictionary FunctionEntry} {children : Dictionary NamespaceNode} :
    (mk functions children).functions = functions := rfl

theorem children_mk {functions : Dictionary FunctionEntry} {children : Dictionary NamespaceNode} :
    (mk functions children).children = children := rfl

theorem lookup?_nil (node : NamespaceNode) (name : String) :
    node.lookup? [] name = node.functions.find? name := rfl

theorem lookup?_cons (node : NamespaceNode) (segment : String) (path : List String)
    (name : String) :
    node.lookup? (segment :: path) name =
      (node.children.find? segment).bind fun child => child.lookup? path name := by
  simp only [lookup?, descend?]
  cases node.children.find? segment <;> rfl

theorem lookup?_empty (path : List String) (name : String) : empty.lookup? path name = none := by
  cases path <;> rfl

/-- Entering a function changes what its own name leads to and nothing else. -/
theorem lookup?_insert {node : NamespaceNode} {path target : List String} {name wanted : String}
    {entry : FunctionEntry} :
    (node.insert path name entry).lookup? target wanted =
      if target = path ∧ wanted = name then some entry else node.lookup? target wanted := by
  induction path generalizing node target with
  | nil =>
      cases target with
      | nil => simp [insert, lookup?_nil, functions_mk, Dictionary.find?_insert]
      | cons segment rest => simp [insert, lookup?_cons, children_mk]
  | cons segment path ih =>
      cases target with
      | nil => simp [insert, lookup?_nil, functions_mk]
      | cons first rest =>
          simp only [insert, lookup?_cons, children_mk, Dictionary.find?_insert]
          by_cases same : first = segment
          · subst first
            simp only [↓reduceIte, Option.bind_some, ih, List.cons.injEq, true_and]
            cases found : node.children.find? segment with
            | some child => rfl
            | none => simp only [Option.getD_none, lookup?_empty, Option.bind_none]
          · simp [same]

end NamespaceNode

/-- What the namespaces lead to is one of the placed functions. -/
theorem lookup?_register {placed : List Placement} {node : NamespaceNode} {path : List String}
    {name : String} {entry : FunctionEntry}
    (found : (placed.foldl Placement.register node).lookup? path name = some entry) :
    (∃ placement ∈ placed, placement.source.reference = ⟨path, name⟩ ∧ placement.entry = entry) ∨
      node.lookup? path name = some entry := by
  induction placed generalizing node with
  | nil => exact .inr found
  | cons first rest ih =>
      rcases ih found with ⟨placement, member, here⟩ | older
      · exact .inl ⟨placement, List.mem_cons_of_mem _ member, here⟩
      · rw [Placement.register, NamespaceNode.lookup?_insert] at older
        split at older
        · rename_i same
          cases older
          exact .inl ⟨first, List.mem_cons_self, by simp [FunctionSource.reference, same], rfl⟩
        · exact .inr older

theorem isSome_lookup?_register {placed : List Placement} {node : NamespaceNode}
    {path : List String} {name : String}
    (present : (node.lookup? path name).isSome ∨
      ∃ placement ∈ placed, placement.source.reference = ⟨path, name⟩) :
    ((placed.foldl Placement.register node).lookup? path name).isSome := by
  induction placed generalizing node with
  | nil =>
      rcases present with present | ⟨_, member, _⟩
      · exact present
      · cases member
  | cons first rest ih =>
      apply ih
      rw [Placement.register, NamespaceNode.lookup?_insert]
      rcases present with present | ⟨placement, member, here⟩
      · left
        split
        · rfl
        · exact present
      · rcases List.mem_cons.mp member with rfl | member
        · left
          have same : path = placement.source.path ∧ name = placement.source.name := by
            simp only [FunctionSource.reference, FunctionRef.mk.injEq] at here
            exact ⟨here.1.symm, here.2.symm⟩
          simp [same]
        · exact .inr ⟨placement, member, here⟩

/-! ## Compiled programs -/

/-- A program that is a row of functions: those declared, and the literals that they hold. -/
structure Program.Compiled (units : List ProgramUnit) (globals : List String) (program : Program)
    (placed : List Placement) : Prop where
  laidOut : LaidOut ⟨globals, (declaredSources units).map FunctionSource.reference⟩ 0 placed
  instructions : program.instructions.toList = placed.flatMap Placement.code
  namespaces : program.namespaces = placed.foldl Placement.register .empty
  globals : program.globals = globals
  sources : placed.map Placement.source =
    declaredSources units ++ placed.flatMap Placement.actions
  unique : firstDuplicate? [] ((declaredSources units).map FunctionSource.reference) = none

/-- The bound on the number of literals counts those of a row exactly. -/
theorem LaidOut.literalCount_actions {linkage : Linkage} {offset count : Nat}
    {placed : List Placement} (laidOut : LaidOut linkage offset placed) :
    (placed.map Placement.source).foldl
        (fun count source => count + Stmt.listActionCount source.body) count =
      count + literalCount (placed.flatMap Placement.actions) := by
  induction laidOut generalizing count with
  | nil => rfl
  | cons lowered _ ih =>
      rw [List.map_cons, List.foldl_cons, ih, List.flatMap_cons, literalCount_append,
        Assembly.literalCount_lowerFunction lowered, Nat.add_assoc]

/-- What compilation produces is the row of the declared functions and then the row of the literals,
which were worked through until none was left. -/
theorem compileUnits_drains {units : List ProgramUnit} {globals : List String} {program : Program}
    (compiled : compileUnits units globals = .ok program) :
    ∃ declared literals assembly pending,
      program.Compiled units globals (declared ++ literals) ∧
      declared.map Placement.source = declaredSources units ∧
      Assembly.empty.placeAll ⟨globals, (declaredSources units).map FunctionSource.reference⟩
        (declaredSources units) = .ok (assembly, pending) ∧
      assembly.Drains ⟨globals, (declaredSources units).map FunctionSource.reference⟩ pending
        (literals.map Placement.source) ⟨program.instructions, program.namespaces⟩ := by
  unfold compileUnits at compiled
  split at compiled
  · cases compiled
  · dsimp only at compiled
    split at compiled
    · cases compiled
    · rename_i unique
      rcases exists_of_bind_ok compiled with ⟨⟨assembly, actions⟩, placingAll, compiled⟩
      rcases exists_of_bind_ok compiled with ⟨last, placingActions, compiled⟩
      cases compiled
      rcases Assembly.placeAll_holds Assembly.holds_empty placingAll with
        ⟨declared, heldFirst, sameSources, rfl⟩
      rw [List.nil_append] at heldFirst
      have enough : literalCount (declared.flatMap Placement.actions) ≤
          (declaredSources units).foldl
            (fun count source => count + Stmt.listActionCount source.body) 0 := by
        rw [← sameSources, heldFirst.laidOut.literalCount_actions]
        omega
      rcases Assembly.drains_of_placeActions enough placingActions with ⟨order, drains⟩
      rcases drains.holds heldFirst with ⟨literals, held, rfl, order⟩
      refine ⟨declared, literals, assembly, _,
        ⟨held.laidOut, held.instructions, held.namespaces, rfl, ?_, ?_⟩, sameSources, placingAll,
        drains⟩
      · rw [List.map_append, sameSources, order, List.flatMap_append]
      · exact Option.eq_none_iff_forall_ne_some.mpr unique

/-- What compilation produces is the row of the declared functions and all their literals. -/
theorem compileUnits_ok {units : List ProgramUnit} {globals : List String} {program : Program}
    (compiled : compileUnits units globals = .ok program) :
    ∃ placed, program.Compiled units globals placed := by
  rcases compileUnits_drains compiled with ⟨declared, literals, _, _, row, _⟩
  exact ⟨declared ++ literals, row⟩

end ScriptMachine
