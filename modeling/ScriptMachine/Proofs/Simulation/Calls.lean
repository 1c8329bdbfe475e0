import ScriptMachine.Proofs.Compiler.Layout
import ScriptMachine.Proofs.Simulation.Rules

/-!
# Calls

A call puts a frame on the stack, and the function that it enters gives its value in the place of
the arguments, or faults. That functions do what they mean is a hypothesis here, `RunsFunctions`; it
is what an induction on the number of active functions proves. From it follows that calls do what
they mean: of functions, of closures, and of members that are closures.
-/

namespace ScriptMachine

/-! ## Functions of a script -/

namespace Script

/-- The function with a name is the same in a script and in a program. -/
structure Finds (script : Script) (program : Program) (function : FunctionRef)
    (placement : Placement) : Prop where
  definition : script.definition? function = some placement.source
  reference : placement.source.reference = function
  entry : program.lookup? function.path function.name = some placement.entry

/-- A program that has the functions of a script. -/
structure Linked (script : Script) (program : Program) (placed : List Placement) : Prop where
  declared : ∀ function ∈ script.linkage.declared, ∃ placement ∈ placed,
    script.Finds program function placement ∧ placement.source.captures = none
  literal : ∀ function, .makeClosure function ∈ program.instructions → ∃ placement ∈ placed,
    script.Finds program function placement ∧ placement.source.captures.isSome
  entries : ∀ function, script.entries function = program.lookup? function.path function.name

end Script

/-! ## Returns -/

/-- Where a function returns to. -/
structure Caller where
  /-- The stack between the globals and the arguments. -/
  below : List Value
  base : Nat
  ip : Nat
  /-- How many functions are active, the called one included. -/
  depth : Nat
  debug : List DebugContext

namespace Caller

/-- The machine that has entered a function. -/
def entered (caller : Caller) (capacity offset : Nat) (args : List Value) (world : World) :
    Machine :=
  ⟨.ofList capacity (world.globals ++ caller.below ++ args ++ headerWords caller.base caller.ip),
    offset, (world.globals ++ caller.below).length, caller.depth, caller.debug, world.store⟩

/-- The machine that a function has returned to with a value. -/
def resumed (caller : Caller) (capacity : Nat) (value : Value) (world : World) : Machine :=
  ⟨.ofList capacity (world.globals ++ caller.below ++ [value]), caller.ip, caller.base,
    caller.depth - 1, caller.debug, world.store⟩

/-- What the return with a value comes to: the end of the run if no other function is active. -/
def Answered (caller : Caller) (capacity : Nat) (value : Value) (world : World)
    (result : StepResult) : Prop :=
  if caller.depth = 1 then result.1 = .ok (.completed value) ∧ result.2.store = world.store
  else result = (.ok .next, caller.resumed capacity value world)

end Caller

namespace Surroundings

/-- Where a machine has to be at the end of a function: at the return, or at a fault. -/
def Answers (surroundings : Surroundings) (capacity : Nat) (caller : Caller) :
    Ending → World → Machine → Prop
  | some (.ok value), world, machine =>
      world.globals.length = surroundings.program.globals.length ∧
        ∃ result, surroundings.Steps machine result ∧ caller.Answered capacity value world result
  | some (.error fault), world, machine =>
      ∃ later, surroundings.Steps machine (.error fault, later) ∧ later.store = world.store
  | none, _, _ => False

/-- A machine that has entered a function does what the function does. -/
def Runs (surroundings : Surroundings) (capacity : Nat) (caller : Caller) (placement : Placement)
    (args : List Value) (world : World) (ended : Ending × World) : Prop :=
  surroundings.Alive capacity (caller.entered capacity placement.offset args world) →
    ∃ later, surroundings.Goes (caller.entered capacity placement.offset args world) world.yielded
        later ended.2.yielded ∧
      surroundings.Answers capacity caller ended.1 ended.2 later

end Surroundings

/-- The arguments of a function, the hidden one first. -/
def passed (carrier : Option ArrayId) (args : List Value) : List Value :=
  (carrier.map Value.array).toList ++ args

/-- The functions of a program do what a runner says, if the stack has so much room above their
arguments. -/
def Surroundings.RunsFunctions (surroundings : Surroundings) (capacity : Nat)
    (placed : List Placement) (reserve : Nat) (runner : FunctionRun) : Prop :=
  ∀ placement ∈ placed, ∀ carrier args world caller,
    carrier.isSome = placement.source.captures.isSome →
    args.length = placement.source.params.length →
    world.globals.length = surroundings.program.globals.length →
    caller.base < twoTo 63 → caller.ip < twoTo 63 → 0 < caller.depth →
    (world.globals ++ caller.below ++ passed carrier args).length + reserve ≤ capacity →
    (runner placement.source carrier args world).1 ≠ none →
    2 ≤ reserve ∧ surroundings.Runs capacity caller placement (passed carrier args) world
      (runner placement.source carrier args world)

namespace Stage

/-- A stage for the code of the function that a standpoint is in. -/
structure Suits (stage : Stage) (here : Standpoint) (frame : Frame) (placed : List Placement) :
    Prop where
  solid : stage.Solid
  of : here.Of frame
  arity : stage.arity = frame.source.arity
  registry : here.script.registry = stage.surroundings.registry
  names : stage.surroundings.program.globals = frame.linkage.globals
  globals : stage.globals = frame.linkage.globals.length
  carried : ∀ name index, frame.source.kept.idxOf? name = some index →
    (0, here.carried) ∈ stage.fixed
  linked : here.script.Linked stage.surroundings.program placed
  runs : stage.surroundings.RunsFunctions stage.capacity placed stage.reserve here.runner

/-- A call from the stage, which is to go on at `ip`. -/
def caller (stage : Stage) (ip : Nat) (slots operands : List Value) (world : World) : Caller :=
  ⟨stage.below ++ slots ++ operands, world.globals.length + stage.below.length, ip,
    stage.depth + 1, stage.debug⟩

variable {stage : Stage} {here : Standpoint} {frame : Frame} {placed : List Placement}
  {left : Scene → Machine → Prop} {instruction : Instruction} {rest : List Instruction} {ip : Nat}
  {scope : List (String × Nat)} {hidden : List (Nat × Value)}
  {slots operands args : List Value} {value : Value} {scene : Scene} {machine : Machine}
  {source : FunctionSource} {placement : Placement} {carrier : Option ArrayId} {name : String}
  {path : List String} {id : ClosureId}

namespace Does

/-- A machine that enters a function comes back with its value. -/
theorem enters (suits : stage.Suits here frame placed) (member : placement ∈ placed)
    (hidesCarrier : carrier.isSome = placement.source.captures.isSome)
    (arity : args.length = placement.source.params.length)
    (stands : stage.Stands ip (instruction :: rest))
    (room : stage.start + operands.length + (passed carrier args).length ≤ ip)
    (holds : stage.Holds scope hidden slots scene)
    (steps : (scene.world.globals ++ stage.below ++ slots ++ operands ++
        passed carrier args).length + 2 ≤ stage.capacity →
      stage.surroundings.Steps machine (.ok .next,
        (stage.caller (ip + 1) slots operands scene.world).entered stage.capacity placement.offset
          (passed carrier args) scene.world)) :
    stage.Does left (fun value => stage.Shows scope hidden (ip + 1) (operands ++ [value])) machine
      (.ofFunction (here.runner placement.source carrier args)) scene := by
  intro alive finished
  have solid := suits.solid
  have inside := stands.below
  have small : ip < stage.surroundings.program.size := by
    have found := stands.found solid
    exact (Array.getElem?_eq_some_iff.mp found).1
  have globals : scene.world.globals.length = stage.surroundings.program.globals.length := by
    rw [holds.globals, suits.globals, suits.names]
  have ended : (here.runner placement.source carrier args scene.world).1 ≠ none := by
    intro unfinished
    apply finished
    unfold Evaluation.ofFunction
    rcases result : here.runner placement.source carrier args scene.world with ⟨ending, world⟩
    rw [result] at unfinished
    cases unfinished
    rfl
  have height : (scene.world.globals ++ (stage.below ++ slots ++ operands) ++
      passed carrier args).length + stage.reserve ≤ stage.capacity := by
    have enough := solid.room
    simp only [List.length_append, holds.globals, holds.size]
    omega
  have bounded := alive.bounded
  have smallProgram := alive.small
  have base : scene.world.globals.length + stage.below.length < twoTo 63 := by
    simp only [holds.globals]
    have enough := solid.room
    have active := stands.below
    omega
  rcases suits.runs placement member carrier args scene.world
    (stage.caller (ip + 1) slots operands scene.world) hidesCarrier arity globals base
    (by simp only [caller]; omega) (Nat.succ_pos _) height ended with ⟨enough, runs⟩
  have entered := steps (by simp only [List.length_append] at height ⊢; omega)
  rcases runs (alive.next entered) with ⟨last, goes, answers⟩
  unfold Evaluation.ofFunction
  rcases result : here.runner placement.source carrier args scene.world with ⟨ending, world⟩
  rw [result] at goes answers ended
  match ending, ended, answers with
  | some (.error fault), _, ⟨later, faults, same⟩ =>
      exact ⟨last, .next entered goes, later, faults, same⟩
  | some (.ok value), _, ⟨kept, returned, returns, answered⟩ =>
      have notLast : (stage.caller (ip + 1) slots operands scene.world).depth ≠ 1 := by
        have active := solid.active
        simp only [caller]
        omega
      rw [Caller.Answered, if_neg notLast] at answered
      subst answered
      have sameLength : world.globals.length = scene.world.globals.length := kept.trans globals.symm
      refine ⟨_, (Surroundings.Goes.next entered goes).trans (.step returns), ?_, slots, ?_, ?_⟩
      · simp only [List.length_append, List.length_cons, List.length_nil]
        omega
      · simp only [Caller.resumed, caller, Stage.machine, sameLength, List.append_assoc,
          Nat.add_sub_cancel]
      · exact ⟨holds.size, sameLength.trans holds.globals, holds.bindings, holds.hidden⟩

theorem callsFunction (suits : stage.Suits here frame placed) {target : List String}
    (found : frame.linkage.findFunction? frame.source.path path name = some target)
    (stands : stage.Stands ip (.callFunction ⟨target, name⟩ args.length :: rest))
    (shows : stage.Shows scope hidden ip (operands ++ args) scene machine) :
    stage.Does left (fun value => stage.Shows scope hidden (ip + 1) (operands ++ [value])) machine
      (here.callNamed path name args) scene := by
  have declared : ⟨target, name⟩ ∈ here.script.linkage.declared := by
    rw [suits.of.linkage]
    exact Linkage.mem_declared_of_findFunction? found
  rcases suits.linked.declared _ declared with ⟨placement, member, finds, noCaptures⟩
  have entry := finds.entry
  have arityOf : placement.entry.arity = placement.source.params.length := by
    simp [Placement.entry, FunctionSource.arity, FunctionSource.carrierCount, noCaptures]
  rcases shows with ⟨early, slots, rfl, holds⟩
  simp only [Standpoint.callNamed, suits.of.linkage, suits.of.source, found, finds.definition,
    Standpoint.enter]
  split
  · rename_i arity
    refine enters suits member (by simp [noCaptures]) arity.symm stands ?_ holds ?_
    · simp only [List.length_append] at early
      simp only [passed, Option.map_none, Option.toList_none, List.nil_append]
      omega
    · intro room
      have enough : (scene.world.globals ++ stage.below ++ slots ++ operands).length +
          args.length + 2 ≤ stage.capacity := by
        rw [← List.length_append]
        exact room
      refine stands.stepsWith suits.solid ?_
      rw [step_callFunction enough entry (arityOf.trans arity)]
      simp [Caller.entered, caller, passed, Placement.entry]
  · rename_i arity
    have other : placement.entry.arity ≠ args.length := fun same => arity (arityOf.symm.trans same)
    have steps := @Stands.stepsWith stage ip _ rest slots operands args scene.world _ stands
      suits.solid (step_callFunction_arity entry other)
    have same : (FunctionRef.mk target name).render = placement.source.reference.render := by
      rw [finds.reference]
    have count : placement.source.carrierCount = 0 := by
      simp [FunctionSource.carrierCount, noCaptures]
    rw [count, Nat.add_zero, ← same]
    exact fault steps rfl

/-- The machine goes on behind the call of what a name stands for that is no variable. -/
theorem callsNamed (suits : stage.Suits here frame placed)
    (stands : stage.Stands ip (callInstruction frame path name args.length :: rest))
    (shows : stage.Shows scope hidden ip (operands ++ args) scene machine) :
    stage.Does left (fun value => stage.Shows scope hidden (ip + 1) (operands ++ [value])) machine
      (here.callNamed path name args) scene := by
  unfold callInstruction at stands
  split at stands
  · rename_i found
    exact callsFunction suits found stands shows
  · rename_i host
    unfold Standpoint.callNamed
    rw [suits.of.linkage, suits.of.source, host, suits.registry]
    exact delivers suits.solid stands shows (step_callHost _ none)

theorem resolveClosure_eq {script : Script} {program : Program} {store : Store} {argc : Nat}
    (linked : script.Linked program placed) (sound : store.Sound program)
    (known : (Value.closure id).Known store)
    (finds : script.Finds program (store.closure id).function placement) :
    Effect.resolveClosure program id argc store =
      (Step.checkArity (store.closure id).function argc placement.entry,
        (Standpoint.note script.entries id store).2) := by
  have made := sound.closures id known
  simp only [Effect.resolveClosure, Standpoint.note, linked.entries, finds.entry]
  cases kept : (store.closure id).resolved with
  | none => rfl
  | some entry =>
      have same := (made.entry entry kept).symm.trans finds.entry
      rw [Option.some.inj same]

theorem note_ok {entries : FunctionRef → Option FunctionEntry} {store : Store} :
    Standpoint.note entries id store = (.ok (), (Standpoint.note entries id store).2) := by
  unfold Standpoint.note
  split <;> rfl

/-- The machine goes on behind the call of a closure, however the call is made. -/
theorem callsClosure (suits : stage.Suits here frame placed)
    (sound : scene.world.store.Sound stage.surroundings.program)
    (known : (Value.closure id).Known scene.world.store)
    (stands : stage.Stands ip (instruction :: rest))
    (room : stage.start + operands.length + args.length + 1 ≤ ip)
    (holds : stage.Holds scope hidden slots scene)
    (steps : ∀ offset store,
      Effect.resolveClosure stage.surroundings.program id (args.length + 1) scene.world.store =
        (.ok offset, store) →
      (scene.world.globals ++ stage.below ++ slots ++ operands).length + args.length + 3 ≤
        stage.capacity →
      stage.surroundings.Steps machine (.ok .next,
        (stage.caller (ip + 1) slots operands scene.world).entered stage.capacity offset
          (.array (scene.world.store.closure id).captures :: args)
          ⟨scene.world.globals, store, scene.world.yielded⟩))
    (faults : ∀ cause store,
      Effect.resolveClosure stage.surroundings.program id (args.length + 1) scene.world.store =
        (.error cause, store) →
      ∃ later, stage.surroundings.Steps machine (.error cause, later) ∧ later.store = store) :
    stage.Does left (fun value => stage.Shows scope hidden (ip + 1) (operands ++ [value])) machine
      (here.callClosure id args) scene := by
  have made := sound.closures id known
  rcases suits.linked.literal _ made.literal with ⟨placement, member, finds, captures⟩
  have count : placement.source.carrierCount = 1 := by
    simp [FunctionSource.carrierCount, captures]
  have arityOf : placement.entry.arity = placement.source.params.length + 1 := by
    simp [Placement.entry, FunctionSource.arity, count]
  have resolved := @resolveClosure_eq _ _ _ _ _ _ (args.length + 1) suits.linked sound known finds
  refine .inspect ?_
  simp only [finds.definition]
  refine .effect_ok note_ok ?_
  rw [Standpoint.enter]
  split
  · rename_i arity
    rw [Step.checkArity, if_pos (arityOf.trans (congrArg (· + 1) arity))] at resolved
    refine enters suits member (by simp [captures]) arity.symm stands ?_ (holds.withStore _ _) ?_
    · simp only [passed, Option.map_some, Option.toList_some, List.length_append, List.length_cons,
        List.length_nil]
      omega
    · intro enough
      refine steps _ _ resolved ?_
      simp only [passed, Option.map_some, Option.toList_some, List.length_append,
        List.length_cons, List.length_nil] at enough ⊢
      omega
  · rename_i arity
    have other : ¬placement.entry.arity = args.length + 1 := by omega
    rw [Step.checkArity, if_neg other] at resolved
    rcases faults _ _ resolved with ⟨later, raised, same⟩
    have arityHere : placement.entry.arity = placement.source.arity := rfl
    rw [count, finds.reference, ← arityHere]
    exact fault raised same

theorem invokes (suits : stage.Suits here frame placed)
    (stands : stage.Stands ip (.invokeClosure args.length :: rest))
    (shows : stage.Shows scope hidden ip (operands ++ value :: args) scene machine) :
    stage.Does left (fun value => stage.Shows scope hidden (ip + 1) (operands ++ [value])) machine
      (here.invoke value args) scene := by
  intro alive
  rcases shows with ⟨early, slots, rfl, holds⟩
  refine (?_ : stage.Does _ _ _ _ _) alive
  simp only [List.length_append, List.length_cons] at early
  by_cases callable : ∃ id, value = .closure id
  · rcases callable with ⟨id, rfl⟩
    have known := alive.known
    refine callsClosure suits known.1 (known.2 _ ?_) stands (by omega) holds ?_ ?_
    · simp [machine]
    · intro offset store resolved room
      refine stands.stepsWith suits.solid ?_
      rw [step_invokeClosure (by omega) resolved]
      simp [Caller.entered, caller]
    · intro cause store resolved
      exact ⟨_, stands.stepsWith suits.solid (step_invokeClosure_fault resolved), rfl⟩
  · have other : ∀ id, value ≠ .closure id := fun id same => callable ⟨id, same⟩
    have steps := @Stands.stepsWith stage ip _ rest slots operands (value :: args) scene.world _
      stands suits.solid (step_invokeClosure_notCallable other)
    have same : here.invoke value args = (Evaluation.inspect fun scene =>
        value.typeName scene.world.store) >>= fun name => .fault (.notCallable name) := by
      cases value with
      | closure id => exact absurd rfl (other id)
      | _ => rfl
    rw [same]
    exact .inspect (fault steps rfl)

theorem captures_resolveClosure {program : Program} {store later : Store} {argc offset : Nat}
    (resolved : Effect.resolveClosure program id argc store = (.ok offset, later)) :
    (later.closure id).captures = (store.closure id).captures := by
  simp only [Effect.resolveClosure] at resolved
  split at resolved
  · rw [(Prod.mk.inj resolved).2]
  · split at resolved
    · cases (Prod.mk.inj resolved).1
    · rw [← (Prod.mk.inj resolved).2, Store.closure_resolveClosure]
      split <;> rfl

theorem callsMember (suits : stage.Suits here frame placed)
    (stands : stage.Stands ip (.callMethod name args.length :: rest))
    (shows : stage.Shows scope hidden ip (operands ++ value :: args) scene machine) :
    stage.Does left (fun value => stage.Shows scope hidden (ip + 1) (operands ++ [value])) machine
      (here.callMember value name args) scene := by
  intro alive
  rcases shows with ⟨early, slots, rfl, holds⟩
  simp only [List.length_append, List.length_cons] at early
  have fewer : stage.start + operands.length ≤ ip := by omega
  have room := suits.solid.room_operands stands fewer holds
  have known := alive.known
  have kept := @Discipline.Lawful.callMember _ _ scene.world.store
    stage.surroundings.soundness_lawful ⟨known.1, alive.hosts⟩ args value name
    (fun arg among => known.2 arg (by simp [machine, List.mem_cons.mp among]))
  have stepped := @step_callMethod stage.surroundings stage.capacity (ip + 1)
    (scene.world.globals.length + stage.below.length) stage.depth
    (scene.world.globals ++ stage.below ++ slots ++ operands) args value stage.debug
    scene.world.store name
  refine (?_ : stage.Does _ _ _ _ _) alive
  unfold Standpoint.callMember
  rw [suits.registry]
  rcases result : Effect.callMember stage.surroundings.registry value name args scene.world.store
    with ⟨cause | called, store⟩
  · rw [result] at stepped
    exact .effect_error result (stands.stepsWith suits.solid stepped) rfl
  rw [result] at stepped kept
  refine .effect_ok result ?_
  cases called with
  | value given =>
      have steps : stage.surroundings.Steps
          (stage.machine ip slots (operands ++ value :: args) scene.world)
          (.ok .next, stage.machine (ip + 1) slots (operands ++ [given])
            ⟨scene.world.globals, store, scene.world.yielded⟩) := by
        refine stands.stepsWith suits.solid ?_
        refine stepped.trans ?_
        dsimp only [Step.finishMember]
        rw [run_push_next, deliver_room room, machine_append]
      refine .step steps (.pure ⟨?_, slots, rfl, holds.withStore _ _⟩)
      simp only [List.length_append, List.length_cons, List.length_nil]
      omega
  | closure id =>
      refine callsClosure suits kept.1.sound (kept.2 _ rfl) stands (by omega)
        (holds.withStore _ _) ?_ ?_
      · intro offset later resolved enough
        refine stands.stepsWith suits.solid ?_
        refine stepped.trans ?_
        dsimp only [Step.finishMember]
        rw [Step.run_bind, run_callClosure enough resolved, captures_resolveClosure resolved]
        simp [Caller.entered, caller]
      · intro cause later resolved
        refine ⟨stage.machine (ip + 1) slots operands ⟨scene.world.globals, later, []⟩,
          stands.stepsWith suits.solid (stepped.trans ?_), rfl⟩
        dsimp only [Step.finishMember]
        rw [Step.run_bind, run_callClosure_fault resolved]
        rfl

end Does

end Stage

end ScriptMachine
