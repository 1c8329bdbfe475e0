import ScriptMachine.Engine.Basic

/-!
# Calls and turns

A host calls an engine as often and in whatever order it likes, each time against a registry and a
store of its choice. A call that the engine's state permits is a turn: setting up the first frame, or
waking the engine, and then running until something ends it. Any other call is refused.
-/

namespace ScriptMachine

/-! ## Turns -/

namespace Engine

/-- The turn of an engine whose machine has come to an end of a turn. -/
def turnOf (engine : Engine) (events : List TelemetryEvent)
    (result : TurnOutcome × Machine × List String) : Turn :=
  let engine := engine.withMachine result.2.1
  let trace := result.2.2.reverse
  match result.1 with
  | .yielded value =>
      let engine := { engine with state := .suspended, yielded := engine.yielded + 1 }
      ⟨.yielded value, engine, result.2.1.store, events ++ [engine.event .suspended none], trace⟩
  | .completed value =>
      let engine := { engine with state := .completed }
      ⟨.completed value, engine, result.2.1.store, events ++ [engine.event .completed none], trace⟩
  | .faulted report =>
      let engine := { engine with state := .faulted }
      let event := engine.event .faulted (some report.fault.message)
      ⟨.faulted report, engine, result.2.1.store, events ++ [event], trace⟩
  | .unfinished => ⟨.unfinished, engine, result.2.1.store, events, trace⟩

/-- The first turn of an engine, from what setting up its first frame came to. -/
def firstTurn (engine : Engine) (bound : Nat) (registry : Registry) :
    Except RuntimeFault Unit × Machine → Turn
  | (.error fault, machine) =>
      let engine := { engine.withMachine machine with state := .faulted }
      ⟨.faulted (.ofFault fault), engine, machine.store,
        [engine.event .faulted (some fault.message)], []⟩
  | (.ok _, machine) =>
      let engine := { engine.withMachine machine with state := .running }
      engine.run bound registry machine.store [engine.event .started none]

variable {engine : Engine} {bound : Nat} {registry : Registry} {store : Store}
  {path : List String} {name : String} {args : List Value} {before : List TelemetryEvent}

theorem run_eq_turnOf : engine.run bound registry store before =
    engine.turnOf before (execute ⟨engine.program, registry⟩
      (if engine.options.trace then some engine.entry else none) bound (engine.machine store) []) :=
  rfl

theorem start_of_ready (ready : engine.state = .ready) :
    engine.start bound registry store path name args =
      ({ engine with entry := qualifiedName path name } : Engine).firstTurn bound registry
        ((enter ⟨engine.program, registry⟩ (qualifiedName path name) path name args).run
          (engine.machine store)) :=
  if_neg (not_not_intro ready)

theorem start_create {program : Program} {options : RunOptions} :
    (create program options).start bound registry store path name args =
      ({ create program options with entry := qualifiedName path name } : Engine).firstTurn bound
        registry ((enter ⟨program, registry⟩ (qualifiedName path name) path name args).run
          ((create program options).machine store)) := rfl

theorem resume_of_suspended (suspended : engine.state = .suspended) :
    engine.resume bound registry store =
      ({ engine with state := .running } : Engine).run bound registry store
        [({ engine with state := .running } : Engine).event .resumed none] :=
  if_neg (not_not_intro suspended)

theorem program_turnOf {events : List TelemetryEvent}
    {result : TurnOutcome × Machine × List String} :
    (engine.turnOf events result).engine.program = engine.program := by
  rcases result with ⟨outcome, machine, trace⟩
  cases outcome <;> rfl

theorem program_firstTurn {entered : Except RuntimeFault Unit × Machine} :
    (engine.firstTurn bound registry entered).engine.program = engine.program := by
  rcases entered with ⟨_ | _, machine⟩
  · rfl
  · exact program_turnOf

theorem outcome_turnOf (events : List TelemetryEvent)
    (result : TurnOutcome × Machine × List String) :
    (engine.turnOf events result).outcome = result.1 := by
  rcases result with ⟨outcome, machine, trace⟩
  cases outcome <;> rfl

/-- How a run of instructions ends, all of whose machines have a property. -/
inductive Ends (surroundings : Surroundings) (P : Machine → Prop) : TurnOutcome → Machine → Prop
  | unfinished {machine : Machine} (holds : P machine) : Ends surroundings P .unfinished machine
  | lost {machine : Machine} (holds : P machine)
      (beyond : surroundings.program.instructions[machine.ip]? = none) (report : FaultReport) :
      Ends surroundings P (.faulted report) machine
  | yielded {before later : Machine} {instruction : Instruction} {value : Value} (holds : P before)
      (found : surroundings.program.instructions[before.ip]? = some instruction)
      (stepped : (step surroundings instruction).run { before with ip := before.ip + 1 } =
        (.ok (.yielded value), later)) :
      Ends surroundings P (.yielded value) later
  | completed {before later : Machine} {instruction : Instruction} {value : Value}
      (holds : P before)
      (found : surroundings.program.instructions[before.ip]? = some instruction)
      (stepped : (step surroundings instruction).run { before with ip := before.ip + 1 } =
        (.ok (.completed value), later)) :
      Ends surroundings P (.completed value) later
  | faulted {before later : Machine} {instruction : Instruction} {fault : RuntimeFault}
      (holds : P before)
      (found : surroundings.program.instructions[before.ip]? = some instruction)
      (stepped : (step surroundings instruction).run { before with ip := before.ip + 1 } =
        (.error fault, later)) :
      Ends surroundings P (.faulted ⟨fault, some instruction, before.ip, later.debugStack⟩) later

/-- A property that every step to a next instruction keeps holds until the run ends. -/
theorem execute_ends {surroundings : Surroundings} {P : Machine → Prop} {traced : Option String}
    (keeps : ∀ before instruction later, P before →
      surroundings.program.instructions[before.ip]? = some instruction →
      (step surroundings instruction).run { before with ip := before.ip + 1 } = (.ok .next, later) →
      P later) (bound : Nat) {machine : Machine} (trace : List String) (holds : P machine) :
    Ends surroundings P (execute surroundings traced bound machine trace).1
      (execute surroundings traced bound machine trace).2.1 := by
  induction bound generalizing machine trace with
  | zero => exact .unfinished holds
  | succ bound ih =>
      rw [execute]
      dsimp only
      split
      · rename_i beyond
        exact .lost holds beyond _
      · rename_i instruction found
        split
        all_goals rename_i stepped
        · exact ih _ (keeps _ _ _ holds found stepped)
        · exact .yielded holds found stepped
        · exact .completed holds found stepped
        · exact .faulted holds found stepped

end Engine

/-- Resumes an engine after every yield, so many times at most: what it yields, and its last turn. -/
def Turn.drive (bound : Nat) (registry : Registry) : Nat → Turn → List Value × Turn
  | 0, turn => ([], turn)
  | turns + 1, turn =>
      match turn.outcome with
      | .yielded value =>
          let rest := drive bound registry turns (turn.engine.resume bound registry turn.store)
          (value :: rest.1, rest.2)
      | _ => ([], turn)

/-! ## Calls -/

/-- A call that a host makes of an engine. -/
inductive EngineCall where
  | start (bound : Nat) (registry : Registry) (store : Store) (path : List String) (name : String)
      (args : List Value)
  | resume (bound : Nat) (registry : Registry) (store : Store)

namespace EngineCall

/-- The store that a call hands to the engine. -/
def store : EngineCall → Store
  | .start _ _ store _ _ _ => store
  | .resume _ _ store => store

/-- The registry that a call runs against. -/
def registry : EngineCall → Registry
  | .start _ registry _ _ _ _ => registry
  | .resume _ registry _ => registry

/-- The states of an engine that permit a call. -/
def Permitted : EngineCall → EngineState → Prop
  | .start .., state => state = .ready
  | .resume .., state => state = .suspended

/-- The turn that an engine takes when it is called. -/
def turn (engine : Engine) : EngineCall → Turn
  | .start bound registry store path name args => engine.start bound registry store path name args
  | .resume bound registry store => engine.resume bound registry store

end EngineCall

namespace Engine

/-- The turns of an engine that is called one time after another. -/
def turns (engine : Engine) : List EngineCall → List Turn
  | [] => []
  | call :: rest => call.turn engine :: (call.turn engine).engine.turns rest

/-- The engine behind some calls. -/
def after (engine : Engine) : List EngineCall → Engine
  | [] => engine
  | call :: rest => (call.turn engine).engine.after rest

theorem turn_of_not_permitted {engine : Engine} {call : EngineCall}
    (refused : ¬ call.Permitted engine.state) :
    call.turn engine = engine.refuse call.store := by
  cases call with
  | start => exact if_pos refused
  | resume => exact if_pos refused

/-- An engine keeps its program. -/
theorem program_turn (engine : Engine) (call : EngineCall) :
    (call.turn engine).engine.program = engine.program := by
  by_cases permitted : call.Permitted engine.state
  · cases call with
    | start =>
        rw [EngineCall.turn, start_of_ready permitted]
        exact program_firstTurn
    | resume =>
        rw [EngineCall.turn, resume_of_suspended permitted]
        exact program_turnOf
  · rw [turn_of_not_permitted permitted]
    rfl

end Engine

end ScriptMachine
