import ScriptMachine.Engine.Lifecycle
import ScriptMachine.Engine.Machine

/-!
# Engines

An engine is one run of one function. It starts, goes on until it yields a value, completes or
faults, and after a yield it can be resumed. Everything that a suspended run needs is in the engine,
so engines that share a program do not know of each other; what they share is the store.

A run may have no end, so starting and resuming take a bound on the number of instructions; a run
that meets the bound is `unfinished`. Beside its outcome a turn gives the telemetry events and the
trace.
-/

namespace ScriptMachine

/-- One run of one function. -/
structure Engine where
  program : Program
  options : RunOptions
  stack : ValueStack
  ip : Nat
  base : Nat
  depth : Nat
  /-- The active functions, innermost first. -/
  debugStack : List DebugContext
  state : EngineState
  /-- The qualified name of the function that was started. -/
  entry : String
  /-- How many values were yielded. -/
  yielded : Nat

/-- What a turn of an engine leaves behind. -/
structure Turn where
  outcome : TurnOutcome
  engine : Engine
  store : Store
  events : List TelemetryEvent
  trace : List String

namespace Engine

/-- An engine that is ready to start. -/
def create (program : Program) (options : RunOptions) : Engine :=
  ⟨program, options, .ofCapacity options.stackCapacity, 0, 0, 0, [], .ready, "", 0⟩

/-- The engine's moving parts together with the store. -/
def machine (engine : Engine) (store : Store) : Machine :=
  ⟨engine.stack, engine.ip, engine.base, engine.depth, engine.debugStack, store⟩

/-- The engine with its moving parts as a machine left them. -/
def withMachine (engine : Engine) (machine : Machine) : Engine :=
  { engine with
    stack := machine.stack
    ip := machine.ip
    base := machine.base
    depth := machine.depth
    debugStack := machine.debugStack }

/-- The record of something that happens to the engine now. -/
def event (engine : Engine) (kind : TelemetryKind) (detail : Option String) : TelemetryEvent :=
  ⟨kind, engine.entry, engine.stack.size, engine.yielded, detail⟩

/-- The trace line of an instruction that is about to be carried out. -/
def traceLine (entry : String) (machine : Machine) (instruction : Instruction) : String :=
  let frame := (machine.debugStack.head?.map DebugContext.function).getD entry
  "[frame=" ++ frame ++ "] " ++ Text.fourDigits machine.ip ++ ": " ++ instruction.render

/-- Carries out instructions until something ends the turn; `trace` gathers the trace lines, last
first. -/
def execute (surroundings : Surroundings) (traced : Option String) :
    Nat → Machine → List String → TurnOutcome × Machine × List String
  | 0, machine, trace => (.unfinished, machine, trace)
  | bound + 1, machine, trace =>
      let ip := machine.ip
      match surroundings.program.instructions[ip]? with
      | none =>
          let fault := RuntimeFault.unknown
            ("instruction pointer " ++ toString ip ++ " out of range")
          (.faulted ⟨fault, none, ip, machine.debugStack⟩, machine, trace)
      | some instruction =>
          let trace :=
            match traced with
            | none => trace
            | some entry => traceLine entry machine instruction :: trace
          match (step surroundings instruction).run { machine with ip := ip + 1 } with
          | (.ok .next, machine) => execute surroundings traced bound machine trace
          | (.ok (.yielded value), machine) => (.yielded value, machine, trace)
          | (.ok (.completed value), machine) => (.completed value, machine, trace)
          | (.error fault, machine) =>
              (.faulted ⟨fault, some instruction, ip, machine.debugStack⟩, machine, trace)

/-- Runs the engine until its turn ends; `before` holds the events so far. -/
def run (engine : Engine) (bound : Nat) (registry : Registry) (store : Store)
    (before : List TelemetryEvent) : Turn :=
  let traced := if engine.options.trace then some engine.entry else none
  let (outcome, machine, trace) :=
    execute ⟨engine.program, registry⟩ traced bound (engine.machine store) []
  let engine := engine.withMachine machine
  let trace := trace.reverse
  match outcome with
  | .yielded value =>
      let engine := { engine with state := .suspended, yielded := engine.yielded + 1 }
      ⟨.yielded value, engine, machine.store, before ++ [engine.event .suspended none], trace⟩
  | .completed value =>
      let engine := { engine with state := .completed }
      ⟨.completed value, engine, machine.store, before ++ [engine.event .completed none], trace⟩
  | .faulted report =>
      let engine := { engine with state := .faulted }
      let event := engine.event .faulted (some report.fault.message)
      ⟨.faulted report, engine, machine.store, before ++ [event], trace⟩
  | .unfinished => ⟨.unfinished, engine, machine.store, before, trace⟩

/-- Pushes the current values of the globals, in the order of their slots. -/
def pushGlobals (registry : Registry) : List String → Step Unit
  | [] => return
  | name :: rest => do
      match registry.global? (← Step.store) name with
      | some value => Step.push value
      | none => throw (.globalNotFound name)
      pushGlobals registry rest

/-- Sets up the first frame: the globals, the arguments and an empty header. -/
def enter (surroundings : Surroundings) (entry : String) (path : List String) (name : String)
    (args : List Value) : Step Unit := do
  match surroundings.program.lookup? path name with
  | none => throw (.functionNotFound entry)
  | some function =>
      if function.arity ≠ args.length then
        throw (.argumentCount entry function.arity args.length)
      pushGlobals surroundings.registry surroundings.program.globals
      modify fun machine => { machine with base := machine.stack.size }
      Step.pushAll args
      Step.push (.int 0)
      Step.push (.int 0)
      modify fun machine => { machine with depth := 1, ip := function.offset }

/-- A turn that the engine's state does not permit. It changes nothing. -/
def refuse (engine : Engine) (store : Store) : Turn :=
  ⟨.faulted (.ofFault (.notResumable engine.state.label)), engine, store, [], []⟩

/-- Starts a function and runs it until its turn ends. -/
def start (engine : Engine) (bound : Nat) (registry : Registry) (store : Store)
    (path : List String) (name : String) (args : List Value) : Turn :=
  if engine.state ≠ .ready then engine.refuse store
  else
    let engine := { engine with entry := qualifiedName path name }
    match (enter ⟨engine.program, registry⟩ engine.entry path name args).run
        (engine.machine store) with
    | (.error fault, machine) =>
        let engine := { engine.withMachine machine with state := .faulted }
        ⟨.faulted (.ofFault fault), engine, machine.store,
          [engine.event .faulted (some fault.message)], []⟩
    | (.ok _, machine) =>
        let engine := { engine.withMachine machine with state := .running }
        engine.run bound registry machine.store [engine.event .started none]

/-- Goes on behind the last yield until the turn ends. -/
def resume (engine : Engine) (bound : Nat) (registry : Registry) (store : Store) : Turn :=
  if engine.state ≠ .suspended then engine.refuse store
  else
    let engine := { engine with state := .running }
    engine.run bound registry store [engine.event .resumed none]

/-- The engine as shown for inspection. -/
def inspect (engine : Engine) : String :=
  "Engine \x7b entry: " ++ Text.quoted engine.entry ++ ", state: " ++ engine.state.inspect ++
    ", ip: " ++ toString engine.ip ++ ", base: " ++ toString engine.base ++ ", depth: " ++
    toString engine.depth ++ ", stack_len: " ++ toString engine.stack.size ++ " \x7d"

end Engine

end ScriptMachine
