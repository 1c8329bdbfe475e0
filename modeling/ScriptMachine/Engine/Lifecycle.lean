import ScriptMachine.Value.Basic

/-!
# The life of an engine

An engine runs with options: how large its stack is, and whether it traces its instructions. It is
ready, then running, and after each turn suspended, completed or faulted. What happens to it is
recorded as telemetry: one event when it starts or is resumed, and one when a turn ends.
-/

namespace ScriptMachine

/-- How engines run. -/
structure RunOptions where
  stackCapacity : Nat
  trace : Bool
deriving DecidableEq

namespace RunOptions

/-- The options that hold where nothing else is said. -/
def standard : RunOptions := ⟨16384, false⟩

/-- The options as shown for inspection; `observed` tells whether telemetry is collected. -/
def inspect (options : RunOptions) (observed : Bool) : String :=
  let flag (value : Bool) : String := if value then "true" else "false"
  "RuntimeOptions \x7b stack_capacity: " ++ toString options.stackCapacity ++ ", trace: " ++
    flag options.trace ++ ", telemetry_hook: " ++ flag observed ++ " \x7d"

end RunOptions

/-- Where an engine is in its life. -/
inductive EngineState where
  | ready
  | running
  | suspended
  | completed
  | faulted
deriving DecidableEq

namespace EngineState

/-- The word that messages use. -/
def label : EngineState → String
  | .ready => "ready"
  | .running => "running"
  | .suspended => "suspended"
  | .completed => "completed"
  | .faulted => "faulted"

/-- The name shown for inspection. -/
def inspect : EngineState → String
  | .ready => "Ready"
  | .running => "Running"
  | .suspended => "Suspended"
  | .completed => "Completed"
  | .faulted => "Faulted"

end EngineState

/-- What happened to an engine. -/
inductive TelemetryKind where
  | started
  | suspended
  | resumed
  | completed
  | faulted
deriving DecidableEq

def TelemetryKind.name : TelemetryKind → String
  | .started => "Started"
  | .suspended => "Suspended"
  | .resumed => "Resumed"
  | .completed => "Completed"
  | .faulted => "Faulted"

/-- A record of something that happened to an engine. -/
structure TelemetryEvent where
  kind : TelemetryKind
  function : String
  stackDepth : Nat
  yielded : Nat
  detail : Option String
deriving DecidableEq

/-- How a turn of an engine ended. -/
inductive TurnOutcome where
  | yielded (value : Value)
  | completed (value : Value)
  | faulted (report : FaultReport)
  /-- The bound on instructions was met. -/
  | unfinished
deriving DecidableEq

end ScriptMachine
