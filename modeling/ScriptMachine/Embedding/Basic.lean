import ScriptMachine.Compiler.Basic
import ScriptMachine.Compiler.Binding
import ScriptMachine.Embedding.Sequence
import ScriptMachine.Image.Decode
import ScriptMachine.Image.Encode

/-!
# Embeddings

An embedding is what a host holds on to: its registry, the units it loaded, the program they were
compiled to, and how engines are to run. Loading a unit drops the program. A program may also come
from an image. Functions registered after compilation are found when the program runs.
-/

namespace ScriptMachine

/-- Why an embedding cannot do what it was asked for. -/
inductive EmbeddingError where
  | compile (cause : CompileError)
  | image (cause : ImageError)
  | notCompiled
deriving DecidableEq

def EmbeddingError.message : EmbeddingError → String
  | .compile cause => cause.message
  | .image cause => cause.message
  | .notCompiled => "program has not been compiled"

/-- A host's registry, units and program. -/
structure Embedding where
  registry : Registry
  units : List ProgramUnit
  program : Option Program
  options : RunOptions

/-- What running a function came to. -/
inductive RunOutcome where
  /-- The function returned without a yield. -/
  | value (value : Value)
  /-- The function yielded. -/
  | sequence (sequence : Sequence)
  | fault (report : FaultReport)
  /-- The bound on instructions was met. -/
  | unfinished

/-- What running a function came to, and what it left behind. -/
structure Run where
  outcome : RunOutcome
  store : Store
  events : List TelemetryEvent
  trace : List String

namespace Embedding

/-- An embedding with nothing registered and nothing loaded. -/
def ofOptions (options : RunOptions) : Embedding := ⟨.empty, [], none, options⟩

/-- Adds a unit to the next compilation. -/
def loadUnit (embedding : Embedding) (unit : ProgramUnit) : Embedding :=
  { embedding with units := embedding.units ++ [unit], program := none }

/-- Compiles all loaded units with the registered globals, and binds the program. -/
def compile (embedding : Embedding) : Except EmbeddingError Embedding :=
  match compileUnits embedding.units embedding.registry.globalNames with
  | .error cause => .error (.compile cause)
  | .ok program => .ok { embedding with program := some (program.bind embedding.registry) }

/-- Runs a function of the program until it returns, yields or faults. -/
def run (embedding : Embedding) (bound : Nat) (store : Store) (path : List String) (name : String)
    (args : List Value) : Except EmbeddingError Run :=
  match embedding.program with
  | none => .error .notCompiled
  | some program =>
      let engine := Engine.create program embedding.options
      let turn := engine.start bound embedding.registry store path name args
      let outcome : RunOutcome :=
        match turn.outcome with
        | .yielded value => .sequence ⟨turn.engine, some value, false⟩
        | .completed value => .value value
        | .faulted report => .fault report
        | .unfinished => .unfinished
      .ok ⟨outcome, turn.store, turn.events, turn.trace⟩

/-- Takes all values that a function yields or returns: one if it does not yield. -/
def valuesOf (embedding : Embedding) (turns bound : Nat) (run : Run) : SequenceEnd × Run :=
  match run.outcome with
  | .value value => (.values [value], run)
  | .fault report => (.fault report, run)
  | .unfinished => (.unfinished, run)
  | .sequence sequence =>
      let drawn := sequence.collect turns bound embedding.registry run.store
      (drawn.result, ⟨.sequence drawn.sequence, drawn.store, run.events ++ drawn.events,
        run.trace ++ drawn.trace⟩)

/-- The value that a function returns, whatever it yields before. -/
def valueOf (embedding : Embedding) (turns bound : Nat) (run : Run) : SequenceLast × Run :=
  match run.outcome with
  | .value value => (.value value, run)
  | .fault report => (.fault report, run)
  | .unfinished => (.unfinished, run)
  | .sequence sequence =>
      let drawn := sequence.last turns bound embedding.registry run.store
      (drawn.result, ⟨.sequence drawn.sequence, drawn.store, run.events ++ drawn.events,
        run.trace ++ drawn.trace⟩)

/-- The image of the program. -/
def encodeImage (embedding : Embedding) (compact : Bool) : Except EmbeddingError Bytes :=
  match embedding.program with
  | none => .error .notCompiled
  | some program => .ok (Image.encode program compact)

/-- Takes the program from an image that fits the registry. -/
def loadImage (embedding : Embedding) (bytes : Bytes) (trusted : Bool) :
    Except EmbeddingError Embedding :=
  match Image.decode bytes embedding.registry trusted with
  | .error cause => .error (.image cause)
  | .ok program => .ok { embedding with program := some program }

end Embedding

end ScriptMachine
