import ScriptMachine.CommandLine.Files
import ScriptMachine.CommandLine.Tool
import ScriptMachine.Embedding.Basic
import ScriptMachine.Host.Library
import ScriptMachine.Number.Reading
import ScriptMachine.Options.Reader
import ScriptMachine.Source.Reader
import ScriptMachine.Text.Quoted

/-!
# The runner

The runner loads a program, from units or from an image as the ending of its file says, runs one
function of it and prints every value that the function yields or returns. Options come before the
first argument of the function; from there on every word is an argument.
-/

namespace ScriptMachine

/-- What the runner is asked for. -/
structure RunRequest where
  program : Option String
  entry : Option String
  path : Option String
  trace : Bool
  config : Option String
  args : List String
deriving DecidableEq

namespace RunRequest

def nothing : RunRequest := ⟨none, none, none, false, none, []⟩

/-- Whether a word is an option of the runner, or asks for help. -/
def isOption (word : String) : Bool :=
  word = "--" ||
    ["--entry", "--namespace", "--trace", "--config", "--help", "--version"].contains
      (Words.optionName word) ||
    (Words.isHyphened word && word.toList.tail.all fun letter => letter = 'h' ∨ letter = 'V')

/-- Whether a word can be the value of the option in front of it. Once the program is known, words
that are no option may start with a hyphen. -/
def isValue (request : RunRequest) (word : String) : Bool :=
  !Words.isHyphened word || (request.program.isSome && !isOption word)

/-- The request with the words behind the last option. -/
def withPositional (request : RunRequest) (words : List String) : Option RunRequest :=
  match request.program, words with
  | some _, words => some { request with args := words }
  | none, program :: words => some { request with program := some program, args := words }
  | none, [] => none

/-- The request with the value of an option. -/
def withOption? (request : RunRequest) (name value : String) : Option RunRequest :=
  match name with
  | "--entry" => (Words.once? request.entry value).map fun entry => { request with entry := entry }
  | "--namespace" => (Words.once? request.path value).map fun path => { request with path := path }
  | "--config" =>
      if value.isEmpty then none
      else (Words.once? request.config value).map fun config => { request with config := config }
  | _ => none

/-- Reads words from the left. -/
def readWords : RunRequest → List String → Option RunRequest
  | request, [] => if request.program.isSome then some request else none
  | request, word :: rest =>
      if isOption word then
        if word = "--" then request.withPositional rest
        else if word = "--trace" then
          if request.trace then none else readWords { request with trace := true } rest
        else if Words.optionName word ≠ word then
          let value := (Words.joined? (Words.optionName word) word).getD ""
          match request.withOption? (Words.optionName word) value with
          | some request => readWords request rest
          | none => none
        else
          match rest with
          | [] => none
          | value :: rest =>
              if request.isValue value then
                match request.withOption? word value with
                | some request => readWords request rest
                | none => none
              else none
      else if request.program.isSome then some { request with args := word :: rest }
      else if Words.isHyphened word ∨ word.isEmpty then none
      else readWords { request with program := some word } rest

/-- The request that the words of a command line make. -/
def ofWords? (words : List String) : Option RunRequest :=
  (readWords nothing words).filter fun request => request.program ≠ some ""

/-- The namespace of the function. -/
def namespacePath (request : RunRequest) : List String :=
  match request.path with
  | none => []
  | some path => path.splitOn "."

end RunRequest

/-- The value that an argument of the command line stands for. -/
def Value.ofWord (word : String) : Value :=
  match Reading.integer? word, Reading.number? word with
  | some value, _ => .int value
  | none, some value => .float value
  | none, none =>
      if word = "true" then .bool true else if word = "false" then .bool false else .str word

/-- Prints a value on a line of its own, unless it is unit. -/
def Value.printLine (value : Value) (store : Store) : Store :=
  if value = .unit then store else store.print (value.display store ++ "\n")

namespace Runner

/-- The failure of a file that cannot be read. -/
def unreadable (path : String) (cause : FileFailure) : ToolFailure :=
  .message ("failed to read " ++ path) (some cause.message)

/-- Why a text holds no units, as a cause. -/
def unitsCause : UnitsError → String
  | .data => "data did not match any variant of untagged enum OneOrMany"
  | .text .syntaxError => "the text is not well formed"
  | .text .endOfText => "the text ends too early"

/-- The units in a file. -/
def readUnits (files : FileAccess) (path : String) : Except ToolFailure (List ProgramUnit) :=
  match files.readText path with
  | .error cause => .error (unreadable path cause)
  | .ok text =>
      match ProgramUnit.listOfText text with
      | .error cause =>
          .error (.message (path ++ " does not hold program units") (some (unitsCause cause)))
      | .ok units => .ok units

/-- Loads units and compiles them. -/
def compiled (embedding : Embedding) (units : List ProgramUnit) : Except ToolFailure Embedding :=
  match (units.foldl Embedding.loadUnit embedding).compile with
  | .error cause => .error (.plain ("compile error: " ++ cause.message))
  | .ok embedding => .ok embedding

/-- Loads the program in a file. -/
def loadProgram (files : FileAccess) (embedding : Embedding) (path : String) :
    Except ToolFailure Embedding :=
  match Path.ending? path with
  | some "json" => do compiled embedding (← readUnits files path)
  | some "mrn" =>
      match files.read path with
      | .error cause => .error (unreadable path cause)
      | .ok bytes =>
          match embedding.loadImage bytes false with
          | .error cause => .error (.plain ("image error: " ++ cause.message))
          | .ok embedding => .ok embedding
  | _ => .error (.plain ("unsupported input extension for " ++ path))

/-- The options in a file, or the usual ones if none is named. -/
def readOptions (files : FileAccess) : Option String → Except ToolFailure RunOptions
  | none => .ok .standard
  | some path =>
      match files.readText path with
      | .error cause =>
          .error (.message ("failed to read configuration '" ++ path ++ "': " ++ cause.message)
            (some cause.message))
      | .ok text =>
          match RunOptions.ofText text with
          | .error cause => .error (.plain cause.message)
          | .ok options => .ok options

/-- An embedding that offers the default library. -/
def withLibrary (options : RunOptions) : Embedding :=
  let embedding := Embedding.ofOptions options
  { embedding with registry := embedding.registry.withLibrary .collecting }

/-- The text of lines. -/
def linesText (lines : List String) : String := String.join (lines.map (· ++ "\n"))

/-- The end of a run. Trace lines are shown only if they were asked for on the command line, and as
a terminal can bear them. -/
def finish (shown : Bool) (store : Store) (trace : List String) (fault : Option FaultReport) :
    ToolOutcome :=
  let errors := if shown then linesText (trace.map Text.shown) else ""
  match fault with
  | none => .success store.printed errors []
  | some report =>
      .failure store.printed (errors ++ report.render ++ "\n") (.plain "runtime error")

/-- Runs the requested function to its end. -/
def execute (bound : Nat) (shown : Bool) (embedding : Embedding) (request : RunRequest) :
    ToolOutcome :=
  let entry := request.entry.getD "main"
  let args := request.args.map Value.ofWord
  match embedding.run bound .empty request.namespacePath entry args with
  | .error cause => .failure "" "" (.plain cause.message)
  | .ok run =>
      match run.outcome with
      | .value value => finish shown (value.printLine run.store) run.trace none
      | .fault report => finish shown run.store run.trace (some report)
      | .unfinished => finish shown run.store run.trace none
      | .sequence sequence =>
          let drawn := sequence.collectWith Value.printLine bound bound embedding.registry run.store
          let trace := run.trace ++ drawn.trace
          match drawn.result with
          | .fault report => finish shown drawn.store trace (some report)
          | .values _ | .unfinished => finish shown drawn.store trace none

/-- The runner with the words of its command line and the text of its tracing switch. -/
def run (bound : Nat) (words : List String) (switch : Option String) (files : FileAccess) :
    ToolOutcome :=
  .ofResult do
    let some request := RunRequest.ofWords? words | throw .usage
    let shown := request.trace || (switch.map isSwitchedOn).getD false
    let options ← readOptions files request.config
    let options := { options with trace := options.trace || shown }
    let embedding ← loadProgram files (withLibrary options) (request.program.getD "")
    return execute bound shown embedding request

end Runner

end ScriptMachine
