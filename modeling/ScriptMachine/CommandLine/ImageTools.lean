import ScriptMachine.CommandLine.Runner

/-!
# The tools for images

One tool compiles units to an image, the other lists what an image holds.
-/

namespace ScriptMachine

/-- What the tool that writes images is asked for. -/
structure CompileRequest where
  input : Option String
  output : Option String
  compact : Bool
deriving DecidableEq

namespace CompileRequest

def nothing : CompileRequest := ⟨none, none, false⟩

/-- The request with the input file. -/
def withInput? (request : CompileRequest) (word : String) : Option CompileRequest :=
  if word.isEmpty then none
  else (Words.once? request.input word).map fun input => { request with input := input }

/-- The request with the output file. -/
def withOutput? (request : CompileRequest) (word : String) : Option CompileRequest :=
  if word.isEmpty then none
  else (Words.once? request.output word).map fun output => { request with output := output }

/-- The output file in the same word as its option. -/
def joinedOutput? (word : String) : Option String :=
  match Words.joined? "--output" word, word.toList with
  | some value, _ => some value
  | none, '-' :: 'o' :: '=' :: value => some (.ofList value)
  | none, '-' :: 'o' :: first :: value => some (.ofList (first :: value))
  | none, _ => none

/-- Reads words from the left. -/
def readWords : CompileRequest → List String → Option CompileRequest
  | request, [] => some request
  | request, word :: rest =>
      if word = "--" then rest.foldlM withInput? request
      else if word = "--compact" then
        if request.compact then none else readWords { request with compact := true } rest
      else if word = "--output" ∨ word = "-o" then
        match rest with
        | [] => none
        | value :: rest =>
            if Words.isHyphened value then none
            else
              match request.withOutput? value with
              | some request => readWords request rest
              | none => none
      else
        match joinedOutput? word with
        | some value =>
            match request.withOutput? value with
            | some request => readWords request rest
            | none => none
        | none =>
            if Words.isHyphened word then none
            else
              match request.withInput? word with
              | some request => readWords request rest
              | none => none

end CompileRequest

namespace ImageWriter

/-- Compiles the units of a file and writes their image. -/
def run (words : List String) (files : FileAccess) : ToolOutcome :=
  .ofResult do
    let some request := CompileRequest.readWords .nothing words | throw .usage
    let some input := request.input | throw .usage
    let units ← Runner.readUnits files input
    let embedding ← Runner.compiled (Runner.withLibrary .standard) units
    match embedding.encodeImage request.compact with
    | .error cause => throw (.plain cause.message)
    | .ok bytes =>
        let output := request.output.getD (Path.withEnding input "mrn")
        match files.writeFailure? output with
        | some cause => throw (.message ("failed to write " ++ output) (some cause.message))
        | none =>
            let report := "wrote " ++ toString bytes.length ++ " bytes to " ++ output ++ "\n"
            return .success report "" [(output, bytes)]

end ImageWriter

namespace ImageLister

/-- The lines in front of a function: of those that start at an offset, the last one listed. -/
def headerLines (functions : List FunctionListing) (offset : Nat) : List String :=
  match functions.reverse.find? fun listing => listing.entry.offset = offset with
  | none => []
  | some listing =>
      ["", "function " ++ qualifiedName listing.path listing.name ++ " (arity " ++
        toString listing.entry.arity ++ "):"]

/-- The lines of the instructions from an offset on. -/
def codeLines (functions : List FunctionListing) : Nat → List Instruction → List String
  | _, [] => []
  | offset, instruction :: rest =>
      headerLines functions offset ++
        ("  " ++ Text.fourDigits offset ++ ": " ++ instruction.render) ::
          codeLines functions (offset + 1) rest

/-- The listing of a program: what it says about itself, its globals, its code. -/
def listing (program : Program) : List String :=
  program.metadata.map (fun entry => "; " ++ entry.1 ++ " = " ++ entry.2) ++
    (program.globals.zipIdx.map fun entry =>
      "global " ++ toString entry.2 ++ ": " ++ entry.1) ++
    codeLines program.namespaces.list 0 program.instructions.toList

/-- Lists the image in the last file named. -/
def run (words : List String) (files : FileAccess) : ToolOutcome :=
  .ofResult do
    let inputs := words.filter fun word => word ≠ "--trusted"
    let some input := inputs.getLast? | throw (.plain "no input file provided")
    match files.read input with
    | .error cause => throw (Runner.unreadable input cause)
    | .ok bytes =>
        match Image.read bytes (words.contains "--trusted") with
        | .error cause => throw (.plain ("image error: " ++ cause.message))
        | .ok program => return .success (Runner.linesText (listing program)) "" []

end ImageLister

end ScriptMachine
