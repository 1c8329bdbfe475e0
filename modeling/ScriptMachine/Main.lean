import ScriptMachine.CommandLine.ImageTools

/-!
# The program

The first word on the command line names the tool, the rest are its words. All decisions are made in
`Runner`, `ImageWriter` and `ImageLister`; here files are read and written, and texts are printed.
-/

namespace ScriptMachine

namespace CommandLine

/-- How many instructions a turn may take: more than any run lives to see. -/
def instructionBound : Nat := twoTo 63

/-- A failure of the system. Its code is twenty, with either sign, where a directory is missing on
the way. -/
def failureOf : IO.Error → FileFailure
  | .noFileOrDirectory _ _ _ => .notFound
  | .inappropriateType _ code _ =>
      if code.toInt32.toInt.natAbs = 20 then .notDirectory else .isDirectory
  | error => .other (toString error)

/-- What reading a path gives. -/
def readingOf (path : String) : IO (String × Except FileFailure Bytes) := do
  try
    let bytes ← IO.FS.readBinFile path
    return (path, .ok bytes.toList)
  catch error => return (path, .error (failureOf error))

/-- The paths that a word may name: itself, or what stands behind its equals sign. -/
def pathsOf (word : String) : List String :=
  match Words.joined? (Words.optionName word) word with
  | some value => [word, value]
  | none => [word]

/-- The files that the words name. Whether a path can be written only writing tells. -/
def filesOf (words : List String) : IO FileAccess := do
  let readings ← (words.flatMap pathsOf).mapM readingOf
  return {
    read := fun path => (readings.lookup path).getD (.error .notFound)
    writeFailure? := fun _ => none }

/-- The tool of a name. -/
def runTool (tool : String) (words : List String) (switch : Option String) (files : FileAccess) :
    ToolOutcome :=
  match tool with
  | "marinescript" => Runner.run instructionBound words switch files
  | "marine_compile" => ImageWriter.run words files
  | "marine_disasm" => ImageLister.run words files
  | _ => .failure "" "" .usage

/-- Writes the files of an outcome, and tells the first failure. -/
def writeAll : List (String × Bytes) → IO (Option ToolFailure)
  | [] => return none
  | (path, bytes) :: rest => do
      try
        IO.FS.writeBinFile path (ByteArray.mk bytes.toArray)
      catch cause =>
        return some (.message ("failed to write " ++ path) (some (failureOf cause).message))
      writeAll rest

/-- Prints an outcome and gives its exit code. -/
def present (outcome : ToolOutcome) : IO UInt32 := do
  match ← writeAll outcome.writes with
  | some failed => do
      IO.eprint failed.report
      return UInt32.ofNat failed.code
  | none => do
      IO.print outcome.output
      IO.eprint outcome.errors
      return UInt32.ofNat outcome.code

end CommandLine

end ScriptMachine

def main (words : List String) : IO UInt32 := do
  match words with
  | [] => ScriptMachine.CommandLine.present (.failure "" "" .usage)
  | tool :: rest => do
      let files ← ScriptMachine.CommandLine.filesOf rest
      let switch ← IO.getEnv "MARINE_TRACE"
      ScriptMachine.CommandLine.present (ScriptMachine.CommandLine.runTool tool rest switch files)
