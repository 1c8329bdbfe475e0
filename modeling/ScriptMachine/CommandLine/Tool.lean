import ScriptMachine.Image.Bytes

/-!
# Tools

A tool is given the words of a command line. An option is a word that starts with two hyphens, or
with one hyphen and a letter; its value follows as the next word, or in the same word. `--` ends the
options. An option is given at most once.

A tool ends with an exit code. On the way it writes to its two outputs and to files. A failure is
reported on the second output, with its cause on a line of its own.
-/

namespace ScriptMachine

/-! ## Words on a command line -/

namespace Words

/-- Whether a word has the form of an option. A single hyphen has not. -/
def isHyphened (word : String) : Bool := word.startsWith "-" && word ≠ "-"

/-- The value of a word of the form `name=value`. -/
def joined? (name word : String) : Option String :=
  let start := (name ++ "=").toList
  if start.isPrefixOf word.toList then some (.ofList (word.toList.drop start.length)) else none

/-- The name of an option, without a value in the same word. -/
def optionName (word : String) : String := .ofList (word.toList.takeWhile (· ≠ '='))

/-- Notes something that may be given once. -/
def once? {α : Type} (given : Option α) (value : α) : Option (Option α) :=
  if given.isNone then some (some value) else none

end Words

/-! ## Outcomes -/

/-- Why a tool fails. -/
inductive ToolFailure where
  /-- The words on the command line are not what the tool takes. -/
  | usage
  /-- A failure with a text, and with a cause if there is one below it. -/
  | message (text : String) (cause : Option String)
deriving DecidableEq

namespace ToolFailure

/-- A failure without a cause. -/
def plain (text : String) : ToolFailure := .message text none

/-- The lines of the report. -/
def report : ToolFailure → String
  | .usage => "error: the command line is not understood\n"
  | .message text none => "Error: " ++ text ++ "\n"
  | .message text (some cause) => "Error: " ++ text ++ "\n\nCaused by:\n    " ++ cause ++ "\n"

/-- The exit code. -/
def code : ToolFailure → Nat
  | .usage => 2
  | .message _ _ => 1

end ToolFailure

/-- What a tool leaves behind. -/
structure ToolOutcome where
  code : Nat
  output : String
  errors : String
  writes : List (String × Bytes)

namespace ToolOutcome

/-- The tool did its work. -/
def success (output errors : String) (writes : List (String × Bytes)) : ToolOutcome :=
  ⟨0, output, errors, writes⟩

/-- The tool failed, after it had written something. -/
def failure (output errors : String) (failed : ToolFailure) : ToolOutcome :=
  ⟨failed.code, output, errors ++ failed.report, []⟩

/-- The outcome of a tool that writes nothing before it fails. -/
def ofResult : Except ToolFailure ToolOutcome → ToolOutcome
  | .ok outcome => outcome
  | .error failed => failure "" "" failed

/-- A line without the carriage return that may stand at its end. -/
def withoutReturn (line : List Char) : List Char :=
  if line.getLast? = some '\r' then line.dropLast else line

/-- The lines on the second output, each of which is ended there. -/
def errorLines (outcome : ToolOutcome) : List String :=
  (outcome.errors.splitOn "\n").dropLast.map fun line => .ofList (withoutReturn line.toList)

end ToolOutcome

end ScriptMachine
