import ScriptMachine.Json.Parser
import ScriptMachine.Source.Basic

/-!
# Reading source trees

The reader is more lenient than the writer. A record may be an object, in any order and with further
members, or an array of its fields in order; a field that is missing may have a default. A case that
holds nothing may be its name alone, or an object whose one member is null. The fields of a case may
stand in an array only where a whole text is read, not where a tree is handed over.

Of the reasons why a tree is no program none is reported, so reading gives an `Option`. The
recursion follows the levels of the tree.
-/

namespace ScriptMachine

/-- The fields of a record, in the order of their declaration. -/
structure RecordFields where
  /-- Whether the record was an array, in which only fields with a default may be missing. -/
  positional : Bool
  /-- What is there for each field, if anything. -/
  contents : List (Option Json)

namespace RecordFields

/-- The members of an object with a given name, of which there may be at most one. -/
def unique? (members : List (String × Json)) (name : String) : Option (Option Json) :=
  match members.filter fun entry => entry.1 = name with
  | [] => some none
  | [(_, value)] => some (some value)
  | _ => none

/-- The fields with the given names. -/
def ofJson? (names : List String) : Json → Option RecordFields
  | .object members => (names.mapM (unique? members)).map (⟨false, ·⟩)
  | .array items =>
      if items.length ≤ names.length then
        some ⟨true, items.map some ++ List.replicate (names.length - items.length) none⟩
      else none
  | _ => none

/-- The content of a field that has to be there. -/
def required? (fields : RecordFields) (place : Nat) : Option Json := (fields.contents[place]?).join

/-- The content of a field that stands for something absent when it is missing or null; only an
object may leave it out. -/
def optional? (fields : RecordFields) (place : Nat) : Option (Option Json) :=
  match (fields.contents[place]?).join with
  | some .null => some none
  | some content => some (some content)
  | none => if fields.positional then none else some none

/-- The content of a field that has a default. -/
def defaulted (fields : RecordFields) (place : Nat) : Option Json := (fields.contents[place]?).join

end RecordFields

/-- How the fields of a case may be given. -/
inductive CaseFields where
  /-- By name, in an object. -/
  | named
  /-- By name, or in their order in an array. -/
  | namedOrOrdered
deriving DecidableEq

/-- The fields of a case with the given names. -/
def CaseFields.ofJson? (form : CaseFields) (names : List String) (content : Json) :
    Option RecordFields :=
  (RecordFields.ofJson? names content).filter fun fields =>
    form = .namedOrOrdered || !fields.positional

namespace Json

def text? : Json → Option String
  | .string text => some text
  | _ => none

def items? : Json → Option (List Json)
  | .array items => some items
  | _ => none

def names? (tree : Json) : Option (List String) := tree.items?.bind fun items => items.mapM text?

/-- A whole number of 32 bits. -/
def word32? : Json → Option UInt32
  | .integer value =>
      if 0 ≤ value ∧ value < (twoTo 32 : Int) then some (UInt32.ofNat value.toNat) else none
  | _ => none

/-- A whole number of 64 bits with sign. -/
def int64? : Json → Option Int64
  | .integer value => ScriptMachine.int64? value
  | _ => none

/-- Any number. -/
def binary64? : Json → Option Binary64
  | .integer value => some (Binary64.ofInt value)
  | .number value => some value
  | _ => none

/-- The name of a case and what it holds, if anything. -/
def case? : Json → Option (String × Option Json)
  | .string name => some (name, none)
  | .object [(name, content)] => some (name, some content)
  | _ => none

/-- Whether this is what a case that holds nothing may hold. -/
def isNothing : Option Json → Bool
  | none => true
  | some .null => true
  | _ => false

/-- The name of a case that holds nothing. -/
def bareCase? (tree : Json) : Option String :=
  match tree.case? with
  | some (name, content) => if isNothing content then some name else none
  | none => none

end Json

def Position.ofJson? (tree : Json) : Option Position := do
  let fields ← RecordFields.ofJson? ["line", "column"] tree
  let line ← (← fields.required? 0).word32?
  let column ← (← fields.required? 1).word32?
  return ⟨line, column⟩

def SourceRange.ofJson? (tree : Json) : Option SourceRange := do
  let fields ← RecordFields.ofJson? ["start", "end"] tree
  let start ← Position.ofJson? (← fields.required? 0)
  let stop ← Position.ofJson? (← fields.required? 1)
  return ⟨start, stop⟩

def Literal.ofJson? (tree : Json) : Option Literal := do
  let (name, content) ← tree.case?
  match name, content with
  | "Unit", content => if Json.isNothing content then some .unit else none
  | "Bool", some (.bool value) => some (.bool value)
  | "Int", some content => content.int64?.map .int
  | "Float", some content => content.binary64?.map .float
  | "Str", some content => content.text?.map .str
  | _, _ => none

mutual

/-- An expression of at most the given number of levels. -/
def Expr.read? (form : CaseFields) : Nat → Json → Option Expr
  | 0, _ => none
  | levels + 1, tree => do
      let (name, content) ← tree.case?
      let content ← content
      match name with
      | "Literal" => (Literal.ofJson? content).map .literal
      | "Variable" => content.text?.map .var
      | "Binary" => do
          let fields ← form.ofJson? ["op", "lhs", "rhs"] content
          let operator ← BinaryOp.ofName? (← (← fields.required? 0).bareCase?)
          let left ← Expr.read? form levels (← fields.required? 1)
          let right ← Expr.read? form levels (← fields.required? 2)
          return .binary operator left right
      | "Unary" => do
          let fields ← form.ofJson? ["op", "operand"] content
          let operator ← UnaryOp.ofName? (← (← fields.required? 0).bareCase?)
          let operand ← Expr.read? form levels (← fields.required? 1)
          return .unary operator operand
      | "Call" => do
          let fields ← form.ofJson? ["namespace", "name", "args"] content
          let path ← ((fields.defaulted 0).getD (.array [])).names?
          let name ← (← fields.required? 1).text?
          let args ← Expr.readList? form levels (← (← fields.required? 2).items?)
          return .call path name args
      | "MethodCall" => do
          let fields ← form.ofJson? ["receiver", "name", "args"] content
          let receiver ← Expr.read? form levels (← fields.required? 0)
          let name ← (← fields.required? 1).text?
          let args ← Expr.readList? form levels (← (← fields.required? 2).items?)
          return .methodCall receiver name args
      | "Invoke" => do
          let fields ← form.ofJson? ["callee", "args"] content
          let callee ← Expr.read? form levels (← fields.required? 0)
          let args ← Expr.readList? form levels (← (← fields.required? 1).items?)
          return .invoke callee args
      | "Field" => do
          let fields ← form.ofJson? ["target", "name"] content
          let target ← Expr.read? form levels (← fields.required? 0)
          let name ← (← fields.required? 1).text?
          return .field target name
      | "Index" => do
          let fields ← form.ofJson? ["target", "index"] content
          let target ← Expr.read? form levels (← fields.required? 0)
          let position ← Expr.read? form levels (← fields.required? 1)
          return .index target position
      | "If" => do
          let fields ← form.ofJson? ["cond", "then_body", "else_body"] content
          let condition ← Expr.read? form levels (← fields.required? 0)
          let thenBody ← Stmt.readList? form levels (← (← fields.required? 1).items?)
          let elseBody ← Stmt.readBody? form levels (← fields.optional? 2)
          return .ifElse condition thenBody elseBody
      | "Action" => do
          let fields ← form.ofJson? ["params", "body"] content
          let params ← (← fields.required? 0).names?
          let body ← Stmt.readList? form levels (← (← fields.required? 1).items?)
          return .action params body
      | "Array" => do
          let items ← Expr.readList? form levels (← content.items?)
          return .array items
      | "Await" => do
          let iterable ← Expr.read? form levels content
          return .await iterable
      | _ => none

def Expr.readList? (form : CaseFields) : Nat → List Json → Option (List Expr)
  | 0, trees => if trees.isEmpty then some [] else none
  | levels + 1, trees => trees.mapM fun tree => Expr.read? form levels tree

/-- An expression that may be absent. -/
def Expr.readOption? (form : CaseFields) : Nat → Option Json → Option (Option Expr)
  | 0, tree => if tree.isNone then some none else none
  | _ + 1, none => some none
  | levels + 1, some tree => (Expr.read? form levels tree).map some

/-- A statement of at most the given number of levels. -/
def Stmt.read? (form : CaseFields) : Nat → Json → Option Stmt
  | 0, _ => none
  | levels + 1, tree => do
      let (name, content) ← tree.case?
      match name with
      | "Break" => if Json.isNothing content then some .breakLoop else none
      | "Let" => do
          let fields ← form.ofJson? ["name", "value"] (← content)
          let name ← (← fields.required? 0).text?
          let value ← Expr.read? form levels (← fields.required? 1)
          return .letVar name value
      | "Assign" => do
          let fields ← form.ofJson? ["name", "value"] (← content)
          let name ← (← fields.required? 0).text?
          let value ← Expr.read? form levels (← fields.required? 1)
          return .assign name value
      | "FieldAssign" => do
          let fields ← form.ofJson? ["target", "field", "value"] (← content)
          let target ← Expr.read? form levels (← fields.required? 0)
          let name ← (← fields.required? 1).text?
          let value ← Expr.read? form levels (← fields.required? 2)
          return .fieldAssign target name value
      | "IndexAssign" => do
          let fields ← form.ofJson? ["target", "index", "value"] (← content)
          let target ← Expr.read? form levels (← fields.required? 0)
          let position ← Expr.read? form levels (← fields.required? 1)
          let value ← Expr.read? form levels (← fields.required? 2)
          return .indexAssign target position value
      | "While" => do
          let fields ← form.ofJson? ["cond", "body"] (← content)
          let condition ← Expr.read? form levels (← fields.required? 0)
          let body ← Stmt.readList? form levels (← (← fields.required? 1).items?)
          return .whileLoop condition body
      | "For" => do
          let fields ← form.ofJson? ["var", "start", "end", "step", "body"] (← content)
          let name ← (← fields.required? 0).text?
          let start ← Expr.read? form levels (← fields.required? 1)
          let stop ← Expr.read? form levels (← fields.required? 2)
          let step ← Expr.readOption? form levels (← fields.optional? 3)
          let body ← Stmt.readList? form levels (← (← fields.required? 4).items?)
          return .forRange name start stop step body
      | "ForEach" => do
          let fields ← form.ofJson? ["var", "iterable", "body"] (← content)
          let name ← (← fields.required? 0).text?
          let iterable ← Expr.read? form levels (← fields.required? 1)
          let body ← Stmt.readList? form levels (← (← fields.required? 2).items?)
          return .forEach name iterable body
      | "Yield" => do
          let value ← Expr.readOption? form levels (present (← content))
          return .yieldValue value
      | "Return" => do
          let value ← Expr.readOption? form levels (present (← content))
          return .returnValue value
      | "Expr" => do
          let value ← Expr.read? form levels (← content)
          return .expr value
      | _ => none
where
  /-- A tree that is not null. -/
  present : Json → Option Json
    | .null => none
    | content => some content

def Stmt.readList? (form : CaseFields) : Nat → List Json → Option (List Stmt)
  | 0, trees => if trees.isEmpty then some [] else none
  | levels + 1, trees => trees.mapM fun tree => Stmt.read? form levels tree

/-- A body that may be absent. -/
def Stmt.readBody? (form : CaseFields) : Nat → Option Json → Option (Option (List Stmt))
  | 0, tree => if tree.isNone then some none else none
  | _ + 1, none => some none
  | levels + 1, some tree => do
      let body ← Stmt.readList? form levels (← tree.items?)
      return some body

end

/-- The bound on the recursion for a tree: three calls per level of it suffice. -/
def readingBound (tree : Json) : Nat := 3 * tree.height + 3

def Stmt.ofJson? (form : CaseFields) (tree : Json) : Option Stmt :=
  Stmt.read? form (readingBound tree) tree

/-- A list of statements. -/
def Stmt.listOfJson? (form : CaseFields) (tree : Json) : Option (List Stmt) :=
  tree.items?.bind fun items => items.mapM (Stmt.ofJson? form)

def FunctionDef.ofJson? (form : CaseFields) (tree : Json) : Option FunctionDef := do
  let fields ← RecordFields.ofJson? ["name", "params", "body", "range"] tree
  let name ← (← fields.required? 0).text?
  let params ← ((fields.defaulted 1).getD (.array [])).names?
  let body ← Stmt.listOfJson? form (← fields.required? 2)
  let range ←
    match fields.defaulted 3 with
    | none => some SourceRange.nowhere
    | some content => SourceRange.ofJson? content
  return ⟨name, params, body, range⟩

def ProgramUnit.ofJson? (form : CaseFields) (tree : Json) : Option ProgramUnit := do
  let fields ← RecordFields.ofJson? ["name", "namespace", "functions"] tree
  let name ← (← fields.required? 0).text?
  let path ← ((fields.defaulted 1).getD (.array [])).names?
  let functions ← (← (← fields.required? 2).items?).mapM (FunctionDef.ofJson? form)
  return ⟨name, path, functions⟩

/-- A list of units, or a single unit. An array is taken as a list if it can be. -/
def ProgramUnit.listOfJson? (form : CaseFields) (tree : Json) : Option (List ProgramUnit) :=
  match tree.items?.bind fun items => items.mapM (ProgramUnit.ofJson? form) with
  | some units => some units
  | none => (ProgramUnit.ofJson? form tree).map ([·])

/-- Why a text holds no program units. -/
inductive UnitsError where
  /-- The text is no tree. -/
  | text (error : Json.ParseError)
  /-- The tree is no list of units and no unit. -/
  | data
deriving DecidableEq, Repr

/-- How deep the tree of a program may be nested. -/
def ProgramUnit.levels : Nat := 127

/-- The units that a text holds. A tree that is no program is reported before anything that follows
the tree. -/
def ProgramUnit.listOfText (text : String) : Except UnitsError (List ProgramUnit) :=
  match Json.parse ProgramUnit.levels text with
  | .error error => .error (.text error)
  | .ok (tree, rest) =>
      match ProgramUnit.listOfJson? .namedOrOrdered tree with
      | none => .error .data
      | some units =>
          if (Json.skipSpace rest).isEmpty then .ok units else .error (.text .syntaxError)

end ScriptMachine
