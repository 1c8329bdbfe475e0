import ScriptMachine.Proofs.Value.Arithmetic
import ScriptMachine.Source.Reader
import ScriptMachine.Source.Writer

/-!
# Reading back what was written

A tree that was written for a program is read as this program, whatever the nesting, provided that
all its floating-point literals are finite. One that is not finite is written as null, which no
number is read from.

Reading goes down the tree with a bound on the levels that are left. Each step of the writer takes
at most three calls of the reader and adds at least one to the height of the tree, so that the bound
which the reader starts with is never reached.
-/

namespace ScriptMachine

/-! ## Floating-point literals -/

/-- The floating-point numbers in a literal. -/
def Literal.floats : Literal → List Binary64
  | .float value => [value]
  | _ => []

mutual

/-- The floating-point literals of an expression. -/
def Expr.floats : Expr → List Binary64
  | .literal value => value.floats
  | .var _ => []
  | .binary _ left right => left.floats ++ right.floats
  | .unary _ operand => operand.floats
  | .call _ _ args => Expr.listFloats args
  | .methodCall receiver _ args => receiver.floats ++ Expr.listFloats args
  | .invoke callee args => callee.floats ++ Expr.listFloats args
  | .field target _ => target.floats
  | .index target position => target.floats ++ position.floats
  | .ifElse condition thenBody elseBody =>
      condition.floats ++ (Stmt.listFloats thenBody ++ Stmt.bodyFloats elseBody)
  | .action _ body => Stmt.listFloats body
  | .array items => Expr.listFloats items
  | .await iterable => iterable.floats

def Expr.listFloats : List Expr → List Binary64
  | [] => []
  | item :: rest => item.floats ++ Expr.listFloats rest

def Expr.optionFloats : Option Expr → List Binary64
  | none => []
  | some value => value.floats

/-- The floating-point literals of a statement. -/
def Stmt.floats : Stmt → List Binary64
  | .letVar _ value | .assign _ value | .expr value => value.floats
  | .fieldAssign target _ value => target.floats ++ value.floats
  | .indexAssign target position value => target.floats ++ (position.floats ++ value.floats)
  | .whileLoop condition body => condition.floats ++ Stmt.listFloats body
  | .forRange _ start stop step body =>
      start.floats ++ (stop.floats ++ (Expr.optionFloats step ++ Stmt.listFloats body))
  | .forEach _ iterable body => iterable.floats ++ Stmt.listFloats body
  | .breakLoop => []
  | .yieldValue value | .returnValue value => Expr.optionFloats value

def Stmt.listFloats : List Stmt → List Binary64
  | [] => []
  | statement :: rest => statement.floats ++ Stmt.listFloats rest

def Stmt.bodyFloats : Option (List Stmt) → List Binary64
  | none => []
  | some body => Stmt.listFloats body

end

/-- The floating-point literals of a unit. -/
def ProgramUnit.floats (unit : ProgramUnit) : List Binary64 :=
  unit.functions.flatMap fun function => Stmt.listFloats function.body

/-! ## What is read if some numbers are finite -/

/-- A value, provided that all of some numbers are finite. -/
def readIf {α : Type} (floats : List Binary64) (value : α) : Option α :=
  if floats.all Binary64.isFinite then some value else none

section ReadIf

variable {α β : Type} {value : α}

@[simp]
theorem readIf_nil : readIf [] value = some value := rfl

@[simp]
theorem map_readIf {f : α → β} (floats : List Binary64) :
    (readIf floats value).map f = readIf floats (f value) := by
  unfold readIf
  split <;> rfl

/-- Of two parts that are read one after the other, both have to be finite. -/
@[simp]
theorem readIf_bind_readIf {f : α → β} (first second : List Binary64) :
    ((readIf first value).bind fun read => readIf second (f read)) =
      readIf (first ++ second) (f value) := by
  unfold readIf
  cases one : first.all Binary64.isFinite <;> simp [List.all_append, one]

@[simp]
theorem readIf_bind_some {f : α → β} (floats : List Binary64) :
    ((readIf floats value).bind fun read => some (f read)) = readIf floats (f value) := by
  simpa using readIf_bind_readIf (f := f) floats []

/-- Written items are read one after the other, and all have to be finite. -/
theorem mapM_written {write : α → Json} {read : Json → Option α} {floats : α → List Binary64}
    (each : ∀ item, read (write item) = readIf (floats item) item) (items : List α) :
    (items.map write).mapM read = readIf (items.flatMap floats) items := by
  induction items with
  | nil => rfl
  | cons item rest ih => simp [each, ih]

end ReadIf

/-! ## Records and cases -/

namespace RecordFields

/-- Where no name stands twice, each member is the only one of its name. -/
theorem unique?_of_mem {members : List (String × Json)} (nodup : (members.map Prod.fst).Nodup)
    {entry : String × Json} (among : entry ∈ members) :
    unique? members entry.1 = some (some entry.2) := by
  rcases List.append_of_mem among with ⟨front, back, rfl⟩
  simp only [List.map_append, List.map_cons, List.nodup_append, List.nodup_cons, List.mem_map,
    not_exists, not_and, List.mem_cons] at nodup
  have before : front.filter (fun other => other.1 = entry.1) = [] := by
    simp only [List.filter_eq_nil_iff, decide_eq_true_eq]
    intro other present same
    exact nodup.2.2 other.1 ⟨other, present, rfl⟩ entry.1 (.inl rfl) same
  have behind : back.filter (fun other => other.1 = entry.1) = [] := by
    simp only [List.filter_eq_nil_iff, decide_eq_true_eq]
    exact nodup.2.1.1
  simp [unique?, List.filter_append, before, behind]

theorem mapM_unique? {members : List (String × Json)} (nodup : (members.map Prod.fst).Nodup) :
    (members.map Prod.fst).mapM (unique? members) =
      some (members.map fun entry => some entry.2) := by
  have each : ∀ entries : List (String × Json), (∀ entry ∈ entries, entry ∈ members) →
      (entries.map Prod.fst).mapM (unique? members) =
        some (entries.map fun entry => some entry.2) := by
    intro entries among
    induction entries with
    | nil => rfl
    | cons entry rest ih =>
        rw [List.forall_mem_cons] at among
        simp [unique?_of_mem nodup among.1, ih among.2]
  exact each members fun _ among => among

/-- An object with just the fields of a record gives them in its order. -/
@[simp]
theorem ofJson?_object {names : List String} {members : List (String × Json)}
    (named : members.map Prod.fst = names) (nodup : names.Nodup) :
    ofJson? names (.object members) = some ⟨false, members.map fun entry => some entry.2⟩ := by
  subst named
  rw [ofJson?, mapM_unique? nodup, Option.map_some]

@[simp]
theorem required?_mk {positional : Bool} {contents : List (Option Json)} {place : Nat} :
    required? ⟨positional, contents⟩ place = (contents[place]?).join := rfl

@[simp]
theorem defaulted_mk {positional : Bool} {contents : List (Option Json)} {place : Nat} :
    defaulted ⟨positional, contents⟩ place = (contents[place]?).join := rfl

/-- A field that may be absent is so if it is null. -/
@[simp]
theorem optional?_mk {positional : Bool} {contents : List (Option Json)} {place : Nat}
    {content : Json} (there : (contents[place]?).join = some content) :
    optional? ⟨positional, contents⟩ place = some (Stmt.read?.present content) := by
  cases content <;> simp [optional?, there, Stmt.read?.present]

end RecordFields

@[simp]
theorem CaseFields.ofJson?_object (form : CaseFields) {names : List String}
    {members : List (String × Json)} (named : members.map Prod.fst = names) (nodup : names.Nodup) :
    form.ofJson? names (.object members) = some ⟨false, members.map fun entry => some entry.2⟩ := by
  simp [CaseFields.ofJson?, RecordFields.ofJson?_object named nodup]

namespace Json

@[simp]
theorem case?_ofCase (name : String) (content : Json) :
    (ofCase name content).case? = some (name, some content) := rfl

/-- What follows on a case is looked at with its name and content only. -/
theorem bind_case?_ofCase {α : Type} {name : String} {content : Json}
    {next : String × Option Json → Option α} :
    ((ofCase name content).case? >>= next) = next (name, some content) := rfl

@[simp]
theorem bareCase?_string (name : String) : (string name).bareCase? = some name := rfl

@[simp]
theorem text?_string (text : String) : (string text).text? = some text := rfl

@[simp]
theorem items?_array (items : List Json) : (array items).items? = some items := rfl

@[simp]
theorem names?_ofNames (names : List String) : (ofNames names).names? = some names := by
  have each (name : String) : text? (string name) = readIf [] name := rfl
  simpa [names?, ofNames, readIf] using mapM_written each names

theorem height_pos (tree : Json) : 0 < tree.height := by
  cases tree <;> simp [height]

@[simp]
theorem height_ofCase (name : String) (content : Json) :
    (ofCase name content).height = content.height + 1 := by
  simp [ofCase, height, heightOfMembers]

end Json

@[simp]
theorem BinaryOp.ofName?_name (operator : BinaryOp) :
    BinaryOp.ofName? operator.name = some operator := by
  cases operator <;> rfl

@[simp]
theorem UnaryOp.ofName?_name (operator : UnaryOp) :
    UnaryOp.ofName? operator.name = some operator := by
  cases operator <;> rfl

theorem int64?_toInt (value : Int64) : ScriptMachine.int64? value.toInt = some value := by
  rw [ScriptMachine.int64?, if_pos (fitsInt64_toInt value), Int64.ofInt_toInt]

/-- A literal is read back unless it is a number that is not finite. -/
theorem Literal.ofJson?_toJson (literal : Literal) :
    Literal.ofJson? literal.toJson = readIf literal.floats literal := by
  cases literal with
  | unit => rfl
  | bool value => rfl
  | str text => rfl
  | int value => simp [Literal.toJson, Literal.ofJson?, Json.int64?, int64?_toInt, Literal.floats]
  | float value =>
      cases finite : value.isFinite <;>
        simp [Literal.toJson, Literal.ofJson?, Json.ofBinary64, Json.binary64?, Literal.floats,
          readIf, finite]

@[simp]
theorem Expr.present_toJson (expr : Expr) : Stmt.read?.present expr.toJson = some expr.toJson := by
  cases expr <;> rfl

mutual

theorem Expr.read?_toJson (form : CaseFields) (expr : Expr) {levels : Nat}
    (fits : 3 * expr.toJson.height ≤ levels) :
    Expr.read? form levels expr.toJson = readIf expr.floats expr := by
  have := Json.height_pos expr.toJson
  obtain ⟨levels, rfl⟩ := Nat.exists_eq_add_one_of_ne_zero (show levels ≠ 0 by omega)
  cases expr with
  | literal value =>
      rw [Expr.toJson, Expr.read?, Json.bind_case?_ofCase]
      simp [Expr.floats, Literal.ofJson?_toJson]
  | var name =>
      rw [Expr.toJson, Expr.read?, Json.bind_case?_ofCase]
      simp [Expr.floats]
  | binary operator left right =>
      simp only [Expr.toJson, Json.height_ofCase, Json.height, Json.heightOfMembers] at fits
      have readLeft := Expr.read?_toJson form left (show _ ≤ levels by omega)
      have readRight := Expr.read?_toJson form right (show _ ≤ levels by omega)
      rw [Expr.toJson, Expr.read?, Json.bind_case?_ofCase]
      simp [Expr.floats, readLeft, readRight]
  | unary operator operand =>
      simp only [Expr.toJson, Json.height_ofCase, Json.height, Json.heightOfMembers] at fits
      have readOperand := Expr.read?_toJson form operand (show _ ≤ levels by omega)
      rw [Expr.toJson, Expr.read?, Json.bind_case?_ofCase]
      simp [Expr.floats, readOperand]
  | call path name args =>
      simp only [Expr.toJson, Json.height_ofCase, Json.height, Json.heightOfMembers] at fits
      have readArgs := Expr.readList?_toJson form args (show _ ≤ levels by omega)
      rw [Expr.toJson, Expr.read?, Json.bind_case?_ofCase]
      simp [Expr.floats, readArgs]
  | methodCall receiver name args =>
      simp only [Expr.toJson, Json.height_ofCase, Json.height, Json.heightOfMembers] at fits
      have readReceiver := Expr.read?_toJson form receiver (show _ ≤ levels by omega)
      have readArgs := Expr.readList?_toJson form args (show _ ≤ levels by omega)
      rw [Expr.toJson, Expr.read?, Json.bind_case?_ofCase]
      simp [Expr.floats, readReceiver, readArgs]
  | invoke callee args =>
      simp only [Expr.toJson, Json.height_ofCase, Json.height, Json.heightOfMembers] at fits
      have readCallee := Expr.read?_toJson form callee (show _ ≤ levels by omega)
      have readArgs := Expr.readList?_toJson form args (show _ ≤ levels by omega)
      rw [Expr.toJson, Expr.read?, Json.bind_case?_ofCase]
      simp [Expr.floats, readCallee, readArgs]
  | field target name =>
      simp only [Expr.toJson, Json.height_ofCase, Json.height, Json.heightOfMembers] at fits
      have readTarget := Expr.read?_toJson form target (show _ ≤ levels by omega)
      rw [Expr.toJson, Expr.read?, Json.bind_case?_ofCase]
      simp [Expr.floats, readTarget]
  | index target position =>
      simp only [Expr.toJson, Json.height_ofCase, Json.height, Json.heightOfMembers] at fits
      have readTarget := Expr.read?_toJson form target (show _ ≤ levels by omega)
      have readPosition := Expr.read?_toJson form position (show _ ≤ levels by omega)
      rw [Expr.toJson, Expr.read?, Json.bind_case?_ofCase]
      simp [Expr.floats, readTarget, readPosition]
  | ifElse condition thenBody elseBody =>
      simp only [Expr.toJson, Json.height_ofCase, Json.height, Json.heightOfMembers] at fits
      have readCondition := Expr.read?_toJson form condition (show _ ≤ levels by omega)
      have readThen := Stmt.readList?_toJson form thenBody (show _ ≤ levels by omega)
      have readElse := Stmt.readBody?_toJson form elseBody (show _ ≤ levels by omega)
      rw [Expr.toJson, Expr.read?, Json.bind_case?_ofCase]
      simp [Expr.floats, readCondition, readThen, readElse]
  | action params body =>
      simp only [Expr.toJson, Json.height_ofCase, Json.height, Json.heightOfMembers] at fits
      have readBody := Stmt.readList?_toJson form body (show _ ≤ levels by omega)
      rw [Expr.toJson, Expr.read?, Json.bind_case?_ofCase]
      simp [Expr.floats, readBody]
  | array items =>
      simp only [Expr.toJson, Json.height_ofCase, Json.height] at fits
      have readItems := Expr.readList?_toJson form items (show _ ≤ levels by omega)
      rw [Expr.toJson, Expr.read?, Json.bind_case?_ofCase]
      simp [Expr.floats, readItems]
  | await iterable =>
      simp only [Expr.toJson, Json.height_ofCase] at fits
      have readIterable := Expr.read?_toJson form iterable (show _ ≤ levels by omega)
      rw [Expr.toJson, Expr.read?, Json.bind_case?_ofCase]
      simp [Expr.floats, readIterable]
termination_by structural expr

theorem Expr.readList?_toJson (form : CaseFields) (items : List Expr) {levels : Nat}
    (fits : 3 * Json.heightOfItems (Expr.listToJson items) + 1 ≤ levels) :
    Expr.readList? form levels (Expr.listToJson items) = readIf (Expr.listFloats items) items := by
  obtain ⟨levels, rfl⟩ := Nat.exists_eq_add_one_of_ne_zero (show levels ≠ 0 by omega)
  cases items with
  | nil => rfl
  | cons item rest =>
      simp only [Expr.listToJson, Json.heightOfItems] at fits
      have readItem := Expr.read?_toJson form item (show _ ≤ levels by omega)
      have readRest := Expr.readList?_toJson form rest (show _ ≤ levels + 1 by omega)
      rw [Expr.readList?] at readRest
      simp [Expr.listToJson, Expr.readList?, Expr.listFloats, readItem, readRest]
termination_by structural items

theorem Expr.readOption?_toJson (form : CaseFields) (value : Option Expr) {levels : Nat}
    (fits : 3 * (Expr.optionToJson value).height + 1 ≤ levels) :
    Expr.readOption? form levels (Stmt.read?.present (Expr.optionToJson value)) =
      readIf (Expr.optionFloats value) value := by
  obtain ⟨levels, rfl⟩ := Nat.exists_eq_add_one_of_ne_zero (show levels ≠ 0 by omega)
  cases value with
  | none => rfl
  | some value =>
      have fits : 3 * value.toJson.height ≤ levels := Nat.le_of_succ_le_succ fits
      have readValue := Expr.read?_toJson form value fits
      rw [Expr.optionToJson, Expr.present_toJson, Expr.readOption?, readValue, map_readIf,
        Expr.optionFloats]
termination_by structural value

theorem Stmt.read?_toJson (form : CaseFields) (statement : Stmt) {levels : Nat}
    (fits : 3 * statement.toJson.height ≤ levels) :
    Stmt.read? form levels statement.toJson = readIf statement.floats statement := by
  have := Json.height_pos statement.toJson
  obtain ⟨levels, rfl⟩ := Nat.exists_eq_add_one_of_ne_zero (show levels ≠ 0 by omega)
  cases statement with
  | breakLoop => rfl
  | letVar name value =>
      simp only [Stmt.toJson, Json.height_ofCase, Json.height, Json.heightOfMembers] at fits
      have readValue := Expr.read?_toJson form value (show _ ≤ levels by omega)
      rw [Stmt.toJson, Stmt.read?, Json.bind_case?_ofCase]
      simp [Stmt.floats, readValue]
  | assign name value =>
      simp only [Stmt.toJson, Json.height_ofCase, Json.height, Json.heightOfMembers] at fits
      have readValue := Expr.read?_toJson form value (show _ ≤ levels by omega)
      rw [Stmt.toJson, Stmt.read?, Json.bind_case?_ofCase]
      simp [Stmt.floats, readValue]
  | fieldAssign target name value =>
      simp only [Stmt.toJson, Json.height_ofCase, Json.height, Json.heightOfMembers] at fits
      have readTarget := Expr.read?_toJson form target (show _ ≤ levels by omega)
      have readValue := Expr.read?_toJson form value (show _ ≤ levels by omega)
      rw [Stmt.toJson, Stmt.read?, Json.bind_case?_ofCase]
      simp [Stmt.floats, readTarget, readValue]
  | indexAssign target position value =>
      simp only [Stmt.toJson, Json.height_ofCase, Json.height, Json.heightOfMembers] at fits
      have readTarget := Expr.read?_toJson form target (show _ ≤ levels by omega)
      have readPosition := Expr.read?_toJson form position (show _ ≤ levels by omega)
      have readValue := Expr.read?_toJson form value (show _ ≤ levels by omega)
      rw [Stmt.toJson, Stmt.read?, Json.bind_case?_ofCase]
      simp [Stmt.floats, readTarget, readPosition, readValue]
  | whileLoop condition body =>
      simp only [Stmt.toJson, Json.height_ofCase, Json.height, Json.heightOfMembers] at fits
      have readCondition := Expr.read?_toJson form condition (show _ ≤ levels by omega)
      have readBody := Stmt.readList?_toJson form body (show _ ≤ levels by omega)
      rw [Stmt.toJson, Stmt.read?, Json.bind_case?_ofCase]
      simp [Stmt.floats, readCondition, readBody]
  | forRange name start stop step body =>
      simp only [Stmt.toJson, Json.height_ofCase, Json.height, Json.heightOfMembers] at fits
      have readStart := Expr.read?_toJson form start (show _ ≤ levels by omega)
      have readStop := Expr.read?_toJson form stop (show _ ≤ levels by omega)
      have readStep := Expr.readOption?_toJson form step (show _ ≤ levels by omega)
      have readBody := Stmt.readList?_toJson form body (show _ ≤ levels by omega)
      rw [Stmt.toJson, Stmt.read?, Json.bind_case?_ofCase]
      simp [Stmt.floats, readStart, readStop, readStep, readBody]
  | forEach name iterable body =>
      simp only [Stmt.toJson, Json.height_ofCase, Json.height, Json.heightOfMembers] at fits
      have readIterable := Expr.read?_toJson form iterable (show _ ≤ levels by omega)
      have readBody := Stmt.readList?_toJson form body (show _ ≤ levels by omega)
      rw [Stmt.toJson, Stmt.read?, Json.bind_case?_ofCase]
      simp [Stmt.floats, readIterable, readBody]
  | yieldValue value =>
      simp only [Stmt.toJson, Json.height_ofCase] at fits
      have readValue := Expr.readOption?_toJson form value (show _ ≤ levels by omega)
      rw [Stmt.toJson, Stmt.read?, Json.bind_case?_ofCase]
      simp [Stmt.floats, readValue]
  | returnValue value =>
      simp only [Stmt.toJson, Json.height_ofCase] at fits
      have readValue := Expr.readOption?_toJson form value (show _ ≤ levels by omega)
      rw [Stmt.toJson, Stmt.read?, Json.bind_case?_ofCase]
      simp [Stmt.floats, readValue]
  | expr value =>
      simp only [Stmt.toJson, Json.height_ofCase] at fits
      have readValue := Expr.read?_toJson form value (show _ ≤ levels by omega)
      rw [Stmt.toJson, Stmt.read?, Json.bind_case?_ofCase]
      simp [Stmt.floats, readValue]
termination_by structural statement

theorem Stmt.readList?_toJson (form : CaseFields) (body : List Stmt) {levels : Nat}
    (fits : 3 * Json.heightOfItems (Stmt.listToJson body) + 1 ≤ levels) :
    Stmt.readList? form levels (Stmt.listToJson body) = readIf (Stmt.listFloats body) body := by
  obtain ⟨levels, rfl⟩ := Nat.exists_eq_add_one_of_ne_zero (show levels ≠ 0 by omega)
  cases body with
  | nil => rfl
  | cons statement rest =>
      simp only [Stmt.listToJson, Json.heightOfItems] at fits
      have readFirst := Stmt.read?_toJson form statement (show _ ≤ levels by omega)
      have readRest := Stmt.readList?_toJson form rest (show _ ≤ levels + 1 by omega)
      rw [Stmt.readList?] at readRest
      simp [Stmt.listToJson, Stmt.readList?, Stmt.listFloats, readFirst, readRest]
termination_by structural body

theorem Stmt.readBody?_toJson (form : CaseFields) (body : Option (List Stmt)) {levels : Nat}
    (fits : 3 * (Stmt.bodyToJson body).height + 1 ≤ levels) :
    Stmt.readBody? form levels (Stmt.read?.present (Stmt.bodyToJson body)) =
      readIf (Stmt.bodyFloats body) body := by
  obtain ⟨levels, rfl⟩ := Nat.exists_eq_add_one_of_ne_zero (show levels ≠ 0 by omega)
  cases body with
  | none => rfl
  | some body =>
      simp only [Stmt.bodyToJson, Json.height] at fits
      have readBody := Stmt.readList?_toJson form body (show _ ≤ levels by omega)
      simp [Stmt.bodyToJson, Stmt.read?.present, Stmt.readBody?, Stmt.bodyFloats, readBody]
termination_by structural body

end

/-! ## Units -/

@[simp]
theorem Json.word32?_integer (value : UInt32) :
    (Json.integer value.toNat).word32? = some value := by
  have small : (value.toNat : Int) < (twoTo 32 : Int) := Int.ofNat_lt.mpr value.toNat_lt
  have fits : 0 ≤ (value.toNat : Int) ∧ (value.toNat : Int) < (twoTo 32 : Int) :=
    ⟨Int.natCast_nonneg _, small⟩
  rw [Json.word32?, if_pos fits, Int.toNat_natCast, UInt32.ofNat_toNat]

theorem Position.ofJson?_object {line column : Json} {position : Position}
    (readLine : line.word32? = some position.line)
    (readColumn : column.word32? = some position.column) :
    Position.ofJson? (.object [("line", line), ("column", column)]) = some position := by
  simp [Position.ofJson?, readLine, readColumn]

theorem Position.ofJson?_toJson (position : Position) :
    Position.ofJson? position.toJson = some position :=
  Position.ofJson?_object (Json.word32?_integer _) (Json.word32?_integer _)

theorem SourceRange.ofJson?_object {start stop : Json} {range : SourceRange}
    (readStart : Position.ofJson? start = some range.start)
    (readStop : Position.ofJson? stop = some range.stop) :
    SourceRange.ofJson? (.object [("start", start), ("end", stop)]) = some range := by
  simp [SourceRange.ofJson?, readStart, readStop]

theorem SourceRange.ofJson?_toJson (range : SourceRange) :
    SourceRange.ofJson? range.toJson = some range :=
  SourceRange.ofJson?_object (Position.ofJson?_toJson _) (Position.ofJson?_toJson _)

theorem Stmt.ofJson?_toJson (form : CaseFields) (statement : Stmt) :
    Stmt.ofJson? form statement.toJson = readIf statement.floats statement :=
  Stmt.read?_toJson form statement (Nat.le_add_right _ _)

theorem Stmt.listToJson_eq (body : List Stmt) : Stmt.listToJson body = body.map Stmt.toJson := by
  induction body with
  | nil => rfl
  | cons statement rest ih => rw [Stmt.listToJson, ih, List.map_cons]

theorem Stmt.listFloats_eq (body : List Stmt) :
    Stmt.listFloats body = body.flatMap Stmt.floats := by
  induction body with
  | nil => rfl
  | cons statement rest ih => rw [Stmt.listFloats, ih, List.flatMap_cons]

theorem Stmt.listOfJson?_toJson (form : CaseFields) (body : List Stmt) :
    Stmt.listOfJson? form (.array (Stmt.listToJson body)) =
      readIf (Stmt.listFloats body) body := by
  rw [Stmt.listToJson_eq, Stmt.listFloats_eq]
  exact mapM_written (Stmt.ofJson?_toJson form) body

theorem FunctionDef.ofJson?_toJson (form : CaseFields) (function : FunctionDef) :
    FunctionDef.ofJson? form function.toJson =
      readIf (Stmt.listFloats function.body) function := by
  simp [FunctionDef.toJson, FunctionDef.ofJson?, Stmt.listOfJson?_toJson,
    SourceRange.ofJson?_toJson]

namespace ProgramUnit

theorem ofJson?_toJson (form : CaseFields) (unit : ProgramUnit) :
    ofJson? form unit.toJson = readIf unit.floats unit := by
  simp [toJson, ofJson?, floats, mapM_written (FunctionDef.ofJson?_toJson form)]

/-- The trees of units in a row are no unit, which would have its name first. -/
theorem ofJson?_array (form : CaseFields) (units : List ProgramUnit) :
    ofJson? form (.array (units.map toJson)) = none := by
  cases units with
  | nil => rfl
  | cons first rest =>
      rw [ofJson?, RecordFields.ofJson?]
      split <;> rfl

/-- The tree that units are written as. -/
def listToJson (units : List ProgramUnit) : Json := .array (units.map toJson)

theorem listOfJson?_listToJson (form : CaseFields) (units : List ProgramUnit) :
    listOfJson? form (listToJson units) = readIf (units.flatMap floats) units := by
  rw [listOfJson?, listToJson, Json.items?_array, Option.bind_some,
    mapM_written (ofJson?_toJson form), ofJson?_array]
  unfold readIf
  cases (units.flatMap floats).all Binary64.isFinite <;> rfl

theorem listOfJson?_toJson (form : CaseFields) (unit : ProgramUnit) :
    listOfJson? form unit.toJson = readIf unit.floats [unit] := by
  have single : unit.toJson.items? = none := rfl
  rw [listOfJson?, single, Option.bind_none, ofJson?_toJson, map_readIf]

end ProgramUnit

theorem readIf_eq_some_iff {α : Type} {floats : List Binary64} {value : α} :
    readIf floats value = some value ↔ ∀ number ∈ floats, number.isFinite = true := by
  simp [readIf, List.all_eq_true]

/-- A text holds a tree that is nested no deeper than programs may be, and nothing else but blanks
behind it. -/
def Json.HeldBy (tree : Json) (text : String) : Prop :=
  ∃ rest, Json.parse ProgramUnit.levels text = .ok (tree, rest) ∧ Json.skipSpace rest = []

theorem Json.HeldBy.units {tree : Json} {text : String} {units : List ProgramUnit}
    (held : tree.HeldBy text) (read : ProgramUnit.listOfJson? .namedOrOrdered tree = some units) :
    ProgramUnit.listOfText text = .ok units := by
  rcases held with ⟨rest, parsed, blank⟩
  rw [ProgramUnit.listOfText, parsed]
  simp [read, blank]

/-- Units are read back from the tree that they are written as, and one unit from its own tree as the
only unit of a list, exactly if all their floating-point literals are finite. Then a text that holds
such a tree is read as these units. -/
theorem units_read_back_iff_finite (units : List ProgramUnit) (unit : ProgramUnit) :
    (∀ form, ProgramUnit.listOfJson? form (ProgramUnit.listToJson units) = some units ↔
      ∀ number ∈ units.flatMap ProgramUnit.floats, number.isFinite = true) ∧
    (∀ form, ProgramUnit.listOfJson? form unit.toJson = some [unit] ↔
      ∀ number ∈ unit.floats, number.isFinite = true) ∧
    (∀ text, (ProgramUnit.listToJson units).HeldBy text →
      (∀ number ∈ units.flatMap ProgramUnit.floats, number.isFinite = true) →
        ProgramUnit.listOfText text = .ok units) ∧
    ∀ text, unit.toJson.HeldBy text → (∀ number ∈ unit.floats, number.isFinite = true) →
      ProgramUnit.listOfText text = .ok [unit] := by
  have together (form : CaseFields) :
      ProgramUnit.listOfJson? form (ProgramUnit.listToJson units) = some units ↔
        ∀ number ∈ units.flatMap ProgramUnit.floats, number.isFinite = true := by
    rw [ProgramUnit.listOfJson?_listToJson, readIf_eq_some_iff]
  have alone (form : CaseFields) :
      ProgramUnit.listOfJson? form unit.toJson = some [unit] ↔
        ∀ number ∈ unit.floats, number.isFinite = true := by
    rw [ProgramUnit.listOfJson?_toJson, readIf_eq_some_iff]
  refine ⟨together, alone, ?_, ?_⟩
  · intro text held finite
    exact held.units ((together _).mpr finite)
  · intro text held finite
    exact held.units ((alone _).mpr finite)

/-- A unit whose only function yields a negative zero and leaves a loop that it is not in. -/
def yieldingUnit : ProgramUnit :=
  ⟨"a", [], [⟨"f", ["x"], [.yieldValue (some (.literal (.float Binary64.zero.neg))), .breakLoop],
    .nowhere⟩]⟩

/-- The text of the unit. A zero behind a minus sign is no whole number, so it needs no point. -/
def yieldingText : String :=
  "\x7b\"name\":\"a\",\"namespace\":[],\"functions\":[\x7b\"name\":\"f\",\"params\":[\"x\"]," ++
    "\"body\":[\x7b\"Yield\":\x7b\"Literal\":\x7b\"Float\":-0\x7d\x7d\x7d,\"Break\"]," ++
    "\"range\":\x7b\"start\":\x7b\"line\":0,\"column\":0\x7d," ++
    "\"end\":\x7b\"line\":0,\"column\":0\x7d\x7d\x7d]\x7d"

set_option maxRecDepth 20000 in
theorem yieldingUnit_held : yieldingUnit.toJson.HeldBy yieldingText := by
  refine ⟨[], ?_, rfl⟩
  -- The text is taken apart first: `rfl` is quick on a list of characters and not on a string.
  have characters : yieldingText.toList = yieldingText.toList := rfl
  conv at characters =>
    rhs
    cbv
  rw [Json.parse, characters]
  rfl

/-- The unit is read back from its text, its number included. -/
theorem units_read_back_iff_finite_yielding :
    yieldingUnit.toJson.HeldBy yieldingText ∧ yieldingUnit.floats = [Binary64.zero.neg] ∧
      (∀ number ∈ yieldingUnit.floats, number.isFinite = true) ∧
        ProgramUnit.listOfText yieldingText = .ok [yieldingUnit] := by
  have floats : yieldingUnit.floats = [Binary64.zero.neg] := rfl
  have finite : ∀ number ∈ yieldingUnit.floats, number.isFinite = true := by
    rw [floats, List.forall_mem_singleton]
    rfl
  exact ⟨yieldingUnit_held, floats, finite,
    (units_read_back_iff_finite [] yieldingUnit).2.2.2 _ yieldingUnit_held finite⟩

end ScriptMachine
