import ScriptMachine.Image.Decode
import ScriptMachine.Proofs.Image.Reading

/-!
# Instructions in an image

What an image holds has to fit the places that it has for it: slots and counts of arguments have 32
bits, places in the program and lengths have 64. Whatever fits is read as what was written. The tag
in front leads the reader to the case that the writer was in.
-/

namespace ScriptMachine

mutual

/-- A declared type whose names and lists can be written. -/
def TypeRef.Fits : TypeRef → Prop
  | .any => True
  | .named name | .generic name => Text.Fits name
  | .nullable inner => inner.Fits
  | .applied base args => Text.Fits base ∧ args.length < twoTo 64 ∧ TypeRef.AllFit args

def TypeRef.AllFit : List TypeRef → Prop
  | [] => True
  | first :: rest => first.Fits ∧ TypeRef.AllFit rest

end

def Constant.Fits : Constant → Prop
  | .str text => Text.Fits text
  | _ => True

def FunctionRef.Fits (function : FunctionRef) : Prop :=
  function.path.length < twoTo 64 ∧ (∀ segment ∈ function.path, Text.Fits segment) ∧
    Text.Fits function.name

def HostFunctionRef.Fits (function : HostFunctionRef) : Prop :=
  Text.Fits function.name ∧ function.signature.length < twoTo 64 ∧
    TypeRef.AllFit function.signature

/-- An instruction whose operands are in their ranges. -/
def Instruction.Fits : Instruction → Prop
  | .pushConst constant => constant.Fits
  | .loadLocal number | .storeLocal number | .loadGlobal number | .storeGlobal number
  | .invokeClosure number | .makeArray number | .returnValue number | .allocFrame number =>
      number < twoTo 32
  | .jump target | .jumpIfFalse target | .jumpIfFalseKeep target | .jumpIfTrueKeep target =>
      target < twoTo 64
  | .callFunction function argc => function.Fits ∧ argc < twoTo 32
  | .callHost name argc binding =>
      Text.Fits name ∧ argc < twoTo 32 ∧ ∀ reference, binding = some reference → reference.Fits
  | .callMethod name argc => Text.Fits name ∧ argc < twoTo 32
  | .callStatic typeName name argc _ => Text.Fits typeName ∧ Text.Fits name ∧ argc < twoTo 32
  | .makeClosure function => function.Fits
  | .loadField name | .storeField name => Text.Fits name
  | .loadStatic typeName name _ => Text.Fits typeName ∧ Text.Fits name
  | .pushDebug context => Text.Fits context.unit ∧ Text.Fits context.function
  | _ => True

namespace Image

variable {α : Type}

/-- A tag leads on to what it stands for. -/
theorem reads_tagged {next : Nat × Nat → Read α} {tag : Nat} {bytes : Bytes} {value : α}
    (small : tag < 256) (reads : ∀ start, ReadsAs (next (tag, start)) bytes value) :
    ReadsAs (discriminator >>= next) (Bytes.byte tag ++ bytes) value := by
  intro rest offset
  have read := reads offset rest (offset + 1)
  rw [List.append_assoc, Read.run_bind]
  have tagged : discriminator.run ⟨Bytes.byte tag ++ (bytes ++ rest), offset⟩ =
      (.ok (tag, offset), ⟨bytes ++ rest, offset + 1⟩) := by
    change (Except.ok ((UInt8.ofNat tag).toNat, offset), _) = _
    rw [toNat_byte small]
    rfl
  rw [tagged]
  dsimp only
  rw [read, List.length_append, ← Nat.add_assoc]
  rfl

/-- A tag that stands for something by itself. -/
theorem reads_tag {next : Nat × Nat → Read α} {tag : Nat} {value : α} (small : tag < 256)
    (reads : ∀ start, next (tag, start) = pure value) :
    ReadsAs (discriminator >>= next) (Bytes.byte tag) value := by
  have read := @reads_tagged α next tag [] value small fun start => by
    rw [reads start]
    exact .pure value
  rwa [List.append_nil] at read

theorem length_byte (value : Nat) : (Bytes.byte value).length = 1 := rfl

/-! ## Types -/

theorem length_encodeType (type : TypeRef) : 1 ≤ (encodeType type).length := by
  cases type <;> simp [encodeType, length_byte]

mutual

/-- A type is read if the reader may go as deep as the bytes are long. -/
theorem reads_type : ∀ (type : TypeRef) (bound : Nat), type.Fits →
    2 * (encodeType type).length ≤ bound + 1 → ReadsAs (readType bound) (encodeType type) type
  | type, 0, _, enough => by
      have some := length_encodeType type
      omega
  | .any, bound + 1, _, _ => by
      rw [readType, encodeType]
      exact reads_tag (by decide) fun _ => rfl
  | .named name, bound + 1, fits, _ => by
      rw [readType, encodeType]
      exact reads_tagged (by decide) fun _ => (reads_text fits).map _
  | .nullable inner, bound + 1, fits, enough => by
      rw [readType, encodeType]
      simp only [encodeType, List.length_append, length_byte] at enough
      exact reads_tagged (by decide) fun _ =>
        (reads_type inner bound fits (by omega)).map _
  | .generic name, bound + 1, fits, _ => by
      rw [readType, encodeType]
      exact reads_tagged (by decide) fun _ => (reads_text fits).map _
  | .applied base args, bound + 1, fits, enough => by
      rcases fits with ⟨fitsBase, count, fitsArgs⟩
      simp only [encodeType, List.length_append, length_byte] at enough
      have types := reads_types args bound fitsArgs (by omega)
      rw [readType, encodeType, List.append_assoc, List.append_assoc]
      exact reads_tagged (by decide) fun _ =>
        (reads_text fitsBase).bind ((reads_varint count).bind (types.map _))

theorem reads_types : ∀ (types : List TypeRef) (bound : Nat), TypeRef.AllFit types →
    2 * (encodeTypes types).length ≤ bound →
      ReadsAs (readTypes bound types.length) (encodeTypes types) types
  | [], bound, _, _ => by
      cases bound <;> exact .pure []
  | first :: rest, 0, _, enough => by
      have some := length_encodeType first
      simp only [encodeTypes, List.length_append] at enough
      omega
  | first :: rest, bound + 1, fits, enough => by
      have some := length_encodeType first
      simp only [encodeTypes, List.length_append] at enough
      have one := reads_type first bound fits.1 (by omega)
      have others := reads_types rest bound fits.2 (by omega)
      exact one.bind (others.map _)

end

/-! ## Operands -/

theorem reads_constant {constant : Constant} (fits : constant.Fits) :
    ReadsAs readConstant (encodeConstant constant) constant := by
  cases constant with
  | unit => exact reads_tag (by decide) fun _ => rfl
  | bool value => exact reads_tagged (by decide) fun _ => (reads_flag value).map _
  | int value => exact reads_tagged (by decide) fun _ => (reads_zigzag value).map _
  | float value => exact reads_tagged (by decide) fun _ => (reads_binary64 value).map _
  | str text => exact reads_tagged (by decide) fun _ => (reads_text fits).map _

theorem reads_functionRef {function : FunctionRef} (fits : function.Fits) :
    ReadsAs readFunctionRef (encodeFunctionRef function) function := by
  rcases fits with ⟨count, fitsPath, fitsName⟩
  exact (reads_texts count fitsPath).bind ((reads_text fitsName).map _)

/-- The signature may be as long as what follows it allows, which holds the signature itself. -/
theorem reads_signature {types : List TypeRef} (fits : TypeRef.AllFit types) :
    ReadsAs (typeBound >>= fun bound => readTypes bound types.length) (encodeTypes types) types := by
  intro rest offset
  have enough : 2 * (encodeTypes types).length ≤ 2 * (encodeTypes types ++ rest).length + 2 := by
    rw [List.length_append]
    omega
  have reads := reads_types types _ fits enough
  rw [Read.run_bind]
  exact reads rest offset

theorem reads_binding {binding : Option HostFunctionRef}
    (fits : ∀ reference, binding = some reference → reference.Fits) :
    ReadsAs readBinding (encodeBinding binding) binding := by
  unfold readBinding
  cases binding with
  | none =>
      have reads := (reads_flag false).map fun _ => (none : Option HostFunctionRef)
      intro rest offset
      exact reads rest offset
  | some reference =>
      rcases fits reference rfl with ⟨fitsName, count, fitsTypes⟩
      have signature := (reads_signature fitsTypes).map fun signature =>
        some (⟨reference.name, signature⟩ : HostFunctionRef)
      simp only [bind_assoc] at signature
      simp only [encodeBinding, List.append_assoc]
      apply (reads_flag true).bind
      apply (reads_text fitsName).bind
      apply (reads_varint count).bind
      exact signature

theorem reads_position (position : Position) :
    ReadsAs readPosition (encodePosition position) position := by
  have line := reads_word32 (Nat.lt_of_lt_of_eq position.line.toNat_lt rfl)
  have column := reads_word32 (Nat.lt_of_lt_of_eq position.column.toNat_lt rfl)
  have reads : ReadsAs readPosition (encodePosition position)
      ⟨UInt32.ofNat position.line.toNat, UInt32.ofNat position.column.toNat⟩ :=
    line.bind (column.map _)
  simp only [UInt32.ofNat_toNat] at reads
  exact reads

theorem reads_context {context : DebugContext} (fitsUnit : Text.Fits context.unit)
    (fitsFunction : Text.Fits context.function) :
    ReadsAs readContext (encodeContext context) context := by
  unfold encodeContext
  simp only [List.append_assoc]
  apply (reads_text fitsUnit).bind
  apply (reads_text fitsFunction).bind
  apply (reads_position context.range.start).bind
  exact (reads_position context.range.stop).map _

theorem reads_binaryOp (operator : BinaryOp) :
    ReadsAs readBinaryOp (Bytes.byte (binaryTag operator)) operator := by
  cases operator <;> exact reads_tag (by decide) fun _ => rfl

theorem reads_unaryOp (operator : UnaryOp) :
    ReadsAs readUnaryOp (Bytes.byte (unaryTag operator)) operator := by
  cases operator <;> exact reads_tag (by decide) fun _ => rfl

/-! ## Instructions -/

/-- Every instruction is read as what it is. -/
theorem reads_instruction {instruction : Instruction} (fits : instruction.Fits) :
    ReadsAs readInstruction (encodeInstruction instruction) instruction := by
  cases instruction with
  | nop | pop | loadIndex | storeIndex | getIterator | iterMoveNext | iterCurrent | yieldValue
  | popDebug | checkStep => exact reads_tag (by decide) fun _ => rfl
  | loadLocal | storeLocal | loadGlobal | storeGlobal | invokeClosure | makeArray | returnValue
  | allocFrame => exact reads_tagged (by decide) fun _ => (reads_word32 fits).map _
  | jump | jumpIfFalse | jumpIfFalseKeep | jumpIfTrueKeep =>
      exact reads_tagged (by decide) fun _ => (reads_varint fits).map _
  | pushConst => exact reads_tagged (by decide) fun _ => (reads_constant fits).map _
  | binary operator => exact reads_tagged (by decide) fun _ => (reads_binaryOp operator).map _
  | unary operator => exact reads_tagged (by decide) fun _ => (reads_unaryOp operator).map _
  | makeClosure => exact reads_tagged (by decide) fun _ => (reads_functionRef fits).map _
  | loadField | storeField => exact reads_tagged (by decide) fun _ => (reads_text fits).map _
  | pushDebug => exact reads_tagged (by decide) fun _ => (reads_context fits.1 fits.2).map _
  | callFunction =>
      rw [encodeInstruction, List.append_assoc]
      apply reads_tagged (by decide)
      intro start
      exact (reads_functionRef fits.1).bind ((reads_word32 fits.2).map _)
  | callHost =>
      rcases fits with ⟨fitsName, fitsArgc, fitsBinding⟩
      simp only [encodeInstruction, List.append_assoc]
      apply reads_tagged (by decide)
      intro start
      exact (reads_text fitsName).bind
        ((reads_word32 fitsArgc).bind ((reads_binding fitsBinding).map _))
  | callMethod =>
      rw [encodeInstruction, List.append_assoc]
      apply reads_tagged (by decide)
      intro start
      exact (reads_text fits.1).bind ((reads_word32 fits.2).map _)
  | callStatic typeName name argc bound =>
      rcases fits with ⟨fitsType, fitsName, fitsArgc⟩
      simp only [encodeInstruction, List.append_assoc]
      apply reads_tagged (by decide)
      intro start
      exact (reads_text fitsType).bind
        ((reads_text fitsName).bind ((reads_word32 fitsArgc).bind ((reads_flag bound).map _)))
  | loadStatic typeName name bound =>
      rcases fits with ⟨fitsType, fitsName⟩
      simp only [encodeInstruction, List.append_assoc]
      apply reads_tagged (by decide)
      intro start
      exact (reads_text fitsType).bind ((reads_text fitsName).bind ((reads_flag bound).map _))

end Image

end ScriptMachine
