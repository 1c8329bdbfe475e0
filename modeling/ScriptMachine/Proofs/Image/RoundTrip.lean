import ScriptMachine.Proofs.Balance.Runs
import ScriptMachine.Proofs.Image.Bindings
import ScriptMachine.Proofs.Image.Instructions
import ScriptMachine.Proofs.Image.Namespaces

/-!
# Images and their programs

An image holds the program that it was made from: reading it gives the program back, and for a
compiled program so does decoding it against the registry that the program is bound to, or any that
has grown from it.
-/

namespace ScriptMachine

/-- A program whose parts have the ranges that an image has places for, and whose dictionaries are
in order. -/
structure Program.Fits (program : Program) : Prop where
  size : program.size < twoTo 64
  instructions : ∀ instruction ∈ program.instructions.toList, instruction.Fits
  nodes : Image.nodeCount program.namespaces < twoTo 64
  namespaces : program.namespaces.Fits
  globalCount : program.globals.length < twoTo 64
  globals : ∀ name ∈ program.globals, Text.Fits name
  metadataCount : program.metadata.length < twoTo 64
  metadataOrdered : program.metadata.Ordered
  metadata : ∀ entry ∈ program.metadata, Text.Fits entry.1 ∧ Text.Fits entry.2

/-- A program whose jumps all stay inside it. -/
def Program.JumpsInside (program : Program) : Prop :=
  ∀ instruction ∈ program.instructions.toList, ∀ target,
    instruction.jumpTarget? = some target → target < program.size

namespace Read

variable {α : Type} {reader : ByteReader}

theorem run_get_bind (next : ByteReader → Read α) :
    (get >>= next).run reader = (next reader).run reader := rfl

theorem run_remaining_bind (next : Nat → Read α) :
    (Read.remaining >>= next).run reader = (next reader.remaining).run reader := rfl

end Read

namespace Image

theorem firstStrayJump?_none {size index : Nat} {instructions : List Instruction}
    (inside : ∀ instruction ∈ instructions, ∀ target,
      instruction.jumpTarget? = some target → target < size) :
    firstStrayJump? size index instructions = none := by
  induction instructions generalizing index with
  | nil => rfl
  | cons first rest ih =>
      have others := @ih (index + 1) fun instruction member =>
        inside instruction (List.mem_cons_of_mem _ member)
      rw [firstStrayJump?]
      split
      · rename_i target jumps
        have below := inside first List.mem_cons_self target jumps
        rw [if_neg (Nat.not_le.mpr below)]
        exact others
      · exact others

theorem reads_metadata {metadata : Dictionary String} (count : metadata.length < twoTo 64)
    (fits : ∀ entry ∈ metadata, Text.Fits entry.1 ∧ Text.Fits entry.2) :
    ReadsAs (Read.counted readMetadataEntry) (encodeMetadata metadata) metadata := by
  apply reads_counted count
  intro entry member
  exact (reads_text (fits entry member).1).bind ((reads_text (fits entry member).2).map _)

/-- The start of a full image is read as the metadata. -/
theorem reads_header {metadata : Dictionary String} (count : metadata.length < twoTo 64)
    (ordered : metadata.Ordered)
    (fits : ∀ entry ∈ metadata, Text.Fits entry.1 ∧ Text.Fits entry.2) :
    ReadsAs readHeader (mark ++ Bytes.varint version ++ encodeMetadata metadata) metadata := by
  have behind : ReadsAs (do
      let found ← Read.varint
      if found ≠ version then throw (.unsupportedVersion found)
      return Dictionary.ofPairs (← Read.counted readMetadataEntry))
      (Bytes.varint version ++ encodeMetadata metadata) metadata := by
    have read := (reads_metadata count fits).map Dictionary.ofPairs
    rw [Dictionary.ofPairs_ordered ordered] at read
    exact (reads_varint (by decide)).bind read
  intro rest offset
  unfold readHeader
  rw [Read.run_get_bind]
  simp only [List.append_assoc, split?_append]
  rw [Read.run_bind, reads_raw]
  dsimp only
  rw [if_neg (not_not_intro rfl), ← List.append_assoc, behind]
  simp only [List.length_append, Nat.add_assoc]

/-- Reads the part that every image has. -/
def readBody (trusted : Bool) (metadata : Dictionary String) : Read Program := do
  let globals ← Read.texts
  let namespaces ← readNamespaces
  let instructions ← Read.counted readInstruction
  let remaining ← Read.remaining
  if 0 < remaining then throw (.trailingBytes remaining)
  if !trusted then
    if let some (index, target) := firstStrayJump? instructions.length 0 instructions then
      throw (.invalidJumpTarget index target)
  return ⟨instructions.toArray, namespaces, globals, metadata⟩

theorem readProgram_eq (trusted : Bool) :
    readProgram trusted = (if trusted then pure [] else readHeader) >>= readBody trusted := by
  cases trusted <;> rfl

variable {program : Program}

theorem run_readBody (fits : program.Fits) {trusted : Bool}
    (inside : trusted = false → program.JumpsInside) (metadata : Dictionary String)
    (offset : Nat) :
    ((readBody trusted metadata).run ⟨encodeBody program, offset⟩).1 =
      .ok { program with metadata := metadata } := by
  have globals := reads_texts fits.globalCount fits.globals
  have namespaces := reads_namespaces fits.namespaces fits.nodes
  have instructions := @reads_counted _ readInstruction encodeInstruction
    program.instructions.toList (by rw [Array.length_toList]; exact fits.size)
    fun instruction member => reads_instruction (fits.instructions instruction member)
  rw [Array.length_toList] at instructions
  have ended := instructions []
  rw [List.append_nil] at ended
  unfold readBody encodeBody
  simp only [List.append_assoc]
  rw [Read.run_bind, globals]
  dsimp only
  rw [Read.run_bind, namespaces]
  dsimp only
  rw [Read.run_bind, ended]
  dsimp only
  cases trusted with
  | true => rfl
  | false =>
      have none := @firstStrayJump?_none _ 0 _ (inside rfl)
      rw [Program.size, ← Array.length_toList] at none
      rw [Read.run_remaining_bind]
      simp only [ByteReader.remaining, List.length_nil, Nat.lt_irrefl, if_false, none]
      rfl

theorem read_full (fits : program.Fits) (inside : program.JumpsInside) :
    read (encode program false) false = .ok program := by
  have header := reads_header fits.metadataCount fits.metadataOrdered fits.metadata
  rw [read, readProgram_eq, ByteReader.ofBytes, encode, Read.run_bind]
  simp only [Bool.false_eq_true, if_false]
  rw [header]
  exact run_readBody fits (fun _ => inside) _ _

theorem read_compact (fits : program.Fits) :
    read (encode program true) true = .ok { program with metadata := [] } := by
  rw [read, readProgram_eq, ByteReader.ofBytes, encode, Read.run_bind]
  exact run_readBody fits (fun untrusted => Bool.noConfusion untrusted) _ _

theorem decode_ok {bytes : Bytes} {registry : Registry} {trusted : Bool}
    (found : read bytes trusted = .ok program)
    (checked : program.instructions.toList.forM (checkBinding registry) = .ok ()) :
    decode bytes registry trusted = .ok program := by
  unfold decode
  simp only [found, checked, bind, Except.bind]
  rfl

end Image

/-! ## Compiled programs -/

theorem Checked.jumps {context : CodeContext} {label : Nat → Point → Prop}
    {instruction : Instruction} {before : Point} {after : Option Point}
    (checked : Checked context label instruction before after) {target : Nat}
    (jumps : instruction.jumpTarget? = some target) : ∃ point, label target point := by
  cases checked with
  | plain effect =>
      cases instruction with
      | jump | jumpIfFalse | jumpIfFalseKeep | jumpIfTrueKeep => cases effect
      | _ => cases jumps
  | jump there | jumpIfFalse there | jumpIfFalseKeep there | jumpIfTrueKeep there =>
      cases jumps
      exact ⟨_, there⟩
  | _ => cases jumps

/-- No jump of a compiled program leaves it. -/
theorem Program.Charted.jumpsInside {program : Program} {chart : Chart}
    (charted : program.Charted chart) : program.JumpsInside := by
  intro instruction member target jumps
  rcases List.getElem_of_mem member with ⟨ip, below, rfl⟩
  rw [Array.length_toList] at below
  rcases Option.isSome_iff_exists.mp (charted.total ip below) with ⟨⟨shape, point⟩, here⟩
  rcases charted.checked ip shape point here with ⟨instruction, next, found, checked, _⟩
  rw [Array.getElem_toList] at jumps
  rw [Array.getElem?_eq_getElem below] at found
  cases found
  rcases checked.jumps jumps with ⟨there, target⟩
  rcases charted.checked _ _ _ target with ⟨_, _, found, _⟩
  rcases Array.getElem?_eq_some_iff.mp found with ⟨inside, _⟩
  exact inside

theorem Program.bind_jumpsInside {program : Program} (registry : Registry)
    (inside : program.JumpsInside) : (program.bind registry).JumpsInside := by
  intro instruction member target jumps
  simp only [Program.bind, Array.toList_map, List.mem_map] at member
  rcases member with ⟨original, isOriginal, rfl⟩
  rw [Instruction.jumpTarget?_bind] at jumps
  have below := inside original isOriginal target jumps
  simpa [Program.size, Program.bind] using below

theorem Program.Compiled.checkBindings {units : List ProgramUnit} {globals : List String}
    {program : Program} {placed : List Placement}
    (compiled : program.Compiled units globals placed) {registry later : Registry}
    (made : Registry.empty.Grows registry) (grows : registry.Grows later) :
    (program.bind registry).instructions.toList.forM (Image.checkBinding later) = .ok () := by
  have unbound := compiled.isUnbound
  simp only [Program.bind, Array.toList_map]
  generalize program.instructions.toList = instructions at unbound
  induction instructions with
  | nil => rfl
  | cons first rest ih =>
      have checked := Instruction.checkBinding_bind made grows (unbound first List.mem_cons_self)
      have others := ih fun instruction member =>
        unbound instruction (List.mem_cons_of_mem _ member)
      change (Image.checkBinding later _ >>= fun _ => List.forM _ _) = _
      rw [checked]
      exact others

/-- A full image of a program whose jumps stay inside it, and a compact image of any program, are
read as the program, the latter without its metadata. A compiled program that was bound to a
registry is decoded from either against that registry and whatever registrations make of it. -/
theorem image_round_trip {program : Program} (fits : program.Fits) :
    (program.JumpsInside → Image.read (Image.encode program false) false = .ok program) ∧
    Image.read (Image.encode program true) true = .ok { program with metadata := [] } ∧
    ∀ units globals compiled registry later, compileUnits units globals = .ok compiled →
      Registry.empty.Grows registry → program = compiled.bind registry → registry.Grows later →
      Image.decode (Image.encode program false) later false = .ok program ∧
      Image.decode (Image.encode program true) later true =
        .ok { program with metadata := [] } := by
  refine ⟨Image.read_full fits, Image.read_compact fits, ?_⟩
  rintro units globals compiled registry later accepted made rfl grows
  rcases compileUnits_ok accepted with ⟨placed, row⟩
  rcases row.charted with ⟨chart, charted⟩
  have inside := Program.bind_jumpsInside registry charted.jumpsInside
  have checked := row.checkBindings made grows
  exact ⟨Image.decode_ok (Image.read_full fits inside) checked,
    Image.decode_ok (Image.read_compact fits) checked⟩

namespace Sample

/-- A function with a loop that asks a type of the host and calls a function of the host. -/
def hostedUnits : List ProgramUnit :=
  [⟨"hosted", ["demo"],
    [⟨"main", [], [.whileLoop (.methodCall (.var "Clock") "runs" [])
      [.expr (.call [] "beep" [.literal (.int 1)])]], .nowhere⟩]⟩]

def beep : HostFunction := .ofTypes "beep" [.named "int"] fun _ store => (.ok .unit, store)

def hostedRegistry : Registry :=
  (Registry.empty.registerFunction beep).registerType (.ofName "Clock")

def hosted (binding : Option HostFunctionRef) (bound : Bool) : Program where
  instructions := #[
    .allocFrame 0, .pushDebug ⟨"hosted", "demo.main", .nowhere⟩, .callStatic "Clock" "runs" 0 bound,
    .jumpIfFalse 8, .pushConst (.int 1), .callHost "beep" 1 binding, .pop, .jump 2,
    .pushConst .unit, .popDebug, .returnValue 0]
  namespaces := .mk [] [("demo", .mk [("main", ⟨0, 0⟩)] [])]
  globals := []
  metadata := [("compiler", compilerName), ("units", "hosted")]

theorem hosted_accepted : compileUnits hostedUnits [] = .ok (hosted none false) := rfl

theorem hosted_bound :
    hosted (some beep.reference) true = (hosted none false).bind hostedRegistry := by
  have function : hostedRegistry.overloads "beep" = [beep] := rfl
  have type : (hostedRegistry.type? "Clock").isSome = true := rfl
  simp [Program.bind, hosted, Instruction.bind?, function, type]

theorem hosted_fits : (hosted (some beep.reference) true).Fits where
  size := by decide
  instructions := by
    have binding : beep.reference.Fits := by
      have signature : beep.reference = ⟨"beep", [.named "int"]⟩ := rfl
      simp only [signature, HostFunctionRef.Fits, TypeRef.AllFit, TypeRef.Fits, Text.Fits]
      decide
    simp only [hosted, List.forall_mem_cons, Instruction.Fits, Constant.Fits, Text.Fits,
      Option.some.injEq, forall_eq', binding, List.not_mem_nil, false_implies, implies_true]
    decide
  nodes := by decide
  namespaces := by
    simp only [hosted, NamespaceNode.Fits, NamespaceNode.AllFit, FunctionEntry.Fits, Text.Fits,
      Dictionary.Ordered, List.forall_mem_cons, List.not_mem_nil, false_implies, implies_true]
    decide
  globalCount := by decide
  globals := by simp [hosted]
  metadataCount := by decide
  metadataOrdered := by
    unfold Dictionary.Ordered
    decide
  metadata := by
    simp only [hosted, List.forall_mem_cons, Text.Fits, List.not_mem_nil, false_implies,
      implies_true]
    decide

end Sample

theorem image_round_trip_hosted :
    Sample.hosted (some Sample.beep.reference) true =
        (Sample.hosted none false).bind Sample.hostedRegistry ∧
      Image.decode (Image.encode (Sample.hosted (some Sample.beep.reference) true) false)
        (Sample.hostedRegistry.registerFunction Sample.beep) false =
          .ok (Sample.hosted (some Sample.beep.reference) true) :=
  ⟨Sample.hosted_bound,
    ((image_round_trip Sample.hosted_fits).2.2 Sample.hostedUnits [] _ Sample.hostedRegistry _
      Sample.hosted_accepted (.type (.function .refl Sample.beep) (.ofName "Clock"))
      Sample.hosted_bound (.function .refl Sample.beep)).1⟩

end ScriptMachine
