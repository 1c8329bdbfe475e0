import ScriptMachine.Host.Registry
import ScriptMachine.Image.Encode

/-!
# Reading images

`read` takes an image apart without regard to a host. An image that is not trusted has to be full,
and its jumps have to stay inside the program. `decode` also checks that the functions and types
that the program is bound to are there.

Types nest, and each takes a byte, so the number of bytes bounds the recursion. Children of a node
come after it, so the tree is put together from the back; every node but the root has to be the
child of exactly one.
-/

namespace ScriptMachine

namespace Image

/-- A byte that says what follows, with its offset. -/
def discriminator : Read (Nat × Nat) := do
  let start ← Read.offset
  let value ← Read.byte
  return (value.toNat, start)

mutual

/-- A declared type. -/
def readType : Nat → Read TypeRef
  | 0 => do throw (.unexpectedEof (← get).total)
  | bound + 1 => do
      let (tag, start) ← discriminator
      match tag with
      | 0 => return .any
      | 1 => return .named (← Read.text)
      | 2 => return .nullable (← readType bound)
      | 3 => return .generic (← Read.text)
      | 4 => do
          let base ← Read.text
          let count ← Read.varint
          return .applied base (← readTypes bound count)
      | value => throw (.unknownDiscriminator "type" value start)

/-- So many declared types. -/
def readTypes : Nat → Nat → Read (List TypeRef)
  | _, 0 => return []
  | 0, _ + 1 => do throw (.unexpectedEof (← get).total)
  | bound + 1, count + 1 => do
      let first ← readType bound
      let rest ← readTypes bound count
      return first :: rest

end

/-- How often types can nest or follow each other in what is left. -/
def typeBound : Read Nat := return 2 * (← Read.remaining) + 2

def readConstant : Read Constant := do
  let (tag, start) ← discriminator
  match tag with
  | 0 => return .unit
  | 1 => return .bool (← Read.flag)
  | 2 => return .int (← Read.zigzag)
  | 3 => return .float (← Read.binary64)
  | 4 => return .str (← Read.text)
  | value => throw (.unknownDiscriminator "constant" value start)

def readFunctionRef : Read FunctionRef := do
  let path ← Read.texts
  let name ← Read.text
  return ⟨path, name⟩

def readBinding : Read (Option HostFunctionRef) := do
  if ← Read.flag then
    let name ← Read.text
    let count ← Read.varint
    let signature ← readTypes (← typeBound) count
    return some ⟨name, signature⟩
  return none

def readPosition : Read Position := do
  let line ← Read.word32
  let column ← Read.word32
  return ⟨UInt32.ofNat line, UInt32.ofNat column⟩

def readContext : Read DebugContext := do
  let unit ← Read.text
  let function ← Read.text
  let start ← readPosition
  let stop ← readPosition
  return ⟨unit, function, ⟨start, stop⟩⟩

def readBinaryOp : Read BinaryOp := do
  let (tag, start) ← discriminator
  match BinaryOp.all[tag]? with
  | some operator => return operator
  | none => throw (.unknownDiscriminator "binary operator" tag start)

def readUnaryOp : Read UnaryOp := do
  let (tag, start) ← discriminator
  match UnaryOp.all[tag]? with
  | some operator => return operator
  | none => throw (.unknownDiscriminator "unary operator" tag start)

def readInstruction : Read Instruction := do
  let (opcode, start) ← discriminator
  match opcode with
  | 0 => return .nop
  | 1 => return .pushConst (← readConstant)
  | 2 => return .loadLocal (← Read.word32)
  | 3 => return .storeLocal (← Read.word32)
  | 4 => return .loadGlobal (← Read.word32)
  | 5 => return .storeGlobal (← Read.word32)
  | 6 => return .pop
  | 7 => return .binary (← readBinaryOp)
  | 8 => return .unary (← readUnaryOp)
  | 9 => return .jump (← Read.varint)
  | 10 => return .jumpIfFalse (← Read.varint)
  | 11 => return .jumpIfFalseKeep (← Read.varint)
  | 12 => return .jumpIfTrueKeep (← Read.varint)
  | 13 => do
      let function ← readFunctionRef
      return .callFunction function (← Read.word32)
  | 14 => do
      let name ← Read.text
      let argc ← Read.word32
      return .callHost name argc (← readBinding)
  | 15 => do
      let name ← Read.text
      return .callMethod name (← Read.word32)
  | 16 => do
      let typeName ← Read.text
      let name ← Read.text
      let argc ← Read.word32
      return .callStatic typeName name argc (← Read.flag)
  | 17 => return .invokeClosure (← Read.word32)
  | 18 => return .makeClosure (← readFunctionRef)
  | 19 => return .loadField (← Read.text)
  | 20 => return .storeField (← Read.text)
  | 21 => do
      let typeName ← Read.text
      let name ← Read.text
      return .loadStatic typeName name (← Read.flag)
  | 22 => return .loadIndex
  | 23 => return .storeIndex
  | 24 => return .makeArray (← Read.word32)
  | 25 => return .getIterator
  | 26 => return .iterMoveNext
  | 27 => return .iterCurrent
  | 28 => return .yieldValue
  | 29 => return .returnValue (← Read.word32)
  | 30 => return .allocFrame (← Read.word32)
  | 31 => return .pushDebug (← readContext)
  | 32 => return .popDebug
  | 33 => return .checkStep
  | value => throw (.unknownDiscriminator "instruction" value start)

/-- A node as the image lists it: its functions, and its children by place. -/
structure ListedNode where
  functions : List (String × FunctionEntry)
  children : List (String × Nat)

def readEntry : Read (String × FunctionEntry) := do
  let name ← Read.text
  let offset ← Read.varint
  let arity ← Read.word32
  return (name, ⟨offset, arity⟩)

def readChild : Read (String × Nat) := do
  let name ← Read.text
  let place ← Read.varint
  return (name, place)

def readNode : Read ListedNode := do
  let functions ← Read.counted readEntry
  let children ← Read.counted readChild
  return ⟨functions, children⟩

/-- Takes the children of the node at `place` out of the nodes behind it. A child that is not there,
or is the child of another node already, makes the table malformed. -/
def claimChildren (place : Nat) :
    List (String × Nat) → Dictionary NamespaceNode → List (Option NamespaceNode) →
      Except ImageError (Dictionary NamespaceNode × List (Option NamespaceNode))
  | [], children, later => .ok (children, later)
  | (name, index) :: rest, children, later =>
      match (if place < index then later[index - place - 1]? else none) with
      | some (some child) =>
          claimChildren place rest (children.insert name child)
            (later.set (index - place - 1) none)
      | _ =>
          .error (.malformedNamespaceTable
            ("node " ++ toString place ++ " has invalid child index " ++ toString index))

/-- The trees of the nodes from `place` on, without those that are children of another. -/
def buildNodes : Nat → List ListedNode → Except ImageError (List (Option NamespaceNode))
  | _, [] => .ok []
  | place, node :: rest => do
      let later ← buildNodes (place + 1) rest
      let (children, later) ← claimChildren place node.children [] later
      return some (.mk (Dictionary.ofPairs node.functions) children) :: later

/-- The place of the first node, counted from `place` on, that is nobody's child. -/
def firstOrphan? (place : Nat) : List (Option NamespaceNode) → Option Nat
  | [] => none
  | some _ :: _ => some place
  | none :: rest => firstOrphan? (place + 1) rest

/-- The tree of listed nodes. -/
def buildNamespaces (nodes : List ListedNode) : Except ImageError NamespaceNode := do
  match ← buildNodes 0 nodes with
  | some root :: later =>
      match firstOrphan? 1 later with
      | none => return root
      | some orphan =>
          throw (.malformedNamespaceTable ("node " ++ toString orphan ++ " is unreachable"))
  | _ => throw (.malformedNamespaceTable "missing root node")

def readNamespaces : Read NamespaceNode := do
  let nodes ← Read.counted readNode
  buildNamespaces nodes

def readMetadataEntry : Read (String × String) := do
  let key ← Read.text
  let value ← Read.text
  return (key, value)

/-- The start of a full image, which holds the metadata. -/
def readHeader : Read (Dictionary String) := do
  let reader ← get
  match Read.split? mark.length reader.rest with
  | none => throw .invalidHeader
  | some _ =>
      let start ← Read.raw mark.length
      if start ≠ mark then throw .invalidHeader
      let found ← Read.varint
      if found ≠ version then throw (.unsupportedVersion found)
      return Dictionary.ofPairs (← Read.counted readMetadataEntry)

/-- The first jump that leaves the program, counted from `index` on. -/
def firstStrayJump? (size : Nat) : Nat → List Instruction → Option (Nat × Nat)
  | _, [] => none
  | index, instruction :: rest =>
      match instruction.jumpTarget? with
      | some target =>
          if size ≤ target then some (index, target) else firstStrayJump? size (index + 1) rest
      | none => firstStrayJump? size (index + 1) rest

/-- A whole image. -/
def readProgram (trusted : Bool) : Read Program := do
  let metadata ← if trusted then pure [] else readHeader
  let globals ← Read.texts
  let namespaces ← readNamespaces
  let instructions ← Read.counted readInstruction
  let remaining ← Read.remaining
  if 0 < remaining then throw (.trailingBytes remaining)
  if !trusted then
    if let some (index, target) := firstStrayJump? instructions.length 0 instructions then
      throw (.invalidJumpTarget index target)
  return ⟨instructions.toArray, namespaces, globals, metadata⟩

/-- The program that some bytes hold. -/
def read (bytes : Bytes) (trusted : Bool) : Except ImageError Program :=
  ((readProgram trusted).run (.ofBytes bytes)).1

/-- Checks what an instruction is bound to against a registry. -/
def checkBinding (registry : Registry) : Instruction → Except ImageError Unit
  | .callHost _ _ (some reference) =>
      if (registry.functionBySignature? reference.name reference.signature).isSome then .ok ()
      else .error (.unresolvedFunction reference.render)
  | .callStatic typeName _ _ true | .loadStatic typeName _ true =>
      if (registry.type? typeName).isSome then .ok () else .error (.unresolvedType typeName)
  | _ => .ok ()

/-- The program that some bytes hold, if a registry has all that it is bound to. -/
def decode (bytes : Bytes) (registry : Registry) (trusted : Bool) : Except ImageError Program := do
  let program ← read bytes trusted
  program.instructions.toList.forM (checkBinding registry)
  return program

end Image

end ScriptMachine
