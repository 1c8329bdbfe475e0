import ScriptMachine.Image.Bytes
import ScriptMachine.Program.Basic

/-!
# Writing images

An image is the globals, the namespaces and the instructions of a program. A full image starts with
a mark, a version and the metadata; a compact one leaves these out.

Namespaces are written level by level from the root. Each node lists its functions, and its children
with the place that they have in that order.
-/

namespace ScriptMachine

namespace Image

/-- The bytes that a full image starts with. -/
def mark : Bytes := "MRNI".toUTF8.toList

def version : Nat := 1

mutual

/-- The bytes of a declared type. -/
def encodeType : TypeRef → Bytes
  | .any => Bytes.byte 0
  | .named name => Bytes.byte 1 ++ Bytes.text name
  | .nullable inner => Bytes.byte 2 ++ encodeType inner
  | .generic name => Bytes.byte 3 ++ Bytes.text name
  | .applied base args =>
      Bytes.byte 4 ++ Bytes.text base ++ Bytes.varint args.length ++ encodeTypes args

def encodeTypes : List TypeRef → Bytes
  | [] => []
  | item :: rest => encodeType item ++ encodeTypes rest

end

def encodeConstant : Constant → Bytes
  | .unit => Bytes.byte 0
  | .bool value => Bytes.byte 1 ++ Bytes.flag value
  | .int value => Bytes.byte 2 ++ Bytes.zigzag value
  | .float value => Bytes.byte 3 ++ Bytes.binary64 value
  | .str text => Bytes.byte 4 ++ Bytes.text text

def encodeFunctionRef (function : FunctionRef) : Bytes :=
  Bytes.texts function.path ++ Bytes.text function.name

def encodeBinding : Option HostFunctionRef → Bytes
  | none => Bytes.flag false
  | some binding =>
      Bytes.flag true ++ Bytes.text binding.name ++ Bytes.varint binding.signature.length ++
        encodeTypes binding.signature

def encodePosition (position : Position) : Bytes :=
  Bytes.varint position.line.toNat ++ Bytes.varint position.column.toNat

def encodeContext (context : DebugContext) : Bytes :=
  Bytes.text context.unit ++ Bytes.text context.function ++ encodePosition context.range.start ++
    encodePosition context.range.stop

/-- The place of an operator in the order of declaration. -/
def binaryTag (operator : BinaryOp) : Nat := BinaryOp.all.idxOf operator

def unaryTag (operator : UnaryOp) : Nat := UnaryOp.all.idxOf operator

def encodeInstruction : Instruction → Bytes
  | .nop => Bytes.byte 0
  | .pushConst constant => Bytes.byte 1 ++ encodeConstant constant
  | .loadLocal slot => Bytes.byte 2 ++ Bytes.varint slot
  | .storeLocal slot => Bytes.byte 3 ++ Bytes.varint slot
  | .loadGlobal slot => Bytes.byte 4 ++ Bytes.varint slot
  | .storeGlobal slot => Bytes.byte 5 ++ Bytes.varint slot
  | .pop => Bytes.byte 6
  | .binary operator => Bytes.byte 7 ++ Bytes.byte (binaryTag operator)
  | .unary operator => Bytes.byte 8 ++ Bytes.byte (unaryTag operator)
  | .jump target => Bytes.byte 9 ++ Bytes.varint target
  | .jumpIfFalse target => Bytes.byte 10 ++ Bytes.varint target
  | .jumpIfFalseKeep target => Bytes.byte 11 ++ Bytes.varint target
  | .jumpIfTrueKeep target => Bytes.byte 12 ++ Bytes.varint target
  | .callFunction function argc =>
      Bytes.byte 13 ++ encodeFunctionRef function ++ Bytes.varint argc
  | .callHost name argc binding =>
      Bytes.byte 14 ++ Bytes.text name ++ Bytes.varint argc ++ encodeBinding binding
  | .callMethod name argc => Bytes.byte 15 ++ Bytes.text name ++ Bytes.varint argc
  | .callStatic typeName name argc bound =>
      Bytes.byte 16 ++ Bytes.text typeName ++ Bytes.text name ++ Bytes.varint argc ++
        Bytes.flag bound
  | .invokeClosure argc => Bytes.byte 17 ++ Bytes.varint argc
  | .makeClosure function => Bytes.byte 18 ++ encodeFunctionRef function
  | .loadField name => Bytes.byte 19 ++ Bytes.text name
  | .storeField name => Bytes.byte 20 ++ Bytes.text name
  | .loadStatic typeName name bound =>
      Bytes.byte 21 ++ Bytes.text typeName ++ Bytes.text name ++ Bytes.flag bound
  | .loadIndex => Bytes.byte 22
  | .storeIndex => Bytes.byte 23
  | .makeArray count => Bytes.byte 24 ++ Bytes.varint count
  | .getIterator => Bytes.byte 25
  | .iterMoveNext => Bytes.byte 26
  | .iterCurrent => Bytes.byte 27
  | .yieldValue => Bytes.byte 28
  | .returnValue params => Bytes.byte 29 ++ Bytes.varint params
  | .allocFrame locals => Bytes.byte 30 ++ Bytes.varint locals
  | .pushDebug context => Bytes.byte 31 ++ encodeContext context
  | .popDebug => Bytes.byte 32
  | .checkStep => Bytes.byte 33

mutual

/-- The number of nodes of a tree. -/
def nodeCount : NamespaceNode → Nat
  | .mk _ children => 1 + childCount children

def childCount : List (String × NamespaceNode) → Nat
  | [] => 0
  | (_, child) :: rest => nodeCount child + childCount rest

end

/-- The nodes of some trees level by level. The bound is the number of all nodes. -/
def levelOrder : Nat → List NamespaceNode → List NamespaceNode
  | 0, _ => []
  | _, [] => []
  | bound + 1, node :: rest =>
      node :: levelOrder bound (rest ++ node.children.map Prod.snd)

def encodeEntry (function : String × FunctionEntry) : Bytes :=
  Bytes.text function.1 ++ Bytes.varint function.2.offset ++ Bytes.varint function.2.arity

/-- The names of children, each with its place, counted from `place` on. -/
def encodeChildren : Nat → List String → Bytes
  | _, [] => []
  | place, name :: rest =>
      Bytes.text name ++ Bytes.varint place ++ encodeChildren (place + 1) rest

/-- The nodes in order; `place` is that of the next child. -/
def encodeNodes : Nat → List NamespaceNode → Bytes
  | _, [] => []
  | place, node :: rest =>
      Bytes.varint node.functions.length ++ node.functions.flatMap encodeEntry ++
        Bytes.varint node.children.length ++ encodeChildren place node.children.names ++
        encodeNodes (place + node.children.length) rest

def encodeNamespaces (root : NamespaceNode) : Bytes :=
  let nodes := levelOrder (nodeCount root) [root]
  Bytes.varint nodes.length ++ encodeNodes 1 nodes

def encodeMetadata (metadata : Dictionary String) : Bytes :=
  Bytes.varint metadata.length ++
    metadata.flatMap fun entry => Bytes.text entry.1 ++ Bytes.text entry.2

/-- The part that every image has. -/
def encodeBody (program : Program) : Bytes :=
  Bytes.texts program.globals ++ encodeNamespaces program.namespaces ++
    Bytes.varint program.instructions.size ++
    program.instructions.toList.flatMap encodeInstruction

/-- The image of a program, full or compact. -/
def encode (program : Program) (compact : Bool) : Bytes :=
  if compact then encodeBody program
  else mark ++ Bytes.varint version ++ encodeMetadata program.metadata ++ encodeBody program

end Image

end ScriptMachine
