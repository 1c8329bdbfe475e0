import ScriptMachine.Proofs.Balance.Programs
import ScriptMachine.Proofs.Compiler.Closures
import ScriptMachine.Proofs.Compiler.Directories

/-!
# The blocks of a program

The instructions of a compiled program are one block for each function that its namespaces list. A
block sets up the frame and notes the function for fault reports, and it is left only by returns
that end this note and know how many arguments the frame holds. Its loads and stores keep to the
arguments and to the locals that the frame is set up with.

How many locals there are is known only behind the body, and the slots are taken all over it. That
they are enough is read off the points that the block is checked with, and what stands before a
return off the pieces that the block is put together from. Which function a place belongs to can be
told by the offsets of the listed functions alone, as these have names of their own and their blocks
stand in a row.
-/

namespace ScriptMachine

/-! ## The code of a function -/

/-- The code of a listed function. It sets up the frame and notes the name of the function, ends
with a return for its arguments, has no returns of another kind, and uses only slots of the frame.
-/
structure FunctionListing.Owns (listing : FunctionListing) (code : List Instruction) : Prop where
  opens : ∃ locals context rest, code = .allocFrame locals :: .pushDebug context :: rest ∧
    context.function = qualifiedName listing.path listing.name ∧
    ∀ slot, .loadLocal slot ∈ code ∨ .storeLocal slot ∈ code →
      slot < listing.entry.arity ∨
        listing.entry.arity + 2 ≤ slot ∧ slot < listing.entry.arity + 2 + locals
  ends : code.getLast? = some (.returnValue listing.entry.arity)
  returns : ∀ front params back, code = front ++ .returnValue params :: back →
    params = listing.entry.arity ∧ ∃ earlier, front = earlier ++ [.popDebug]

section Checks

variable {context : CodeContext} {label : Nat → Point → Prop} {before : Point}
  {after : Option Point}

theorem Checked.locals_eq {locals : Nat}
    (checked : Checked context label (.allocFrame locals) before after) :
    locals = context.shape.locals := by
  cases checked with
  | plain effect => cases effect
  | allocFrame => rfl

/-- A checked instruction keeps to the arguments, the carrier included, and the locals. -/
theorem Checked.slot_bounds {instruction : Instruction} {slot : Nat}
    (checked : Checked context label instruction before after)
    (uses : instruction = .loadLocal slot ∨ instruction = .storeLocal slot) :
    slot < context.shape.arity ∨ context.shape.arity + 2 ≤ slot ∧
      slot < context.shape.arity + 2 + context.shape.locals := by
  have bounds (valid : context.shape.HasSlot slot) : slot < context.shape.arity ∨
      context.shape.arity + 2 ≤ slot ∧
        slot < context.shape.arity + 2 + context.shape.locals := by
    rcases valid with argument | ownLocal
    · exact .inl argument.2
    · exact .inr ownLocal
  rcases uses with rfl | rfl
  · cases checked with
    | plain effect => cases effect
    | loadLocal valid => exact bounds valid
    | loadIterator valid => exact bounds valid
    | loadCarrier keeps =>
        exact .inl (Nat.lt_of_lt_of_le keeps (Nat.le_add_left _ _))
  · cases checked with
    | plain effect => cases effect
    | storeLocal valid => exact bounds valid
    | storeIterator valid => exact bounds valid

/-- What is checked piece by piece is checked at each place. -/
theorem Segment.exists_checked {position : Nat} {code : List Instruction} {stop : Point}
    (segment : Segment context label none position (.ofInstructions code) before stop)
    {index : Nat} {instruction : Instruction} (found : code[index]? = some instruction) :
    ∃ wider here next, Checked context wider instruction here next := by
  rcases segment with ⟨points, _, _, checked⟩
  have cell : (Code.ofInstructions code)[index]? = some (.ready instruction) := by
    rw [Code.ofInstructions, List.getElem?_map, found]
    rfl
  rcases checked index _ cell with ⟨next, cellChecked, _⟩
  cases cellChecked with
  | ready checked => exact ⟨_, _, _, checked⟩

end Checks

theorem Frame.Emits.ne_returnValue {frame : Frame} {instruction : Instruction}
    (emits : frame.Emits instruction) (params : Nat) : instruction ≠ .returnValue params := by
  cases emits with
  | plain isPlain =>
      rintro rfl
      cases isPlain
  | loadLocal => exact Instruction.noConfusion
  | storeLocal => exact Instruction.noConfusion
  | call =>
      unfold callInstruction
      split <;> exact Instruction.noConfusion

section Functions

variable {linkage : Linkage} {position : Nat} {source : FunctionSource} {code : List Instruction}
  {actions : List FunctionSource}

/-- A function sets up a frame that has the slots it uses. -/
theorem slots_of_lowerFunction
    (lowered : lowerFunction linkage position source = .ok (code, actions)) :
    ∃ locals rest, code = .allocFrame locals :: .pushDebug source.context :: rest ∧
      ∀ slot, .loadLocal slot ∈ code ∨ .storeLocal slot ∈ code →
        slot < source.arity ∨
          source.arity + 2 ≤ slot ∧ slot < source.arity + 2 + locals := by
  rcases @checked_function _ _ _ _ _ (fun _ => True) lowered (fun _ _ => trivial)
    (fun _ _ => trivial) with ⟨locals, front, split, segment⟩
  rcases lowerFunction_ok lowered with ⟨body, progress, _, wrapped, _⟩
  have counted : progress.locals = locals := by
    cases front with
    | nil => cases wrapped.symm.trans split
    | cons first front =>
        cases List.head_eq_of_cons_eq (wrapped.symm.trans split)
        rcases @segment.exists_checked _ _ _ _ _ _ 0 _ rfl with ⟨wider, here, next, checked⟩
        exact checked.locals_eq
  refine ⟨locals, _, counted ▸ wrapped, fun slot uses => ?_⟩
  have among : .loadLocal slot ∈ front ∨ .storeLocal slot ∈ front := by
    rw [split] at uses
    simpa using uses
  rcases among with member | member
  all_goals
    rcases List.mem_iff_getElem?.mp member with ⟨index, found⟩
    rcases segment.exists_checked found with ⟨wider, here, next, checked⟩
  · exact checked.slot_bounds (.inl rfl)
  · exact checked.slot_bounds (.inr rfl)

/-- The code of a function is as the namespaces list it. -/
theorem owns_of_lowerFunction
    (lowered : lowerFunction linkage position source = .ok (code, actions)) (offset : Nat) :
    FunctionListing.Owns ⟨source.path, source.name, ⟨offset, source.arity⟩⟩ code where
  opens := by
    rcases slots_of_lowerFunction lowered with ⟨locals, rest, split, slots⟩
    exact ⟨locals, source.context, rest, split, rfl, slots⟩
  ends := by
    rcases lowerFunction_ok lowered with ⟨body, progress, _, rfl, _⟩
    rw [FunctionSource.wrap, List.getLast?_append]
    rfl
  returns front params back split := by
    cases (lowerFunction_composes lowered).stands split with
    | alone emits => exact absurd rfl (emits.ne_returnValue params)
    | leave => exact ⟨rfl, _, rfl⟩

end Functions

/-! ## Blocks in a row -/

/-- Blocks that stand one right behind the other, each at the offset of its function. -/
inductive InRow : Nat → List (FunctionListing × List Instruction) → Prop
  | nil {offset} : InRow offset []
  | cons {listing code rest} (later : InRow (listing.entry.offset + code.length) rest) :
      InRow listing.entry.offset ((listing, code) :: rest)

namespace InRow

variable {offset index : Nat} {blocks : List (FunctionListing × List Instruction)}

theorem offset_le (row : InRow offset blocks) :
    ∀ block ∈ blocks, offset ≤ block.1.entry.offset := by
  induction row with
  | nil => exact nofun
  | cons _ ih =>
      refine List.forall_mem_cons.mpr ⟨Nat.le_refl _, fun block member => ?_⟩
      exact Nat.le_trans (Nat.le_add_right _ _) (ih block member)

/-- Each place lies in one of the blocks, and no other one starts between the two. -/
theorem exists_block (row : InRow offset blocks) (filled : ∀ block ∈ blocks, block.2 ≠ [])
    (behind : offset ≤ index) (inside : index < offset + (blocks.flatMap Prod.snd).length) :
    ∃ block ∈ blocks, block.1.entry.offset ≤ index ∧
      index < block.1.entry.offset + block.2.length ∧
      ∀ other ∈ blocks, other.1.entry.offset ≤ index →
        other = block ∨ other.1.entry.offset < block.1.entry.offset := by
  induction row with
  | nil =>
      rw [List.flatMap_nil, List.length_nil] at inside
      omega
  | @cons listing code rest later ih =>
      rw [List.forall_mem_cons] at filled
      rw [List.flatMap_cons, List.length_append] at inside
      dsimp only at filled inside
      rcases Nat.lt_or_ge index (listing.entry.offset + code.length) with here | there
      · refine ⟨_, List.mem_cons_self, behind, here, ?_⟩
        refine List.forall_mem_cons.mpr ⟨fun _ => .inl rfl, fun other member early => ?_⟩
        have := later.offset_le other member
        omega
      · rcases ih filled.2 there (by omega) with ⟨block, member, starts, ends, last⟩
        refine ⟨block, List.mem_cons_of_mem _ member, starts, ends, ?_⟩
        refine List.forall_mem_cons.mpr ⟨fun _ => .inr ?_, last⟩
        have positive := List.length_pos_iff.mpr filled.1
        have := later.offset_le block member
        dsimp only
        omega

end InRow

namespace Placement

/-- What the list of the namespaces says about the function. -/
def listing (placement : Placement) : FunctionListing :=
  ⟨placement.source.path, placement.source.name, placement.entry⟩

def block (placement : Placement) : FunctionListing × List Instruction :=
  (placement.listing, placement.code)

end Placement

theorem LaidOut.inRow {linkage : Linkage} {offset : Nat} {placed : List Placement}
    (laidOut : LaidOut linkage offset placed) : InRow offset (placed.map Placement.block) := by
  induction laidOut with
  | nil => exact .nil
  | @cons offset source code actions rest _ _ ih =>
      exact @InRow.cons ⟨source.path, source.name, ⟨offset, source.arity⟩⟩ code _ ih

/-- Functions with different names are all listed in the namespaces that they are entered into. -/
theorem perm_list_register {placed : List Placement} {node : NamespaceNode} (sorted : node.Sorted)
    (apart : (placed.map Placement.reference).Nodup)
    (absent : ∀ placement ∈ placed,
      node.lookup? placement.source.path placement.source.name = none) :
    (placed.foldl Placement.register node).list.Perm
      (placed.map Placement.listing ++ node.list) := by
  induction placed generalizing node with
  | nil => exact .refl _
  | cons first rest ih =>
      rcases List.nodup_cons.mp apart with ⟨fresh, apart⟩
      rw [List.forall_mem_cons] at absent
      refine (ih (sorted.insert _ _ _) apart fun placement member => ?_).trans ?_
      · refine (NamespaceNode.lookup?_insert.trans (if_neg ?_)).trans (absent.2 placement member)
        rintro ⟨path, name⟩
        refine fresh (List.mem_map.mpr ⟨placement, member, ?_⟩)
        rw [Placement.reference, Placement.reference, FunctionSource.reference,
          FunctionSource.reference, path, name]
      · rw [NamespaceNode.list_eq_listFrom, NamespaceNode.list_eq_listFrom]
        refine .trans (.append_left _ (sorted.perm_listFrom_insert absent.1 [])) ?_
        exact List.perm_middle

/-- What a program is made of: a block for each listed function, one right behind the other, and the
namespaces tell of each place which block it lies in. -/
structure Program.Blocks (program : Program)
    (blocks : List (FunctionListing × List Instruction)) : Prop where
  listed : (blocks.map Prod.fst).Perm program.namespaces.list
  instructions : program.instructions.toList = blocks.flatMap Prod.snd
  row : InRow 0 blocks
  owns : ∀ block ∈ blocks, block.1.Owns block.2
  owner : ∀ index, index < program.size → ∃ block ∈ blocks,
    block.1.entry.offset ≤ index ∧ index < block.1.entry.offset + block.2.length ∧
      program.namespaces.functionAt? index = some block.1

theorem Program.Compiled.blocks {units : List ProgramUnit} {globals : List String}
    {program : Program} {placed : List Placement}
    (compiled : program.Compiled units globals placed) (plain : PlainNames units) :
    program.Blocks (placed.map Placement.block) := by
  have listed : (placed.map Placement.listing).Perm program.namespaces.list := by
    have registered := perm_list_register .empty (compiled.references_nodup plain) fun _ _ =>
      NamespaceNode.lookup?_empty _ _
    rw [← compiled.namespaces, NamespaceNode.list_empty, List.append_nil] at registered
    exact registered.symm
  have owns : ∀ block ∈ placed.map Placement.block, block.1.Owns block.2 := by
    intro block member
    rcases List.mem_map.mp member with ⟨placement, isPlaced, rfl⟩
    exact owns_of_lowerFunction (compiled.laidOut.split isPlaced).1 placement.offset
  have instructions : program.instructions.toList =
      (placed.map Placement.block).flatMap Prod.snd := by
    rw [compiled.instructions, List.flatMap_map]
    rfl
  refine ⟨?_, instructions, compiled.laidOut.inRow, owns, fun index inside => ?_⟩
  · rw [List.map_map]
    exact listed
  · have filled : ∀ block ∈ placed.map Placement.block, block.2 ≠ [] := by
      intro block member
      rcases (owns block member).opens with ⟨locals, context, rest, split, _⟩
      exact split ▸ List.cons_ne_nil _ _
    rw [Program.size, ← Array.length_toList, instructions, ← Nat.zero_add (List.length _)] at inside
    rcases compiled.laidOut.inRow.exists_block filled (Nat.zero_le _) inside with
      ⟨block, member, starts, ends, last⟩
    refine ⟨block, member, starts, ends, ?_⟩
    rcases List.mem_map.mp member with ⟨placement, isPlaced, rfl⟩
    have isListed := listed.subset (List.mem_map_of_mem isPlaced)
    refine NamespaceNode.functionAt?_eq_some isListed starts ?_
    intro other otherListed early
    rcases List.mem_map.mp (listed.symm.subset otherListed) with ⟨one, isOne, rfl⟩
    exact (last one.block (List.mem_map_of_mem isOne) early).imp_left (congrArg Prod.fst)

/-- A program that is compiled of units in which no function is called like a literal is made of one
block for each function that its namespaces list. -/
theorem compiled_in_blocks {units : List ProgramUnit} {globals : List String} {program : Program}
    (accepted : compileUnits units globals = .ok program) (plain : PlainNames units) :
    ∃ blocks, program.Blocks blocks := by
  rcases compileUnits_ok accepted with ⟨placed, compiled⟩
  exact ⟨_, compiled.blocks plain⟩

/-- The function and the two literals inside it are three blocks. -/
theorem compiled_in_blocks_nesting :
    ∃ program, compileUnits [nestingUnit] [] = .ok program ∧ PlainNames [nestingUnit] ∧
      ∃ blocks, program.Blocks blocks ∧ blocks.length = 3 := by
  refine ⟨_, rfl, nestingUnit_plain, ?_⟩
  rcases compiled_in_blocks rfl nestingUnit_plain with ⟨blocks, made⟩
  refine ⟨blocks, made, ?_⟩
  have count := made.listed.length_eq
  rwa [List.length_map, NamespaceNode.list_eq_listFrom] at count

end ScriptMachine
