import ScriptMachine.Proofs.Compiler.Entries
import ScriptMachine.Proofs.Compiler.Occurrences
import ScriptMachine.Proofs.Compiler.Pieces

/-!
# The closures of a program

A closure is made where its action literal is lowered, but the code of the literal comes later, when
the row of literals has got that far. So the two have to agree on much from a distance: on the name,
on the carrier as one more argument, on how many values the carrier holds and on which number stands
for which.

This file shows that they do. Every literal of the source becomes one function, however deeply it is
nested, and one instruction makes closures of it. Right before that instruction the carrier is
built, and the function behind the name uses no number that the carrier does not have.
-/

namespace ScriptMachine

/-! ## Single instructions -/

/-- The function whose closures an instruction makes. -/
def Instruction.closure? : Instruction → Option FunctionRef
  | .makeClosure function => some function
  | _ => none

namespace Frame.Emits

variable {frame : Frame} {instruction : Instruction} {function : FunctionRef}

theorem closure?_eq_none (emits : frame.Emits instruction) : instruction.closure? = none := by
  cases emits with
  | @plain instruction isPlain =>
      cases instruction with
      | makeClosure => cases isPlain
      | _ => rfl
  | loadLocal => rfl
  | storeLocal => rfl
  | call =>
      unfold callInstruction
      split <;> rfl

theorem declared (emits : frame.Emits instruction) {argc : Nat}
    (calls : instruction = .callFunction function argc) : function ∈ frame.linkage.declared := by
  cases emits with
  | plain isPlain =>
      subst calls
      cases isPlain
  | loadLocal => cases calls
  | storeLocal => cases calls
  | call =>
      unfold callInstruction at calls
      split at calls
      · rename_i found
        cases calls
        exact Linkage.mem_declared_of_findFunction? found
      · cases calls

/-- Where there is a carrier, no instruction by itself concerns it. -/
theorem leavesCarrier (emits : frame.Emits instruction)
    (keeps : frame.source.captures.isSome = true) :
    instruction ≠ .loadLocal 0 ∧ instruction ≠ .storeLocal 0 := by
  have count : frame.source.carrierCount = 1 := if_pos keeps
  cases emits with
  | plain isPlain =>
      constructor
      · rintro rfl
        cases isPlain
      · rintro rfl
        cases isPlain
  | @loadLocal slot behind =>
      refine ⟨?_, Instruction.noConfusion⟩
      rintro ⟨rfl⟩
      omega
  | @storeLocal slot behind =>
      refine ⟨Instruction.noConfusion, ?_⟩
      rintro ⟨rfl⟩
      omega
  | call =>
      unfold callInstruction
      split <;> exact ⟨Instruction.noConfusion, Instruction.noConfusion⟩

end Frame.Emits

/-! ## The code of a function -/

/-- Code that uses no number in a carrier beyond how many values that holds, and never puts another
value in lieu of the carrier. -/
structure WithinCarrier (count : Nat) (code : List Instruction) : Prop where
  index : ∀ front back, code = front ++ .loadLocal 0 :: back →
    ∃ index rest, back = .pushConst (.int (Int64.ofNat index)) :: rest ∧ index < count ∧
      (Int64.ofNat index).toInt < count
  kept : .storeLocal 0 ∉ code

theorem toInt_ofNat_lt {index count : Nat} (below : index < count) :
    (Int64.ofNat index).toInt < count := by
  have size : (Int64.size : Int) = 18446744073709551616 := rfl
  rw [Int64.toInt_ofNat', Int.bmod_def, size]
  split <;> omega

namespace Frame.Composes

variable {frame : Frame} {literals : List FunctionSource} {code : List Instruction}

theorem closures (composed : frame.Composes literals code) :
    code.filterMap Instruction.closure? = literals.map FunctionSource.reference := by
  induction composed with
  | nil => rfl
  | single emits _ ih => rw [List.filterMap_cons_none emits.closure?_eq_none, ih]
  | carrier _ _ ih => exact ih
  | closure _ _ ih => exact congrArg _ ih
  | leave _ ih => exact ih

theorem declared (composed : frame.Composes literals code) {function : FunctionRef} {argc : Nat}
    (calls : .callFunction function argc ∈ code) : function ∈ frame.linkage.declared := by
  rcases List.append_of_mem calls with ⟨front, back, split⟩
  cases composed.stands split with
  | alone emits => exact emits.declared rfl

theorem makeClosure {front back : List Instruction} {function : FunctionRef}
    (composed : frame.Composes literals code)
    (split : code = front ++ .makeClosure function :: back) :
    ∃ earlier kept, ∃ literal ∈ literals, front = earlier ++ [.makeArray kept.length] ∧
      literal.reference = function ∧ literal.captures = some kept := by
  cases composed.stands split with
  | alone emits => cases emits.closure?_eq_none
  | closure met keeps => exact ⟨_, _, _, met, rfl, rfl, keeps⟩

theorem withinCarrier {kept : List String} (keeps : frame.source.captures = some kept)
    (composed : frame.Composes literals code) : WithinCarrier kept.length code where
  index front back split := by
    have isSome : frame.source.captures.isSome = true := Option.isSome_of_eq_some keeps
    cases composed.stands split with
    | alone emits => exact absurd rfl (emits.leavesCarrier isSome).1
    | carrier below =>
        rw [FunctionSource.kept, keeps] at below
        exact ⟨_, _, rfl, below, toInt_ofNat_lt below⟩
  kept among := by
    have isSome : frame.source.captures.isSome = true := Option.isSome_of_eq_some keeps
    rcases List.append_of_mem among with ⟨front, back, split⟩
    cases composed.stands split with
    | alone emits => exact absurd rfl (emits.leavesCarrier isSome).2

end Frame.Composes

/-! ## The row of literals -/

namespace Assembly

variable {linkage : Linkage} {assembly later : Assembly} {actions : List FunctionSource}

theorem actions_of_place {source : FunctionSource}
    (placing : assembly.place linkage source = .ok (later, actions)) : actions = source.actions := by
  rcases lowered_of_place placing with ⟨code, lowered⟩
  exact actions_of_lowerFunction lowered

theorem actions_of_placeAll {sources : List FunctionSource}
    (placing : assembly.placeAll linkage sources = .ok (later, actions)) :
    actions = sources.flatMap FunctionSource.actions := by
  induction sources generalizing assembly actions with
  | nil =>
      cases placing
      rfl
  | cons source rest ih =>
      rcases exists_of_bind_ok placing with ⟨⟨following, found⟩, first, placing⟩
      rcases exists_of_bind_ok placing with ⟨⟨last, more⟩, others, placing⟩
      cases placing
      rw [actions_of_place first, ih others, List.flatMap_cons]

/-- Working through literals lays out each of them and each literal inside them once. -/
theorem Drains.occurrences {pending order : List FunctionSource}
    (drains : assembly.Drains linkage pending order later) :
    (order.map FunctionSource.occurrence).Perm
      (pending.flatMap fun source => source.occurrence :: source.inside) := by
  induction drains with
  | done => exact .nil
  | @next _ _ _ source actions rest _ placing _ ih =>
      rw [actions_of_place placing, List.flatMap_append, source.flatMap_actions] at ih
      rw [List.map_cons, List.flatMap_cons]
      exact (ih.trans List.perm_append_comm).cons _

end Assembly

/-! ## Programs -/

/-- How the closures and the calls of a program are linked, which is laid out as the declared
functions and then the literals. -/
structure Program.Links (units : List ProgramUnit) (globals : List String) (program : Program)
    (declared literals : List Placement) : Prop where
  compiled : program.Compiled units globals (declared ++ literals)
  sources : declared.map Placement.source = declaredSources units
  /-- The literals that the declared functions leave are worked through until none is left. -/
  drains : ∃ assembly pending,
    Assembly.empty.placeAll ⟨globals, (declaredSources units).map FunctionSource.reference⟩
      (declaredSources units) = .ok (assembly, pending) ∧
    assembly.Drains ⟨globals, (declaredSources units).map FunctionSource.reference⟩ pending
      (literals.map Placement.source) ⟨program.instructions, program.namespaces⟩
  /-- Each literal that is written in the units became one function. -/
  occurrences : ((literals.map Placement.source).map FunctionSource.occurrence).Perm
    (units.flatMap ProgramUnit.occurrences)
  /-- No two functions have the same name. -/
  names : ((declared ++ literals).map Placement.reference).Nodup
  /-- One instruction makes the closures of each literal. -/
  closures : program.instructions.toList.filterMap Instruction.closure? =
    literals.map Placement.reference
  /-- Every call leads to a function. -/
  calls : ∀ function argc, .callFunction function argc ∈ program.instructions.toList →
    (program.lookup? function.path function.name).isSome
  /-- Every closure is built from the array right before it, leads to a literal that takes one more
  argument than it has parameters, and finds there what it uses. -/
  closed : ∀ front function back,
    program.instructions.toList = front ++ .makeClosure function :: back →
    ∃ earlier kept, ∃ literal ∈ literals, front = earlier ++ [.makeArray kept.length] ∧
      literal.reference = function ∧ literal.source.captures = some kept ∧
      literal.Emitted program ∧
      program.lookup? function.path function.name =
        some ⟨literal.offset, literal.source.params.length + 1⟩ ∧
      WithinCarrier kept.length literal.code

/-- What stands in a row of lists stands in one of them, behind a part of what is before it. -/
theorem exists_split_of_flatMap {α β : Type} {list : α → List β} {items : List α} {item : β}
    {front back : List β} (split : items.flatMap list = front ++ item :: back) :
    ∃ holder ∈ items, ∃ before after, list holder = before ++ item :: after ∧ before <:+ front := by
  induction items generalizing front with
  | nil => simp at split
  | cons first rest ih =>
      rw [List.flatMap_cons] at split
      rcases List.append_eq_append_iff.mp split with ⟨between, rfl, later⟩ | ⟨between, here, later⟩
      · rcases ih later with ⟨holder, member, before, after, same, isPart⟩
        exact ⟨holder, List.mem_cons_of_mem _ member, before, after, same,
          isPart.trans (List.suffix_append _ _)⟩
      · cases between with
        | nil =>
            rw [List.append_nil] at here
            rcases @ih [] later.symm with ⟨holder, member, before, after, same, isPart⟩
            exact ⟨holder, List.mem_cons_of_mem _ member, before, after, same,
              isPart.trans (List.nil_suffix)⟩
        | cons _ between =>
            cases later
            exact ⟨first, List.mem_cons_self, front, between, here, List.suffix_refl _⟩

theorem FunctionSource.captures_of_mem_actions {source literal : FunctionSource}
    (member : literal ∈ source.actions) : literal.captures.isSome := by
  rcases List.mem_map.mp member with ⟨entry, _, rfl⟩
  rfl

namespace Program.Compiled

variable {units : List ProgramUnit} {globals : List String} {program : Program}
  {placed declared literals : List Placement} {placement : Placement} {function : FunctionRef}

theorem exists_placement (compiled : program.Compiled units globals placed)
    (member : placement ∈ placed) {source : FunctionSource}
    (literal : source ∈ placement.source.actions) :
    ∃ placement ∈ placed, placement.source = source := by
  have among : source ∈ placed.map Placement.source := by
    rw [compiled.sources, List.mem_append, List.mem_flatMap]
    rw [← compiled.actions_eq member] at literal
    exact .inr ⟨placement, member, literal⟩
  exact List.mem_map.mp among

/-- The function of a closure is a literal of the program. -/
theorem literal_of_makeClosure (compiled : program.Compiled units globals placed)
    (made : .makeClosure function ∈ program.instructions) :
    ∃ placement ∈ placed, placement.source.reference = function ∧
      placement.source.captures.isSome := by
  rw [← Array.mem_toList_iff, compiled.instructions] at made
  rcases List.mem_flatMap.mp made with ⟨outer, member, among⟩
  rcases List.append_of_mem among with ⟨front, back, split⟩
  rcases (compiled.composes member).makeClosure split with ⟨_, _, literal, met, _, same, keeps⟩
  rw [compiled.actions_eq member] at met
  rcases compiled.exists_placement member met with ⟨placement, known, rfl⟩
  exact ⟨placement, known, same, FunctionSource.captures_of_mem_actions met⟩

/-- Where all functions have names of their own, each is found by its name. -/
theorem lookup?_eq (compiled : program.Compiled units globals placed) (plain : PlainNames units)
    (member : placement ∈ placed) :
    program.lookup? placement.source.path placement.source.name = some placement.entry := by
  have different := compiled.references_nodup plain
  rcases List.append_of_mem member with ⟨first, later, rfl⟩
  rw [lookup?, compiled.namespaces]
  refine lookup?_register_last ?_
  intro other among same
  rw [List.map_append, List.map_cons] at different
  have apart := (List.nodup_cons.mp (List.nodup_append.mp different).2.1).1
  exact apart (List.mem_map.mpr ⟨other, among, same⟩)

theorem sources_literals (compiled : program.Compiled units globals (declared ++ literals))
    (sources : declared.map Placement.source = declaredSources units) :
    literals.map Placement.source = (declared ++ literals).flatMap Placement.actions := by
  have parted := compiled.sources
  rw [List.map_append, sources] at parted
  exact List.append_cancel_left parted

theorem closures (compiled : program.Compiled units globals (declared ++ literals))
    (sources : declared.map Placement.source = declaredSources units) :
    program.instructions.toList.filterMap Instruction.closure? =
      literals.map Placement.reference := by
  have own : ∀ placement ∈ declared ++ literals,
      placement.code.filterMap Instruction.closure? =
        placement.actions.map FunctionSource.reference :=
    fun placement member => (compiled.composes member).closures
  calc program.instructions.toList.filterMap Instruction.closure?
      = (declared ++ literals).flatMap fun placement =>
          placement.code.filterMap Instruction.closure? := by
        rw [compiled.instructions, List.filterMap_flatMap]
    _ = (declared ++ literals).flatMap fun placement =>
          placement.actions.map FunctionSource.reference := by
        rw [List.flatMap_def, List.map_congr_left own, List.flatMap_def]
    _ = (literals.map Placement.source).map FunctionSource.reference := by
        rw [compiled.sources_literals sources, List.map_flatMap]
    _ = literals.map Placement.reference := List.map_map

theorem isSome_lookup?_of_callFunction (compiled : program.Compiled units globals placed)
    {argc : Nat} (calls : .callFunction function argc ∈ program.instructions.toList) :
    (program.lookup? function.path function.name).isSome := by
  rw [compiled.instructions] at calls
  rcases List.mem_flatMap.mp calls with ⟨outer, member, among⟩
  rcases List.mem_map.mp ((compiled.composes member).declared among) with ⟨source, known, rfl⟩
  have present : source ∈ placed.map Placement.source := by
    rw [compiled.sources]
    exact List.mem_append_left _ known
  rcases List.mem_map.mp present with ⟨placement, laidOut, rfl⟩
  rw [lookup?, compiled.namespaces]
  exact isSome_lookup?_register (.inr ⟨placement, laidOut, rfl⟩)

theorem closed (compiled : program.Compiled units globals (declared ++ literals))
    (plain : PlainNames units)
    (sources : declared.map Placement.source = declaredSources units)
    {front back : List Instruction}
    (split : program.instructions.toList = front ++ .makeClosure function :: back) :
    ∃ earlier kept, ∃ literal ∈ literals, front = earlier ++ [.makeArray kept.length] ∧
      literal.reference = function ∧ literal.source.captures = some kept ∧
      literal.Emitted program ∧
      program.lookup? function.path function.name =
        some ⟨literal.offset, literal.source.params.length + 1⟩ ∧
      WithinCarrier kept.length literal.code := by
  rw [compiled.instructions] at split
  rcases exists_split_of_flatMap split with ⟨outer, member, before, after, here, earlier, rfl⟩
  rcases (compiled.composes member).makeClosure here with
    ⟨between, kept, source, met, rfl, rfl, keeps⟩
  have among : source ∈ literals.map Placement.source := by
    rw [compiled.sources_literals sources]
    exact List.mem_flatMap.mpr ⟨outer, member, met⟩
  rcases List.mem_map.mp among with ⟨literal, known, rfl⟩
  have laidOut : literal ∈ declared ++ literals := List.mem_append_right _ known
  have entry : literal.entry = ⟨literal.offset, literal.source.params.length + 1⟩ := by
    simp [Placement.entry, FunctionSource.arity, FunctionSource.carrierCount, keeps]
  refine ⟨earlier ++ between, kept, literal, known, (List.append_assoc _ _ _).symm, rfl, keeps,
    compiled.emitted laidOut, ?_, (compiled.composes laidOut).withinCarrier keeps⟩
  rw [← entry]
  exact compiled.lookup?_eq plain laidOut

end Program.Compiled

/-- Where no declared function is called like a literal, compilation links every closure and every
call: literals become functions one by one until none is left, and what a closure keeps is what its
function looks for. -/
theorem closures_and_calls_linked {units : List ProgramUnit} {globals : List String}
    {program : Program} (accepted : compileUnits units globals = .ok program)
    (plain : PlainNames units) :
    ∃ declared literals, program.Links units globals declared literals := by
  rcases compileUnits_drains accepted with
    ⟨declared, literals, assembly, pending, compiled, sources, placing, drains⟩
  refine ⟨declared, literals, ⟨compiled, sources, ⟨assembly, pending, placing, drains⟩, ?_,
    compiled.references_nodup plain, compiled.closures sources,
    fun _ _ => compiled.isSome_lookup?_of_callFunction,
    fun _ _ _ => compiled.closed plain sources⟩⟩
  have each := drains.occurrences
  rw [Assembly.actions_of_placeAll placing, List.flatMap_assoc] at each
  simp only [FunctionSource.flatMap_actions] at each
  rwa [flatMap_inside_declaredSources] at each

/-- A function with a literal inside a literal. The inner one keeps a parameter of the outer one, and
what the outer one keeps. -/
def nestingUnit : ProgramUnit where
  name := "nesting"
  path := ["deep"]
  functions := [
    ⟨"adder", ["first"],
      [.returnValue (some (.action ["second"]
        [.returnValue (some (.action ["third"]
          [.assign "first" (.binary .add (.var "first") (.var "third")),
            .returnValue (some (.binary .add (.var "first") (.var "second")))]))]))],
      .nowhere⟩]

theorem nestingUnit_plain : PlainNames [nestingUnit] := by
  intro unit known function declared before after same
  cases List.mem_singleton.mp known
  cases List.mem_singleton.mp declared
  have length := congrArg String.length same
  simp only [String.length_append] at length
  have short : ("adder" : String).length = 5 := rfl
  have long : ("$action" : String).length = 7 := rfl
  omega

theorem closures_and_calls_linked_nesting :
    ∃ program, compileUnits [nestingUnit] [] = .ok program ∧ PlainNames [nestingUnit] ∧
      ∃ declared literals, program.Links [nestingUnit] [] declared literals ∧
        literals.length = 2 := by
  refine ⟨_, rfl, nestingUnit_plain, ?_⟩
  rcases closures_and_calls_linked rfl nestingUnit_plain with ⟨declared, literals, links⟩
  refine ⟨declared, literals, links, ?_⟩
  have count := links.occurrences.length_eq
  rwa [List.length_map, List.length_map] at count

end ScriptMachine
