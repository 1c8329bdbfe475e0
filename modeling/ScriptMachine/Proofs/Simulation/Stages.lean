import ScriptMachine.Proofs.Meaning.Scripts
import ScriptMachine.Proofs.Simulation.Walks

/-!
# Frames that show scenes

While the code of a function runs, its frame stands on the stack between the frames below and the
operands of unfinished expressions. A variable in scope has a slot of the frame, and the machine
shows a scene if every such slot holds the value of its variable. Other slots are hidden: the header,
the carrier of an action, and what loops keep for themselves. Their contents are known and stay as
they are.

How high the stack gets is read off the code. Every operand was put there by an instruction in front
of the place where the machine stands, so there are never more operands than instructions.
-/

namespace ScriptMachine

/-! ## Variables in slots -/

/-- The variables in scope with the values that their slots hold. -/
def readScope (scope : List (String × Nat)) (slots : List Value) : List (String × Value) :=
  scope.map fun entry => (entry.1, slots.getD entry.2 .unit)

section Scopes

variable {scope : List (String × Nat)} {slots : List Value} {name : String} {slot : Nat}
  {value : Value}

@[simp]
theorem length_readScope : (readScope scope slots).length = scope.length := by
  simp [readScope]

theorem names_readScope : (readScope scope slots).map Prod.fst = scope.map Prod.fst := by
  simp [readScope]

theorem lookup_readScope :
    (readScope scope slots).lookup name =
      (scope.lookup name).map fun slot => slots.getD slot .unit := by
  induction scope with
  | nil => rfl
  | cons entry rest ih =>
      rcases entry with ⟨other, slot⟩
      change ((other, slots.getD slot .unit) :: readScope rest slots).lookup name = _
      rw [List.lookup_cons, List.lookup_cons, ih]
      cases name == other <;> rfl

theorem readScope_set_other (other : ∀ entry ∈ scope, entry.2 ≠ slot) :
    readScope scope (slots.set slot value) = readScope scope slots := by
  apply List.map_congr_left
  intro entry member
  have apart : slot ≠ entry.2 := Ne.symm (other entry member)
  simp [List.getD_eq_getElem?_getD, apart]

/-- To write the slot of a variable is to assign to the variable. -/
theorem readScope_set (distinct : (scope.map Prod.snd).Nodup) (inside : slot < slots.length)
    (found : scope.lookup name = some slot) :
    readScope scope (slots.set slot value) =
      Standpoint.assigned name value (readScope scope slots) := by
  induction scope with
  | nil => cases found
  | cons entry rest ih =>
      rcases entry with ⟨other, here⟩
      rw [List.map_cons, List.nodup_cons] at distinct
      rw [List.lookup_cons] at found
      change (other, (slots.set slot value).getD here .unit) :: readScope rest (slots.set slot value) =
        Standpoint.assigned name value ((other, slots.getD here .unit) :: readScope rest slots)
      cases same : name == other with
      | true =>
          rw [same] at found
          cases found
          have others : ∀ entry ∈ rest, entry.2 ≠ slot := by
            intro entry member here
            apply distinct.1
            rw [← here]
            exact List.mem_map.mpr ⟨entry, member, rfl⟩
          rw [readScope_set_other others, Standpoint.assigned, if_pos (beq_iff_eq.mp same)]
          simp [List.getD_eq_getElem?_getD, inside]
      | false =>
          rw [same] at found
          have different : here ≠ slot := by
            intro equal
            apply distinct.1
            exact List.mem_map.mpr ⟨(name, slot), mem_of_lookup found, equal.symm⟩
          rw [ih distinct.2 found, Standpoint.assigned, if_neg (by simpa using same)]
          simp [List.getD_eq_getElem?_getD, different.symm]

end Scopes

/-- Slots of a function's frame that are taken: those of the variables in scope, all different, and
hidden ones apart from them. Those from the next local on are free. -/
structure Arranged (frame : Frame) (scope : List (String × Nat)) (hidden : List (Nat × Value))
    (locals : Nat) : Prop where
  distinct : (scope.map Prod.snd).Nodup
  bindings : ∀ entry ∈ scope, entry.2 < frame.slot locals
  hidden : ∀ entry ∈ hidden, entry.1 < frame.slot locals ∧ ∀ other ∈ scope, other.2 ≠ entry.1

namespace Arranged

variable {frame : Frame} {scope : List (String × Nat)} {hidden : List (Nat × Value)}
  {locals more : Nat}

theorem mono (arranged : Arranged frame scope hidden locals) (grows : locals ≤ more) :
    Arranged frame scope hidden more where
  distinct := arranged.distinct
  bindings entry member := by
    have below := arranged.bindings entry member
    simp only [Frame.slot] at below ⊢
    omega
  hidden entry member := by
    rcases arranged.hidden entry member with ⟨below, apart⟩
    refine ⟨?_, apart⟩
    simp only [Frame.slot] at below ⊢
    omega

theorem bind (arranged : Arranged frame scope hidden locals) (name : String) :
    Arranged frame ((name, frame.slot locals) :: scope) hidden (locals + 1) where
  distinct := by
    rw [List.map_cons, List.nodup_cons]
    refine ⟨?_, arranged.distinct⟩
    intro taken
    rcases List.mem_map.mp taken with ⟨entry, member, same⟩
    have below := arranged.bindings entry member
    omega
  bindings entry member := by
    rcases List.mem_cons.mp member with rfl | member
    · simp only [Frame.slot]
      omega
    · exact (arranged.mono (Nat.le_succ locals)).bindings entry member
  hidden entry member := by
    rcases arranged.hidden entry member with ⟨below, apart⟩
    refine ⟨((arranged.mono (Nat.le_succ locals)).hidden entry member).1, ?_⟩
    intro other among
    rcases List.mem_cons.mp among with rfl | among
    · simp only
      omega
    · exact apart other among

theorem hide (arranged : Arranged frame scope hidden locals) (value : Value) :
    Arranged frame scope ((frame.slot locals, value) :: hidden) (locals + 1) where
  distinct := arranged.distinct
  bindings := (arranged.mono (Nat.le_succ locals)).bindings
  hidden entry member := by
    rcases List.mem_cons.mp member with rfl | member
    · refine ⟨by simp only [Frame.slot]; omega, ?_⟩
      intro other among
      have below := arranged.bindings other among
      simp only
      omega
    · exact (arranged.mono (Nat.le_succ locals)).hidden entry member

end Arranged

/-! ## Names -/

/-- What a name stands for, slots aside. -/
def Binding.referent : Binding → Referent
  | .localSlot _ => .variable
  | .capture index => .kept index
  | .globalSlot slot => .globalSlot slot

/-- A standpoint in the function that a frame is about. -/
structure Standpoint.Of (here : Standpoint) (frame : Frame) : Prop where
  source : here.source = frame.source
  linkage : here.script.linkage = frame.linkage

/-- Names mean in a scene what they mean where the scene is shown. -/
theorem Standpoint.referent?_eq {here : Standpoint} {frame : Frame} (same : here.Of frame)
    (scope : List (String × Nat)) (slots : List Value) (name : String) :
    here.referent? (readScope scope slots) name =
      (frame.resolve? scope name).map Binding.referent := by
  rw [referent?, lookup_readScope, Frame.resolve?, same.source, same.linkage,
    FunctionSource.kept]
  cases scope.lookup name with
  | some slot => rfl
  | none =>
      simp only [Option.map_none, Option.isSome_none, Bool.false_eq_true, if_false]
      cases (frame.source.captures.getD []).idxOf? name with
      | some index => rfl
      | none => cases frame.linkage.globalSlot? name <;> rfl

/-! ## Stages -/

/-- Where the code of a function runs. -/
structure Stage where
  surroundings : Surroundings
  capacity : Nat
  /-- The stack between the globals and the frame. -/
  below : List Value
  depth : Nat
  debug : List DebugContext
  /-- How many globals and slots there are. -/
  globals : Nat
  slots : Nat
  /-- How many arguments the function takes. -/
  arity : Nat
  /-- Where the code of the function starts. -/
  start : Nat
  code : List Instruction
  /-- The header and the carrier with their slots. -/
  fixed : List (Nat × Value)
  /-- How much of the stack is left to the functions that are called. -/
  reserve : Nat

namespace Stage

/-- The code is part of the program, and the stack has room for all that it can push. -/
structure Solid (stage : Stage) : Prop where
  emitted : ∃ before after,
    stage.surroundings.program.instructions.toList = before ++ stage.code ++ after ∧
      before.length = stage.start
  room : stage.globals + stage.below.length + stage.slots + stage.code.length + stage.reserve ≤
    stage.capacity
  active : 0 < stage.depth

/-- The machine with a frame on the stage. -/
def machine (stage : Stage) (ip : Nat) (slots operands : List Value) (world : World) : Machine :=
  ⟨.ofList stage.capacity (world.globals ++ stage.below ++ slots ++ operands), ip,
    world.globals.length + stage.below.length, stage.depth, stage.debug, world.store⟩

/-- Instructions that stand somewhere in the code. -/
def Stands (stage : Stage) (position : Nat) (instructions : List Instruction) : Prop :=
  ∃ before after, stage.code = before ++ instructions ++ after ∧
    stage.start + before.length = position

/-- Slots that show a scene. -/
structure Holds (stage : Stage) (scope : List (String × Nat)) (hidden : List (Nat × Value))
    (slots : List Value) (scene : Scene) : Prop where
  size : slots.length = stage.slots
  globals : scene.world.globals.length = stage.globals
  bindings : scene.bindings = readScope scope slots
  hidden : ∀ entry ∈ hidden, slots[entry.1]? = some entry.2

/-- A machine that shows a scene, with operands above the frame. -/
def Shows (stage : Stage) (scope : List (String × Nat)) (hidden : List (Nat × Value)) (ip : Nat)
    (operands : List Value) (scene : Scene) (machine : Machine) : Prop :=
  stage.start + operands.length ≤ ip ∧
    ∃ slots, machine = stage.machine ip slots operands scene.world ∧
      stage.Holds scope hidden slots scene

variable {stage : Stage} {position ip there slot : Nat} {instruction : Instruction}
  {instructions first second rest : List Instruction} {scope : List (String × Nat)}
  {hidden more : List (Nat × Value)} {slots operands args : List Value} {scene : Scene}
  {world : World} {machine : Machine} {result : StepResult} {name : String} {value : Value}

/-! ### Code -/

theorem Stands.left (stands : stage.Stands position (first ++ second)) :
    stage.Stands position first := by
  rcases stands with ⟨before, after, same, here⟩
  exact ⟨before, second ++ after, by simp [same], here⟩

theorem Stands.right (stands : stage.Stands position (first ++ second)) :
    stage.Stands (position + first.length) second := by
  rcases stands with ⟨before, after, same, here⟩
  refine ⟨before ++ first, after, by simp [same], ?_⟩
  rw [List.length_append, ← here, Nat.add_assoc]

theorem Stands.tail (stands : stage.Stands position (instruction :: rest)) :
    stage.Stands (position + 1) rest :=
  @right stage position [instruction] rest stands

theorem Stands.at (stands : stage.Stands position instructions) (same : position = there) :
    stage.Stands there instructions := same ▸ stands

theorem Stands.below (stands : stage.Stands position (instruction :: rest)) :
    position < stage.start + stage.code.length := by
  rcases stands with ⟨before, after, same, here⟩
  simp only [same, List.length_append, List.length_cons]
  omega

theorem Stands.found (stands : stage.Stands position (instruction :: rest)) (solid : stage.Solid) :
    stage.surroundings.program.instructions[position]? = some instruction := by
  rcases stands with ⟨before, after, same, here⟩
  rcases solid.emitted with ⟨front, back, listed, start⟩
  rw [← Array.getElem?_toList, listed, same, ← here, ← start]
  simp

section Cells

variable {stop : Nat} {code other : Code} {cell : CodeCell}

theorem Stands.front (stands : stage.Stands position ((code ++ other).closeLoop stop)) :
    stage.Stands position (code.closeLoop stop) := by
  rw [Code.closeLoop, List.map_append] at stands
  exact stands.left

theorem Stands.back (stands : stage.Stands position ((code ++ other).closeLoop stop)) :
    stage.Stands (position + code.length) (other.closeLoop stop) := by
  rw [Code.closeLoop, List.map_append] at stands
  have behind := stands.right
  rw [List.length_map] at behind
  exact behind

theorem Stands.plain (stands : stage.Stands position
      ((Code.ofInstructions instructions).closeLoop stop)) :
    stage.Stands position instructions := by
  have same : (Code.ofInstructions instructions).closeLoop stop = instructions := by
    simp [Code.closeLoop, Code.ofInstructions, Function.comp_def, Code.closeCell]
  rw [same] at stands
  exact stands

end Cells

/-! ### Steps -/

theorem Stands.steps (stands : stage.Stands ip (instruction :: rest)) (solid : stage.Solid)
    (stepped : (step stage.surroundings instruction).run
      (stage.machine (ip + 1) slots operands world) = result) :
    stage.surroundings.Steps (stage.machine ip slots operands world) result :=
  ⟨instruction, stands.found solid, stepped⟩

theorem machine_append : stage.machine ip slots (operands ++ args) world =
    ⟨.ofList stage.capacity (world.globals ++ stage.below ++ slots ++ operands ++ args), ip,
      world.globals.length + stage.below.length, stage.depth, stage.debug, world.store⟩ := by
  rw [machine, List.append_assoc _ operands]

theorem Stands.stepsWith (stands : stage.Stands ip (instruction :: rest)) (solid : stage.Solid)
    (stepped : (step stage.surroundings instruction).run
      ⟨.ofList stage.capacity (world.globals ++ stage.below ++ slots ++ operands ++ args), ip + 1,
        world.globals.length + stage.below.length, stage.depth, stage.debug, world.store⟩ =
      result) :
    stage.surroundings.Steps (stage.machine ip slots (operands ++ args) world) result := by
  refine stands.steps solid ?_
  rw [machine_append]
  exact stepped

/-- There is room for one more operand wherever an instruction stands. -/
theorem Solid.room_operands (solid : stage.Solid)
    (stands : stage.Stands ip (instruction :: rest)) (early : stage.start + operands.length ≤ ip)
    (holds : stage.Holds scope hidden slots scene) :
    (scene.world.globals ++ stage.below ++ slots ++ operands).length < stage.capacity := by
  have inside := stands.below
  have room := solid.room
  simp only [List.length_append, holds.globals, holds.size]
  omega

/-! ### Scenes -/

theorem Holds.mono (holds : stage.Holds scope hidden slots scene) (fewer : more ⊆ hidden) :
    stage.Holds scope more slots scene :=
  ⟨holds.size, holds.globals, holds.bindings, fun entry member => holds.hidden entry (fewer member)⟩

theorem Holds.withStore (holds : stage.Holds scope hidden slots scene) (store : Store)
    (yielded : List Value) :
    stage.Holds scope hidden slots
      { scene with world := ⟨scene.world.globals, store, yielded⟩ } :=
  ⟨holds.size, holds.globals, holds.bindings, holds.hidden⟩

theorem Holds.declare {frame : Frame} {locals : Nat}
    (holds : stage.Holds scope hidden slots scene) (arranged : Arranged frame scope hidden locals)
    (inside : frame.slot locals < stage.slots) (name : String) (value : Value) :
    stage.Holds ((name, frame.slot locals) :: scope) hidden (slots.set (frame.slot locals) value)
      { scene with bindings := (name, value) :: scene.bindings } where
  size := by rw [List.length_set, holds.size]
  globals := holds.globals
  bindings := by
    have others : ∀ entry ∈ scope, entry.2 ≠ frame.slot locals := by
      intro entry member
      have below := arranged.bindings entry member
      omega
    have filled : frame.slot locals < slots.length := holds.size ▸ inside
    change (name, value) :: scene.bindings =
      (name, (slots.set (frame.slot locals) value).getD (frame.slot locals) .unit) ::
        readScope scope (slots.set (frame.slot locals) value)
    rw [readScope_set_other others, holds.bindings]
    simp [List.getD_eq_getElem?_getD, filled]
  hidden entry member := by
    have below := (arranged.hidden entry member).1
    rw [List.getElem?_set_ne (by omega)]
    exact holds.hidden entry member

theorem Holds.hide {frame : Frame} {locals : Nat}
    (holds : stage.Holds scope hidden slots scene) (arranged : Arranged frame scope hidden locals)
    (inside : frame.slot locals < stage.slots) (value : Value) :
    stage.Holds scope ((frame.slot locals, value) :: hidden)
      (slots.set (frame.slot locals) value) scene where
  size := by rw [List.length_set, holds.size]
  globals := holds.globals
  bindings := by
    have others : ∀ entry ∈ scope, entry.2 ≠ frame.slot locals := by
      intro entry member
      have below := arranged.bindings entry member
      omega
    rw [readScope_set_other others, holds.bindings]
  hidden entry member := by
    have filled : frame.slot locals < slots.length := holds.size ▸ inside
    rcases List.mem_cons.mp member with rfl | member
    · simp [filled]
    · have below := (arranged.hidden entry member).1
      rw [List.getElem?_set_ne (by omega)]
      exact holds.hidden entry member

theorem Holds.assign {frame : Frame} {locals : Nat}
    (holds : stage.Holds scope hidden slots scene) (arranged : Arranged frame scope hidden locals)
    (inside : frame.slot locals ≤ stage.slots) (found : scope.lookup name = some slot)
    (value : Value) :
    stage.Holds scope hidden (slots.set slot value)
      { scene with bindings := Standpoint.assigned name value scene.bindings } where
  size := by rw [List.length_set, holds.size]
  globals := holds.globals
  bindings := by
    have below := arranged.bindings _ (mem_of_lookup found)
    have filled : slot < slots.length := by
      rw [holds.size]
      simp only at below
      omega
    rw [readScope_set arranged.distinct filled found, holds.bindings]
  hidden entry member := by
    have apart := (arranged.hidden entry member).2 _ (mem_of_lookup found)
    rw [List.getElem?_set_ne apart]
    exact holds.hidden entry member

theorem Holds.outer {slot : Nat}
    (holds : stage.Holds ((name, slot) :: scope) hidden slots (scene.outer (scope.length + 1))) :
    stage.Holds scope hidden slots (scene.outer scope.length) := by
  have bindings := holds.bindings
  refine ⟨holds.size, holds.globals, ?_, holds.hidden⟩
  simp only [Scene.outer] at bindings ⊢
  have length := congrArg List.length bindings
  simp only [List.length_drop, length_readScope, List.length_cons] at length
  have split : scene.bindings.length - scope.length =
      scene.bindings.length - (scope.length + 1) + 1 := by omega
  rw [split, ← List.drop_drop, bindings]
  rfl

theorem Holds.outer_self (holds : stage.Holds scope hidden slots scene) :
    scene.outer scope.length = scene := by
  have length := congrArg List.length holds.bindings
  rw [length_readScope] at length
  simp [Scene.outer, length]

theorem Shows.at (shows : stage.Shows scope hidden ip operands scene machine) (same : ip = there) :
    stage.Shows scope hidden there operands scene machine := same ▸ shows

theorem Shows.mono (shows : stage.Shows scope hidden ip operands scene machine)
    (fewer : more ⊆ hidden) : stage.Shows scope more ip operands scene machine := by
  rcases shows with ⟨early, slots, rfl, holds⟩
  exact ⟨early, slots, rfl, holds.mono fewer⟩

theorem Shows.outer {slot : Nat} (shows : stage.Shows ((name, slot) :: scope) hidden ip operands
      (scene.outer (scope.length + 1)) machine) :
    stage.Shows scope hidden ip operands (scene.outer scope.length) machine := by
  rcases shows with ⟨early, slots, rfl, holds⟩
  exact ⟨early, slots, rfl, holds.outer⟩

theorem Shows.length_variables (shows : stage.Shows scope hidden ip operands scene machine) :
    scene.bindings.length = scope.length := by
  rcases shows with ⟨_, slots, _, holds⟩
  rw [holds.bindings, length_readScope]

theorem Shows.outer_self (shows : stage.Shows scope hidden ip operands scene machine) :
    stage.Shows scope hidden ip operands (scene.outer scope.length) machine := by
  rcases shows with ⟨early, slots, rfl, holds⟩
  rw [holds.outer_self]
  exact ⟨early, slots, rfl, holds⟩

end Stage

end ScriptMachine
