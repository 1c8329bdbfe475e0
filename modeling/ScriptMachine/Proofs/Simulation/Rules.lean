import ScriptMachine.Proofs.Simulation.Stages

/-!
# Machines that do what is evaluated

`Stage.Does` relates a machine to an evaluation in a scene: the machine gets to where the end of the
evaluation says, and has yielded the same values by then. The rules here put such statements
together. Some belong to the ways in which evaluations are combined; others carry out an instruction,
with or without an effect that the evaluation has as well.

Where the innermost loop is left is a parameter, `left`, and absolute: it says what the machine looks
like behind the loop. So a `break` needs no more than what is known where it stands.
-/

namespace ScriptMachine

namespace Stage

variable {α β σ : Type}

/-- A machine that is about to leave the function with a value. -/
def Returning (stage : Stage) (value : Value) (scene : Scene) (machine : Machine) : Prop :=
  ∃ scope ip operands, stage.Stands ip [.popDebug, .returnValue stage.arity] ∧
    stage.Shows scope stage.fixed ip (operands ++ [value]) scene machine

/-- Where a machine has to be at the end of an evaluation. -/
def Ends (stage : Stage) (left : Scene → Machine → Prop) (post : α → Scene → Machine → Prop) :
    Flow α → Scene → Machine → Prop
  | .normal value, scene, machine => post value scene machine
  | .leaves, scene, machine => left scene machine
  | .returns value, scene, machine => stage.Returning value scene machine
  | .faults fault, scene, machine =>
      ∃ later, stage.surroundings.Steps machine (.error fault, later) ∧
        later.store = scene.world.store
  | .unfinished, _, _ => False

/-- A machine does what is evaluated in a scene. -/
def Does (stage : Stage) (left : Scene → Machine → Prop) (post : α → Scene → Machine → Prop)
    (machine : Machine) (evaluation : Evaluation α) (scene : Scene) : Prop :=
  stage.surroundings.Alive stage.capacity machine → (evaluation scene).1 ≠ .unfinished →
    ∃ later, stage.surroundings.Goes machine scene.world.yielded later
        (evaluation scene).2.world.yielded ∧
      stage.Ends left post (evaluation scene).1 (evaluation scene).2 later

variable {stage : Stage} {left leftInside : Scene → Machine → Prop}
  {post : α → Scene → Machine → Prop} {mid : β → Scene → Machine → Prop}
  {machine later : Machine} {evaluation : Evaluation α} {scene : Scene}

namespace Does

/-! ## Combinations -/

theorem pure {value : α} (holds : post value scene machine) :
    stage.Does left post machine (Pure.pure value) scene := by
  intro _ _
  exact ⟨machine, .stay, holds⟩

theorem bind {first : Evaluation β} {next : β → Evaluation α}
    (does : stage.Does left mid machine first scene)
    (others : ∀ value scene machine, mid value scene machine →
      stage.Does left post machine (next value) scene) :
    stage.Does left post machine (first >>= next) scene := by
  intro alive
  have does := does alive
  change (Evaluation.followedBy first next scene).1 ≠ .unfinished → ∃ later,
    stage.surroundings.Goes machine scene.world.yielded later
        (Evaluation.followedBy first next scene).2.world.yielded ∧
      stage.Ends left post (Evaluation.followedBy first next scene).1
        (Evaluation.followedBy first next scene).2 later
  unfold Evaluation.followedBy
  rcases ended : first scene with ⟨flow, middle⟩
  rw [ended] at does
  cases flow with
  | normal value =>
      intro finished
      rcases does nofun with ⟨between, goes, holds⟩
      rcases others value middle between holds (alive.goes goes) finished with ⟨last, rest, ends⟩
      exact ⟨last, goes.trans rest, ends⟩
  | leaves => intro _; exact does nofun
  | returns value => intro _; exact does nofun
  | faults fault => intro _; exact does nofun
  | unfinished => intro unfinished; exact absurd rfl unfinished

/-- Instructions that are carried out behind an evaluation. -/
theorem andThen {evaluation : Evaluation β}
    (does : stage.Does left mid machine evaluation scene) {post : β → Scene → Machine → Prop}
    (others : ∀ value scene machine, mid value scene machine →
      stage.Does left post machine (Pure.pure value) scene) :
    stage.Does left post machine evaluation scene := by
  intro alive finished
  rcases does alive finished with ⟨last, goes, ends⟩
  generalize evaluation scene = result at goes ends
  rcases result with ⟨flow, after⟩
  cases flow with
  | normal value =>
      rcases others value after last ends (alive.goes goes) nofun with ⟨later, rest, ends⟩
      exact ⟨later, goes.trans rest, ends⟩
  | _ => exact ⟨last, goes, ends⟩

/-- Instructions behind a part whose variables have gone out of scope. -/
theorem andThenOuter {evaluation : Evaluation β} {count : Nat} {post : β → Scene → Machine → Prop}
    (does : stage.Does left (fun value later => mid value (later.outer count)) machine evaluation
      scene)
    (others : ∀ value scene machine, mid value scene machine →
      stage.Does left post machine (Pure.pure value) scene) :
    stage.Does left (fun value later => post value (later.outer count)) machine evaluation scene :=
  does.andThen fun value scene machine holds => others value (scene.outer count) machine holds

theorem mono {weaker : α → Scene → Machine → Prop}
    (does : stage.Does left post machine evaluation scene)
    (implies : ∀ value scene machine, post value scene machine → weaker value scene machine) :
    stage.Does left weaker machine evaluation scene :=
  does.andThen fun value scene machine holds => .pure (implies value scene machine holds)

theorem discard (does : stage.Does left post machine evaluation scene)
    {rest : Unit → Scene → Machine → Prop}
    (implies : ∀ value scene machine, post value scene machine → rest () scene machine) :
    stage.Does left rest machine (Functor.discard evaluation) scene :=
  does.bind fun value scene machine holds => .pure (implies value scene machine holds)

theorem step (steps : stage.surroundings.Steps machine (.ok .next, later))
    (rest : stage.Does left post later evaluation scene) :
    stage.Does left post machine evaluation scene := by
  intro alive finished
  rcases rest (alive.next steps) finished with ⟨last, goes, ends⟩
  exact ⟨last, .next steps goes, ends⟩

theorem inspect {view : Scene → β} {next : β → Evaluation α}
    (does : stage.Does left post machine (next (view scene)) scene) :
    stage.Does left post machine (Evaluation.inspect view >>= next) scene := does

/-- An effect that only prepares what comes next. -/
theorem effect_ok {effect : Effect β} {next : β → Evaluation α} {value : β} {store : Store}
    (ran : effect scene.world.store = (.ok value, store))
    (does : stage.Does left post machine (next value)
      { scene with world := ⟨scene.world.globals, store, scene.world.yielded⟩ }) :
    stage.Does left post machine (Evaluation.effect effect >>= next) scene := by
  have ended : Evaluation.effect effect scene = (.normal value,
      { scene with world := ⟨scene.world.globals, store, scene.world.yielded⟩ }) := by
    simp only [Evaluation.effect, ran]
  unfold Does
  rw [Evaluation.bind_normal ended]
  exact does

theorem effect_error {effect : Effect β} {next : β → Evaluation α} {cause : RuntimeFault}
    {store : Store} (ran : effect scene.world.store = (.error cause, store))
    (steps : stage.surroundings.Steps machine (.error cause, later)) (same : later.store = store) :
    stage.Does left post machine (Evaluation.effect effect >>= next) scene := by
  have ended : Evaluation.effect effect scene = (.faults cause,
      { scene with world := ⟨scene.world.globals, store, scene.world.yielded⟩ }) := by
    simp only [Evaluation.effect, ran]
  unfold Does
  rw [Evaluation.bind_faults ended]
  intro _ _
  exact ⟨machine, .stay, later, steps, same⟩

/-- A block ends with the variables that it began with. -/
theorem block (does : stage.Does left
      (fun value later machine => post value (later.outer scene.bindings.length) machine)
      machine evaluation scene) :
    stage.Does left post machine (Evaluation.block evaluation) scene := by
  refine .inspect (does.bind ?_)
  intro value later machine holds _ _
  exact ⟨machine, .stay, holds⟩

/-- The body of a loop is left where the loop says, and the loop goes on to its end. -/
theorem untilLeft {body : Evaluation Unit} {post : Bool → Scene → Machine → Prop}
    (does : stage.Does
      (fun later machine => post false (later.outer scene.bindings.length) machine)
      (fun _ later machine => post true (later.outer scene.bindings.length) machine)
      machine body scene) :
    stage.Does left post machine (Evaluation.untilLeft body) scene := by
  intro alive
  have does := does alive
  unfold Evaluation.untilLeft
  rcases ended : body scene with ⟨flow, after⟩
  rw [ended] at does
  cases flow with
  | unfinished => intro unfinished; exact absurd rfl unfinished
  | _ => intro _; exact does nofun

/-- A loop goes on as long as its turns keep an invariant. -/
theorem loop {turn : σ → Evaluation (Option σ)} (invariant post : σ → Scene → Machine → Prop)
    (turns : ∀ state scene machine, invariant state scene machine →
      stage.Does left
        (fun next => match next with
          | some next => invariant next
          | none => post state)
        machine (turn state) scene)
    (bound : Nat) {state : σ} (holds : invariant state scene machine) :
    stage.Does left post machine (Evaluation.loop turn bound state) scene := by
  induction bound generalizing state scene machine with
  | zero =>
      intro _ unfinished
      exact absurd rfl unfinished
  | succ bound ih =>
      refine (turns state scene machine holds).bind ?_
      intro next scene machine holds
      cases next with
      | some next => exact ih holds
      | none => exact .pure holds

theorem fault {cause : RuntimeFault}
    (steps : stage.surroundings.Steps machine (.error cause, later))
    (same : later.store = scene.world.store) :
    stage.Does left post machine (Evaluation.fault cause) scene := by
  intro _ _
  exact ⟨machine, .stay, later, steps, same⟩

/-! ## Instructions -/

section Instructions

variable {instruction : Instruction} {rest : List Instruction} {ip there slot locals : Nat}
  {scope : List (String × Nat)} {hidden : List (Nat × Value)} {operands args : List Value}
  {name : String} {value : Value} {frame : Frame} {slots : List Value} {world : World}
  (solid : stage.Solid)

include solid

/-- An instruction that has an effect and leaves a value, which tells what the effect gives. -/
theorem deliversAs {effect : Effect β} (embed : β → Value)
    (stands : stage.Stands ip (instruction :: rest))
    (shows : stage.Shows scope hidden ip (operands ++ args) scene machine)
    (stepped : ∀ {values : List Value} {ip base depth : Nat} {debug : List DebugContext}
        {store : Store}, (ScriptMachine.step stage.surroundings instruction).run
          ⟨.ofList stage.capacity (values ++ args), ip, base, depth, debug, store⟩ =
        deliver stage.capacity values ip base depth debug
          ((effect store).1.map embed, (effect store).2)) :
    stage.Does left (fun value => stage.Shows scope hidden (ip + 1) (operands ++ [embed value]))
      machine (.effect effect) scene := by
  rcases shows with ⟨early, slots, rfl, holds⟩
  simp only [List.length_append] at early
  have fewer : stage.start + operands.length ≤ ip := by omega
  have room := solid.room_operands stands fewer holds
  intro _ _
  unfold Evaluation.effect
  rcases result : effect scene.world.store with ⟨fault | value, store⟩
  · refine ⟨_, .stay, stage.machine (ip + 1) slots operands
      ⟨scene.world.globals, store, scene.world.yielded⟩, stands.stepsWith solid ?_, rfl⟩
    rw [stepped, result]
    rfl
  · have steps : stage.surroundings.Steps (stage.machine ip slots (operands ++ args) scene.world)
        (.ok .next, stage.machine (ip + 1) slots (operands ++ [embed value])
          ⟨scene.world.globals, store, scene.world.yielded⟩) := by
      refine stands.stepsWith solid ?_
      rw [stepped, result, machine_append]
      exact deliver_room room
    refine ⟨_, .step steps, ?_, slots, rfl, holds.withStore store scene.world.yielded⟩
    simp only [List.length_append, List.length_cons, List.length_nil]
    omega

theorem delivers {effect : Effect Value} (stands : stage.Stands ip (instruction :: rest))
    (shows : stage.Shows scope hidden ip (operands ++ args) scene machine)
    (stepped : ∀ {values : List Value} {ip base depth : Nat} {debug : List DebugContext}
        {store : Store}, (ScriptMachine.step stage.surroundings instruction).run
          ⟨.ofList stage.capacity (values ++ args), ip, base, depth, debug, store⟩ =
        deliver stage.capacity values ip base depth debug (effect store)) :
    stage.Does left (fun value => stage.Shows scope hidden (ip + 1) (operands ++ [value])) machine
      (.effect effect) scene := by
  refine deliversAs solid id stands shows ?_
  intro values ip base depth debug store
  rw [stepped]
  rcases effect store with ⟨fault | value, later⟩ <;> rfl

theorem settles {effect : Effect Unit} (stands : stage.Stands ip (instruction :: rest))
    (shows : stage.Shows scope hidden ip (operands ++ args) scene machine)
    (stepped : ∀ {values : List Value} {ip base depth : Nat} {debug : List DebugContext}
        {store : Store}, (ScriptMachine.step stage.surroundings instruction).run
          ⟨.ofList stage.capacity (values ++ args), ip, base, depth, debug, store⟩ =
        settle stage.capacity values ip base depth debug (effect store)) :
    stage.Does left (fun _ => stage.Shows scope hidden (ip + 1) operands) machine
      (.effect effect) scene := by
  rcases shows with ⟨early, slots, rfl, holds⟩
  simp only [List.length_append] at early
  intro _ _
  unfold Evaluation.effect
  rcases result : effect scene.world.store with ⟨fault | value, store⟩
  · refine ⟨_, .stay, stage.machine (ip + 1) slots operands
      ⟨scene.world.globals, store, scene.world.yielded⟩, stands.stepsWith solid ?_, rfl⟩
    rw [stepped, result]
    rfl
  · have steps : stage.surroundings.Steps (stage.machine ip slots (operands ++ args) scene.world)
        (.ok .next, stage.machine (ip + 1) slots operands
          ⟨scene.world.globals, store, scene.world.yielded⟩) := by
      refine stands.stepsWith solid ?_
      rw [stepped, result]
      rfl
    refine ⟨_, .step steps, ?_, slots, rfl, holds.withStore store scene.world.yielded⟩
    omega

theorem pushes (stands : stage.Stands ip (instruction :: rest))
    (shows : stage.Shows scope hidden ip operands scene machine)
    (stepped : ∀ {slots : List Value} {depth : Nat} {debug : List DebugContext} {store : Store},
      stage.Holds scope hidden slots scene →
      (ScriptMachine.step stage.surroundings instruction).run
          ⟨.ofList stage.capacity (scene.world.globals ++ stage.below ++ slots ++ operands), ip + 1,
            scene.world.globals.length + stage.below.length, depth, debug, store⟩ =
        deliver stage.capacity (scene.world.globals ++ stage.below ++ slots ++ operands) (ip + 1)
          (scene.world.globals.length + stage.below.length) depth debug (.ok value, store))
    (next : ∀ later, stage.Shows scope hidden (ip + 1) (operands ++ [value]) scene later →
      stage.Does left post later evaluation scene) :
    stage.Does left post machine evaluation scene := by
  rcases shows with ⟨early, slots, rfl, holds⟩
  have room := solid.room_operands stands early holds
  have steps : stage.surroundings.Steps (stage.machine ip slots operands scene.world)
      (.ok .next, stage.machine (ip + 1) slots (operands ++ [value]) scene.world) := by
    refine stands.steps solid ?_
    rw [machine, stepped holds, deliver_room room, machine_append]
  refine .step steps (next _ ⟨?_, slots, rfl, holds⟩)
  simp only [List.length_append, List.length_cons, List.length_nil]
  omega

theorem pushConst {constant : Constant} (stands : stage.Stands ip (.pushConst constant :: rest))
    (shows : stage.Shows scope hidden ip operands scene machine)
    (next : ∀ later,
      stage.Shows scope hidden (ip + 1) (operands ++ [.ofConstant constant]) scene later →
      stage.Does left post later evaluation scene) :
    stage.Does left post machine evaluation scene :=
  pushes solid stands shows (fun _ => step_pushConst constant) next

omit solid in
theorem getElem?_slot (found : slots[slot]? = some value) :
    (world.globals ++ stage.below ++ slots ++ operands)[
      world.globals.length + stage.below.length + slot]? = some value := by
  have inside : slot < slots.length := (List.getElem?_eq_some_iff.mp found).1
  rw [List.getElem?_append_left (by simp only [List.length_append]; omega),
    List.getElem?_append_right (by simp only [List.length_append]; omega), ← found]
  congr 1
  simp only [List.length_append]
  omega

omit solid in
theorem set_slot (inside : slot < slots.length) :
    (world.globals ++ stage.below ++ slots ++ operands).set
        (world.globals.length + stage.below.length + slot) value =
      world.globals ++ stage.below ++ slots.set slot value ++ operands := by
  rw [List.set_append_left _ _ (by simp only [List.length_append]; omega),
    List.set_append_right _ _ (by simp only [List.length_append]; omega)]
  congr 3
  simp only [List.length_append]
  omega

theorem loadHidden (stands : stage.Stands ip (.loadLocal slot :: rest))
    (shows : stage.Shows scope hidden ip operands scene machine) (known : (slot, value) ∈ hidden)
    (next : ∀ later, stage.Shows scope hidden (ip + 1) (operands ++ [value]) scene later →
      stage.Does left post later evaluation scene) :
    stage.Does left post machine evaluation scene :=
  pushes solid stands shows
    (fun holds => step_loadLocal (getElem?_slot (holds.hidden _ known))) next

theorem loadVariable (stands : stage.Stands ip (.loadLocal slot :: rest))
    (shows : stage.Shows scope hidden ip operands scene machine)
    (arranged : Arranged frame scope hidden locals) (inside : frame.slot locals ≤ stage.slots)
    (found : scope.lookup name = some slot)
    (next : ∀ later, stage.Shows scope hidden (ip + 1)
        (operands ++ [(scene.bindings.lookup name).getD .unit]) scene later →
      stage.Does left post later evaluation scene) :
    stage.Does left post machine evaluation scene := by
  refine pushes solid stands shows (fun holds => step_loadLocal (getElem?_slot ?_)) next
  have below := arranged.bindings _ (mem_of_lookup found)
  have filled := holds.size
  rw [holds.bindings, lookup_readScope, found, Option.map_some, Option.getD_some,
    List.getD_eq_getElem?_getD]
  rw [List.getElem?_eq_getElem (by simp only at below; omega)]
  rfl

theorem loadGlobal (stands : stage.Stands ip (.loadGlobal slot :: rest))
    (shows : stage.Shows scope hidden ip operands scene machine) (inside : slot < stage.globals)
    (next : ∀ later, stage.Shows scope hidden (ip + 1)
        (operands ++ [scene.world.globals.getD slot .unit]) scene later →
      stage.Does left post later evaluation scene) :
    stage.Does left post machine evaluation scene := by
  refine pushes solid stands shows (fun holds => step_loadGlobal ?_) next
  have filled := holds.globals
  rw [List.append_assoc, List.append_assoc, List.getElem?_append_left (by omega),
    List.getD_eq_getElem?_getD, List.getElem?_eq_getElem (by omega)]
  rfl

theorem stores (stands : stage.Stands ip (.storeLocal slot :: rest))
    (holds : stage.Holds scope hidden slots scene) (inside : slot < stage.slots) :
    stage.surroundings.Steps (stage.machine ip slots (operands ++ [value]) scene.world)
      (.ok .next, stage.machine (ip + 1) (slots.set slot value) operands scene.world) := by
  have filled : slot < slots.length := holds.size ▸ inside
  refine stands.stepsWith solid ?_
  rw [step_storeLocal (by simp only [List.length_append]; omega), set_slot filled]
  rfl

theorem storeHidden {locals : Nat} (stands : stage.Stands ip (.storeLocal (frame.slot locals) :: rest))
    (shows : stage.Shows scope hidden ip (operands ++ [value]) scene machine)
    (arranged : Arranged frame scope hidden locals) (inside : frame.slot locals < stage.slots)
    (next : ∀ later,
      stage.Shows scope ((frame.slot locals, value) :: hidden) (ip + 1) operands scene later →
      stage.Does left post later evaluation scene) :
    stage.Does left post machine evaluation scene := by
  rcases shows with ⟨early, slots, rfl, holds⟩
  refine .step (stores solid stands holds inside)
    (next _ ⟨?_, _, rfl, holds.hide arranged inside value⟩)
  simp only [List.length_append] at early
  omega

theorem declares {locals : Nat} (stands : stage.Stands ip (.storeLocal (frame.slot locals) :: rest))
    (shows : stage.Shows scope hidden ip (operands ++ [value]) scene machine)
    (arranged : Arranged frame scope hidden locals) (inside : frame.slot locals < stage.slots) :
    stage.Does left
      (fun _ => stage.Shows ((name, frame.slot locals) :: scope) hidden (ip + 1) operands)
      machine (.declare name value) scene := by
  rcases shows with ⟨early, slots, rfl, holds⟩
  intro _ _
  refine ⟨_, .step (stores solid stands holds inside), ?_, _, rfl,
    holds.declare arranged inside name value⟩
  simp only [List.length_append] at early
  omega

theorem assigns (stands : stage.Stands ip (.storeLocal slot :: rest))
    (shows : stage.Shows scope hidden ip (operands ++ [value]) scene machine)
    (arranged : Arranged frame scope hidden locals) (inside : frame.slot locals ≤ stage.slots)
    (found : scope.lookup name = some slot) :
    stage.Does left (fun _ => stage.Shows scope hidden (ip + 1) operands) machine
      (.update fun scene =>
        { scene with bindings := Standpoint.assigned name value scene.bindings }) scene := by
  rcases shows with ⟨early, slots, rfl, holds⟩
  have below : slot < frame.slot locals := arranged.bindings _ (mem_of_lookup found)
  intro _ _
  refine ⟨_, .step (stores solid stands holds (by omega)), ?_, _, rfl,
    holds.assign arranged inside found value⟩
  simp only [List.length_append] at early
  omega

theorem jump (stands : stage.Stands ip (.jump there :: rest))
    (shows : stage.Shows scope hidden ip operands scene machine)
    (early : stage.start + operands.length ≤ there)
    (next : ∀ later, stage.Shows scope hidden there operands scene later →
      stage.Does left post later evaluation scene) :
    stage.Does left post machine evaluation scene := by
  rcases shows with ⟨_, slots, rfl, holds⟩
  exact .step (stands.steps solid step_jump) (next _ ⟨early, slots, rfl, holds⟩)

/-- A test that goes on behind the jump or at its target. -/
theorem branches (stands : stage.Stands ip (.jumpIfFalse there :: rest))
    (shows : stage.Shows scope hidden ip (operands ++ [value]) scene machine)
    (early : stage.start + operands.length ≤ there)
    (next : ∀ later,
      stage.Shows scope hidden (if value.isTruthy then ip + 1 else there) operands scene later →
      stage.Does left post later evaluation scene) :
    stage.Does left post machine evaluation scene := by
  rcases shows with ⟨first, slots, rfl, holds⟩
  have steps : stage.surroundings.Steps (stage.machine ip slots (operands ++ [value]) scene.world)
      (.ok .next, stage.machine (if value.isTruthy then ip + 1 else there) slots operands
        scene.world) := by
    refine stands.stepsWith solid ?_
    rw [step_jumpIfFalse]
    rfl
  refine .step steps (next _ ⟨?_, slots, rfl, holds⟩)
  simp only [List.length_append] at first
  split <;> omega

theorem pops (stands : stage.Stands ip (.pop :: rest))
    (shows : stage.Shows scope hidden ip (operands ++ [value]) scene machine)
    (next : ∀ later, stage.Shows scope hidden (ip + 1) operands scene later →
      stage.Does left post later evaluation scene) :
    stage.Does left post machine evaluation scene := by
  rcases shows with ⟨early, slots, rfl, holds⟩
  have steps : stage.surroundings.Steps (stage.machine ip slots (operands ++ [value]) scene.world)
      (.ok .next, stage.machine (ip + 1) slots operands scene.world) :=
    stands.stepsWith solid step_pop
  simp only [List.length_append] at early
  exact .step steps (next _ ⟨by omega, slots, rfl, holds⟩)

theorem emits (stands : stage.Stands ip (.yieldValue :: rest))
    (shows : stage.Shows scope hidden ip (operands ++ [value]) scene machine) :
    stage.Does left (fun _ => stage.Shows scope hidden (ip + 1) operands) machine (.emit value)
      scene := by
  rcases shows with ⟨early, slots, rfl, holds⟩
  have steps : stage.surroundings.Steps (stage.machine ip slots (operands ++ [value]) scene.world)
      (.ok (.yielded value), stage.machine (ip + 1) slots operands scene.world) :=
    stands.stepsWith solid step_yieldValue
  simp only [List.length_append] at early
  intro _ _
  exact ⟨_, .yields steps .stay, by omega, slots, rfl, holds.withStore _ _⟩

end Instructions

end Does

/-! ## Readiness -/

/-- What is known where the code of a part of a function stands: how slots are taken, how many
operands wait, and how the innermost loop is left. -/
structure Ready (stage : Stage) (frame : Frame) (left : Scene → Machine → Prop) (stop : Nat)
    (site : Site) (locals : Nat) (hidden : List (Nat × Value)) (operands : List Value) : Prop where
  arranged : Arranged frame site.scope hidden locals
  count : operands.length = site.operands
  fixed : stage.fixed ⊆ hidden
  leave : ∀ count, site.loopOperands = some count → count ≤ operands.length ∧
    ∀ slots scene, stage.Holds site.scope hidden slots (scene.outer site.scope.length) →
      left scene (stage.machine stop slots (operands.take count) scene.world)

namespace Ready

variable {frame : Frame} {stop locals more : Nat} {site : Site} {hidden : List (Nat × Value)}
  {operands : List Value}

theorem mono (ready : stage.Ready frame left stop site locals hidden operands)
    (grows : locals ≤ more) : stage.Ready frame left stop site more hidden operands :=
  ⟨ready.arranged.mono grows, ready.count, ready.fixed, ready.leave⟩

theorem after (ready : stage.Ready frame left stop site locals hidden operands) (count : Nat) :
    stage.Ready frame left stop (site.after count) locals hidden operands :=
  ⟨ready.arranged, ready.count, ready.fixed, ready.leave⟩

theorem deeper (ready : stage.Ready frame left stop site locals hidden operands)
    (args : List Value) :
    stage.Ready frame left stop (site.deeper args.length) locals hidden (operands ++ args) where
  arranged := ready.arranged
  count := by
    simp only [List.length_append, ready.count, Site.deeper]
  fixed := ready.fixed
  leave count inLoop := by
    rcases ready.leave count inLoop with ⟨enough, leave⟩
    refine ⟨by simp only [List.length_append]; omega, ?_⟩
    rw [List.take_append_of_le_length enough]
    exact leave

theorem bind (ready : stage.Ready frame left stop site locals hidden operands) (name : String) :
    stage.Ready frame left stop (site.bind name (frame.slot locals)) (locals + 1) hidden
      operands where
  arranged := ready.arranged.bind name
  count := ready.count
  fixed := ready.fixed
  leave count inLoop := by
    rcases ready.leave count inLoop with ⟨enough, leave⟩
    exact ⟨enough, fun slots scene holds => leave slots scene holds.outer⟩

theorem hide (ready : stage.Ready frame left stop site locals hidden operands) (value : Value) :
    stage.Ready frame left stop site (locals + 1) ((frame.slot locals, value) :: hidden)
      operands where
  arranged := ready.arranged.hide value
  count := ready.count
  fixed := fun _ member => List.mem_cons_of_mem _ (ready.fixed member)
  leave count inLoop := by
    rcases ready.leave count inLoop with ⟨enough, leave⟩
    refine ⟨enough, fun slots scene holds => leave slots scene (holds.mono ?_)⟩
    exact List.subset_cons_self _ _

/-- The body of a loop that goes on at `stop` when it is left. -/
theorem enterLoop {within : Nat} (ready : stage.Ready frame left stop site locals hidden operands)
    (implies : ∀ slots scene, stage.Holds site.scope hidden slots (scene.outer site.scope.length) →
      leftInside scene (stage.machine within slots operands scene.world)) :
    stage.Ready frame leftInside within site.enterLoop locals hidden operands where
  arranged := ready.arranged
  count := ready.count
  fixed := ready.fixed
  leave count inLoop := by
    have same : site.operands = count := Option.some.inj inLoop
    refine ⟨by rw [ready.count]; omega, ?_⟩
    rw [List.take_of_length_le (by rw [ready.count]; omega)]
    exact implies

end Ready

end Stage

end ScriptMachine
