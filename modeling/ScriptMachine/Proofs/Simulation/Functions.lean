import Mathlib.Algebra.GroupWithZero.Nat
import ScriptMachine.Proofs.Simulation.Bodies

/-!
# Functions

A function that has been entered takes its frame, carries out its body and returns. So it does what
it means if the functions that it calls do; by induction on how many functions may be active at a
time, all of them do. What a frame needs of the stack can be read off the program.
-/

namespace ScriptMachine

/-! ## Heights -/

/-- How much an instruction can add to the height of one frame. -/
def Instruction.growth : Instruction → Nat
  | .allocFrame count => count + 1
  | _ => 1

namespace Program

/-- How high a frame can get, the arguments aside. -/
def frameHeight (program : Program) : Nat :=
  frameHeader + (program.instructions.toList.map Instruction.growth).sum

theorem length_le_growth (code : List Instruction) :
    code.length ≤ (code.map Instruction.growth).sum := by
  induction code with
  | nil => exact Nat.le_refl 0
  | cons instruction rest ih =>
      have grows : 1 ≤ instruction.growth := by
        cases instruction <;> simp [Instruction.growth]
      simp only [List.length_cons, List.map_cons, List.sum_cons]
      omega

theorem size_lt_frameHeight (program : Program) : program.size < program.frameHeight := by
  have fewer := length_le_growth program.instructions.toList
  simp only [frameHeight, frameHeader, size, ← Array.length_toList]
  omega

/-- The frame of every function is as high as frames can get at most. -/
theorem height_le_frameHeight {program : Program} {placement : Placement} {locals : Nat}
    {body : Code} (emitted : placement.Emitted program)
    (wrapped : placement.code = placement.source.wrap placement.offset locals body) :
    frameHeader + locals + placement.code.length ≤ program.frameHeight := by
  rcases emitted with ⟨before, after, listed, _⟩
  have rest := length_le_growth placement.code.tail
  have split : placement.code = .allocFrame locals :: placement.code.tail := by
    rw [wrapped]
    rfl
  have sum : (placement.code.map Instruction.growth).sum =
      locals + 1 + (placement.code.tail.map Instruction.growth).sum := by
    rw [split]
    rfl
  have length : placement.code.length = placement.code.tail.length + 1 := by
    rw [split]
    rfl
  simp only [frameHeight, listed, List.map_append, List.sum_append]
  omega

end Program

/-! ## Frames of functions -/

theorem readScope_parameters {params : List String} {args front back : List Value}
    (length : args.length = params.length) :
    readScope (params.zipIdx front.length) (front ++ args ++ back) = params.zip args := by
  induction params generalizing args front with
  | nil => rfl
  | cons name params ih =>
      cases args with
      | nil => cases length
      | cons value args =>
          have others := @ih args (front ++ [value]) (Nat.succ.inj length)
          rw [List.length_append, List.append_assoc front] at others
          have first : (front ++ value :: args ++ back).getD front.length .unit = value := by
            simp [List.getD_eq_getElem?_getD]
          rw [List.zipIdx_cons, List.zip_cons_cons]
          change (name, (front ++ value :: args ++ back).getD front.length .unit) ::
            readScope _ _ = _
          rw [first]
          exact congrArg _ others

theorem slot_parameterScope {params : List String} {first : Nat} {entry : String × Nat}
    (member : entry ∈ parameterScope first params) :
    first ≤ entry.2 ∧ entry.2 < first + params.length := by
  have member := List.mem_reverse.mp member
  exact ⟨List.le_snd_of_mem_zipIdx member, List.snd_lt_add_of_mem_zipIdx member⟩

theorem nodup_parameterScope {params : List String} {first : Nat} :
    ((parameterScope first params).map Prod.snd).Nodup := by
  rw [parameterScope, List.map_reverse, List.zipIdx_map_snd]
  exact List.pairwise_reverse.mpr ((List.nodup_range' 1).imp Ne.symm)

/-- A program that was made of a script: its functions stand where they were laid out. -/
structure Script.Built (script : Script) (surroundings : Surroundings) (placed : List Placement) :
    Prop where
  registry : script.registry = surroundings.registry
  names : surroundings.program.globals = script.globals
  linked : script.Linked surroundings.program placed
  lowered : ∀ placement ∈ placed, ∃ actions,
    lowerFunction script.linkage placement.offset placement.source = .ok (placement.code, actions)
  emitted : ∀ placement ∈ placed, placement.Emitted surroundings.program

namespace Caller

/-- What a frame holds beside variables: the header, and the carrier of an action. -/
def fixed (caller : Caller) (source : FunctionSource) (carrier : Option ArrayId) :
    List (Nat × Value) :=
  [(source.arity, .int (Int64.ofNat caller.base)),
    (source.arity + 1, .int (Int64.ofNat caller.ip))] ++
    (carrier.map fun id => (0, Value.array id)).toList

/-- The stage of a function that has been called. -/
def stage (caller : Caller) (surroundings : Surroundings) (capacity reserve locals : Nat)
    (placement : Placement) (carrier : Option ArrayId) : Stage where
  surroundings := surroundings
  capacity := capacity
  below := caller.below
  depth := caller.depth
  debug := ⟨placement.source.unit, placement.source.qualified, placement.source.range⟩ ::
    caller.debug
  globals := surroundings.program.globals.length
  slots := placement.source.arity + frameHeader + locals
  arity := placement.source.arity
  start := placement.offset
  code := placement.code
  fixed := caller.fixed placement.source carrier
  reserve := reserve

end Caller

section Functions

variable {script : Script} {surroundings : Surroundings} {placed : List Placement}
  {placement : Placement} {capacity reserve locals : Nat} {body : Code} {caller : Caller}
  {carrier : Option ArrayId} {args : List Value} {world : World} {runner : FunctionRun}

theorem length_passed (hidesCarrier : carrier.isSome = placement.source.captures.isSome)
    (arity : args.length = placement.source.params.length) :
    (passed carrier args).length = placement.source.arity := by
  rw [passed, List.length_append, arity, FunctionSource.arity, FunctionSource.carrierCount,
    ← hidesCarrier]
  cases carrier <;> simp [Nat.add_comm]

namespace Caller

theorem solid (emitted : placement.Emitted surroundings.program) (active : 0 < caller.depth)
    (wrapped : placement.code = placement.source.wrap placement.offset locals body)
    (room : surroundings.program.globals.length + caller.below.length + placement.source.arity +
      (reserve + surroundings.program.frameHeight) ≤ capacity) :
    (caller.stage surroundings capacity reserve locals placement carrier).Solid where
  emitted := emitted
  room := by
    have height := Program.height_le_frameHeight emitted wrapped
    simp only [stage]
    omega
  active := active

/-- The free slots and those of the parameters, as a function finds them. -/
theorem arranged {linkage : Linkage}
    (hidesCarrier : carrier.isSome = placement.source.captures.isSome) :
    Arranged ⟨linkage, placement.source⟩
      (parameterScope placement.source.carrierCount placement.source.params)
      (caller.fixed placement.source carrier) 0 where
  distinct := nodup_parameterScope
  bindings entry member := by
    have bounds := slot_parameterScope member
    simp only [Frame.slot, FunctionSource.arity]
    omega
  hidden entry member := by
    simp only [fixed, List.cons_append, List.nil_append, List.mem_cons] at member
    rcases member with rfl | rfl | member
    · refine ⟨by simp only [Frame.slot, frameHeader]; omega, ?_⟩
      intro other among
      have bounds := slot_parameterScope among
      simp only [FunctionSource.arity]
      omega
    · refine ⟨by simp only [Frame.slot, frameHeader]; omega, ?_⟩
      intro other among
      have bounds := slot_parameterScope among
      simp only [FunctionSource.arity]
      omega
    · cases carrier with
      | none => cases member
      | some id =>
          cases List.mem_singleton.mp member
          refine ⟨by simp only [Frame.slot, frameHeader]; omega, ?_⟩
          intro other among
          have bounds := slot_parameterScope among
          have count : placement.source.carrierCount = 1 := by
            simp [FunctionSource.carrierCount, ← hidesCarrier]
          simp only
          omega

theorem holds (hidesCarrier : carrier.isSome = placement.source.captures.isSome)
    (arity : args.length = placement.source.params.length)
    (globals : world.globals.length = surroundings.program.globals.length) :
    (caller.stage surroundings capacity reserve locals placement carrier).Holds
      (parameterScope placement.source.carrierCount placement.source.params)
      (caller.fixed placement.source carrier)
      (passed carrier args ++ (headerWords caller.base caller.ip ++ .replicate locals .unit))
      ⟨(placement.source.params.zip args).reverse, world⟩ where
  size := by
    simp only [List.length_append, length_passed hidesCarrier arity, length_headerWords,
      List.length_replicate, stage, frameHeader]
    omega
  globals := globals
  bindings := by
    have count : placement.source.carrierCount = (carrier.map Value.array).toList.length := by
      rw [FunctionSource.carrierCount, ← hidesCarrier]
      cases carrier <;> rfl
    rw [readScope, parameterScope, List.map_reverse, count, passed]
    exact congrArg List.reverse (readScope_parameters arity).symm
  hidden entry member := by
    have length := length_passed hidesCarrier arity
    simp only [fixed, List.cons_append, List.nil_append, List.mem_cons] at member
    rcases member with rfl | rfl | member
    · rw [List.getElem?_append_right (by simp only; omega), length]
      simp [headerWords]
    · rw [List.getElem?_append_right (by simp only; omega), length]
      simp [headerWords]
    · cases carrier with
      | none => cases member
      | some id =>
          cases List.mem_singleton.mp member
          rfl

theorem opens (solid : (caller.stage surroundings capacity reserve locals placement carrier).Solid)
    (wrapped : placement.code = placement.source.wrap placement.offset locals body)
    (hidesCarrier : carrier.isSome = placement.source.captures.isSome)
    (arity : args.length = placement.source.params.length)
    (globals : world.globals.length = surroundings.program.globals.length) {yielded : List Value} :
    surroundings.Goes (caller.entered capacity placement.offset (passed carrier args) world) yielded
      ((caller.stage surroundings capacity reserve locals placement carrier).machine
        (placement.offset + 2)
        (passed carrier args ++ (headerWords caller.base caller.ip ++ .replicate locals .unit)) []
        world)
      yielded := by
  have room := solid.room
  have length := length_passed hidesCarrier arity
  have stands : (caller.stage surroundings capacity reserve locals placement carrier).Stands
      placement.offset (placement.source.wrap placement.offset locals body) :=
    ⟨[], [], by simp [stage, wrapped], rfl⟩
  simp only [Stage.machine, List.append_nil, ← List.append_assoc, ← List.length_append]
  refine .next ⟨_, stands.found solid, step_allocFrame ?_⟩
    (.next ⟨_, stands.tail.found solid, step_pushDebug _⟩ .stay)
  simp only [stage] at room
  simp only [List.length_append, length_headerWords, length, globals]
  simp only [frameHeader] at room
  omega

/-- A function that is about to return answers its caller. -/
theorem answers (solid : (caller.stage surroundings capacity reserve locals placement carrier).Solid)
    (baseSmall : caller.base < twoTo 63) (ipSmall : caller.ip < twoTo 63) {value : Value}
    {scene : Scene} {machine : Machine} {yielded : List Value}
    (returning : (caller.stage surroundings capacity reserve locals placement carrier).Returning
      value scene machine) :
    ∃ later, surroundings.Goes machine yielded later yielded ∧
      surroundings.Answers capacity caller (some (.ok value)) scene.world later := by
  rcases returning with ⟨scope, ip, operands, stands, early, slots, rfl, holds⟩
  have inFrame : ∀ entry ∈ caller.fixed placement.source carrier,
      (slots ++ operands)[entry.1]? = some entry.2 := by
    intro entry member
    have held := holds.hidden entry member
    have inside := (List.getElem?_eq_some_iff.mp held).1
    rw [List.getElem?_append_left inside, held]
  have room : (scene.world.globals ++ caller.below).length < capacity := by
    simp only [List.length_append] at early
    have fewer := Nat.le_trans (Nat.add_le_add_left (Nat.le_add_right _ _) _) early
    have enough := solid.room_operands stands fewer holds
    simp only [List.length_append] at enough ⊢
    simp only [stage] at enough
    omega
  have popped := @Stage.Stands.stepsWith _ ip _ _ slots operands [value] scene.world _ stands solid
    step_popDebug
  have returned := @step_returnValue surroundings capacity (ip + 2) caller.depth
    (scene.world.globals ++ caller.below) value caller.debug scene.world.store (slots ++ operands)
    caller.base caller.ip placement.source.arity baseSmall ipSmall room
    (inFrame (placement.source.arity, _) List.mem_cons_self)
    (inFrame (placement.source.arity + 1, _) (List.mem_cons_of_mem _ List.mem_cons_self))
  rw [← List.append_assoc, List.length_append] at returned
  refine ⟨_, .step popped, holds.globals, _, ⟨_, stands.tail.found solid, returned⟩, ?_⟩
  have active := solid.active
  simp only [stage] at active
  rw [Answered]
  by_cases last : caller.depth = 1
  · rw [if_pos last, if_pos (by omega)]
    exact ⟨rfl, rfl⟩
  · rw [if_neg last, if_neg (by omega)]
    rfl

theorem stands (wrapped : placement.code = placement.source.wrap placement.offset locals body) :
    (caller.stage surroundings capacity reserve locals placement carrier).Stands placement.offset
      (placement.source.wrap placement.offset locals body) :=
  ⟨[], [], by simp [stage, wrapped], rfl⟩

end Caller

/-! ## Runs of functions -/

namespace Script.Built

variable {depth : Nat}

theorem suits (built : script.Built surroundings placed)
    (solid : (caller.stage surroundings capacity reserve locals placement carrier).Solid)
    (hidesCarrier : carrier.isSome = placement.source.captures.isSome)
    (runs : surroundings.RunsFunctions capacity placed reserve runner) :
    (caller.stage surroundings capacity reserve locals placement carrier).Suits
      ⟨script, placement.source, carrier, runner⟩ ⟨script.linkage, placement.source⟩ placed where
  solid := solid
  of := ⟨rfl, rfl⟩
  arity := rfl
  registry := built.registry
  names := built.names
  globals := congrArg List.length built.names
  carried name index kept := by
    cases carrier with
    | some id => simp [Caller.stage, Caller.fixed, Standpoint.carried]
    | none =>
        have none : placement.source.captures = none := by simpa using hidesCarrier.symm
        simp [FunctionSource.kept, none] at kept
  linked := built.linked
  runs := runs

/-- The code of a function carries out its body, and then it is about to return. -/
theorem does (built : script.Built surroundings placed)
    (runs : surroundings.RunsFunctions capacity placed reserve runner) {progress : Progress}
    (bodyLowered : LowersStmts ⟨script.linkage, placement.source⟩
      (placement.source.site placement.offset) ⟨0, []⟩ placement.source.body body progress)
    (wrapped : placement.code = placement.source.wrap placement.offset progress.locals body)
    (solid : (caller.stage surroundings capacity reserve progress.locals placement carrier).Solid)
    (hidesCarrier : carrier.isSome = placement.source.captures.isSome)
    (arity : args.length = placement.source.params.length)
    (globals : world.globals.length = surroundings.program.globals.length) :
    ∃ count, (caller.stage surroundings capacity reserve progress.locals placement carrier).Does
      (fun _ _ => False)
      (fun _ later => (caller.stage surroundings capacity reserve progress.locals placement
        carrier).Returning .unit (later.outer count))
      ((caller.stage surroundings capacity reserve progress.locals placement carrier).machine
        (placement.offset + 2)
        (passed carrier args ++
          (headerWords caller.base caller.ip ++ .replicate progress.locals .unit)) [] world)
      (Stmt.evalAll ⟨script, placement.source, carrier, runner⟩ 0 placement.source.body)
      ⟨(placement.source.params.zip args).reverse, world⟩ := by
  have code := @Caller.stands surroundings placement capacity reserve progress.locals body caller
    carrier wrapped
  have ready : (caller.stage surroundings capacity reserve progress.locals placement carrier).Ready
      ⟨script.linkage, placement.source⟩ (fun _ _ => False) (placement.offset + 2 + body.length)
      (placement.source.site placement.offset) 0 (caller.fixed placement.source carrier) [] :=
    ⟨Caller.arranged hidesCarrier, rfl, List.Subset.refl _, nofun⟩
  have bodyDoes := bodyLowered.does (built.suits solid hidesCarrier runs) ready (Nat.le_refl _)
    code.left.right
  have finished := bodyDoes ⟨(placement.source.params.zip args).reverse, world⟩ _
    ⟨Nat.le_add_right _ _, _, rfl, Caller.holds hidesCarrier arity globals⟩
  have ends := code.right
  rw [List.length_append, Code.length_closeLoop, ← Nat.add_assoc] at ends
  refine ⟨_, finished.andThenOuter ?_⟩
  intro _ scene machine shows
  refine .pushConst solid ends shows ?_
  intro later shows
  exact .pure ⟨_, _, [], ends.tail, shows⟩

/-- Functions do what they mean if those that they call do. -/
theorem runs_succ (built : script.Built surroundings placed)
    (runs : surroundings.RunsFunctions capacity placed reserve (script.run depth)) :
    surroundings.RunsFunctions capacity placed (reserve + surroundings.program.frameHeight)
      (script.run (depth + 1)) := by
  intro placement member carrier args world caller hidesCarrier arity globals baseSmall ipSmall
    active height finished
  refine ⟨by simp only [Program.frameHeight, frameHeader]; omega, ?_⟩
  intro alive
  rcases built.lowered placement member with ⟨actions, lowered⟩
  rcases lowerFunction_ok lowered with ⟨body, progress, bodyLowered, wrapped, _⟩
  have solid : (caller.stage surroundings capacity reserve progress.locals placement
      carrier).Solid := by
    refine Caller.solid (built.emitted placement member) active wrapped ?_
    simp only [List.length_append, length_passed hidesCarrier arity, globals] at height
    omega
  have opens := @Caller.opens _ _ _ _ _ _ _ _ _ _ solid wrapped hidesCarrier arity globals
    world.yielded
  rcases built.does runs bodyLowered wrapped solid hidesCarrier arity globals with ⟨count, does⟩
  have does := does (alive.goes opens)
  simp only [run] at finished ⊢
  rcases result : Stmt.evalAll ⟨script, placement.source, carrier, script.run depth⟩ 0
    placement.source.body ⟨(placement.source.params.zip args).reverse, world⟩ with ⟨flow, scene⟩
  rw [result] at does finished
  cases flow with
  | normal value =>
      rcases does (by simp) with ⟨last, goes, returning⟩
      rcases Caller.answers solid baseSmall ipSmall returning with ⟨later, leaves, answers⟩
      exact ⟨later, (opens.trans goes).trans leaves, answers⟩
  | leaves =>
      rcases does (by simp) with ⟨last, goes, impossible⟩
      cases impossible
  | returns value =>
      rcases does (by simp) with ⟨last, goes, returning⟩
      rcases Caller.answers solid baseSmall ipSmall returning with ⟨later, leaves, answers⟩
      exact ⟨later, (opens.trans goes).trans leaves, answers⟩
  | faults fault =>
      rcases does (by simp) with ⟨last, goes, raised⟩
      exact ⟨last, opens.trans goes, raised⟩
  | unfinished => exact absurd rfl finished

/-- All functions do what they mean, if the stack has room for the frames of all that are active. -/
theorem runs (built : script.Built surroundings placed) (depth : Nat) :
    surroundings.RunsFunctions capacity placed (depth * surroundings.program.frameHeight)
      (script.run depth) := by
  induction depth with
  | zero =>
      intro placement _ carrier args world caller _ _ _ _ _ _ _ finished
      exact absurd rfl finished
  | succ depth ih =>
      rw [Nat.succ_mul]
      exact built.runs_succ ih

end Script.Built

end Functions

end ScriptMachine
