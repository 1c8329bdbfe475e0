import Mathlib.Data.List.Forall2
import ScriptMachine.Proofs.Balance.Runs

/-!
# Frames in full and calls that return

What a tower that holds says about the stack is spelled out here: after the globals there are as
many frames as the machine is deep, and each has its arguments, the two words of its header, its
locals and its operands. How many of each there are depends on the instruction pointer alone.

A call puts a frame on top of its caller's and leaves the frames below alone. So when the machine is
back at the depth of the caller for the first time, the stack is what it was before the call, with
one value in the place of the operands that the call took.
-/

namespace ScriptMachine

/-- A frame with all its parts. -/
structure StackFrame where
  args : List Value
  savedBase : Nat
  returnIp : Nat
  locals : List Value
  operands : List Value

/-- The values of a frame, the lowest first. -/
def StackFrame.values (frame : StackFrame) : List Value :=
  frame.args ++ headerWords frame.savedBase frame.returnIp ++ frame.locals ++ frame.operands

/-- The values of frames, of which the innermost comes first. -/
def stacked : List StackFrame → List Value
  | [] => []
  | frame :: callers => stacked callers ++ frame.values

/-- How many values of each kind a frame has before an instruction. -/
structure FrameCounts where
  args : Nat → Nat
  locals : Nat → Nat
  pending : Nat → Nat

/-- Whether the instruction at a place makes room for the locals. -/
def Program.AllocatesAt (program : Program) (ip : Nat) : Prop :=
  ∃ locals, program.instructions[ip]? = some (.allocFrame locals)

/-- The running frame has as many values as the counts say. Before it has made room for its locals
it has neither locals nor operands. -/
structure StackFrame.Runs (frame : StackFrame) (program : Program) (counts : FrameCounts)
    (ip : Nat) : Prop where
  args : frame.args.length = counts.args ip
  early : program.AllocatesAt ip → frame.locals = [] ∧ frame.operands = []
  late : ¬program.AllocatesAt ip →
    frame.locals.length = counts.locals ip ∧ frame.operands.length = counts.pending ip

/-- A frame that waits for a call has one operand less than it will have behind the call. -/
structure StackFrame.Waits (frame : StackFrame) (program : Program) (counts : FrameCounts)
    (ip : Nat) : Prop where
  call : ∃ before instruction, ip = before + 1 ∧
    program.instructions[before]? = some instruction ∧ instruction.callOperands?.isSome
  args : frame.args.length = counts.args ip
  locals : frame.locals.length = counts.locals ip
  operands : frame.operands.length + 1 = counts.pending ip

/-- Frames whose headers name the base of the caller and the place behind its call. The header of
the outermost frame is empty. -/
def HeadersLink (program : Program) (counts : FrameCounts) (globals : Nat) :
    List StackFrame → Prop
  | [] => True
  | [outermost] => outermost.savedBase = 0 ∧ outermost.returnIp = 0
  | frame :: caller :: callers =>
      frame.savedBase = globals + (stacked callers).length ∧
        caller.Waits program counts frame.returnIp ∧
        HeadersLink program counts globals (caller :: callers)

/-- A machine whose stack holds the globals and so many frames as it is deep. -/
def Machine.Framed (program : Program) (counts : FrameCounts) (machine : Machine) : Prop :=
  ∃ globals active callers, machine.stack.items.toList = globals ++ stacked (active :: callers) ∧
    globals.length = program.globals.length ∧ machine.depth = (active :: callers).length ∧
    machine.base = globals.length + (stacked callers).length ∧
    StackFrame.Runs active program counts machine.ip ∧
    HeadersLink program counts globals.length (active :: callers)

/-- The counts that a chart gives. -/
def Chart.counts (chart : Chart) : FrameCounts where
  args ip := ((chart ip).map fun known => known.1.arity).getD 0
  locals ip := ((chart ip).map fun known => known.1.locals).getD 0
  pending ip :=
    match chart ip with
    | some (_, .running tags _) => tags.length
    | some (_, .closing tags _) => tags.length + 1
    | some (_, .leaving tags) => tags.length
    | _ => 0

section Frames

variable {program : Program} {chart : Chart} {capacity ip base : Nat}
  {machine later : Machine} {tower : Tower} {activation : Activation} {point : Point}

/-- The frame of an activation with a given header. -/
def Activation.frame (activation : Activation) (base ip : Nat) : StackFrame where
  args := activation.slots.take activation.shape.arity
  savedBase := base
  returnIp := ip
  locals := activation.slots.drop (activation.shape.arity + frameHeader)
  operands := activation.operands

theorem Activation.Header.values_frame (header : activation.Header base ip) :
    (activation.frame base ip).values = activation.slots ++ activation.operands := by
  rcases List.getElem?_eq_some_iff.mp header.saved with ⟨first, saved⟩
  rcases List.getElem?_eq_some_iff.mp header.resumption with ⟨second, resumption⟩
  have slots : activation.slots = activation.slots.take activation.shape.arity ++
      headerWords base ip ++ activation.slots.drop (activation.shape.arity + frameHeader) := by
    rw [List.append_assoc, headerWords, ← saved, ← resumption]
    simp [frameHeader]
  simp only [StackFrame.values, Activation.frame]
  rw [← slots]

/-- At the entry of a function, and nowhere else, there are no locals yet. -/
theorem Program.Charted.allocatesAt_iff (charted : program.Charted chart) {shape : Shape}
    (here : chart ip = some (shape, point)) : program.AllocatesAt ip ↔ point = .entry := by
  rcases charted.checked ip shape point here with ⟨instruction, next, found, checked, _⟩
  constructor
  · rintro ⟨locals, allocates⟩
    cases allocates.symm.trans found
    cases checked with
    | plain effect => cases effect
    | allocFrame => rfl
  · rintro rfl
    cases checked with
    | allocFrame => exact ⟨_, found⟩

theorem Activation.Stands.length_args (stands : activation.Stands point) :
    (activation.slots.take activation.shape.arity).length = activation.shape.arity := by
  rw [List.length_take]
  cases point with
  | entry | opening | running | closing | leaving =>
      have length := stands.1
      omega

theorem Activation.Stands.runs (charted : program.Charted chart)
    (stands : activation.Stands point)
    (here : chart ip = some (activation.shape, point)) {saved back : Nat} :
    (activation.frame saved back).Runs program chart.counts ip := by
  refine ⟨?_, ?_, ?_⟩
  · simpa [Chart.counts, here, Activation.frame] using stands.length_args
  · intro allocates
    cases (charted.allocatesAt_iff here).mp allocates
    exact ⟨List.drop_eq_nil_of_le (Nat.le_of_eq stands.1), stands.2⟩
  · intro running
    have notEntry : point ≠ .entry := fun atEntry =>
      running ((charted.allocatesAt_iff here).mpr atEntry)
    refine ⟨?_, ?_⟩
    · simp only [frame, Chart.counts, here, List.length_drop, Option.map_some, Option.getD_some]
      cases point with
      | entry => exact absurd rfl notEntry
      | opening | running | closing | leaving =>
          have length := stands.1
          omega
    · cases point with
      | entry => exact absurd rfl notEntry
      | opening => simpa [Chart.counts, here, Activation.frame] using stands.2
      | running tags iterators =>
          simpa [Chart.counts, here, Activation.frame] using stands.2.1.length
      | closing tags iterators =>
          rcases stands.2.1 with ⟨below, id, operands, matched⟩
          simp [Chart.counts, here, Activation.frame, operands, matched.length]
      | leaving tags => simpa [Chart.counts, here, Activation.frame] using stands.2.length

theorem Activation.Waits.frame (waits : activation.Waits program chart ip) {saved back : Nat} :
    (activation.frame saved back).Waits program chart.counts ip := by
  rcases waits.there with ⟨tags, iterators, point, placed, meets, stands⟩
  cases meets
  refine ⟨waits.call, ?_, ?_, ?_⟩
  · simpa [Chart.counts, placed, Activation.frame] using stands.length_args
  · have length := stands.1
    simp only [Activation.frame, Chart.counts, placed, List.length_drop, Option.map_some,
      Option.getD_some]
    omega
  · simpa [Chart.counts, placed, Activation.frame] using stands.2.1.length

/-- The frames of activations that are chained. -/
theorem Chained.frames {globals : Nat} {callers : List Activation}
    (chained : Chained program chart globals (activation :: callers)) :
    ∃ saved back others,
      List.Forall₂ (fun caller frame => ∃ saved back, frame = caller.frame saved back) callers
        others ∧
      stacked others = content callers ∧
      stacked (activation.frame saved back :: others) = content (activation :: callers) ∧
      HeadersLink program chart.counts globals (activation.frame saved back :: others) := by
  induction callers generalizing activation with
  | nil =>
      refine ⟨0, 0, [], .nil, rfl, ?_, rfl, rfl⟩
      simp [stacked, content, Activation.Header.values_frame chained]
  | cons caller rest ih =>
      rcases chained with ⟨⟨back, header, waits⟩, chained⟩
      rcases ih chained with ⟨saved, further, others, frames, below, same, links⟩
      refine ⟨globals + (content rest).length, back, caller.frame saved further :: others,
        .cons ⟨saved, further, rfl⟩ frames, same, ?_, by rw [below]; rfl, waits.frame, links⟩
      rw [stacked, same, header.values_frame, ← List.append_assoc]
      rfl

/-- A machine with a tower that holds is framed. -/
theorem Machine.Tall.framed (charted : program.Charted chart)
    (tall : machine.Tall program chart capacity tower) :
    machine.Framed program chart.counts := by
  rcases tall with ⟨same, holds⟩
  rcases holds.chained.frames with ⟨saved, back, others, frames, below, whole, links⟩
  rcases holds.here with ⟨point, here, stands⟩
  refine ⟨tower.globals, tower.active.frame saved back, others, ?_, holds.globals, ?_, ?_,
    stands.runs charted here, links⟩
  · rw [same, whole]
    simp [Tower.machine, Tower.values, Tower.floor, content]
  · rw [same]
    simp [Tower.machine, frames.length_eq]
  · rw [same, below]
    simp [Tower.machine, Tower.base]

/-! ## Calls that return -/

/-- A run that stays deeper than a level until its last machine. -/
inductive RunsAbove (program : Program) (level : Nat) : Machine → Machine → Prop
  | done {machine : Machine} : RunsAbove program level machine machine
  | step {machine next last : Machine} (above : level < machine.depth)
      (proceeds : Proceeds program machine next) (rest : RunsAbove program level next last) :
      RunsAbove program level machine last

/-- A call is under way: above the frame that waits for it there is the frame of the called
function, whose header leads back. -/
def Tower.Above (waiting : Activation) (outer : List Activation) (saved back : Nat)
    (tower : Tower) : Prop :=
  ∃ front callee, tower.active :: tower.callers = front ++ callee :: waiting :: outer ∧
    Activation.Header callee saved back

/-- The call has returned: the frame that waited has one more operand. -/
def Tower.Back (waiting : Activation) (outer : List Activation) (back ip : Nat)
    (tower : Tower) : Prop :=
  tower.callers = outer ∧ ip = back ∧
    ∃ value, tower.active = { waiting with operands := waiting.operands ++ [value] }

/-- A step leaves a call under way or returns from it. -/
theorem Move.above {instruction : Instruction} {there saved back : Nat} {next : Tower}
    {waiting : Activation} {outer : List Activation} (move : Move instruction ip there tower next)
    (above : tower.Above waiting outer saved back) (backSmall : back < twoTo 63)
    (thereSmall : there < twoTo 63) :
    next.Above waiting outer saved back ∨ next.Back waiting outer back there := by
  rcases above with ⟨front, callee, frames, header⟩
  cases move with
  | within callers kept =>
      rw [← callers] at frames
      cases front with
      | nil =>
          injection frames with active callers
          exact .inl ⟨[], next.active, by rw [callers]; rfl, kept _ _ (active ▸ header)⟩
      | cons first front =>
          injection frames with active callers
          exact .inl ⟨next.active :: front, callee, by rw [callers]; rfl, header⟩
  | call operands taken globals callers _ =>
      cases front with
      | nil =>
          injection frames with active under
          refine .inl ⟨[next.active], _, by rw [callers, under]; rfl, ?_⟩
          rw [active]
          exact ⟨header.saved, header.resumption⟩
      | cons first front =>
          injection frames with active under
          exact .inl ⟨next.active :: _ :: front, callee, by rw [callers, under]; rfl, header⟩
  | @leave caller value globals callers active returns =>
      rw [callers] at frames
      cases front with
      | nil =>
          injection frames with same under
          injection under with waits outer
          refine .inr ⟨outer, header.same_ip (same ▸ returns) backSmall thereSmall, value, ?_⟩
          rw [active, waits]
      | cons first front =>
          injection frames with _ under
          cases front with
          | nil =>
              injection under with same under
              refine .inl ⟨[], next.active, by rw [under]; rfl, ?_⟩
              rw [active, same]
              exact ⟨header.saved, header.resumption⟩
          | cons second front =>
              injection under with _ under
              exact .inl ⟨next.active :: front, callee, by rw [under]; rfl, header⟩

/-- A machine of a run stands at an instruction. -/
theorem Machine.Tall.ip_lt (charted : program.Charted chart)
    (tall : machine.Tall program chart capacity tower) : machine.ip < program.size := by
  rcases tall.2.here with ⟨point, here, _⟩
  rcases charted.checked _ _ _ here with ⟨_, _, found, _⟩
  exact (Array.getElem?_eq_some_iff.mp found).1

theorem Machine.Tall.depth (tall : machine.Tall program chart capacity tower) :
    machine.depth = tower.callers.length + 1 := by
  rw [tall.1]
  rfl

/-- One value has taken the place of the operands of a call. Apart from the contents of the globals,
nothing else on the stack has changed. -/
def Machine.CallReturned (program : Program) (before later : Machine) : Prop :=
  later.ip = before.ip + 1 ∧ later.base = before.base ∧
    ∃ instruction globals kept taken globalsLater value,
      program.instructions[before.ip]? = some instruction ∧
      instruction.callOperands? = some taken.length ∧
      before.stack.items.toList = globals ++ kept ++ taken ∧
      globals.length = program.globals.length ∧
      later.stack.items.toList = globalsLater ++ kept ++ [value] ∧
      globalsLater.length = program.globals.length

section Bounded

variable (charted : program.Charted chart) (bounded : capacity ≤ twoTo 63)
  (small : program.size < twoTo 63)

include charted bounded small

/-- While a run stays above a level, the call that made it go there is under way. -/
theorem RunsAbove.above {waiting : Activation} {outer : List Activation} {saved back : Nat}
    (runs : RunsAbove program (outer.length + 1) machine later) (backSmall : back < twoTo 63)
    (tall : machine.Tall program chart capacity tower)
    (invariant : tower.Above waiting outer saved back ∨ tower.Back waiting outer back machine.ip) :
    ∃ last, later.Tall program chart capacity last ∧
      (last.Above waiting outer saved back ∨ last.Back waiting outer back later.ip) := by
  induction runs generalizing tower with
  | done => exact ⟨tower, tall, invariant⟩
  | step deeper proceeds rest ih =>
      rcases invariant with above | ⟨callers, _⟩
      · rcases proceeds.tall charted bounded small tall with ⟨_, next, _, tallNext, move⟩
        exact ih tallNext (move.above above backSmall
          (Nat.lt_trans (tallNext.ip_lt charted) small))
      · rw [tall.depth, callers] at deeper
        exact absurd deeper (Nat.lt_irrefl _)

/-- When a call has returned, its operands have been replaced by one value. -/
theorem call_returns {before entered : Machine} (reached : Reached program capacity before)
    (call : Proceeds program before entered) (deeper : entered.depth = before.depth + 1)
    (runs : RunsAbove program before.depth entered later) (returned : later.depth = before.depth) :
    before.CallReturned program later := by
  rcases reached.tall charted bounded small with ⟨tower, tall⟩
  rcases call.tall charted bounded small tall with ⟨instruction, inner, found, tallInner, move⟩
  have depth := tall.depth
  have depthInner := tallInner.depth
  cases move with
  | within callers =>
      rw [callers] at depthInner
      omega
  | leave _ callers =>
      rw [callers, List.length_cons] at depth
      omega
  | @call below args operands taken globals callers header =>
      rw [depth] at runs
      have backSmall : before.ip + 1 < twoTo 63 :=
        Nat.lt_of_le_of_lt (tall.ip_lt charted) small
      rcases runs.above charted bounded small backSmall tallInner
        (.inl ⟨[], inner.active, by rw [callers]; rfl, header⟩) with ⟨last, tallLast, invariant⟩
      have depthLast := tallLast.depth
      rcases invariant with ⟨front, callee, frames, _⟩ | ⟨outer, ip, value, active⟩
      · have length := congrArg List.length frames
        simp only [List.length_cons, List.length_append] at length
        omega
      · have sizes : last.globals.length = tower.globals.length :=
          tallLast.2.globals.trans tall.2.globals.symm
        refine ⟨ip, ?_, instruction, tower.globals, content tower.callers ++ tower.active.slots ++
          below, args, last.globals, value, found, taken, ?_, tall.2.globals, ?_,
          tallLast.2.globals⟩
        · rw [tall.1, tallLast.1]
          simp [Tower.machine, Tower.base, outer, sizes]
        · rw [tall.1]
          simp [Tower.machine, Tower.values, Tower.floor, operands]
        · rw [tallLast.1]
          simp [Tower.machine, Tower.values, Tower.floor, outer, active]

/-- On completion the stack holds the globals and the result. -/
theorem completion_stack {registry : Registry} {instruction : Instruction} {value : Value}
    (reached : Reached program capacity machine) (hosts : registry.Sound program machine.store)
    (found : program.instructions[machine.ip]? = some instruction)
    (stepped : (step ⟨program, registry⟩ instruction).run { machine with ip := machine.ip + 1 } =
      (.ok (.completed value), later)) :
    later.stack.items.toList =
      machine.stack.items.toList.take program.globals.length ++ [value] := by
  rcases reached.tall charted bounded small with ⟨tower, tall⟩
  rcases tall.outcome charted bounded small hosts with ⟨_, same, outcome⟩
  cases found.symm.trans same
  rw [stepped] at outcome
  cases outcome with
  | completes outermost stack _ =>
      rw [stack, tall.1, ← tall.2.globals]
      simp [Tower.machine, Tower.values, Tower.floor]

end Bounded

/-- The stack of a compiled program stays balanced. The number of arguments, locals and operands of
a frame depends on the instruction pointer alone; a call leaves one value in the place of its
operands; and on completion there are the globals and the result. -/
theorem frames_stay_balanced {units : List ProgramUnit} {globals : List String}
    (accepted : compileUnits units globals = .ok program) (small : program.size < twoTo 63)
    (bounded : capacity ≤ twoTo 63) :
    (∃ counts, ∀ machine, Reached program capacity machine → machine.Framed program counts) ∧
    (∀ before entered later, Reached program capacity before → Proceeds program before entered →
      entered.depth = before.depth + 1 → RunsAbove program before.depth entered later →
      later.depth = before.depth → before.CallReturned program later) ∧
    ∀ (registry : Registry) machine instruction value later, Reached program capacity machine →
      registry.Sound program machine.store →
      program.instructions[machine.ip]? = some instruction →
      (step ⟨program, registry⟩ instruction).run { machine with ip := machine.ip + 1 } =
        (.ok (.completed value), later) →
      later.stack.items.toList =
        machine.stack.items.toList.take program.globals.length ++ [value] := by
  rcases compileUnits_ok accepted with ⟨placed, compiled⟩
  rcases compiled.charted with ⟨chart, charted⟩
  refine ⟨⟨chart.counts, ?_⟩, ?_, ?_⟩
  · intro machine reached
    rcases reached.tall charted bounded small with ⟨tower, tall⟩
    exact tall.framed charted
  · intro before entered later reached call deeper runs returned
    exact call_returns charted bounded small reached call deeper runs returned
  · intro registry machine instruction value later reached hosts found stepped
    exact completion_stack charted bounded small reached hosts found stepped

end Frames

namespace Sample

/-- The called function up to the machine behind its return. -/
theorem runsCall : RunsAbove program 1
    (machine [.int 0, .int 0, .int 1, .int 0, .int 4] 9 2 2 [mainContext])
    (machine [.int 0, .int 0, .int 1] 4 0 1 [mainContext]) :=
  .step (by decide) (@proceeds _
      (machine [.int 0, .int 0, .int 1, .int 0, .int 4] 10 2 2 [mainContext]) _ rfl rfl) <|
  .step (by decide) (@proceeds _
      (machine [.int 0, .int 0, .int 1, .int 0, .int 4] 11 2 2 [sameContext, mainContext]) _ rfl
      rfl) <|
  .step (by decide) (@proceeds _
      (machine [.int 0, .int 0, .int 1, .int 0, .int 4, .int 1] 12 2 2 [sameContext, mainContext]) _
      rfl rfl) <|
  .step (by decide) (@proceeds _
      (machine [.int 0, .int 0, .int 1, .int 0, .int 4, .int 1] 13 2 2 [mainContext]) _ rfl rfl) <|
  .step (by decide) (proceeds rfl rfl) .done

end Sample

theorem frames_stay_balanced_sample :
    (Sample.machine [.int 0, .int 0, .int 1] 3 0 1 [Sample.mainContext]).CallReturned Sample.program
      (Sample.machine [.int 0, .int 0, .int 1] 4 0 1 [Sample.mainContext]) :=
  (@frames_stay_balanced Sample.program 10 Sample.units [] Sample.accepted (by decide)
    (by decide)).2.1 _ _ _ Sample.reachedCall (Sample.proceeds rfl rfl) rfl Sample.runsCall rfl

end ScriptMachine
