import ScriptMachine.Proofs.Loops.Laps

/-!
# Numeric loops

Every numeric loop of a compiled program has its code in that of its function, and its laps are as
the numbers say: one for each number from the start by the step that is not behind the stop. The
loop counts on behind the last lap as well, so a loop whose next number would not fit 64 bits stops
with a fault there.
-/

namespace ScriptMachine

/-! ## Numeric loops in compiled programs -/

/-- The parts of a loop are the code of what is written. The variable is in scope in the body, and a
`break` there leaves the loop; one in the bounds leaves the loop around it. -/
structure RangeLoop.Lowers (loop : RangeLoop) (frame : Frame) (site : Site) (outer : Nat)
    (name : String) (start stop : Expr) (step : Option Expr) (body : List Stmt) : Prop where
  position : loop.position = site.position
  stop : ∃ before code after,
    LowersExpr frame site before stop code after ∧ code.closeLoop outer = loop.stopCode
  step : ∃ before code after,
    LowersOption frame { site with position := loop.stopEnd + 1 } (.int 1) before step code after ∧
      code.closeLoop outer = loop.stepCode
  start : ∃ before code after,
    LowersExpr frame { site with position := loop.stepEnd + 2 } before start code after ∧
      code.closeLoop outer = loop.startCode
  body : ∃ before code after,
    LowersStmts frame (Site.bind { site with position := loop.bodyAt } name loop.slot).enterLoop
      before body code after ∧ code.closeLoop loop.behind = loop.bodyCode

section Parts

variable (position outer slot stopSlot stepSlot : Nat) (stop step start body : Code)

/-- The loop that has certain parts. -/
def RangeLoop.ofParts : RangeLoop :=
  ⟨position, stop.closeLoop outer, step.closeLoop outer, start.closeLoop outer,
    body.closeLoop (position + (stop.length + 1) + (step.length + 2) + (start.length + 1) + 12 +
      body.length + 5),
    slot, stopSlot, stepSlot⟩

theorem RangeLoop.stopEnd_ofParts :
    (ofParts position outer slot stopSlot stepSlot stop step start body).stopEnd =
      position + stop.length := by
  rw [stopEnd, ofParts, Code.length_closeLoop]

theorem RangeLoop.stepEnd_ofParts :
    (ofParts position outer slot stopSlot stepSlot stop step start body).stepEnd =
      position + (stop.length + 1) + step.length := by
  rw [stepEnd, stopEnd_ofParts, ofParts, Code.length_closeLoop]
  rfl

theorem RangeLoop.test_ofParts :
    (ofParts position outer slot stopSlot stepSlot stop step start body).test =
      position + (stop.length + 1) + (step.length + 2) + (start.length + 1) := by
  rw [test, startEnd, stepEnd_ofParts, ofParts, Code.length_closeLoop]
  rfl

theorem RangeLoop.behind_ofParts :
    (ofParts position outer slot stopSlot stepSlot stop step start body).behind =
      position + (stop.length + 1) + (step.length + 2) + (start.length + 1) + 12 + body.length +
        5 := by
  rw [behind, bodyEnd, bodyAt, test_ofParts, ofParts, Code.length_closeLoop]

theorem RangeLoop.code_ofParts {test : Nat}
    (here : test = position + (stop.length + 1) + (step.length + 2) + (start.length + 1)) :
    (ofParts position outer slot stopSlot stepSlot stop step start body).code =
      Code.closeLoop outer (stop ++ .ready (.storeLocal stopSlot) :: step ++
        .ofInstructions [.checkStep, .storeLocal stepSlot] ++ start ++
        .ofInstructions (.storeLocal slot ::
          Code.rangeTest test (test + 12 + body.length + 5) slot stopSlot stepSlot ++
          body.closeLoop (test + 12 + body.length + 5) ++ Code.rangeNext test slot stepSlot)) := by
  subst here
  rw [code, test_ofParts, behind_ofParts]
  simp only [Code.closeLoop_append, Code.closeLoop_ofInstructions]
  simp [ofParts, Code.closeLoop, Code.closeCell]

end Parts

/-- A numeric loop in a function of a program. -/
structure Program.RangesAt (program : Program) (placement : Placement) (name : String)
    (start stop : Expr) (step : Option Expr) (body : List Stmt) (loop : RangeLoop) : Prop where
  lowers : ∃ linkage site outer,
    loop.Lowers ⟨linkage, placement.source⟩ site outer name start stop step body
  placed : loop.Placed program
  starts : placement.offset ≤ loop.position
  ends : loop.behind ≤ placement.offset + placement.code.length

theorem Program.HasLoop.rangesAt {program : Program} {linkage : Linkage} {placement : Placement}
    {name : String} {start stop : Expr} {step : Option Expr} {body : List Stmt} {site : Site}
    {before after : Progress} {code : Code} {outer : Nat}
    (hasLoop : program.HasLoop ⟨linkage, placement.source⟩ (.range name start stop step body) site
      before code after outer)
    (starts : placement.offset ≤ site.position)
    (ends : site.position + code.length ≤ placement.offset + placement.code.length) :
    ∃ loop, program.RangesAt placement name start stop step body loop := by
  have has := hasLoop.has
  have below := hasLoop.below
  cases hasLoop.lowered with
  | range lowered =>
      cases lowered with
      | @forRange _ _ _ _ _ _ _ stopCode afterStop stepCode afterStep startCode afterStart bodyCode
          _ test stopLowered stepLowered startLowered here bodyLowered =>
          have belowStop := below.grow stopLowered.grows
          have belowStep := (belowStop.mono (Nat.le_succ _)).grow stepLowered.grows
          have belowStart := (belowStep.mono (Nat.le_succ _)).grow startLowered.grows
          have stepGrows := stepLowered.grows.locals
          have startGrows := startLowered.grows.locals
          simp only [Progress.take] at stepGrows startGrows
          have nameless : ∀ {locals : Nat}, Site.Below ⟨linkage, placement.source⟩ site locals →
              ∀ entry ∈ site.scope, entry.2 ≠ Frame.slot ⟨linkage, placement.source⟩ locals :=
            fun below entry among => Nat.ne_of_lt (below entry among)
          rw [← RangeLoop.code_ofParts _ outer _ _ _ _ _ _ _ here] at has
          refine ⟨RangeLoop.ofParts site.position outer _ _ _ stopCode stepCode startCode bodyCode,
            ⟨linkage, site, outer, rfl, ⟨_, _, _, stopLowered, rfl⟩,
              ⟨afterStop.take 1, stepCode, afterStep, ?step, rfl⟩,
              ⟨afterStep.take 1, startCode, afterStart, ?start, rfl⟩,
              ⟨afterStart.take 1, bodyCode, after, ?body, ?closed⟩⟩,
            ⟨has, ?slots, ?last, ?inStep, ?inStart, ?inBody⟩, starts, ?ends⟩
          case step =>
            rw [RangeLoop.stopEnd_ofParts]
            exact stepLowered
          case start =>
            rw [RangeLoop.stepEnd_ofParts]
            exact startLowered
          case body =>
            rw [RangeLoop.bodyAt, RangeLoop.test_ofParts]
            exact bodyLowered
          case closed =>
            rw [RangeLoop.behind_ofParts]
            rfl
          case slots =>
            simp only [RangeLoop.ofParts, Frame.slot]
            omega
          case last =>
            simp only [RangeLoop.ofParts, Frame.slot]
            omega
          case inStep =>
            intro slot among
            refine (stepLowered.fills.writes outer slot among).ne ?_ (nameless belowStop)
            simp only [RangeLoop.ofParts, Frame.slot, Progress.take]
            omega
          case inStart =>
            intro slot among
            have writes := startLowered.fills.writes outer slot among
            refine ⟨writes.ne ?_ (nameless belowStop), writes.ne ?_ (nameless belowStep)⟩ <;>
              simp only [RangeLoop.ofParts, Frame.slot, Progress.take] <;> omega
          case inBody =>
            intro slot among
            have writes := bodyLowered.fills.writes _ slot among
            refine ⟨writes.ne ?_ (List.forall_mem_cons.mpr ⟨?_, nameless belowStop⟩),
              writes.ne ?_ (List.forall_mem_cons.mpr ⟨?_, nameless belowStep⟩)⟩ <;>
              simp only [RangeLoop.ofParts, Frame.slot, Progress.take] <;> omega
          case ends =>
            rw [RangeLoop.behind_ofParts]
            simp only [List.length_append, List.length_cons, Code.length_ofInstructions,
              Code.length_closeLoop, Code.rangeTest, Code.rangeNext, List.length_nil] at ends
            omega

section Programs

variable {units : List ProgramUnit} {globals : List String} {program : Program} {capacity : Nat}

/-- A numeric loop carries its body out once for each number from its start by its step that is not
behind its stop, in order, with the number in its variable. Then the run goes on behind the loop, in
the same frame. There is one exception: behind the last lap the loop still counts on, and if the
number that comes then does not fit 64 bits, the run stops with a fault there.

The machine stands at the first instruction of the loop, wherever that is in a program and in
whatever run. The bounds may be any expressions that evaluate to numbers, and the host may do what
it likes when the body yields. -/
theorem numeric_loop_counts (accepted : compileUnits units globals = .ok program)
    (small : program.size < twoTo 63) (bounded : capacity ≤ twoTo 63) :
    ∃ placed, program.Compiled units globals placed ∧
      ∀ placement ∈ placed,
        (∀ name start stop step body,
          .range name start stop step body ∈ placement.source.loops →
          ∃ loop, program.RangesAt placement name start stop step body loop) ∧
        ∀ name start stop step body loop,
          program.RangesAt placement name start stop step body loop →
          ∀ machine, Reached program capacity machine → machine.ip = loop.position →
            ∀ host seen (first last stride : Int64), host.Sound program → stride ≠ 0 →
              loop.Regular host program capacity machine seen first last stride →
              ∃ entered seenEntered later after,
                host.Runs program loop.position loop.startEnd machine seen entered seenEntered ∧
                loop.Laps host program machine.depth
                  (rangeNumbers first.toInt last.toInt stride.toInt) entered seenEntered later
                  after ∧
                loop.Leaves host program machine.depth machine.base first.toInt stride.toInt
                  (rangeCount first.toInt last.toInt stride.toInt) later after := by
  rcases compileUnits_ok accepted with ⟨placed, compiled⟩
  rcases compiled.charted_homes with ⟨chart, charted, homes⟩
  refine ⟨placed, compiled, fun placement member => ⟨?_, ?_⟩⟩
  · intro name start stop step body written
    rcases compiled.exists_hasLoop member written with
      ⟨site, before, code, after, stop, hasLoop, starts, ends⟩
    exact hasLoop.rangesAt starts ends
  · intro name start stop step body loop ranges machine reached here host seen first last stride
      sound nonzero regular
    have begins := ranges.starts
    have ends := ranges.ends
    have ordered := loop.ordered
    rcases homes placement member with ⟨locals, entry, places⟩
    have covered : loop.Charted chart ⟨placement.source, locals⟩ := by
      intro ip lower upper
      rcases places (ip - placement.offset) (by omega) with ⟨point, known⟩
      rw [Nat.add_sub_cancel' (by omega)] at known
      exact ⟨point, known⟩
    rcases reached.tall charted bounded small with ⟨tower, tall⟩
    rcases tall.2.here with ⟨point, known, stands⟩
    rcases covered machine.ip (by omega) (by omega) with ⟨_, same⟩
    have shape := congrArg Prod.fst (Option.some.inj (known.symm.trans same))
    exact ranges.placed.runs charted bounded small sound seen covered nonzero reached
      ⟨tower, tall, rfl, shape, nofun⟩ here regular

end Programs

namespace Sample

/-- Counts from one number to another, and does nothing with the numbers. -/
def rangeUnit (start stop step : Int64) : ProgramUnit :=
  ⟨"range", [],
    [⟨"main", [], [.forRange "i" (.literal (.int start)) (.literal (.int stop))
      (some (.literal (.int step))) [.expr (.var "i")]], .nowhere⟩]⟩

def rangeProgram (start stop step : Int64) : Program :=
  (compileUnits [rangeUnit start stop step] []).toOption.getD ⟨#[], .empty, [], []⟩

theorem rangeProgram_accepted (start stop step : Int64) :
    compileUnits [rangeUnit start stop step] [] = .ok (rangeProgram start stop step) := rfl

/-- The program that counts down from two to one. -/
def countdown : Program := rangeProgram 2 1 (-1)

theorem countdown_instructions : countdown.instructions =
    #[.allocFrame 3, .pushDebug ⟨"range", "main", .nowhere⟩, .pushConst (.int 1), .storeLocal 2,
      .pushConst (.int (-1)), .checkStep, .storeLocal 3, .pushConst (.int 2), .storeLocal 4,
      .loadLocal 3, .pushConst (.int 0), .binary .lt, .jumpIfFalse 17, .loadLocal 4, .loadLocal 2,
      .binary .ge, .jump 20, .loadLocal 4, .loadLocal 2, .binary .le, .jumpIfFalse 28, .loadLocal 4,
      .pop, .loadLocal 4, .loadLocal 3, .binary .add, .storeLocal 4, .jump 9, .pushConst .unit,
      .popDebug, .returnValue 0] := rfl

theorem countdown_checks {ip : Nat} (found : countdown.instructions[ip]? = some .checkStep) :
    ip = 5 := by
  rw [countdown_instructions] at found
  have inside := (Array.getElem?_eq_some_iff.mp found).1
  revert found
  revert ip
  decide

/-- A machine of a run of the program. -/
def rangeMachine (ip : Nat) (debug : List DebugContext) (values : List Value) : Machine :=
  ⟨.ofList 7 values, ip, 0, 1, debug, .empty⟩

/-- The machine at the first instruction of the loop. -/
def descending : Machine :=
  rangeMachine 2 [⟨"range", "main", .nowhere⟩] [.int 0, .int 0, .unit, .unit, .unit]

theorem descending_reached : Reached countdown 7 descending := by
  have started : Started countdown 7 (rangeMachine 0 [] [.int 0, .int 0]) :=
    @Started.entered _ 7 .empty .empty "main" "main" [] [] _ (emptyRegistry _) emptyStore nofun rfl
  have opened := (Reached.start started).proceed (@Proceeds.plain _ _
    (rangeMachine 1 [] [.int 0, .int 0, .unit, .unit, .unit]) (.allocFrame 3)
    (by rw [countdown_instructions]; rfl) rfl)
  exact opened.proceed (.plain (by rw [countdown_instructions]; rfl) rfl)

/-- Where a part of the loop starts, the frame has its slots and no operand waits. -/
def settled (machine : Machine) : Bool :=
  decide (machine.ip = 2 ∨ machine.ip = 4 ∨ machine.ip = 7 ∨ machine.ip = 21 →
    machine.base = 0 ∧ machine.stack.items.size = 5 ∧ machine.stack.capacity = 7)

theorem settled_always : Surroundings.always ⟨countdown, .empty⟩
    (fun machine => decide (machine.Within 2 28 1)) settled 64 descending = true := by
  decide +kernel

section Descending

variable {inside : Machine} {seen : List Value}
  (walks : Host.idle.Walks countdown (Machine.Within 2 28 1) descending [] inside seen)

include walks

theorem descending_footing
    (place : inside.ip = 2 ∨ inside.ip = 4 ∨ inside.ip = 7 ∨ inside.ip = 21) :
    ∃ (footing : Footing) (slots : List Value),
      inside = footing.machine inside.ip slots [] inside.store ∧ slots.length = 5 ∧
      footing.below = [] ∧ footing.capacity = 7 := by
  have checked := (walks.mono fun _ within => decide_eq_true within).always settled_always
  rcases of_decide_eq_true checked place with ⟨base, size, capacity⟩
  rcases inside with ⟨⟨⟨values⟩, limit⟩, ip, _, depth, debug, store⟩
  cases base
  cases capacity
  refine ⟨⟨7, [], depth, debug⟩, values, ?_, size, rfl, rfl⟩
  simp [Footing.machine, ValueStack.ofList]

/-- A literal is evaluated in one step. -/
theorem descending_pushes {ip : Nat} {constant : Constant} (here : inside.ip = ip)
    (place : ip = 2 ∨ ip = 4 ∨ ip = 7)
    (found : countdown.instructions[ip]? = some (.pushConst constant)) :
    ∃ ended after,
      Host.idle.Runs countdown ip (ip + 1) inside seen ended after ∧
      ended.stack.items.back? = some (.ofConstant constant) ∧ ended.stack.items.size < 7 := by
  subst here
  rcases descending_footing walks (by omega) with ⟨footing, slots, framed, length, below, capacity⟩
  have room : footing.Room slots [] := by simp [Footing.Room, below, length, capacity]
  have steps := @Footing.pushConst footing (Host.idle.surroundings _ seen) inside.ip slots []
    inside.store constant found room
  rw [← framed] at steps
  have level := (congrArg Machine.depth framed).symm
  refine ⟨_, seen, ⟨rfl, .next (.inr ⟨rfl, Nat.le_refl _, Nat.lt_succ_self _⟩) steps .stay, rfl,
    level⟩, ?_, ?_⟩
  · simp [Footing.machine, ValueStack.ofList]
  · simp [Footing.machine, ValueStack.ofList, below, length]

/-- The body reads the variable and drops its value. -/
theorem descending_drops (place : inside.ip = 21) :
    ∃ ended after, Host.idle.Runs countdown 21 23 inside seen ended after ∧
      ended.local? 4 = inside.local? 4 := by
  rcases descending_footing walks (by omega) with ⟨footing, slots, framed, length, below, capacity⟩
  rw [place] at framed
  have room : footing.Room slots [] := by simp [Footing.Room, below, length, capacity]
  have load : countdown.instructions[21]? = some (.loadLocal 4) := by
    rw [countdown_instructions]
    rfl
  have pop : countdown.instructions[22]? = some .pop := by
    rw [countdown_instructions]
    rfl
  have loads := @Footing.loadLocal footing (Host.idle.surroundings countdown seen) 21 4 slots [] _
    inside.store load (List.getElem?_eq_getElem (by omega)) room
  have drops := @Footing.pop footing (Host.idle.surroundings countdown seen) 22 slots [] slots[4]
    inside.store pop
  rw [← framed] at loads
  have level := (congrArg Machine.depth framed).symm
  have first : Host.idle.Runs countdown 21 22 inside seen _ seen :=
    ⟨place, .next (.inr ⟨rfl, Nat.le_of_eq place.symm, by omega⟩) loads .stay, rfl, level⟩
  refine ⟨_, seen, first.next drops rfl rfl (by omega), ?_⟩
  exact (congrArg (fun machine => machine.local? 4) framed).symm

end Descending

section Lengths

variable {frame : Frame} {site : Site} {before after : Progress} {code : Code}

theorem length_literal {value : Literal}
    (lowered : LowersExpr frame site before (.literal value) code after) : code.length = 1 := by
  cases lowered
  rfl

theorem length_variable {name : String} {slot : Nat}
    (lowered : LowersStmts frame (site.bind name slot).enterLoop before [.expr (.var name)] code
      after) : code.length = 2 := by
  cases lowered with
  | cons statementLowered restLowered =>
      cases restLowered
      cases statementLowered with
      | expr valueLowered =>
          cases valueLowered with
          | var loaded =>
              simp only [Frame.load, Frame.resolve?, Site.bind, Site.enterLoop,
                List.lookup_cons_self, Except.ok.injEq] at loaded
              subst loaded
              rfl

end Lengths

/-- Any loop of the program is this one. -/
theorem descending_loop {placement : Placement} {loop : RangeLoop}
    (ranges : countdown.RangesAt placement "i" (.literal (.int 2)) (.literal (.int 1))
      (some (.literal (.int (-1)))) [.expr (.var "i")] loop) :
    loop.position = 2 ∧ loop.stopEnd = 3 ∧ loop.stepEnd = 5 ∧ loop.startEnd = 8 ∧
      loop.bodyAt = 21 ∧ loop.bodyEnd = 23 ∧ loop.slot = 4 := by
  rcases ranges.lowers with ⟨linkage, site, outer, lowers⟩
  have stop : loop.stopCode.length = 1 := by
    rcases lowers.stop with ⟨_, _, _, lowered, same⟩
    rw [← same, Code.length_closeLoop, length_literal lowered]
  have step : loop.stepCode.length = 1 := by
    rcases lowers.step with ⟨_, _, _, lowered, same⟩
    cases lowered with
    | some lowered => rw [← same, Code.length_closeLoop, length_literal lowered]
  have start : loop.startCode.length = 1 := by
    rcases lowers.start with ⟨_, _, _, lowered, same⟩
    rw [← same, Code.length_closeLoop, length_literal lowered]
  have body : loop.bodyCode.length = 2 := by
    rcases lowers.body with ⟨_, _, _, lowered, same⟩
    rw [← same, Code.length_closeLoop, length_variable lowered]
  have checks : loop.stepEnd = 5 := countdown_checks ranges.placed.checksStep
  have stores := ranges.placed.storesStart
  have stopEnd : loop.stopEnd = 3 := by
    rw [RangeLoop.stepEnd, step] at checks
    omega
  have startEnd : loop.startEnd = 8 := by rw [RangeLoop.startEnd, checks, start]
  have bodyAt : loop.bodyAt = 21 := by rw [RangeLoop.bodyAt, RangeLoop.test, startEnd]
  rw [startEnd, countdown_instructions] at stores
  have slot : loop.slot = 4 := (Instruction.storeLocal.inj (Option.some.inj stores)).symm
  rw [RangeLoop.stopEnd, stop] at stopEnd
  refine ⟨by omega, ?_, checks, startEnd, bodyAt, ?_, slot⟩
  · rw [RangeLoop.stopEnd, stop, stopEnd]
  · rw [RangeLoop.bodyEnd, bodyAt, body]

theorem descending_regular {loop : RangeLoop} (position : loop.position = 2)
    (stopEnd : loop.stopEnd = 3) (stepEnd : loop.stepEnd = 5) (startEnd : loop.startEnd = 8)
    (bodyAt : loop.bodyAt = 21) (bodyEnd : loop.bodyEnd = 23) (slot : loop.slot = 4) :
    loop.Regular Host.idle countdown 7 descending [] 2 1 (-1) := by
  have behind : loop.behind = 28 := by rw [RangeLoop.behind, bodyEnd]
  refine ⟨?_, ?_, ?_, ?_⟩ <;>
    rw [position, behind] <;>
    simp only [stopEnd, stepEnd, startEnd, bodyAt, bodyEnd, slot, Nat.reduceAdd] <;>
    intro inside seen walks level place
  · rcases descending_pushes walks place (by decide) (by rw [countdown_instructions]; rfl) with
      ⟨ended, after, runs, top, _⟩
    exact ⟨ended, after, runs, top⟩
  · rcases descending_pushes walks place (by decide) (by rw [countdown_instructions]; rfl) with
      ⟨ended, after, runs, top, _⟩
    exact ⟨ended, after, runs, top⟩
  · exact descending_pushes walks place (by decide) (by rw [countdown_instructions]; rfl)
  · exact descending_drops walks place

end Sample

theorem numeric_loop_counts_down :
    ∃ (loop : RangeLoop) (entered later : Machine) (seen after : List Value),
      Host.idle.Runs Sample.countdown loop.position loop.startEnd Sample.descending [] entered
        seen ∧
      loop.Laps Host.idle Sample.countdown 1 [2, 1] entered seen later after ∧
      later.ip = loop.behind := by
  rcases @numeric_loop_counts _ _ _ 7 (Sample.rangeProgram_accepted 2 1 (-1)) (by decide)
    (by decide) with ⟨placed, compiled, each⟩
  have among : (declaredSources [Sample.rangeUnit 2 1 (-1)]).head (by decide) ∈
      placed.map Placement.source := by
    rw [compiled.sources]
    exact List.mem_append_left _ (List.head_mem _)
  rcases List.mem_map.mp among with ⟨placement, member, source⟩
  rcases each placement member with ⟨written, counts⟩
  rcases written "i" (.literal (.int 2)) (.literal (.int 1)) (some (.literal (.int (-1))))
    [.expr (.var "i")] (by rw [source]; exact List.Mem.head _) with ⟨loop, ranges⟩
  rcases Sample.descending_loop ranges with
    ⟨position, stopEnd, stepEnd, startEnd, bodyAt, bodyEnd, slot⟩
  rcases counts _ _ _ _ _ loop ranges Sample.descending Sample.descending_reached position.symm
    Host.idle [] 2 1 (-1) Host.idle_sound (by decide)
    (Sample.descending_regular position stopEnd stepEnd startEnd bodyAt bodyEnd slot) with
    ⟨entered, seen, later, after, runs, laps, leaves⟩
  have fits : fitsInt64 ((2 : Int64).toInt +
      rangeCount (2 : Int64).toInt (1 : Int64).toInt (-1 : Int64).toInt * (-1 : Int64).toInt) =
      true := by decide
  unfold RangeLoop.Leaves at leaves
  rw [if_pos fits] at leaves
  exact ⟨loop, entered, later, seen, after, runs, laps, leaves.1⟩

namespace Sample

/-- The fault that ends a turn, and where. -/
def faultOf : TurnOutcome → Option (RuntimeFault × Nat)
  | .faulted report => some (report.fault, report.ip)
  | _ => none

/-- How the run of a counting program ends. -/
def countingOutcome (start stop step : Int64) : TurnOutcome :=
  ((Engine.create (rangeProgram start stop step) ⟨8, false⟩).start 64 .empty .empty [] "main"
    []).outcome

end Sample

/-- The loop from the largest number to itself has one number. Behind the lap with it the run should
go on behind the loop, but it stops with a fault at the addition behind the body. -/
theorem largest_stop_faults :
    compileUnits [Sample.rangeUnit Int64.maxValue Int64.maxValue 1] [] =
        .ok (Sample.rangeProgram Int64.maxValue Int64.maxValue 1) ∧
      rangeNumbers Int64.maxValue.toInt Int64.maxValue.toInt 1 = [Int64.maxValue.toInt] ∧
      Sample.faultOf (Sample.countingOutcome Int64.maxValue Int64.maxValue 1) =
        some (countingFault Int64.maxValue.toInt 1, 25) :=
  ⟨rfl, by decide, by decide +kernel⟩

end ScriptMachine
