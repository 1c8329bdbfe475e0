import ScriptMachine.Proofs.Simulation.Parts

/-!
# Constructs made of parts

Operators that stop early, conditionals and loops. Each is put together from parts of which it is
known what they do; that lowered code is made of such parts is shown elsewhere.
-/

namespace ScriptMachine

namespace Stage

/-- Code from one place to another that leaves the value of an evaluation. -/
def Evaluates (stage : Stage) (left : Scene → Machine → Prop) (scope : List (String × Nat))
    (hidden : List (Nat × Value)) (operands : List Value) (ip there : Nat)
    (evaluation : Evaluation Value) : Prop :=
  ∀ scene machine, stage.Shows scope hidden ip operands scene machine →
    stage.Does left (fun value => stage.Shows scope hidden there (operands ++ [value])) machine
      evaluation scene

/-- Code from one place to another that carries out statements; their variables go out of scope. -/
def CarriesOut (stage : Stage) (left : Scene → Machine → Prop) (scope : List (String × Nat))
    (hidden : List (Nat × Value)) (operands : List Value) (ip there : Nat)
    (evaluation : Evaluation Unit) : Prop :=
  ∀ scene machine, stage.Shows scope hidden ip operands scene machine →
    stage.Does left
      (fun _ later => stage.Shows scope hidden there operands (later.outer scope.length)) machine
      evaluation scene

/-- Code from one place to another that leaves the value of a block, whose variables go out of
scope. -/
def Concludes (stage : Stage) (left : Scene → Machine → Prop) (scope : List (String × Nat))
    (hidden : List (Nat × Value)) (operands : List Value) (ip there : Nat)
    (evaluation : Evaluation Value) : Prop :=
  ∀ scene machine, stage.Shows scope hidden ip operands scene machine →
    stage.Does left
      (fun value later =>
        stage.Shows scope hidden there (operands ++ [value]) (later.outer scope.length)) machine
      evaluation scene

/-- What holds behind a loop holds where its body is left. -/
def LeavesTo (stage : Stage) (scope : List (String × Nat)) (hidden : List (Nat × Value))
    (operands : List Value) (after : Nat) (scene : Scene) (machine : Machine) : Prop :=
  stage.Shows scope hidden after operands (scene.outer scope.length) machine

variable {stage : Stage} {here : Standpoint} {frame : Frame} {placed : List Placement}
  {left : Scene → Machine → Prop} {rest : List Instruction}
  {scope : List (String × Nat)} {hidden : List (Nat × Value)} {operands : List Value}
  {scene : Scene} {machine : Machine} {first after : Nat}

theorem Ready.leavesTo {stop locals : Nat} {site : Site}
    (ready : stage.Ready frame left stop site locals hidden operands)
    (early : stage.start + operands.length ≤ after) :
    stage.Ready frame (stage.LeavesTo site.scope hidden operands after) after site.enterLoop locals
      hidden operands :=
  ready.enterLoop fun slots _ holds => ⟨early, slots, rfl, holds⟩

theorem Ready.leavesToOuter {stop locals slot : Nat} {site : Site} {name : String}
    (ready : stage.Ready frame left stop (site.bind name slot) locals hidden operands)
    (early : stage.start + operands.length ≤ after) :
    stage.Ready frame (stage.LeavesTo site.scope hidden operands after) after
      (site.bind name slot).enterLoop locals hidden operands :=
  ready.enterLoop fun slots _ holds => ⟨early, slots, rfl, holds.outer⟩

namespace Does

/-! ## Operators that stop early -/

theorem decidedBy?_of_strict {operator : BinaryOp} (strict : shortCircuit? operator = none) :
    decidedBy? operator = none := by
  cases operator <;> first | rfl | cases strict

/-- The jump of an operator keeps the operand that decides, and drops any other. -/
theorem decidedBy?_of_short {operator : BinaryOp} {jump : Nat → Instruction}
    (short : shortCircuit? operator = some jump) :
    ∃ truth, decidedBy? operator = some truth ∧
      ∀ {surroundings : Surroundings} {capacity ip base depth target : Nat}
        {values : List Value} {value : Value} {debug : List DebugContext} {store : Store},
        (ScriptMachine.step surroundings (jump target)).run
            ⟨.ofList capacity (values ++ [value]), ip, base, depth, debug, store⟩ =
          (.ok .next, if value.isTruthy = truth
            then ⟨.ofList capacity (values ++ [value]), target, base, depth, debug, store⟩
            else ⟨.ofList capacity values, ip, base, depth, debug, store⟩) := by
  cases operator with
  | and =>
      cases short
      refine ⟨false, rfl, ?_⟩
      intro _ _ _ _ _ _ _ value _ _
      rw [step_jumpIfFalseKeep]
      cases value.isTruthy <;> rfl
  | or =>
      cases short
      refine ⟨true, rfl, ?_⟩
      intros
      rw [step_jumpIfTrueKeep]
  | _ => cases short

/-- An operator that stops at its first operand if that decides. -/
theorem shortCircuits {operator : BinaryOp} {jump : Nat → Instruction} {middle there : Nat}
    {one two : Evaluation Value} {strict : Value → Evaluation Value} (solid : stage.Solid)
    (short : shortCircuit? operator = some jump)
    (oneDoes : stage.Evaluates left scope hidden operands first middle one)
    (stands : stage.Stands middle (jump there :: rest)) (forward : middle ≤ there)
    (twoDoes : stage.Evaluates left scope hidden operands (middle + 1) there two)
    (shows : stage.Shows scope hidden first operands scene machine) :
    stage.Does left (fun value => stage.Shows scope hidden there (operands ++ [value])) machine
      (one >>= fun value => match decidedBy? operator with
        | some truth => if value.isTruthy = truth then Pure.pure value else two
        | none => strict value)
      scene := by
  rcases decidedBy?_of_short short with ⟨truth, decides, jumps⟩
  refine (oneDoes scene machine shows).bind ?_
  intro value scene machine shows
  rcases shows with ⟨early, slots, rfl, holds⟩
  simp only [decides]
  simp only [List.length_append, List.length_cons, List.length_nil] at early
  have steps := @Stands.stepsWith stage middle _ rest slots operands [value] scene.world _ stands
    solid jumps
  split
  · rename_i decided
    rw [if_pos decided, ← machine_append] at steps
    refine .step steps (.pure ⟨?_, slots, rfl, holds⟩)
    simp only [List.length_append, List.length_cons, List.length_nil]
    omega
  · rename_i undecided
    rw [if_neg undecided] at steps
    exact .step steps (twoDoes scene _ ⟨by omega, slots, rfl, holds⟩)

/-! ## Ways out -/

theorem popsAll {α : Type} {post : α → Scene → Machine → Prop} {evaluation : Evaluation α}
    {count ip : Nat} {args : List Value} (solid : stage.Solid) (enough : args.length = count)
    (stands : stage.Stands ip (List.replicate count .pop ++ rest))
    (shows : stage.Shows scope hidden ip (operands ++ args) scene machine)
    (next : ∀ later, stage.Shows scope hidden (ip + count) operands scene later →
      stage.Does left post later evaluation scene) :
    stage.Does left post machine evaluation scene := by
  induction count generalizing args ip machine with
  | zero =>
      rw [List.length_eq_zero_iff.mp enough, List.append_nil] at shows
      exact next machine shows
  | succ count ih =>
      rcases List.eq_nil_or_concat args with rfl | ⟨others, last, rfl⟩
      · cases enough
      · rw [List.concat_eq_append, ← List.append_assoc] at shows
        rw [List.concat_eq_append, List.length_append] at enough
        refine pops solid stands shows ?_
        intro later shows
        refine ih (Nat.succ.inj enough) stands.tail shows ?_
        intro later shows
        refine next later ?_
        rw [Nat.add_assoc, Nat.add_comm 1 count] at shows
        exact shows

theorem leavesLoop {post : Unit → Scene → Machine → Prop} {stop locals ip count : Nat} {site : Site}
    (solid : stage.Solid) (ready : stage.Ready frame left stop site locals hidden operands)
    (inLoop : site.loopOperands = some count)
    (stands : stage.Stands ip (List.replicate (site.operands - count) .pop ++ [.jump stop]))
    (shows : stage.Shows site.scope hidden ip operands scene machine) :
    stage.Does left post machine Evaluation.leaveLoop scene := by
  rcases ready.leave count inLoop with ⟨enough, leave⟩
  have split : operands = operands.take count ++ operands.drop count :=
    (List.take_append_drop count operands).symm
  rw [split] at shows
  have dropped : (operands.drop count).length = site.operands - count := by
    rw [List.length_drop, ready.count]
  refine popsAll solid dropped stands shows ?_
  intro later shows
  have jumps := stands.right
  rw [List.length_replicate] at jumps
  rcases shows with ⟨early, slots, rfl, holds⟩
  refine .step (jumps.steps solid step_jump) ?_
  intro _ _
  refine ⟨_, .stay, leave slots scene ?_⟩
  rw [holds.outer_self]
  exact holds

/-- The code of a `return`, once the value is there. -/
theorem returns {α : Type} {post : α → Scene → Machine → Prop} {ip : Nat} {value : Value}
    (arity : stage.arity = frame.source.arity) (fixed : stage.fixed ⊆ hidden)
    (stands : stage.Stands ip frame.leave)
    (shows : stage.Shows scope hidden ip (operands ++ [value]) scene machine) :
    stage.Does left post machine (Evaluation.returnWith value) scene := by
  intro _ _
  refine ⟨machine, .stay, scope, ip, operands, ?_, shows.mono fixed⟩
  rw [arity]
  exact stands

/-! ## Conditionals -/

/-- A conditional, whose branches leave their values in the same place. -/
theorem conditional {middle there other after : Nat} {others : List Instruction}
    {test yes no : Evaluation Value}
    (solid : stage.Solid) (testDoes : stage.Evaluates left scope hidden operands first middle test)
    (stands : stage.Stands middle (.jumpIfFalse other :: rest))
    (yesDoes : stage.Concludes left scope hidden operands (middle + 1) there yes)
    (jumps : stage.Stands there (.jump after :: others))
    (noDoes : stage.Concludes left scope hidden operands other after no)
    (forward : middle ≤ other ∧ there ≤ after)
    (shows : stage.Shows scope hidden first operands scene machine) :
    stage.Does left (fun value => stage.Shows scope hidden after (operands ++ [value])) machine
      (test >>= fun value =>
        if value.isTruthy then Evaluation.block yes else Evaluation.block no)
      scene := by
  refine (testDoes scene machine shows).bind ?_
  intro value scene machine shows
  have early := shows.1
  simp only [List.length_append, List.length_cons, List.length_nil] at early
  refine branches solid stands shows (by omega) ?_
  intro later shows
  split
  · rename_i truth
    rw [if_pos truth] at shows
    have done := yesDoes scene later shows
    rw [← shows.length_variables] at done
    refine block (done.andThenOuter ?_)
    intro value scene machine shows
    refine jump solid jumps shows (Nat.le_trans shows.1 forward.2) ?_
    intro later shows
    exact .pure shows
  · rename_i falsity
    rw [if_neg falsity] at shows
    have done := noDoes scene later shows
    rw [← shows.length_variables] at done
    exact block done

/-! ## Loops -/

/-- A turn of a loop whose body may be left. -/
theorem turns {σ : Type} {body : Evaluation Unit} {next : Evaluation (Option σ)} {there : Nat}
    {post : Option σ → Scene → Machine → Prop} (same : scene.bindings.length = scope.length)
    (bodyDoes : stage.Does (stage.LeavesTo scope hidden operands after)
      (fun _ later => stage.Shows scope hidden there operands (later.outer scope.length)) machine
      body scene)
    (goesOn : ∀ scene machine, stage.Shows scope hidden there operands scene machine →
      stage.Does left post machine next scene)
    (leaves : ∀ scene machine, stage.Shows scope hidden after operands scene machine →
      post none scene machine) :
    stage.Does left post machine
      (Evaluation.untilLeft body >>= fun goesOn => if goesOn then next else Pure.pure none)
      scene := by
  have once : stage.Does left
      (fun goesOn => stage.Shows scope hidden (if goesOn then there else after) operands) machine
      (Evaluation.untilLeft body) scene := by
    refine untilLeft ?_
    rw [same]
    exact bodyDoes
  refine once.bind ?_
  intro goesOn scene machine shows
  cases goesOn with
  | true => exact goesOn scene machine shows
  | false => exact .pure (leaves scene machine shows)

theorem whiles {middle there bound : Nat} {test : Evaluation Value} {body : Evaluation Unit}
    (solid : stage.Solid) (testDoes : stage.Evaluates left scope hidden operands first middle test)
    (stands : stage.Stands middle (.jumpIfFalse after :: rest))
    (bodyDoes : stage.CarriesOut (stage.LeavesTo scope hidden operands after) scope hidden operands
      (middle + 1) there body)
    (back : stage.Stands there [.jump first]) (forward : first ≤ after)
    (shows : stage.Shows scope hidden first operands scene machine) :
    stage.Does left (fun _ => stage.Shows scope hidden after operands) machine
      (Evaluation.loop (fun _ => do
        let value ← test
        if value.isTruthy then
          if ← Evaluation.untilLeft body then return some ()
          else return none
        else return none) bound ())
      scene := by
  have early := shows.1
  refine loop (fun _ => stage.Shows scope hidden first operands) _ ?_ bound shows
  intro _ scene machine shows
  refine (testDoes scene machine shows).bind ?_
  intro value scene machine shows
  refine branches solid stands shows (by omega) ?_
  intro later shows
  cases truth : value.isTruthy with
  | false =>
      rw [truth] at shows
      exact .pure shows
  | true =>
      rw [truth] at shows
      refine turns shows.length_variables (bodyDoes scene later shows) ?_ ?_
      · intro scene machine shows
        refine jump solid back shows early ?_
        intro later shows
        exact .pure shows
      · intro scene machine shows
        exact shows

theorem eachs {slot locals there bound : Nat} {id : IteratorId} {name : String}
    {body : Evaluation Unit} (suits : stage.Suits here frame placed)
    (arranged : Arranged frame scope hidden locals) (inside : frame.slot locals < stage.slots)
    (known : (slot, .iterator id) ∈ hidden)
    (stands : stage.Stands first (Code.eachTest after slot (frame.slot locals) ++ rest))
    (bodyDoes : stage.CarriesOut
      (stage.LeavesTo scope hidden operands after)
      ((name, frame.slot locals) :: scope) hidden operands (first + 6) there body)
    (back : stage.Stands there [.jump first]) (forward : first ≤ after)
    (shows : stage.Shows scope hidden first operands scene machine) :
    stage.Does left (fun _ => stage.Shows scope hidden after operands) machine
      (Evaluation.loop (fun _ => do
        match ← Evaluation.nextElement id with
        | some element =>
            if ← Evaluation.untilLeft do
                Evaluation.declare name element
                body then
              return some ()
            else return none
        | none => return none) bound ())
      scene := by
  have early := shows.1
  have solid := suits.solid
  refine loop (fun _ => stage.Shows scope hidden first operands) _ ?_ bound shows
  intro _ scene machine shows
  refine (nexts suits stands known forward shows).bind ?_
  intro next scene machine shows
  cases next with
  | none => exact .pure shows
  | some element =>
      have stores := stands.tail.tail.tail.tail.tail
      have once : stage.Does (stage.LeavesTo scope hidden operands after)
          (fun _ later => stage.Shows scope hidden there operands (later.outer scope.length)) machine
          (Evaluation.declare name element >>= fun _ => body) scene := by
        refine (declares solid stores shows arranged inside).bind ?_
        intro _ scene machine shows
        refine (bodyDoes scene machine shows).mono ?_
        intro _ later machine shows
        exact shows.outer
      refine turns shows.length_variables once ?_ ?_
      · intro scene machine shows
        refine jump solid back shows early ?_
        intro later shows
        exact .pure shows
      · intro scene machine shows
        exact shows

/-- The loop of an `await`, which yields every element and keeps the last. -/
theorem awaits {slot locals bound : Nat} {id : IteratorId} {last : Value}
    (suits : stage.Suits here frame placed) (arranged : Arranged frame scope hidden locals)
    (inside : frame.slot locals < stage.slots) (known : (slot, .iterator id) ∈ hidden)
    (stands : stage.Stands first [.loadLocal slot, .iterMoveNext, .jumpIfFalse (first + 9),
      .loadLocal slot, .iterCurrent, .storeLocal (frame.slot locals),
      .loadLocal (frame.slot locals), .yieldValue, .jump first, .loadLocal (frame.slot locals)])
    (shows : stage.Shows scope ((frame.slot locals, last) :: hidden) first operands scene machine) :
    stage.Does left (fun value => stage.Shows scope hidden (first + 10) (operands ++ [value]))
      machine
      (Evaluation.loop (fun _ => do
        match ← Evaluation.nextElement id with
        | some element => do
            Evaluation.emit element
            return some element
        | none => return none) bound last)
      scene := by
  have early := shows.1
  have solid := suits.solid
  refine (loop
    (fun last => stage.Shows scope ((frame.slot locals, last) :: hidden) first operands)
    (fun last => stage.Shows scope ((frame.slot locals, last) :: hidden) (first + 9) operands)
    ?_ bound shows).andThen ?_
  · intro last scene machine shows
    refine (nexts suits stands (List.mem_cons_of_mem _ known) (by omega) shows).bind ?_
    intro next scene machine shows
    cases next with
    | none => exact .pure shows
    | some element =>
        have stores := stands.tail.tail.tail.tail.tail
        refine storeHidden solid stores (shows.mono (List.subset_cons_self _ _)) arranged inside ?_
        intro later shows
        refine loadHidden solid stores.tail shows List.mem_cons_self ?_
        intro later shows
        refine (emits solid stores.tail.tail shows).bind ?_
        intro _ scene machine shows
        refine jump solid stores.tail.tail.tail shows early ?_
        intro later shows
        exact .pure shows
  · intro last scene machine shows
    have loads := stands.tail.tail.tail.tail.tail.tail.tail.tail.tail
    refine loadHidden solid loads shows List.mem_cons_self ?_
    intro later shows
    exact .pure (shows.mono (List.subset_cons_self _ _))

/-! ## Numeric loops -/

theorem checksStep {value : Value} {ip : Nat} (solid : stage.Solid)
    (stands : stage.Stands ip (.checkStep :: rest))
    (shows : stage.Shows scope hidden ip (operands ++ [value]) scene machine) :
    stage.Does left (fun _ => stage.Shows scope hidden (ip + 1) (operands ++ [value])) machine
      (.checkStep value) scene := by
  rcases shows with ⟨early, slots, rfl, holds⟩
  have steps := @Stands.stepsWith stage ip _ rest slots operands [value] scene.world _ stands solid
    step_checkStep
  rw [← machine_append] at steps
  unfold Evaluation.checkStep
  split
  · rename_i zero
    rw [if_pos zero] at steps
    exact fault steps rfl
  · rename_i other
    rw [if_neg other] at steps
    exact .step steps (.pure ⟨by omega, slots, rfl, holds⟩)

section Ranges

variable {stop locals slot stopSlot stepSlot again : Nat} {site : Site} {name : String}
  {last stride : Value}

theorem compares {operator : BinaryOp} {ip : Nat} (suits : stage.Suits here frame placed)
    (ready : stage.Ready frame left stop site locals hidden operands)
    (inside : frame.slot locals ≤ stage.slots)
    (resolved : frame.resolve? site.scope name = some (.localSlot slot))
    (known : (stopSlot, last) ∈ hidden)
    (stands : stage.Stands ip
      (.loadLocal slot :: .loadLocal stopSlot :: .binary operator :: rest))
    (shows : stage.Shows site.scope hidden ip operands scene machine) :
    stage.Does left (fun value => stage.Shows site.scope hidden (ip + 3) (operands ++ [value]))
      machine
      (here.read name >>= fun current =>
        .effect (.binary stage.surroundings.registry operator current last))
      scene := by
  have solid := suits.solid
  refine (readsVariable suits ready inside resolved stands shows).bind ?_
  intro current scene machine shows
  refine loadHidden solid stands.tail shows known ?_
  intro later shows
  rw [List.append_assoc] at shows
  exact delivers solid stands.tail.tail shows (step_binary operator)

theorem testsRange {after : Nat} (suits : stage.Suits here frame placed)
    (ready : stage.Ready frame left stop site locals hidden operands)
    (inside : frame.slot locals ≤ stage.slots)
    (resolved : frame.resolve? site.scope name = some (.localSlot slot))
    (knownStop : (stopSlot, last) ∈ hidden) (knownStep : (stepSlot, stride) ∈ hidden)
    (stands : stage.Stands first (Code.rangeTest first after slot stopSlot stepSlot)) :
    stage.Evaluates left site.scope hidden operands first (first + 11)
      (here.inRange name last stride) := by
  intro scene machine shows
  have solid := suits.solid
  have early := shows.1
  refine loadHidden solid stands shows knownStep ?_
  intro later shows
  refine pushConst solid stands.tail shows ?_
  intro later shows
  rw [List.append_assoc] at shows
  unfold Standpoint.inRange
  dsimp only
  rw [suits.registry]
  refine (delivers solid stands.tail.tail shows (step_binary .lt)).bind ?_
  intro down scene machine shows
  have test := stands.tail.tail.tail
  refine branches solid test shows (by omega) ?_
  intro later shows
  cases truth : down.isTruthy with
  | true =>
      rw [truth] at shows
      have compared := test.tail
      refine (compares suits ready inside resolved knownStop compared shows).andThen ?_
      intro value scene machine shows
      have early := shows.1
      refine jump solid compared.tail.tail.tail shows (by omega) ?_
      intro later shows
      exact .pure shows
  | false =>
      rw [truth] at shows
      have compared := test.tail.tail.tail.tail.tail
      exact compares suits ready inside resolved knownStop compared shows

theorem advances (suits : stage.Suits here frame placed)
    (ready : stage.Ready frame left stop site locals hidden operands)
    (inside : frame.slot locals ≤ stage.slots)
    (resolved : frame.resolve? site.scope name = some (.localSlot slot))
    (known : (stepSlot, stride) ∈ hidden)
    (stands : stage.Stands first (Code.rangeNext again slot stepSlot))
    (shows : stage.Shows site.scope hidden first operands scene machine) :
    stage.Does left (fun _ => stage.Shows site.scope hidden (first + 4) operands) machine
      (here.advance name stride) scene := by
  have solid := suits.solid
  unfold Standpoint.advance
  rw [suits.registry]
  refine (readsVariable suits ready inside resolved stands shows).bind ?_
  intro current scene machine shows
  refine loadHidden solid stands.tail shows known ?_
  intro later shows
  rw [List.append_assoc] at shows
  refine (delivers solid stands.tail.tail shows (step_binary .add)).bind ?_
  intro sum scene machine shows
  exact writesVariable suits ready inside resolved stands.tail.tail.tail shows

theorem ranges {there bound : Nat} {body : Evaluation Unit} (suits : stage.Suits here frame placed)
    (ready : stage.Ready frame left stop site locals hidden operands)
    (inside : frame.slot locals ≤ stage.slots)
    (resolved : frame.resolve? site.scope name = some (.localSlot slot))
    (knownStop : (stopSlot, last) ∈ hidden) (knownStep : (stepSlot, stride) ∈ hidden)
    (test : stage.Stands first (Code.rangeTest first after slot stopSlot stepSlot))
    (bodyDoes : stage.CarriesOut (stage.LeavesTo site.scope hidden operands after) site.scope hidden
      operands (first + 12) there body)
    (back : stage.Stands there (Code.rangeNext first slot stepSlot)) (forward : first ≤ after)
    (shows : stage.Shows site.scope hidden first operands scene machine) :
    stage.Does left (fun _ => stage.Shows site.scope hidden after operands) machine
      (Evaluation.loop (fun _ => do
        let value ← here.inRange name last stride
        if value.isTruthy then
          if ← Evaluation.untilLeft body then
            here.advance name stride
            return some ()
          else return none
        else return none) bound ())
      scene := by
  have early := shows.1
  have solid := suits.solid
  have exits : stage.Stands (first + 11) [.jumpIfFalse after] :=
    test.tail.tail.tail.tail.tail.tail.tail.tail.tail.tail.tail
  refine loop (fun _ => stage.Shows site.scope hidden first operands) _ ?_ bound shows
  intro _ scene machine shows
  refine (testsRange suits ready inside resolved knownStop knownStep test _ _ shows).bind ?_
  intro value scene machine shows
  refine branches solid exits shows (by omega) ?_
  intro later shows
  cases truth : value.isTruthy with
  | false =>
      rw [truth] at shows
      exact .pure shows
  | true =>
      rw [truth] at shows
      refine turns shows.length_variables (bodyDoes scene later shows) ?_ ?_
      · intro scene machine shows
        refine (advances suits ready inside resolved knownStep back shows).bind ?_
        intro _ scene machine shows
        refine jump solid back.tail.tail.tail.tail shows early ?_
        intro later shows
        exact .pure shows
      · intro scene machine shows
        exact shows

/-- A numeric loop with its variable, which goes out of scope behind it. -/
theorem rangesFrom {stop ip there bound : Nat} {value : Value} {body : Evaluation Unit}
    (suits : stage.Suits here frame placed)
    (ready : stage.Ready frame left stop site locals hidden operands)
    (inside : frame.slot (locals + 1) ≤ stage.slots)
    (knownStop : (stopSlot, last) ∈ hidden) (knownStep : (stepSlot, stride) ∈ hidden)
    (stores : stage.Stands ip (.storeLocal (frame.slot locals) :: rest))
    (test : stage.Stands (ip + 1)
      (Code.rangeTest (ip + 1) after (frame.slot locals) stopSlot stepSlot))
    (bodyDoes : stage.CarriesOut
      (stage.LeavesTo ((name, frame.slot locals) :: site.scope) hidden operands after)
      ((name, frame.slot locals) :: site.scope) hidden operands (ip + 13) there body)
    (back : stage.Stands there (Code.rangeNext (ip + 1) (frame.slot locals) stepSlot))
    (forward : ip < after)
    (shows : stage.Shows site.scope hidden ip (operands ++ [value]) scene machine) :
    stage.Does left (fun _ => stage.Shows site.scope hidden after operands) machine
      (Evaluation.block do
        Evaluation.declare name value
        Functor.discard <| Evaluation.loop (fun _ => do
          let value ← here.inRange name last stride
          if value.isTruthy then
            if ← Evaluation.untilLeft body then
              here.advance name stride
              return some ()
            else return none
          else return none) bound ())
      scene := by
  have resolved : frame.resolve? ((name, frame.slot locals) :: site.scope) name =
      some (.localSlot (frame.slot locals)) := by
    rw [Frame.resolve?, List.lookup_cons_self]
  refine block ?_
  rw [shows.length_variables]
  refine (declares suits.solid stores shows ready.arranged inside).bind ?_
  intro _ scene machine shows
  refine (ranges suits (ready.bind name) inside resolved knownStop knownStep test bodyDoes back
    forward shows).discard ?_
  intro _ later machine shows
  exact shows.outer_self.outer

end Ranges

end Does

end Stage

end ScriptMachine
