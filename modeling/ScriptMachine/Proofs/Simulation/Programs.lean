import ScriptMachine.Proofs.Simulation.Linking
import ScriptMachine.Proofs.Simulation.Turns

/-!
# Programs

A compiled program does what the script means that it was made of. Its engine, started with a
declared function and resumed after every yield, yields what the script yields, and ends with the
same value or the same fault. Only the stack of the engine can be too small: then the run goes as it
should until the stack overflows.
-/

namespace ScriptMachine

/-! ## The first frame -/

section Entering

variable {registry : Registry} {capacity ip base depth : Nat} {values : List Value}
  {debug : List DebugContext} {store : Store} {names : List String}

open Step

theorem run_pushGlobals
    (present : (names.find? fun name => (registry.global? store name).isNone) = none)
    (room : values.length + names.length ≤ capacity) :
    (Engine.pushGlobals registry names).run
        ⟨.ofList capacity values, ip, base, depth, debug, store⟩ =
      (.ok (), ⟨.ofList capacity (values ++ names.filterMap (registry.global? store)), ip, base,
        depth, debug, store⟩) := by
  induction names generalizing values with
  | nil => simp [Engine.pushGlobals]
  | cons name rest ih =>
      rw [List.length_cons] at room
      cases found : registry.global? store name with
      | none => simp [found] at present
      | some value =>
          have presentLater :
              (rest.find? fun name => (registry.global? store name).isNone) = none := by
            simpa [found] using present
          have fits : values.length < capacity := by omega
          have fitsLater : (values ++ [value]).length + rest.length ≤ capacity := by simp; omega
          rw [Engine.pushGlobals]
          simp only [run_bind, run_store, found, run_push fits]
          rw [ih presentLater fitsLater]
          simp [found]

theorem run_pushGlobals_missing {missing : String}
    (absent : (names.find? fun name => (registry.global? store name).isNone) = some missing)
    (room : values.length + names.length ≤ capacity) :
    ∃ pushed, (Engine.pushGlobals registry names).run
        ⟨.ofList capacity values, ip, base, depth, debug, store⟩ =
      (.error (.globalNotFound missing),
        ⟨.ofList capacity pushed, ip, base, depth, debug, store⟩) := by
  induction names generalizing values with
  | nil => cases absent
  | cons name rest ih =>
      rw [List.length_cons] at room
      rw [Engine.pushGlobals]
      cases found : registry.global? store name with
      | none =>
          have here : name = missing := by simpa [found] using absent
          subst here
          simp only [run_bind, run_store, found, run_throw]
          exact ⟨values, rfl⟩
      | some value =>
          have absentLater : (rest.find? fun name => (registry.global? store name).isNone) =
              some missing := by simpa [found] using absent
          have fits : values.length < capacity := by omega
          have fitsLater : (values ++ [value]).length + rest.length ≤ capacity := by simp; omega
          simp only [run_bind, run_store, found, run_push fits]
          exact ih absentLater fitsLater

variable {surroundings : Surroundings} {entry name : String} {path : List String}
  {function : FunctionEntry} {args : List Value}

theorem enter_argumentCount (found : surroundings.program.lookup? path name = some function)
    (arity : function.arity ≠ args.length) {machine : Machine} :
    (Engine.enter surroundings entry path name args).run machine =
      (.error (.argumentCount entry function.arity args.length), machine) := by
  unfold Engine.enter
  simp [found, arity]

theorem enter_globalNotFound {missing : String}
    (found : surroundings.program.lookup? path name = some function)
    (arity : function.arity = args.length)
    (absent : (surroundings.program.globals.find? fun name =>
      (surroundings.registry.global? store name).isNone) = some missing)
    (room : surroundings.program.globals.length ≤ capacity) :
    ∃ pushed, (Engine.enter surroundings entry path name args).run
        ⟨.ofList capacity [], ip, base, depth, debug, store⟩ =
      (.error (.globalNotFound missing),
        ⟨.ofList capacity pushed, ip, base, depth, debug, store⟩) := by
  rcases @run_pushGlobals_missing surroundings.registry capacity ip base depth [] debug store _ _
    absent (by simpa using room) with ⟨pushed, ran⟩
  refine ⟨pushed, ?_⟩
  unfold Engine.enter
  simp only [found, arity, ne_eq, not_true_eq_false, if_false, run_bind, ran]

/-- The machine that runs a function which nothing has called. -/
theorem enter_entered (found : surroundings.program.lookup? path name = some function)
    (arity : function.arity = args.length)
    (present : (surroundings.program.globals.find? fun name =>
      (surroundings.registry.global? store name).isNone) = none)
    (room : surroundings.program.globals.length + args.length + frameHeader ≤ capacity) :
    (Engine.enter surroundings entry path name args).run
        ⟨.ofList capacity [], 0, 0, 0, [], store⟩ =
      (.ok (), Caller.entered ⟨[], 0, 0, 1, []⟩ capacity function.offset args
        ⟨surroundings.program.globals.filterMap (surroundings.registry.global? store), store, []⟩) := by
  have globals := @run_pushGlobals surroundings.registry capacity 0 0 0 [] [] store _ present
    (by simp only [List.length_nil]; omega)
  have fewer := List.length_filterMap_le (surroundings.registry.global? store)
    surroundings.program.globals
  simp only [frameHeader] at room
  unfold Engine.enter
  simp only [found, arity, ne_eq, not_true_eq_false, if_false, run_bind, globals, run_modify,
    List.nil_append]
  rw [run_pushAll (by omega)]
  simp only
  rw [run_push (by simp only [List.length_append]; omega)]
  simp only
  rw [run_push (by simp only [List.length_append, List.length_cons, List.length_nil]; omega)]
  simp [Caller.entered, headerWords]

end Entering

/-! ## Scripts and their programs -/

/-- A function that nothing has called ends the run. -/
theorem Surroundings.Answers.halts {surroundings : Surroundings} {capacity : Nat} {world : World}
    {machine : Machine} {result : Except RuntimeFault Value}
    (answers : surroundings.Answers capacity ⟨[], 0, 0, 1, []⟩ (some result) world machine) :
    surroundings.Halts machine world.store result := by
  cases result with
  | ok value =>
      rcases answers with ⟨_, ⟨control, later⟩, steps, completed, kept⟩
      cases completed
      exact ⟨later, steps, kept⟩
  | error fault => exact answers

namespace Program.Compiled

variable {units : List ProgramUnit} {globals : List String} {program : Program}
  {placed : List Placement} {registry : Registry} {turns depth capacity : Nat} {unit : ProgramUnit}
  {function : FunctionDef} {placement : Placement} {entry name : String} {path : List String}
  {values args : List Value} {store : Store} {world : World} {result : Except RuntimeFault Value}

/-- A function that has been entered does what the script does, if the stack has room for all
frames. -/
theorem runsTo_of_entered (compiled : program.Compiled units globals placed)
    (plain : PlainNames units) (member : placement ∈ placed)
    (declared : placement.source.captures = none)
    (arity : args.length = placement.source.params.length)
    (copied : values.length = program.globals.length) (hosts : registry.Sound program store)
    (sound : store.Sound program) (known : ∀ value ∈ args, value.Known store)
    (bounded : capacity ≤ twoTo 63)
    (room : globals.length + args.length + depth * program.frameHeight ≤ capacity)
    (entered : frameHeader ≤ depth * program.frameHeight →
      (Engine.enter ⟨program, registry⟩ entry path name args).run
        ⟨.ofList capacity [], 0, 0, 0, [], store⟩ =
      (.ok (), Caller.entered ⟨[], 0, 0, 1, []⟩ capacity placement.offset args ⟨values, store, []⟩))
    (ended : (Script.of units globals registry program turns).run depth placement.source none args
      ⟨values, store, []⟩ = (some result, world)) :
    Surroundings.RunsTo ⟨program, registry⟩ ((Engine.enter ⟨program, registry⟩ entry path name
      args).run ⟨.ofList capacity [], 0, 0, 0, [], store⟩) world.yielded result world.store := by
  have length : program.globals.length = globals.length := congrArg _ compiled.globals
  have built : (Script.of units globals registry program turns).Built ⟨program, registry⟩ placed :=
    compiled.built plain
  rcases @Script.Built.runs _ _ _ capacity built depth placement member none args
    ⟨values, store, []⟩ ⟨[], 0, 0, 1, []⟩ (by simp [declared]) arity copied (by decide) (by decide)
    (by decide) (by simp [passed, copied, length]; omega) (by simp [ended]) with ⟨enough, runs⟩
  have entered := entered enough
  rw [entered]
  have height : program.frameHeight ≤ depth * program.frameHeight := by
    apply Nat.le_mul_of_pos_left
    apply Nat.pos_of_ne_zero
    rintro rfl
    omega
  have small : program.size < twoTo 63 := by
    have lower := program.size_lt_frameHeight
    omega
  rcases compiled.charted with ⟨chart, charted⟩
  rw [ended] at runs
  rcases runs ⟨⟨chart, charted⟩, bounded, small, .start (.entered hosts sound known entered), hosts⟩
    with ⟨last, goes, answers⟩
  exact .ran goes answers.halts

/-- A run does what the script does, if the stack has room for all frames. -/
theorem runsTo (compiled : program.Compiled units globals placed) (plain : PlainNames units)
    (unitMem : unit ∈ units) (functionMem : function ∈ unit.functions)
    (hosts : registry.Sound program store) (sound : store.Sound program)
    (known : ∀ value ∈ args, value.Known store) (bounded : capacity ≤ twoTo 63)
    (room : globals.length + args.length + depth * program.frameHeight ≤ capacity)
    (ended : (Script.of units globals registry program turns).start depth
      (.declared unit function) args store = (some result, world)) :
    Surroundings.RunsTo ⟨program, registry⟩
      ((Engine.enter ⟨program, registry⟩ (qualifiedName unit.path function.name) unit.path
        function.name args).run ⟨.ofList capacity [], 0, 0, 0, [], store⟩)
      world.yielded result world.store := by
  obtain rfl := compiled.globals
  have present : FunctionSource.declared unit function ∈ placed.map Placement.source := by
    rw [compiled.sources]
    apply List.mem_append_left
    exact List.mem_flatMap.mpr ⟨unit, unitMem, List.mem_map_of_mem functionMem⟩
  rcases List.mem_map.mp present with ⟨placement, member, same⟩
  have found : program.lookup? unit.path function.name = some placement.entry := by
    have entry := (compiled.finds plain member : Script.Finds
      (Script.of units program.globals registry program turns) _ _ _).entry
    rw [same] at entry
    exact entry
  have arity : placement.entry.arity = (FunctionSource.declared unit function).arity := by
    rw [Placement.entry, same]
  unfold Script.start at ended
  split at ended
  · rename_i different
    cases ended
    have taken : placement.entry.arity ≠ args.length := by
      rw [arity]
      exact different
    rw [@enter_argumentCount ⟨program, registry⟩ _ _ _ _ args found taken, arity]
    exact .refused
  · rename_i equal
    have taken : placement.entry.arity = args.length := by
      rw [arity]
      exact Decidable.not_not.mp equal
    split at ended
    · rename_i missing absent
      cases ended
      rcases @enter_globalNotFound capacity 0 0 0 [] store ⟨program, registry⟩
        (qualifiedName unit.path function.name) _ _ _ args missing found taken absent
        (by simp only; omega) with ⟨pushed, entered⟩
      rw [entered]
      exact .refused
    · rename_i complete
      have every : (program.globals.filterMap (registry.global? store)).length =
          program.globals.length := by
        rw [List.filterMap_length_eq_length]
        intro name listed
        have there := List.find?_eq_none.mp complete name listed
        simpa [Script.of, Option.isSome_iff_ne_none] using there
      rw [← same] at ended
      refine compiled.runsTo_of_entered plain member (by rw [same]; rfl)
        (by rw [same]; exact (Decidable.not_not.mp equal).symm) every hosts sound known bounded room
        ?_ ended
      intro enough
      exact enter_entered found taken complete (by simp only; omega)

end Program.Compiled

/-- An engine does what the script does that its program was made of: it yields the same values,
ends with the same value or the same fault, and leaves the same store. If its stack has not room for
as many frames as the script may have active, it does so or yields the first of these values and
overflows. Like memory, the stack has no more than `2 ^ 63` places. -/
theorem compiled_runs_as_written {units : List ProgramUnit} {globals : List String}
    {program : Program} {registry : Registry} {options : RunOptions} {turns depth : Nat}
    {unit : ProgramUnit} {function : FunctionDef} {args : List Value} {store : Store}
    {world : World} {result : Except RuntimeFault Value}
    (accepted : compileUnits units globals = .ok program) (plain : PlainNames units)
    (unitMem : unit ∈ units) (functionMem : function ∈ unit.functions)
    (hosts : registry.Sound program store) (sound : store.Sound program)
    (known : ∀ value ∈ args, value.Known store) (bounded : options.stackCapacity ≤ twoTo 63)
    (addressable : globals.length + args.length + depth * program.frameHeight ≤ twoTo 63)
    (ended : (Script.of units globals registry program turns).start depth
      (.declared unit function) args store = (some result, world)) :
    (Engine.create program options).Delivers registry store unit.path function.name args
        world.yielded result world.store ∨
      options.stackCapacity < globals.length + args.length + depth * program.frameHeight ∧
      ∃ before later, before <+: world.yielded ∧
        (Engine.create program options).Delivers registry store unit.path function.name args before
          (.error (.stackOverflow options.stackCapacity)) later := by
  rcases compileUnits_ok accepted with ⟨placed, compiled⟩
  rcases Nat.lt_or_ge options.stackCapacity
    (globals.length + args.length + depth * program.frameHeight) with small | room
  · have runs := compiled.runsTo plain unitMem functionMem hosts sound known addressable
      (Nat.le_refl _) ended
    rcases @Surroundings.RunsTo.scaled ⟨program, registry⟩
      ((Engine.create program options).machine store) _ _ _ _ _ (.enter _ _ _ _ _)
      (Nat.le_of_lt small) runs with same | ⟨before, later, shorter, overflows⟩
    · exact .inl (Engine.delivers_create same)
    · exact .inr ⟨small, before, later, shorter, Engine.delivers_create overflows⟩
  · exact .inl (Engine.delivers_create
      (compiled.runsTo plain unitMem functionMem hosts sound known bounded room ended))

namespace Sample

/-- Yields the sums of the first numbers. The action keeps the sum that there was at first. -/
def sumsMain : FunctionDef :=
  ⟨"main", ["count"],
    [.letVar "total" (.literal (.int 0)),
      .letVar "add" (.action ["x"] [.returnValue (some (.binary .add (.var "x") (.var "total")))]),
      .forRange "i" (.literal (.int 1)) (.var "count") none
        [.assign "total" (.binary .add (.var "total") (.var "i")),
          .yieldValue (some (.var "total"))],
      .returnValue (some (.call [] "add" [.var "total"]))],
    .nowhere⟩

def sumsUnit : ProgramUnit := ⟨"sums", [], [sumsMain]⟩

def sums : Program := (compileUnits [sumsUnit] []).toOption.getD ⟨#[], .empty, [], []⟩

theorem sums_accepted : compileUnits [sumsUnit] [] = .ok sums := rfl

theorem sums_plain : PlainNames [sumsUnit] :=
  .of_length (by decide)

instance exceptDecidableEq {ε α : Type} [DecidableEq ε] [DecidableEq α] :
    DecidableEq (Except ε α)
  | .ok first, .ok second => decidable_of_iff (first = second) ⟨congrArg _, Except.ok.inj⟩
  | .error first, .error second => decidable_of_iff (first = second) ⟨congrArg _, Except.error.inj⟩
  | .ok _, .error _ => .isFalse fun same => by cases same
  | .error _, .ok _ => .isFalse fun same => by cases same

/-- What the script means, for the first three numbers. -/
def sumsRun : Ending × World :=
  (Script.of [sumsUnit] [] .empty sums 4).start 2 (.declared sumsUnit sumsMain) [.int 3] .empty

theorem sums_ended : sumsRun = (some (.ok (.int 6)), sumsRun.2) := by
  have value : sumsRun.1 = some (.ok (.int 6)) := by decide +kernel
  generalize sumsRun = ran at value ⊢
  cases ran
  cases value
  rfl

theorem sums_yielded : sumsRun.2.yielded = [.int 1, .int 3, .int 6] := by decide +kernel

end Sample

theorem compiled_runs_as_written_sums :
    ∃ later, (Engine.create Sample.sums ⟨256, false⟩).Delivers .empty .empty [] "main" [.int 3]
      [.int 1, .int 3, .int 6] (.ok (.int 6)) later := by
  have known : ∀ value ∈ [Value.int 3], value.Known .empty := by
    intro value member
    cases List.mem_singleton.mp member
    trivial
  rcases @compiled_runs_as_written _ _ _ _ ⟨256, false⟩ _ _ _ _ _ _ _ _ Sample.sums_accepted
    Sample.sums_plain List.mem_cons_self List.mem_cons_self (Sample.emptyRegistry _)
    Sample.emptyStore known (by decide) (by decide +kernel) Sample.sums_ended with
    delivers | ⟨small, _⟩
  · rw [Sample.sums_yielded] at delivers
    exact ⟨_, delivers⟩
  · exact absurd small (by decide +kernel)

end ScriptMachine
