import ScriptMachine.Embedding.Basic
import ScriptMachine.Proofs.Engine.Turns

/-!
# What a host sees of a run

An engine yields some values, one in each turn, and in its last turn it completes or faults. The
host does not see turns. Where the first turn is the last, it is given the value that was returned,
and otherwise a sequence that holds the first value already and takes a turn whenever it is asked
for a further one.

However many turns there are, the sequence gives what was yielded, in order, then what the last turn
came to, and nothing from then on. Taking all values, or only the last one, comes to the same as
asking one by one until nothing is left.
-/

namespace ScriptMachine

/-! ## Runs of an engine -/

/-- What a host wakes an engine with. -/
structure Resumption where
  bound : Nat
  registry : Registry
  store : Store

/-- The turn behind a turn that ended with a yield. -/
def Turn.wake (turn : Turn) (resumption : Resumption) : Turn :=
  turn.engine.resume resumption.bound resumption.registry resumption.store

/-- From a turn on, an engine that is woken after each yield yields values, ends with a value or a
fault, and is left behind. -/
inductive Turn.Unfolds :
    Turn → List Resumption → List Value → Except FaultReport Value → Engine → Prop
  | completes {turn value} (completed : turn.outcome = .completed value) :
      Unfolds turn [] [] (.ok value) turn.engine
  | faults {turn report} (faulted : turn.outcome = .faulted report) :
      Unfolds turn [] [] (.error report) turn.engine
  | yields {turn resumption value resumptions values ending engine}
      (yielded : turn.outcome = .yielded value)
      (later : Unfolds (turn.wake resumption) resumptions values ending engine) :
      Unfolds turn (resumption :: resumptions) (value :: values) ending engine

/-- The resumptions of a host that wakes an engine in a store, and from then on in the store that
the turn before has left. -/
def Engine.idle (bound : Nat) (registry : Registry) : Nat → Store → Engine → List Resumption
  | 0, _, _ => []
  | count + 1, store, engine =>
      let turn := engine.resume bound registry store
      ⟨bound, registry, store⟩ :: idle bound registry count turn.store turn.engine

/-- The last item of a sequence. -/
def SequenceItem.ofEnding : Except FaultReport Value → SequenceItem
  | .ok returned => .value returned
  | .error report => .fault report

/-- What taking all values comes to, when some were yielded. -/
def SequenceEnd.ofEnding (yielded : List Value) : Except FaultReport Value → SequenceEnd
  | .ok returned => .values (yielded ++ [returned])
  | .error report => .fault report

/-- What taking the last value comes to. -/
def SequenceLast.ofEnding : Except FaultReport Value → SequenceLast
  | .ok returned => .value returned
  | .error report => .fault report

/-- What a run comes to that does not yield. -/
def RunOutcome.ofEnding : Except FaultReport Value → RunOutcome
  | .ok returned => .value returned
  | .error report => .fault report

/-- What a run comes to after the first turn of its engine. -/
def RunOutcome.ofTurn (turn : Turn) : RunOutcome :=
  match turn.outcome with
  | .yielded first => .sequence ⟨turn.engine, some first, false⟩
  | .completed returned => .value returned
  | .faulted report => .fault report
  | .unfinished => .unfinished

/-- The last of all values. -/
def SequenceEnd.last : SequenceEnd → SequenceLast
  | .values all => .value (all.getLast?.getD .unit)
  | .fault report => .fault report
  | .unfinished => .unfinished

@[simp]
theorem SequenceEnd.last_ofEnding {values : List Value} {ending : Except FaultReport Value} :
    (SequenceEnd.ofEnding values ending).last = .ofEnding ending := by
  cases ending <;> simp [SequenceEnd.ofEnding, SequenceEnd.last, SequenceLast.ofEnding]

/-! ## Values one by one -/

namespace Sequence

/-- Asks for one value after another, each time against a registry and a store of the host's
choice. -/
def draw (sequence : Sequence) : List Resumption → List SequenceItem × Sequence
  | [] => ([], sequence)
  | resumption :: rest =>
      let drawn := sequence.next resumption.bound resumption.registry resumption.store
      let others := drawn.sequence.draw rest
      (drawn.result :: others.1, others.2)

variable {engine last : Engine} {resumption : Resumption} {bound : Nat} {registry : Registry}
  {store : Store} {value : Value} {report : FaultReport} {values : List Value}
  {ending : Except FaultReport Value} {resumptions later : List Resumption}

theorem next_of_yielded (yielded : (engine.resume bound registry store).outcome = .yielded value) :
    (⟨engine, none, false⟩ : Sequence).next bound registry store =
      ⟨.value value, ⟨(engine.resume bound registry store).engine, none, false⟩,
        (engine.resume bound registry store).store, (engine.resume bound registry store).events,
        (engine.resume bound registry store).trace⟩ := by
  simp [next, yielded]

theorem next_of_completed
    (completed : (engine.resume bound registry store).outcome = .completed value) :
    (⟨engine, none, false⟩ : Sequence).next bound registry store =
      ⟨.value value, ⟨(engine.resume bound registry store).engine, none, true⟩,
        (engine.resume bound registry store).store, (engine.resume bound registry store).events,
        (engine.resume bound registry store).trace⟩ := by
  simp [next, completed]

theorem next_of_faulted (faulted : (engine.resume bound registry store).outcome = .faulted report) :
    (⟨engine, none, false⟩ : Sequence).next bound registry store =
      ⟨.fault report, ⟨(engine.resume bound registry store).engine, none, true⟩,
        (engine.resume bound registry store).store, (engine.resume bound registry store).events,
        (engine.resume bound registry store).trace⟩ := by
  simp [next, faulted]

/-- The value that is known already costs no turn. -/
@[simp]
theorem next_pending {finished : Bool} :
    (⟨engine, some value, finished⟩ : Sequence).next bound registry store =
      ⟨.value value, ⟨engine, none, finished⟩, store, [], []⟩ := rfl

/-- A sequence that came to its end does not wake its engine again. -/
@[simp]
theorem next_finished :
    (⟨engine, none, true⟩ : Sequence).next bound registry store =
      ⟨.atEnd, ⟨engine, none, true⟩, store, [], []⟩ := rfl

theorem draw_cons {sequence : Sequence} :
    sequence.draw (resumption :: later) =
      ((sequence.next resumption.bound resumption.registry resumption.store).result ::
          ((sequence.next resumption.bound resumption.registry
            resumption.store).sequence.draw later).1,
        ((sequence.next resumption.bound resumption.registry
          resumption.store).sequence.draw later).2) := rfl

theorem draw_finished :
    (⟨engine, none, true⟩ : Sequence).draw later =
      (List.replicate later.length .atEnd, ⟨engine, none, true⟩) := by
  induction later with
  | nil => rfl
  | cons resumption rest ih =>
      rw [draw_cons, next_finished, ih]
      rfl

/-- A sequence whose first value was taken gives the values of the turns to come, then what the last
of them comes to, and then nothing. -/
theorem draw_of_unfolds
    (unfolds : (engine.resume resumption.bound resumption.registry resumption.store).Unfolds
      resumptions values ending last) :
    (⟨engine, none, false⟩ : Sequence).draw (resumption :: (resumptions ++ later)) =
      (values.map .value ++ .ofEnding ending :: List.replicate later.length .atEnd,
        ⟨last, none, true⟩) := by
  generalize same : engine.resume resumption.bound resumption.registry resumption.store = turn
    at unfolds
  induction unfolds generalizing engine resumption with
  | completes completed =>
      subst same
      rw [draw_cons, next_of_completed completed, List.nil_append, draw_finished]
      rfl
  | faults faulted =>
      subst same
      rw [draw_cons, next_of_faulted faulted, List.nil_append, draw_finished]
      rfl
  | @yields turn next value resumptions values ending last yielded _ ih =>
      subst same
      rw [draw_cons, next_of_yielded yielded, List.cons_append, ih rfl]
      rfl

/-! ## All values, and the last one -/

/-- Taking all values comes to what one by one would be given, as long as the host does nothing in
between. -/
theorem collectFrom_of_unfolds
    (unfolds : (engine.resume bound registry store).Unfolds resumptions values ending last)
    (idle : resumptions = Engine.idle bound registry values.length
      (engine.resume bound registry store).store (engine.resume bound registry store).engine)
    {turns : Nat} (enough : values.length + 2 ≤ turns) (before : List Value)
    (events : List TelemetryEvent) (trace : List String) :
    (collectFrom (fun _ store => store) bound registry turns before
        ⟨(), ⟨engine, none, false⟩, store, events, trace⟩).result =
      .ofEnding (before.reverse ++ values) ending := by
  generalize same : engine.resume bound registry store = turn at unfolds idle
  induction unfolds generalizing engine store turns before events trace with
  | completes completed =>
      subst same
      rcases Nat.exists_eq_add_of_le' enough with ⟨turns, rfl⟩
      simp [collectFrom, next_of_completed completed, SequenceEnd.ofEnding]
  | faults faulted =>
      subst same
      rcases Nat.exists_eq_add_of_le' enough with ⟨turns, rfl⟩
      simp [collectFrom, next_of_faulted faulted, SequenceEnd.ofEnding]
  | @yields turn resumption value resumptions values ending last yielded _ ih =>
      subst same
      rcases Nat.exists_eq_add_of_le' enough with ⟨turns, rfl⟩
      rw [List.length_cons, Engine.idle, List.cons.injEq] at idle
      rcases idle with ⟨rfl, rest⟩
      have enoughRest : values.length + 2 ≤ turns + (value :: values).length + 1 := by
        simp only [List.length_cons]
        omega
      rw [← Nat.add_assoc, collectFrom]
      simp only [next_of_yielded yielded]
      rw [ih enoughRest (value :: before) _ _ rfl rest]
      simp

/-- The last value is the last of all of them. -/
theorem lastFrom_eq_last_collectFrom {turns : Nat} {before : List Value} {drawn : Drawn Unit} :
    (lastFrom bound registry turns (before.head?.getD .unit) drawn).result =
      (collectFrom (fun _ store => store) bound registry turns before drawn).result.last := by
  induction turns generalizing before drawn with
  | zero => rfl
  | succ turns ih =>
      rw [lastFrom, collectFrom]
      cases drawn.sequence.next bound registry drawn.store with
      | mk result sequence store events trace =>
          cases result with
          | value value => exact @ih (value :: before) _
          | fault report => rfl
          | atEnd => simp [SequenceEnd.last]
          | unfinished => rfl

theorem last_eq_last_collect {sequence : Sequence} {turns : Nat} :
    (sequence.last turns bound registry store).result =
      (sequence.collect turns bound registry store).result.last :=
  @lastFrom_eq_last_collectFrom bound registry turns [] _

end Sequence

namespace Embedding

variable {embedding : Embedding} {program : Program} {turns bound : Nat} {store : Store}
  {path : List String} {name : String} {args : List Value} {run : Run}

theorem valueOf_eq_last_valuesOf :
    (embedding.valueOf turns bound run).1 = (embedding.valuesOf turns bound run).1.last := by
  unfold valueOf valuesOf
  cases run.outcome with
  | value value => rfl
  | sequence sequence => exact Sequence.last_eq_last_collect
  | fault report => rfl
  | unfinished => rfl

theorem run_of_loaded (loaded : embedding.program = some program) {turn : Turn}
    (started : (Engine.create program embedding.options).start bound embedding.registry store path
      name args = turn) :
    embedding.run bound store path name args =
      .ok ⟨.ofTurn turn, turn.store, turn.events, turn.trace⟩ := by
  subst started
  unfold run
  rw [loaded]
  rfl

/-- All values of a run are those that its engine yields and the one that it returns. -/
theorem valuesOf_of_unfolds {turn : Turn} (origin : run.outcome = .ofTurn turn)
    {resumptions : List Resumption} {values : List Value} {ending : Except FaultReport Value}
    {last : Engine} (unfolds : turn.Unfolds resumptions values ending last)
    (enough : values.length + 2 ≤ turns)
    (idle : resumptions =
      Engine.idle bound embedding.registry values.length run.store turn.engine) :
    (embedding.valuesOf turns bound run).1 = .ofEnding values ending := by
  unfold valuesOf
  rw [origin]
  cases unfolds with
  | completes completed => simp [RunOutcome.ofTurn, completed, SequenceEnd.ofEnding]
  | faults faulted => simp [RunOutcome.ofTurn, faulted, SequenceEnd.ofEnding]
  | @yields _ resumption value resumptions values _ _ yielded rest =>
      rcases Nat.exists_eq_add_of_le' enough with ⟨more, rfl⟩
      rw [List.length_cons, Engine.idle, List.cons.injEq] at idle
      rcases idle with ⟨rfl, idleRest⟩
      have enoughRest : values.length + 2 ≤ more + (value :: values).length + 1 := by
        simp only [List.length_cons]
        omega
      -- The first value is taken without a turn of the engine, and the rest from there.
      have others := Sequence.collectFrom_of_unfolds rest idleRest enoughRest [value] [] []
      simp only [RunOutcome.ofTurn, yielded]
      exact others

end Embedding

/-- What a host sees of a run of which the engine yields some values and then ends. Without a yield
the run is the value that was returned, or has failed. Otherwise it is a sequence: asking again and
again gives the values that were yielded, then the value that was returned or the fault, and then
nothing, however often the host asks on. A host that takes all values at once gets those and the
value that was returned, one that takes the last gets that value alone, and both get the fault where
there was one. -/
theorem run_shows_every_value {embedding : Embedding} {program : Program}
    (loaded : embedding.program = some program) {bound : Nat} {store : Store} {path : List String}
    {name : String} {args : List Value} {turn : Turn}
    (started : (Engine.create program embedding.options).start bound embedding.registry store path
      name args = turn)
    {resumptions : List Resumption} {values : List Value} {ending : Except FaultReport Value}
    {last : Engine} (unfolds : turn.Unfolds resumptions values ending last) :
    ∃ run, embedding.run bound store path name args = .ok run ∧
      (values = [] → run.outcome = .ofEnding ending) ∧
      (values ≠ [] → ∃ sequence, run.outcome = .sequence sequence ∧
        ∀ first later, sequence.draw (first :: (resumptions ++ later)) =
          (values.map .value ++ .ofEnding ending :: List.replicate later.length .atEnd,
            ⟨last, none, true⟩)) ∧
      ∀ (host : Embedding) (found : Store) (turns bound : Nat), values.length + 2 ≤ turns →
        resumptions = Engine.idle bound host.registry values.length found turn.engine →
        (host.valuesOf turns bound { run with store := found }).1 = .ofEnding values ending ∧
        (host.valueOf turns bound { run with store := found }).1 = .ofEnding ending := by
  refine ⟨_, Embedding.run_of_loaded loaded started, ?_, ?_, ?_⟩
  · rintro rfl
    cases unfolds with
    | completes completed => simp [RunOutcome.ofTurn, completed, RunOutcome.ofEnding]
    | faults faulted => simp [RunOutcome.ofTurn, faulted, RunOutcome.ofEnding]
  · intro nonempty
    cases unfolds with
    | completes | faults => exact absurd rfl nonempty
    | @yields _ resumption value _ _ _ _ yielded rest =>
        refine ⟨⟨turn.engine, some value, false⟩, by simp [RunOutcome.ofTurn, yielded], ?_⟩
        intro first later
        rw [Sequence.draw_cons, Sequence.next_pending, List.cons_append,
          Sequence.draw_of_unfolds rest]
        rfl
  · intro host found turns bound enough idle
    have all := @Embedding.valuesOf_of_unfolds host turns bound
      ⟨.ofTurn turn, found, turn.events, turn.trace⟩ _ rfl _ _ _ _ unfolds enough idle
    refine ⟨all, ?_⟩
    rw [Embedding.valueOf_eq_last_valuesOf]
    exact (congrArg SequenceEnd.last all).trans SequenceEnd.last_ofEnding

namespace Sample

/-- Yields two numbers and returns a third. -/
def countingUnit : ProgramUnit :=
  ⟨"counting", [],
    [⟨"main", [],
      [.yieldValue (some (.literal (.int 1))), .yieldValue (some (.literal (.int 2))),
        .returnValue (some (.literal (.int 3)))], .nowhere⟩]⟩

def counting : Program where
  instructions := #[
    .allocFrame 0, .pushDebug ⟨"counting", "main", .nowhere⟩, .pushConst (.int 1), .yieldValue,
    .pushConst (.int 2), .yieldValue, .pushConst (.int 3), .popDebug, .returnValue 0,
    .pushConst .unit, .popDebug, .returnValue 0]
  namespaces := .mk [("main", ⟨0, 0⟩)] []
  globals := []
  metadata := [("compiler", compilerName), ("units", "counting")]

def countingHost : Embedding where
  registry := .empty
  units := [countingUnit]
  program := some counting
  options := .standard

/-- The first turn of an engine that runs the function. -/
def countingTurn : Turn :=
  (Engine.create counting .standard).start 12 .empty .empty [] "main" []

theorem countingTurn_unfolds :
    ∃ last, countingTurn.Unfolds
      (Engine.idle 12 .empty 2 countingTurn.store countingTurn.engine)
      [.int 1, .int 2] (.ok (.int 3)) last :=
  ⟨_, .yields rfl (.yields rfl (.completes rfl))⟩

end Sample

theorem run_shows_every_value_counting :
    ∃ run sequence, Sample.countingHost.run 12 .empty [] "main" [] = .ok run ∧
      run.outcome = .sequence sequence ∧
      (∀ first later, (sequence.draw (first ::
          (Engine.idle 12 .empty 2 Sample.countingTurn.store Sample.countingTurn.engine ++
            later))).1 =
        [.value (.int 1), .value (.int 2), .value (.int 3)] ++
          List.replicate later.length .atEnd) ∧
      (Sample.countingHost.valuesOf 4 12 run).1 = .values [.int 1, .int 2, .int 3] ∧
      (Sample.countingHost.valueOf 4 12 run).1 = .value (.int 3) := by
  rcases Sample.countingTurn_unfolds with ⟨last, unfolds⟩
  rcases @run_shows_every_value Sample.countingHost Sample.counting rfl _ _ _ _ _ _ rfl _ _ _ _
    unfolds with ⟨run, ran, _, drawn, all⟩
  have kept : run.store = Sample.countingTurn.store := by
    cases ran
    rfl
  rcases drawn (by simp) with ⟨sequence, isSequence, items⟩
  refine ⟨run, sequence, ran, isSequence, ?_, ?_⟩
  · intro first later
    rw [items]
    rfl
  · exact all Sample.countingHost run.store 4 12 (by decide) (by rw [kept]; rfl)

end ScriptMachine
