import ScriptMachine.Proofs.Engine.Turns
import Mathlib.Data.List.Forall2
import Mathlib.Data.List.Induction
import Mathlib.Tactic.Common

/-!
# The life of an engine

A host calls an engine as often and in whatever order it likes, each time against a registry and a
store of its choice. What the engine reports of that is one of a few courses, cut short where the
host stops calling: either the function could not be entered, or it was started, suspended and
resumed in turn, and came to one end. A call that the engine's state does not permit is no part of
the course; it is refused and changes nothing.

The invariant of the induction over the calls is `Told`: the state of the engine says how far along
its course the events are, and its counter says how many of them are suspensions.
-/

namespace ScriptMachine

/-! ## Courses -/

/-- So many times suspended and resumed. -/
def rounds (count : Nat) : List TelemetryKind :=
  (List.replicate count [TelemetryKind.suspended, TelemetryKind.resumed]).flatten

/-- The whole course of a life. -/
inductive Course : List TelemetryKind → Prop
  | rejected : Course [.faulted]
  | completed (count : Nat) : Course (.started :: rounds count ++ [.completed])
  | faulted (count : Nat) : Course (.started :: rounds count ++ [.faulted])

/-- How far along its course an engine in a state is. -/
inductive Phase : EngineState → List TelemetryKind → Prop
  | ready : Phase .ready []
  | rejected : Phase .faulted [.faulted]
  | running (count : Nat) : Phase .running (.started :: rounds count)
  | suspended (count : Nat) : Phase .suspended (.started :: rounds count ++ [.suspended])
  | completed (count : Nat) : Phase .completed (.started :: rounds count ++ [.completed])
  | faulted (count : Nat) : Phase .faulted (.started :: rounds count ++ [.faulted])

theorem rounds_succ (count : Nat) :
    rounds (count + 1) = rounds count ++ [.suspended, .resumed] := by
  simp [rounds, List.replicate_succ']

namespace Phase

variable {state : EngineState} {kinds : List TelemetryKind}

theorem course (phase : Phase state kinds) : ∃ course, Course course ∧ kinds <+: course := by
  cases phase with
  | ready => exact ⟨_, .rejected, List.nil_prefix⟩
  | rejected => exact ⟨_, .rejected, List.prefix_refl _⟩
  | running count => exact ⟨_, .completed count, List.prefix_append _ _⟩
  | suspended count =>
      refine ⟨_, .completed (count + 1), ?_⟩
      rw [rounds_succ]
      exact ⟨[.resumed, .completed], by simp⟩
  | completed count => exact ⟨_, .completed count, List.prefix_refl _⟩
  | faulted count => exact ⟨_, .faulted count, List.prefix_refl _⟩

theorem started (phase : Phase .ready kinds) : Phase .running (kinds ++ [.started]) := by
  cases phase
  exact .running 0

theorem rejects (phase : Phase .ready kinds) : Phase .faulted (kinds ++ [.faulted]) := by
  cases phase
  exact .rejected

theorem resumed (phase : Phase .suspended kinds) : Phase .running (kinds ++ [.resumed]) := by
  cases phase with
  | suspended count =>
      have next := Phase.running (count + 1)
      rw [rounds_succ] at next
      simpa using next

end Phase

/-! ## Numbers -/

/-- How many of some events are suspensions. -/
def suspensions (events : List TelemetryEvent) : Nat :=
  events.countP fun event => event.kind = .suspended

/-- Every event carries the number of suspensions so far, its own included. -/
def Numbered (events : List TelemetryEvent) : Prop :=
  ∀ place event, events[place]? = some event →
    event.yielded = suspensions (events.take (place + 1))

theorem suspensions_concat {events : List TelemetryEvent} {event : TelemetryEvent} :
    suspensions (events ++ [event]) =
      suspensions events + if event.kind = .suspended then 1 else 0 := by
  simp [suspensions, List.countP_cons]

theorem Numbered.concat {events : List TelemetryEvent} {event : TelemetryEvent}
    (numbered : Numbered events) (next : event.yielded = suspensions (events ++ [event])) :
    Numbered (events ++ [event]) := by
  intro place found present
  rcases Nat.lt_trichotomy place events.length with inside | rfl | outside
  · rw [List.getElem?_append_left inside] at present
    rw [List.take_append_of_le_length inside]
    exact numbered place found present
  · rw [List.getElem?_concat_length] at present
    cases present
    rw [List.take_of_length_le (by simp)]
    exact next
  · rw [List.getElem?_eq_none (by simp; omega)] at present
    cases present

theorem Numbered.init {events : List TelemetryEvent} {event : TelemetryEvent}
    (numbered : Numbered (events ++ [event])) : Numbered events := by
  intro place found present
  have inside : place < events.length := (List.getElem?_eq_some_iff.mp present).1
  have same := numbered place found (by rwa [List.getElem?_append_left inside])
  rwa [List.take_append_of_le_length inside] at same

/-- The suspensions are counted from one on. -/
theorem Numbered.suspended {events : List TelemetryEvent} (numbered : Numbered events) :
    (events.filter (·.kind = .suspended)).map TelemetryEvent.yielded =
      List.range' 1 (suspensions events) := by
  induction events using List.reverseRecOn with
  | nil => rfl
  | append_singleton events event ih =>
      have last : event.yielded = suspensions (events ++ [event]) := by
        have numbered := numbered events.length event (by simp)
        rwa [List.take_of_length_le (by simp)] at numbered
      rw [List.filter_append, List.map_append, ih numbered.init]
      rw [suspensions_concat] at last ⊢
      by_cases suspended : event.kind = .suspended
      · simp [suspended, List.range'_concat] at last ⊢
        omega
      · simp [suspended]

/-! ## Ends of turns -/

namespace TurnOutcome

/-- What is reported of the end of a turn. -/
def kind? : TurnOutcome → Option TelemetryKind
  | .yielded _ => some .suspended
  | .completed _ => some .completed
  | .faulted _ => some .faulted
  | .unfinished => none

/-- The state in which a turn leaves an engine. -/
def state : TurnOutcome → EngineState
  | .yielded _ => .suspended
  | .completed _ => .completed
  | .faulted _ => .faulted
  | .unfinished => .running

/-- Whether a turn ends with a value that is yielded. -/
def yields : TurnOutcome → Bool
  | .yielded _ => true
  | _ => false

end TurnOutcome

/-- A turn that yields reports one suspension, as the last event; no other turn reports any. -/
def Turn.Suspends (turn : Turn) : Prop :=
  (turn.outcome.yields = true ∧ ∃ event, turn.events.getLast? = some event ∧
      turn.events.filter (·.kind = .suspended) = [event]) ∨
    (turn.outcome.yields = false ∧ turn.events.filter (·.kind = .suspended) = [])

theorem Phase.ends {kinds : List TelemetryKind} (phase : Phase .running kinds)
    (outcome : TurnOutcome) : Phase outcome.state (kinds ++ outcome.kind?.toList) := by
  cases phase with
  | running count =>
      cases outcome with
      | yielded value => exact .suspended count
      | completed value => exact .completed count
      | faulted report => exact .faulted count
      | unfinished => exact (List.append_nil _).symm ▸ Phase.running count

namespace Engine

variable {engine later : Engine} {bound : Nat} {registry : Registry} {store : Store}
  {before past : List TelemetryEvent}

/-- A turn reports its end, and counts a yield. -/
theorem turnOf_ends (running : engine.state = .running)
    (result : TurnOutcome × Machine × List String) :
    (engine.turnOf before result).outcome = result.1 ∧
      (engine.turnOf before result).engine.state = result.1.state ∧
      (engine.turnOf before result).engine.yielded =
        engine.yielded + (if result.1.yields then 1 else 0) ∧
      ∃ detail, (engine.turnOf before result).events =
        before ++ result.1.kind?.toList.map ((engine.turnOf before result).engine.event · detail) := by
  rcases result with ⟨outcome, machine, trace⟩
  cases outcome with
  | yielded value => exact ⟨rfl, rfl, rfl, none, rfl⟩
  | completed value => exact ⟨rfl, rfl, rfl, none, rfl⟩
  | faulted report => exact ⟨rfl, rfl, rfl, some report.fault.message, rfl⟩
  | unfinished => exact ⟨rfl, running, rfl, none, (List.append_nil _).symm⟩

/-! ## What an engine has told -/

/-- All that is reported of an engine during some calls. -/
def events (engine : Engine) (calls : List EngineCall) : List TelemetryEvent :=
  (engine.turns calls).flatMap Turn.events

/-- The events so far are in step with the engine. -/
structure Told (engine : Engine) (events : List TelemetryEvent) : Prop where
  phase : Phase engine.state (events.map TelemetryEvent.kind)
  counted : engine.yielded = suspensions events
  numbered : Numbered events

theorem told_create (program : Program) (options : RunOptions) : (create program options).Told [] :=
  ⟨.ready, rfl, fun _ _ present => nomatch present⟩

/-- One event more. -/
theorem Told.report {kind : TelemetryKind} {detail : Option String} (told : engine.Told past)
    (phase : Phase later.state (past.map TelemetryEvent.kind ++ [kind]))
    (counts : later.yielded = engine.yielded + if kind = .suspended then 1 else 0) :
    later.Told (past ++ [later.event kind detail]) := by
  have counted : later.yielded = suspensions (past ++ [later.event kind detail]) := by
    rw [suspensions_concat, counts, told.counted]
    rfl
  refine ⟨?_, counted, told.numbered.concat counted⟩
  rw [List.map_append]
  exact phase

/-- A running engine comes to the end of its turn. -/
theorem Told.turnOf (told : engine.Told (past ++ before)) (running : engine.state = .running)
    (result : TurnOutcome × Machine × List String) :
    (engine.turnOf before result).engine.Told (past ++ (engine.turnOf before result).events) := by
  rcases turnOf_ends running result with ⟨_, state, counts, detail, events⟩
  have phase := told.phase
  rw [running] at phase
  rw [events, ← List.append_assoc]
  generalize engine.turnOf before result = turn at state counts
  cases ended : result.1 with
  | unfinished =>
      rw [ended] at state counts
      change turn.engine.Told (past ++ before ++ [])
      rw [List.append_nil]
      exact ⟨state ▸ phase, Eq.trans counts told.counted, told.numbered⟩
  | yielded value =>
      rw [ended] at state counts
      exact told.report (state ▸ phase.ends (.yielded value)) counts
  | completed value =>
      rw [ended] at state counts
      exact told.report (state ▸ phase.ends (.completed value)) counts
  | faulted report =>
      rw [ended] at state counts
      exact told.report (state ▸ phase.ends (.faulted report)) counts

theorem Told.start (told : engine.Told past) (ready : engine.state = .ready) (path : List String)
    (name : String) (args : List Value) :
    (engine.start bound registry store path name args).engine.Told
      (past ++ (engine.start bound registry store path name args).events) := by
  have phase := told.phase
  rw [ready] at phase
  rw [start_of_ready ready]
  rcases (enter ⟨engine.program, registry⟩ (qualifiedName path name) path name args).run
    (engine.machine store) with ⟨fault | _, machine⟩
  · exact told.report phase.rejects rfl
  · exact (told.report phase.started rfl).turnOf rfl _

theorem Told.resume (told : engine.Told past) (suspended : engine.state = .suspended) :
    (engine.resume bound registry store).engine.Told
      (past ++ (engine.resume bound registry store).events) := by
  have phase := told.phase
  rw [suspended] at phase
  rw [resume_of_suspended suspended, run_eq_turnOf]
  exact (told.report phase.resumed rfl).turnOf rfl _

/-- A call keeps the events in step with the engine. -/
theorem Told.call (told : engine.Told past) (call : EngineCall) :
    (call.turn engine).engine.Told (past ++ (call.turn engine).events) := by
  by_cases permitted : call.Permitted engine.state
  · cases call with
    | start => exact told.start permitted _ _ _
    | resume => exact told.resume permitted
  · rw [turn_of_not_permitted permitted]
    exact (List.append_nil past).symm ▸ told

theorem Told.after (told : engine.Told past) (calls : List EngineCall) :
    (engine.after calls).Told (past ++ engine.events calls) := by
  induction calls generalizing engine past with
  | nil => exact (List.append_nil past).symm ▸ told
  | cons call rest ih =>
      have later := ih (told.call call)
      rwa [List.append_assoc] at later

/-! ## Yields and suspensions -/

theorem suspends_turnOf {first : TelemetryEvent} (other : first.kind ≠ .suspended)
    (result : TurnOutcome × Machine × List String) :
    (engine.turnOf [first] result).Suspends := by
  rcases result with ⟨outcome, machine, trace⟩
  cases outcome with
  | yielded value => exact .inl ⟨rfl, _, rfl, by simp [Engine.turnOf, event, other]⟩
  | _ => exact .inr ⟨rfl, by simp [Engine.turnOf, event, other]⟩

theorem suspends_turn (engine : Engine) (call : EngineCall) : (call.turn engine).Suspends := by
  by_cases permitted : call.Permitted engine.state
  · cases call with
    | start bound registry store path name args =>
        change (engine.start ..).Suspends
        rw [start_of_ready permitted]
        rcases (enter ⟨engine.program, registry⟩ (qualifiedName path name) path name args).run
          (engine.machine store) with ⟨fault | _, machine⟩
        · exact .inr ⟨rfl, by simp [firstTurn, event]⟩
        · exact suspends_turnOf (by simp [event]) _
    | resume =>
        change (engine.resume ..).Suspends
        rw [resume_of_suspended permitted, run_eq_turnOf]
        exact suspends_turnOf (by simp [event]) _
  · rw [turn_of_not_permitted permitted]
    exact .inr ⟨rfl, rfl⟩

/-- The turns that yield and the suspensions belong together, in order. -/
theorem suspensions_of_yields (engine : Engine) (calls : List EngineCall) :
    List.Forall₂ (fun turn event => turn.events.getLast? = some event)
      ((engine.turns calls).filter (·.outcome.yields))
      ((engine.events calls).filter (·.kind = .suspended)) := by
  induction calls generalizing engine with
  | nil => exact .nil
  | cons call rest ih =>
      rw [events, turns, List.flatMap_cons, List.filter_append]
      rcases suspends_turn engine call with ⟨yields, event, last, suspended⟩ | ⟨quiet, none⟩
      · rw [List.filter_cons, if_pos yields, suspended]
        exact .cons last (ih _)
      · rw [List.filter_cons, if_neg (by simp [quiet]), none]
        exact ih _

/-! ## Ends of lives -/

/-- The engine's life is over. -/
def Over (engine : Engine) : Prop := engine.state = .completed ∨ engine.state = .faulted

theorem Over.not_permitted (ended : engine.Over) (call : EngineCall) :
    ¬ call.Permitted engine.state := by
  intro permitted
  cases call <;> rcases ended with state | state <;> exact nomatch state.symm.trans permitted

/-- An engine whose life is over refuses every call, and stays as it is. -/
theorem Over.turns (ended : engine.Over) (calls : List EngineCall) :
    engine.turns calls = calls.map fun call => engine.refuse call.store := by
  induction calls with
  | nil => rfl
  | cons call rest ih =>
      rw [Engine.turns, turn_of_not_permitted (ended.not_permitted call), List.map_cons]
      exact congrArg _ ih

/-- The life of an engine that is called again and again. -/
structure Orderly (engine : Engine) (calls : List EngineCall) : Prop where
  /-- What is reported is the beginning of a course. -/
  course : ∃ course, Course course ∧ (engine.events calls).map TelemetryEvent.kind <+: course
  /-- Every event carries the number of yields so far. -/
  numbered : Numbered (engine.events calls)
  /-- So suspensions are counted from one on. -/
  suspended : ((engine.events calls).filter (·.kind = .suspended)).map TelemetryEvent.yielded =
    List.range' 1 (suspensions (engine.events calls))
  /-- The yields and the suspensions belong together, one by one. -/
  yields : List.Forall₂ (fun turn event => turn.events.getLast? = some event)
    ((engine.turns calls).filter (·.outcome.yields))
    ((engine.events calls).filter (·.kind = .suspended))
  /-- A call that the state does not permit is answered with the state, and does nothing. -/
  refused : ∀ before call rest, calls = before ++ call :: rest →
    ¬ call.Permitted (engine.after before).state →
    call.turn (engine.after before) =
      ⟨.faulted (.ofFault (.notResumable (engine.after before).state.label)), engine.after before,
        call.store, [], []⟩
  /-- Behind an end, every call is answered so. -/
  ended : ∀ before rest, calls = before ++ rest → (engine.after before).Over →
    (engine.after before).turns rest = rest.map fun call => (engine.after before).refuse call.store

/-- Whatever calls are made of a new engine, its life is orderly. -/
theorem orderly_create (program : Program) (options : RunOptions) (calls : List EngineCall) :
    (create program options).Orderly calls := by
  have told : ((create program options).after calls).Told ((create program options).events calls) :=
    (told_create program options).after calls
  exact {
    course := told.phase.course
    numbered := told.numbered
    suspended := told.numbered.suspended
    yields := suspensions_of_yields _ calls
    refused := fun _ _ _ _ refused => turn_of_not_permitted refused
    ended := fun _ rest _ ended => ended.turns rest }

end Engine

end ScriptMachine
