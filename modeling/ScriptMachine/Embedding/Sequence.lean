import ScriptMachine.Engine.Basic

/-!
# Sequences

A function that yields is seen by the host as a sequence: the yielded values in order, then the
value that the function returns. A fault ends a sequence. The first value is known when the sequence
comes to be, every further one costs a turn of the engine.

What an engine does is bounded by a number of instructions for each turn, and where values are taken
until the end, by a number of turns.
-/

namespace ScriptMachine

/-- A suspended engine whose values are taken one by one. -/
structure Sequence where
  engine : Engine
  /-- The value that was yielded but not taken yet. -/
  pending : Option Value
  finished : Bool

/-- What is met when a value is taken from a sequence. -/
inductive SequenceItem where
  | value (value : Value)
  | fault (report : FaultReport)
  | atEnd
  /-- The bound on instructions was met. -/
  | unfinished

/-- What came of a turn, and what it left behind. -/
structure Drawn (α : Type) where
  result : α
  sequence : Sequence
  store : Store
  events : List TelemetryEvent
  trace : List String

/-- How taking all values ends. -/
inductive SequenceEnd where
  | values (values : List Value)
  | fault (report : FaultReport)
  /-- A bound was met. -/
  | unfinished

/-- How taking the last value ends. -/
inductive SequenceLast where
  | value (value : Value)
  | fault (report : FaultReport)
  /-- A bound was met. -/
  | unfinished

namespace Sequence

/-- Takes the next value. -/
def next (sequence : Sequence) (bound : Nat) (registry : Registry) (store : Store) :
    Drawn SequenceItem :=
  match sequence.pending with
  | some value => ⟨.value value, { sequence with pending := none }, store, [], []⟩
  | none =>
      if sequence.finished then ⟨.atEnd, sequence, store, [], []⟩
      else
        let turn := sequence.engine.resume bound registry store
        let (item, finished) : SequenceItem × Bool :=
          match turn.outcome with
          | .yielded value => (.value value, false)
          | .completed value => (.value value, true)
          | .faulted report => (.fault report, true)
          | .unfinished => (.unfinished, true)
        ⟨item, ⟨turn.engine, none, finished⟩, turn.store, turn.events, turn.trace⟩

/-- Takes the remaining values, or stops at a fault. Each value is shown to `visit` when it is
taken; `before` holds those taken so far, last first. -/
def collectFrom (visit : Value → Store → Store) (bound : Nat) (registry : Registry) :
    Nat → List Value → Drawn Unit → Drawn SequenceEnd
  | 0, _, drawn => { drawn with result := .unfinished }
  | turns + 1, before, drawn =>
      let further := drawn.sequence.next bound registry drawn.store
      let events := drawn.events ++ further.events
      let trace := drawn.trace ++ further.trace
      match further.result with
      | .value value =>
          collectFrom visit bound registry turns (value :: before)
            ⟨(), further.sequence, visit value further.store, events, trace⟩
      | .fault report => ⟨.fault report, further.sequence, further.store, events, trace⟩
      | .atEnd => ⟨.values before.reverse, further.sequence, further.store, events, trace⟩
      | .unfinished => ⟨.unfinished, further.sequence, further.store, events, trace⟩

/-- Takes all values that remain, in at most so many turns, and shows each to `visit`. -/
def collectWith (visit : Value → Store → Store) (sequence : Sequence) (turns bound : Nat)
    (registry : Registry) (store : Store) : Drawn SequenceEnd :=
  collectFrom visit bound registry turns [] ⟨(), sequence, store, [], []⟩

/-- Takes all values that remain, in at most so many turns. -/
def collect (sequence : Sequence) (turns bound : Nat) (registry : Registry) (store : Store) :
    Drawn SequenceEnd :=
  sequence.collectWith (fun _ store => store) turns bound registry store

/-- Takes the remaining values and keeps only the last, or stops at a fault. -/
def lastFrom (bound : Nat) (registry : Registry) :
    Nat → Value → Drawn Unit → Drawn SequenceLast
  | 0, _, drawn => { drawn with result := .unfinished }
  | turns + 1, last, drawn =>
      let further := drawn.sequence.next bound registry drawn.store
      let events := drawn.events ++ further.events
      let trace := drawn.trace ++ further.trace
      match further.result with
      | .value value =>
          lastFrom bound registry turns value
            ⟨(), further.sequence, further.store, events, trace⟩
      | .fault report => ⟨.fault report, further.sequence, further.store, events, trace⟩
      | .atEnd => ⟨.value last, further.sequence, further.store, events, trace⟩
      | .unfinished => ⟨.unfinished, further.sequence, further.store, events, trace⟩

/-- Takes all values that remain, in at most so many turns, and gives the last of them, or unit if
none is left. -/
def last (sequence : Sequence) (turns bound : Nat) (registry : Registry) (store : Store) :
    Drawn SequenceLast :=
  lastFrom bound registry turns .unit ⟨(), sequence, store, [], []⟩

end Sequence

end ScriptMachine
