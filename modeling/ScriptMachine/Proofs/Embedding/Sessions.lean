import ScriptMachine.Embedding.Basic
import ScriptMachine.Proofs.Engine.Notes

/-!
# Sessions and the notes of calls

A function is looked up once for each place that calls it: a call instruction keeps the entry for
all runs of its program, and a closure keeps it for as long as it lives. This file asks whether what
is kept is ever different from what a look at the namespaces would give.

For call instructions it never is, since a program's instructions are run with that program's
namespaces only. A closure may outlive its program: the host can keep it in a global or a variable,
load another unit, compile again, and have it called by the new program. So a session of a host is
considered, with every program that ever ran in it. What a closure has noted was the entry of its
function in one of them, and a call goes where the running program has the function as long as all
programs of the session that have it agree.
-/

namespace ScriptMachine

/-! ## Looking a function up -/

namespace Program

/-- Where a call of a function goes by the namespaces of a program. -/
def resolve (program : Program) (function : FunctionRef) (argc : Nat) : Except RuntimeFault Nat :=
  match program.lookup? function.path function.name with
  | some entry => Step.checkArity function argc entry
  | none => .error (.functionNotFound function.render)

/-- Where a call goes that may have noted an entry, and what it has noted then. -/
def resolveNoted (program : Program) (function : FunctionRef) (argc : Nat)
    (noted : Option FunctionEntry) : Except RuntimeFault Nat × Option FunctionEntry :=
  match noted with
  | some entry => (Step.checkArity function argc entry, noted)
  | none => (program.resolve function argc, program.lookup? function.path function.name)

/-- What one program says about a function, if it has it, the other says too. -/
def Agrees (other program : Program) (function : FunctionRef) : Prop :=
  ∀ entry, other.lookup? function.path function.name = some entry →
    program.lookup? function.path function.name = some entry

theorem resolve_of_lookup? {program : Program} {function : FunctionRef} {entry : FunctionEntry}
    {argc : Nat} (found : program.lookup? function.path function.name = some entry) :
    program.resolve function argc = Step.checkArity function argc entry := by
  rw [resolve, found]

/-- A note that is the program's own makes no difference. -/
theorem resolveNoted_eq {program : Program} {function : FunctionRef} {argc : Nat}
    {noted : Option FunctionEntry}
    (own : ∀ entry, noted = some entry →
      program.lookup? function.path function.name = some entry) :
    (program.resolveNoted function argc noted).1 = program.resolve function argc := by
  cases noted with
  | none => rfl
  | some entry => rw [resolveNoted, resolve_of_lookup? (own entry rfl)]

end Program

theorem run_resolveClosure_eq {program : Program} {id : ClosureId} {argc : Nat} {machine : Machine} :
    ((Step.resolveClosure program id argc).run machine).1 =
      (program.resolveNoted (machine.store.closure id).function argc
        (machine.store.closure id).resolved).1 := by
  rw [Step.run_resolveClosure, Step.run_onStore]
  cases noted : (machine.store.closure id).resolved with
  | some entry => simp only [Effect.resolveClosure, noted, Program.resolveNoted]
  | none =>
      simp only [Effect.resolveClosure, noted, Program.resolveNoted, Program.resolve]
      split <;> rename_i found <;> rw [found]

/-! ## Call instructions -/

/-- What the call instructions of a program have noted. -/
abbrev CallNotes := Nat → Option FunctionEntry

/-- The notes that runs of a program can come to, in whatever order they carry out its calls. -/
inductive CallNotes.Kept (program : Program) : CallNotes → Prop
  | fresh : Kept program fun _ => none
  | called {notes : CallNotes} {place argc : Nat} {function : FunctionRef}
      (kept : Kept program notes)
      (found : program.instructions[place]? = some (.callFunction function argc)) :
      Kept program fun other =>
        if other = place then (program.resolveNoted function argc (notes place)).2
        else notes other

theorem CallNotes.Kept.own {program : Program} {notes : CallNotes} (kept : notes.Kept program)
    {place argc : Nat} {function : FunctionRef}
    (found : program.instructions[place]? = some (.callFunction function argc)) :
    ∀ entry, notes place = some entry →
      program.lookup? function.path function.name = some entry := by
  induction kept with
  | fresh => nofun
  | @called notes called count callee kept calledFound ih =>
      intro entry noted
      dsimp only at noted
      split at noted
      · rename_i same
        subst called
        cases found.symm.trans calledFound
        cases older : notes place with
        | none =>
            rw [older] at noted
            exact noted
        | some older' =>
            rw [older] at noted
            exact ih entry (older.trans noted)
      · exact ih entry noted

/-! ## Sessions -/

/-- What a host holds, everything that its values share, the sequences that it may go on with, and
the programs of which functions have been run. -/
structure Session where
  embedding : Embedding
  store : Store
  sequences : List Sequence
  ran : List Program

namespace Session

/-- A session in which nothing has happened. -/
def fresh (options : RunOptions) : Session := ⟨.ofOptions options, .empty, [], []⟩

/-- The session after a run of a function. -/
def afterRun (session : Session) (program : Program) (run : Run) : Session :=
  { session with
    store := run.store
    sequences :=
      match run.outcome with
      | .sequence sequence => sequence :: session.sequences
      | _ => session.sequences
    ran := program :: session.ran }

/-- One thing that a host does. The bounds on runs are arbitrary, so that a run can also be looked
at in the middle. -/
inductive Act : Session → Session → Prop
  | configure {session : Session} (options : RunOptions) :
      Act session { session with embedding := { session.embedding with options := options } }
  | loadUnit {session : Session} (unit : ProgramUnit) :
      Act session { session with embedding := session.embedding.loadUnit unit }
  | compile {session : Session} {embedding : Embedding}
      (compiled : session.embedding.compile = .ok embedding) :
      Act session { session with embedding := embedding }
  | loadImage {session : Session} {embedding : Embedding} {bytes : Bytes} {trusted : Bool}
      (taken : session.embedding.loadImage bytes trusted = .ok embedding) :
      Act session { session with embedding := embedding }
  | registerFunction {session : Session} (function : HostFunction)
      (quiet : HostBody.NotesNothing function.body) :
      Act session { session with embedding := { session.embedding with
        registry := session.embedding.registry.registerFunction function } }
  | registerType {session : Session} (type : HostType)
      (quiet : ∀ function, type.Offers function → HostBody.NotesNothing function.body) :
      Act session { session with embedding := { session.embedding with
        registry := session.embedding.registry.registerType type } }
  | registerGlobal {session : Session} (name : String) (value : Value) :
      Act session { session with
        embedding := { session.embedding with
          registry := (session.embedding.registry.registerGlobal session.store name value).1 }
        store := (session.embedding.registry.registerGlobal session.store name value).2 }
  | setGlobal {session : Session} {name : String} {value : Value} {store : Store}
      (known : session.embedding.registry.setGlobal? session.store name value = some store) :
      Act session { session with store := store }
  /-- The host makes or changes values of its own. -/
  | touch {session : Session} {store : Store} (quiet : Store.NotesNoMore session.store store) :
      Act session { session with store := store }
  | run {session : Session} {program : Program} {bound : Nat} {path : List String} {name : String}
      {args : List Value} {run : Run} (current : session.embedding.program = some program)
      (ran : session.embedding.run bound session.store path name args = .ok run) :
      Act session (session.afterRun program run)
  | next {session : Session} {first rest : List Sequence} {sequence : Sequence} (bound : Nat)
      (waiting : session.sequences = first ++ sequence :: rest) :
      Act session { session with
        store := (sequence.next bound session.embedding.registry session.store).store
        sequences := first ++
          (sequence.next bound session.embedding.registry session.store).sequence :: rest }

/-- The sessions that a host can come to. -/
inductive Reached : Session → Prop
  | fresh (options : RunOptions) : Reached (fresh options)
  | act {before after : Session} (reached : Reached before) (acts : Act before after) :
      Reached after

/-- What is known of a session: which programs its notes and sequences come from. -/
structure Traced (session : Session) : Prop where
  notes : ∀ id entry, (session.store.closure id).resolved = some entry →
    ∃ program ∈ session.ran, program.lookup? (session.store.closure id).function.path
      (session.store.closure id).function.name = some entry
  hosts : session.embedding.registry.NotesNothing
  sequences : ∀ sequence ∈ session.sequences, sequence.engine.program ∈ session.ran

end Session

namespace Registry

variable {registry : Registry}

theorem NotesNothing.registerFunction {function : HostFunction} (quiet : registry.NotesNothing)
    (own : HostBody.NotesNothing function.body) :
    (registry.registerFunction function).NotesNothing := by
  rintro offered (⟨entry, entryMem, among⟩ | typed)
  · rcases Dictionary.mem_insert entryMem with rfl | older
    · rcases List.mem_append.mp among with older | new
      · exact quiet offered (Effect.offers_overloads older)
      · exact List.mem_singleton.mp new ▸ own
    · exact quiet offered (.inl ⟨entry, older, among⟩)
  · exact quiet offered (.inr typed)

theorem NotesNothing.registerType {type : HostType} (quiet : registry.NotesNothing)
    (own : ∀ function, type.Offers function → HostBody.NotesNothing function.body) :
    (registry.registerType type).NotesNothing := by
  rintro offered (named | ⟨entry, entryMem, among⟩)
  · exact quiet offered (.inl named)
  · rcases Dictionary.mem_insert entryMem with rfl | older
    · exact own offered among
    · exact quiet offered (.inr ⟨entry, older, among⟩)

theorem NotesNothing.ofEmpty : Registry.empty.NotesNothing := by
  rintro offered (⟨_, present, _⟩ | ⟨_, present, _⟩) <;> cases present

theorem registerGlobal_quiet {store : Store} {name : String} {value : Value} :
    Store.NotesNoMore store (registry.registerGlobal store name value).2 := by
  apply Store.NotesNoMore.ofClosures
  unfold registerGlobal
  split <;> rfl

theorem NotesNothing.registerGlobal {store : Store} {name : String} {value : Value}
    (quiet : registry.NotesNothing) : (registry.registerGlobal store name value).1.NotesNothing := by
  unfold Registry.registerGlobal
  split <;> exact quiet

theorem setGlobal_quiet {store later : Store} {name : String} {value : Value}
    (known : registry.setGlobal? store name value = some later) :
    Store.NotesNoMore store later := by
  rcases Option.map_eq_some_iff.mp known with ⟨cell, _, rfl⟩
  exact .ofClosures rfl

end Registry

theorem Sequence.notes_next {registry : Registry} (quiet : registry.NotesNothing)
    (sequence : Sequence) (bound : Nat) (store : Store) :
    store.Notes sequence.engine.program (sequence.next bound registry store).store ∧
      (sequence.next bound registry store).sequence.engine.program = sequence.engine.program := by
  unfold next
  split
  · exact ⟨.refl, rfl⟩
  · split
    · exact ⟨.refl, rfl⟩
    · exact Engine.notes_resume quiet bound store

theorem Embedding.notes_run {embedding : Embedding} {program : Program} {bound : Nat} {store : Store}
    {path : List String} {name : String} {args : List Value} {run : Run}
    (quiet : embedding.registry.NotesNothing) (current : embedding.program = some program)
    (ran : embedding.run bound store path name args = .ok run) :
    store.Notes program run.store ∧
      ∀ sequence, run.outcome = .sequence sequence → sequence.engine.program = program := by
  unfold Embedding.run at ran
  rw [current] at ran
  cases ran
  rcases @Engine.notes_start _ (Engine.create program embedding.options) quiet bound store path name
    args with ⟨noted, same⟩
  refine ⟨noted, fun sequence outcome => ?_⟩
  dsimp only at outcome
  split at outcome <;> cases outcome
  exact same

namespace Session

variable {before after : Session}

theorem Traced.fresh (options : RunOptions) : (fresh options).Traced where
  notes id entry noted := by
    simp [Session.fresh, Store.closure, Store.empty] at noted
    cases noted
  hosts := .ofEmpty
  sequences := nofun

/-- The notes after a run of a program are those before and the program's. -/
theorem Traced.notesAfter {program : Program} {store : Store} {ran : List Program}
    (traced : before.Traced) (noted : before.store.Notes program store) (known : program ∈ ran)
    (kept : ∀ other ∈ before.ran, other ∈ ran) :
    ∀ id entry, (store.closure id).resolved = some entry →
      ∃ program ∈ ran, program.lookup? (store.closure id).function.path
        (store.closure id).function.name = some entry := by
  intro id entry here
  rcases noted id entry here with ⟨older, same⟩ | found
  · rcases traced.notes id entry older with ⟨origin, member, found⟩
    exact ⟨origin, kept origin member, same ▸ found⟩
  · exact ⟨program, known, found⟩

theorem Traced.quiet {store : Store} (traced : before.Traced)
    (quiet : Store.NotesNoMore before.store store) :
    ∀ id entry, (store.closure id).resolved = some entry →
      ∃ program ∈ before.ran, program.lookup? (store.closure id).function.path
        (store.closure id).function.name = some entry := by
  intro id entry here
  rcases quiet id entry here with ⟨older, same⟩
  exact same ▸ traced.notes id entry older

theorem Traced.act (traced : before.Traced) (acts : Act before after) : after.Traced := by
  cases acts with
  | configure options => exact ⟨traced.notes, traced.hosts, traced.sequences⟩
  | loadUnit unit => exact ⟨traced.notes, traced.hosts, traced.sequences⟩
  | compile compiled =>
      refine ⟨traced.notes, ?_, traced.sequences⟩
      unfold Embedding.compile at compiled
      split at compiled <;> cases compiled
      exact traced.hosts
  | loadImage taken =>
      refine ⟨traced.notes, ?_, traced.sequences⟩
      unfold Embedding.loadImage at taken
      split at taken <;> cases taken
      exact traced.hosts
  | registerFunction function quiet =>
      exact ⟨traced.notes, traced.hosts.registerFunction quiet, traced.sequences⟩
  | registerType type quiet =>
      exact ⟨traced.notes, traced.hosts.registerType quiet, traced.sequences⟩
  | registerGlobal name value =>
      exact ⟨traced.quiet Registry.registerGlobal_quiet, traced.hosts.registerGlobal,
        traced.sequences⟩
  | setGlobal known =>
      exact ⟨traced.quiet (Registry.setGlobal_quiet known), traced.hosts, traced.sequences⟩
  | touch quiet => exact ⟨traced.quiet quiet, traced.hosts, traced.sequences⟩
  | @run program bound path name args run current ran =>
      rcases Embedding.notes_run traced.hosts current ran with ⟨noted, opened⟩
      refine ⟨traced.notesAfter noted List.mem_cons_self fun _ => List.mem_cons_of_mem _,
        traced.hosts, fun sequence member => ?_⟩
      simp only [afterRun] at member ⊢
      split at member
      · rename_i opening outcome
        rcases List.mem_cons.mp member with rfl | older
        · exact List.mem_cons.mpr (.inl (opened _ outcome))
        · exact List.mem_cons_of_mem _ (traced.sequences sequence older)
      · exact List.mem_cons_of_mem _ (traced.sequences sequence member)
  | @next first rest sequence bound waiting =>
      rcases sequence.notes_next traced.hosts bound before.store with ⟨noted, same⟩
      have known : sequence.engine.program ∈ before.ran :=
        traced.sequences sequence (by simp [waiting])
      refine ⟨traced.notesAfter noted known fun _ kept => kept, traced.hosts, fun other member => ?_⟩
      rcases List.mem_append.mp member with early | late
      · exact traced.sequences other (by simp [waiting, early])
      · rcases List.mem_cons.mp late with rfl | late
        · exact same ▸ known
        · exact traced.sequences other (by simp [waiting, late])

theorem Reached.traced {session : Session} (reached : session.Reached) : session.Traced := by
  induction reached with
  | fresh options => exact .fresh options
  | act _ acts ih => exact ih.act acts

end Session

/-- Whenever a program of a session calls a function, a call instruction goes where the program's
namespaces say, and a closure goes where those of some program of the session say: those of the
running one, if all that have the function agree with it. -/
theorem calls_resolve_as_noted {session : Session} (reached : session.Reached) {program : Program}
    (running : program ∈ session.ran) :
    (∀ notes place function argc, CallNotes.Kept program notes →
      program.instructions[place]? = some (.callFunction function argc) →
      (program.resolveNoted function argc (notes place)).1 = program.resolve function argc) ∧
    ∀ machine : Machine, machine.store = session.store → ∀ id argc,
      (∃ origin ∈ session.ran, ((Step.resolveClosure program id argc).run machine).1 =
        origin.resolve (machine.store.closure id).function argc) ∧
      ((∀ other ∈ session.ran, other.Agrees program (machine.store.closure id).function) →
        ((Step.resolveClosure program id argc).run machine).1 =
          program.resolve (machine.store.closure id).function argc) := by
  refine ⟨fun notes place function argc kept found => Program.resolveNoted_eq (kept.own found), ?_⟩
  rintro machine here id argc
  rw [run_resolveClosure_eq, here]
  cases noted : (session.store.closure id).resolved with
  | none => exact ⟨⟨program, running, rfl⟩, fun _ => rfl⟩
  | some entry =>
      rcases reached.traced.notes id entry noted with ⟨origin, member, found⟩
      refine ⟨⟨origin, member, ?_⟩, fun agree => ?_⟩
      · rw [Program.resolve_of_lookup? found, Program.resolveNoted]
      · rw [Program.resolve_of_lookup? (agree origin member entry found), Program.resolveNoted]

/-! ## A closure that outlives its program -/

namespace Session

/-- The session after the units have been compiled, if they can be. -/
def compiled (session : Session) : Session :=
  match session.embedding.compile with
  | .ok embedding => { session with embedding := embedding }
  | .error _ => session

/-- The session after a function without parameters has been run, if there is a program. -/
def called (session : Session) (name : String) : Session :=
  match session.embedding.program, session.embedding.run 100 session.store [] name [] with
  | some program, .ok run => session.afterRun program run
  | _, _ => session

/-- The session after a unit has been loaded. -/
def loaded (session : Session) (unit : ProgramUnit) : Session :=
  { session with embedding := session.embedding.loadUnit unit }

theorem Reached.compiled {session : Session} (reached : session.Reached) :
    session.compiled.Reached := by
  unfold Session.compiled
  split
  · rename_i embedding compiled
    exact .act reached (.compile compiled)
  · exact reached

theorem Reached.called {session : Session} (reached : session.Reached) (name : String) :
    (session.called name).Reached := by
  unfold Session.called
  split
  · rename_i program run current ran
    exact .act reached (.run current ran)
  · exact reached

theorem Reached.loaded {session : Session} (reached : session.Reached) (unit : ProgramUnit) :
    (session.loaded unit).Reached := .act reached (.loadUnit unit)

end Session

namespace Outlived

/-- One function makes an action, keeps it in a global and calls it, another one only calls it. -/
def first : ProgramUnit where
  name := "first"
  path := []
  functions := [
    ⟨"make", [], [
      .assign "keep" (.action [] [.returnValue (some (.literal (.int 1)))]),
      .returnValue (some (.call [] "keep" []))], .nowhere⟩,
    ⟨"call", [], [.returnValue (some (.call [] "keep" []))], .nowhere⟩]

/-- A unit that is loaded later. -/
def second : ProgramUnit where
  name := "second"
  path := []
  functions := [⟨"other", ["x"], [.returnValue (some (.literal (.int 2)))], .nowhere⟩]

/-- A session in which nothing but the global is registered. -/
def start : Session :=
  let (registry, store) := Registry.empty.registerGlobal .empty "keep" .unit
  ⟨{ Embedding.ofOptions ⟨100, false⟩ with registry := registry }, store, [], []⟩

/-- The action is made and called, and is called again after the other unit has been loaded. -/
def session : Session :=
  ((((start.loaded first).compiled.called "make").loaded second).compiled.called "call")

theorem reached : session.Reached :=
  have registered : start.Reached := .act (.fresh ⟨100, false⟩) (.registerGlobal "keep" .unit)
  ((((registered.loaded first).compiled.called "make").loaded second).compiled.called "call")

/-- Whether a call of the only closure goes elsewhere than the last program's namespaces say. -/
def astray (session : Session) : Bool :=
  match session.ran with
  | [] => false
  | program :: _ =>
      let closure := session.store.closure ⟨0⟩
      (program.resolveNoted closure.function 1 closure.resolved).1.toOption ≠
        (program.resolve closure.function 1).toOption

theorem exists_program {session : Session} (differs : astray session = true) :
    ∃ program ∈ session.ran, ∀ machine : Machine, machine.store = session.store →
      ((Step.resolveClosure program ⟨0⟩ 1).run machine).1 ≠
        program.resolve (machine.store.closure ⟨0⟩).function 1 := by
  cases ran : session.ran with
  | nil =>
      rw [astray, ran] at differs
      cases differs
  | cons program rest =>
      rw [astray, ran] at differs
      refine ⟨program, List.mem_cons_self, fun machine here same => ?_⟩
      rw [run_resolveClosure_eq, here] at same
      simp [same] at differs

theorem astray_session : astray session = true := by decide +kernel

end Outlived

theorem calls_resolve_as_noted_outlived :
    ∃ program ∈ Outlived.session.ran, ∀ machine : Machine,
      machine.store = Outlived.session.store → ∀ id argc,
        ∃ origin ∈ Outlived.session.ran,
          ((Step.resolveClosure program id argc).run machine).1 =
            origin.resolve (machine.store.closure id).function argc := by
  rcases Outlived.exists_program Outlived.astray_session with ⟨program, running, _⟩
  exact ⟨program, running, fun machine here id argc =>
    ((calls_resolve_as_noted Outlived.reached running).2 machine here id argc).1⟩

/-- The closure is called at the place where the first program had its function, and there the
second program has another one. -/
theorem outlived_call_goes_astray :
    ∃ session : Session, session.Reached ∧ ∃ program ∈ session.ran,
      ∀ machine : Machine, machine.store = session.store →
        ((Step.resolveClosure program ⟨0⟩ 1).run machine).1 ≠
          program.resolve (machine.store.closure ⟨0⟩).function 1 :=
  ⟨Outlived.session, Outlived.reached, Outlived.exists_program Outlived.astray_session⟩

end ScriptMachine
