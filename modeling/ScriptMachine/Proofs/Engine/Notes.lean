import ScriptMachine.Proofs.Engine.Anatomy
import ScriptMachine.Proofs.Engine.Closures

/-!
# What closures note

A closure that is called for the first time notes the entry of its function, and every later call
goes by that note. This file follows the notes through a run. An instruction leaves every note as it
is, except that one closure may come to note what the running program says about its function; so
after a run each note is an older one or the program's.

Host bodies are taken not to note anything: they may make closures, but have no way to call one.
-/

namespace ScriptMachine

/-- Each note of a store is one that was there before, of the same function, or is a program's. -/
def Store.Notes (program : Program) (before after : Store) : Prop :=
  ∀ id entry, (after.closure id).resolved = some entry →
    ((before.closure id).resolved = some entry ∧
        (before.closure id).function = (after.closure id).function) ∨
      program.lookup? (after.closure id).function.path (after.closure id).function.name =
        some entry

/-- Each note of a store is one that was there before, of the same function. -/
def Store.NotesNoMore (before after : Store) : Prop :=
  ∀ id entry, (after.closure id).resolved = some entry →
    (before.closure id).resolved = some entry ∧
      (before.closure id).function = (after.closure id).function

/-- A host body that notes nothing. -/
def HostBody.NotesNothing (body : HostBody) : Prop :=
  ∀ call store, Store.NotesNoMore store (body call store).2

/-- A host none of whose callables notes anything. -/
def Registry.NotesNothing (registry : Registry) : Prop :=
  ∀ function, registry.Offers function → HostBody.NotesNothing function.body

namespace Store

variable {program : Program} {before middle after : Store}

theorem NotesNoMore.ofClosures (same : after.closures = before.closures) :
    NotesNoMore before after := by
  intro id entry noted
  rw [closure, same] at noted
  rw [closure, closure, same]
  exact ⟨noted, rfl⟩

theorem NotesNoMore.refl : NotesNoMore before before := .ofClosures rfl

theorem NotesNoMore.notes (nothing : NotesNoMore before after) : before.Notes program after :=
  fun id entry noted => .inl (nothing id entry noted)

theorem Notes.refl : before.Notes program before := NotesNoMore.refl.notes

theorem Notes.trans (first : before.Notes program middle) (second : middle.Notes program after) :
    before.Notes program after := by
  intro id entry noted
  rcases second id entry noted with ⟨noted, function⟩ | found
  · rcases first id entry noted with ⟨noted, older⟩ | found
    · exact .inl ⟨noted, older.trans function⟩
    · exact .inr (function ▸ found)
  · exact .inr found

theorem notesNoMore_allocClosure {function : FunctionRef} {captures : ArrayId} :
    NotesNoMore before (before.allocClosure ⟨function, captures, none⟩).2 := by
  intro id entry noted
  rw [closure_allocClosure] at noted ⊢
  split at noted
  · cases noted
  · rename_i old
    rw [if_neg old]
    exact ⟨noted, rfl⟩

theorem notes_resolveClosure {id : ClosureId} {entry : FunctionEntry}
    (found : program.lookup? (before.closure id).function.path (before.closure id).function.name =
      some entry) :
    before.Notes program (before.resolveClosure id entry) := by
  intro other noted here
  rw [closure_resolveClosure] at here ⊢
  split at here
  · rename_i same
    have sameId : other = id := by
      cases other
      cases id
      exact congrArg _ same.1
    subst other
    rw [if_pos same]
    exact .inr (Option.some.inj here ▸ found)
  · rename_i different
    rw [if_neg different]
    exact .inl ⟨here, rfl⟩

theorem notesNoMore_advance {id : IteratorId} : NotesNoMore before (before.advance id).2 := by
  apply NotesNoMore.ofClosures
  simp only [advance]
  split <;> rfl

end Store

/-! ## Effects -/

/-- An effect that notes nothing. -/
def Effect.NotesNothing {α : Type} (effect : Effect α) : Prop :=
  ∀ store : Store, Store.NotesNoMore store (effect store).2

namespace Effect.NotesNothing

variable {α : Type} {registry : Registry} {name : String} {candidates : List HostFunction}
  {args : List Value}

theorem ofClosures {effect : Effect α}
    (same : ∀ store : Store, (effect store).2.closures = store.closures) : effect.NotesNothing :=
  fun store => .ofClosures (same store)

theorem invoke {choose : Store → Except RuntimeFault Resolved}
    (quiet : ∀ store resolved, choose store = .ok resolved →
      HostBody.NotesNothing resolved.function.body) : (Effect.invoke choose).NotesNothing := by
  intro store
  unfold Effect.invoke
  split
  · rename_i resolved chosen
    exact quiet store resolved chosen resolved.call store
  · exact .refl

theorem callHost (quiet : registry.NotesNothing)
    (offered : ∀ function ∈ candidates, registry.Offers function) :
    (Effect.callHost registry name candidates args).NotesNothing :=
  invoke fun _ _ chosen => quiet _ (offered _ (resolveOverload_mem chosen))

theorem callHostOne {function : HostFunction} (quiet : registry.NotesNothing)
    (offered : registry.Offers function) :
    (Effect.callHost registry name [function] args).NotesNothing :=
  callHost quiet fun _ present => List.mem_singleton.mp present ▸ offered

theorem callNamed {binding : Option HostFunctionRef} (quiet : registry.NotesNothing) :
    (Effect.callNamed registry name binding args).NotesNothing := by
  unfold Effect.callNamed
  split
  · rename_i function found
    rcases Option.bind_eq_some_iff.mp found with ⟨reference, _, sole⟩
    exact callHostOne quiet (offers_soleFunction sole)
  · refine invoke fun store resolved chosen => ?_
    unfold Registry.resolveFunction at chosen
    split at chosen
    · cases chosen
    · exact quiet _ (offers_overloads (resolveOverload_mem chosen))

theorem callStatic {typeName : String} (quiet : registry.NotesNothing) :
    (Effect.callStatic registry typeName name args).NotesNothing := by
  intro store
  unfold Effect.callStatic
  split
  · exact .refl
  · rename_i type accessible
    split
    · exact .refl
    · refine callHost quiet (fun function present => ?_) store
      exact offers_of_type (accessibleType_ok accessible) (offers_staticOverloads present)

theorem loadStatic {typeName : String} :
    (Effect.loadStatic registry typeName name).NotesNothing := by
  refine ofClosures fun store => ?_
  unfold Effect.loadStatic
  split
  · rfl
  · split <;> rfl

theorem callHostMember (quiet : registry.NotesNothing)
    (offered : ∀ function ∈ candidates, registry.Offers function) :
    (Effect.callHostMember registry name candidates args).NotesNothing := by
  intro store
  have host := @callHost registry name candidates args quiet offered store
  unfold Effect.callHostMember
  split
  all_goals
    rename_i called
    rw [called] at host
    exact host

theorem callMember {receiver : Value} (quiet : registry.NotesNothing) :
    (Effect.callMember registry receiver name args).NotesNothing := by
  intro store
  unfold Effect.callMember
  split
  · dsimp only
    split
    · exact .refl
    · split
      · split <;> exact .refl
      · exact callHostMember quiet (fun function present => offers_methods present) store
  · split
    · exact .refl
    · exact callHostMember quiet (fun function present => offers_overloads present) store

theorem loadField {target : Value} : (Effect.loadField registry target name).NotesNothing := by
  refine ofClosures fun store => ?_
  cases target with
  | object id =>
      simp only [Effect.loadField]
      split
      · rfl
      · split <;> rfl
  | array id =>
      simp only [Effect.loadField]
      split <;> rfl
  | str text =>
      simp only [Effect.loadField]
      split <;> rfl
  | _ => rfl

theorem storeField {target value : Value} :
    (Effect.storeField registry target name value).NotesNothing := by
  refine ofClosures fun store => ?_
  cases target with
  | object id =>
      simp only [Effect.storeField]
      split
      · rfl
      · split <;> rfl
  | _ => rfl

theorem loadIndex {target index : Value} (quiet : registry.NotesNothing) :
    (Effect.loadIndex registry target index).NotesNothing := by
  intro store
  unfold Effect.loadIndex
  split
  · split <;> exact .refl
  · split <;> exact .refl
  · dsimp only
    split
    · exact .refl
    · rename_i getter found
      exact callHostOne quiet (offers_indexerGet found) store
  · exact .refl

theorem storeIndex {target index value : Value} (quiet : registry.NotesNothing) :
    (Effect.storeIndex registry target index value).NotesNothing := by
  intro store
  unfold Effect.storeIndex
  split
  · split
    · exact .ofClosures rfl
    · exact .refl
  · dsimp only
    split
    · exact .refl
    · rename_i id _ setter found
      have host := @callHostOne registry ((store.object id).typeName ++ "[]=")
        [.object id, index, value] setter quiet (offers_indexerSet found) store
      split
      all_goals
        rename_i called
        rw [called] at host
        exact host
  · exact .refl

theorem binary {operator : BinaryOp} {left right : Value} (quiet : registry.NotesNothing) :
    (Effect.binary registry operator left right).NotesNothing := by
  intro store
  unfold Effect.binary
  split
  · split <;> exact .refl
  · exact callHost quiet (fun function present => offers_operators present) store

theorem unary {operator : UnaryOp} {operand : Value} :
    (Effect.unary operator operand).NotesNothing := by
  refine ofClosures fun store => ?_
  unfold Effect.unary
  split <;> rfl

theorem storeGlobal {global : Option String} {value : Value} :
    (Effect.storeGlobal registry global value).NotesNothing := by
  refine ofClosures fun store => ?_
  cases global with
  | none => rfl
  | some global =>
      simp only [Effect.storeGlobal, Registry.setGlobal?]
      cases registry.globals.find? global <;> rfl

theorem toIterator {value : Value} : NotesNothing value.toIterator := by
  refine ofClosures fun store => ?_
  unfold Value.toIterator
  split <;> rfl

end Effect.NotesNothing

/-- No effect of a program notes anything but the program's entries. -/
theorem Effect.Used.notes {α : Type} {effect : Effect α} {surroundings : Surroundings}
    (quiet : surroundings.registry.NotesNothing) (used : effect.Used surroundings) (store : Store) :
    store.Notes surroundings.program (effect store).2 := by
  cases used with
  | typeName => exact .refl
  | captures => exact .refl
  | current => exact .refl
  | global => exact .refl
  | storeGlobal => exact (NotesNothing.storeGlobal store).notes
  | binary => exact (NotesNothing.binary quiet store).notes
  | unary => exact (NotesNothing.unary store).notes
  | callNamed => exact (NotesNothing.callNamed quiet store).notes
  | callStatic => exact (NotesNothing.callStatic quiet store).notes
  | loadStatic => exact (NotesNothing.loadStatic store).notes
  | callMember => exact (NotesNothing.callMember quiet store).notes
  | resolveClosure id argc =>
      unfold Effect.resolveClosure
      dsimp only
      split
      · exact .refl
      · split
        · exact .refl
        · rename_i found
          exact Store.notes_resolveClosure found
  | makeClosure => exact Store.notesNoMore_allocClosure.notes
  | loadField => exact (NotesNothing.loadField store).notes
  | storeField => exact (NotesNothing.storeField store).notes
  | loadIndex => exact (NotesNothing.loadIndex quiet store).notes
  | storeIndex => exact (NotesNothing.storeIndex quiet store).notes
  | makeArray => exact (Store.NotesNoMore.ofClosures rfl).notes
  | toIterator => exact (NotesNothing.toIterator store).notes
  | moveNext => exact Store.notesNoMore_advance.notes

/-! ## Steps -/

/-- A step of a run of a program that adds no notes but the program's. -/
def Step.Notes {α : Type} (program : Program) (action : Step α) : Prop :=
  ∀ machine : Machine, machine.store.Notes program (action.run machine).2.store

namespace Step.Notes

variable {α β : Type} {program : Program} {registry : Registry}

theorem bind {first : Step α} {next : α → Step β} (one : Step.Notes program first)
    (two : ∀ value, Step.Notes program (next value)) : Step.Notes program (first >>= next) := by
  intro machine
  have start := one machine
  rw [run_bind]
  generalize first.run machine = result at start
  rcases result with ⟨_ | value, later⟩
  · exact start
  · exact start.trans (two value later)

theorem rules (quiet : registry.NotesNothing) :
    Rules ⟨program, registry⟩ (Step.Notes program) := by
  refine Blind.rules (fun blind machine => ?_) bind fun used machine =>
    used.notes quiet machine.store
  rw [blind.keeps]
  exact .refl

end Step.Notes

/-! ## Turns -/

namespace Engine

variable {program : Program} {registry : Registry}

theorem notes_execute (quiet : registry.NotesNothing) (traced : Option String) (bound : Nat)
    (machine : Machine) (trace : List String) :
    machine.store.Notes program
      (execute ⟨program, registry⟩ traced bound machine trace).2.1.store := by
  induction bound generalizing machine trace with
  | zero => exact .refl
  | succ bound ih =>
      rw [execute]
      dsimp only
      split
      · exact .refl
      · rename_i instruction _
        have noted := (@Step.Notes.rules program registry quiet).step instruction
          { machine with ip := machine.ip + 1 }
        split
        all_goals
          rename_i stepped
          rw [stepped] at noted
        · exact noted.trans (ih _ _)
        all_goals exact noted

theorem notes_run {engine : Engine} (quiet : registry.NotesNothing) (bound : Nat) (store : Store)
    (before : List TelemetryEvent) :
    store.Notes engine.program (engine.run bound registry store before).store ∧
      (engine.run bound registry store before).engine.program = engine.program := by
  have noted := @notes_execute engine.program registry quiet
    (if engine.options.trace then some engine.entry else none) bound (engine.machine store) []
  unfold run
  dsimp only
  split <;> exact ⟨noted, rfl⟩

theorem notes_start {engine : Engine} (quiet : registry.NotesNothing) (bound : Nat) (store : Store)
    (path : List String) (name : String) (args : List Value) :
    store.Notes engine.program (engine.start bound registry store path name args).store ∧
      (engine.start bound registry store path name args).engine.program = engine.program := by
  unfold start
  split
  · exact ⟨.refl, rfl⟩
  · dsimp only
    have entered := (@Step.Notes.rules engine.program registry quiet).enter
      (qualifiedName path name) path name args
      ({ engine with entry := qualifiedName path name }.machine store)
    split
    all_goals
      rename_i machine entering
      rw [entering] at entered
    · exact ⟨entered, rfl⟩
    · rcases notes_run quiet bound machine.store _ with ⟨noted, same⟩
      exact ⟨entered.trans noted, same⟩

theorem notes_resume {engine : Engine} (quiet : registry.NotesNothing) (bound : Nat)
    (store : Store) :
    store.Notes engine.program (engine.resume bound registry store).store ∧
      (engine.resume bound registry store).engine.program = engine.program := by
  unfold resume
  split
  · exact ⟨.refl, rfl⟩
  · exact notes_run quiet bound store _

end Engine

end ScriptMachine
