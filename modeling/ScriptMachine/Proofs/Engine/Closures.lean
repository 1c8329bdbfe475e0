import ScriptMachine.Proofs.Engine.Disciplines

/-!
# Closures made by a program

A run is about one program, and the closures it meets are taken to come from that program: each was
made by one of its `makeClosure` instructions, and the entry that a called closure keeps is the
program's own. A store is sound for a program if this holds of all its closures and every closure
value in it refers to one of them. Every effect keeps a store sound, provided that the host's
callables do.
-/

namespace ScriptMachine

/-- A closure that one of a program's instructions made. -/
structure Closure.MadeBy (program : Program) (closure : Closure) : Prop where
  literal : .makeClosure closure.function ∈ program.instructions
  entry : ∀ entry, closure.resolved = some entry →
    program.lookup? closure.function.path closure.function.name = some entry

/-- A value that is a closure of the store, if it is a closure at all. -/
def Value.Known (store : Store) : Value → Prop
  | .closure id => id.index < store.closures.size
  | _ => True

/-- A source whose elements are known. Those of an array are looked up when they are reached. -/
def IteratorSource.Known (store : Store) : IteratorSource → Prop
  | .items rest _ => ∀ value ∈ rest, value.Known store
  | _ => True

/-- An iterator that stands at and will give known values. -/
def IteratorState.Known (store : Store) (state : IteratorState) : Prop :=
  state.current.Known store ∧ state.source.Known store

/-- A store whose closures were all made by a program. -/
structure Store.Sound (program : Program) (store : Store) : Prop where
  closures : ∀ id : ClosureId, id.index < store.closures.size →
    (store.closure id).MadeBy program
  arrays : ∀ id, ∀ value ∈ store.array id, value.Known store
  iterators : ∀ id, (store.iterator id).Known store
  objects : ∀ id, ∀ field ∈ (store.object id).fields, field.2.Known store
  cells : ∀ id, (store.cell id).Known store

/-- A sound store that follows another one: no closure is lost. -/
structure Store.Follows (program : Program) (before after : Store) : Prop where
  sound : after.Sound program
  grows : before.closures.size ≤ after.closures.size

/-- A host body that lets no closure of another program in. -/
def HostBody.Keeps (program : Program) (body : HostBody) : Prop :=
  ∀ call store, store.Sound program → (∀ value ∈ call.args, value.Known store) →
    store.Follows program (body call store).2 ∧
      ∀ value, (body call store).1 = .ok value → value.Known (body call store).2

/-- A host whose callables and static fields bring in no closure of another program. -/
structure Registry.Sound (program : Program) (registry : Registry) (store : Store) : Prop where
  callables : ∀ function, registry.Offers function → HostBody.Keeps program function.body
  statics : ∀ entry ∈ registry.types, ∀ field ∈ entry.2.staticFields, field.2.Known store

section Monotone

variable {program : Program} {before after later : Store}

theorem Value.Known.mono {value : Value} (known : value.Known before)
    (grows : before.closures.size ≤ after.closures.size) : value.Known after := by
  cases value with
  | closure id => exact Nat.lt_of_lt_of_le known grows
  | _ => exact known

theorem IteratorSource.Known.mono {source : IteratorSource} (known : source.Known before)
    (grows : before.closures.size ≤ after.closures.size) : source.Known after := by
  cases source with
  | items rest failure => exact fun value present => (known value present).mono grows
  | _ => exact known

theorem Registry.Sound.mono {registry : Registry} (sound : registry.Sound program before)
    (grows : before.closures.size ≤ after.closures.size) : registry.Sound program after where
  callables := sound.callables
  statics entry entryMem field fieldMem := (sound.statics entry entryMem field fieldMem).mono grows

theorem Store.Follows.refl (sound : before.Sound program) : before.Follows program before :=
  ⟨sound, Nat.le_refl _⟩

theorem Store.Follows.trans (first : before.Follows program after)
    (second : after.Follows program later) : before.Follows program later :=
  ⟨second.sound, Nat.le_trans first.grows second.grows⟩

end Monotone

/-! ## Changes of the store -/

namespace Store

variable {program : Program} {store : Store}

theorem follows_setElement {id : ArrayId} {place : Nat} {value : Value}
    (sound : store.Sound program) (known : value.Known store) :
    store.Follows program (store.setElement id place value) := by
  refine ⟨⟨sound.closures, ?_, sound.iterators, sound.objects, sound.cells⟩, Nat.le_refl _⟩
  intro other item itemMem
  rw [array_setElement] at itemMem
  split at itemMem
  · rcases Array.mem_or_eq_of_mem_setIfInBounds itemMem with old | new
    · exact sound.arrays other item old
    · rw [new]
      exact known
  · exact sound.arrays other item itemMem

theorem follows_allocArray {items : Array Value} (sound : store.Sound program)
    (known : ∀ value ∈ items, value.Known store) :
    store.Follows program (store.allocArray items).2 := by
  refine ⟨⟨sound.closures, ?_, sound.iterators, sound.objects, sound.cells⟩, Nat.le_refl _⟩
  intro id item itemMem
  rw [array_allocArray] at itemMem
  split at itemMem
  · exact known item itemMem
  · exact sound.arrays id item itemMem

theorem follows_setField {id : ObjectId} {name : String} {value : Value}
    (sound : store.Sound program) (known : value.Known store) :
    store.Follows program (store.setField id name value) := by
  refine ⟨⟨sound.closures, sound.arrays, sound.iterators, ?_, sound.cells⟩, Nat.le_refl _⟩
  intro other field fieldMem
  rw [object_setField] at fieldMem
  split at fieldMem
  · rcases Dictionary.mem_insert fieldMem with new | old
    · rw [new]
      exact known
    · exact sound.objects other field old
  · exact sound.objects other field fieldMem

theorem follows_setCell {id : CellId} {value : Value} (sound : store.Sound program)
    (known : value.Known store) : store.Follows program (store.setCell id value) := by
  refine ⟨⟨sound.closures, sound.arrays, sound.iterators, sound.objects, ?_⟩, Nat.le_refl _⟩
  intro other
  rw [cell_setCell]
  split
  · exact known
  · exact sound.cells other

theorem follows_allocIterator {source : IteratorSource} (sound : store.Sound program)
    (known : source.Known store) :
    store.Follows program (store.allocIterator source).2 := by
  refine ⟨⟨sound.closures, sound.arrays, ?_, sound.objects, sound.cells⟩, Nat.le_refl _⟩
  intro id
  rw [iterator_allocIterator]
  split
  · exact ⟨trivial, known⟩
  · exact sound.iterators id

theorem follows_setIterator {id : IteratorId} {state : IteratorState}
    (sound : store.Sound program) (known : state.Known store) :
    store.Follows program (store.setIterator id state) := by
  refine ⟨⟨sound.closures, sound.arrays, ?_, sound.objects, sound.cells⟩, Nat.le_refl _⟩
  intro other
  rw [iterator_setIterator]
  split
  · exact known
  · exact sound.iterators other

/-- Values stay known when closures are added. -/
theorem Sound.grow {after : Store} (sound : store.Sound program)
    (grows : store.closures.size ≤ after.closures.size)
    (closures : ∀ id : ClosureId, id.index < after.closures.size →
      (after.closure id).MadeBy program)
    (arrays : after.arrays = store.arrays) (iterators : after.iterators = store.iterators)
    (objects : after.objects = store.objects) (cells : after.cells = store.cells) :
    after.Sound program where
  closures := closures
  arrays id value valueMem := by
    rw [array, arrays] at valueMem
    exact (sound.arrays id value valueMem).mono grows
  iterators id := by
    rw [iterator, iterators]
    exact ⟨(sound.iterators id).1.mono grows, (sound.iterators id).2.mono grows⟩
  objects id field fieldMem := by
    rw [object, objects] at fieldMem
    exact (sound.objects id field fieldMem).mono grows
  cells id := by
    rw [cell, cells]
    exact (sound.cells id).mono grows

theorem follows_allocClosure {function : FunctionRef} {captures : ArrayId}
    (sound : store.Sound program) (literal : .makeClosure function ∈ program.instructions) :
    store.Follows program (store.allocClosure ⟨function, captures, none⟩).2 := by
  have grows : store.closures.size ≤
      (store.allocClosure ⟨function, captures, none⟩).2.closures.size := by
    simp
  refine ⟨sound.grow grows ?_ rfl rfl rfl rfl, grows⟩
  intro id inside
  rw [closure_allocClosure]
  split
  · exact ⟨literal, nofun⟩
  · rename_i old
    rw [size_closures_allocClosure] at inside
    exact sound.closures id (by omega)

theorem follows_resolveClosure {id : ClosureId} {entry : FunctionEntry}
    (sound : store.Sound program)
    (found : program.lookup? (store.closure id).function.path (store.closure id).function.name =
      some entry) :
    store.Follows program (store.resolveClosure id entry) := by
  refine ⟨sound.grow (by simp) ?_ rfl rfl rfl rfl, by simp⟩
  intro other inside
  rw [size_closures_resolveClosure] at inside
  have made := sound.closures other inside
  rw [closure_resolveClosure]
  split
  · rename_i same
    obtain rfl : other = id := ClosureId.ext same.1
    exact ⟨made.literal, fun kept same => Option.some.inj same ▸ found⟩
  · exact made

end Store

/-! ## Soundness as a discipline -/

namespace Surroundings

variable {surroundings : Surroundings} {store : Store}

/-- Stores that are sound, with known values. -/
def soundness (surroundings : Surroundings) : Discipline where
  obeys store := store.Sound surroundings.program ∧
    surroundings.registry.Sound surroundings.program store
  allows store value := value.Known store
  follows := Store.Follows surroundings.program

theorem soundness_gives {source : IteratorSource} :
    surroundings.soundness.Gives store source ↔ source.Known store := by
  cases source with
  | items rest failure => exact .rfl
  | elements array next => exact .rfl
  | range next stop step => exact .rfl

theorem soundness_lawful (surroundings : Surroundings) :
    surroundings.soundness.Lawful surroundings where
  refl obeys := .refl obeys.1
  trans first second := first.trans second
  kept obeys follows := ⟨follows.sound, obeys.2.mono follows.grows⟩
  mono follows known := Value.Known.mono known follows.grows
  plain {store value} isPlain := by
    cases value with
    | closure id => cases isPlain
    | _ => trivial
  element obeys present := obeys.1.arrays _ _ present
  field obeys present := obeys.1.objects _ _ present
  current obeys := (obeys.1.iterators _).1
  source obeys := soundness_gives.mpr (obeys.1.iterators _).2
  static obeys present own := obeys.2.statics _ present _ own
  host call obeys offered known := obeys.2.callables _ offered call _ obeys.1 known
  setElement _ obeys _ known := Store.follows_setElement obeys.1 known
  setField _ _ obeys known := Store.follows_setField obeys.1 known
  setCell _ obeys known := Store.follows_setCell obeys.1 known
  setIterator _ obeys known gives :=
    Store.follows_setIterator obeys.1 ⟨known, soundness_gives.mp gives⟩
  entry obeys found := Store.follows_resolveClosure obeys.1 found
  newArray obeys known := ⟨Store.follows_allocArray obeys.1 known, trivial⟩
  newIterator obeys gives :=
    ⟨Store.follows_allocIterator obeys.1 (soundness_gives.mp gives), trivial⟩

/-- A new closure of a literal of the program keeps a store sound. -/
theorem soundness_makeClosure {function : FunctionRef} {captures : ArrayId}
    (sound : store.Sound surroundings.program)
    (literal : .makeClosure function ∈ surroundings.program.instructions) :
    surroundings.soundness.Keeps store
      (.ok (.closure (store.allocClosure ⟨function, captures, none⟩).1),
        (store.allocClosure ⟨function, captures, none⟩).2) := by
  refine ⟨Store.follows_allocClosure sound literal, ?_⟩
  intro value same
  rw [← Except.ok.inj same]
  simp [soundness, Value.Known, Store.allocClosure]

end Surroundings

namespace Effect

variable {program : Program} {store : Store}

/-- A known closure is found where the program has its function. -/
theorem resolveClosure_known {id : ClosureId} {argc : Nat} (sound : store.Sound program)
    (known : (Value.closure id).Known store) :
    store.Follows program (resolveClosure program id argc store).2 ∧
      ((program.lookup? (store.closure id).function.path (store.closure id).function.name).isSome →
        ∃ entry, program.lookup? (store.closure id).function.path
            (store.closure id).function.name = some entry ∧
          (resolveClosure program id argc store).1 =
            Step.checkArity (store.closure id).function argc entry) := by
  have made := sound.closures id known
  cases kept : (store.closure id).resolved with
  | some entry =>
      simp only [resolveClosure, kept]
      exact ⟨.refl sound, fun _ => ⟨entry, made.entry entry kept, rfl⟩⟩
  | none =>
      cases found : program.lookup? (store.closure id).function.path
        (store.closure id).function.name with
      | none =>
          simp only [resolveClosure, kept, found]
          exact ⟨.refl sound, fun linked => absurd linked Bool.false_ne_true⟩
      | some entry =>
          simp only [resolveClosure, kept, found]
          exact ⟨Store.follows_resolveClosure sound found, fun _ => ⟨entry, rfl, rfl⟩⟩

end Effect

end ScriptMachine
