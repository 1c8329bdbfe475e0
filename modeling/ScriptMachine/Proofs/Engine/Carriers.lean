import ScriptMachine.Proofs.Engine.Disciplines

/-!
# The arrays in which closures keep values

A closure keeps the values of its captured variables in an array, and that array is like any other:
a value could refer to it from anywhere. A store is guarded if nothing does, except the closure
itself. Every effect keeps a store guarded as long as the values that it passes on are apart from
these arrays, and it leaves what is in the arrays as it is.

Two effects are different. A write to such an array changes what one closure keeps and no other
closure. And a closure that is made takes a new array for itself, which nothing else refers to.
-/

namespace ScriptMachine

namespace Store

def HasClosure (store : Store) (id : ClosureId) : Prop := id.index < store.closures.size

/-- The array in which a closure keeps its values. -/
def carrier (store : Store) (id : ClosureId) : ArrayId := (store.closure id).captures

def IsCarrier (store : Store) (array : ArrayId) : Prop :=
  ∃ id, store.HasClosure id ∧ store.carrier id = array

end Store

/-- A value that, if it is an array, is one of the store in which no closure keeps its values. -/
def Value.Apart (store : Store) : Value → Prop
  | .array id => id.index < store.arrays.size ∧ ¬store.IsCarrier id
  | _ => True

/-- A source that gives values from apart and, if they come from an array, from one that is. -/
def IteratorSource.Apart (store : Store) : IteratorSource → Prop
  | .items rest _ => ∀ value ∈ rest, value.Apart store
  | .elements array _ => (Value.array array).Apart store
  | .range _ _ _ => True

def IteratorState.Apart (store : Store) (state : IteratorState) : Prop :=
  state.current.Apart store ∧ state.source.Apart store

/-- A store whose closures have an array each, to which nothing in the store refers but its
closure. -/
structure Store.Guarded (store : Store) : Prop where
  inside : ∀ id, store.HasClosure id → (store.carrier id).index < store.arrays.size
  distinct : ∀ id other, store.HasClosure id → store.HasClosure other →
    store.carrier id = store.carrier other → id = other
  arrays : ∀ id, ∀ value ∈ store.array id, value.Apart store
  iterators : ∀ id, (store.iterator id).Apart store
  objects : ∀ id, ∀ field ∈ (store.object id).fields, field.2.Apart store
  cells : ∀ id, (store.cell id).Apart store

/-- A store with the same closures and perhaps others, whose arrays are new. -/
structure Store.Extends (before after : Store) : Prop where
  arrays : before.arrays.size ≤ after.arrays.size
  closures : before.closures.size ≤ after.closures.size
  carrier : ∀ id, before.HasClosure id → after.carrier id = before.carrier id
  fresh : ∀ id, after.HasClosure id → ¬before.HasClosure id →
    before.arrays.size ≤ (after.carrier id).index

/-- A later store in which every closure keeps what it kept. -/
structure Store.Spares (before after : Store) : Prop extends before.Extends after where
  kept : ∀ id, before.HasClosure id →
    after.array (before.carrier id) = before.array (before.carrier id)

/-- A host body that reaches into no closure's array: it leaves what is in these arrays alone, puts
no reference to one anywhere and returns none. -/
def HostBody.Discreet (body : HostBody) : Prop :=
  ∀ call store, store.Guarded → (∀ value ∈ call.args, value.Apart store) →
    (store.Spares (body call store).2 ∧ (body call store).2.Guarded) ∧
      ∀ value, (body call store).1 = .ok value → value.Apart (body call store).2

/-- A host that reaches into no closure's array. -/
structure Registry.Discreet (registry : Registry) (store : Store) : Prop where
  callables : ∀ function, registry.Offers function → HostBody.Discreet function.body
  statics : ∀ entry ∈ registry.types, ∀ field ∈ entry.2.staticFields, field.2.Apart store

/-! ## Later stores -/

section Monotone

variable {before middle after : Store} {value : Value}

namespace Store

theorem HasClosure.mono {id : ClosureId} (has : before.HasClosure id)
    (extension : before.Extends after) : after.HasClosure id :=
  Nat.lt_of_lt_of_le has extension.closures

theorem Extends.refl : before.Extends before where
  arrays := Nat.le_refl _
  closures := Nat.le_refl _
  carrier _ _ := rfl
  fresh _ has lacks := absurd has lacks

theorem Extends.trans (first : before.Extends middle) (second : middle.Extends after) :
    before.Extends after where
  arrays := Nat.le_trans first.arrays second.arrays
  closures := Nat.le_trans first.closures second.closures
  carrier id has := (second.carrier id (has.mono first)).trans (first.carrier id has)
  fresh id has lacks := by
    rcases Nat.lt_or_ge id.index middle.closures.size with between | late
    · rw [second.carrier id between]
      exact first.fresh id between lacks
    · exact Nat.le_trans first.arrays (second.fresh id has (Nat.not_lt.mpr late))

theorem Spares.refl : before.Spares before := ⟨.refl, fun _ _ => rfl⟩

theorem Spares.trans (first : before.Spares middle) (second : middle.Spares after) :
    before.Spares after := by
  refine ⟨first.toExtends.trans second.toExtends, ?_⟩
  intro id has
  have keeps := second.kept id (has.mono first.toExtends)
  rw [first.carrier id has] at keeps
  exact keeps.trans (first.kept id has)

end Store

theorem Value.Apart.mono (apart : value.Apart before) (extension : before.Extends after) :
    value.Apart after := by
  cases value with
  | array id =>
      refine ⟨Nat.lt_of_lt_of_le apart.1 extension.arrays, ?_⟩
      rintro ⟨closure, has, rfl⟩
      rcases Nat.lt_or_ge closure.index before.closures.size with old | new
      · exact apart.2 ⟨closure, old, (extension.carrier closure old).symm⟩
      · exact absurd apart.1 (Nat.not_lt.mpr (extension.fresh closure has (Nat.not_lt.mpr new)))
  | _ => trivial

theorem Value.apart_of_isPlain (plain : value.IsPlain) : value.Apart before := by
  cases value with
  | array id => cases plain
  | _ => trivial

theorem Value.apart_closure {id : ClosureId} : (Value.closure id).Apart before := trivial

theorem IteratorSource.Apart.mono {source : IteratorSource} (apart : source.Apart before)
    (extension : before.Extends after) : source.Apart after := by
  cases source with
  | items rest failure => exact fun value present => (apart value present).mono extension
  | elements array next => exact @Value.Apart.mono _ _ (.array array) apart extension
  | range next stop step => trivial

theorem IteratorState.Apart.mono {state : IteratorState} (apart : state.Apart before)
    (extension : before.Extends after) : state.Apart after :=
  ⟨apart.1.mono extension, apart.2.mono extension⟩

theorem Registry.Discreet.mono {registry : Registry} (discreet : registry.Discreet before)
    (extension : before.Extends after) : registry.Discreet after where
  callables := discreet.callables
  statics entry entryMem field fieldMem :=
    (discreet.statics entry entryMem field fieldMem).mono extension

namespace Store

/-- A later store is guarded if what it holds is apart from the arrays of the closures before. -/
theorem Extends.guarded (extension : before.Extends after)
    (inside : ∀ id, after.HasClosure id → (after.carrier id).index < after.arrays.size)
    (distinct : ∀ id other, after.HasClosure id → after.HasClosure other →
      after.carrier id = after.carrier other → id = other)
    (arrays : ∀ id, ∀ value ∈ after.array id, value.Apart before)
    (iterators : ∀ id, (after.iterator id).Apart before)
    (objects : ∀ id, ∀ field ∈ (after.object id).fields, field.2.Apart before)
    (cells : ∀ id, (after.cell id).Apart before) : after.Guarded where
  inside := inside
  distinct := distinct
  arrays id value present := (arrays id value present).mono extension
  iterators id := (iterators id).mono extension
  objects id field present := (objects id field present).mono extension
  cells id := (cells id).mono extension

/-- A store with the same closures. -/
theorem Extends.ofClosures (closures : after.closures = before.closures)
    (arrays : before.arrays.size ≤ after.arrays.size) : before.Extends after where
  arrays := arrays
  closures := Nat.le_of_eq (congrArg Array.size closures).symm
  carrier id _ := by rw [Store.carrier, Store.carrier, closure, closure, closures]
  fresh id has lacks := absurd (by rwa [HasClosure, ← closures]) lacks

end Store

end Monotone

/-! ## Changes of the store -/

namespace Store

variable {before after store : Store}

/-- A store with the same closures stays guarded if what it holds is apart from their arrays. -/
theorem Guarded.ofClosures (guarded : before.Guarded) (closures : after.closures = before.closures)
    (size : before.arrays.size ≤ after.arrays.size)
    (arrays : ∀ id, ∀ value ∈ after.array id, value.Apart before)
    (iterators : ∀ id, (after.iterator id).Apart before)
    (objects : ∀ id, ∀ field ∈ (after.object id).fields, field.2.Apart before)
    (cells : ∀ id, (after.cell id).Apart before) : after.Guarded := by
  have extension := Extends.ofClosures closures size
  have carrier : ∀ id, after.carrier id = before.carrier id := by
    intro id
    simp only [Store.carrier, closure, closures]
  have has : ∀ id, after.HasClosure id → before.HasClosure id := by
    intro id has
    rwa [HasClosure, ← closures]
  refine extension.guarded ?_ ?_ arrays iterators objects cells
  · intro id there
    rw [carrier]
    exact Nat.lt_of_lt_of_le (guarded.inside id (has id there)) size
  · intro id other there otherThere same
    rw [carrier, carrier] at same
    exact guarded.distinct id other (has id there) (has other otherThere) same

variable (guarded : store.Guarded)

include guarded

/-- A write of an element leaves what the closures keep alone, except in the array that is
written. -/
theorem Guarded.setElement {id : ArrayId} {place : Nat} {value : Value}
    (apart : value.Apart store) :
    store.Extends (store.setElement id place value) ∧
      (store.setElement id place value).Guarded := by
  have size : store.arrays.size ≤ (store.setElement id place value).arrays.size := by
    simp [Store.setElement]
  refine ⟨.ofClosures rfl size, guarded.ofClosures rfl size ?_ guarded.iterators guarded.objects
    guarded.cells⟩
  intro other item itemMem
  rw [array_setElement] at itemMem
  split at itemMem
  · rcases Array.mem_or_eq_of_mem_setIfInBounds itemMem with old | rfl
    · exact guarded.arrays other item old
    · exact apart
  · exact guarded.arrays other item itemMem

theorem Guarded.spares_setElement {id : ArrayId} {place : Nat} {value : Value}
    (apartArray : (Value.array id).Apart store) (apart : value.Apart store) :
    store.Spares (store.setElement id place value) := by
  refine ⟨(guarded.setElement apart).1, ?_⟩
  intro closure has
  rw [array_setElement, if_neg]
  rintro ⟨same, _⟩
  exact apartArray.2 ⟨closure, has, ArrayId.ext same⟩

/-- A write to what one closure keeps does not change what another one keeps. -/
theorem Guarded.kept_setElement {id other : ClosureId} {place : Nat} {value : Value}
    (has : store.HasClosure id) (hasOther : store.HasClosure other) (differ : other ≠ id) :
    (store.setElement (store.carrier id) place value).array (store.carrier other) =
      store.array (store.carrier other) := by
  rw [array_setElement, if_neg]
  rintro ⟨same, _⟩
  exact differ (guarded.distinct other id hasOther has (ArrayId.ext same))

theorem Guarded.setField {id : ObjectId} {name : String} {value : Value}
    (apart : value.Apart store) :
    store.Spares (store.setField id name value) ∧ (store.setField id name value).Guarded := by
  refine ⟨⟨.ofClosures rfl (Nat.le_refl _), fun _ _ => rfl⟩,
    guarded.ofClosures rfl (Nat.le_refl _) guarded.arrays guarded.iterators ?_ guarded.cells⟩
  intro other field fieldMem
  rw [object_setField] at fieldMem
  split at fieldMem
  · rcases Dictionary.mem_insert fieldMem with new | old
    · rw [new]
      exact apart
    · exact guarded.objects other field old
  · exact guarded.objects other field fieldMem

theorem Guarded.setCell {id : CellId} {value : Value} (apart : value.Apart store) :
    store.Spares (store.setCell id value) ∧ (store.setCell id value).Guarded := by
  refine ⟨⟨.ofClosures rfl (Nat.le_refl _), fun _ _ => rfl⟩,
    guarded.ofClosures rfl (Nat.le_refl _) guarded.arrays guarded.iterators guarded.objects ?_⟩
  intro other
  rw [cell_setCell]
  split
  · exact apart
  · exact guarded.cells other

theorem Guarded.setIterator {id : IteratorId} {state : IteratorState} (apart : state.Apart store) :
    store.Spares (store.setIterator id state) ∧ (store.setIterator id state).Guarded := by
  refine ⟨⟨.ofClosures rfl (Nat.le_refl _), fun _ _ => rfl⟩,
    guarded.ofClosures rfl (Nat.le_refl _) guarded.arrays ?_ guarded.objects guarded.cells⟩
  intro other
  rw [iterator_setIterator]
  split
  · exact apart
  · exact guarded.iterators other

theorem Guarded.allocIterator {source : IteratorSource} (apart : source.Apart store) :
    store.Spares (store.allocIterator source).2 ∧ (store.allocIterator source).2.Guarded := by
  refine ⟨⟨.ofClosures rfl (Nat.le_refl _), fun _ _ => rfl⟩,
    guarded.ofClosures rfl (Nat.le_refl _) guarded.arrays ?_ guarded.objects guarded.cells⟩
  intro id
  rw [iterator_allocIterator]
  split
  · exact ⟨trivial, apart⟩
  · exact guarded.iterators id

theorem Guarded.array_allocArray_carrier {items : Array Value} {id : ClosureId}
    (has : store.HasClosure id) :
    (store.allocArray items).2.array (store.carrier id) = store.array (store.carrier id) := by
  rw [array_allocArray, if_neg (Nat.ne_of_lt (guarded.inside id has))]

theorem Guarded.allocArray {items : Array Value} (apart : ∀ value ∈ items, value.Apart store) :
    (store.Spares (store.allocArray items).2 ∧ (store.allocArray items).2.Guarded) ∧
      (Value.array (store.allocArray items).1).Apart (store.allocArray items).2 := by
  have size : store.arrays.size ≤ (store.allocArray items).2.arrays.size := by
    simp [Store.allocArray]
  refine ⟨⟨⟨.ofClosures rfl size, fun id has => guarded.array_allocArray_carrier has⟩,
    guarded.ofClosures rfl size ?_ guarded.iterators guarded.objects guarded.cells⟩, ?_, ?_⟩
  · intro id item itemMem
    rw [array_allocArray] at itemMem
    split at itemMem
    · exact apart item itemMem
    · exact guarded.arrays id item itemMem
  · simp [Store.allocArray]
  · rintro ⟨id, has, same⟩
    have inside := guarded.inside id has
    rw [show store.carrier id = (store.allocArray items).1 from same] at inside
    exact Nat.lt_irrefl _ inside

theorem Guarded.resolveClosure {id : ClosureId} {entry : FunctionEntry} :
    store.Spares (store.resolveClosure id entry) ∧ (store.resolveClosure id entry).Guarded := by
  have carrier : ∀ other, (store.resolveClosure id entry).carrier other = store.carrier other := by
    intro other
    rw [Store.carrier, Store.carrier, closure_resolveClosure]
    split <;> rfl
  have has : ∀ other, (store.resolveClosure id entry).HasClosure other ↔ store.HasClosure other := by
    intro other
    rw [HasClosure, HasClosure, size_closures_resolveClosure]
  have extension : store.Extends (store.resolveClosure id entry) :=
    ⟨Nat.le_refl _, by simp, fun other _ => carrier other,
      fun other there lacks => absurd ((has other).mp there) lacks⟩
  refine ⟨⟨extension, fun _ _ => rfl⟩, extension.guarded ?_ ?_ guarded.arrays
    guarded.iterators guarded.objects guarded.cells⟩
  · intro other there
    rw [carrier]
    exact guarded.inside other ((has other).mp there)
  · intro one other there otherThere same
    rw [carrier, carrier] at same
    exact guarded.distinct one other ((has one).mp there) ((has other).mp otherThere) same

/-- A new closure that keeps values in a new array. -/
theorem Guarded.makeClosure {function : FunctionRef} {items : Array Value}
    (apart : ∀ value ∈ items, value.Apart store) :
    store.Spares ((store.allocArray items).2.allocClosure
        ⟨function, (store.allocArray items).1, none⟩).2 ∧
      ((store.allocArray items).2.allocClosure
        ⟨function, (store.allocArray items).1, none⟩).2.Guarded := by
  have closures : ((store.allocArray items).2.allocClosure
      ⟨function, (store.allocArray items).1, none⟩).2.closures.size = store.closures.size + 1 :=
    size_closures_allocClosure _
  have carrier : ∀ id, ((store.allocArray items).2.allocClosure
      ⟨function, (store.allocArray items).1, none⟩).2.carrier id =
        if id.index = store.closures.size then ⟨store.arrays.size⟩ else store.carrier id := by
    intro id
    rw [Store.carrier, closure_allocClosure]
    exact apply_ite Closure.captures _ _ _
  have old : ∀ id, store.HasClosure id → id.index ≠ store.closures.size := fun _ => Nat.ne_of_lt
  have size : ((store.allocArray items).2.allocClosure
      ⟨function, (store.allocArray items).1, none⟩).2.arrays.size = store.arrays.size + 1 :=
    Array.size_push _
  have extension : store.Extends ((store.allocArray items).2.allocClosure
      ⟨function, (store.allocArray items).1, none⟩).2 := by
    refine ⟨by omega, by omega, ?_, ?_⟩
    · intro id has
      rw [carrier, if_neg (old id has)]
    · intro id has lacks
      rw [HasClosure, closures] at has
      rw [HasClosure] at lacks
      exact Nat.le_of_eq (by rw [carrier, if_pos (by omega)])
  refine ⟨⟨extension, fun id has => guarded.array_allocArray_carrier has⟩,
    extension.guarded ?_ ?_ ?_ guarded.iterators guarded.objects guarded.cells⟩
  · intro id has
    rw [HasClosure, closures] at has
    rw [carrier, size]
    split
    · exact Nat.lt_succ_self _
    · exact Nat.lt_succ_of_lt (guarded.inside id (show id.index < _ by omega))
  · intro id other has hasOther same
    rw [HasClosure, closures] at has hasOther
    rw [carrier, carrier] at same
    split at same <;> split at same
    · exact ClosureId.ext (by omega)
    · have inside := guarded.inside other (show other.index < _ by omega)
      rw [← same] at inside
      exact absurd inside (Nat.lt_irrefl _)
    · have inside := guarded.inside id (show id.index < _ by omega)
      rw [same] at inside
      exact absurd inside (Nat.lt_irrefl _)
    · exact guarded.distinct id other (show id.index < _ by omega)
        (show other.index < _ by omega) same
  · intro id item itemMem
    rw [show ∀ closure, ((store.allocArray items).2.allocClosure closure).2.array id =
      (store.allocArray items).2.array id from fun _ => rfl, array_allocArray] at itemMem
    split at itemMem
    · exact apart item itemMem
    · exact guarded.arrays id item itemMem

end Store

/-! ## Keeping away from the arrays of closures as a discipline -/

namespace Surroundings

variable {surroundings : Surroundings} {store : Store}

/-- Guarded stores, with values that are apart from the arrays of closures. -/
def discretion (surroundings : Surroundings) : Discipline where
  obeys store := store.Guarded ∧ surroundings.registry.Discreet store
  allows store value := value.Apart store
  follows before after := before.Spares after ∧ after.Guarded

theorem discretion_gives {source : IteratorSource} :
    surroundings.discretion.Gives store source ↔ source.Apart store := by
  cases source with
  | items rest failure => exact .rfl
  | elements array next => exact .rfl
  | range next stop step => exact .rfl

theorem discretion_lawful (surroundings : Surroundings) :
    surroundings.discretion.Lawful surroundings where
  refl obeys := ⟨.refl, obeys.1⟩
  trans first second := ⟨first.1.trans second.1, second.2⟩
  kept obeys follows := ⟨follows.2, obeys.2.mono follows.1.toExtends⟩
  mono follows apart := Value.Apart.mono apart follows.1.toExtends
  plain isPlain := Value.apart_of_isPlain isPlain
  element obeys present := obeys.1.arrays _ _ present
  field obeys present := obeys.1.objects _ _ present
  current obeys := (obeys.1.iterators _).1
  source obeys := discretion_gives.mpr (obeys.1.iterators _).2
  static obeys present own := obeys.2.statics _ present _ own
  host call obeys offered apart := obeys.2.callables _ offered call _ obeys.1 apart
  setElement _ obeys apartArray apart :=
    ⟨obeys.1.spares_setElement apartArray apart, (obeys.1.setElement apart).2⟩
  setField _ _ obeys apart := obeys.1.setField apart
  setCell _ obeys apart := obeys.1.setCell apart
  setIterator _ obeys apart gives := obeys.1.setIterator ⟨apart, discretion_gives.mp gives⟩
  entry obeys _ := obeys.1.resolveClosure
  newArray obeys apart := obeys.1.allocArray apart
  newIterator obeys gives := ⟨obeys.1.allocIterator (discretion_gives.mp gives), trivial⟩

end Surroundings

end ScriptMachine
