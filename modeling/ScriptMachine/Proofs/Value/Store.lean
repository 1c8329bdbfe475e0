import ScriptMachine.Host.Registry

/-!
# Reading a store after a change

Each operation on a store changes one table. What the other tables hold is unchanged by definition;
the lemmas here say what the changed table holds. A place that a table does not have reads as a
default, so every change is described at every place.
-/

namespace ScriptMachine

attribute [ext] ArrayId ClosureId IteratorId ObjectId

namespace Store

section Tables

variable {α : Type} {items : Array α} {default : α} {place other : Nat}

theorem getD_push (item : α) :
    (items.push item).getD other default =
      if other = items.size then item else items.getD other default := by
  simp only [Array.getD_eq_getD_getElem?, Array.getElem?_push]
  split <;> rfl

theorem getD_setIfInBounds (item : α) :
    (items.setIfInBounds place item).getD other default =
      if other = place ∧ place < items.size then item else items.getD other default := by
  simp only [Array.getD_eq_getD_getElem?, Array.getElem?_setIfInBounds]
  by_cases same : other = place
  · subst other
    by_cases inside : place < items.size <;> simp [inside]
  · simp [same, Ne.symm same]

theorem getD_modify (change : α → α) :
    (items.modify place change).getD other default =
      if other = place ∧ place < items.size then change (items.getD other default)
      else items.getD other default := by
  simp only [Array.getD_eq_getD_getElem?, Array.getElem?_modify]
  by_cases same : other = place
  · subst other
    by_cases inside : place < items.size <;> simp [inside]
  · simp [same, Ne.symm same]

end Tables

variable {store : Store}

theorem array_allocArray (items : Array Value) (id : ArrayId) :
    (store.allocArray items).2.array id =
      if id.index = store.arrays.size then items else store.array id :=
  getD_push items

theorem array_setElement (id other : ArrayId) (place : Nat) (value : Value) :
    (store.setElement id place value).array other =
      if other.index = id.index ∧ id.index < store.arrays.size then
        (store.array other).setIfInBounds place value
      else store.array other :=
  getD_modify _

theorem closure_allocClosure (closure : Closure) (id : ClosureId) :
    (store.allocClosure closure).2.closure id =
      if id.index = store.closures.size then closure else store.closure id :=
  getD_push closure

theorem closure_resolveClosure (id other : ClosureId) (entry : FunctionEntry) :
    (store.resolveClosure id entry).closure other =
      if other.index = id.index ∧ id.index < store.closures.size then
        { store.closure other with resolved := some entry }
      else store.closure other :=
  getD_modify _

theorem iterator_allocIterator (source : IteratorSource) (id : IteratorId) :
    (store.allocIterator source).2.iterator id =
      if id.index = store.iterators.size then ⟨source, .unit⟩ else store.iterator id :=
  getD_push _

theorem iterator_setIterator (id other : IteratorId) (state : IteratorState) :
    (store.setIterator id state).iterator other =
      if other.index = id.index ∧ id.index < store.iterators.size then state
      else store.iterator other :=
  getD_setIfInBounds state

theorem cell_setCell (id other : CellId) (value : Value) :
    (store.setCell id value).cell other =
      if other.index = id.index ∧ id.index < store.cells.size then value else store.cell other :=
  getD_setIfInBounds value

theorem object_setField (id other : ObjectId) (name : String) (value : Value) :
    (store.setField id name value).object other =
      if other.index = id.index ∧ id.index < store.objects.size then
        { store.object other with
          fields := Dictionary.insert (store.object other).fields name value }
      else store.object other :=
  getD_modify _

@[simp]
theorem size_closures_allocClosure (closure : Closure) :
    (store.allocClosure closure).2.closures.size = store.closures.size + 1 := by
  simp [allocClosure]

@[simp]
theorem size_closures_resolveClosure (id : ClosureId) (entry : FunctionEntry) :
    (store.resolveClosure id entry).closures.size = store.closures.size := by
  simp [resolveClosure]

end Store

end ScriptMachine
