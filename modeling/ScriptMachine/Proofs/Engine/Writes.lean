import ScriptMachine.Proofs.Engine.Anatomy
import ScriptMachine.Proofs.Engine.Closures

/-!
# What effects write

An effect writes little: it hands the store to a callable of the host, or it writes one place of one
table or puts one new thing at the end of a table. So a relation between stores that is reflexive and
transitive, and that all these writes respect, relates the stores before and after every instruction.

The relation need not know instructions, and instructions need not know the relation.
-/

namespace ScriptMachine

/-- What an effect may leave of a store. -/
inductive Store.Written (surroundings : Surroundings) (store : Store) : Store → Prop
  | nothing : Written surroundings store store
  | host {function : HostFunction} (call : HostCall)
      (offered : surroundings.registry.Offers function) :
      Written surroundings store (function.body call store).2
  | element (id : ArrayId) (place : Nat) (value : Value) :
      Written surroundings store (store.setElement id place value)
  | field (id : ObjectId) (name : String) (value : Value) :
      Written surroundings store (store.setField id name value)
  | cell {name : String} {id : CellId}
      (found : surroundings.registry.globals.find? name = some id) (value : Value) :
      Written surroundings store (store.setCell id value)
  | iterator (id : IteratorId) (state : IteratorState) :
      Written surroundings store (store.setIterator id state)
  | entry {id : ClosureId} {entry : FunctionEntry}
      (found : surroundings.program.lookup? (store.closure id).function.path
        (store.closure id).function.name = some entry) :
      Written surroundings store (store.resolveClosure id entry)
  | newArray (items : Array Value) : Written surroundings store (store.allocArray items).2
  | newClosure (function : FunctionRef) (captures : ArrayId) :
      Written surroundings store (store.allocClosure ⟨function, captures, none⟩).2
  | newIterator (source : IteratorSource) :
      Written surroundings store (store.allocIterator source).2

namespace Effect

variable {surroundings : Surroundings} {store : Store}

/-! ## Host calls -/

theorem written_invoke {choose : Store → Except RuntimeFault Resolved}
    (offered : ∀ resolved, choose store = .ok resolved →
      surroundings.registry.Offers resolved.function) :
    store.Written surroundings (invoke choose store).2 := by
  unfold invoke
  split
  · rename_i resolved chosen
    exact .host resolved.call (offered resolved chosen)
  · exact .nothing

theorem written_callHost {name : String} {candidates : List HostFunction} {args : List Value}
    (offered : ∀ function ∈ candidates, surroundings.registry.Offers function) :
    store.Written surroundings (callHost surroundings.registry name candidates args store).2 := by
  apply written_invoke
  intro resolved chosen
  exact offered _ (resolveOverload_mem chosen)

theorem written_callNamed {name : String} {binding : Option HostFunctionRef} {args : List Value} :
    store.Written surroundings (callNamed surroundings.registry name binding args store).2 := by
  unfold callNamed
  cases found : binding.bind fun reference =>
    surroundings.registry.soleFunction? reference.name reference.signature with
  | some function =>
      rcases Option.bind_eq_some_iff.mp found with ⟨reference, _, sole⟩
      apply written_callHost
      intro other present
      rw [List.mem_singleton.mp present]
      exact offers_soleFunction sole
  | none =>
      apply written_invoke
      intro resolved chosen
      unfold Registry.resolveFunction at chosen
      split at chosen
      · cases chosen
      · exact offers_overloads (resolveOverload_mem chosen)

theorem written_callStatic {typeName name : String} {args : List Value} :
    store.Written surroundings (callStatic surroundings.registry typeName name args store).2 := by
  unfold callStatic
  split
  · exact .nothing
  · rename_i type accessible
    split
    · exact .nothing
    · apply written_callHost
      intro function present
      exact offers_of_type (accessibleType_ok accessible) (offers_staticOverloads present)

theorem written_callHostMember {name : String} {candidates : List HostFunction} {args : List Value}
    (offered : ∀ function ∈ candidates, surroundings.registry.Offers function) :
    store.Written surroundings
      (callHostMember surroundings.registry name candidates args store).2 := by
  have written := @written_callHost surroundings store name candidates args offered
  unfold callHostMember
  split
  all_goals
    rename_i called
    rw [called] at written
    exact written

theorem written_callMember {receiver : Value} {name : String} {args : List Value} :
    store.Written surroundings (callMember surroundings.registry receiver name args store).2 := by
  unfold callMember
  split
  · dsimp only
    split
    · exact .nothing
    · split
      · split <;> exact .nothing
      · exact written_callHostMember fun function present => offers_methods present
  · split
    · exact .nothing
    · exact written_callHostMember fun function present => offers_overloads present

theorem written_loadIndex {target index : Value} :
    store.Written surroundings (loadIndex surroundings.registry target index store).2 := by
  unfold loadIndex
  split
  · split <;> exact .nothing
  · split <;> exact .nothing
  · dsimp only
    split
    · exact .nothing
    · rename_i getter found
      apply written_callHost
      intro other present
      rw [List.mem_singleton.mp present]
      exact offers_indexerGet found
  · exact .nothing

theorem written_storeIndex {target index value : Value} :
    store.Written surroundings (storeIndex surroundings.registry target index value store).2 := by
  unfold storeIndex
  split
  · split
    · exact .element _ _ _
    · exact .nothing
  · rename_i id
    dsimp only
    split
    · exact .nothing
    · rename_i setter found
      have written := @written_callHost surroundings store ((store.object id).typeName ++ "[]=")
        [setter] [.object id, index, value] (fun other present => by
          rw [List.mem_singleton.mp present]
          exact offers_indexerSet found)
      split
      all_goals
        rename_i called
        rw [called] at written
        exact written
  · exact .nothing

theorem written_binary {operator : BinaryOp} {left right : Value} :
    store.Written surroundings (binary surroundings.registry operator left right store).2 := by
  unfold binary
  split
  · split <;> exact .nothing
  · exact written_callHost fun function present => offers_operators present

/-! ## All effects -/

theorem written_of_same {later : Store} (same : later = store) :
    store.Written surroundings later :=
  same ▸ .nothing

theorem store_loadField {registry : Registry} {target : Value} {name : String} :
    (loadField registry target name store).2 = store := by
  cases target with
  | object id =>
      simp only [loadField]
      split
      · rfl
      · split <;> rfl
  | array id =>
      simp only [loadField]
      split <;> rfl
  | str text =>
      simp only [loadField]
      split <;> rfl
  | _ => rfl

theorem store_loadStatic {registry : Registry} {typeName name : String} :
    (loadStatic registry typeName name store).2 = store := by
  unfold loadStatic
  split
  · rfl
  · split <;> rfl

theorem store_unary {operator : UnaryOp} {operand : Value} :
    (unary operator operand store).2 = store := by
  unfold unary
  split <;> rfl

theorem written_storeField {target value : Value} {name : String} :
    store.Written surroundings
      (storeField surroundings.registry target name value store).2 := by
  cases target with
  | object id =>
      simp only [storeField]
      split
      · exact .nothing
      · split
        · exact .field id name value
        · exact .nothing
  | _ => exact .nothing

theorem written_resolveClosure {id : ClosureId} {argc : Nat} :
    store.Written surroundings (resolveClosure surroundings.program id argc store).2 := by
  simp only [resolveClosure]
  split
  · exact .nothing
  · split
    · exact .nothing
    · rename_i entry found
      exact .entry found

theorem written_storeGlobal {name : Option String} {value : Value} :
    store.Written surroundings (storeGlobal surroundings.registry name value store).2 := by
  cases name with
  | none => exact .nothing
  | some name =>
      simp only [storeGlobal, Registry.setGlobal?]
      cases found : surroundings.registry.globals.find? name with
      | none => exact .nothing
      | some id => exact .cell found value

theorem written_moveNext {id : IteratorId} :
    store.Written surroundings (moveNext id store).2 := by
  simp only [moveNext, Store.advance]
  split
  · exact .iterator _ _
  · exact .iterator _ _
  · exact .nothing

theorem written_toIterator {value : Value} : store.Written surroundings (value.toIterator store).2 := by
  unfold Value.toIterator
  split
  · exact .nothing
  · exact .newIterator _
  · exact .newIterator _
  · exact .nothing

/-- Every effect of a program leaves the store written in one of these ways. -/
theorem Used.written {α : Type} {effect : Effect α} (used : effect.Used surroundings)
    (store : Store) : store.Written surroundings (effect store).2 := by
  cases used with
  | typeName | captures | current | global => exact .nothing
  | storeGlobal => exact written_storeGlobal
  | binary => exact written_binary
  | unary => exact written_of_same store_unary
  | callNamed => exact written_callNamed
  | callStatic => exact written_callStatic
  | loadStatic => exact written_of_same store_loadStatic
  | callMember => exact written_callMember
  | resolveClosure => exact written_resolveClosure
  | makeClosure => exact .newClosure _ _
  | loadField => exact written_of_same store_loadField
  | storeField => exact written_storeField
  | loadIndex => exact written_loadIndex
  | storeIndex => exact written_storeIndex
  | makeArray => exact .newArray _
  | toIterator => exact written_toIterator
  | moveNext => exact written_moveNext

end Effect

/-! ## Steps -/

/-- A relation between stores that holds across all writes. -/
structure Store.Respected (surroundings : Surroundings) (R : Store → Store → Prop) : Prop where
  refl : ∀ store, R store store
  trans : ∀ {before middle after}, R before middle → R middle after → R before after
  written : ∀ {before after}, before.Written surroundings after → R before after

namespace Store.Respected

variable {surroundings : Surroundings} {R : Store → Store → Prop}

/-- What holds across all writes holds across every part of an instruction. -/
theorem rules (respected : Respected surroundings R) :
    Step.Rules surroundings fun action => ∀ machine : Machine,
      R machine.store (action.run machine).2.store := by
  refine Step.Blind.rules (fun blind machine => ?_) (fun {α β first next} one two machine => ?_)
    fun used machine => respected.written (used.written machine.store)
  · rw [blind.keeps]
    exact respected.refl _
  · have start := one machine
    rw [Step.run_bind]
    generalize first.run machine = result at start
    rcases result with ⟨_ | value, later⟩
    · exact start
    · exact respected.trans start (two value later)

/-- What holds across all writes holds across every instruction. -/
theorem step (respected : Respected surroundings R) (instruction : Instruction) (machine : Machine) :
    R machine.store ((ScriptMachine.step surroundings instruction).run machine).2.store :=
  respected.rules.step instruction machine

end Store.Respected

end ScriptMachine
