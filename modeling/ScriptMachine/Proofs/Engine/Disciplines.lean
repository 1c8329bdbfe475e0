import ScriptMachine.Proofs.Engine.Effects
import ScriptMachine.Proofs.Value.Dictionary
import ScriptMachine.Proofs.Value.Store

/-!
# Disciplines

An instruction passes values on: from its operands into the store, from the store to where its
operands were, from and to the host. It makes no references but those to what it puts into the store
itself. So if the values in a store and the operands are of a certain sort, those that an effect
leaves are again.

A discipline says which sort of values that is and which stores may follow a store. It is lawful if
every single write of allowed values and every callable of the host obeys it. Then all effects do.
-/

namespace ScriptMachine

/-! ## What a host offers -/

/-- The callables of a host type. -/
def HostType.Offers (type : HostType) (function : HostFunction) : Prop :=
  (∃ entry ∈ type.staticFunctions, function ∈ entry.2) ∨
    (∃ entry ∈ type.methods, function ∈ entry.2) ∨
    type.indexerGet = some function ∨ type.indexerSet = some function ∨
    ∃ operator, (operator, function) ∈ type.operators

/-- The callables of a host. -/
def Registry.Offers (registry : Registry) (function : HostFunction) : Prop :=
  (∃ entry ∈ registry.functions, function ∈ entry.2) ∨
    ∃ entry ∈ registry.types, entry.2.Offers function

theorem Registry.mem_of_mem_lineageIn {types : Dictionary HostType} {name : String}
    {type : HostType} (ancestor : type ∈ lineageIn types name) :
    ∃ entry ∈ types, entry.2 = type := by
  fun_induction lineageIn types name with
  | case1 => cases ancestor
  | case2 types name first found ih =>
      rcases List.mem_cons.mp ancestor with rfl | ancestor
      · exact ⟨_, Dictionary.mem_of_find? found, rfl⟩
      · cases base : first.baseName? with
        | none => simp [base] at ancestor
        | some base' =>
            rw [base] at ancestor
            rcases ih base' ancestor with ⟨entry, entryMem, same⟩
            exact ⟨entry, Dictionary.mem_of_mem_erase entryMem, same⟩

namespace Overload

theorem mem_leader {best : Candidate} {place index : Nat} {rest : List Candidate} :
    (leader best place index rest).1 ∈ best :: rest := by
  fun_induction leader best place index rest with
  | case1 => exact List.mem_cons_self
  | case2 best place index next rest worse ih => exact List.mem_cons_of_mem _ ih
  | case3 best place index next rest better ih =>
      rcases List.mem_cons.mp ih with same | later
      · rw [same]
        exact List.mem_cons_self
      · exact List.mem_cons_of_mem _ (List.mem_cons_of_mem _ later)

end Overload

/-- A chosen overload is one of the candidates. -/
theorem resolveOverload_mem {name : String} {candidates : List HostFunction} {args : List Value}
    {hierarchy : TypeHierarchy} {store : Store} {resolved : Resolved}
    (chosen : resolveOverload name candidates args hierarchy store = .ok resolved) :
    resolved.function ∈ candidates := by
  unfold resolveOverload at chosen
  cases fitting : candidates.filterMap (Overload.evaluate? hierarchy store args) with
  | nil => simp [fitting] at chosen
  | cons first rest =>
      rw [fitting] at chosen
      dsimp only at chosen
      split at chosen
      · simp only [Except.ok.injEq] at chosen
        subst resolved
        have present := @Overload.mem_leader first 0 1 rest
        rw [← fitting] at present
        rcases List.mem_filterMap.mp present with ⟨function, functionMem, evaluated⟩
        unfold Overload.evaluate? at evaluated
        split at evaluated
        · cases evaluated
        · rcases Option.map_eq_some_iff.mp evaluated with ⟨fit, _, same⟩
          rw [← same]
          exact functionMem
      · cases chosen

namespace Effect

variable {registry : Registry} {store : Store}

theorem offers_overloads {name : String} {function : HostFunction}
    (present : function ∈ registry.overloads name) : registry.Offers function := by
  unfold Registry.overloads at present
  cases found : registry.functions.find? name with
  | none => simp [found] at present
  | some functions =>
      rw [found] at present
      exact .inl ⟨_, Dictionary.mem_of_find? found, present⟩

theorem offers_soleFunction {name : String} {signature : List TypeRef} {function : HostFunction}
    (sole : registry.soleFunction? name signature = some function) : registry.Offers function := by
  unfold Registry.soleFunction? at sole
  split at sole
  · rename_i only overloads
    split at sole
    · rw [← Option.some.inj sole]
      exact offers_overloads (overloads ▸ List.mem_singleton_self only)
    · cases sole
  · cases sole

theorem offers_of_type {type : HostType} {name : String} {function : HostFunction}
    (found : registry.type? name = some type) (offered : type.Offers function) :
    registry.Offers function :=
  .inr ⟨_, Dictionary.mem_of_find? found, offered⟩

theorem offers_of_ancestor {type : HostType} {name : String} {function : HostFunction}
    (ancestor : type ∈ registry.lineage name) (offered : type.Offers function) :
    registry.Offers function := by
  rcases Registry.mem_of_mem_lineageIn ancestor with ⟨entry, entryMem, rfl⟩
  exact .inr ⟨entry, entryMem, offered⟩

theorem offers_staticOverloads {type : HostType} {name : String} {function : HostFunction}
    (present : function ∈ type.staticOverloads name) : type.Offers function := by
  unfold HostType.staticOverloads at present
  cases found : type.staticFunctions.find? name with
  | none => simp [found] at present
  | some functions =>
      rw [found] at present
      exact .inl ⟨_, Dictionary.mem_of_find? found, present⟩

theorem offers_methods {typeName name : String} {function : HostFunction}
    (present : function ∈ registry.methods typeName name) : registry.Offers function := by
  rcases List.mem_flatMap.mp present with ⟨type, ancestor, own⟩
  apply offers_of_ancestor ancestor
  unfold HostType.ownMethods at own
  cases found : type.methods.find? name with
  | none => simp [found] at own
  | some functions =>
      rw [found] at own
      exact .inr (.inl ⟨_, Dictionary.mem_of_find? found, own⟩)

theorem offers_indexerGet {typeName : String} {function : HostFunction}
    (found : registry.indexerGet? typeName = some function) : registry.Offers function := by
  rcases List.exists_of_findSome?_eq_some found with ⟨type, ancestor, own⟩
  exact offers_of_ancestor ancestor (.inr (.inr (.inl own)))

theorem offers_indexerSet {typeName : String} {function : HostFunction}
    (found : registry.indexerSet? typeName = some function) : registry.Offers function := by
  rcases List.exists_of_findSome?_eq_some found with ⟨type, ancestor, own⟩
  exact offers_of_ancestor ancestor (.inr (.inr (.inr (.inl own))))

theorem mem_operandTypes {operands : List Value} {type : HostType}
    (present : type ∈ registry.operandTypes store operands) :
    ∃ name, type ∈ registry.lineage name := by
  unfold Registry.operandTypes at present
  refine @List.foldlRecOn _ _ (fun seen => ∀ other ∈ seen, ∃ name, other ∈ registry.lineage name)
    operands _ [] (List.forall_mem_nil _) ?_ type present
  intro seen seenMem value _ other otherMem
  cases value with
  | object id =>
      rcases List.mem_append.mp otherMem with old | new
      · exact seenMem other old
      · exact ⟨_, (List.mem_filter.mp new).1⟩
  | _ => exact seenMem other otherMem

theorem offers_operators {operator : BinaryOp} {operands : List Value} {function : HostFunction}
    (present : function ∈ registry.operators store operator operands) :
    registry.Offers function := by
  rcases List.mem_flatMap.mp present with ⟨type, typeMem, own⟩
  rcases mem_operandTypes typeMem with ⟨name, ancestor⟩
  rcases List.mem_map.mp own with ⟨⟨declared, other⟩, entryMem, rfl⟩
  exact offers_of_ancestor ancestor
    (.inr (.inr (.inr (.inr ⟨declared, (List.mem_filter.mp entryMem).1⟩))))

theorem accessibleType_ok {typeName member : String} {type : HostType}
    (accessible : Step.accessibleType registry typeName member = .ok type) :
    registry.type? typeName = some type := by
  unfold Step.accessibleType at accessible
  split at accessible
  · cases accessible
  · split at accessible
    · cases accessible
    · rename_i found _
      rw [found, Except.ok.inj accessible]

end Effect

/-- What a member is, as a value. -/
def Effect.Member.asValue : Member → Value
  | .value result => result
  | .closure id => .closure id

/-! ## Values that refer to nothing -/

/-- A value that refers to nothing in the store. -/
def Value.IsPlain : Value → Prop
  | .array _ | .closure _ | .iterator _ | .object _ => False
  | _ => True

section Plain

variable {store : Store} {value : Value}

theorem Value.isPlain_checkedInt {overflow : RuntimeFault} {number : Int}
    (fits : checkedInt overflow number = .ok value) : value.IsPlain := by
  unfold checkedInt at fits
  split at fits
  · rw [← Except.ok.inj fits]
    trivial
  · cases fits

theorem Value.isPlain_intBinary {operator : BinaryOp} {left right : Int64}
    (meaning : intBinary operator left right = some (.ok value)) : value.IsPlain := by
  unfold intBinary at meaning
  dsimp only at meaning
  split at meaning <;> simp only [Option.some.injEq, Except.ok.injEq, reduceCtorEq] at meaning
  case h_1 => exact isPlain_checkedInt meaning
  case h_2 => exact isPlain_checkedInt meaning
  case h_3 => exact isPlain_checkedInt meaning
  case h_4 =>
    split at meaning
    · cases meaning
    · exact isPlain_checkedInt meaning
  case h_5 =>
    split at meaning
    · cases meaning
    · split at meaning
      · exact isPlain_checkedInt meaning
      · cases meaning
  all_goals subst value; trivial

theorem Value.isPlain_floatBinary {operator : BinaryOp} {left right : Binary64}
    (meaning : floatBinary operator left right = some (.ok value)) : value.IsPlain := by
  unfold floatBinary at meaning
  split at meaning <;> simp only [Option.some.injEq, Except.ok.injEq, reduceCtorEq] at meaning
  all_goals subst value; trivial

theorem Value.isPlain_textBinary {operator : BinaryOp} {left right : String}
    (meaning : textBinary operator left right = some (.ok value)) : value.IsPlain := by
  unfold textBinary at meaning
  split at meaning <;> simp only [Option.some.injEq, Except.ok.injEq, reduceCtorEq] at meaning
  all_goals subst value; trivial

theorem Value.isPlain_binary {operator : BinaryOp} {left right : Value}
    (meaning : left.binary store operator right = some (.ok value)) : value.IsPlain := by
  unfold Value.binary at meaning
  split at meaning
  case h_8 => exact isPlain_intBinary meaning
  case h_9 => exact isPlain_floatBinary meaning
  case h_10 => exact isPlain_floatBinary meaning
  case h_11 => exact isPlain_floatBinary meaning
  case h_12 => exact isPlain_textBinary meaning
  all_goals simp only [Option.some.injEq, Except.ok.injEq, reduceCtorEq] at meaning
  all_goals subst value; trivial

theorem Value.isPlain_unary {operator : UnaryOp} {operand : Value}
    (meaning : operand.unary operator = some (.ok value)) : value.IsPlain := by
  unfold Value.unary at meaning
  split at meaning <;> simp only [Option.some.injEq, Except.ok.injEq, reduceCtorEq] at meaning
  case h_1 => exact isPlain_checkedInt meaning
  all_goals subst value; trivial

end Plain

/-! ## Disciplines -/

/-- Which stores are in order, which values they may hold, and which stores may follow a store. -/
structure Discipline where
  obeys : Store → Prop
  allows : Store → Value → Prop
  follows : Store → Store → Prop

namespace Discipline

/-- A source whose elements are allowed. Those of an array are looked up when they are reached. -/
def Gives (discipline : Discipline) (store : Store) : IteratorSource → Prop
  | .items rest _ => ∀ value ∈ rest, discipline.allows store value
  | .elements array _ => discipline.allows store (.array array)
  | .range _ _ _ => True

/-- A discipline that the store, the writes of a program and the host obey. -/
structure Lawful (discipline : Discipline) (surroundings : Surroundings) : Prop where
  refl : ∀ {store}, discipline.obeys store → discipline.follows store store
  trans : ∀ {before middle after}, discipline.follows before middle →
    discipline.follows middle after → discipline.follows before after
  kept : ∀ {before after}, discipline.obeys before → discipline.follows before after →
    discipline.obeys after
  mono : ∀ {before after value}, discipline.follows before after →
    discipline.allows before value → discipline.allows after value
  plain : ∀ {store value}, value.IsPlain → discipline.allows store value
  element : ∀ {store id value}, discipline.obeys store → value ∈ store.array id →
    discipline.allows store value
  field : ∀ {store id field}, discipline.obeys store → field ∈ (store.object id).fields →
    discipline.allows store field.2
  current : ∀ {store id}, discipline.obeys store →
    discipline.allows store (store.iterator id).current
  source : ∀ {store id}, discipline.obeys store →
    discipline.Gives store (store.iterator id).source
  static : ∀ {store entry field}, discipline.obeys store → entry ∈ surroundings.registry.types →
    field ∈ entry.2.staticFields → discipline.allows store field.2
  host : ∀ {store function} (call : HostCall), discipline.obeys store →
    surroundings.registry.Offers function → (∀ value ∈ call.args, discipline.allows store value) →
    discipline.follows store (function.body call store).2 ∧
      ∀ value, (function.body call store).1 = .ok value →
        discipline.allows (function.body call store).2 value
  setElement : ∀ {store id value} (place : Nat), discipline.obeys store →
    discipline.allows store (.array id) → discipline.allows store value →
    discipline.follows store (store.setElement id place value)
  setField : ∀ {store value} (id : ObjectId) (name : String), discipline.obeys store →
    discipline.allows store value → discipline.follows store (store.setField id name value)
  setCell : ∀ {store value} (id : CellId), discipline.obeys store →
    discipline.allows store value → discipline.follows store (store.setCell id value)
  setIterator : ∀ {store} {state : IteratorState} (id : IteratorId), discipline.obeys store →
    discipline.allows store state.current → discipline.Gives store state.source →
    discipline.follows store (store.setIterator id state)
  entry : ∀ {store id entry}, discipline.obeys store →
    surroundings.program.lookup? (store.closure id).function.path
      (store.closure id).function.name = some entry →
    discipline.follows store (store.resolveClosure id entry)
  newArray : ∀ {store} {items : Array Value}, discipline.obeys store →
    (∀ value ∈ items, discipline.allows store value) →
    discipline.follows store (store.allocArray items).2 ∧
      discipline.allows (store.allocArray items).2 (.array (store.allocArray items).1)
  newIterator : ∀ {store source}, discipline.obeys store → discipline.Gives store source →
    discipline.follows store (store.allocIterator source).2 ∧
      discipline.allows (store.allocIterator source).2 (.iterator (store.allocIterator source).1)

/-- An effect that obeys: the store follows, and the value is allowed. -/
structure Keeps (discipline : Discipline) (store : Store)
    (result : Except RuntimeFault Value × Store) : Prop where
  follows : discipline.follows store result.2
  allows : ∀ value, result.1 = .ok value → discipline.allows result.2 value

namespace Lawful

variable {discipline : Discipline} {surroundings : Surroundings} {store : Store}
  (lawful : discipline.Lawful surroundings) (obeys : discipline.obeys store)

include lawful

section Arguments

variable {args : List Value}

theorem convert {param : HostParam} {fit : ParamMatch} {value : Value}
    (allowed : discipline.allows store value) :
    discipline.allows store (Overload.convert param fit value) := by
  unfold Overload.convert
  split
  · split
    · exact lawful.plain trivial
    · exact lawful.plain trivial
    · exact allowed
  · exact allowed

theorem convertArgs {params : List HostParam} {fits : List ParamMatch}
    (allowed : ∀ value ∈ args, discipline.allows store value) :
    ∀ value ∈ Overload.convertArgs params fits args, discipline.allows store value := by
  fun_induction Overload.convertArgs params fits args with
  | case1 param params fit fits value values ih =>
      intro other present
      rcases List.mem_cons.mp present with rfl | present
      · exact lawful.convert (allowed value List.mem_cons_self)
      · exact ih (fun rest restMem => allowed rest (List.mem_cons_of_mem _ restMem)) other present
  | case2 params fits values =>
      intro other present
      rcases List.mem_append.mp present with present | filler
      · exact allowed other present
      · rw [List.eq_of_mem_replicate filler]
        exact lawful.plain trivial

/-- A chosen overload is passed allowed values. -/
theorem resolveOverload {name : String} {candidates : List HostFunction}
    {hierarchy : TypeHierarchy} {resolved : Resolved}
    (chosen : ScriptMachine.resolveOverload name candidates args hierarchy store = .ok resolved)
    (allowed : ∀ value ∈ args, discipline.allows store value) :
    ∀ value ∈ resolved.call.args, discipline.allows store value := by
  unfold ScriptMachine.resolveOverload at chosen
  split at chosen
  · cases chosen
  · dsimp only at chosen
    split at chosen
    · rw [← Except.ok.inj chosen]
      exact lawful.convertArgs allowed
    · cases chosen

end Arguments

include obeys

theorem fault (fault : RuntimeFault) : discipline.Keeps store (.error fault, store) :=
  ⟨lawful.refl obeys, nofun⟩

theorem value {value : Value} (allowed : discipline.allows store value) :
    discipline.Keeps store (.ok value, store) :=
  ⟨lawful.refl obeys, fun _ same => Except.ok.inj same ▸ allowed⟩

theorem result {result : Except RuntimeFault Value}
    (allowed : ∀ value, result = .ok value → discipline.allows store value) :
    discipline.Keeps store (result, store) :=
  ⟨lawful.refl obeys, allowed⟩

/-! ## Host calls -/

variable {args : List Value}

theorem invoke {resolved : Resolved}
    (offered : surroundings.registry.Offers resolved.function)
    (allowed : ∀ value ∈ resolved.call.args, discipline.allows store value) :
    discipline.Keeps store (resolved.invoke store) := by
  rcases lawful.host resolved.call obeys offered allowed with ⟨follows, results⟩
  refine ⟨follows, ?_⟩
  intro value same
  apply results
  simp only [Resolved.invoke] at same
  cases outcome : (resolved.function.body resolved.call store).1 with
  | error error =>
      rw [outcome] at same
      cases same
  | ok other =>
      rw [outcome] at same
      cases same
      rfl

theorem callHost {name : String} {candidates : List HostFunction}
    (offered : ∀ function ∈ candidates, surroundings.registry.Offers function)
    (allowed : ∀ value ∈ args, discipline.allows store value) :
    discipline.Keeps store (Effect.callHost surroundings.registry name candidates args store) := by
  simp only [Effect.callHost, Effect.invoke]
  cases chosen : surroundings.registry.resolve store name candidates args with
  | error fault => exact lawful.fault obeys fault
  | ok resolved =>
      exact lawful.invoke obeys (offered _ (resolveOverload_mem chosen))
        (lawful.resolveOverload chosen allowed)

theorem callNamed {name : String} {binding : Option HostFunctionRef}
    (allowed : ∀ value ∈ args, discipline.allows store value) :
    discipline.Keeps store (Effect.callNamed surroundings.registry name binding args store) := by
  unfold Effect.callNamed
  cases found : binding.bind fun reference =>
    surroundings.registry.soleFunction? reference.name reference.signature with
  | some function =>
      refine lawful.callHost obeys ?_ allowed
      intro other present
      rw [List.mem_singleton.mp present]
      rcases Option.bind_eq_some_iff.mp found with ⟨reference, _, sole⟩
      exact Effect.offers_soleFunction sole
  | none =>
      simp only [Effect.invoke, Registry.resolveFunction]
      cases overloads : surroundings.registry.overloads name with
      | nil => exact lawful.fault obeys _
      | cons first rest =>
          have offered : ∀ function ∈ first :: rest, surroundings.registry.Offers function := by
            intro function present
            exact Effect.offers_overloads (overloads ▸ present)
          simpa only [Effect.callHost, Effect.invoke] using lawful.callHost obeys offered allowed

theorem callStatic {typeName name : String}
    (allowed : ∀ value ∈ args, discipline.allows store value) :
    discipline.Keeps store (Effect.callStatic surroundings.registry typeName name args store) := by
  unfold Effect.callStatic
  cases accessible : Step.accessibleType surroundings.registry typeName name with
  | error fault => exact lawful.fault obeys fault
  | ok type =>
      dsimp only
      cases overloads : type.staticOverloads name with
      | nil => exact lawful.fault obeys _
      | cons first rest =>
          refine lawful.callHost obeys ?_ allowed
          intro function present
          exact Effect.offers_of_type (Effect.accessibleType_ok accessible)
            (Effect.offers_staticOverloads (overloads ▸ present))

theorem callHostMember {name : String} {candidates : List HostFunction}
    (offered : ∀ function ∈ candidates, surroundings.registry.Offers function)
    (allowed : ∀ value ∈ args, discipline.allows store value) :
    discipline.follows store
        (Effect.callHostMember surroundings.registry name candidates args store).2 ∧
      ∀ member, (Effect.callHostMember surroundings.registry name candidates args store).1 =
          .ok member →
        discipline.allows
          (Effect.callHostMember surroundings.registry name candidates args store).2
          member.asValue := by
  have kept := @callHost _ _ _ lawful obeys args name candidates offered allowed
  unfold Effect.callHostMember
  rcases called : Effect.callHost surroundings.registry name candidates args store with
    ⟨_ | value, later⟩
  · rw [called] at kept
    exact ⟨kept.follows, nofun⟩
  · rw [called] at kept
    refine ⟨kept.follows, ?_⟩
    intro member same
    rw [← Except.ok.inj same]
    exact kept.allows value rfl

/-- What calling a member comes to is allowed. -/
theorem callMember {receiver : Value} {name : String}
    (allowed : ∀ value ∈ receiver :: args, discipline.allows store value) :
    discipline.follows store
        (Effect.callMember surroundings.registry receiver name args store).2 ∧
      ∀ member, (Effect.callMember surroundings.registry receiver name args store).1 =
          .ok member →
        discipline.allows (Effect.callMember surroundings.registry receiver name args store).2
          member.asValue := by
  cases receiver with
  | object id =>
      simp only [Effect.callMember]
      split
      · exact ⟨lawful.refl obeys, nofun⟩
      · cases methods : surroundings.registry.methods (store.object id).typeName name with
        | nil =>
            dsimp only
            split
            · rename_i closure found
              refine ⟨lawful.refl obeys, ?_⟩
              intro member same
              rw [← Except.ok.inj same]
              exact lawful.field obeys (Dictionary.mem_of_find? found)
            · exact ⟨lawful.refl obeys, nofun⟩
        | cons first rest =>
            refine lawful.callHostMember obeys ?_ allowed
            intro function present
            exact Effect.offers_methods (methods ▸ present)
  | _ =>
      simp only [Effect.callMember]
      cases overloads : surroundings.registry.overloads name with
      | nil => exact ⟨lawful.refl obeys, nofun⟩
      | cons first rest =>
          refine lawful.callHostMember obeys ?_ allowed
          intro function present
          exact Effect.offers_overloads (overloads ▸ present)

theorem binary {operator : BinaryOp} {left right : Value}
    (allowedLeft : discipline.allows store left) (allowedRight : discipline.allows store right) :
    discipline.Keeps store (Effect.binary surroundings.registry operator left right store) := by
  unfold Effect.binary
  cases overloads : surroundings.registry.operators store operator [left, right] with
  | nil =>
      dsimp only
      cases meaning : left.binary store operator right with
      | none => exact lawful.fault obeys _
      | some result =>
          refine lawful.result obeys ?_
          intro value same
          exact lawful.plain (Value.isPlain_binary (same ▸ meaning))
  | cons first rest =>
      refine lawful.callHost obeys ?_ ?_
      · intro function present
        exact Effect.offers_operators (overloads ▸ present)
      · simp [allowedLeft, allowedRight]

/-! ## Reading and writing -/

theorem unary {operator : UnaryOp} {operand : Value} :
    discipline.Keeps store (Effect.unary operator operand store) := by
  unfold Effect.unary
  cases meaning : operand.unary operator with
  | none =>
      cases operator with
      | neg => exact lawful.fault obeys _
      | not => exact lawful.value obeys (lawful.plain trivial)
  | some result =>
      refine lawful.result obeys ?_
      intro value same
      exact lawful.plain (Value.isPlain_unary (same ▸ meaning))

theorem loadStatic {typeName name : String} :
    discipline.Keeps store (Effect.loadStatic surroundings.registry typeName name store) := by
  unfold Effect.loadStatic
  cases accessible : Step.accessibleType surroundings.registry typeName name with
  | error fault => exact lawful.fault obeys fault
  | ok type =>
      dsimp only
      cases found : type.staticFields.find? name with
      | none => exact lawful.fault obeys _
      | some value =>
          exact lawful.value obeys (lawful.static obeys
            (Dictionary.mem_of_find? (Effect.accessibleType_ok accessible))
            (Dictionary.mem_of_find? found))

theorem loadField {target : Value} {name : String} :
    discipline.Keeps store (Effect.loadField surroundings.registry target name store) := by
  unfold Effect.loadField
  cases target with
  | object id =>
      dsimp only
      split
      · exact lawful.fault obeys _
      · cases found : (store.object id).fields.find? name with
        | none => exact lawful.fault obeys _
        | some value =>
            exact lawful.value obeys (lawful.field obeys (Dictionary.mem_of_find? found))
  | array id =>
      dsimp only
      split
      · exact lawful.value obeys (lawful.plain trivial)
      · exact lawful.fault obeys _
  | str text =>
      dsimp only
      split
      · exact lawful.value obeys (lawful.plain trivial)
      · exact lawful.fault obeys _
  | _ => exact lawful.fault obeys _

theorem elementOrUnit (id : ArrayId) (place : Nat) :
    discipline.allows store ((store.array id).getD place .unit) := by
  rw [Array.getD_eq_getD_getElem?]
  cases found : (store.array id)[place]? with
  | none => exact lawful.plain trivial
  | some value => exact lawful.element obeys (Array.mem_of_getElem? found)

/-- Reading an element. That of an array may be read whatever is known of the array. -/
theorem loadIndex {target index : Value}
    (allowedTarget : (∃ id, target = .array id) ∨ discipline.allows store target)
    (allowedIndex : discipline.allows store index) :
    discipline.Keeps store (Effect.loadIndex surroundings.registry target index store) := by
  unfold Effect.loadIndex
  cases target with
  | array id =>
      dsimp only
      cases Step.elementIndex store index (store.array id).size with
      | error fault => exact lawful.fault obeys fault
      | ok place => exact lawful.value obeys (lawful.elementOrUnit obeys id place)
  | str text =>
      dsimp only
      cases Step.elementIndex store index text.toList.length with
      | error fault => exact lawful.fault obeys fault
      | ok place =>
          refine lawful.value obeys (lawful.plain ?_)
          cases text.toList[place]? <;> trivial
  | object id =>
      dsimp only
      cases found : surroundings.registry.indexerGet? (store.object id).typeName with
      | none => exact lawful.fault obeys _
      | some getter =>
          have allowedObject := allowedTarget.resolve_left nofun
          refine lawful.callHost obeys ?_ ?_
          · intro function present
            rw [List.mem_singleton.mp present]
            exact Effect.offers_indexerGet found
          · simp [allowedObject, allowedIndex]
  | _ => exact lawful.fault obeys _

theorem storeField {target value : Value} {name : String}
    (allowed : discipline.allows store value) :
    discipline.follows store
      (Effect.storeField surroundings.registry target name value store).2 := by
  unfold Effect.storeField
  cases target with
  | object id =>
      dsimp only
      split
      · exact lawful.refl obeys
      · split
        · exact lawful.setField id name obeys allowed
        · exact lawful.refl obeys
  | _ => exact lawful.refl obeys

theorem storeIndex {target index value : Value} (allowedTarget : discipline.allows store target)
    (allowedIndex : discipline.allows store index) (allowed : discipline.allows store value) :
    discipline.follows store
      (Effect.storeIndex surroundings.registry target index value store).2 := by
  unfold Effect.storeIndex
  cases target with
  | array id =>
      dsimp only
      cases Step.elementIndex store index (store.array id).size with
      | error fault => exact lawful.refl obeys
      | ok place => exact lawful.setElement place obeys allowedTarget allowed
  | object id =>
      dsimp only
      cases found : surroundings.registry.indexerSet? (store.object id).typeName with
      | none => exact lawful.refl obeys
      | some setter =>
          dsimp only
          have offered : ∀ function ∈ [setter], surroundings.registry.Offers function := by
            intro function present
            rw [List.mem_singleton.mp present]
            exact Effect.offers_indexerSet found
          have kept := @callHost _ _ _ lawful obeys [.object id, index, value]
            ((store.object id).typeName ++ "[]=") [setter] offered
            (by simp [allowedTarget, allowedIndex, allowed])
          have follows := kept.follows
          rcases called : Effect.callHost surroundings.registry ((store.object id).typeName ++ "[]=")
            [setter] [.object id, index, value] store with ⟨_ | _, later⟩ <;>
          · rw [called] at follows
            exact follows
  | _ => exact lawful.refl obeys

theorem storeGlobal {name : Option String} {value : Value}
    (allowed : discipline.allows store value) :
    discipline.follows store (Effect.storeGlobal surroundings.registry name value store).2 := by
  unfold Effect.storeGlobal
  cases name with
  | none => exact lawful.refl obeys
  | some name =>
      dsimp only [Registry.setGlobal?]
      cases surroundings.registry.globals.find? name with
      | none => exact lawful.refl obeys
      | some cell => exact lawful.setCell cell obeys allowed

theorem resolveClosure {id : ClosureId} {argc : Nat} :
    discipline.follows store (Effect.resolveClosure surroundings.program id argc store).2 := by
  simp only [Effect.resolveClosure]
  split
  · exact lawful.refl obeys
  · split
    · exact lawful.refl obeys
    · rename_i entry found
      exact lawful.entry obeys found

/-! ## Iterators -/

theorem toIterator {value : Value} (allowed : discipline.allows store value) :
    discipline.Keeps store (value.toIterator store) := by
  unfold Value.toIterator
  cases value with
  | iterator id => exact lawful.value obeys allowed
  | array id =>
      have made := @newIterator _ _ lawful store (.elements id 0) obeys allowed
      exact ⟨made.1, fun other same => Except.ok.inj same ▸ made.2⟩
  | str text =>
      have made := @newIterator _ _ lawful store (.items (text.toList.map fun character =>
        Value.str (String.singleton character)) none) obeys ?_
      · exact ⟨made.1, fun other same => Except.ok.inj same ▸ made.2⟩
      · intro item itemMem
        rcases List.mem_map.mp itemMem with ⟨character, _, rfl⟩
        exact lawful.plain trivial
  | _ => exact lawful.fault obeys _

/-- What a source with allowed elements gives is allowed. -/
theorem advance {source : IteratorSource} (gives : discipline.Gives store source) :
    match source.advance store with
    | .element value next => discipline.allows store value ∧ discipline.Gives store next
    | .atEnd next => discipline.Gives store next
    | .failed _ => True := by
  unfold IteratorSource.advance
  cases source with
  | items rest failure =>
      cases rest with
      | nil =>
          cases failure with
          | none => exact gives
          | some error => trivial
      | cons value rest =>
          exact ⟨gives value List.mem_cons_self,
            fun other present => gives other (List.mem_cons_of_mem _ present)⟩
  | elements array next =>
      dsimp only
      cases found : (store.array array)[next]? with
      | none => exact gives
      | some value => exact ⟨lawful.element obeys (Array.mem_of_getElem? found), gives⟩
  | range next stop step =>
      cases next with
      | none => trivial
      | some value =>
          dsimp only
          generalize (if 0 < step.toInt then decide (stop.toInt ≤ value.toInt)
            else decide (value.toInt ≤ stop.toInt)) = finished
          cases finished
          · exact ⟨lawful.plain trivial, trivial⟩
          · trivial

theorem moveNext {id : IteratorId} :
    discipline.follows store (Effect.moveNext id store).2 := by
  have advanced := lawful.advance obeys (@source _ _ lawful store id obeys)
  simp only [Effect.moveNext, Store.advance]
  cases met : (store.iterator id).source.advance store with
  | failed error => exact lawful.refl obeys
  | atEnd source =>
      rw [met] at advanced
      exact lawful.setIterator id obeys (lawful.current obeys) advanced
  | element value source =>
      rw [met] at advanced
      exact lawful.setIterator id obeys advanced.1 advanced.2

end Lawful

end Discipline

end ScriptMachine
