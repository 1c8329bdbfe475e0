import ScriptMachine.Proofs.Engine.Anatomy
import ScriptMachine.Proofs.Engine.Closures
import ScriptMachine.Proofs.Engine.Turns
import ScriptMachine.Proofs.Value.Texts

/-!
# Private fields stay private

A host type declares some of its members private, and its heirs inherit that. Here the host has no
callables, so a script is all that acts. Two stores that differ in nothing but the values of private
fields cannot be told apart by a run: what it yields, how it ends and what it leaves in the store is
the same again, up to those fields. And a run changes no private field.

What a private field refers to lies in both stores alike; only whether the field refers to it may
differ.
-/

namespace ScriptMachine

/-- A host without callables. -/
def Registry.Silent (registry : Registry) : Prop := ∀ function, ¬ registry.Offers function

/-- Two objects that differ in no more than the values of private fields. -/
structure HostObject.Alike (registry : Registry) (first second : HostObject) : Prop where
  typeName : second.typeName = first.typeName
  typeArgs : second.typeArgs = first.typeArgs
  names : second.fields.names = first.fields.names
  shown : ∀ name, registry.isPrivate first.typeName name = false →
    second.fields.find? name = first.fields.find? name

/-- Two stores that differ in no more than the values of private fields. -/
structure Store.Alike (registry : Registry) (first second : Store) : Prop where
  rest : second = { first with objects := second.objects }
  count : second.objects.size = first.objects.size
  objects : ∀ id, HostObject.Alike registry (first.object id) (second.object id)

/-- Every private field is as it was. -/
structure Store.KeepsPrivate (registry : Registry) (before after : Store) : Prop where
  typeName : ∀ id, (after.object id).typeName = (before.object id).typeName
  secret : ∀ id name, registry.isPrivate (before.object id).typeName name = true →
    (after.object id).fields.find? name = (before.object id).fields.find? name

section Relations

variable {registry : Registry} {first second before middle after : Store}

theorem HostObject.Alike.symm {first second : HostObject} (alike : first.Alike registry second) :
    second.Alike registry first where
  typeName := alike.typeName.symm
  typeArgs := alike.typeArgs.symm
  names := alike.names.symm
  shown name visible := (alike.shown name (alike.typeName ▸ visible)).symm

namespace Store

theorem Alike.symm (alike : first.Alike registry second) : second.Alike registry first where
  rest := by rw [alike.rest]
  count := alike.count.symm
  objects id := (alike.objects id).symm

theorem KeepsPrivate.ofObjects (same : after.objects = before.objects) :
    before.KeepsPrivate registry after where
  typeName id := by rw [object, same, object]
  secret id name _ := by rw [object, same, object]

theorem KeepsPrivate.refl : before.KeepsPrivate registry before := .ofObjects rfl

theorem KeepsPrivate.trans (one : before.KeepsPrivate registry middle)
    (two : middle.KeepsPrivate registry after) : before.KeepsPrivate registry after where
  typeName id := (two.typeName id).trans (one.typeName id)
  secret id name hidden :=
    (two.secret id name ((one.typeName id).symm ▸ hidden)).trans (one.secret id name hidden)

end Store

end Relations

/-! ## A host without callables -/

namespace Registry.Silent

variable {registry : Registry}

theorem overloads (silent : registry.Silent) (name : String) : registry.overloads name = [] :=
  List.eq_nil_iff_forall_not_mem.mpr fun _ present => silent _ (Effect.offers_overloads present)

theorem soleFunction? (silent : registry.Silent) (name : String) (signature : List TypeRef) :
    registry.soleFunction? name signature = none := by
  rw [Registry.soleFunction?, silent.overloads]

theorem methods (silent : registry.Silent) (typeName name : String) :
    registry.methods typeName name = [] :=
  List.eq_nil_iff_forall_not_mem.mpr fun _ present => silent _ (Effect.offers_methods present)

theorem staticOverloads (silent : registry.Silent) {typeName : String} {type : HostType}
    (found : registry.type? typeName = some type) (name : String) :
    type.staticOverloads name = [] :=
  List.eq_nil_iff_forall_not_mem.mpr fun _ present =>
    silent _ (Effect.offers_of_type found (Effect.offers_staticOverloads present))

theorem indexerGet? (silent : registry.Silent) (typeName : String) :
    registry.indexerGet? typeName = none :=
  Option.eq_none_iff_forall_ne_some.mpr fun _ found => silent _ (Effect.offers_indexerGet found)

theorem indexerSet? (silent : registry.Silent) (typeName : String) :
    registry.indexerSet? typeName = none :=
  Option.eq_none_iff_forall_ne_some.mpr fun _ found => silent _ (Effect.offers_indexerSet found)

theorem operators (silent : registry.Silent) (store : Store) (operator : BinaryOp)
    (operands : List Value) : registry.operators store operator operands = [] :=
  List.eq_nil_iff_forall_not_mem.mpr fun _ present => silent _ (Effect.offers_operators present)

end Registry.Silent

/-! ## Values of stores that differ in objects -/

section Objects

variable {store : Store} {objects : Array HostObject}

/-- The store with other objects, which have the types of the ones before. -/
def Store.Retyped (store : Store) (objects : Array HostObject) : Prop :=
  ∀ id, ({ store with objects := objects }.object id).typeName = (store.object id).typeName

namespace Value

theorem typeName_objects (same : store.Retyped objects) (value : Value) :
    value.typeName { store with objects := objects } = value.typeName store := by
  cases value with
  | object id => exact same id
  | _ => rfl

theorem display_objects (same : store.Retyped objects) (value : Value) :
    value.display { store with objects := objects } = value.display store := by
  have alike : Store.LooksLike { store with objects := objects } store Eq Eq := by
    refine ⟨?_, ?_, ?_⟩
    · rintro _ _ _ _ rfl rfl
      exact Iff.rfl
    · rintro id _ rfl
      exact List.forall₂_same.mpr fun _ _ => rfl
    · rintro value _ rfl
      rcases value.flat_or_array with flat | ⟨id, rfl⟩
      · refine .inr ⟨flat, flat, fun form => ?_⟩
        cases value with
        | object id => cases form <;> simp only [surface, same id]
        | _ => cases form <;> rfl
      · exact .inl ⟨id, id, rfl, rfl, rfl⟩
  exact alike.text_eq .plain rfl

theorem equalWithin_objects (bound : Nat) (left right : Value) :
    left.equalWithin { store with objects := objects } bound right =
      left.equalWithin store bound right := by
  induction bound generalizing left right with
  | zero => cases left <;> cases right <;> rfl
  | succ bound ih =>
      cases left with
      | array first =>
          cases right with
          | array second =>
              simp only [equalWithin, ih]
              rfl
          | _ => rfl
      | _ => cases right <;> rfl

theorem binary_objects (same : store.Retyped objects) (operator : BinaryOp) (left right : Value) :
    left.binary { store with objects := objects } operator right =
      left.binary store operator right := by
  have equal (left right : Value) :
      left.equal { store with objects := objects } right = left.equal store right :=
    equalWithin_objects _ left right
  unfold Value.binary
  simp only [equal, display_objects same]

end Value

end Objects

namespace Effect

variable {α : Type} {registry : Registry} {program : Program} {effect : Effect α}

/-- An effect that looks at nothing of objects but their types, and changes none. -/
def Nominal (effect : Effect α) : Prop :=
  ∀ (store : Store) (objects : Array HostObject), store.Retyped objects →
    effect { store with objects := objects } =
      ((effect store).1, { (effect store).2 with objects := objects })

/-- An effect that cannot tell two stores apart, and changes no private field. -/
def Discreet (registry : Registry) (effect : Effect α) : Prop :=
  ∀ first second : Store, first.Alike registry second →
    ∃ after, effect second = ((effect first).1, after) ∧
      (effect first).2.Alike registry after ∧ first.KeepsPrivate registry (effect first).2

theorem Nominal.discreet (nominal : Nominal effect) : Discreet registry effect := by
  intro first second alike
  have same : first.Retyped second.objects := fun id => by
    have typeName := (alike.objects id).typeName
    rw [alike.rest] at typeName
    exact typeName
  have kept : (effect first).2.objects = first.objects :=
    congrArg (fun result => result.2.objects) (nominal first first.objects fun _ => rfl)
  have looked := nominal first second.objects same
  rw [← alike.rest] at looked
  refine ⟨_, looked, ⟨rfl, ?_, fun id => ?_⟩, .ofObjects kept⟩
  · rw [kept]
    exact alike.count
  · have objects := alike.objects id
    rw [Store.object, Store.object] at objects ⊢
    rw [kept]
    exact objects

/-! ## Effects of a silent host -/

theorem nominal_read {look : Store → α}
    (same : ∀ (store : Store) (objects : Array HostObject), store.Retyped objects →
      look { store with objects := objects } = look store) : Nominal (read look) := by
  intro store objects retyped
  rw [read, same store objects retyped]
  rfl

theorem nominal_callNamed (silent : registry.Silent) (name : String)
    (binding : Option HostFunctionRef) (args : List Value) :
    Nominal (callNamed registry name binding args) := by
  intro store objects _
  have free : (binding.bind fun reference =>
      registry.soleFunction? reference.name reference.signature) = none := by
    simp [silent.soleFunction?]
  rw [callNamed, free]
  simp only [invoke, Registry.resolveFunction, silent.overloads]

theorem nominal_callStatic (silent : registry.Silent) (typeName name : String)
    (args : List Value) : Nominal (callStatic registry typeName name args) := by
  intro store objects _
  unfold callStatic
  cases accessible : Step.accessibleType registry typeName name with
  | error fault => rfl
  | ok type => simp only [silent.staticOverloads (accessibleType_ok accessible)]

theorem nominal_loadStatic (typeName name : String) :
    Nominal (loadStatic registry typeName name) := by
  intro store objects _
  unfold loadStatic
  cases Step.accessibleType registry typeName name with
  | error fault => rfl
  | ok type =>
      dsimp only
      cases type.staticFields.find? name <;> rfl

theorem nominal_resolveClosure (id : ClosureId) (argc : Nat) :
    Nominal (resolveClosure program id argc) := by
  intro store objects _
  have closure : ({ store with objects := objects } : Store).closure id = store.closure id := rfl
  simp only [resolveClosure, closure]
  cases (store.closure id).resolved with
  | some entry => rfl
  | none =>
      dsimp only
      cases program.lookup? (store.closure id).function.path (store.closure id).function.name <;>
        rfl

theorem nominal_binary (silent : registry.Silent) (operator : BinaryOp) (left right : Value) :
    Nominal (binary registry operator left right) := by
  intro store objects same
  simp only [binary, silent.operators, Value.binary_objects same, Value.typeName_objects same]
  cases left.binary store operator right <;> rfl

theorem nominal_unary (operator : UnaryOp) (operand : Value) : Nominal (unary operator operand) := by
  intro store objects same
  simp only [unary, Value.typeName_objects same]
  cases operand.unary operator with
  | some result => rfl
  | none => cases operator <;> rfl

theorem nominal_loadIndex (silent : registry.Silent) (target index : Value) :
    Nominal (loadIndex registry target index) := by
  intro store objects same
  have place (length : Nat) : Step.elementIndex { store with objects := objects } index length =
      Step.elementIndex store index length := by
    simp only [Step.elementIndex, Value.typeName_objects same]
  cases target with
  | array id =>
      have items : ({ store with objects := objects } : Store).array id = store.array id := rfl
      simp only [loadIndex, place, items]
      cases Step.elementIndex store index (store.array id).size <;> rfl
  | str text =>
      simp only [loadIndex, place]
      cases Step.elementIndex store index text.toList.length <;> rfl
  | object id => simp only [loadIndex, silent.indexerGet?, same id]
  | _ => rfl

theorem nominal_storeIndex (silent : registry.Silent) (target index value : Value) :
    Nominal (storeIndex registry target index value) := by
  intro store objects same
  have place (length : Nat) : Step.elementIndex { store with objects := objects } index length =
      Step.elementIndex store index length := by
    simp only [Step.elementIndex, Value.typeName_objects same]
  cases target with
  | array id =>
      have items : ({ store with objects := objects } : Store).array id = store.array id := rfl
      simp only [storeIndex, place, items]
      cases Step.elementIndex store index (store.array id).size <;> rfl
  | object id => simp only [storeIndex, silent.indexerSet?, same id]
  | _ => rfl

theorem nominal_toIterator (value : Value) : Nominal value.toIterator := by
  intro store objects same
  cases value with
  | object id => simp only [Value.toIterator, Value.typeName_objects same]
  | _ => rfl

theorem nominal_moveNext (id : IteratorId) : Nominal (moveNext id) := by
  intro store objects _
  have advanced : (store.iterator id).source.advance { store with objects := objects } =
      (store.iterator id).source.advance store := by
    cases (store.iterator id).source <;> rfl
  have state : ({ store with objects := objects } : Store).iterator id = store.iterator id := rfl
  simp only [moveNext, Store.advance, state, advanced]
  cases (store.iterator id).source.advance store <;> rfl

theorem nominal_storeGlobal (name : Option String) (value : Value) :
    Nominal (storeGlobal registry name value) := by
  intro store objects _
  cases name with
  | none => rfl
  | some name =>
      simp only [storeGlobal, Registry.setGlobal?]
      cases registry.globals.find? name <;> rfl

/-! ## Fields -/

/-- An effect that leaves both stores as they are is discreet, if its results agree. -/
theorem discreet_of_same {first second : Store} (alike : first.Alike registry second)
    {result other : Except RuntimeFault α} (same : other = result) :
    ∃ after, (other, second) = (result, after) ∧ first.Alike registry after ∧
      first.KeepsPrivate registry first :=
  ⟨second, by rw [same], alike, .refl⟩

theorem discreet_loadField (target : Value) (name : String) :
    Discreet registry (loadField registry target name) := by
  cases target with
  | object id =>
      intro first second alike
      have object := alike.objects id
      simp only [loadField, object.typeName]
      cases hidden : registry.isPrivate (first.object id).typeName name with
      | true => exact discreet_of_same alike rfl
      | false =>
          rw [object.shown name hidden]
          cases (first.object id).fields.find? name with
          | none => exact discreet_of_same alike rfl
          | some value => exact discreet_of_same alike rfl
  | array id =>
      refine Nominal.discreet fun store objects _ => ?_
      simp only [loadField]
      split <;> rfl
  | str text =>
      refine Nominal.discreet fun store objects _ => ?_
      simp only [loadField]
      split <;> rfl
  | _ => exact Nominal.discreet fun _ _ _ => rfl

theorem discreet_callMember (silent : registry.Silent) (receiver : Value) (name : String)
    (args : List Value) : Discreet registry (callMember registry receiver name args) := by
  cases receiver with
  | object id =>
      intro first second alike
      have object := alike.objects id
      simp only [callMember, object.typeName, silent.methods]
      cases hidden : registry.isPrivate (first.object id).typeName name with
      | true => exact discreet_of_same alike rfl
      | false =>
          rw [object.shown name hidden]
          cases (first.object id).fields.find? name with
          | none => exact discreet_of_same alike rfl
          | some value => cases value <;> exact discreet_of_same alike rfl
  | _ =>
      refine Nominal.discreet fun store objects _ => ?_
      simp only [callMember, silent.overloads]
      rfl

/-- Writing the same field keeps two objects alike. -/
theorem alike_insert {first second : HostObject} (alike : first.Alike registry second)
    (name : String) (value : Value) :
    HostObject.Alike registry { first with fields := first.fields.insert name value }
      { second with fields := second.fields.insert name value } where
  typeName := alike.typeName
  typeArgs := alike.typeArgs
  names := Dictionary.names_insert alike.names
  shown other visible := by
    change (second.fields.insert name value).find? other = (first.fields.insert name value).find? other
    rw [Dictionary.find?_insert, Dictionary.find?_insert, alike.shown other visible]

theorem alike_setField {first second : Store} (alike : first.Alike registry second) (id : ObjectId)
    (name : String) (value : Value) :
    (first.setField id name value).Alike registry (second.setField id name value) where
  rest := by rw [alike.rest]; rfl
  count := by simp [Store.setField, alike.count]
  objects other := by
    rw [Store.object_setField, Store.object_setField, alike.count]
    split
    · exact alike_insert (alike.objects other) name value
    · exact alike.objects other

theorem keeps_setField {store : Store} {id : ObjectId} {name : String} (value : Value)
    (visible : registry.isPrivate (store.object id).typeName name = false) :
    store.KeepsPrivate registry (store.setField id name value) where
  typeName other := by
    rw [Store.object_setField]
    split <;> rfl
  secret other field hidden := by
    rw [Store.object_setField]
    split
    · rename_i here
      have same : other = id := by
        cases other
        cases id
        exact congrArg _ here.1
      have differs : field ≠ name := by
        rintro rfl
        rw [same, visible] at hidden
        cases hidden
      change ((store.object other).fields.insert name value).find? field = _
      rw [Dictionary.find?_insert, if_neg differs]
    · rfl

theorem discreet_storeField (target : Value) (name : String) (value : Value) :
    Discreet registry (storeField registry target name value) := by
  cases target with
  | object id =>
      intro first second alike
      have object := alike.objects id
      simp only [storeField, object.typeName, Dictionary.contains_names, object.names]
      cases hidden : registry.isPrivate (first.object id).typeName name with
      | true => exact discreet_of_same alike rfl
      | false =>
          cases (first.object id).fields.names.contains name with
          | false => exact discreet_of_same alike rfl
          | true => exact ⟨_, rfl, alike_setField alike id name value, keeps_setField value hidden⟩
  | _ => exact Nominal.discreet fun _ _ _ => rfl

/-- A silent host leaves a program no effect that looks into private fields. -/
theorem Used.discreet {surroundings : Surroundings} (silent : surroundings.registry.Silent)
    (used : effect.Used surroundings) : Discreet surroundings.registry effect := by
  cases used with
  | typeName value =>
      exact (nominal_read fun _ _ same => Value.typeName_objects same value).discreet
  | captures id => exact (nominal_read fun _ _ _ => rfl).discreet
  | current id => exact (nominal_read fun _ _ _ => rfl).discreet
  | global name => exact (nominal_read fun _ _ _ => rfl).discreet
  | storeGlobal name value => exact (nominal_storeGlobal name value).discreet
  | binary operator left right => exact (nominal_binary silent operator left right).discreet
  | unary operator operand => exact (nominal_unary operator operand).discreet
  | callNamed name binding args => exact (nominal_callNamed silent name binding args).discreet
  | callStatic typeName name args => exact (nominal_callStatic silent typeName name args).discreet
  | loadStatic typeName name => exact (nominal_loadStatic typeName name).discreet
  | callMember receiver name args => exact discreet_callMember silent receiver name args
  | resolveClosure id argc => exact (nominal_resolveClosure id argc).discreet
  | makeClosure function captures => exact Nominal.discreet fun _ _ _ => rfl
  | loadField target name => exact discreet_loadField target name
  | storeField target name value => exact discreet_storeField target name value
  | loadIndex target index => exact (nominal_loadIndex silent target index).discreet
  | storeIndex target index value => exact (nominal_storeIndex silent target index value).discreet
  | makeArray items => exact Nominal.discreet fun _ _ _ => rfl
  | toIterator value => exact (nominal_toIterator value).discreet
  | moveNext id => exact (nominal_moveNext id).discreet

end Effect

/-! ## Steps -/

/-- An action that cannot tell two stores apart, and changes no private field. -/
def Step.Discreet {α : Type} (registry : Registry) (action : Step α) : Prop :=
  ∀ (machine : Machine) (other : Store), machine.store.Alike registry other →
    ∃ after, action.run { machine with store := other } =
        ((action.run machine).1, { (action.run machine).2 with store := after }) ∧
      (action.run machine).2.store.Alike registry after ∧
      machine.store.KeepsPrivate registry (action.run machine).2.store

namespace Step.Discreet

variable {α β : Type} {registry : Registry} {surroundings : Surroundings}

theorem ofBlind {action : Step α} (blind : Step.Blind action) : Step.Discreet registry action := by
  intro machine other alike
  have kept := blind.keeps machine
  exact ⟨other, blind machine other, kept.symm ▸ alike, .ofObjects (congrArg Store.objects kept)⟩

theorem bind {first : Step α} {next : α → Step β} (one : Step.Discreet registry first)
    (two : ∀ value, Step.Discreet registry (next value)) :
    Step.Discreet registry (first >>= next) := by
  intro machine other alike
  rcases one machine other alike with ⟨middle, ran, alikeMiddle, keeps⟩
  rw [Step.run_bind, Step.run_bind, ran]
  generalize first.run machine = result at alikeMiddle keeps
  rcases result with ⟨fault | value, later⟩
  · exact ⟨middle, rfl, alikeMiddle, keeps⟩
  · rcases two value later middle alikeMiddle with ⟨after, same, alikeAfter, keepsOn⟩
    exact ⟨after, same, alikeAfter, keeps.trans keepsOn⟩

theorem onStore {effect : Effect α} (discreet : effect.Discreet registry) :
    Step.Discreet registry (Step.onStore effect) := by
  intro machine other alike
  rcases discreet machine.store other alike with ⟨after, same, alikeAfter, keeps⟩
  refine ⟨after, ?_, alikeAfter, keeps⟩
  rw [Step.run_onStore, Step.run_onStore, same]

theorem rules (silent : surroundings.registry.Silent) :
    Step.Rules surroundings (Step.Discreet surroundings.registry) :=
  Step.Blind.rules ofBlind bind fun used => onStore (used.discreet silent)

end Step.Discreet

/-! ## Turns -/

/-- The second turn is the first with another store, which cannot be told from the first one's; and
the first changes no private field of a store. -/
structure Turn.Discreet (registry : Registry) (before : Store) (first second : Turn) : Prop where
  same : second = { first with store := second.store }
  alike : first.store.Alike registry second.store
  keeps : before.KeepsPrivate registry first.store

namespace Engine

variable {program : Program} {registry : Registry} {engine : Engine} {first second : Store}

theorem execute_discreet (silent : registry.Silent) (traced : Option String) (bound : Nat)
    (machine : Machine) (trace : List String) (alike : machine.store.Alike registry second) :
    let ran := execute ⟨program, registry⟩ traced bound machine trace
    ∃ after, execute ⟨program, registry⟩ traced bound { machine with store := second } trace =
        (ran.1, { ran.2.1 with store := after }, ran.2.2) ∧
      ran.2.1.store.Alike registry after ∧ machine.store.KeepsPrivate registry ran.2.1.store := by
  induction bound generalizing machine second trace with
  | zero => exact ⟨second, rfl, alike, .refl⟩
  | succ bound ih =>
      simp only [execute]
      cases program.instructions[machine.ip]? with
      | none => exact ⟨second, rfl, alike, .refl⟩
      | some instruction =>
          have rules := @Step.Discreet.rules ⟨program, registry⟩ silent
          rcases rules.step instruction { machine with ip := machine.ip + 1 } second alike with
            ⟨middle, stepped, alikeMiddle, keeps⟩
          dsimp only at stepped ⊢
          rw [stepped]
          generalize (step ⟨program, registry⟩ instruction).run { machine with ip := machine.ip + 1 } =
            result at alikeMiddle keeps
          rcases result with ⟨fault | control, later⟩
          · exact ⟨middle, rfl, alikeMiddle, keeps⟩
          · cases control with
            | next =>
                rcases ih later _ alikeMiddle with ⟨after, same, alikeAfter, keepsOn⟩
                exact ⟨after, same, alikeAfter, keeps.trans keepsOn⟩
            | yielded value => exact ⟨middle, rfl, alikeMiddle, keeps⟩
            | completed value => exact ⟨middle, rfl, alikeMiddle, keeps⟩

theorem turnOf_discreet {before after : Store} {events : List TelemetryEvent}
    {result other : TurnOutcome × Machine × List String}
    (same : other = (result.1, { result.2.1 with store := after }, result.2.2))
    (alike : result.2.1.store.Alike registry after)
    (keeps : before.KeepsPrivate registry result.2.1.store) :
    (engine.turnOf events result).Discreet registry before (engine.turnOf events other) := by
  rcases result with ⟨outcome, machine, trace⟩
  subst same
  cases outcome <;> exact ⟨rfl, alike, keeps⟩

theorem run_discreet (silent : registry.Silent) (bound : Nat) (events : List TelemetryEvent)
    (alike : first.Alike registry second) :
    (engine.run bound registry first events).Discreet registry first
      (engine.run bound registry second events) := by
  rw [run_eq_turnOf, run_eq_turnOf]
  rcases @execute_discreet engine.program registry second silent
    (if engine.options.trace then some engine.entry else none) bound (engine.machine first) [] alike
    with ⟨after, same, alikeAfter, keeps⟩
  exact turnOf_discreet same alikeAfter keeps

theorem firstTurn_discreet (silent : registry.Silent) (bound : Nat) {before after : Store}
    {entered : Except RuntimeFault Unit × Machine} (alike : entered.2.store.Alike registry after)
    (keeps : before.KeepsPrivate registry entered.2.store) :
    (engine.firstTurn bound registry entered).Discreet registry before
      (engine.firstTurn bound registry (entered.1, { entered.2 with store := after })) := by
  rcases entered with ⟨fault | _, machine⟩
  · exact ⟨rfl, alike, keeps⟩
  · have ran := @run_discreet registry
      { engine.withMachine machine with state := .running } machine.store after silent bound
      [({ engine.withMachine machine with state := .running } : Engine).event .started none] alike
    exact ⟨ran.same, ran.alike, keeps.trans ran.keeps⟩

theorem start_discreet (silent : registry.Silent) (ready : engine.state = .ready) (bound : Nat)
    (path : List String) (name : String) (args : List Value)
    (alike : first.Alike registry second) :
    (engine.start bound registry first path name args).Discreet registry first
      (engine.start bound registry second path name args) := by
  have rules := @Step.Discreet.rules ⟨engine.program, registry⟩ silent
  rcases rules.enter (qualifiedName path name) path name args (engine.machine first) second alike
    with ⟨middle, entered, alikeMiddle, keeps⟩
  rw [start_of_ready ready, start_of_ready ready]
  change (Engine.firstTurn _ _ _ _).Discreet registry first (Engine.firstTurn _ _ _
    ((enter _ _ _ _ _).run { engine.machine first with store := second }))
  rw [entered]
  exact firstTurn_discreet silent bound alikeMiddle keeps

theorem resume_discreet (silent : registry.Silent) (bound : Nat)
    (alike : first.Alike registry second) :
    (engine.resume bound registry first).Discreet registry first
      (engine.resume bound registry second) := by
  by_cases suspended : engine.state = .suspended
  · rw [resume_of_suspended suspended, resume_of_suspended suspended]
    exact run_discreet silent bound _ alike
  · have refused (store : Store) : engine.resume bound registry store = engine.refuse store :=
      if_pos suspended
    rw [refused, refused]
    exact ⟨rfl, alike, .refl⟩

/-- An engine that is driven on against two stores that are alike goes the same way. -/
theorem drive_discreet (silent : registry.Silent) (bound turns : Nat) {before : Store}
    {turn other : Turn} (discreet : turn.Discreet registry before other) :
    (Turn.drive bound registry turns other).1 = (Turn.drive bound registry turns turn).1 ∧
      (Turn.drive bound registry turns turn).2.Discreet registry before
        (Turn.drive bound registry turns other).2 := by
  induction turns generalizing before turn other with
  | zero => exact ⟨rfl, discreet⟩
  | succ turns ih =>
      have outcome : other.outcome = turn.outcome := by
        rw [discreet.same]
      have engine : other.engine = turn.engine := by
        rw [discreet.same]
      unfold Turn.drive
      rw [outcome, engine]
      cases turn.outcome with
      | yielded value =>
          have resumed := @resume_discreet registry turn.engine turn.store other.store silent bound
            discreet.alike
          rcases ih resumed with ⟨yielded, last⟩
          exact ⟨congrArg (value :: ·) yielded, last.same, last.alike, discreet.keeps.trans last.keeps⟩
      | completed value => exact ⟨rfl, discreet⟩
      | faulted report => exact ⟨rfl, discreet⟩
      | unfinished => exact ⟨rfl, discreet⟩

/-- No run tells what is in private fields. Against two stores that differ in nothing else, a
function yields the same and ends the same, the stores it leaves differ in nothing else, and private
fields are as they were. -/
theorem private_fields_hidden (silent : registry.Silent) (alike : first.Alike registry second)
    (program : Program) (options : RunOptions) (path : List String) (name : String)
    (args : List Value) (bound turns : Nat) :
    let run (store : Store) := Turn.drive bound registry turns
      ((create program options).start bound registry store path name args)
    (run second).1 = (run first).1 ∧
      (run second).2 = { (run first).2 with store := (run second).2.store } ∧
      (run first).2.store.Alike registry (run second).2.store ∧
      first.KeepsPrivate registry (run first).2.store ∧
      second.KeepsPrivate registry (run second).2.store := by
  have there := @start_discreet registry (create program options) first second silent rfl bound path
    name args alike
  have back := @start_discreet registry (create program options) second first silent rfl bound path
    name args alike.symm
  rcases drive_discreet silent bound turns there with ⟨yielded, last⟩
  exact ⟨yielded, last.same, last.alike, last.keeps, (drive_discreet silent bound turns back).2.keeps⟩

end Engine

namespace Sample

/-- A host with a type that has a private field, and nothing to call. -/
def guarded : Registry := Registry.empty.registerType ((HostType.ofName "Account").withPrivate "pin")

def account (pin : Int64) : Store :=
  { Store.empty with
    objects := #[⟨"Account", [], [("owner", .str "Ada"), ("pin", .int pin)]⟩] }

/-- A function that gives an account's owner and then tries to look at its pin. -/
def curious : Program where
  instructions := #[.loadLocal 0, .loadField "owner", .yieldValue, .loadLocal 0, .loadField "pin",
    .returnValue 1]
  namespaces := .mk [("main", ⟨0, 1⟩)] []
  globals := []
  metadata := []

theorem silent_guarded : guarded.Silent := by
  rintro function (⟨_, present, _⟩ | ⟨entry, present, offered⟩)
  · cases present
  · cases List.mem_singleton.mp present
    rcases offered with ⟨_, none, _⟩ | ⟨_, none, _⟩ | none | none | ⟨_, none⟩ <;> cases none

theorem pin_private : guarded.isPrivate "Account" "pin" = true := by
  have found : guarded.types.find? "Account" = some ((HostType.ofName "Account").withPrivate "pin") :=
    rfl
  rw [Registry.isPrivate, Registry.lineage, Registry.lineageIn]
  split
  · rename_i missing
    cases found.symm.trans missing
  · rename_i type present
    cases found.symm.trans present
    rfl

theorem alike_account (one two : Int64) : (account one).Alike guarded (account two) where
  rest := rfl
  count := rfl
  objects id := by
    rcases id with ⟨_ | place⟩
    · refine ⟨rfl, rfl, rfl, fun name visible => ?_⟩
      have differs : "pin" ≠ name := by
        rintro rfl
        cases pin_private.symm.trans visible
      simp [account, Store.object, Dictionary.find?, differs]
    · exact ⟨rfl, rfl, rfl, fun _ _ => rfl⟩

end Sample

open Sample in
theorem Engine.private_fields_hidden_account :
    guarded.Silent ∧ (account 1).Alike guarded (account 2) ∧
      (Turn.drive 10 guarded 3 ((create curious ⟨10, false⟩).start 10 guarded (account 2) [] "main"
          [.object ⟨0⟩])).1 =
        (Turn.drive 10 guarded 3 ((create curious ⟨10, false⟩).start 10 guarded (account 1) [] "main"
          [.object ⟨0⟩])).1 :=
  ⟨silent_guarded, alike_account 1 2,
    (private_fields_hidden silent_guarded (alike_account 1 2) curious ⟨10, false⟩ [] "main"
      [.object ⟨0⟩] 10 3).1⟩

end ScriptMachine
