import ScriptMachine.Host.Registry
import ScriptMachine.Proofs.Engine.Disciplines
import ScriptMachine.Proofs.Host.Selection
import ScriptMachine.Proofs.Value.PairLists

/-!
# What generic names are bound to

The generic names of a host function are bound while its parameters are matched with the types of
the arguments. Matching takes a type apart into its arguments, and where a parameter asks for a base
that the type or an ancestor declares, it goes on with the arguments of that base. It takes them as
they are declared, and does not put the arguments of the derived type in the place of its generic
names.

So what a name is bound to comes from the type of an argument or from the base of a type. It is free
of generic names in every call exactly if the declared bases are.
-/

namespace ScriptMachine

namespace TypeRef

mutual

/-- The generic names that occur in a type. -/
def generics : TypeRef → List String
  | .any | .named _ => []
  | .nullable inner => inner.generics
  | .generic name => [name]
  | .applied _ args => listGenerics args

def listGenerics : List TypeRef → List String
  | [] => []
  | item :: rest => item.generics ++ listGenerics rest

end

/-- No generic name occurs in the type. -/
def Concrete (type : TypeRef) : Prop := type.generics = []

theorem listGenerics_eq_nil_iff {types : List TypeRef} :
    listGenerics types = [] ↔ ∀ type ∈ types, type.Concrete := by
  induction types with
  | nil => simp [listGenerics]
  | cons first rest ih =>
      rw [listGenerics, List.append_eq_nil_iff, ih, List.forall_mem_cons]
      rfl

end TypeRef

namespace Overload

/-- The types that matching comes upon when it is given a type: it itself, arguments, and arguments
of declared bases. -/
inductive Meets (hierarchy : TypeHierarchy) (actual : TypeRef) : TypeRef → Prop
  | itself : Meets hierarchy actual actual
  | argument {base : String} {args : List TypeRef} {type : TypeRef}
      (meets : Meets hierarchy actual (.applied base args)) (member : type ∈ args) :
      Meets hierarchy actual type
  | inherited {derived type : TypeRef} {name base : String} {args : List TypeRef}
      (meets : Meets hierarchy actual derived) (named : derived.baseName? = some name)
      (declared : .applied base args ∈ hierarchy name) (member : type ∈ args) :
      Meets hierarchy actual type

/-- The generic names that a parameter has to bind to take a type: all of its own, but none if it is
nullable and takes unit. -/
def bindable (actual param : TypeRef) : List String :=
  match param with
  | .nullable inner => if actual.isUnit then [] else inner.generics
  | param => param.generics

/-- The generic names that a parameter has to bind to take a value. -/
def bindableBy (store : Store) (value : Value) (param : HostParam) : List String :=
  if value = .useDefault && param.optional then []
  else bindable (value.runtimeType store) param.type

/-- What matching some types does to the bindings: what was bound stays, what is new comes from the
types, and some names are bound in the end. -/
structure Adds (hierarchy : TypeHierarchy) (bindings : Bindings) (actuals : List TypeRef)
    (names : List String) (result : Bindings) : Prop where
  kept : ∀ name bound, bindings.find? name = some bound → result.find? name = some bound
  origin : ∀ entry ∈ result, entry ∈ bindings ∨ ∃ actual ∈ actuals, Meets hierarchy actual entry.2
  bound : ∀ name ∈ names, result.contains name

variable {hierarchy : TypeHierarchy} {bindings middle result : Bindings}
  {actual param : TypeRef} {actuals others : List TypeRef} {names more : List String}
  {fit : ParamMatch} {store : Store}

theorem Meets.trans {one two three : TypeRef} (first : Meets hierarchy one two)
    (second : Meets hierarchy two three) : Meets hierarchy one three := by
  induction second with
  | itself => exact first
  | argument _ member ih => exact .argument ih member
  | inherited _ named declared member ih => exact .inherited ih named declared member

namespace Adds

/-- Nothing is added where the names are bound already. -/
theorem refl (bound : ∀ name ∈ names, bindings.contains name) :
    Adds hierarchy bindings actuals names bindings where
  kept _ _ found := found
  origin _ member := .inl member
  bound := bound

theorem nil : Adds hierarchy bindings actuals [] bindings := refl fun _ none => nomatch none

theorem append (first : Adds hierarchy bindings actuals names middle)
    (second : Adds hierarchy middle others more result) :
    Adds hierarchy bindings (actuals ++ others) (names ++ more) result where
  kept name bound found := second.kept name bound (first.kept name bound found)
  origin entry member := by
    rcases second.origin entry member with member | ⟨type, among, meets⟩
    · rcases first.origin entry member with member | ⟨type, among, meets⟩
      · exact .inl member
      · exact .inr ⟨type, List.mem_append_left _ among, meets⟩
    · exact .inr ⟨type, List.mem_append_right _ among, meets⟩
  bound name member := by
    rcases List.mem_append.mp member with early | late
    · rcases Option.isSome_iff_exists.mp (first.bound name early) with ⟨bound, found⟩
      exact Option.isSome_iff_exists.mpr ⟨bound, second.kept name bound found⟩
    · exact second.bound name late

/-- Matching a type matches types that it meets. -/
theorem of_meets (adds : Adds hierarchy bindings others names result)
    (meets : ∀ other ∈ others, Meets hierarchy actual other) :
    Adds hierarchy bindings [actual] names result where
  kept := adds.kept
  origin entry member := (adds.origin entry member).imp_right fun ⟨other, among, type⟩ =>
    ⟨actual, List.mem_singleton_self actual, (meets other among).trans type⟩
  bound := adds.bound

/-- A name is bound to a type. -/
theorem insert {name : String} (missing : bindings.find? name = none) :
    Adds hierarchy bindings [actual] [name] (bindings.insert name actual) where
  kept other bound found := by
    have differ : other ≠ name := by
      rintro rfl
      cases missing.symm.trans found
    rw [Dictionary.find?_insert, if_neg differ, found]
  origin entry member := by
    rcases Dictionary.mem_insert member with rfl | member
    · exact .inr ⟨actual, List.mem_singleton_self actual, .itself⟩
    · exact .inl member
  bound other member := by
    cases List.mem_singleton.mp member
    rw [Dictionary.contains, Dictionary.find?_insert, if_pos rfl]
    rfl

end Adds

/-! ## Matching -/

theorem bindable_of_not_unit (notUnit : ¬actual.isUnit) :
    bindable actual param = param.generics := by
  cases param with
  | nullable inner => simp [bindable, notUnit, TypeRef.generics]
  | _ => rfl

theorem bindable_of_fit (matched : matchType hierarchy bindings actual param = some (fit, result))
    (category : fit.category = .exact ∨ fit.category = .generic) :
    bindable actual param = param.generics := by
  cases param with
  | nullable inner =>
      by_cases unit : actual.isUnit
      · rw [matchType, if_pos unit] at matched
        cases matched
        simp at category
      · exact bindable_of_not_unit unit
  | _ => rfl

theorem mem_of_ancestorArgs? {base : String} {distance nearest : Nat} {chain args : List TypeRef}
    (found : ancestorArgs? base distance chain = some (args, nearest)) :
    .applied base args ∈ chain := by
  fun_induction ancestorArgs? base distance chain with
  | case1 => cases found
  | case2 =>
      cases found
      exact List.mem_cons_self
  | case3 _ _ _ _ _ ih => exact List.mem_cons_of_mem _ (ih found)
  | case4 _ _ _ _ ih => exact List.mem_cons_of_mem _ (ih found)

/-- A generic type takes an instance of its own, or one of the nearest ancestor of its name. -/
theorem matchType_applied_cases {base : String} {args : List TypeRef}
    (matched : matchType hierarchy bindings actual (.applied base args) = some (fit, result)) :
    (∃ own allExact, actual = .applied base own ∧
      matchArgs hierarchy bindings own args = some (allExact, result) ∧
      fit = if allExact then ⟨.exact, 0⟩ else ⟨.generic, 1 + TypeRef.listConcreteness args⟩) ∨
    ∃ found distance allExact,
      (actual.baseName?.bind fun name => ancestorArgs? base 1 (hierarchy name)) =
        some (found, distance) ∧
      matchArgs hierarchy bindings found args = some (allExact, result) ∧
      fit = ⟨.genericUpcast, distance⟩ := by
  by_cases own : ∃ actualArgs, actual = .applied base actualArgs
  · rcases own with ⟨actualArgs, rfl⟩
    rw [matchType, if_pos rfl] at matched
    split at matched
    · cases matched
    · rename_i allExact _ found
      cases matched
      exact .inl ⟨actualArgs, allExact, rfl, found, rfl⟩
  · rcases declared : (actual.baseName?.bind fun name => ancestorArgs? base 1 (hierarchy name))
      with _ | ⟨found, distance⟩
    · cases actual <;> simp_all [matchType]
    · rcases same : matchArgs hierarchy bindings found args with _ | ⟨allExact, later⟩
      · cases actual <;> simp_all [matchType]
      · refine .inr ⟨found, distance, allExact, rfl, ?_⟩
        cases actual <;> simp_all [matchType]

/-- A generic type takes types that matching comes upon as its arguments. -/
theorem args_of_matchType {base : String} {args : List TypeRef}
    (matched : matchType hierarchy bindings actual (.applied base args) = some (fit, result)) :
    ∃ found allExact, (∀ type ∈ found, Meets hierarchy actual type) ∧
      matchArgs hierarchy bindings found args = some (allExact, result) := by
  rcases matchType_applied_cases matched with
    ⟨own, allExact, rfl, same, _⟩ | ⟨found, distance, allExact, declared, same, _⟩
  · exact ⟨own, allExact, fun type member => .argument .itself member, same⟩
  · refine ⟨found, allExact, fun type member => ?_, same⟩
    rcases Option.bind_eq_some_iff.mp declared with ⟨name, named, nearest⟩
    exact .inherited .itself named (mem_of_ancestorArgs? nearest) member

mutual

theorem adds_matchType : ∀ (param : TypeRef) {bindings result : Bindings} {actual : TypeRef}
    {fit : ParamMatch}, matchType hierarchy bindings actual param = some (fit, result) →
    Adds hierarchy bindings [actual] (bindable actual param) result
  | .any, _, _, _, _, matched => by
      rw [matchType] at matched
      cases matched
      exact .nil
  | .nullable inner, _, _, actual, _, matched => by
      rw [matchType] at matched
      split at matched
      · rename_i unit
        cases matched
        rw [bindable, if_pos unit]
        exact .nil
      · rename_i notUnit
        have outer : bindable actual (.nullable inner) = inner.generics :=
          bindable_of_not_unit notUnit
        rw [outer, ← bindable_of_not_unit notUnit]
        split at matched
        · cases matched
        · rename_i found
          cases matched
          exact adds_matchType inner found
  | .generic name, bindings, _, _, _, matched => by
      rw [matchType] at matched
      split at matched
      · cases matched
      · split at matched
        · rename_i bound found
          split at matched
          · cases matched
            refine .refl fun other member => ?_
            cases List.mem_singleton.mp member
            exact Option.isSome_iff_exists.mpr ⟨bound, found⟩
          · cases matched
        · rename_i missing
          cases matched
          exact .insert missing
  | .named expected, _, _, _, _, matched => by
      rw [matchType] at matched
      rcases Option.map_eq_some_iff.mp matched with ⟨found, _, same⟩
      cases same
      exact .nil
  | .applied base args, _, _, _, _, matched => by
      rcases args_of_matchType matched with ⟨found, allExact, meets, matched⟩
      exact (adds_matchArgs args matched).of_meets meets

theorem adds_matchArgs : ∀ (expecteds : List TypeRef) {bindings result : Bindings}
    {actuals : List TypeRef} {allExact : Bool},
    matchArgs hierarchy bindings actuals expecteds = some (allExact, result) →
    Adds hierarchy bindings actuals (TypeRef.listGenerics expecteds) result
  | [], _, _, [], _, matched => by
      rw [matchArgs] at matched
      cases matched
      exact .nil
  | [], _, _, _ :: _, _, matched => by
      simp [matchArgs] at matched
  | _ :: _, _, _, [], _, matched => by
      simp [matchArgs] at matched
  | expected :: expecteds, _, _, actual :: actuals, _, matched => by
      rw [matchArgs] at matched
      split at matched
      · cases matched
      · rename_i found
        split at matched
        · rename_i category
          split at matched
          · cases matched
          · rename_i others
            cases matched
            rw [TypeRef.listGenerics, ← bindable_of_fit found category]
            exact (adds_matchType expected found).append (adds_matchArgs expecteds others)
        · cases matched

end

/-- The first argument was left out, or its type fits the first parameter. The other arguments are
evaluated with what is bound then. -/
theorem evaluateArgs_cons {value : Value} {values : List Value} {param : HostParam}
    {params : List HostParam} {fits : List ParamMatch}
    (evaluated : evaluateArgs hierarchy store bindings (value :: values) (param :: params) =
      some (fits, result)) :
    ∃ fit middle others, fits = fit :: others ∧
      ((value = .useDefault ∧ param.optional ∧ middle = bindings) ∨
        (¬(value = .useDefault ∧ param.optional) ∧
          matchType hierarchy bindings (value.runtimeType store) param.type =
            some (fit, middle))) ∧
      evaluateArgs hierarchy store middle values params = some (others, result) := by
  rw [evaluateArgs] at evaluated
  split at evaluated
  · cases evaluated
  · rename_i fit middle matched
    rcases Option.map_eq_some_iff.mp evaluated with ⟨⟨others, _⟩, rest, same⟩
    cases same
    refine ⟨fit, middle, others, rfl, ?_, rest⟩
    split at matched
    · rename_i leftOut
      cases matched
      simp only [Bool.and_eq_true, decide_eq_true_eq] at leftOut
      exact .inl ⟨leftOut.1, leftOut.2, rfl⟩
    · rename_i given
      simp only [Bool.and_eq_true, decide_eq_true_eq] at given
      exact .inr ⟨given, matched⟩

theorem adds_evaluateArgs {values : List Value} {params : List HostParam}
    {fits : List ParamMatch}
    (evaluated : evaluateArgs hierarchy store bindings values params = some (fits, result)) :
    Adds hierarchy bindings (values.map fun value => value.runtimeType store)
      ((values.zip params).flatMap fun pair => bindableBy store pair.1 pair.2) result := by
  induction values generalizing params bindings fits with
  | nil =>
      rw [evaluateArgs] at evaluated
      · cases evaluated
        exact .nil
      · exact nofun
  | cons value values ih =>
      cases params with
      | nil =>
          rw [evaluateArgs] at evaluated
          · cases evaluated
            exact .nil
          · exact nofun
      | cons param params =>
          rcases evaluateArgs_cons evaluated with ⟨fit, middle, others, rfl, first, rest⟩
          have own : Adds hierarchy bindings [value.runtimeType store]
              (bindableBy store value param) middle := by
            rcases first with ⟨default, optional, rfl⟩ | ⟨given, matched⟩
            · rw [bindableBy, if_pos (by simp [default, optional])]
              exact .nil
            · rw [bindableBy, if_neg (by simpa using given)]
              exact adds_matchType param.type matched
          exact own.append (ih rest)

theorem adds_resolveOverload {name : String} {candidates : List HostFunction} {args : List Value}
    {resolved : Resolved}
    (chosen : resolveOverload name candidates args hierarchy store = .ok resolved) :
    Adds hierarchy [] (args.map fun value => value.runtimeType store)
      ((args.zip resolved.function.params).flatMap fun pair => bindableBy store pair.1 pair.2)
      resolved.call.typeArgs := by
  rcases exists_of_chosen chosen with ⟨function, _, fits, bindings, _, _, evaluated, rfl⟩
  exact adds_evaluateArgs evaluated

/-! ## Declared bases -/

/-- The arguments of the bases that types declare are free of generic names. -/
def ConcreteBases (hierarchy : TypeHierarchy) : Prop :=
  ∀ name base args, .applied base args ∈ hierarchy name → ∀ arg ∈ args, arg.Concrete

theorem Meets.concrete {type : TypeRef} (declared : ConcreteBases hierarchy)
    (concrete : actual.Concrete) (meets : Meets hierarchy actual type) : type.Concrete := by
  induction meets with
  | itself => exact concrete
  | argument _ member ih => exact TypeRef.listGenerics_eq_nil_iff.mp ih _ member
  | inherited _ _ present member _ => exact declared _ _ _ present _ member

/-- The types of the objects among some values have arguments without generic names. -/
def ConcreteObjects (store : Store) (values : List Value) : Prop :=
  ∀ id, .object id ∈ values → ∀ type ∈ (store.object id).typeArgs, type.Concrete

theorem ConcreteObjects.runtimeType {values : List Value} {value : Value}
    (concrete : ConcreteObjects store values) (member : value ∈ values) :
    (value.runtimeType store).Concrete := by
  cases value with
  | object id =>
      rw [Value.runtimeType]
      split
      · rfl
      · exact TypeRef.listGenerics_eq_nil_iff.mpr (concrete id member)
  | _ => rfl

theorem mem_baseChain {registry : Registry} {name : String} {declared : TypeRef}
    (member : declared ∈ registry.baseChain name) :
    ∃ entry ∈ registry.types, entry.2.base = some declared := by
  rcases List.mem_filterMap.mp member with ⟨type, ancestor, declares⟩
  rcases Registry.mem_of_mem_lineageIn ancestor with ⟨entry, registered, rfl⟩
  exact ⟨entry, registered, declares⟩

/-- The base that a type declares comes first. -/
theorem baseChain_eq_cons {registry : Registry} {name : String} {type : HostType}
    {declared : TypeRef} (registered : registry.type? name = some type)
    (declares : type.base = some declared) :
    ∃ behind, registry.baseChain name = declared :: behind := by
  rw [Registry.baseChain, Registry.lineage, Registry.lineageIn]
  split
  · rename_i missing
    cases missing.symm.trans registered
  · rename_i first found
    cases found.symm.trans registered
    exact ⟨_, List.filterMap_cons_some declares⟩

theorem ordered_types_foldl {registry : Registry} (ordered : registry.types.Ordered)
    (types : List HostType) : (types.foldl Registry.registerType registry).types.Ordered := by
  induction types generalizing registry with
  | nil => exact ordered
  | cons type types ih => exact ih ordered.insert

/-! ## Calls that bind what a base is declared with -/

/-- A parameter for each of some types: a generic name, but unit where nothing can be bound. -/
def openArgs (names : List String) (types : List TypeRef) : List TypeRef :=
  names.zipWith (fun name type => if type.isUnit then type else .generic name) types

theorem isUnit_iff {type : TypeRef} : type.isUnit ↔ type = .named "unit" := by
  cases type with
  | named name => simp [TypeRef.isUnit]
  | _ => simp [TypeRef.isUnit]

/-- Generic names that are not bound yet take any types, each its own. -/
theorem exists_matchArgs_open {types : List TypeRef} (apart : names.Nodup)
    (length : names.length = types.length)
    (missing : ∀ name ∈ names, bindings.find? name = none) :
    ∃ allExact result, matchArgs hierarchy bindings types (openArgs names types) =
        some (allExact, result) ∧
      ∀ pair ∈ names.zip types, ¬pair.2.isUnit → result.find? pair.1 = some pair.2 := by
  induction types generalizing names bindings with
  | nil =>
      cases List.length_eq_zero_iff.mp length
      exact ⟨true, bindings, by simp [openArgs, matchArgs], by simp⟩
  | cons type types ih =>
      cases names with
      | nil => cases length
      | cons name names =>
          rcases List.nodup_cons.mp apart with ⟨fresh, apart⟩
          have length := Nat.succ.inj length
          rw [List.forall_mem_cons] at missing
          -- No generic name takes unit, but it is an exact match for itself.
          by_cases unit : type.isUnit
          · rcases ih apart length missing.2 with ⟨allExact, result, matched, bound⟩
            have same : matchType hierarchy bindings type type = some (⟨.exact, 0⟩, bindings) := by
              rw [isUnit_iff.mp unit]
              simp [matchType, matchNamed]
            refine ⟨allExact && true, result, ?_, ?_⟩
            · rw [openArgs, List.zipWith_cons_cons, if_pos unit, matchArgs]
              unfold openArgs at matched
              simp [same, matched]
            · rw [List.zip_cons_cons, List.forall_mem_cons]
              exact ⟨fun notUnit => absurd unit notUnit, bound⟩
          · have later : ∀ other ∈ names, (bindings.insert name type).find? other = none := by
              intro other member
              have differ : other ≠ name := fun same => fresh (same ▸ member)
              rw [Dictionary.find?_insert, if_neg differ]
              exact missing.2 other member
            rcases ih apart length later with ⟨allExact, result, matched, bound⟩
            have here : (bindings.insert name type).find? name = some type := by
              rw [Dictionary.find?_insert, if_pos rfl]
            have binds : matchType hierarchy bindings type (.generic name) =
                some (⟨.generic, 0⟩, bindings.insert name type) := by
              rw [matchType, if_neg unit, missing.1]
            refine ⟨allExact && false, result, ?_, ?_⟩
            · rw [openArgs, List.zipWith_cons_cons, if_neg unit, matchArgs]
              unfold openArgs at matched
              simp [binds, matched]
            · rw [List.zip_cons_cons, List.forall_mem_cons]
              exact ⟨fun _ => (adds_matchArgs _ matched).kept name type here, bound⟩

theorem exists_nodup_names (count : Nat) :
    ∃ names : List String, names.Nodup ∧ names.length = count := by
  have apart : Function.Injective fun size => String.ofList (List.replicate size 'T') := by
    intro one two same
    have length := congrArg (fun name : String => name.toList.length) same
    simpa using length
  exact ⟨(List.range count).map fun size => String.ofList (List.replicate size 'T'),
    List.nodup_range.map apart, by simp⟩

/-- The only candidate is chosen if it fits. -/
theorem resolveOverload_of_evaluate {name : String} {function : HostFunction} {args : List Value}
    {candidate : Candidate} (fits : evaluate? hierarchy store args function = some candidate) :
    resolveOverload name [function] args hierarchy store = .ok (candidate.prepared args) := by
  apply resolveOverload_of_wins
  exact ⟨[], [], by simp [viable, fits], by simp⟩

/-- A function that takes one argument of a generic type. -/
def accepting (type : TypeRef) : HostFunction :=
  .ofTypes "accept" [type] fun _ store => (.ok .unit, store)

/-- A store with one object. -/
def holding (typeName : String) (typeArgs : List TypeRef) : Store :=
  (Store.empty.allocObject ⟨typeName, typeArgs, []⟩).2

theorem evaluate_accepting {typeName : String} {typeArgs : List TypeRef} {actual : TypeRef}
    (type : Value.runtimeType (holding typeName typeArgs) (.object ⟨0⟩) = actual)
    (matched : matchType hierarchy [] actual param = some (fit, result)) :
    evaluate? hierarchy (holding typeName typeArgs) [.object ⟨0⟩] (accepting param) =
      some ⟨accepting param, [fit], result⟩ := by
  simp [evaluate?, accepting, HostFunction.ofTypes, HostFunction.required, evaluateArgs, type,
    matched]

/-- A call that passes an object of a type where its declared base is asked for binds generic names
to all arguments of that base but unit, as they are declared. -/
theorem exists_call_binding_base {registry : Registry} {typeName base : String} {type : HostType}
    {args : List TypeRef} (registered : registry.type? typeName = some type)
    (declares : type.base = some (.applied base args)) :
    ∃ names resolved, registry.resolve (holding typeName []) "accept"
        [accepting (.applied base (openArgs names args))] [.object ⟨0⟩] = .ok resolved ∧
      ∀ arg ∈ args, ¬arg.isUnit → ∃ entry ∈ resolved.call.typeArgs, entry.2 = arg := by
  rcases exists_nodup_names args.length with ⟨names, apart, length⟩
  rcases baseChain_eq_cons registered declares with ⟨behind, chain⟩
  rcases @exists_matchArgs_open registry.baseChain [] names args apart length
    (fun _ _ => rfl) with ⟨allExact, result, matched, bound⟩
  have fits : matchType registry.baseChain [] (.named typeName)
      (.applied base (openArgs names args)) = some (⟨.genericUpcast, 1⟩, result) := by
    simp [matchType, TypeRef.baseName?, chain, ancestorArgs?, matched]
  refine ⟨names, _, resolveOverload_of_evaluate (evaluate_accepting rfl fits), ?_⟩
  intro arg member notUnit
  rcases List.mem_iff_getElem.mp member with ⟨place, inside, rfl⟩
  have paired : (names[place], args[place]) ∈ names.zip args :=
    List.mem_iff_getElem.mpr ⟨place, by simpa [length] using inside, by simp⟩
  exact ⟨_, Dictionary.mem_of_find? (bound _ paired notUnit), rfl⟩

end Overload

open Overload

/-- The generic names of the chosen function are bound in the call, to types that matching comes
upon in the arguments and in declared bases. Whatever concrete types the objects have, the bound
types are concrete, exactly if the bases that are declared for the registered types have concrete
arguments. -/
theorem generics_bound_as_declared (types : List HostType)
    (functions : Dictionary (List HostFunction)) (globals : Dictionary CellId) :
    let registry := types.foldl Registry.registerType ⟨functions, [], globals⟩
    (∀ store name candidates args resolved,
      registry.resolve store name candidates args = .ok resolved →
      (∀ pair ∈ args.zip resolved.function.params, ∀ generic ∈ bindableBy store pair.1 pair.2,
        resolved.call.typeArgs.contains generic) ∧
      ∀ entry ∈ resolved.call.typeArgs, ∃ arg ∈ args,
        Meets registry.baseChain (arg.runtimeType store) entry.2) ∧
    ((∀ store name candidates args resolved, ConcreteObjects store args →
      registry.resolve store name candidates args = .ok resolved →
      ∀ entry ∈ resolved.call.typeArgs, entry.2.Concrete) ↔
      ∀ name type base args, registry.type? name = some type →
        type.base = some (.applied base args) → ∀ arg ∈ args, arg.Concrete) := by
  intro registry
  have origin {store name candidates args resolved}
      (chosen : registry.resolve store name candidates args = .ok resolved) :
      ∀ entry ∈ resolved.call.typeArgs, ∃ arg ∈ args,
        Meets registry.baseChain (arg.runtimeType store) entry.2 := by
    intro entry member
    rcases (adds_resolveOverload chosen).origin entry member with none | ⟨actual, among, meets⟩
    · exact absurd none List.not_mem_nil
    · rcases List.mem_map.mp among with ⟨arg, isArg, rfl⟩
      exact ⟨arg, isArg, meets⟩
  refine ⟨fun store name candidates args resolved chosen => ⟨?_, origin chosen⟩, ?_, ?_⟩
  · intro pair member generic binds
    exact (adds_resolveOverload chosen).bound generic (List.mem_flatMap.mpr ⟨pair, member, binds⟩)
  · intro always typeName type base args registered declares arg member
    by_cases unit : arg.isUnit
    · rw [isUnit_iff.mp unit]
      rfl
    · rcases exists_call_binding_base registered declares with ⟨names, resolved, chosen, bound⟩
      rcases bound arg member unit with ⟨entry, isBound, rfl⟩
      refine always _ _ _ _ _ ?_ chosen entry isBound
      intro id member
      cases List.mem_singleton.mp member
      exact fun type none => absurd none List.not_mem_nil
  · intro declared store name candidates args resolved concrete chosen entry member
    have bases : ConcreteBases registry.baseChain := by
      intro name base args present
      rcases mem_baseChain present with ⟨⟨typeName, type⟩, registered, declares⟩
      have ordered : registry.types.Ordered :=
        @ordered_types_foldl ⟨functions, [], globals⟩ List.Pairwise.nil types
      exact declared typeName type base args (ordered.find?_eq_some_iff.mpr registered) declares
    rcases origin chosen entry member with ⟨arg, isArg, meets⟩
    exact meets.concrete bases (concrete.runtimeType isArg)

/-- Where the only base is a list of numbers, all that is ever bound is concrete. -/
theorem generics_bound_as_declared_numbers :
    let numbers : HostType :=
      { HostType.ofName "IntList" with base := some (.applied "List" [.named "int"]) }
    let registry := Registry.empty.registerType numbers
    ∀ store name candidates args resolved, ConcreteObjects store args →
      registry.resolve store name candidates args = .ok resolved →
      ∀ entry ∈ resolved.call.typeArgs, entry.2.Concrete := by
  intro numbers registry
  refine (generics_bound_as_declared [numbers] [] []).2.mpr ?_
  intro name type base args registered declares arg member
  rcases Dictionary.mem_insert (Dictionary.mem_of_find? registered) with same | none
  · cases same
    cases declares
    cases List.mem_singleton.mp member
    rfl
  · cases none

/-- A list of numbers of a derived type is taken for a list of what its base is declared with: the
name of the parameter is bound to the generic name of the derived type, and not to its argument. -/
theorem derived_list_binds_generic :
    let list : HostType := { HostType.ofName "List" with generics := ["T"] }
    let derived : HostType := { HostType.ofName "MyList" with
      generics := ["T"], base := some (.applied "List" [.generic "T"]) }
    let registry := (Registry.empty.registerType list).registerType derived
    let store := holding "MyList" [.named "int"]
    ConcreteObjects store [.object ⟨0⟩] ∧
      ∃ resolved, registry.resolve store "accept" [accepting (.applied "List" [.generic "U"])]
          [.object ⟨0⟩] = .ok resolved ∧
        resolved.call.typeArgs = [("U", .generic "T")] := by
  intro list derived registry store
  constructor
  · intro id member
    cases List.mem_singleton.mp member
    intro type isArg
    cases List.mem_singleton.mp isArg
    rfl
  · have registered : registry.type? "MyList" = some derived :=
      Dictionary.find?_insert.trans (if_pos rfl)
    rcases baseChain_eq_cons registered rfl with ⟨behind, chain⟩
    have fits : matchType registry.baseChain [] (.applied "MyList" [.named "int"])
        (.applied "List" [.generic "U"]) =
          some (⟨.genericUpcast, 1⟩, [("U", .generic "T")]) := by
      simp [matchType, TypeRef.baseName?, chain, ancestorArgs?, matchArgs, TypeRef.isUnit,
        Dictionary.find?, Dictionary.insert]
    exact ⟨_, resolveOverload_of_evaluate (evaluate_accepting rfl fits), rfl⟩

end ScriptMachine
