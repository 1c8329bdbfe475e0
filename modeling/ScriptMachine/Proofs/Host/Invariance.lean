import ScriptMachine.Proofs.Host.Generics

/-!
# Types that fit themselves

Type arguments are compared by the same matching as arguments, and only an exact fit is taken, or
one that binds a generic name. But to fit a nullable type, or the type that accepts everything, is a
category of its own even for the type itself. So a generic type takes an instance with the very same
arguments, exactly, if neither occurs in them at any depth, and otherwise it refuses it.
-/

namespace ScriptMachine

namespace TypeRef

mutual

/-- Whether a type leaves nothing open: nowhere in it stands the type that accepts everything or a
nullable one. -/
def isDefinite : TypeRef → Bool
  | .any | .nullable _ => false
  | .named _ | .generic _ => true
  | .applied _ args => listDefinite args

def listDefinite : List TypeRef → Bool
  | [] => true
  | item :: rest => item.isDefinite && listDefinite rest

end

theorem listDefinite_iff {types : List TypeRef} :
    listDefinite types ↔ ∀ type ∈ types, type.isDefinite := by
  induction types with
  | nil => simp [listDefinite]
  | cons first rest ih => rw [listDefinite, Bool.and_eq_true, ih, List.forall_mem_cons]

theorem Concrete.of_applied {base : String} {args : List TypeRef}
    (concrete : (applied base args).Concrete) : ∀ arg ∈ args, arg.Concrete :=
  listGenerics_eq_nil_iff.mp concrete

end TypeRef

namespace Overload

variable {hierarchy : TypeHierarchy} {store : Store}

/-! ## Parameters without generic names -/

theorem category_of_matchNamed {actual : TypeRef} {expected : String} {fit : ParamMatch}
    (matched : matchNamed hierarchy actual expected = some fit) : fit.category ≠ .generic := by
  have inherited (upcast : (actual.baseName?.bind fun name =>
      ((hierarchy name).idxOf? (.named expected)).map fun index =>
        (⟨.upcast, index + 1⟩ : ParamMatch)) = some fit) : fit.category ≠ .generic := by
    rcases Option.bind_eq_some_iff.mp upcast with ⟨name, _, found⟩
    rcases Option.map_eq_some_iff.mp found with ⟨index, _, rfl⟩
    exact nofun
  unfold matchNamed at matched
  dsimp only at matched
  split at matched
  · split at matched
    · cases matched
      exact nofun
    · split at matched
      · cases matched
        exact nofun
      · exact inherited matched
  · exact inherited matched

mutual

/-- A parameter without generic names binds none, and no fit of it counts as one that does. -/
theorem matchType_concrete : ∀ (param : TypeRef) {bindings result : Bindings} {actual : TypeRef}
    {fit : ParamMatch}, param.Concrete →
    matchType hierarchy bindings actual param = some (fit, result) →
    fit.category ≠ .generic ∧ result = bindings
  | .any, _, _, _, _, _, matched => by
      rw [matchType] at matched
      cases matched
      exact ⟨nofun, rfl⟩
  | .nullable inner, _, _, actual, _, concrete, matched => by
      rw [matchType] at matched
      split at matched
      · cases matched
        exact ⟨nofun, rfl⟩
      · split at matched
        · cases matched
        · rename_i found
          cases matched
          have inside := matchType_concrete inner concrete found
          refine ⟨?_, inside.2⟩
          split
          · exact nofun
          · exact inside.1
  | .generic name, _, _, _, _, concrete, _ => nomatch concrete
  | .named expected, _, _, _, _, _, matched => by
      rw [matchType] at matched
      rcases Option.map_eq_some_iff.mp matched with ⟨found, here, same⟩
      cases same
      exact ⟨category_of_matchNamed here, rfl⟩
  | .applied base args, _, _, actual, _, concrete, matched => by
      rcases matchType_applied_cases matched with
        ⟨own, allExact, _, found, rfl⟩ | ⟨inherited, distance, allExact, _, found, rfl⟩
      · rcases matchArgs_concrete args concrete.of_applied found with ⟨rfl, rfl⟩
        exact ⟨nofun, rfl⟩
      · exact ⟨nofun, (matchArgs_concrete args concrete.of_applied found).2⟩

theorem matchArgs_concrete : ∀ (expecteds : List TypeRef) {bindings result : Bindings}
    {actuals : List TypeRef} {allExact : Bool}, (∀ expected ∈ expecteds, expected.Concrete) →
    matchArgs hierarchy bindings actuals expecteds = some (allExact, result) →
    allExact = true ∧ result = bindings
  | [], _, _, [], _, _, matched => by
      rw [matchArgs] at matched
      cases matched
      exact ⟨rfl, rfl⟩
  | [], _, _, _ :: _, _, _, matched => by
      simp [matchArgs] at matched
  | _ :: _, _, _, [], _, _, matched => by
      simp [matchArgs] at matched
  | expected :: expecteds, _, _, actual :: actuals, _, concrete, matched => by
      rw [List.forall_mem_cons] at concrete
      rw [matchArgs] at matched
      split at matched
      · cases matched
      · rename_i found
        have first := matchType_concrete expected concrete.1 found
        split at matched
        · rename_i category
          split at matched
          · cases matched
          · rename_i others
            cases matched
            rcases matchArgs_concrete expecteds concrete.2 others with ⟨rfl, rfl⟩
            exact ⟨by simp [category.resolve_right first.1], first.2⟩
        · cases matched

end

/-! ## A type against itself -/

mutual

/-- A type without generic names fits itself exactly if it leaves nothing open. -/
theorem matchType_self : ∀ (type : TypeRef) {bindings : Bindings}, type.Concrete →
    type.isDefinite →
    matchType hierarchy bindings type type = some (⟨.exact, 0⟩, bindings)
  | .any, _, _, definite => nomatch definite
  | .nullable _, _, _, definite => nomatch definite
  | .generic _, _, concrete, _ => nomatch concrete
  | .named _, _, _, _ => by simp [matchType, matchNamed]
  | .applied base args, _, concrete, definite => by
      rw [matchType, if_pos rfl, matchArgs_self args concrete.of_applied definite]
      rfl

theorem matchArgs_self : ∀ (args : List TypeRef) {bindings : Bindings},
    (∀ arg ∈ args, arg.Concrete) → TypeRef.listDefinite args →
    matchArgs hierarchy bindings args args = some (true, bindings)
  | [], _, _, _ => by rw [matchArgs]
  | arg :: args, _, concrete, definite => by
      rw [List.forall_mem_cons] at concrete
      rw [TypeRef.listDefinite, Bool.and_eq_true] at definite
      rw [matchArgs, matchType_self arg concrete.1 definite.1]
      simp [matchArgs_self args concrete.2 definite.2]

end

mutual

/-- A type that leaves something open does not fit itself exactly. -/
theorem category_of_matchType_self : ∀ (type : TypeRef) {bindings result : Bindings}
    {fit : ParamMatch}, type.Concrete → ¬type.isDefinite →
    matchType hierarchy bindings type type = some (fit, result) → fit.category ≠ .exact
  | .any, _, _, _, _, _, matched => by
      rw [matchType] at matched
      cases matched
      exact nofun
  | .nullable inner, _, _, _, _, _, matched => by
      rw [matchType, if_neg nofun] at matched
      split at matched
      · cases matched
      · cases matched
        split
        · exact nofun
        · assumption
  | .named _, _, _, _, _, loose, _ => absurd rfl loose
  | .generic _, _, _, _, concrete, _, _ => nomatch concrete
  | .applied base args, _, _, _, concrete, loose, matched => by
      rw [matchType, if_pos rfl, matchArgs_self_eq_none args concrete.of_applied loose] at matched
      cases matched

theorem matchArgs_self_eq_none : ∀ (args : List TypeRef) {bindings : Bindings},
    (∀ arg ∈ args, arg.Concrete) → ¬TypeRef.listDefinite args →
    matchArgs hierarchy bindings args args = none
  | [], _, _, loose => absurd rfl loose
  | arg :: args, bindings, concrete, loose => by
      rw [List.forall_mem_cons] at concrete
      rw [TypeRef.listDefinite, Bool.and_eq_true, not_and] at loose
      rw [matchArgs]
      by_cases definite : arg.isDefinite
      · rw [matchType_self arg concrete.1 definite]
        simp [matchArgs_self_eq_none args concrete.2 (loose definite)]
      · split
        · rfl
        · rename_i fit _ found
          have notExact := category_of_matchType_self arg concrete.1 definite found
          have notGeneric := (matchType_concrete arg concrete.1 found).1
          rw [if_neg (not_or_intro notExact notGeneric)]

end

/-! ## Calls with an instance of the declared type -/

variable {base : String} {args : List TypeRef} {id : ObjectId} {function : HostFunction}
  {optional : Bool}

theorem runtimeType_of_typeArgs (named : (store.object id).typeName = base)
    (given : (store.object id).typeArgs = args) (nonempty : args ≠ []) :
    Value.runtimeType store (.object id) = .applied base args := by
  subst named given
  simp [Value.runtimeType, nonempty]

/-- A function with one parameter is judged by how the argument fits it. -/
theorem evaluate?_single {param : TypeRef} {value : Value}
    (params : function.params = [⟨param, optional⟩]) (present : value ≠ .useDefault) :
    evaluate? hierarchy store [value] function =
      (matchType hierarchy [] (value.runtimeType store) param).map fun matched =>
        ⟨function, [matched.1], matched.2⟩ := by
  have enough : function.required ≤ 1 := by
    rw [HostFunction.required, params]
    exact (List.takeWhile_sublist _).length_le
  rcases matched : matchType hierarchy [] (value.runtimeType store) param with _ | ⟨fit, bindings⟩
  all_goals simp [evaluate?, params, evaluateArgs, present, matched, enough]

/-- An instance is taken where its own type is asked for if all its arguments are definite. -/
theorem evaluate?_own_instance (named : (store.object id).typeName = base)
    (given : (store.object id).typeArgs = args) (nonempty : args ≠ [])
    (concrete : ∀ arg ∈ args, arg.Concrete)
    (params : function.params = [⟨.applied base args, optional⟩]) :
    evaluate? hierarchy store [.object id] function =
      if TypeRef.listDefinite args then some ⟨function, [⟨.exact, 0⟩], []⟩ else none := by
  have present : Value.object id ≠ .useDefault := nofun
  rw [evaluate?_single params present, runtimeType_of_typeArgs named given nonempty, matchType,
    if_pos rfl]
  by_cases definite : TypeRef.listDefinite args
  · rw [matchArgs_self args concrete definite, if_pos definite]
    rfl
  · rw [matchArgs_self_eq_none args concrete definite, if_neg definite]
    rfl

/-- The only candidate is refused if it does not fit. -/
theorem resolveOverload_of_unfit {name : String} {values : List Value}
    (unfit : evaluate? hierarchy store values function = none) :
    resolveOverload name [function] values hierarchy store =
      .error (.noMatchingOverload name
        (values.map fun value => (value.runtimeType store).render)) :=
  resolveOverload_of_nil (by simp [viable, unfit])

end Overload

open Overload

/-- A function that takes an instance of a generic type with some concrete arguments takes an object
with the same arguments as an exact fit, if none of them is nullable or accepts everything and no
such type is nested in them. Otherwise it refuses the object. -/
theorem same_instance_accepted_iff_definite {registry : Registry} {store : Store} {id : ObjectId}
    {base : String} {args : List TypeRef} {function : HostFunction} {optional : Bool}
    (name : String) (named : (store.object id).typeName = base)
    (given : (store.object id).typeArgs = args) (nonempty : args ≠ [])
    (concrete : ∀ arg ∈ args, arg.Concrete)
    (params : function.params = [⟨.applied base args, optional⟩]) :
    ((∀ arg ∈ args, arg.isDefinite) →
      evaluate? registry.baseChain store [.object id] function =
          some ⟨function, [⟨.exact, 0⟩], []⟩ ∧
        registry.resolve store name [function] [.object id] =
          .ok ⟨function, ⟨[.object id], []⟩⟩) ∧
    (¬(∀ arg ∈ args, arg.isDefinite) →
      registry.resolve store name [function] [.object id] =
        .error (.noMatchingOverload name [(TypeRef.applied base args).render])) := by
  have judged := @evaluate?_own_instance registry.baseChain _ _ _ _ _ _ named given nonempty
    concrete params
  rw [← TypeRef.listDefinite_iff]
  constructor
  · intro definite
    rw [if_pos definite] at judged
    refine ⟨judged, ?_⟩
    rw [Registry.resolve, resolveOverload_of_evaluate judged]
    simp [Candidate.prepared, params, convertArgs, convert]
  · intro loose
    rw [if_neg loose] at judged
    rw [Registry.resolve, resolveOverload_of_unfit judged, List.map_singleton,
      runtimeType_of_typeArgs named given nonempty]

/-- A map from texts to lists of numbers. -/
theorem same_instance_accepted_iff_definite_map :
    let args : List TypeRef := [.named "string", .applied "List" [.named "int"]]
    let function := accepting (.applied "Map" args)
    args ≠ [] ∧ (∀ arg ∈ args, arg.Concrete ∧ arg.isDefinite) ∧
      Registry.empty.resolve (holding "Map" args) "accept" [function] [.object ⟨0⟩] =
        .ok ⟨function, ⟨[.object ⟨0⟩], []⟩⟩ := by
  intro args function
  have concrete : ∀ arg ∈ args, arg.Concrete := TypeRef.listGenerics_eq_nil_iff.mp rfl
  have definite : ∀ arg ∈ args, arg.isDefinite := TypeRef.listDefinite_iff.mp rfl
  refine ⟨nofun, fun arg member => ⟨concrete arg member, definite arg member⟩, ?_⟩
  have accepted := (@same_instance_accepted_iff_definite Registry.empty (holding "Map" args) ⟨0⟩
    "Map" args function false "accept" rfl rfl nofun concrete rfl).1 definite
  exact accepted.2

/-- A list of numbers that may be missing is not taken for a list of numbers that may be missing. -/
theorem nullable_argument_refused :
    let list : HostType := { HostType.ofName "List" with generics := ["T"] }
    let registry := Registry.empty.registerType list
    let args : List TypeRef := [.nullable (.named "int")]
    (∀ arg ∈ args, arg.Concrete) ∧
      registry.resolve (holding "List" args) "accept" [accepting (.applied "List" args)]
        [.object ⟨0⟩] = .error (.noMatchingOverload "accept" ["List<int?>"]) := by
  intro list registry args
  have concrete : ∀ arg ∈ args, arg.Concrete := TypeRef.listGenerics_eq_nil_iff.mp rfl
  refine ⟨concrete, ?_⟩
  have judged := @evaluate?_own_instance registry.baseChain (holding "List" args) "List" args ⟨0⟩
    (accepting (.applied "List" args)) false rfl rfl nofun concrete rfl
  exact resolveOverload_of_unfit judged

end ScriptMachine
