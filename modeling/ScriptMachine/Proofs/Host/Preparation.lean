import Mathlib.Data.List.TakeWhile
import ScriptMachine.Proofs.Host.Generics
import ScriptMachine.Proofs.Host.Purity

/-!
# Prepared calls

The chosen function gets a value for each of its parameters. What the caller gave stays as it is,
except that a whole number becomes a number where a number is declared. This is done after the
choice and by the category of each fit, but a whole number fits such a parameter in no other
category, so the declared type alone decides. What the caller left out is marked as such, and it is
optional, as optional parameters come last.

A generic name stands for one type throughout a call: the first argument binds it, and another one
has to be of the same type. Unit binds nothing, and it is told by the name of its type. So an object
of a host type that is called `unit` counts as unit, too.
-/

namespace ScriptMachine

namespace TypeRef

/-- The type without the marks that it may be missing. -/
def core : TypeRef → TypeRef
  | .nullable inner => inner.core
  | type => type

theorem core_of_not_nullable {type : TypeRef} (notNullable : ∀ inner, type ≠ .nullable inner) :
    type.core = type := by
  cases type with
  | nullable inner => exact absurd rfl (notNullable inner)
  | _ => rfl

theorem baseName?_core (type : TypeRef) : type.core.baseName? = type.baseName? := by
  induction type using core.induct with
  | case1 inner ih => exact ih
  | case2 type notNullable => rw [core_of_not_nullable notNullable]

/-- The type is that of numbers, possibly missing ones. -/
def IsNumber (type : TypeRef) : Prop := type.core = .named "float" ∨ type.core = .named "f32"

end TypeRef

namespace HostFunction

/-- Functions as a host makes them: from the parameters that have to be given, and then one optional
parameter after the other. -/
inductive Built : HostFunction → Prop
  | ofTypes (name : String) (types : List TypeRef) (body : HostBody) :
      Built (.ofTypes name types body)
  | withOptional {function : HostFunction} (type : TypeRef) (built : Built function) :
      Built (function.withOptional type)

theorem required_ofTypes (name : String) (types : List TypeRef) (body : HostBody) :
    (ofTypes name types body).required = types.length := by
  have all : ∀ param ∈ types.map (HostParam.mk · false), !param.optional := by simp
  rw [required, ofTypes, List.takeWhile_eq_self_iff.mpr all, List.length_map]

theorem required_withOptional (function : HostFunction) (type : TypeRef) :
    (function.withOptional type).required = function.required := by
  rw [required, withOptional, List.takeWhile_append]
  split
  · rename_i all
    simp [required, all]
  · rfl

/-- The parameters that need not be given are optional. -/
theorem Built.optional {function : HostFunction} (built : function.Built) {place : Nat}
    {param : HostParam} (declared : function.params[place]? = some param)
    (behind : function.required ≤ place) : param.optional := by
  induction built with
  | ofTypes name types body =>
      have inside := (List.getElem?_eq_some_iff.mp declared).1
      rw [required_ofTypes] at behind
      rw [HostFunction.ofTypes, List.length_map] at inside
      omega
  | withOptional type _ ih =>
      rw [required_withOptional] at behind
      rw [HostFunction.withOptional, List.getElem?_append] at declared
      split at declared
      · exact ih declared behind
      · rcases List.mem_singleton.mp (List.mem_of_getElem? declared) with rfl
        rfl

end HostFunction

namespace Overload

variable {hierarchy : TypeHierarchy} {store : Store} {bindings result : Bindings}
  {actual type : TypeRef} {fit : ParamMatch} {param : HostParam}

/-! ## Single parameters -/

/-- A generic name that takes a type is bound to it. -/
theorem bound_of_matchType {name : String} (notUnit : ¬actual.isUnit)
    (matched : matchType hierarchy bindings actual type = some (fit, result))
    (declared : type.core = .generic name) : result.find? name = some actual := by
  induction type using TypeRef.core.induct generalizing fit result with
  | case1 inner ih =>
      rw [matchType, if_neg notUnit] at matched
      split at matched
      · cases matched
      · rename_i found
        cases matched
        exact ih found declared
  | case2 type notNullable =>
      rw [TypeRef.core_of_not_nullable notNullable] at declared
      subst declared
      rw [matchType, if_neg notUnit] at matched
      split at matched
      · rename_i found
        split at matched
        · rename_i same
          cases matched
          rw [found, same]
        · cases matched
      · cases matched
        rw [Dictionary.find?_insert, if_pos rfl]

/-- Only a type that is declared by its name takes a value by conversion. -/
theorem core_of_primitive
    (matched : matchType hierarchy bindings actual type = some (fit, result))
    (category : fit.category = .primitive) : ∃ name, type.core = .named name := by
  induction type using TypeRef.core.induct generalizing fit result with
  | case1 inner ih =>
      rw [matchType] at matched
      split at matched
      · cases matched
        cases category
      · split at matched
        · cases matched
        · rename_i found
          cases matched
          split at category
          · cases category
          · exact ih found category
  | case2 type notNullable =>
      cases type with
      | any =>
          rw [matchType] at matched
          cases matched
          cases category
      | named name => exact ⟨name, rfl⟩
      | nullable inner => exact absurd rfl (notNullable inner)
      | generic name =>
          rw [matchType] at matched
          split at matched
          · cases matched
          · split at matched
            · split at matched
              · cases matched
                cases category
              · cases matched
            · cases matched
              cases category
      | applied base args =>
          rcases matchType_applied_cases matched with
            ⟨_, allExact, _, _, rfl⟩ | ⟨_, _, _, _, _, rfl⟩
          · cases allExact <;> cases category
          · cases category

/-- A whole number fits where a number is declared by conversion only. -/
theorem primitive_of_int
    (matched : matchType hierarchy bindings (.named "int") type = some (fit, result))
    (declared : type.IsNumber) : fit.category = .primitive := by
  induction type using TypeRef.core.induct generalizing fit result with
  | case1 inner ih =>
      rw [matchType, if_neg (by simp [TypeRef.isUnit])] at matched
      split at matched
      · cases matched
      · rename_i found
        have inside := ih found declared
        cases matched
        rw [if_neg (by simp [inside]), inside]
  | case2 type notNullable =>
      rw [TypeRef.IsNumber, TypeRef.core_of_not_nullable notNullable] at declared
      rcases declared with rfl | rfl
      all_goals
        simp [matchType, matchNamed, primitiveConversion?] at matched
        rw [← matched.1]

theorem convert_number {number : Int64}
    (matched : matchType hierarchy bindings (.named "int") param.type = some (fit, result))
    (declared : param.type.IsNumber) :
    convert param fit (.int number) = .float (Binary64.ofInt number.toInt) := by
  have category := primitive_of_int matched declared
  have named := TypeRef.baseName?_core param.type
  rcases declared with core | core
  all_goals
    rw [core] at named
    simp [convert, category, ← named, TypeRef.baseName?]

theorem convert_of_not_number {value : Value}
    (matched : matchType hierarchy bindings actual param.type = some (fit, result))
    (other : ¬param.type.IsNumber) : convert param fit value = value := by
  unfold convert
  split
  · rename_i category
    rcases core_of_primitive matched category with ⟨name, named⟩
    rw [← TypeRef.baseName?_core, named, TypeRef.baseName?]
    split
    · rename_i same
      cases same
      exact absurd (.inl named) other
    · rename_i same
      cases same
      exact absurd (.inr named) other
    · rfl
  · rfl

/-! ## All parameters -/

variable {values : List Value} {params : List HostParam} {fits : List ParamMatch} {place : Nat}
  {value : Value}

/-- A value that is given fits its parameter, and what this binds stays bound. -/
theorem matchType_of_evaluateArgs
    (evaluated : evaluateArgs hierarchy store bindings values params = some (fits, result))
    (given : values[place]? = some value) (declared : params[place]? = some param) :
    ∃ fit, fits[place]? = some fit ∧ ((value = .useDefault ∧ param.optional) ∨
      ∃ before after, matchType hierarchy before (value.runtimeType store) param.type =
          some (fit, after) ∧
        ∀ name bound, after.find? name = some bound → result.find? name = some bound) := by
  induction values generalizing params bindings fits place with
  | nil => cases given
  | cons first values ih =>
      cases params with
      | nil => cases declared
      | cons own params =>
          rcases evaluateArgs_cons evaluated with ⟨fit, middle, others, rfl, fitted, rest⟩
          cases place with
          | zero =>
              cases given
              cases declared
              refine ⟨fit, rfl, ?_⟩
              rcases fitted with ⟨default, optional, _⟩ | ⟨_, matched⟩
              · exact .inl ⟨default, optional⟩
              · exact .inr ⟨bindings, middle, matched, (adds_evaluateArgs rest).kept⟩
          | succ place =>
              rw [List.getElem?_cons_succ] at given declared
              have behind := ih rest given declared
              rwa [List.getElem?_cons_succ]

/-- Each value is converted for its parameter. -/
theorem getElem?_convertArgs {fit : ParamMatch} (given : values[place]? = some value)
    (declared : params[place]? = some param) (fitting : fits[place]? = some fit) :
    (convertArgs params fits values)[place]? = some (convert param fit value) := by
  induction values generalizing params fits place with
  | nil => cases given
  | cons first values ih =>
      cases params with
      | nil => cases declared
      | cons own params =>
          cases fits with
          | nil => cases fitting
          | cons one fits =>
              rw [convertArgs]
              cases place with
              | zero =>
                  cases given
                  cases declared
                  cases fitting
                  rfl
              | succ place =>
                  rw [List.getElem?_cons_succ] at given declared fitting
                  exact ih given declared fitting

/-- There is a value for each parameter. -/
theorem length_convertArgs :
    (convertArgs params fits values).length = max values.length params.length := by
  induction values generalizing params fits with
  | nil =>
      unfold convertArgs
      simp
  | cons first values ih =>
      cases params with
      | nil =>
          unfold convertArgs
          simp
      | cons own params =>
          cases fits with
          | nil =>
              unfold convertArgs
              simp
              omega
          | cons one fits =>
              rw [convertArgs, List.length_cons, ih]
              simp

theorem getElem?_filled {count : Nat} (behind : values.length ≤ place) (inside : place < count) :
    (values ++ List.replicate (count - values.length) .useDefault)[place]? =
      some .useDefault := by
  rw [List.getElem?_append_right behind]
  exact List.getElem?_replicate_of_lt (by omega)

/-- Where no value is given the argument counts as left out. -/
theorem getElem?_convertArgs_leftOut (behind : values.length ≤ place)
    (inside : place < params.length) :
    (convertArgs params fits values)[place]? = some .useDefault := by
  induction values generalizing params fits place with
  | nil =>
      rw [convertArgs]
      · exact getElem?_filled behind inside
      · exact nofun
  | cons first values ih =>
      cases params with
      | nil => cases inside
      | cons own params =>
          cases fits with
          | nil =>
              unfold convertArgs
              exact getElem?_filled behind inside
          | cons one fits =>
              cases place with
              | zero => cases behind
              | succ place =>
                  rw [convertArgs, List.getElem?_cons_succ]
                  exact ih (Nat.le_of_succ_le_succ behind) (Nat.lt_of_succ_lt_succ inside)

end Overload

open Overload

/-- A value is given as the argument at a place, for the parameter there. -/
def Resolved.Given (resolved : Resolved) (args : List Value) (place : Nat) (param : HostParam)
    (value : Value) : Prop :=
  resolved.function.params[place]? = some param ∧ args[place]? = some value

/-- What the signature of the chosen function says about the call that is prepared. Arguments at one
generic name are all of the type that it is bound to, so they are of one type. -/
structure Resolved.Respects (resolved : Resolved) (candidates : List HostFunction)
    (args : List Value) (store : Store) : Prop where
  candidate : resolved.function ∈ candidates
  enough : resolved.function.required ≤ args.length
  room : args.length ≤ resolved.function.params.length
  complete : resolved.call.args.length = resolved.function.params.length
  leftOut : ∀ (place : Nat) (param : HostParam), args.length ≤ place →
    resolved.function.params[place]? = some param →
    param.optional ∧ resolved.call.args[place]? = some .useDefault
  converted : ∀ place param number, resolved.Given args place param (.int number) →
    param.type.IsNumber →
    resolved.call.args[place]? = some (.float (Binary64.ofInt number.toInt))
  unchanged : ∀ place param value, resolved.Given args place param value →
    (∀ number, value = .int number → ¬param.type.IsNumber) →
    resolved.call.args[place]? = some value
  bound : ∀ place param value name, resolved.Given args place param value →
    value ≠ .useDefault → ¬(value.runtimeType store).isUnit → param.type.core = .generic name →
    resolved.call.typeArgs.find? name = some (value.runtimeType store)

/-- A call that is prepared for functions as a host makes them respects the declared signature. What
is given is not changed, except that whole numbers become numbers where numbers are declared. What
is left out is optional and marked. The given arguments at one generic name are all of the type that
it is bound to, except those whose type is called `unit`. -/
theorem prepared_call_respects_signature {hierarchy : TypeHierarchy} {store : Store}
    {args : List Value} {name : String} {candidates : List HostFunction} {resolved : Resolved}
    (built : ∀ function ∈ candidates, function.Built)
    (chosen : resolveOverload name candidates args hierarchy store = .ok resolved) :
    resolved.Respects candidates args store := by
  rcases exists_of_chosen chosen with
    ⟨function, member, fits, bindings, enough, room, evaluated, rfl⟩
  exact {
    candidate := member
    enough := enough
    room := room
    complete := length_convertArgs.trans (max_eq_right room)
    leftOut := by
      intro place param behind declared
      have inside := (List.getElem?_eq_some_iff.mp declared).1
      exact ⟨(built function member).optional declared (enough.trans behind),
        getElem?_convertArgs_leftOut behind inside⟩
    converted := by
      rintro place param number ⟨declared, given⟩ isNumber
      rcases matchType_of_evaluateArgs evaluated given declared with ⟨fit, fitting, leftOut | fits⟩
      · cases leftOut.1
      · rcases fits with ⟨before, after, matched, _⟩
        rw [← convert_number matched isNumber]
        exact getElem?_convertArgs given declared fitting
    unchanged := by
      rintro place param value ⟨declared, given⟩ other
      rcases matchType_of_evaluateArgs evaluated given declared with ⟨fit, fitting, fits⟩
      have same : convert param fit value = value := by
        by_cases whole : ∃ number, value = .int number
        · rcases whole with ⟨number, rfl⟩
          rcases fits with leftOut | ⟨before, after, matched, _⟩
          · cases leftOut.1
          · exact convert_of_not_number matched (other number rfl)
        · exact convert_eq_self (fun number equal => whole ⟨number, equal⟩) param fit
      have prepared := getElem?_convertArgs given declared fitting
      rwa [same] at prepared
    bound := by
      rintro place param value generic ⟨declared, given⟩ present notUnit named
      rcases matchType_of_evaluateArgs evaluated given declared with ⟨fit, _, leftOut | fits⟩
      · exact absurd leftOut.1 present
      · rcases fits with ⟨before, after, matched, kept⟩
        exact kept generic _ (bound_of_matchType notUnit matched named) }

/-- Two texts of one type, a whole number where a number is declared, and nothing for the rest. -/
theorem prepared_call_respects_signature_mixed :
    let types : List TypeRef := [.generic "T", .nullable (.generic "T"), .nullable (.named "float")]
    let function := (HostFunction.ofTypes "f" types fun _ store => (.ok .unit, store)).withOptional
      (.named "int")
    let args : List Value := [.str "a", .str "b", .int 2]
    ∃ resolved, resolveOverload "f" [function] args (fun _ => []) .empty = .ok resolved ∧
      resolved.Respects [function] args .empty ∧
      resolved.call.args = [.str "a", .str "b", .float (Binary64.ofInt 2), .useDefault] := by
  intro types function args
  have built : ∀ candidate ∈ [function], candidate.Built := by
    intro candidate member
    cases List.mem_singleton.mp member
    exact .withOptional _ (.ofTypes _ _ _)
  have fits : evaluate? (fun _ => []) .empty args function = some
      ⟨function, [⟨.generic, 0⟩, ⟨.generic, 0⟩, ⟨.primitive, 2⟩], [("T", .named "string")]⟩ := rfl
  have chosen := @resolveOverload_of_evaluate _ _ "f" _ _ _ fits
  exact ⟨_, chosen, prepared_call_respects_signature built chosen, rfl⟩

/-- An object of a host type that is called `unit` and a whole number are both taken for one generic
name, which is bound to the type of the number. -/
theorem unit_object_left_unbound :
    let registry := Registry.empty.registerType (HostType.ofName "unit")
    let function := HostFunction.ofTypes "f" [.nullable (.generic "T"), .generic "T"]
      fun _ store => (.ok .unit, store)
    let store := holding "unit" []
    function.Built ∧
      ∃ resolved, registry.resolve store "f" [function] [.object ⟨0⟩, .int 1] = .ok resolved ∧
        resolved.call.typeArgs.find? "T" = some (.named "int") ∧
        Value.runtimeType store (.object ⟨0⟩) = .named "unit" := by
  intro registry function store
  have fits : evaluate? registry.baseChain store [.object ⟨0⟩, .int 1] function =
      some ⟨function, [⟨.nullable, 0⟩, ⟨.generic, 0⟩], [("T", .named "int")]⟩ := rfl
  exact ⟨.ofTypes _ _ _, _, resolveOverload_of_evaluate fits, rfl, rfl⟩

end ScriptMachine
