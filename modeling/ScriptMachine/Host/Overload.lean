import ScriptMachine.Host.Function

/-!
# Overload resolution

Each candidate is compared with the arguments parameter by parameter, and a comparison has a
category and a score. Of two candidates that fit, the better one is found by counting for how many
parameters either fits better. A candidate is chosen if it is better than every other one in this
sense; the relation is not transitive, so there may be none.
-/

namespace ScriptMachine

/-- How an argument fits a parameter, from best to worst. -/
inductive MatchCategory where
  | exact
  | nullable
  | generic
  | primitive
  | upcast
  | genericUpcast
  | any
deriving DecidableEq, Repr

/-- The place of a category among the others, the best first. -/
def MatchCategory.rank : MatchCategory → Nat
  | .exact => 0
  | .nullable => 1
  | .generic => 2
  | .primitive => 3
  | .upcast => 4
  | .genericUpcast => 5
  | .any => 6

/-- How well an argument fits a parameter. -/
structure ParamMatch where
  category : MatchCategory
  score : Nat
deriving DecidableEq, Repr

namespace ParamMatch

/-- The sign of the comparison: positive if the first fits better. Within a category a generic fit
is better the more of the type is fixed, a conversion or an ancestor the nearer it is. -/
def compare (left right : ParamMatch) : Int :=
  let sign (better worse : Nat) : Int :=
    if better < worse then 1 else if worse < better then -1 else 0
  if left.category.rank ≠ right.category.rank then
    sign left.category.rank right.category.rank
  else
    match left.category with
    | .generic => sign right.score left.score
    | .primitive | .upcast | .genericUpcast => sign left.score right.score
    | _ => 0

end ParamMatch

/-- The declared bases of a type, the nearest first. -/
abbrev TypeHierarchy := String → List TypeRef

/-- The conversions between primitive types, with their distance. -/
def primitiveConversion? (actual expected : String) : Option Nat :=
  match actual, expected with
  | "int", "i32" => some 1
  | "int", "float" => some 2
  | "int", "f32" => some 3
  | "float", "f32" => some 1
  | _, _ => none

def TypeRef.isUnit : TypeRef → Bool
  | .named name => name == "unit"
  | _ => false

mutual

/-- How much of a type is fixed. -/
def TypeRef.concreteness : TypeRef → Nat
  | .any | .generic _ => 0
  | .named _ => 1
  | .nullable inner => inner.concreteness
  | .applied _ args => 1 + TypeRef.listConcreteness args

def TypeRef.listConcreteness : List TypeRef → Nat
  | [] => 0
  | item :: rest => item.concreteness + TypeRef.listConcreteness rest

end

namespace Overload

/-- The types that generic names stand for so far. -/
abbrev Bindings := Dictionary TypeRef

/-- The fit of a parameter that is declared with a type name. -/
def matchNamed (hierarchy : TypeHierarchy) (actual : TypeRef) (expected : String) :
    Option ParamMatch :=
  let upcast : Option ParamMatch :=
    actual.baseName?.bind fun name =>
      ((hierarchy name).idxOf? (.named expected)).map fun index => ⟨.upcast, index + 1⟩
  match actual with
  | .named name =>
      if name = expected then some ⟨.exact, 0⟩
      else
        match primitiveConversion? name expected with
        | some distance => some ⟨.primitive, distance⟩
        | none => upcast
  | _ => upcast

/-- The type arguments of the nearest ancestor with a given name, and its distance. -/
def ancestorArgs? (base : String) : Nat → List TypeRef → Option (List TypeRef × Nat)
  | _, [] => none
  | distance, .applied name args :: rest =>
      if name = base then some (args, distance) else ancestorArgs? base (distance + 1) rest
  | distance, _ :: rest => ancestorArgs? base (distance + 1) rest

mutual

/-- The fit of a parameter, and the bindings with those that it adds. -/
def matchType (hierarchy : TypeHierarchy) (bindings : Bindings) (actual : TypeRef) :
    TypeRef → Option (ParamMatch × Bindings)
  | .any => some (⟨.any, 0⟩, bindings)
  | .nullable inner =>
      if actual.isUnit then some (⟨.nullable, 0⟩, bindings)
      else
        match matchType hierarchy bindings actual inner with
        | none => none
        | some (fit, bindings) =>
            some (if fit.category = .exact then ⟨.nullable, 0⟩ else fit, bindings)
  | .generic name =>
      if actual.isUnit then none
      else
        match bindings.find? name with
        | some bound => if bound = actual then some (⟨.generic, 0⟩, bindings) else none
        | none => some (⟨.generic, 0⟩, bindings.insert name actual)
  | .named expected => (matchNamed hierarchy actual expected).map (·, bindings)
  | .applied base args =>
      let inherited : Option (ParamMatch × Bindings) :=
        match actual.baseName?.bind fun name => ancestorArgs? base 1 (hierarchy name) with
        | none => none
        | some (found, distance) =>
            match matchArgs hierarchy bindings found args with
            | none => none
            | some (_, bindings) => some (⟨.genericUpcast, distance⟩, bindings)
      match actual with
      | .applied actualBase actualArgs =>
          if actualBase = base then
            match matchArgs hierarchy bindings actualArgs args with
            | none => none
            | some (allExact, bindings) =>
                some (if allExact then ⟨.exact, 0⟩
                  else ⟨.generic, 1 + TypeRef.listConcreteness args⟩, bindings)
          else inherited
      | _ => inherited

/-- The fit of type arguments: each is matched exactly or binds a generic name. Tells whether all
were matched exactly. -/
def matchArgs (hierarchy : TypeHierarchy) (bindings : Bindings) :
    List TypeRef → List TypeRef → Option (Bool × Bindings)
  | [], [] => some (true, bindings)
  | actual :: actuals, expected :: expecteds =>
      match matchType hierarchy bindings actual expected with
      | none => none
      | some (fit, bindings) =>
          if fit.category = .exact ∨ fit.category = .generic then
            match matchArgs hierarchy bindings actuals expecteds with
            | none => none
            | some (allExact, bindings) =>
                some (allExact && decide (fit.category = .exact), bindings)
          else none
  | _, _ => none

end

/-- A candidate that fits the arguments. -/
structure Candidate where
  function : HostFunction
  fits : List ParamMatch
  bindings : Bindings

/-- The fits of arguments, one after the other. An argument that was left out fits an optional
parameter exactly. -/
def evaluateArgs (hierarchy : TypeHierarchy) (store : Store) :
    Bindings → List Value → List HostParam → Option (List ParamMatch × Bindings)
  | bindings, value :: values, param :: params =>
      let fit :=
        if value = .useDefault && param.optional then some (⟨.exact, 0⟩, bindings)
        else matchType hierarchy bindings (value.runtimeType store) param.type
      match fit with
      | none => none
      | some (fit, bindings) =>
          (evaluateArgs hierarchy store bindings values params).map fun (fits, bindings) =>
            (fit :: fits, bindings)
  | bindings, _, _ => some ([], bindings)

/-- The candidate that a function is, if it fits the arguments. -/
def evaluate? (hierarchy : TypeHierarchy) (store : Store) (args : List Value)
    (function : HostFunction) : Option Candidate :=
  if args.length < function.required || function.params.length < args.length then none
  else
    (evaluateArgs hierarchy store [] args function.params).map fun (fits, bindings) =>
      ⟨function, fits, bindings⟩

/-- For how many parameters more the first candidate fits better. -/
def compare (left right : Candidate) : Int :=
  (left.fits.zip right.fits).foldl (fun total pair => total + pair.1.compare pair.2) 0

/-- The place of a candidate that no later one beats, found from left to right. -/
def leader (best : Candidate) (place : Nat) : Nat → List Candidate → Candidate × Nat
  | _, [] => (best, place)
  | index, next :: rest =>
      if compare best next < 0 then leader next index (index + 1) rest
      else leader best place (index + 1) rest

/-- The candidates, except the one at a place, that the leader does not beat. -/
def rivals (best : Candidate) (place : Nat) (candidates : List Candidate) : List Candidate :=
  (candidates.zipIdx.filter fun entry => entry.2 ≠ place && compare best entry.1 ≤ 0).map Prod.fst

/-- An argument as the chosen function takes it: a whole number becomes a number where the parameter
is declared as one. -/
def convert (param : HostParam) (fit : ParamMatch) (value : Value) : Value :=
  if fit.category = .primitive then
    match param.type.baseName?, value with
    | some "float", .int number => .float (Binary64.ofInt number.toInt)
    | some "f32", .int number => .float (Binary64.ofInt number.toInt)
    | _, _ => value
  else value

/-- The arguments as the chosen function takes them, with a mark for each that was left out. -/
def convertArgs : List HostParam → List ParamMatch → List Value → List Value
  | param :: params, fit :: fits, value :: values =>
      convert param fit value :: convertArgs params fits values
  | params, _, values => values ++ List.replicate (params.length - values.length) .useDefault

end Overload

/-- A chosen overload with its prepared call. -/
structure Resolved where
  function : HostFunction
  call : HostCall

/-- Chooses among candidates the one that is better than every other. -/
def resolveOverload (name : String) (candidates : List HostFunction) (args : List Value)
    (hierarchy : TypeHierarchy) (store : Store) : Except RuntimeFault Resolved :=
  match candidates.filterMap (Overload.evaluate? hierarchy store args) with
  | [] =>
      .error (.noMatchingOverload name
        (args.map fun value => (value.runtimeType store).render))
  | first :: rest =>
      let (best, place) := Overload.leader first 0 1 rest
      match Overload.rivals best place (first :: rest) with
      | [] =>
          .ok ⟨best.function,
            ⟨Overload.convertArgs best.function.params best.fits args, best.bindings⟩⟩
      | rivals =>
          .error (.ambiguousOverload name
            ((best :: rivals).map fun candidate => candidate.function.describe))

/-- Calls a chosen overload. -/
def Resolved.invoke (resolved : Resolved) (store : Store) : Except RuntimeFault Value × Store :=
  let (result, store) := resolved.function.body resolved.call store
  (result.mapError HostError.toFault, store)

end ScriptMachine
