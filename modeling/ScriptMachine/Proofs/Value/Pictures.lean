import ScriptMachine.Proofs.Value.Pairings

/-!
# What values hold

A picture shows what a value refers to instead of the number under which it is stored: the elements
of an array, the function of a closure and what it keeps, what an iterator has yet to give, the
fields of an object. Things may refer to each other in a circle, so a picture goes to some depth.
Values that are the same up to what they refer to have the same pictures at every depth.

The things that some values refer to, and those that these refer to in turn, are reached from the
values. If they are all in the store, they are joined to themselves.
-/

namespace ScriptMachine

/-! ## Pictures -/

/-- What there is to see of a value. -/
inductive Picture where
  /-- A value that refers to nothing. -/
  | plain (value : Value)
  | array (items : List Picture)
  | closure (function : FunctionRef) (captures : Picture)
  | items (rest : List Picture) (failure : Option HostError) (current : Picture)
  | elements (array : Picture) (next : Nat) (current : Picture)
  | range (next : Option Int64) (stop step : Int64) (current : Picture)
  | object (typeName : String) (typeArgs : List TypeRef) (fields : List (String × Picture))
  /-- The picture does not go so deep. -/
  | beyond

/-- What there is to see of an iterator, by what there is to see of its elements. -/
def IteratorSource.picture (look : Value → Picture) (current : Picture) : IteratorSource → Picture
  | items rest failure => .items (rest.map look) failure current
  | elements array next => .elements (look (.array array)) next current
  | range next stop step => .range next stop step current

/-- What there is to see of a value in a store, down to a depth. -/
def Value.picture (store : Store) : Nat → Value → Picture
  | 0, _ => .beyond
  | depth + 1, array id => .array ((store.array id).toList.map (picture store depth))
  | depth + 1, closure id =>
      let kept := store.closure id
      .closure kept.function (picture store depth (array kept.captures))
  | depth + 1, iterator id =>
      let state := store.iterator id
      state.source.picture (picture store depth) (picture store depth state.current)
  | depth + 1, object id =>
      let fields := (store.object id).fields.map fun field =>
        (field.1, picture store depth field.2)
      .object (store.object id).typeName (store.object id).typeArgs fields
  | _ + 1, value => .plain value

section Looking

variable {pairs : Pairing} {look lookTwin : Value → Picture}

theorem Value.Twins.map_look {values twins : List Value}
    (all : List.Forall₂ (Value.Twins pairs) values twins)
    (same : ∀ {value twin : Value}, value.Twins pairs twin → look value = lookTwin twin) :
    values.map look = twins.map lookTwin := by
  induction all with
  | nil => rfl
  | cons first _ ih => rw [List.map_cons, List.map_cons, same first, ih]

theorem FieldsTwin.map_look {fields twins : Dictionary Value} (all : FieldsTwin pairs fields twins)
    (same : ∀ {value twin : Value}, value.Twins pairs twin → look value = lookTwin twin) :
    (fields.map fun field => (field.1, look field.2)) =
      twins.map fun field => (field.1, lookTwin field.2) := by
  induction all with
  | nil => rfl
  | cons first _ ih => rw [List.map_cons, List.map_cons, first.1, same first.2, ih]

theorem IteratorSource.Twins.picture {source twin : IteratorSource} (current : Picture)
    (twins : source.Twins pairs twin)
    (same : ∀ {value twin : Value}, value.Twins pairs twin → look value = lookTwin twin) :
    source.picture look current = twin.picture lookTwin current := by
  cases twins with
  | items rests => simp only [IteratorSource.picture, Value.Twins.map_look rests same]
  | elements paired => simp only [IteratorSource.picture, same (.array paired)]
  | range => rfl

end Looking

/-- Values that are the same up to what they refer to look the same. -/
theorem Value.Twins.picture {pairs : Pairing} {first second : Store} {value twin : Value}
    (twins : value.Twins pairs twin) (joins : pairs.Joins first second) (depth : Nat) :
    value.picture first depth = twin.picture second depth := by
  induction depth generalizing value twin with
  | zero => rfl
  | succ depth ih =>
      cases twins with
      | array paired => simp only [Value.picture, map_look (joins.array paired) ih]
      | closure paired =>
          rcases joins.closure paired with ⟨function, -, captures⟩
          simp only [Value.picture, function, ih (.array captures)]
      | iterator paired =>
          rcases joins.iterator paired with ⟨sources, currents⟩
          simp only [Value.picture, ih currents, sources.picture _ ih]
      | object paired =>
          rcases joins.object paired with ⟨typeName, typeArgs, fields⟩
          simp only [Value.picture, typeName, typeArgs, fields.map_look ih]
      | unit | bool | int | float | str | useDefault => rfl

/-! ## Things that are reached -/

/-- The thing that a value refers to. -/
def Value.reference? : Value → Option (Kind × Nat)
  | .array id => some (.array, id.index)
  | .closure id => some (.closure, id.index)
  | .iterator id => some (.iterator, id.index)
  | .object id => some (.object, id.index)
  | _ => none

/-- The values that an iterator has yet to give or takes them from. -/
def IteratorSource.values : IteratorSource → List Value
  | items rest _ => rest
  | elements array _ => [.array array]
  | range .. => []

/-- The values that a thing holds. -/
def Thing.values : Thing → List Value
  | array items => items.toList
  | closure kept => [.array kept.captures]
  | iterator state => state.current :: state.source.values
  | object kept => kept.fields.map Prod.snd

/-- The things that some values refer to, directly or through other things. -/
inductive Store.Reaches (store : Store) (values : List Value) : Kind → Nat → Prop
  | given {value : Value} {kind : Kind} {index : Nat} (among : value ∈ values)
      (refers : value.reference? = some (kind, index)) : Reaches store values kind index
  | held {value : Value} {thing : Thing} {outer kind : Kind} {place index : Nat}
      (reached : Reaches store values outer place) (found : store.thing? outer place = some thing)
      (among : value ∈ thing.values) (refers : value.reference? = some (kind, index)) :
      Reaches store values kind index

/-- Everything that some values refer to, directly or through other things, is in the store. -/
def Store.Backs (store : Store) (values : List Value) : Prop :=
  ∀ kind index, store.Reaches values kind index → ∃ thing, store.thing? kind index = some thing

/-- Things that are reached stand for themselves. -/
def Store.reached (store : Store) (values : List Value) : Pairing :=
  fun kind here there => store.Reaches values kind here ∧ here = there

section Self

variable {pairs : Pairing}

theorem Value.Twins.self {value : Value}
    (own : ∀ kind index, value.reference? = some (kind, index) → pairs kind index index) :
    value.Twins pairs value := by
  cases value with
  | array id => exact .array (own _ _ rfl)
  | closure id => exact .closure (own _ _ rfl)
  | iterator id => exact .iterator (own _ _ rfl)
  | object id => exact .object (own _ _ rfl)
  | _ => constructor

theorem Value.Twins.selfAll {values : List Value}
    (own : ∀ value ∈ values, ∀ kind index, value.reference? = some (kind, index) →
      pairs kind index index) : List.Forall₂ (Value.Twins pairs) values values :=
  List.forall₂_same.mpr fun value among => .self (own value among)

theorem IteratorSource.Twins.self {source : IteratorSource}
    (own : ∀ value ∈ source.values, ∀ kind index, value.reference? = some (kind, index) →
      pairs kind index index) : source.Twins pairs source := by
  cases source with
  | items rest => exact .items (Value.Twins.selfAll own)
  | elements array => exact .elements (own (.array array) (List.mem_singleton_self _) _ _ rfl)
  | range => exact .range

theorem Thing.Twins.self {thing : Thing}
    (own : ∀ value ∈ thing.values, ∀ kind index, value.reference? = some (kind, index) →
      pairs kind index index) : thing.Twins pairs thing := by
  cases thing with
  | array items => exact .array (Value.Twins.selfAll own)
  | closure kept =>
      exact .closure (own (.array kept.captures) (List.mem_singleton_self _) _ _ rfl)
  | iterator state =>
      exact .iterator (.self fun value among => own value (List.mem_cons_of_mem _ among))
        (.self (own state.current List.mem_cons_self))
  | object kept =>
      exact .object (List.forall₂_same.mpr fun field among =>
        ⟨rfl, .self (own field.2 (List.mem_map_of_mem among))⟩)

end Self

/-- What some values reach in a store is joined to itself. -/
theorem Store.Backs.joins {store : Store} {values : List Value} (backs : store.Backs values) :
    (store.reached values).Joins store store where
  things := by
    rintro kind here _ ⟨reached, rfl⟩
    rcases backs kind here reached with ⟨thing, found⟩
    refine ⟨thing, thing, found, found, .self fun value among inner place refers => ?_⟩
    exact ⟨.held reached found among refers, rfl⟩
  one := by
    rintro kind here _ _ ⟨-, rfl⟩ ⟨-, rfl⟩
    rfl
  back := by
    rintro kind _ _ there ⟨-, rfl⟩ ⟨-, rfl⟩
    rfl

theorem Store.reached_self {store : Store} (values : List Value) :
    List.Forall₂ (Value.Twins (store.reached values)) values values :=
  Value.Twins.selfAll fun _ among _ _ refers => ⟨.given among refers, rfl⟩

end ScriptMachine
