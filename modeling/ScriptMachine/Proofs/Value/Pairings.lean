import Mathlib.Data.List.Forall2
import ScriptMachine.Proofs.Engine.Disciplines

/-!
# Stores side by side

Two runs of one function in two stores do the same, but they do not find the same numbers free, so
the arrays of one run have other numbers than those of the other. A pairing says which shared thing
of the first store stands for which of the second. It joins the stores if things that are paired are
there and hold the same, up to the pairing, and if no thing stands for two.

What is in a store beside the paired things is left open. So a store that more than one run works on
can be joined to the store of each run alone, by as many pairings.
-/

namespace ScriptMachine

/-- The kinds of things that values share. -/
inductive Kind where
  | array
  | closure
  | iterator
  | object
deriving DecidableEq

/-- Something that values share. -/
inductive Thing where
  | array (items : Array Value)
  | closure (closure : Closure)
  | iterator (state : IteratorState)
  | object (object : HostObject)

/-- The shared thing with a number, if it is there. -/
def Store.thing? (store : Store) : Kind → Nat → Option Thing
  | .array, index => store.arrays[index]?.map .array
  | .closure, index => store.closures[index]?.map .closure
  | .iterator, index => store.iterators[index]?.map .iterator
  | .object, index => store.objects[index]?.map .object

/-- Which things of one store stand for which of another one. -/
abbrev Pairing := Kind → Nat → Nat → Prop

/-- Values that are the same up to the things that they refer to. -/
inductive Value.Twins (pairs : Pairing) : Value → Value → Prop
  | unit : Twins pairs .unit .unit
  | bool {value : Bool} : Twins pairs (.bool value) (.bool value)
  | int {value : Int64} : Twins pairs (.int value) (.int value)
  | float {value : Binary64} : Twins pairs (.float value) (.float value)
  | str {text : String} : Twins pairs (.str text) (.str text)
  | useDefault : Twins pairs .useDefault .useDefault
  | array {first second : ArrayId} (paired : pairs .array first.index second.index) :
      Twins pairs (.array first) (.array second)
  | closure {first second : ClosureId} (paired : pairs .closure first.index second.index) :
      Twins pairs (.closure first) (.closure second)
  | iterator {first second : IteratorId} (paired : pairs .iterator first.index second.index) :
      Twins pairs (.iterator first) (.iterator second)
  | object {first second : ObjectId} (paired : pairs .object first.index second.index) :
      Twins pairs (.object first) (.object second)

/-- Sources whose elements are the same up to what they refer to. -/
inductive IteratorSource.Twins (pairs : Pairing) : IteratorSource → IteratorSource → Prop
  | items {first second : List Value} {failure : Option HostError}
      (same : List.Forall₂ (Value.Twins pairs) first second) :
      Twins pairs (.items first failure) (.items second failure)
  | elements {first second : ArrayId} {next : Nat}
      (paired : pairs .array first.index second.index) :
      Twins pairs (.elements first next) (.elements second next)
  | range {next : Option Int64} {stop step : Int64} :
      Twins pairs (.range next stop step) (.range next stop step)

/-- Fields with the same names, whose values are the same up to what they refer to. -/
def FieldsTwin (pairs : Pairing) : Dictionary Value → Dictionary Value → Prop :=
  List.Forall₂ fun first second => first.1 = second.1 ∧ first.2.Twins pairs second.2

/-- Things that are the same up to the things that they refer to. -/
inductive Thing.Twins (pairs : Pairing) : Thing → Thing → Prop
  | array {first second : Array Value}
      (items : List.Forall₂ (Value.Twins pairs) first.toList second.toList) :
      Twins pairs (.array first) (.array second)
  | closure {function : FunctionRef} {first second : ArrayId} {resolved : Option FunctionEntry}
      (paired : pairs .array first.index second.index) :
      Twins pairs (.closure ⟨function, first, resolved⟩) (.closure ⟨function, second, resolved⟩)
  | iterator {first second : IteratorState} (source : first.source.Twins pairs second.source)
      (current : first.current.Twins pairs second.current) :
      Twins pairs (.iterator first) (.iterator second)
  | object {typeName : String} {typeArgs : List TypeRef} {first second : Dictionary Value}
      (fields : FieldsTwin pairs first second) :
      Twins pairs (.object ⟨typeName, typeArgs, first⟩) (.object ⟨typeName, typeArgs, second⟩)

/-- A pairing under which the stores agree. -/
structure Pairing.Joins (pairs : Pairing) (first second : Store) : Prop where
  things : ∀ {kind here there}, pairs kind here there →
    ∃ one other, first.thing? kind here = some one ∧ second.thing? kind there = some other ∧
      one.Twins pairs other
  one : ∀ {kind here there other}, pairs kind here there → pairs kind here other → there = other
  back : ∀ {kind here other there}, pairs kind here there → pairs kind other there → here = other

/-- How a pairing goes on while the first store changes. It keeps its pairs, new ones are of new
things, and things without a partner are left alone. -/
structure Pairing.Later (pairs later : Pairing) (before after : Store) : Prop where
  keeps : ∀ {kind here there}, pairs kind here there → later kind here there
  fresh : ∀ {kind here there}, later kind here there →
    pairs kind here there ∨ before.thing? kind here = none
  frame : ∀ {kind here thing}, before.thing? kind here = some thing →
    (∀ there, ¬pairs kind here there) → after.thing? kind here = some thing
  grows : ∀ {kind here}, after.thing? kind here = none → before.thing? kind here = none

/-! ## Larger pairings -/

section Monotone

variable {pairs later : Pairing}
  (keeps : ∀ {kind here there}, pairs kind here there → later kind here there)

include keeps

theorem Value.Twins.mono {first second : Value} (twins : first.Twins pairs second) :
    first.Twins later second := by
  cases twins with
  | array paired => exact .array (keeps paired)
  | closure paired => exact .closure (keeps paired)
  | iterator paired => exact .iterator (keeps paired)
  | object paired => exact .object (keeps paired)
  | unit | bool | int | float | str | useDefault => constructor

theorem Value.Twins.monoAll {first second : List Value}
    (twins : List.Forall₂ (Value.Twins pairs) first second) :
    List.Forall₂ (Value.Twins later) first second :=
  twins.imp fun _ _ => Value.Twins.mono keeps

theorem IteratorSource.Twins.mono {first second : IteratorSource}
    (twins : first.Twins pairs second) : first.Twins later second := by
  cases twins with
  | items same => exact .items (Value.Twins.monoAll keeps same)
  | elements paired => exact .elements (keeps paired)
  | range => exact .range

theorem Thing.Twins.mono {first second : Thing} (twins : first.Twins pairs second) :
    first.Twins later second := by
  cases twins with
  | array items => exact .array (Value.Twins.monoAll keeps items)
  | closure paired => exact .closure (keeps paired)
  | iterator source current => exact .iterator (source.mono keeps) (current.mono keeps)
  | object fields => exact .object (fields.imp fun _ _ same => ⟨same.1, same.2.mono keeps⟩)

end Monotone

namespace Pairing.Later

variable {pairs later latest : Pairing} {before middle after : Store}

theorem refl : pairs.Later pairs before before where
  keeps := id
  fresh := .inl
  frame found _ := found
  grows := id

theorem trans (first : pairs.Later later before middle) (second : later.Later latest middle after) :
    pairs.Later latest before after where
  keeps paired := second.keeps (first.keeps paired)
  fresh paired := by
    rcases second.fresh paired with paired | new
    · exact first.fresh paired
    · exact .inr (first.grows new)
  frame {kind here thing} found alone := by
    refine second.frame (first.frame found alone) fun there paired => ?_
    rcases first.fresh paired with old | new
    · exact alone there old
    · cases found.symm.trans new
  grows absent := first.grows (second.grows absent)

end Pairing.Later

/-! ## Looking things up -/

theorem Value.Twins.getElem? {pairs : Pairing} {values twins : List Value}
    (same : List.Forall₂ (Value.Twins pairs) values twins) (place : Nat) :
    (values[place]? = none ∧ twins[place]? = none) ∨
      ∃ value twin, values[place]? = some value ∧ twins[place]? = some twin ∧
        value.Twins pairs twin := by
  induction same generalizing place with
  | nil => exact .inl ⟨rfl, rfl⟩
  | cons first _ ih =>
      cases place with
      | zero => exact .inr ⟨_, _, rfl, rfl, first⟩
      | succ place => simpa using ih place

namespace Pairing.Joins

variable {pairs : Pairing} {first second : Store} (joins : pairs.Joins first second)

include joins

theorem array {one other : ArrayId} (paired : pairs .array one.index other.index) :
    List.Forall₂ (Value.Twins pairs) (first.array one).toList (second.array other).toList := by
  rcases joins.things paired with ⟨_, _, here, there, twins⟩
  rcases Option.map_eq_some_iff.mp here with ⟨items, found, rfl⟩
  rcases Option.map_eq_some_iff.mp there with ⟨others, foundOther, rfl⟩
  cases twins with
  | array same => simpa [Store.array, Array.getD_eq_getD_getElem?, found, foundOther] using same

theorem size_array {one other : ArrayId} (paired : pairs .array one.index other.index) :
    (first.array one).size = (second.array other).size := (joins.array paired).length_eq

theorem closure {one other : ClosureId} (paired : pairs .closure one.index other.index) :
    (first.closure one).function = (second.closure other).function ∧
      (first.closure one).resolved = (second.closure other).resolved ∧
      pairs .array (first.closure one).captures.index (second.closure other).captures.index := by
  rcases joins.things paired with ⟨_, _, here, there, twins⟩
  rcases Option.map_eq_some_iff.mp here with ⟨closure, found, rfl⟩
  rcases Option.map_eq_some_iff.mp there with ⟨partner, foundOther, rfl⟩
  cases twins with
  | closure captures =>
      simp only [Store.closure, Array.getD_eq_getD_getElem?, found, foundOther, Option.getD_some]
      exact ⟨trivial, trivial, captures⟩

theorem iterator {one other : IteratorId} (paired : pairs .iterator one.index other.index) :
    (first.iterator one).source.Twins pairs (second.iterator other).source ∧
      (first.iterator one).current.Twins pairs (second.iterator other).current := by
  rcases joins.things paired with ⟨_, _, here, there, twins⟩
  rcases Option.map_eq_some_iff.mp here with ⟨state, found, rfl⟩
  rcases Option.map_eq_some_iff.mp there with ⟨partner, foundOther, rfl⟩
  cases twins with
  | iterator source current =>
      simp only [Store.iterator, Array.getD_eq_getD_getElem?, found, foundOther, Option.getD_some]
      exact ⟨source, current⟩

theorem object {one other : ObjectId} (paired : pairs .object one.index other.index) :
    (first.object one).typeName = (second.object other).typeName ∧
      (first.object one).typeArgs = (second.object other).typeArgs ∧
      FieldsTwin pairs (first.object one).fields (second.object other).fields := by
  rcases joins.things paired with ⟨_, _, here, there, twins⟩
  rcases Option.map_eq_some_iff.mp here with ⟨object, found, rfl⟩
  rcases Option.map_eq_some_iff.mp there with ⟨partner, foundOther, rfl⟩
  cases twins with
  | object fields =>
      simp only [Store.object, Array.getD_eq_getD_getElem?, found, foundOther, Option.getD_some]
      exact ⟨trivial, trivial, fields⟩

end Pairing.Joins

/-- Two references are to one thing if their partners are. -/
theorem Pairing.Joins.beq {pairs : Pairing} {first second : Store} (joins : pairs.Joins first second)
    {α : Type} [DecidableEq α] {index : α → Nat}
    (injective : ∀ {one other}, index one = index other → one = other)
    {kind : Kind} {one oneTwin other otherTwin : α} (paired : pairs kind (index one) (index oneTwin))
    (pairedOther : pairs kind (index other) (index otherTwin)) :
    (one == other) = (oneTwin == otherTwin) := by
  rw [Bool.eq_iff_iff, beq_iff_eq, beq_iff_eq]
  constructor
  · rintro rfl
    exact injective (joins.one paired pairedOther)
  · rintro rfl
    exact injective (joins.back paired pairedOther)

namespace FieldsTwin

variable {pairs : Pairing} {fields twins : Dictionary Value} (same : FieldsTwin pairs fields twins)

include same

theorem find? (name : String) :
    (fields.find? name = none ∧ twins.find? name = none) ∨
      ∃ value twin, fields.find? name = some value ∧ twins.find? name = some twin ∧
        value.Twins pairs twin := by
  induction same with
  | nil => exact .inl ⟨rfl, rfl⟩
  | @cons field twin _ _ first _ ih =>
      rcases field with ⟨key, value⟩
      rcases twin with ⟨_, partner⟩
      rcases first with ⟨rfl, twins⟩
      simp only [Dictionary.find?]
      split
      · exact .inr ⟨value, partner, rfl, rfl, twins⟩
      · exact ih

theorem contains (name : String) : fields.contains name = twins.contains name := by
  rw [Dictionary.contains, Dictionary.contains]
  rcases same.find? name with ⟨here, there⟩ | ⟨_, _, here, there, _⟩
  · rw [here, there]
  · rw [here, there]
    rfl

theorem insert (name : String) {value twin : Value} (valueTwins : value.Twins pairs twin) :
    FieldsTwin pairs (Dictionary.insert fields name value) (Dictionary.insert twins name twin) := by
  induction same with
  | nil => exact .cons ⟨rfl, valueTwins⟩ .nil
  | @cons field twin _ _ first rest ih =>
      rcases field with ⟨key, old⟩
      rcases twin with ⟨_, partner⟩
      rcases first with ⟨rfl, twins⟩
      simp only [Dictionary.insert]
      split
      · exact .cons ⟨rfl, valueTwins⟩ rest
      · split
        · exact .cons ⟨rfl, valueTwins⟩ (.cons ⟨rfl, twins⟩ rest)
        · exact .cons ⟨rfl, twins⟩ ih

end FieldsTwin

/-! ## Changing things -/

/-- A store that has been changed in one place. -/
def Store.Puts (before after : Store) (kind : Kind) (index : Nat) (thing : Thing) : Prop :=
  ∀ other place, after.thing? other place =
    if other = kind ∧ place = index then some thing else before.thing? other place

section Puts

variable {store : Store}

theorem puts_push {α : Type} {items : Array α} (wrap : α → Thing) (item : α) (place : Nat) :
    (items.push item)[place]?.map wrap =
      if place = items.size then some (wrap item) else items[place]?.map wrap := by
  rw [Array.getElem?_push]
  split <;> rfl

theorem puts_modify {α : Type} {items : Array α} {index : Nat} (inside : index < items.size)
    (wrap : α → Thing) (change : α → α) (place : Nat) :
    (items.modify index change)[place]?.map wrap =
      if place = index then some (wrap (change items[index])) else items[place]?.map wrap := by
  rw [Array.getElem?_modify]
  by_cases same : place = index
  · subst same
    simp [inside]
  · simp [same, Ne.symm same]

namespace Store

theorem puts_allocArray (items : Array Value) :
    store.Puts (store.allocArray items).2 .array store.arrays.size (.array items) := by
  intro kind place
  cases kind with
  | array => simpa [thing?, allocArray] using puts_push Thing.array items place
  | closure | iterator | object => simp [thing?, allocArray]

theorem puts_allocClosure (closure : Closure) :
    store.Puts (store.allocClosure closure).2 .closure store.closures.size (.closure closure) := by
  intro kind place
  cases kind with
  | closure => simpa [thing?, allocClosure] using puts_push Thing.closure closure place
  | array | iterator | object => simp [thing?, allocClosure]

theorem puts_allocIterator (source : IteratorSource) :
    store.Puts (store.allocIterator source).2 .iterator store.iterators.size
      (.iterator ⟨source, .unit⟩) := by
  intro kind place
  cases kind with
  | iterator =>
      simpa [thing?, allocIterator] using puts_push Thing.iterator ⟨source, .unit⟩ place
  | array | closure | object => simp [thing?, allocIterator]

variable {kind : Kind} {index : Nat}

theorem thing?_size : store.thing? .array store.arrays.size = none ∧
    store.thing? .closure store.closures.size = none ∧
    store.thing? .iterator store.iterators.size = none := by
  simp [thing?]

theorem puts_setElement {id : ArrayId} (inside : id.index < store.arrays.size) (place : Nat)
    (value : Value) :
    store.Puts (store.setElement id place value) .array id.index
      (.array ((store.array id).setIfInBounds place value)) := by
  intro kind other
  cases kind with
  | array =>
      simpa [thing?, setElement, array, inside] using
        puts_modify inside Thing.array (·.setIfInBounds place value) other
  | closure | iterator | object => simp [thing?, setElement]

theorem puts_resolveClosure {id : ClosureId} (inside : id.index < store.closures.size)
    (entry : FunctionEntry) :
    store.Puts (store.resolveClosure id entry) .closure id.index
      (.closure { store.closure id with resolved := some entry }) := by
  intro kind other
  cases kind with
  | closure =>
      simpa [thing?, resolveClosure, closure, inside] using
        puts_modify inside Thing.closure (fun closure => { closure with resolved := some entry })
          other
  | array | iterator | object => simp [thing?, resolveClosure]

theorem puts_setField {id : ObjectId} (inside : id.index < store.objects.size) (name : String)
    (value : Value) :
    store.Puts (store.setField id name value) .object id.index
      (.object { store.object id with
        fields := Dictionary.insert (store.object id).fields name value }) := by
  intro kind other
  cases kind with
  | object =>
      simpa [thing?, setField, object, inside] using
        puts_modify inside Thing.object (fun object =>
          { object with fields := Dictionary.insert object.fields name value }) other
  | array | closure | iterator => simp [thing?, setField]

theorem puts_setIterator {id : IteratorId} (inside : id.index < store.iterators.size)
    (state : IteratorState) :
    store.Puts (store.setIterator id state) .iterator id.index (.iterator state) := by
  intro kind other
  cases kind with
  | iterator =>
      simp only [thing?, setIterator, Array.getElem?_setIfInBounds]
      by_cases same : other = id.index
      · simp [same, inside]
      · simp [same, Ne.symm same]
  | array | closure | object => simp [thing?, setIterator]

end Store

end Puts

/-- The pairing with one more pair. -/
def Pairing.extend (pairs : Pairing) (kind : Kind) (here there : Nat) : Pairing :=
  fun other one partner => pairs other one partner ∨ other = kind ∧ one = here ∧ partner = there

namespace Pairing.Joins

variable {pairs : Pairing} {first second after afterSecond : Store} {kind : Kind}
  {here there : Nat} {one other : Thing} (joins : pairs.Joins first second)

include joins

theorem present {kind : Kind} {here there : Nat} (paired : pairs kind here there) :
    first.thing? kind here ≠ none ∧ second.thing? kind there ≠ none := by
  rcases joins.things paired with ⟨_, _, found, foundOther, _⟩
  simp [found, foundOther]

theorem inside_arrays (paired : pairs .array here there) :
    here < first.arrays.size ∧ there < second.arrays.size := by
  simpa [Store.thing?] using joins.present paired

theorem inside_closures (paired : pairs .closure here there) :
    here < first.closures.size ∧ there < second.closures.size := by
  simpa [Store.thing?] using joins.present paired

theorem inside_iterators (paired : pairs .iterator here there) :
    here < first.iterators.size ∧ there < second.iterators.size := by
  simpa [Store.thing?] using joins.present paired

theorem inside_objects (paired : pairs .object here there) :
    here < first.objects.size ∧ there < second.objects.size := by
  simpa [Store.thing?] using joins.present paired

/-- Paired things are overwritten alike. -/
theorem write (paired : pairs kind here there) (puts : first.Puts after kind here one)
    (putsOther : second.Puts afterSecond kind there other) (twins : one.Twins pairs other) :
    pairs.Joins after afterSecond ∧ pairs.Later pairs first after := by
  refine ⟨⟨?_, joins.one, joins.back⟩, id, .inl, ?_, ?_⟩
  · intro otherKind place partner pairedOther
    rw [puts, putsOther]
    by_cases same : otherKind = kind ∧ place = here
    · rcases same with ⟨rfl, rfl⟩
      rw [if_pos ⟨rfl, rfl⟩, if_pos ⟨rfl, joins.one pairedOther paired⟩]
      exact ⟨one, other, rfl, rfl, twins⟩
    · rw [if_neg same, if_neg]
      · exact joins.things pairedOther
      · rintro ⟨rfl, rfl⟩
        exact same ⟨rfl, joins.back pairedOther paired⟩
  · intro otherKind place thing found alone
    rw [puts, if_neg]
    · exact found
    · rintro ⟨rfl, rfl⟩
      exact alone there paired
  · intro otherKind place absent
    rw [puts] at absent
    split at absent
    · cases absent
    · exact absent

/-- New things are paired. -/
theorem add (newHere : first.thing? kind here = none) (newThere : second.thing? kind there = none)
    (puts : first.Puts after kind here one) (putsOther : second.Puts afterSecond kind there other)
    (twins : one.Twins pairs other) :
    (pairs.extend kind here there).Joins after afterSecond ∧
      pairs.Later (pairs.extend kind here there) first after := by
  have keeps : ∀ {otherKind place partner}, pairs otherKind place partner →
      pairs.extend kind here there otherKind place partner := .inl
  refine ⟨⟨?_, ?_, ?_⟩, keeps, ?_, ?_, ?_⟩
  · rintro otherKind place partner (old | ⟨rfl, rfl, rfl⟩)
    · have present := joins.present old
      rw [puts, putsOther, if_neg, if_neg]
      · rcases joins.things old with ⟨thing, partner, found, foundOther, same⟩
        exact ⟨thing, partner, found, foundOther, same.mono keeps⟩
      · rintro ⟨rfl, rfl⟩
        exact present.2 newThere
      · rintro ⟨rfl, rfl⟩
        exact present.1 newHere
    · exact ⟨one, other, (puts _ _).trans (if_pos ⟨rfl, rfl⟩),
        (putsOther _ _).trans (if_pos ⟨rfl, rfl⟩), twins.mono keeps⟩
  · rintro otherKind place partner another (old | ⟨rfl, rfl, rfl⟩) (older | ⟨same, sits, last⟩)
    · exact joins.one old older
    · subst same sits
      exact absurd newHere (joins.present old).1
    · exact absurd newHere (joins.present older).1
    · exact last.symm
  · rintro otherKind place another partner (old | ⟨rfl, rfl, rfl⟩) (older | ⟨same, last, sits⟩)
    · exact joins.back old older
    · subst same sits
      exact absurd newThere (joins.present old).2
    · exact absurd newThere (joins.present older).2
    · exact last.symm
  · rintro otherKind place partner (old | ⟨rfl, rfl, rfl⟩)
    · exact .inl old
    · exact .inr newHere
  · intro otherKind place thing found _
    rw [puts, if_neg]
    · exact found
    · rintro ⟨rfl, rfl⟩
      cases newHere.symm.trans found
  · intro otherKind place absent
    rw [puts] at absent
    split at absent
    · cases absent
    · exact absent

end Pairing.Joins

end ScriptMachine
