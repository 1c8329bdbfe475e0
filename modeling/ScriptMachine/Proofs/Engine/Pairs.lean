import ScriptMachine.Proofs.Engine.Anatomy
import ScriptMachine.Proofs.Host.Purity

/-!
# Two runs in step

An instruction is carried out twice, in two stores, with operands that are twins. Both times the same
comes out: the same fault or values that are twins, and stores that are joined again, by a pairing
that has grown by what is new. The first store is left alone where the pairing has nothing.

This is shown of the effects first and then of the instructions, which are made of them. The pairing
of values that were seen earlier only grows, so they stay twins.
-/

namespace ScriptMachine

/-- What has come of one effect in two stores that a pairing joined: the same fault or values that
are related, and stores that a later pairing joins. -/
def Pairing.Agree {α : Type} (pairs : Pairing) (same : Pairing → α → α → Prop) (before : Store)
    (result twin : Except RuntimeFault α × Store) : Prop :=
  ∃ later, pairs.Later later before result.2 ∧ later.Joins result.2 twin.2 ∧
    SameResult (same later) result.1 twin.1

/-- Two effects that do the same in stores that a pairing joins. -/
def Effect.InStep {α : Type} (pairs : Pairing) (same : Pairing → α → α → Prop)
    (effect twin : Effect α) : Prop :=
  ∀ first second, pairs.Joins first second → pairs.Agree same first (effect first) (twin second)

/-- Members that are the same up to what they refer to. -/
inductive Effect.Member.Twins (pairs : Pairing) : Member → Member → Prop
  | value {first second : Value} (twins : first.Twins pairs second) :
      Twins pairs (.value first) (.value second)
  | closure {first second : ClosureId} (paired : pairs .closure first.index second.index) :
      Twins pairs (.closure first) (.closure second)

namespace Effect

variable {α : Type} {pairs : Pairing} {same : Pairing → α → α → Prop} {first second : Store}
  {one other left leftTwin right rightTwin : Value} {args twins : List Value} {registry : Registry}

/-! ## Effects that change nothing -/

theorem joined {result resultTwin : Except RuntimeFault α} (joins : pairs.Joins first second)
    (results : SameResult (same pairs) result resultTwin) :
    pairs.Agree same first (result, first) (resultTwin, second) :=
  ⟨pairs, .refl, joins, results⟩

theorem faulted {fault : RuntimeFault} (joins : pairs.Joins first second) :
    pairs.Agree same first (.error fault, first) (.error fault, second) :=
  joined joins .error

theorem inStep_read {look lookTwin : Store → α}
    (looks : ∀ first second, pairs.Joins first second → same pairs (look first) (lookTwin second)) :
    InStep pairs same (read look) (read lookTwin) :=
  fun first second joins => joined joins (.ok (looks first second joins))

theorem inStep_typeName (twins : one.Twins pairs other) :
    InStep pairs (fun _ => Eq) (read one.typeName) (read other.typeName) :=
  inStep_read fun _ _ joins => twins.typeName joins

theorem inStep_captures {closure partner : ClosureId}
    (paired : pairs .closure closure.index partner.index) :
    InStep pairs (fun later one other => later .array one.index other.index)
      (read fun store => (store.closure closure).captures)
      (read fun store => (store.closure partner).captures) :=
  inStep_read fun _ _ joins => (joins.closure paired).2.2

theorem inStep_current {iterator partner : IteratorId}
    (paired : pairs .iterator iterator.index partner.index) :
    InStep pairs Value.Twins (read fun store => (store.iterator iterator).current)
      (read fun store => (store.iterator partner).current) :=
  inStep_read fun _ _ joins => (joins.iterator paired).2

theorem inStep_unary (twins : one.Twins pairs other) (operator : UnaryOp) :
    InStep pairs Value.Twins (unary operator one) (unary operator other) := by
  intro first second joins
  have meaning := twins.unary operator
  simp only [unary, meaning, twins.typeName joins, twins.isTruthy]
  cases found : other.unary operator with
  | some result =>
      exact joined joins (.of_eq rfl fun value gives =>
        .of_isPlain (Value.isPlain_unary (found.trans (congrArg some gives))))
  | none =>
      cases operator with
      | not => exact joined joins (.ok .bool)
      | neg => exact faulted joins

theorem inStep_loadStatic (pure : registry.Pure) (typeName name : String) :
    InStep pairs Value.Twins (loadStatic registry typeName name)
      (loadStatic registry typeName name) := by
  intro first second joins
  unfold loadStatic
  cases accessible : Step.accessibleType registry typeName name with
  | error fault => exact faulted joins
  | ok type =>
      dsimp only
      cases found : type.staticFields.find? name with
      | none => exact faulted joins
      | some value =>
          have registered := Dictionary.mem_of_find? (accessibleType_ok accessible)
          have field := Dictionary.mem_of_find? found
          exact joined joins (.ok (.of_isPlain (pure.statics _ registered _ field)))

theorem inStep_loadField (twins : one.Twins pairs other) (name : String) :
    InStep pairs Value.Twins (loadField registry one name) (loadField registry other name) := by
  intro first second joins
  cases twins with
  | @object here there paired =>
      rcases joins.object paired with ⟨sameType, _, fields⟩
      simp only [loadField, sameType]
      split
      · exact faulted joins
      · rcases fields.find? name with ⟨found, foundTwin⟩ | ⟨value, twin, found, foundTwin, twins⟩
        · rw [found, foundTwin]
          exact faulted joins
        · rw [found, foundTwin]
          exact joined joins (.ok twins)
  | array paired =>
      simp only [loadField, joins.size_array paired, Value.typeName]
      split
      · exact joined joins (.ok .int)
      · exact faulted joins
  | str =>
      simp only [loadField]
      split
      · exact joined joins (.ok .int)
      · exact faulted joins
  | unit | bool | int | float | closure | iterator | useDefault => exact faulted joins

/-! ## Effects that change a thing -/

/-- Paired things are overwritten, and nothing is given. -/
theorem written {kind : Kind} {here there : Nat} {thing partner : Thing} {after afterTwin : Store}
    {result resultTwin : Except RuntimeFault α} (joins : pairs.Joins first second)
    (paired : pairs kind here there) (puts : first.Puts after kind here thing)
    (putsTwin : second.Puts afterTwin kind there partner) (alike : thing.Twins pairs partner)
    (results : SameResult (same pairs) result resultTwin) :
    pairs.Agree same first (result, after) (resultTwin, afterTwin) :=
  let ⟨joins, later⟩ := joins.write paired puts putsTwin alike
  ⟨pairs, later, joins, results⟩

/-- New things are paired, and the references to them are given. -/
theorem added {kind : Kind} {here there : Nat} {thing partner : Thing} {after afterTwin : Store}
    {result resultTwin : Except RuntimeFault α} (joins : pairs.Joins first second)
    (newHere : first.thing? kind here = none) (newThere : second.thing? kind there = none)
    (puts : first.Puts after kind here thing) (putsTwin : second.Puts afterTwin kind there partner)
    (alike : thing.Twins pairs partner)
    (results : SameResult (same (pairs.extend kind here there)) result resultTwin) :
    pairs.Agree same first (result, after) (resultTwin, afterTwin) :=
  let ⟨joins, later⟩ := joins.add newHere newThere puts putsTwin alike
  ⟨_, later, joins, results⟩

theorem inStep_makeArray (same : List.Forall₂ (Value.Twins pairs) args twins) :
    InStep pairs (fun later one other => later .array one.index other.index) (makeArray args)
      (makeArray twins) := by
  intro first second joins
  exact added joins Store.thing?_size.1 Store.thing?_size.1 (Store.puts_allocArray _)
    (Store.puts_allocArray _) (.array same) (.ok (.inr ⟨rfl, rfl, rfl⟩))

theorem inStep_makeClosure (function : FunctionRef) {captures partner : ArrayId}
    (paired : pairs .array captures.index partner.index) :
    InStep pairs (fun later one other => later .closure one.index other.index)
      (makeClosure function captures) (makeClosure function partner) := by
  intro first second joins
  exact added joins Store.thing?_size.2.1 Store.thing?_size.2.1 (Store.puts_allocClosure _)
    (Store.puts_allocClosure _) (.closure paired) (.ok (.inr ⟨rfl, rfl, rfl⟩))

/-- A new iterator over twin sources. -/
theorem iterated {source partner : IteratorSource} (joins : pairs.Joins first second)
    (alike : source.Twins pairs partner) :
    pairs.Agree Value.Twins first
      (.ok (.iterator (first.allocIterator source).1), (first.allocIterator source).2)
      (.ok (.iterator (second.allocIterator partner).1), (second.allocIterator partner).2) :=
  added joins Store.thing?_size.2.2 Store.thing?_size.2.2 (Store.puts_allocIterator _)
    (Store.puts_allocIterator _) (.iterator alike .unit) (.ok (.iterator (.inr ⟨rfl, rfl, rfl⟩)))

theorem inStep_toIterator (twins : one.Twins pairs other) :
    InStep pairs Value.Twins one.toIterator other.toIterator := by
  intro first second joins
  have typeName := twins.typeName joins
  cases twins with
  | iterator paired => exact joined joins (.ok (.iterator paired))
  | array paired => exact iterated joins (.elements paired)
  | str =>
      refine iterated joins (.items (List.forall₂_same.mpr fun value present => ?_))
      rcases List.mem_map.mp present with ⟨_, _, rfl⟩
      exact .str
  | object paired =>
      simp only [Value.toIterator, typeName]
      exact faulted joins
  | unit | bool | int | float | closure | useDefault => exact faulted joins

theorem inStep_resolveClosure (program : Program) {closure partner : ClosureId} (argc : Nat)
    (paired : pairs .closure closure.index partner.index) :
    InStep pairs (fun _ => Eq) (resolveClosure program closure argc)
      (resolveClosure program partner argc) := by
  intro first second joins
  rcases joins.closure paired with ⟨function, resolved, captures⟩
  simp only [resolveClosure, function, resolved]
  cases found : (second.closure partner).resolved with
  | some entry => exact joined joins (.of_eq rfl fun _ _ => rfl)
  | none =>
      dsimp only
      cases program.lookup? (second.closure partner).function.path
        (second.closure partner).function.name with
      | none => exact faulted joins
      | some entry =>
          rcases joins.inside_closures paired with ⟨inside, insideTwin⟩
          refine written joins paired (Store.puts_resolveClosure inside entry)
            (Store.puts_resolveClosure insideTwin entry) ?_ (.of_eq rfl fun _ _ => rfl)
          dsimp only
          rw [function]
          exact .closure captures

theorem inStep_storeField (twins : one.Twins pairs other) (values : left.Twins pairs right)
    (name : String) :
    InStep pairs (fun _ => Eq) (storeField registry one name left)
      (storeField registry other name right) := by
  intro first second joins
  cases twins with
  | @object here there paired =>
      rcases joins.object paired with ⟨sameType, sameArgs, fields⟩
      simp only [storeField, sameType, fields.contains]
      split
      · exact faulted joins
      · split
        · rcases joins.inside_objects paired with ⟨inside, insideTwin⟩
          refine written joins paired (Store.puts_setField inside name left)
            (Store.puts_setField insideTwin name right) ?_ (.ok rfl)
          dsimp only
          rw [sameType, sameArgs]
          exact .object (fields.insert name values)
        · exact faulted joins
  | array | str | unit | bool | int | float | closure | iterator | useDefault => exact faulted joins

/-! ## Iterators -/

/-- Advances that meet the same, up to what it refers to. -/
inductive Advance.Twins (pairs : Pairing) : Advance → Advance → Prop
  | element {value twin : Value} {source partner : IteratorSource} (values : value.Twins pairs twin)
      (sources : source.Twins pairs partner) :
      Twins pairs (.element value source) (.element twin partner)
  | atEnd {source partner : IteratorSource} (sources : source.Twins pairs partner) :
      Twins pairs (.atEnd source) (.atEnd partner)
  | failed {error : HostError} : Twins pairs (.failed error) (.failed error)

theorem advance_twins {source partner : IteratorSource} (joins : pairs.Joins first second)
    (alike : source.Twins pairs partner) :
    Advance.Twins pairs (source.advance first) (partner.advance second) := by
  cases alike with
  | @items _ _ failure same =>
      cases same with
      | nil =>
          cases failure with
          | none => exact .atEnd (.items .nil)
          | some error => exact .failed
      | cons value rest => exact .element value (.items rest)
  | @elements _ _ next paired =>
      simp only [IteratorSource.advance, ← Array.getElem?_toList]
      rcases Value.Twins.getElem? (joins.array paired) next with
        ⟨found, foundTwin⟩ | ⟨value, twin, found, foundTwin, twins⟩
      · rw [found, foundTwin]
        exact .atEnd (.elements paired)
      · rw [found, foundTwin]
        exact .element twins (.elements paired)
  | @range next stop step =>
      cases next with
      | none => exact .atEnd .range
      | some value =>
          simp only [IteratorSource.advance]
          split
          · split
            · exact .atEnd .range
            · exact .element .int .range
          · split
            · exact .atEnd .range
            · exact .element .int .range

theorem inStep_moveNext {iterator partner : IteratorId}
    (paired : pairs .iterator iterator.index partner.index) :
    InStep pairs (fun _ => Eq) (moveNext iterator) (moveNext partner) := by
  intro first second joins
  rcases joins.iterator paired with ⟨sources, currents⟩
  rcases joins.inside_iterators paired with ⟨inside, insideTwin⟩
  have moves := advance_twins joins sources
  simp only [moveNext, Store.advance]
  generalize (first.iterator iterator).source.advance first = here at moves
  generalize (second.iterator partner).source.advance second = there at moves
  cases moves with
  | element values sources =>
      exact written joins paired (Store.puts_setIterator inside _)
        (Store.puts_setIterator insideTwin _) (.iterator sources values) (.ok rfl)
  | atEnd sources =>
      exact written joins paired (Store.puts_setIterator inside _)
        (Store.puts_setIterator insideTwin _) (.iterator sources currents) (.ok rfl)
  | failed => exact faulted joins

/-! ## Arrays, operators and calls -/

theorem setElement_twins {items partners : Array Value} (values : one.Twins pairs other)
    (same : List.Forall₂ (Value.Twins pairs) items.toList partners.toList) (place : Nat) :
    List.Forall₂ (Value.Twins pairs) (items.setIfInBounds place one).toList
      (partners.setIfInBounds place other).toList := by
  rw [Array.toList_setIfInBounds, Array.toList_setIfInBounds]
  generalize items.toList = some at same
  generalize partners.toList = others at same
  induction same generalizing place with
  | nil => exact .nil
  | cons first rest ih =>
      cases place with
      | zero => exact .cons values rest
      | succ place => exact .cons first (ih place)

section Hosts

variable (pure : registry.Pure)

include pure

/-- Calls of the overload that is chosen. -/
theorem inStep_invoke {choose chooseTwin : Store → Except RuntimeFault Resolved}
    (chosen : ∀ first second, pairs.Joins first second →
      SameResult (Resolved.Twins pairs) (choose first) (chooseTwin second))
    (offered : ∀ store resolved, choose store = .ok resolved →
      registry.Offers resolved.function) :
    InStep pairs Value.Twins (invoke choose) (invoke chooseTwin) := by
  intro first second joins
  have results := chosen first second joins
  have offers := offered first
  unfold invoke
  generalize choose first = one at results offers
  generalize chooseTwin second = other at results
  cases results with
  | error => exact faulted joins
  | @ok resolved partner twins =>
      have body := pure.callables _ (offers resolved rfl)
      rcases body pairs first second _ _ joins twins.call with ⟨later, joinsLater, adds, results⟩
      rw [twins.function] at joinsLater adds results
      refine ⟨later, ?_, ?_, ?_⟩
      all_goals
        simp only [Resolved.invoke, twins.function]
      · exact adds.later
      · exact joinsLater
      · exact results.mapError _

theorem inStep_callHost {candidates : List HostFunction}
    (offered : ∀ function ∈ candidates, registry.Offers function) (name : String)
    (same : List.Forall₂ (Value.Twins pairs) args twins) :
    InStep pairs Value.Twins (callHost registry name candidates args)
      (callHost registry name candidates twins) :=
  inStep_invoke pure (fun _ _ joins => resolveOverload_twins joins same name candidates _)
    fun _ _ chosen => offered _ (resolveOverload_mem chosen)

theorem inStep_callNamed (name : String) (binding : Option HostFunctionRef)
    (same : List.Forall₂ (Value.Twins pairs) args twins) :
    InStep pairs Value.Twins (callNamed registry name binding args)
      (callNamed registry name binding twins) := by
  unfold callNamed
  split
  · rename_i function bound
    rcases Option.bind_eq_some_iff.mp bound with ⟨_, _, sole⟩
    refine inStep_callHost pure (fun other present => ?_) name same
    rw [List.mem_singleton.mp present]
    exact offers_soleFunction sole
  · refine inStep_invoke pure (fun first second joins => ?_) fun store resolved chosen => ?_
    · unfold Registry.resolveFunction
      split
      · exact .error
      · exact resolveOverload_twins joins same name _ _
    · unfold Registry.resolveFunction at chosen
      split at chosen
      · cases chosen
      · exact offers_overloads (resolveOverload_mem chosen)

theorem inStep_callStatic (typeName name : String)
    (same : List.Forall₂ (Value.Twins pairs) args twins) :
    InStep pairs Value.Twins (callStatic registry typeName name args)
      (callStatic registry typeName name twins) := by
  intro first second joins
  unfold callStatic
  cases accessible : Step.accessibleType registry typeName name with
  | error fault => exact faulted joins
  | ok type =>
      dsimp only
      split
      · exact faulted joins
      · refine inStep_callHost pure (fun function present => ?_) _ same first second joins
        exact offers_of_type (accessibleType_ok accessible) (offers_staticOverloads present)

theorem inStep_callHostMember {candidates : List HostFunction}
    (offered : ∀ function ∈ candidates, registry.Offers function) (name : String)
    (same : List.Forall₂ (Value.Twins pairs) args twins) :
    InStep pairs Member.Twins (callHostMember registry name candidates args)
      (callHostMember registry name candidates twins) := by
  intro first second joins
  rcases inStep_callHost pure offered name same first second joins with
    ⟨later, goesOn, joinsLater, results⟩
  unfold callHostMember
  generalize callHost registry name candidates args first = one at goesOn joinsLater results
  generalize callHost registry name candidates twins second = other at joinsLater results
  rcases one with ⟨one, after⟩
  rcases other with ⟨other, afterTwin⟩
  cases results with
  | ok values => exact ⟨later, goesOn, joinsLater, .ok (.value values)⟩
  | error => exact ⟨later, goesOn, joinsLater, .error⟩

theorem inStep_callMember (receivers : one.Twins pairs other) (name : String)
    (same : List.Forall₂ (Value.Twins pairs) args twins) :
    InStep pairs Member.Twins (callMember registry one name args)
      (callMember registry other name twins) := by
  intro first second joins
  have typeName := receivers.typeName joins
  have all : List.Forall₂ (Value.Twins pairs) (one :: args) (other :: twins) := .cons receivers same
  cases receivers with
  | @object here there paired =>
      rcases joins.object paired with ⟨sameType, _, fields⟩
      simp only [callMember, sameType]
      split
      · exact faulted joins
      · split
        · rcases fields.find? name with ⟨found, foundTwin⟩ | ⟨value, twin, found, foundTwin, twins⟩
          · rw [found, foundTwin]
            exact faulted joins
          · rw [found, foundTwin]
            cases twins with
            | closure paired => exact joined joins (.ok (.closure paired))
            | _ => exact faulted joins
        · exact inStep_callHostMember pure (fun _ => offers_methods) _ all first second joins
  | _ =>
      -- Only objects have members of their own.
      simp only [callMember, typeName]
      split
      · exact faulted joins
      · exact inStep_callHostMember pure (fun _ => offers_overloads) name all first second joins

theorem inStep_loadIndex (targets : one.Twins pairs other) (indices : left.Twins pairs right) :
    InStep pairs Value.Twins (loadIndex registry one left) (loadIndex registry other right) := by
  intro first second joins
  have typeName := targets.typeName joins
  have all : List.Forall₂ (Value.Twins pairs) [one, left] [other, right] :=
    .cons targets (.cons indices .nil)
  cases targets with
  | @array here there paired =>
      simp only [loadIndex, indices.elementIndex joins, joins.size_array paired]
      cases Step.elementIndex second right (second.array there).size with
      | error fault => exact faulted joins
      | ok place =>
          refine joined joins (.ok ?_)
          rw [Array.getD_eq_getD_getElem?, Array.getD_eq_getD_getElem?, ← Array.getElem?_toList,
            ← Array.getElem?_toList]
          rcases Value.Twins.getElem? (joins.array paired) place with
            ⟨found, foundTwin⟩ | ⟨value, twin, found, foundTwin, twins⟩
          · rw [found, foundTwin]
            exact .unit
          · rw [found, foundTwin]
            exact twins
  | @str text =>
      simp only [loadIndex, indices.elementIndex joins]
      cases Step.elementIndex second right text.toList.length with
      | error fault => exact faulted joins
      | ok place =>
          refine joined joins (.ok ?_)
          cases text.toList[place]? with
          | none => exact .unit
          | some character => exact .str
  | @object here there paired =>
      simp only [loadIndex, (joins.object paired).1]
      split
      · exact faulted joins
      · rename_i getter found
        refine inStep_callHost pure (fun function present => ?_) _ all first second joins
        rw [List.mem_singleton.mp present]
        exact offers_indexerGet found
  | unit | bool | int | float | closure | iterator | useDefault => exact faulted joins

theorem inStep_storeIndex (targets : one.Twins pairs other) (indices : left.Twins pairs leftTwin)
    (values : right.Twins pairs rightTwin) :
    InStep pairs (fun _ => Eq) (storeIndex registry one left right)
      (storeIndex registry other leftTwin rightTwin) := by
  intro first second joins
  have all : List.Forall₂ (Value.Twins pairs) [one, left, right] [other, leftTwin, rightTwin] :=
    .cons targets (.cons indices (.cons values .nil))
  cases targets with
  | @array here there paired =>
      simp only [storeIndex, indices.elementIndex joins, joins.size_array paired]
      cases Step.elementIndex second leftTwin (second.array there).size with
      | error fault => exact faulted joins
      | ok place =>
          rcases joins.inside_arrays paired with ⟨inside, insideTwin⟩
          exact written joins paired (Store.puts_setElement inside place right)
            (Store.puts_setElement insideTwin place rightTwin)
            (.array (setElement_twins values (joins.array paired) place)) (.ok rfl)
  | @object here there paired =>
      simp only [storeIndex, (joins.object paired).1]
      split
      · exact faulted joins
      · rename_i setter found
        have offered : ∀ function ∈ [setter], registry.Offers function := by
          intro function present
          rw [List.mem_singleton.mp present]
          exact offers_indexerSet found
        rcases inStep_callHost pure offered ((second.object there).typeName ++ "[]=") all first
          second joins with ⟨later, goesOn, joinsLater, results⟩
        generalize callHost registry _ [setter] [.object here, left, right] first = result at *
        generalize callHost registry _ [setter] [.object there, leftTwin, rightTwin] second = twin at *
        rcases result with ⟨result, after⟩
        rcases twin with ⟨twin, afterTwin⟩
        cases results with
        | ok values => exact ⟨later, goesOn, joinsLater, .ok rfl⟩
        | error => exact ⟨later, goesOn, joinsLater, .error⟩
  | str | unit | bool | int | float | closure | iterator | useDefault => exact faulted joins

theorem inStep_binary (lefts : left.Twins pairs leftTwin) (rights : right.Twins pairs rightTwin)
    (operator : BinaryOp) :
    InStep pairs Value.Twins (binary registry operator left right)
      (binary registry operator leftTwin rightTwin) := by
  intro first second joins
  have all : List.Forall₂ (Value.Twins pairs) [left, right] [leftTwin, rightTwin] :=
    .cons lefts (.cons rights .nil)
  have overloads := registry.operators_twins joins all operator
  simp only [binary, overloads, lefts.typeName joins, rights.typeName joins,
    lefts.binary joins rights operator]
  split
  · cases found : leftTwin.binary second operator rightTwin with
    | none => exact faulted joins
    | some result =>
        exact joined joins (.of_eq rfl fun value gives =>
          .of_isPlain (Value.isPlain_binary (found.trans (congrArg some gives))))
  · exact inStep_callHost pure (fun _ => offers_operators) _ all first second joins

end Hosts

end Effect

end ScriptMachine
