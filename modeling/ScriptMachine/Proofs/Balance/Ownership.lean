import ScriptMachine.Proofs.Balance.Handling
import ScriptMachine.Proofs.Compiler.Closures
import ScriptMachine.Proofs.Engine.Carriers

/-!
# Whose frames there are

A frame is that of a declared function, or it is an invocation of a closure. An invocation has the
array in which its closure keeps values as its first argument, and may have it among its operands
where the chart says so. No other place of the stack refers to the array of a closure.

Owners say of each frame which closure it is an invocation of, if it is one. A step keeps frames in
order with their owners: the operands that it takes are apart from the arrays of closures, except
where an invocation reads or writes what its own closure keeps. While a closure is made there is a
moment at which its array has no closure yet. Then everything else is known about the store without
that array.
-/

namespace ScriptMachine

/-! ## Functions that keep values -/

/-- A chart that tells the functions that keep values from the others: a function that is called by
its name keeps none, and one that closures are made of does. -/
structure Chart.TellsKeepers (chart : Chart) (program : Program) : Prop where
  called : ∀ {function argc entry shape point}, .callFunction function argc ∈ program.instructions →
    program.lookup? function.path function.name = some entry →
    chart entry.offset = some (shape, point) → shape.source.carrierCount = 0
  literal : ∀ {function entry shape point}, .makeClosure function ∈ program.instructions →
    program.lookup? function.path function.name = some entry →
    chart entry.offset = some (shape, point) → shape.source.carrierCount = 1

namespace Program.Compiled

variable {units : List ProgramUnit} {globals : List String} {program : Program}
  {placed : List Placement} {chart : Chart} {source : FunctionSource} {entry : FunctionEntry}
  {shape : Shape} {point : Point}

/-- The function that a name leads to on the chart. -/
theorem source_of_entry (compiled : program.Compiled units globals placed)
    (plain : PlainNames units) (homes : chart.Homes placed) {placement : Placement}
    (member : placement ∈ placed)
    (found : program.lookup? placement.source.path placement.source.name = some entry)
    (here : chart entry.offset = some (shape, point)) : shape.source = placement.source := by
  rw [compiled.lookup?_eq plain member] at found
  cases found
  rcases homes placement member with ⟨locals, start, _⟩
  cases start.symm.trans here
  rfl

/-- A declared function keeps no values. -/
theorem carrierCount_declared (compiled : program.Compiled units globals placed)
    (plain : PlainNames units) (homes : chart.Homes placed)
    (declared : source ∈ declaredSources units)
    (found : program.lookup? source.path source.name = some entry)
    (here : chart entry.offset = some (shape, point)) : shape.source.carrierCount = 0 := by
  have present : source ∈ placed.map Placement.source := by
    rw [compiled.sources]
    exact List.mem_append_left _ declared
  rcases List.mem_map.mp present with ⟨placement, member, rfl⟩
  rw [compiled.source_of_entry plain homes member found here]
  rcases List.mem_flatMap.mp declared with ⟨unit, _, among⟩
  rcases List.mem_map.mp among with ⟨function, _, same⟩
  rw [← same]
  rfl

theorem tellsKeepers (compiled : program.Compiled units globals placed)
    (plain : PlainNames units) (homes : chart.Homes placed) : chart.TellsKeepers program where
  called {function argc entry shape point} calls found here := by
    rw [← Array.mem_toList_iff, compiled.instructions] at calls
    rcases List.mem_flatMap.mp calls with ⟨outer, member, among⟩
    rcases List.mem_map.mp ((compiled.composes member).declared among) with ⟨source, known, rfl⟩
    exact compiled.carrierCount_declared plain homes known found here
  literal {function entry shape point} makes found here := by
    rcases compiled.literal_of_makeClosure makes with ⟨placement, member, rfl, keeps⟩
    rw [compiled.source_of_entry plain homes member found here]
    exact if_pos keeps

end Program.Compiled

/-! ## Owners -/

/-- What may stand for what is known of an operand. The array of a closure may only do so in an
invocation of this closure. -/
def Tag.Grants (store : Store) (owner : Option ClosureId) : Tag → Value → Prop
  | .carrier, value =>
      ∃ id, owner = some id ∧ store.HasClosure id ∧ value = .array (store.carrier id)
  | _, value => value.Apart store

/-- The slots of a frame with its owner. -/
structure Activation.Belongs (activation : Activation) (store : Store) (owner : Option ClosureId) :
    Prop where
  keeps : owner.isSome ↔ 0 < activation.shape.source.carrierCount
  carrier : ∀ id, owner = some id →
    store.HasClosure id ∧ activation.slots[0]? = some (.array (store.carrier id))
  slots : ∀ slot value, activation.shape.source.carrierCount ≤ slot →
    activation.slots[slot]? = some value → value.Apart store

/-- A frame with its owner that waits at a place for one more operand. -/
structure Activation.Awaits (activation : Activation) (chart : Chart) (store : Store)
    (owner : Option ClosureId) (ip : Nat) : Prop where
  belongs : activation.Belongs store owner
  there : ∃ tags iterators point, chart ip = some (activation.shape, point) ∧
    (Point.running (.any :: tags) iterators).Meets point ∧
    Matches (Tag.Grants store owner) tags activation.operands

/-- The frames below another one, with their owners. -/
def Attended (chart : Chart) (store : Store) :
    Activation → List Activation → List (Option ClosureId) → Prop
  | _, [], owners => owners = []
  | callee, caller :: callers, owners =>
      ∃ owner others base ip, owners = owner :: others ∧ callee.Header base ip ∧
        caller.Awaits chart store owner ip ∧ Attended chart store caller callers others

/-- A tower with the owners of its frames, of which that of the running one comes first. -/
structure Tower.Owned (tower : Tower) (chart : Chart) (store : Store) (owner : Option ClosureId)
    (others : List (Option ClosureId)) : Prop where
  guarded : store.Guarded
  globals : ∀ value ∈ tower.globals, value.Apart store
  active : tower.active.Belongs store owner
  callers : Attended chart store tower.active tower.callers others

/-- What is known of the operands at a point, unless a closure is being made there. -/
def Point.settled? : Point → Option (List Tag)
  | .entry | .opening => some []
  | .running tags _ | .leaving tags => some tags
  | .closing _ _ => none

/-- A tower whose operands are what the point says. While a closure is made, the store without its
array is the one that is guarded. -/
inductive Tower.Heeds (tower : Tower) (chart : Chart) (ip : Nat) :
    List (Option ClosureId) → Store → Prop
  | settled {store : Store} {owner : Option ClosureId} {others : List (Option ClosureId)}
      {point : Point} {tags : List Tag} (here : chart ip = some (tower.active.shape, point))
      (settled : point.settled? = some tags) (owned : tower.Owned chart store owner others)
      (operands : Matches (Tag.Grants store owner) tags tower.active.operands) :
      Heeds tower chart ip (owner :: others) store
  | closing {store : Store} {owner : Option ClosureId} {others : List (Option ClosureId)}
      {items : Array Value} {tags : List Tag} {iterators : List Nat} {below : List Value}
      (here : chart ip = some (tower.active.shape, .closing tags iterators))
      (apart : ∀ value ∈ items, value.Apart store)
      (operands : tower.active.operands = below ++ [.array (store.allocArray items).1])
      (matched : Matches (Tag.Grants store owner) tags below)
      (owned : tower.Owned chart store owner others) :
      Heeds tower chart ip (owner :: others) (store.allocArray items).2

section Later

variable {chart : Chart} {before after : Store} {owner : Option ClosureId}
  {others : List (Option ClosureId)} {activation : Activation} {callers : List Activation}
  {tags : List Tag} {operands : List Value} {ip : Nat}

theorem Tag.Grants.mono {tag : Tag} {value : Value} (grants : tag.Grants before owner value)
    (extension : before.Extends after) : tag.Grants after owner value := by
  cases tag with
  | carrier =>
      rcases grants with ⟨id, owns, has, rfl⟩
      exact ⟨id, owns, has.mono extension, by rw [extension.carrier id has]⟩
  | any | iterator => exact Value.Apart.mono grants extension

theorem Matches.later (matched : Matches (Tag.Grants before owner) tags operands)
    (extension : before.Extends after) : Matches (Tag.Grants after owner) tags operands :=
  matched.imp fun _ _ grants => grants.mono extension

/-- Operands of which none is known to be the array of a closure. -/
theorem Matches.apart (matched : Matches (Tag.Grants before owner) tags operands)
    (plain : .carrier ∉ tags) : ∀ value ∈ operands, value.Apart before := by
  intro value present
  rcases matched.exists_tag present with ⟨tag, member, grants⟩
  cases tag with
  | carrier => exact absurd member plain
  | any | iterator => exact grants

theorem Matches.of_apart (length : operands.length = tags.length) (plain : .carrier ∉ tags)
    (apart : ∀ value ∈ operands, value.Apart before) :
    Matches (Tag.Grants before owner) tags operands := by
  refine .of_forall length fun tag member value present => ?_
  cases tag with
  | carrier => exact absurd member plain
  | any | iterator => exact apart value present

theorem Activation.Belongs.mono (belongs : activation.Belongs before owner)
    (extension : before.Extends after) : activation.Belongs after owner where
  keeps := belongs.keeps
  carrier id owns := by
    rcases belongs.carrier id owns with ⟨has, first⟩
    exact ⟨has.mono extension, by rw [extension.carrier id has, first]⟩
  slots slot value behind found := (belongs.slots slot value behind found).mono extension

theorem Activation.Awaits.mono (awaits : activation.Awaits chart before owner ip)
    (extension : before.Extends after) : activation.Awaits chart after owner ip := by
  rcases awaits with ⟨belongs, tags, iterators, point, placed, meets, matched⟩
  exact ⟨belongs.mono extension, tags, iterators, point, placed, meets, matched.later extension⟩

theorem Attended.mono {callee : Activation} (attended : Attended chart before callee callers others)
    (extension : before.Extends after) : Attended chart after callee callers others := by
  induction callers generalizing callee others with
  | nil => exact attended
  | cons caller callers ih =>
      rcases attended with ⟨owner, others, base, ip, rfl, header, awaits, attended⟩
      exact ⟨owner, others, base, ip, rfl, header, awaits.mono extension, ih attended⟩

/-- Only the header of a frame matters to those below. -/
theorem Attended.of_header {callee other : Activation}
    (attended : Attended chart before callee callers others)
    (kept : ∀ base ip, callee.Header base ip → other.Header base ip) :
    Attended chart before other callers others := by
  cases callers with
  | nil => exact attended
  | cons caller callers =>
      rcases attended with ⟨owner, others, base, ip, rfl, header, rest⟩
      exact ⟨owner, others, base, ip, rfl, kept base ip header, rest⟩

end Later

namespace Tower

variable {tower next : Tower} {chart : Chart} {store later : Store} {owner : Option ClosureId}
  {others owners : List (Option ClosureId)} {ip there : Nat} {point : Point} {tags : List Tag}
  {shape : Shape}

/-- A step that leaves the callers alone. -/
theorem Owned.step (owned : tower.Owned chart store owner others)
    (extension : store.Extends later) (guarded : later.Guarded)
    (globals : ∀ value ∈ next.globals, value.Apart later)
    (belongs : next.active.Belongs later owner) (callers : next.callers = tower.callers)
    (kept : ∀ base ip, tower.active.Header base ip → next.active.Header base ip) :
    next.Owned chart later owner others := by
  refine ⟨guarded, globals, belongs, ?_⟩
  rw [callers]
  exact (owned.callers.mono extension).of_header kept

/-- A step that leaves all slots alone. -/
theorem Owned.operands {operands : List Value} (owned : tower.Owned chart store owner others)
    (extension : store.Extends later) (guarded : later.Guarded) :
    (tower.withOperands operands).Owned chart later owner others := by
  have belongs := owned.active.mono extension
  exact owned.step extension guarded
    (fun value present => (owned.globals value present).mono extension)
    ⟨belongs.keeps, belongs.carrier, belongs.slots⟩ rfl
    fun _ _ header => ⟨header.saved, header.resumption⟩

/-- What is known where no closure is being made. -/
theorem Heeds.at_settled (heeds : tower.Heeds chart ip owners store)
    (here : chart ip = some (shape, point)) (settled : point.settled? = some tags) :
    ∃ owner others, owners = owner :: others ∧ tower.Owned chart store owner others ∧
      Matches (Tag.Grants store owner) tags tower.active.operands := by
  cases heeds with
  | settled same itsTags owned operands =>
      cases here.symm.trans same
      cases settled.symm.trans itsTags
      exact ⟨_, _, rfl, owned, operands⟩
  | closing same =>
      cases here.symm.trans same
      cases settled

end Tower

/-! ## Steps -/

/-- The closure that a call invokes, given the operands that it takes. -/
def Instruction.invokes? (store : Store) : Instruction → List Value → Option ClosureId
  | .invokeClosure _, .closure id :: _ => some id
  | .callMethod name _, .object id :: _ =>
      match (store.object id).fields.find? name with
      | some (.closure id) => some id
      | _ => none
  | _, _ => none

/-- The closure that an instruction invokes if it is a call of one. The operands are on top. -/
def Instruction.invoked? (instruction : Instruction) (store : Store) (values : List Value) :
    Option ClosureId :=
  instruction.callOperands?.bind fun count =>
    instruction.invokes? store (values.drop (values.length - count))

/-- The owners of the frames behind a step, which takes their number from one to another. -/
def handOver (frames later : Nat) (invoked : Option ClosureId) (owners : List (Option ClosureId)) :
    List (Option ClosureId) :=
  if frames < later then invoked :: owners
  else if later < frames then owners.tail
  else owners

@[simp]
theorem handOver_same (frames : Nat) (invoked : Option ClosureId)
    (owners : List (Option ClosureId)) : handOver frames frames invoked owners = owners := by
  simp [handOver]

/-- A move that leaves the callers alone leaves the header alone. -/
theorem Move.header_of_callers {instruction : Instruction} {behind there : Nat} {tower next : Tower}
    (move : Move instruction behind there tower next) (same : next.callers = tower.callers) :
    ∀ base ip, tower.active.Header base ip → next.active.Header base ip := by
  cases move with
  | within _ kept => exact kept
  | call _ _ _ callers =>
      rw [same] at callers
      exact absurd (congrArg List.length callers) (by simp)
  | leave _ callers =>
      rw [same] at callers
      exact absurd (congrArg List.length callers) (by simp)

theorem FunctionSource.carrierCount_le_one (source : FunctionSource) : source.carrierCount ≤ 1 := by
  unfold carrierCount
  split <;> decide

theorem Shape.HasSlot.behind {shape : Shape} {slot : Nat} (valid : shape.HasSlot slot) :
    shape.source.carrierCount ≤ slot := by
  simp only [Shape.HasSlot, Shape.arity, FunctionSource.arity] at valid
  omega

namespace Tower

/-- An invocation writes a value that its closure keeps. Nothing else changes. -/
structure Assigns (tower next : Tower) (store later : Store) (instruction : Instruction)
    (id : ClosureId) : Prop where
  instruction : instruction = .storeIndex
  effect : ∃ below index value place,
    tower.active.operands = below ++ [.array (store.carrier id), index, value] ∧
    next = tower.withOperands below ∧ later = store.setElement (store.carrier id) place value

/-- What stands in a place after a step: what stood there before, a value that is apart from the
arrays of closures, or the array of a closure. The last is either loaded by an invocation of this
closure or the first argument of a new one. -/
def Explains (tower next : Tower) (store later : Store) (instruction : Instruction)
    (owners : List (Option ClosureId)) (place : Nat) (value : Value) : Prop :=
  tower.values[place]? = some value ∨ value.Apart later ∨
    ∃ id, value = .array (later.carrier id) ∧
      ((instruction = .loadLocal 0 ∧ owners.head? = some (some id) ∧
          place + 1 = next.values.length) ∨
        (handOver tower.callers.length next.callers.length
            (instruction.invoked? store tower.values) owners = some id :: owners ∧
          place = next.base))

/-- A step that keeps frames in order with their owners. -/
structure HandsOver (tower next : Tower) (chart : Chart) (there : Nat) (store later : Store)
    (instruction : Instruction) (owners : List (Option ClosureId)) : Prop where
  heeds : next.Heeds chart there
    (handOver tower.callers.length next.callers.length (instruction.invoked? store tower.values)
      owners) later
  kept : ∀ id, store.HasClosure id →
    later.HasClosure id ∧ later.carrier id = store.carrier id ∧
      (later.array (store.carrier id) = store.array (store.carrier id) ∨
        owners.head? = some (some id) ∧ tower.Assigns next store later instruction id)
  news : ∀ place value, next.values[place]? = some value →
    tower.Explains next store later instruction owners place value

section Steps

variable {surroundings : Surroundings} {tower next : Tower} {chart : Chart} {store later : Store}
  {owner : Option ClosureId} {owners others : List (Option ClosureId)} {capacity ip there : Nat}
  {point : Point} {tags : List Tag} {shape : Shape} {instruction : Instruction}
  {below taken left : List Value} {iterators : List Nat}

theorem getElem?_shared {front old new : List Value} {place : Nat} {value : Value}
    (found : (front ++ new)[place]? = some value) :
    (front ++ old)[place]? = some value ∨
      front.length ≤ place ∧ new[place - front.length]? = some value := by
  rcases Nat.lt_or_ge place front.length with early | late
  · rw [List.getElem?_append_left early] at found ⊢
    exact .inl found
  · rw [List.getElem?_append_right late] at found
    exact .inr ⟨late, found⟩

/-- Operands in the place of others. -/
theorem explains_operands (operands : tower.active.operands = below ++ taken)
    (apart : ∀ value ∈ left, value.Apart later) {place : Nat} {value : Value}
    (found : (tower.withOperands (below ++ left)).values[place]? = some value) :
    tower.Explains (tower.withOperands (below ++ left)) store later instruction owners place
      value := by
  rw [values_withOperands, ← List.append_assoc] at found
  rcases @getElem?_shared (tower.floor ++ below) taken left place value found with same | ⟨_, new⟩
  · refine .inl ?_
    rwa [values, operands, ← List.append_assoc]
  · exact .inr (.inl (apart value (List.mem_of_getElem? new)))

/-- Operands that are apart from the arrays of closures, in the place of others. -/
theorem HandsOver.operands {pushed : List Tag} (owned : tower.Owned chart store owner others)
    (operands : tower.active.operands = below ++ taken)
    (matched : Matches (Tag.Grants store owner) tags below)
    (spares : store.Spares later) (guarded : later.Guarded)
    (length : left.length = pushed.length) (plain : .carrier ∉ pushed)
    (apart : ∀ value ∈ left, value.Apart later)
    (placed : chart there = some (tower.active.shape, point))
    (meets : (Point.running (pushed ++ tags) iterators).Meets point) :
    tower.HandsOver (tower.withOperands (below ++ left)) chart there store later instruction
      (owner :: others) where
  heeds := by
    rw [show (tower.withOperands (below ++ left)).callers = tower.callers from rfl, handOver_same]
    cases meets
    exact .settled placed rfl (owned.operands spares.toExtends guarded)
      ((Matches.of_apart length plain apart).join (matched.later spares.toExtends))
  kept id has := ⟨has.mono spares.toExtends, spares.carrier id has, .inl (spares.kept id has)⟩
  news _ _ found := explains_operands operands apart found

/-- A write to what the closure of an invocation keeps. -/
theorem HandsOver.assigns {id : ClosureId} {index value : Value}
    (owned : tower.Owned chart store (some id) others) (has : store.HasClosure id)
    (operands : tower.active.operands = below ++ [.array (store.carrier id), index, value])
    (matched : Matches (Tag.Grants store (some id)) tags below) (apart : value.Apart store)
    (gives : Effect.storeIndex surroundings.registry (.array (store.carrier id)) index value store =
      (.ok (), later))
    (placed : chart there = some (tower.active.shape, point))
    (meets : (Point.running tags iterators).Meets point) :
    tower.HandsOver (tower.withOperands (below ++ [])) chart there store later .storeIndex
      (some id :: others) := by
  rw [List.append_nil]
  simp only [Effect.storeIndex] at gives
  cases found : Step.elementIndex store index (store.array (store.carrier id)).size with
  | error fault =>
      rw [found] at gives
      cases gives
  | ok place =>
      rw [found] at gives
      cases gives
      have written := @Store.Guarded.setElement _ owned.guarded (store.carrier id) place _ apart
      refine ⟨?_, ?_, ?_⟩
      · rw [show (tower.withOperands below).callers = tower.callers from rfl, handOver_same]
        cases meets
        exact .settled placed rfl (owned.operands written.1 written.2) (matched.later written.1)
      · intro other hasOther
        refine ⟨hasOther.mono written.1, written.1.carrier other hasOther, ?_⟩
        rcases Decidable.em (other = id) with rfl | differ
        · exact .inr ⟨rfl, rfl, below, index, value, place, operands, rfl, rfl⟩
        · exact .inl (owned.guarded.kept_setElement has hasOther differ)
      · intro other item found
        have shared := @explains_operands tower store
          (store.setElement (store.carrier id) place value) (some id :: others) .storeIndex below _
          [] operands (List.forall_mem_nil _)
        rw [List.append_nil] at shared
        exact shared found

/-- A new array for a closure. -/
theorem HandsOver.opens {items : List Value} (owned : tower.Owned chart store owner others)
    (operands : tower.active.operands = below ++ items)
    (matched : Matches (Tag.Grants store owner) tags below)
    (apart : ∀ value ∈ items, value.Apart store)
    (placed : chart there = some (tower.active.shape, .closing tags iterators)) :
    tower.HandsOver (tower.withOperands (below ++ [.array (store.allocArray items.toArray).1])) chart
      there store (store.allocArray items.toArray).2 instruction (owner :: others) := by
  have apartItems : ∀ value ∈ items.toArray, value.Apart store := fun value present =>
    apart value (List.mem_toArray.mp present)
  rcases owned.guarded.allocArray apartItems with ⟨⟨spares, guarded⟩, apartNew⟩
  refine ⟨?_, ?_, ?_⟩
  · rw [withOperands, handOver_same]
    exact .closing placed apartItems rfl matched (owned.operands .refl owned.guarded)
  · intro id has
    exact ⟨has.mono spares.toExtends, spares.carrier id has, .inl (spares.kept id has)⟩
  · intro place value found
    exact explains_operands operands (List.forall_mem_singleton.mpr apartNew) found

/-- The new array becomes that of a new closure. -/
theorem HandsOver.closes {items : Array Value} {function : FunctionRef}
    (owned : tower.Owned chart store owner others)
    (operands : tower.active.operands = below ++ [.array (store.allocArray items).1])
    (matched : Matches (Tag.Grants store owner) tags below)
    (apart : ∀ value ∈ items, value.Apart store)
    (placed : chart there = some (tower.active.shape, point))
    (meets : (Point.running (.any :: tags) iterators).Meets point) :
    tower.HandsOver
      (tower.withOperands (below ++ [.closure ((store.allocArray items).2.allocClosure
        ⟨function, (store.allocArray items).1, none⟩).1]))
      chart there (store.allocArray items).2
      ((store.allocArray items).2.allocClosure ⟨function, (store.allocArray items).1, none⟩).2
      instruction (owner :: others) := by
  have made := @Store.Guarded.makeClosure _ owned.guarded function items apart
  refine ⟨?_, ?_, ?_⟩
  · rw [withOperands, handOver_same]
    cases meets
    exact .settled placed rfl (owned.operands made.1.toExtends made.2)
      ((matched.later made.1.toExtends).push trivial)
  · intro id has
    have older : id.index ≠ (store.allocArray items).2.closures.size := Nat.ne_of_lt has
    refine ⟨?_, ?_, .inl rfl⟩
    · rw [Store.HasClosure, Store.size_closures_allocClosure]
      exact Nat.lt_succ_of_lt has
    · rw [Store.carrier, Store.closure_allocClosure, if_neg older]
      rfl
  · intro place value found
    refine explains_operands operands (List.forall_mem_singleton.mpr ?_) found
    exact Value.apart_closure

/-- An instruction that leaves slots and frames alone. -/
theorem Heeds.works (charted : surroundings.program.Charted chart)
    (discreet : surroundings.registry.Discreet store)
    (heeds : tower.Heeds chart ip owners store)
    (found : surroundings.program.instructions[ip]? = some instruction)
    (here : chart ip = some (tower.active.shape, point))
    (operands : tower.active.operands = below ++ taken)
    (works : instruction.Works surroundings (ip + 1) store taken left later there) :
    tower.HandsOver (tower.withOperands (below ++ left)) chart there store later instruction
      owners := by
  have passage := charted.works here found works
  generalize takes : taken.length = count at passage
  generalize leaves : left.length = number at passage
  cases passage with
  | @makeCarrier _ tags iterators placed =>
      rcases heeds.at_settled here rfl with ⟨owner, others, rfl, owned, matched⟩
      rw [operands] at matched
      rcases matched.parts (by simpa using takes) with ⟨above, stays⟩
      have apart := above.apart (by simp [List.mem_replicate])
      cases works
      exact .opens owned operands stays apart placed
  | makeClosure placed meets =>
      cases heeds with
      | settled same settled =>
          cases here.symm.trans same
          cases settled
      | closing same apart top matched owned =>
          cases here.symm.trans same
          cases works
          rcases List.append_inj' (operands.symm.trans top) rfl with ⟨rfl, captures⟩
          cases captures
          exact .closes owned operands matched apart placed meets
  | @handles _ popped pushed tags iterators _ handles placed meets =>
      rcases heeds.at_settled here rfl with ⟨owner, others, rfl, owned, matched⟩
      rw [operands] at matched
      rcases matched.parts takes with ⟨above, stays⟩
      have lawful := surroundings.discretion_lawful
      have obeys : surroundings.discretion.obeys store := ⟨owned.guarded, discreet⟩
      have ordinary (plain : .carrier ∉ popped) (plainPushed : .carrier ∉ pushed) :
          tower.HandsOver (tower.withOperands (below ++ left)) chart there store later instruction
            (owner :: others) := by
        have made := lawful.works obeys works handles (above.apart plain)
        exact .operands owned operands stays made.1.1 made.1.2 leaves plainPushed made.2 placed meets
      cases handles with
      | pop =>
          cases works
          exact .operands owned operands stays .refl owned.guarded leaves (by simp) nofun placed meets
      | loadKept =>
          cases works with
          | loadIndex gives =>
              rcases above.pair with ⟨⟨id, _, _, rfl⟩, apartIndex⟩
              have made := (lawful.loadIndex obeys (.inl ⟨_, rfl⟩) apartIndex).given gives
              exact .operands owned operands stays made.1.1 made.1.2 leaves (by simp) made.2 placed
                meets
      | storeKept =>
          cases works with
          | storeIndex gives =>
              rcases above.triple with ⟨⟨id, rfl, has, rfl⟩, _, apart⟩
              exact .assigns owned has operands stays apart gives placed meets
      | plain effect => exact ordinary (by simp [List.mem_replicate]) (by simp [List.mem_replicate])
      | _ => exact ordinary (by simp) (by simp)

/-! ### Slots -/

/-- A step that stays in its frame and puts nothing on the stack but what is apart from the arrays of
closures. -/
theorem HandsOver.within {behind : Nat} (owned : tower.Owned chart store owner others)
    (move : Move instruction behind there tower next) (callers : next.callers = tower.callers)
    (spares : store.Spares later) (guarded : later.Guarded)
    (globals : ∀ value ∈ next.globals, value.Apart later) (belongs : next.active.Belongs later owner)
    (placed : chart there = some (next.active.shape, point)) (settled : point.settled? = some tags)
    (matched : Matches (Tag.Grants later owner) tags next.active.operands)
    (news : ∀ (place : Nat) (value : Value), next.values[place]? = some value →
      tower.values[place]? = some value ∨ value.Apart later) :
    tower.HandsOver next chart there store later instruction (owner :: others) where
  heeds := by
    rw [callers, handOver_same]
    exact .settled placed settled
      (owned.step spares.toExtends guarded globals belongs callers (move.header_of_callers callers))
      matched
  kept id has := ⟨has.mono spares.toExtends, spares.carrier id has, .inl (spares.kept id has)⟩
  news place value found := (news place value found).imp_right .inl

/-- A value more. -/
theorem getElem?_pushed {values : List Value} {item value : Value} {place : Nat}
    (found : (values ++ [item])[place]? = some value) :
    values[place]? = some value ∨ place = values.length ∧ value = item := by
  rcases Nat.lt_or_ge place values.length with early | late
  · rw [List.getElem?_append_left early] at found
    exact .inl found
  · rw [List.getElem?_append_right late, List.getElem?_singleton] at found
    split at found
    · exact .inr ⟨by omega, (Option.some.inj found).symm⟩
    · cases found

/-- Loading a value out of the frame. Only the first instruction of an access to a kept value loads
the array of a closure. -/
theorem HandsOver.loads (tag : Tag) {value : Value} (owned : tower.Owned chart store owner others)
    (matched : Matches (Tag.Grants store owner) tags tower.active.operands)
    (grants : tag.Grants store owner value) (first : tag = .carrier → instruction = .loadLocal 0)
    (placed : chart there = some (tower.active.shape, point))
    (meets : (Point.running (tag :: tags) iterators).Meets point) :
    tower.HandsOver (tower.withOperands (tower.active.operands ++ [value])) chart there store store
      instruction (owner :: others) := by
  refine ⟨?_, fun id has => ⟨has, rfl, .inl rfl⟩, ?_⟩
  · rw [withOperands, handOver_same]
    cases meets
    exact .settled placed rfl (owned.operands .refl owned.guarded) (matched.push grants)
  · intro place other found
    rw [values_withOperands, ← List.append_assoc] at found
    rcases getElem?_pushed found with same | ⟨last, rfl⟩
    · exact .inl same
    · cases tag with
      | carrier =>
          rcases grants with ⟨id, rfl, _, rfl⟩
          refine .inr (.inr ⟨id, rfl, .inl ⟨first rfl, rfl, ?_⟩⟩)
          rw [last, values_withOperands, ← List.append_assoc]
          simp only [List.length_append, List.length_singleton]
      | any | iterator => exact .inr (.inl grants)

/-- Writing a slot of the frame. -/
theorem HandsOver.writes {behind slot : Nat} {value : Value}
    (owned : tower.Owned chart store owner others)
    (move : Move instruction behind there tower ⟨tower.globals,
      ⟨tower.active.shape, tower.active.slots.set slot value, below⟩, tower.callers⟩)
    (valid : tower.active.shape.HasSlot slot) (inside : slot < tower.active.slots.length)
    (operands : tower.active.operands = below ++ [value]) (apart : value.Apart store)
    (matched : Matches (Tag.Grants store owner) tags below)
    (placed : chart there = some (tower.active.shape, point))
    (meets : (Point.running tags iterators).Meets point) :
    tower.HandsOver ⟨tower.globals, ⟨tower.active.shape, tower.active.slots.set slot value, below⟩,
      tower.callers⟩ chart there store store instruction (owner :: others) := by
  have settled : point.settled? = some tags := by cases meets; rfl
  refine .within owned move rfl .refl owned.guarded owned.globals ⟨owned.active.keeps, ?_, ?_⟩ placed
    settled matched ?_
  · intro id owns
    have keeps := owned.active.keeps.mp (by rw [owns]; rfl)
    have behind := valid.behind
    rw [List.getElem?_set_ne (by omega)]
    exact owned.active.carrier id owns
  · intro place other behind found
    rw [List.getElem?_set] at found
    split at found
    · rwa [← Option.some.inj found]
    · exact owned.active.slots place other behind found
  · intro place other found
    have written : (tower.floor ++ below).set (tower.base + slot) value =
        tower.globals ++ content tower.callers ++ tower.active.slots.set slot value ++ below := by
      rw [List.set_append_left _ _ (by rw [Tower.length_floor]; omega), Tower.floor,
        List.set_append_right _ _ (by simp [Tower.base])]
      simp [Tower.base]
    rw [values, floor, ← written, List.getElem?_set] at found
    split at found
    · split at found
      · rw [← Option.some.inj found]
        exact .inr apart
      · cases found
    · rw [values, operands, ← List.append_assoc]
      have short := (List.getElem?_eq_some_iff.mp found).1
      rw [List.getElem?_append_left short]
      exact .inl found

/-- Writing a global. -/
theorem HandsOver.writesGlobal {behind slot : Nat} {value : Value}
    (owned : tower.Owned chart store owner others)
    (move : Move instruction behind there tower ⟨tower.globals.set slot value,
      { tower.active with operands := below }, tower.callers⟩)
    (inside : slot < tower.globals.length) (operands : tower.active.operands = below ++ [value])
    (apart : value.Apart store) (matched : Matches (Tag.Grants store owner) tags below)
    (spares : store.Spares later) (guarded : later.Guarded)
    (placed : chart there = some (tower.active.shape, point))
    (meets : (Point.running tags iterators).Meets point) :
    tower.HandsOver ⟨tower.globals.set slot value, { tower.active with operands := below },
      tower.callers⟩ chart there store later instruction (owner :: others) := by
  have settled : point.settled? = some tags := by cases meets; rfl
  have belongs := owned.active.mono spares.toExtends
  refine .within owned move rfl spares guarded ?_
    ⟨belongs.keeps, belongs.carrier, belongs.slots⟩ placed settled
    (matched.later spares.toExtends) ?_
  · intro other present
    rcases List.mem_or_eq_of_mem_set present with old | rfl
    · exact (owned.globals other old).mono spares.toExtends
    · exact apart.mono spares.toExtends
  · intro place other found
    have written : (tower.floor ++ below).set slot value =
        tower.globals.set slot value ++ content tower.callers ++ tower.active.slots ++ below := by
      simp only [floor, List.append_assoc]
      exact List.set_append_left _ _ inside
    rw [values, floor, ← written, List.getElem?_set] at found
    split at found
    · split at found
      · rw [← Option.some.inj found]
        exact .inr (apart.mono spares.toExtends)
      · cases found
    · rw [values, operands, ← List.append_assoc]
      rw [List.getElem?_append_left (List.getElem?_eq_some_iff.mp found).1]
      exact .inl found

/-- Making room for the locals. -/
theorem HandsOver.allocates {behind : Nat} (owned : tower.Owned chart store owner others)
    (move : Move instruction behind there tower ⟨tower.globals, ⟨tower.active.shape,
      tower.active.slots ++ List.replicate tower.active.shape.locals .unit, []⟩, tower.callers⟩)
    (placed : chart there = some (tower.active.shape, .opening)) :
    tower.HandsOver ⟨tower.globals, ⟨tower.active.shape,
        tower.active.slots ++ List.replicate tower.active.shape.locals .unit, []⟩, tower.callers⟩
      chart there store store instruction (owner :: others) := by
  refine .within owned move rfl .refl owned.guarded owned.globals ⟨owned.active.keeps, ?_, ?_⟩ placed
    rfl rfl ?_
  · intro id owns
    rcases owned.active.carrier id owns with ⟨has, first⟩
    refine ⟨has, ?_⟩
    rw [List.getElem?_append_left (List.getElem?_eq_some_iff.mp first).1]
    exact first
  · intro slot value behind found
    rcases Nat.lt_or_ge slot tower.active.slots.length with old | new
    · rw [List.getElem?_append_left old] at found
      exact owned.active.slots slot value behind found
    · rw [List.getElem?_append_right new] at found
      rw [List.eq_of_mem_replicate (List.mem_of_getElem? found)]
      trivial
  · intro place value found
    have room : Tower.values ⟨tower.globals, ⟨tower.active.shape,
        tower.active.slots ++ List.replicate tower.active.shape.locals .unit, []⟩, tower.callers⟩ =
          tower.floor ++ List.replicate tower.active.shape.locals .unit := by
      simp [values, floor]
    rw [room] at found
    rcases @getElem?_shared _ tower.active.operands _ _ _ found with same | ⟨_, new⟩
    · exact .inl same
    · rw [List.eq_of_mem_replicate (List.mem_of_getElem? new)]
      exact .inr trivial

end Steps

end Tower

/-! ## Calls and returns -/

/-- Only a field of an object is called as a closure. -/
theorem Effect.callMember_closure {registry : Registry} {receiver : Value} {name : String}
    {args : List Value} {store later : Store} {id : ClosureId}
    (gives : Effect.callMember registry receiver name args store = (.ok (.closure id), later)) :
    ∃ object, receiver = .object object ∧
      (store.object object).fields.find? name = some (.closure id) ∧ later = store := by
  have hosts : ∀ name candidates args,
      Effect.callHostMember registry name candidates args store ≠ (.ok (.closure id), later) := by
    intro name candidates args same
    unfold Effect.callHostMember at same
    split at same <;> cases same
  cases receiver with
  | object object =>
      simp only [Effect.callMember] at gives
      split at gives
      · cases gives
      · split at gives
        · split at gives
          · cases gives
            exact ⟨object, rfl, ‹_›, rfl⟩
          · cases gives
        · exact absurd gives (hosts _ _ _)
  | _ =>
      simp only [Effect.callMember] at gives
      split at gives
      · cases gives
      · exact absurd gives (hosts _ _ _)

section Calls

variable {surroundings : Surroundings} {chart : Chart} {store later : Store}
  {ip base back : Nat} {point : Point} {shape : Shape} {instruction : Instruction}
  {taken args : List Value} {entry : FunctionEntry}

theorem apart_headerWords : ∀ value ∈ headerWords base back, value.Apart store := by
  intro value present
  simp only [headerWords, List.mem_cons, List.not_mem_nil, or_false] at present
  rcases present with rfl | rfl <;> trivial

/-- The frame of a called function that keeps nothing. -/
theorem Activation.Belongs.called (without : shape.source.carrierCount = 0)
    (apart : ∀ value ∈ args, value.Apart store) :
    Activation.Belongs ⟨shape, args ++ headerWords base back, []⟩ store none where
  keeps := by simp [without]
  carrier id owns := by cases owns
  slots slot value _ found :=
    forall_mem_append apart apart_headerWords value (List.mem_of_getElem? found)

/-- The frame of an invocation. -/
theorem Activation.Belongs.invoked {id : ClosureId} (one : shape.source.carrierCount = 1)
    (has : store.HasClosure id) (apart : ∀ value ∈ args, value.Apart store) :
    Activation.Belongs ⟨shape, .array (store.carrier id) :: args ++ headerWords base back, []⟩ store
      (some id) where
  keeps := by simp [one]
  carrier other owns := by
    cases owns
    exact ⟨has, rfl⟩
  slots slot value behind found := by
    rw [one] at behind
    rcases Nat.exists_eq_add_of_le' behind with ⟨place, rfl⟩
    exact forall_mem_append apart apart_headerWords value (List.mem_of_getElem? found)

/-- An invocation passes on the array of its closure in front, and arguments that are apart. -/
theorem passed_invoked {id : ClosureId} (apart : ∀ value ∈ args, value.Apart store) :
    ∀ place value, (Value.array (store.carrier id) :: args)[place]? = some value →
      value.Apart store ∨
        place = 0 ∧ ∃ other, some id = some other ∧ value = .array (store.carrier other) := by
  intro place value among
  cases place with
  | zero => exact .inr ⟨rfl, id, rfl, (Option.some.inj among).symm⟩
  | succ place => exact .inl (apart value (List.mem_of_getElem? among))

/-- What a call passes on: the frame that it makes has the closure that it invokes as its owner, if
it invokes one. -/
theorem Instruction.Calls.passes (base back : Nat) (tells : chart.TellsKeepers surroundings.program)
    (discreet : surroundings.registry.Discreet store) (sound : store.Sound surroundings.program)
    (guarded : store.Guarded)
    (found : surroundings.program.instructions[ip]? = some instruction)
    (calls : instruction.Calls surroundings store taken args later entry)
    (here : chart entry.offset = some (shape, point)) (apart : ∀ value ∈ taken, value.Apart store) :
    (store.Spares later ∧ later.Guarded) ∧
      Activation.Belongs ⟨shape, args ++ headerWords base back, []⟩ later
        (instruction.invokes? store taken) ∧
      ∀ place value, args[place]? = some value → value.Apart later ∨
        place = 0 ∧ ∃ id, instruction.invokes? store taken = some id ∧
          value = .array (later.carrier id) := by
  have lawful := surroundings.discretion_lawful
  have obeys : surroundings.discretion.obeys store := ⟨guarded, discreet⟩
  cases calls with
  | function target =>
      refine ⟨⟨.refl, guarded⟩, ?_, ?_⟩
      · exact .called (tells.called (Array.mem_of_getElem? found) target here) apart
      · exact fun place value among => .inl (apart value (List.mem_of_getElem? among))
  | @closure id args entry later known target arity resolves =>
      have follows := @Discipline.Lawful.resolveClosure _ _ _ lawful obeys id (args.length + 1)
      rw [resolves] at follows
      have literal := (sound.closures id known).literal
      have carrier := follows.1.carrier id known
      have apartArgs : ∀ value ∈ args, value.Apart later := fun value present =>
        (apart value (List.mem_cons_of_mem _ present)).mono follows.1.toExtends
      rw [show (store.closure id).captures = later.carrier id from carrier.symm]
      exact ⟨follows, .invoked (tells.literal literal target here) (known.mono follows.1.closures)
        apartArgs, passed_invoked apartArgs⟩
  | @member name receiver id args entry middle later gives known target arity resolves =>
      rcases Effect.callMember_closure gives with ⟨object, rfl, field, rfl⟩
      have follows := @Discipline.Lawful.resolveClosure _ _ _ lawful obeys id (args.length + 1)
      rw [resolves] at follows
      have literal := (sound.closures id known).literal
      have apartArgs : ∀ value ∈ args, value.Apart later := fun value present =>
        (apart value (List.mem_cons_of_mem _ present)).mono follows.1.toExtends
      have invokes : Instruction.invokes? middle (.callMethod name args.length)
          (.object object :: args) = some id := by
        simp [Instruction.invokes?, field]
      rw [invokes]
      exact ⟨follows, .invoked (tells.literal literal target here) (known.mono follows.1.closures)
        apartArgs, passed_invoked apartArgs⟩

end Calls

namespace Tower

variable {surroundings : Surroundings} {tower next : Tower} {chart : Chart} {store later : Store}
  {owner : Option ClosureId} {owners others : List (Option ClosureId)} {capacity ip there : Nat}
  {point : Point} {tags : List Tag} {shape : Shape} {instruction : Instruction}
  {below taken args : List Value} {iterators : List Nat} {debug after : List DebugContext}

theorem invoked?_of_operands (operands : tower.active.operands = below ++ taken)
    (takes : instruction.callOperands? = some taken.length) :
    instruction.invoked? store tower.values = instruction.invokes? store taken := by
  have values : tower.values = tower.floor ++ below ++ taken := by
    rw [Tower.values, operands, List.append_assoc]
  rw [Instruction.invoked?, takes, Option.bind_some, values, List.length_append,
    Nat.add_sub_cancel_right, List.drop_left]

/-- A call. The frame that it makes belongs to the closure that it invokes, if it invokes one. -/
theorem Heeds.calls {entry : FunctionEntry} (charted : surroundings.program.Charted chart)
    (tells : chart.TellsKeepers surroundings.program)
    (discreet : surroundings.registry.Discreet store) (sound : store.Sound surroundings.program)
    (heeds : tower.Heeds chart ip owners store)
    (found : surroundings.program.instructions[ip]? = some instruction)
    (here : chart ip = some (tower.active.shape, point)) (arity : shape.arity = entry.arity)
    (operands : tower.active.operands = below ++ taken)
    (calls : instruction.Calls surroundings store taken args later entry)
    (atEntry : chart entry.offset = some (shape, .entry)) :
    tower.HandsOver ⟨tower.globals, ⟨shape, args ++ headerWords tower.base (ip + 1), []⟩,
      { tower.active with operands := below } :: tower.callers⟩ chart entry.offset store later
      instruction owners := by
  rcases charted.calls here found calls with ⟨⟨tags, iterators, behind, rfl, placed, meets⟩, _⟩
  rcases heeds.at_settled here rfl with ⟨owner, others, rfl, owned, matched⟩
  rw [operands] at matched
  rcases matched.parts (by simp) with ⟨above, stays⟩
  rcases calls.passes tower.base (ip + 1) tells discreet sound owned.guarded found atEntry
    (above.apart (by simp [List.mem_replicate])) with ⟨⟨spares, guarded⟩, belongs, passed⟩
  have invoked := @invoked?_of_operands tower store instruction below taken operands calls.callOperands
  have heirs : handOver tower.callers.length (tower.callers.length + 1)
      (instruction.invoked? store tower.values) (owner :: others) =
        instruction.invokes? store taken :: owner :: others := by
    rw [handOver, if_pos (Nat.lt_succ_self _), invoked]
  refine ⟨?_, ?_, ?_⟩
  · rw [List.length_cons, heirs]
    have waits := owned.active.mono spares.toExtends
    refine .settled atEntry rfl ⟨guarded, ?_, belongs, ?_⟩ rfl
    · exact fun value present => (owned.globals value present).mono spares.toExtends
    · refine ⟨owner, others, tower.base, ip + 1, rfl,
        Activation.header_entered (arity.trans calls.arity), ?_, ?_⟩
      · exact ⟨⟨waits.keeps, waits.carrier, waits.slots⟩, tags, iterators, behind, placed, meets,
          stays.later spares.toExtends⟩
      · exact (owned.callers.mono spares.toExtends).of_header fun _ _ header =>
          ⟨header.saved, header.resumption⟩
  · intro id has
    exact ⟨has.mono spares.toExtends, spares.carrier id has, .inl (spares.kept id has)⟩
  · intro place value found
    have values : Tower.values ⟨tower.globals,
        ⟨shape, args ++ headerWords tower.base (ip + 1), []⟩,
        { tower.active with operands := below } :: tower.callers⟩ =
          tower.floor ++ below ++ (args ++ headerWords tower.base (ip + 1)) := by
      simp [Tower.values, floor, content]
    rw [values] at found
    rcases @getElem?_shared _ taken _ _ _ found with same | ⟨late, new⟩
    · refine .inl ?_
      rwa [Tower.values, operands, ← List.append_assoc]
    · rcases Nat.lt_or_ge (place - (tower.floor ++ below).length) args.length with early | header
      · rw [List.getElem?_append_left early] at new
        rcases passed _ _ new with apart | ⟨first, id, invokes, rfl⟩
        · exact .inr (.inl apart)
        · refine .inr (.inr ⟨id, rfl, .inr ⟨?_, ?_⟩⟩)
          · rw [List.length_cons, heirs, invokes]
          · rw [show place = (tower.floor ++ below).length by omega]
            simp [Tower.base, floor, content]
      · rw [List.getElem?_append_right header] at new
        exact .inr (.inl (apart_headerWords value (List.mem_of_getElem? new)))

/-- A return. The caller goes on as what it waited for. -/
theorem Heeds.leaves {value : Value} {caller : Activation} {rest : List Activation}
    (charted : surroundings.program.Charted chart)
    (small : surroundings.program.size < twoTo 63)
    (heeds : tower.Heeds chart ip owners store)
    (here : chart ip = some (tower.active.shape, .leaving (.any :: tags)))
    (operands : tower.active.operands = below ++ [value])
    (callers : tower.callers = caller :: rest)
    (header : tower.active.Header (tower.globals ++ content rest).length there)
    (thereSmall : there < twoTo 63) :
    tower.HandsOver ⟨tower.globals, { caller with operands := caller.operands ++ [value] }, rest⟩
      chart there store store instruction owners := by
  rcases heeds.at_settled here rfl with ⟨owner, others, rfl, owned, matched⟩
  rw [operands] at matched
  have apart : value.Apart store := matched.pop.1
  have attended := owned.callers
  rw [callers] at attended
  rcases attended with ⟨owner, others, base, back, rfl, itsHeader, awaits, attended⟩
  rcases awaits with ⟨belongs, tags, iterators, point, placed, meets, waits⟩
  have backSmall : back < twoTo 63 := Nat.lt_trans (charted.place_lt placed) small
  obtain rfl : there = back := itsHeader.same_ip header backSmall thereSmall
  have heirs : ∀ leaving, handOver tower.callers.length rest.length
      (instruction.invoked? store tower.values) (leaving :: owner :: others) = owner :: others := by
    intro leaving
    rw [callers, handOver, if_neg (by simp), if_pos (by simp), List.tail_cons]
  refine ⟨?_, fun id has => ⟨has, rfl, .inl rfl⟩, ?_⟩
  · rw [heirs]
    cases meets
    refine .settled placed rfl ⟨owned.guarded, owned.globals, ?_, ?_⟩ (waits.push apart)
    · exact ⟨belongs.keeps, belongs.carrier, belongs.slots⟩
    · exact attended.of_header fun _ _ header => ⟨header.saved, header.resumption⟩
  · intro place other found
    have values : Tower.values ⟨tower.globals, { caller with operands := caller.operands ++ [value] },
        rest⟩ = tower.globals ++ content (caller :: rest) ++ [value] := by
      simp [Tower.values, floor, content]
    rw [values] at found
    rcases @getElem?_shared _ (tower.active.slots ++ tower.active.operands) _ _ _ found with
      same | ⟨_, new⟩
    · refine .inl ?_
      rwa [Tower.values, floor, callers, List.append_assoc]
    · have last := List.mem_singleton.mp (List.mem_of_getElem? new)
      exact .inr (.inl (last ▸ apart))

/-- Every step keeps frames in order with their owners. -/
theorem Heeds.handsOver (charted : surroundings.program.Charted chart)
    (tells : chart.TellsKeepers surroundings.program)
    (small : surroundings.program.size < twoTo 63)
    (discreet : surroundings.registry.Discreet store)
    (found : surroundings.program.instructions[ip]? = some instruction)
    (change : Change surroundings tower (ip + 1) debug store instruction next there after later)
    (holds : tower.Holds surroundings.program chart capacity ip store)
    {final : Store} (holdsNext : next.Holds surroundings.program chart capacity there final)
    (heeds : tower.Heeds chart ip owners store) :
    tower.HandsOver next chart there store later instruction owners := by
  rcases holds.here with ⟨point, here, _⟩
  rcases charted.checked ip _ point here with ⟨_, _, same, checked, falls⟩
  cases found.symm.trans same
  have move := change.move
  cases change with
  | works operands works => exact heeds.works charted discreet found here operands works
  | @loadLocal slot value slotFound =>
      cases checked with
      | plain effect => cases effect
      | loadLocal valid =>
          rcases falls _ rfl with ⟨target, placed, meets⟩
          rcases heeds.at_settled here rfl with ⟨owner, others, rfl, owned, matched⟩
          exact .loads .any owned matched (owned.active.slots slot value valid.behind slotFound)
            nofun placed meets
      | loadIterator valid known =>
          rcases falls _ rfl with ⟨target, placed, meets⟩
          rcases heeds.at_settled here rfl with ⟨owner, others, rfl, owned, matched⟩
          exact .loads .iterator owned matched
            (owned.active.slots slot value valid.behind slotFound) nofun placed meets
      | loadCarrier keeps =>
          rcases falls _ rfl with ⟨target, placed, meets⟩
          rcases heeds.at_settled here rfl with ⟨owner, others, rfl, owned, matched⟩
          rcases Option.isSome_iff_exists.mp (owned.active.keeps.mpr keeps) with ⟨id, rfl⟩
          rcases owned.active.carrier id rfl with ⟨has, first⟩
          cases first.symm.trans slotFound
          exact .loads .carrier owned matched ⟨id, rfl, has, rfl⟩ (fun _ => rfl) placed meets
  | @storeLocal slot below value operands valid inside =>
      cases checked with
      | plain effect => cases effect
      | storeLocal | storeIterator =>
          rcases falls _ rfl with ⟨target, placed, meets⟩
          rcases heeds.at_settled here rfl with ⟨owner, others, rfl, owned, matched⟩
          rw [operands] at matched
          rcases matched.pop with ⟨grants, matched⟩
          exact .writes owned move valid inside operands grants matched placed meets
  | @loadGlobal slot value slotFound =>
      cases checked with
      | plain effect => cases effect
      | loadGlobal =>
          rcases falls _ rfl with ⟨target, placed, meets⟩
          rcases heeds.at_settled here rfl with ⟨owner, others, rfl, owned, matched⟩
          exact .loads .any owned matched
            (owned.globals value (List.mem_of_getElem? slotFound)) nofun placed meets
  | @storeGlobal slot below value operands inside =>
      cases checked with
      | plain effect => cases effect
      | storeGlobal =>
          rcases falls _ rfl with ⟨target, placed, meets⟩
          rcases heeds.at_settled here rfl with ⟨owner, others, rfl, owned, matched⟩
          rw [operands] at matched
          rcases matched.pop with ⟨grants, matched⟩
          have follows := @Discipline.Lawful.storeGlobal _ _ _ surroundings.discretion_lawful
            ⟨owned.guarded, discreet⟩ surroundings.program.globals[slot]? value grants
          exact .writesGlobal owned move inside operands grants matched follows.1 follows.2 placed
            meets
  | allocFrame =>
      cases checked with
      | plain effect => cases effect
      | allocFrame =>
          rcases falls _ rfl with ⟨target, placed, meets⟩
          rcases heeds.at_settled here rfl with ⟨owner, others, rfl, owned, matched⟩
          cases meets
          exact .allocates owned move placed
  | pushDebug =>
      cases checked with
      | plain effect => cases effect
      | pushDebug =>
          rcases falls _ rfl with ⟨target, placed, meets⟩
          rcases heeds.at_settled here rfl with ⟨owner, others, rfl, owned, matched⟩
          cases meets
          exact .within owned move rfl .refl owned.guarded owned.globals owned.active placed rfl
            matched fun _ _ found => .inl found
  | popDebug =>
      cases checked with
      | plain effect => cases effect
      | popDebug =>
          rcases falls _ rfl with ⟨target, placed, meets⟩
          rcases heeds.at_settled here rfl with ⟨owner, others, rfl, owned, matched⟩
          cases meets
          exact .within owned move rfl .refl owned.guarded owned.globals owned.active placed rfl
            matched fun _ _ found => .inl found
  | call arity operands calls =>
      rcases charted.calls here found calls with ⟨_, _, _, entry⟩
      rcases holdsNext.here with ⟨_, atEntry, _⟩
      cases entry.symm.trans atEntry
      exact heeds.calls charted tells discreet holds.sound found here arity operands calls entry
  | leave operands callers header =>
      cases checked with
      | plain effect => cases effect
      | returnValue =>
          rcases holdsNext.here with ⟨_, placed, _⟩
          exact heeds.leaves charted small here operands callers header
            (Nat.lt_trans (charted.place_lt placed) small)

end Tower

end ScriptMachine
