import ScriptMachine.Proofs.Image.Progress

/-!
# Declared counts

The readers of an image that have loops are written here once more, with a tally of the counts that
were read and of the elements that the loops met. The tally does not change what is read. As every
element takes a byte besides those that its own loops take, no more elements are met than bytes are
taken, whether reading succeeds or fails; and if it succeeds, all that was announced has been met.
-/

namespace ScriptMachine

/-- How many elements the counts announced that were read so far, and how many were met. -/
structure Tally where
  announced : Nat
  met : Nat

/-- An operation of a reader that keeps a tally. -/
abbrev Tallying := ExceptT ImageError (StateM (ByteReader × Tally))

namespace Tallying

open Image

/-- A reader without loops. -/
def plain {α : Type} (reader : Read α) : Tallying α := ExceptT.mk fun (start, tally) =>
  ((reader.run start).1, (reader.run start).2, tally)

def announce (count : Nat) : Tallying Unit :=
  modify fun (place, tally) => (place, { tally with announced := tally.announced + count })

/-- An element of a loop. -/
def meet {α : Type} (element : Tallying α) : Tallying α := do
  let value ← element
  modify fun (place, tally) => (place, { tally with met := tally.met + 1 })
  return value

def many {α : Type} (element : Tallying α) : Nat → Tallying (List α)
  | 0 => return []
  | count + 1 => do
      let first ← meet element
      let rest ← many element count
      return first :: rest

def counted {α : Type} (element : Tallying α) : Tallying (List α) := do
  let count ← plain Read.varint
  announce count
  many element count

def texts : Tallying (List String) := counted (plain Read.text)

mutual

def type : Nat → Tallying TypeRef
  | 0 => plain (readType 0)
  | bound + 1 => do
      let (tag, start) ← plain discriminator
      match tag with
      | 0 => return .any
      | 1 => return .named (← plain Read.text)
      | 2 => return .nullable (← type bound)
      | 3 => return .generic (← plain Read.text)
      | 4 => do
          let base ← plain Read.text
          let count ← plain Read.varint
          announce count
          return .applied base (← types bound count)
      | value => throw (.unknownDiscriminator "type" value start)

def types : Nat → Nat → Tallying (List TypeRef)
  | _, 0 => return []
  | 0, count + 1 => plain (readTypes 0 (count + 1))
  | bound + 1, count + 1 => do
      let first ← meet (type bound)
      let rest ← types bound count
      return first :: rest

end

def functionRef : Tallying FunctionRef := do
  let path ← texts
  let name ← plain Read.text
  return ⟨path, name⟩

def binding : Tallying (Option HostFunctionRef) := do
  if ← plain Read.flag then
    let name ← plain Read.text
    let count ← plain Read.varint
    announce count
    let signature ← types (← plain typeBound) count
    return some ⟨name, signature⟩
  return none

/-- The byte that comes next, if there is one. -/
def ahead : Tallying (Option Nat) := return (← get).1.rest.head?.map UInt8.toNat

/-- An instruction. Only a function, a host function and a closure have counts. -/
def instruction : Tallying Instruction := do
  match ← ahead with
  | some 13 => do
      let _ ← plain discriminator
      let function ← functionRef
      return .callFunction function (← plain Read.word32)
  | some 14 => do
      let _ ← plain discriminator
      let name ← plain Read.text
      let argc ← plain Read.word32
      return .callHost name argc (← binding)
  | some 18 => do
      let _ ← plain discriminator
      return .makeClosure (← functionRef)
  | _ => plain readInstruction

def node : Tallying ListedNode := do
  let functions ← counted (plain readEntry)
  let children ← counted (plain readChild)
  return ⟨functions, children⟩

def namespaces : Tallying NamespaceNode := do
  let nodes ← counted node
  plain (liftM (buildNamespaces nodes))

def header : Tallying (Dictionary String) := do
  let reader ← plain get
  match Read.split? mark.length reader.rest with
  | none => throw .invalidHeader
  | some _ =>
      let start ← plain (Read.raw mark.length)
      if start ≠ mark then throw .invalidHeader
      let found ← plain Read.varint
      if found ≠ version then throw (.unsupportedVersion found)
      return Dictionary.ofPairs (← counted (plain readMetadataEntry))

/-- An image behind its start. -/
def body (trusted : Bool) (metadata : Dictionary String) : Tallying Program := do
  let globals ← texts
  let namespaces ← namespaces
  let instructions ← counted instruction
  plain (readEnd trusted ⟨instructions.toArray, namespaces, globals, metadata⟩)

/-- A whole image. -/
def program (trusted : Bool) : Tallying Program :=
  (if trusted then pure [] else header) >>= body trusted

end Tallying

/-! ## What a tally tells -/

/-- An operation with a tally that reads what another one reads. Behind it all is met that it
announced, and `due` elements that were announced before. For each it took a byte, and `least` bytes
besides. -/
structure Tallies {α : Type} (least due : Nat) (tallying : Tallying α) (reader : Read α) :
    Prop where
  ok : ∀ {start value later}, reader.run start = (.ok value, later) → ∀ tally, ∃ after,
    tallying.run (start, tally) = (.ok value, later, after) ∧
      after.announced + tally.met + due = tally.announced + after.met ∧
      after.met + start.offset + least ≤ tally.met + later.offset
  error : ∀ {start error later}, reader.run start = (.error error, later) → ∀ tally, ∃ after,
    tallying.run (start, tally) = (.error error, later, after) ∧
      after.met + start.offset ≤ tally.met + later.offset

namespace Tallies

open Read Tallying

variable {α β : Type} {least more due further : Nat}

theorem run_bind (first : Tallying α) (next : α → Tallying β) (state : ByteReader × Tally) :
    (first >>= next).run state =
      match first.run state with
      | (.ok value, later) => (next value).run later
      | (.error error, later) => (.error error, later) := by
  change (ExceptT.bindCont next (first.run state).1 : StateM (ByteReader × Tally) _)
    (first.run state).2 = _
  generalize first.run state = result
  rcases result with ⟨_ | _, _⟩ <;> rfl

theorem plain {reader : Read α} (composed : Composed least reader) :
    Tallies least 0 (plain reader) reader where
  ok := by
    intro start value later read tally
    have offset := (composed.ahead_ok read).offset_le
    refine ⟨tally, ?_, by omega, by omega⟩
    change (_, _, _) = _
    rw [read]
  error := by
    intro start error later read tally
    have offset := (composed.ahead_error read).offset_le
    refine ⟨tally, ?_, by omega⟩
    change (_, _, _) = _
    rw [read]

protected theorem pure (value : α) : Tallies 0 0 (pure value) (pure value) :=
  plain (.pure value)

protected theorem throw (error : ImageError) : Tallies least due (throw error : Tallying α)
    (throw error) where
  ok := by rintro _ _ _ ⟨⟩
  error := by
    rintro start _ _ ⟨⟩ tally
    exact ⟨tally, rfl, Nat.le_refl _⟩

/-- A reader that gives up as if it had run out of bytes meets whatever is due. -/
theorem eof : Tallies least due
    (Tallying.plain (do throw (.unexpectedEof (← get).total)) : Tallying α)
    (do throw (.unexpectedEof (← get).total)) where
  ok := by rintro _ _ _ ⟨⟩
  error := by
    rintro start _ _ ⟨⟩ tally
    exact ⟨tally, rfl, Nat.le_refl _⟩

theorem fewer {tallying : Tallying α} {reader : Read α}
    (tallies : Tallies least due tallying reader) (fewer : more ≤ least) :
    Tallies more due tallying reader where
  ok := by
    intro start value later read tally
    rcases tallies.ok read tally with ⟨after, same, all, bytes⟩
    exact ⟨after, same, all, by omega⟩
  error := tallies.error

protected theorem bind {first : Tallying α} {one : Read α} {next : α → Tallying β}
    {two : α → Read β} (start : Tallies least due first one)
    (continues : ∀ value, Tallies more further (next value) (two value)) :
    Tallies (least + more) (due + further) (first >>= next) (one >>= two) where
  ok := by
    intro place result later read tally
    rcases run_bind_ok_iff.mp read with ⟨value, middle, found, ended⟩
    rcases start.ok found tally with ⟨between, same, all, bytes⟩
    rcases (continues value).ok ended between with ⟨after, sameToo, allToo, bytesToo⟩
    refine ⟨after, ?_, by omega, by omega⟩
    rw [run_bind, same]
    exact sameToo
  error := by
    intro place error later read tally
    rw [Read.run_bind] at read
    rcases found : one.run place with ⟨early | value, middle⟩
    · rw [found] at read
      cases read
      rcases start.error found tally with ⟨after, same, bytes⟩
      refine ⟨after, ?_, bytes⟩
      rw [run_bind, same]
    · rw [found] at read
      rcases start.ok found tally with ⟨between, same, _, bytes⟩
      rcases (continues value).error read between with ⟨after, sameToo, bytesToo⟩
      refine ⟨after, ?_, by omega⟩
      rw [run_bind, same]
      exact sameToo

theorem lead {first : Tallying α} {one : Read α} {next : α → Tallying β} {two : α → Read β}
    (start : Tallies least due first one)
    (continues : ∀ value, Tallies 0 0 (next value) (two value)) :
    Tallies least due (first >>= next) (one >>= two) :=
  start.bind continues

theorem follow {first : Tallying α} {one : Read α} {next : α → Tallying β} {two : α → Read β}
    (start : Tallies more 0 first one)
    (continues : ∀ value, Tallies least due (next value) (two value)) :
    Tallies least due (first >>= next) (one >>= two) := by
  have both := start.bind continues
  rw [Nat.zero_add] at both
  exact both.fewer (Nat.le_add_left least more)

theorem map {tallying : Tallying α} {reader : Read α} (tallies : Tallies least due tallying reader)
    (wrap : α → β) :
    Tallies least due (tallying >>= fun value => pure (wrap value))
      (reader >>= fun value => pure (wrap value)) :=
  tallies.lead fun value => .pure (wrap value)

theorem any {tallying : Tallying α} {reader : Read α}
    (tallies : Tallies least due tallying reader) : Tallies 0 due tallying reader :=
  tallies.fewer (Nat.zero_le _)

/-- A loop that was announced is not due any more. -/
theorem announced {loop : Tallying α} {reader : Read α} {count : Nat}
    (tallies : Tallies least count loop reader) :
    Tallies least 0 (announce count >>= fun _ => loop) reader where
  ok := by
    intro start value later read tally
    rcases tallies.ok read { tally with announced := tally.announced + count } with
      ⟨after, same, all, bytes⟩
    dsimp only at all bytes
    exact ⟨after, same, by omega, bytes⟩
  error := by
    intro start error later read tally
    exact tallies.error read { tally with announced := tally.announced + count }

/-- An element is met for a byte that it takes. -/
theorem met {element : Tallying α} {reader : Read α} (tallies : Tallies 1 0 element reader) :
    Tallies 0 1 (meet element) reader where
  ok := by
    intro start value later read tally
    rcases tallies.ok read tally with ⟨after, same, all, bytes⟩
    refine ⟨{ after with met := after.met + 1 }, ?_, ?_, ?_⟩
    · rw [meet, run_bind, same]
      rfl
    · dsimp only
      omega
    · dsimp only
      omega
  error := by
    intro start error later read tally
    rcases tallies.error read tally with ⟨after, same, bytes⟩
    refine ⟨after, ?_, bytes⟩
    rw [meet, run_bind, same]

/-- A loop meets one element, and then the others. -/
theorem cons {element : Tallying α} {reader : Read α} {loop : Tallying (List α)}
    {others : Read (List α)} {count : Nat} (one : Tallies 1 0 element reader)
    (tallies : Tallies 0 count loop others) :
    Tallies 0 (count + 1)
      (meet element >>= fun first => loop >>= fun rest => pure (first :: rest))
      (reader >>= fun first => others >>= fun rest => pure (first :: rest)) := by
  have both := one.met.bind fun first => tallies.map (first :: ·)
  rw [Nat.add_comm 1 count] at both
  exact both

end Tallies

/-! ## The readers with loops -/

namespace Image

open Read

section Lists

variable {α : Type} {tallying : Tallying α} {element : Read α}

theorem tallies_many (tallies : Tallies 1 0 tallying element) (count : Nat) :
    Tallies 0 count (Tallying.many tallying count) (many element count) := by
  induction count with
  | zero => exact .pure _
  | succ count ih => exact tallies.cons ih

theorem tallies_counted (tallies : Tallies 1 0 tallying element) :
    Tallies 1 0 (Tallying.counted tallying) (counted element) := by
  apply (Tallies.plain composed_varint).lead
  intro count
  exact (tallies_many tallies count).announced

end Lists

theorem tallies_texts : Tallies 1 0 Tallying.texts texts := tallies_counted (.plain composed_text)

mutual

theorem tallies_type : ∀ bound, Tallies 1 0 (Tallying.type bound) (readType bound)
  | 0 => by
      rw [Tallying.type]
      exact .plain (composed_readType 0)
  | bound + 1 => by
      have inner := tallies_type bound
      have list := tallies_types bound
      have text := (Tallies.plain composed_text).any
      rw [Tallying.type, readType]
      apply (Tallies.plain composed_discriminator).lead
      rintro ⟨tag, start⟩
      match tag with
      | 0 => exact .pure _
      | 1 => exact text.map _
      | 2 => exact inner.any.map _
      | 3 => exact text.map _
      | 4 =>
          apply text.lead
          intro base
          apply (Tallies.plain composed_varint).any.lead
          intro count
          exact ((list count).map _).announced
      | value + 5 => exact .throw _

theorem tallies_types : ∀ bound count,
    Tallies 0 count (Tallying.types bound count) (readTypes bound count)
  | bound, 0 => by
      rw [Tallying.types, readTypes]
      exact .pure _
  | 0, count + 1 => by
      rw [Tallying.types, readTypes]
      exact .eof
  | bound + 1, count + 1 => by
      rw [Tallying.types, readTypes]
      exact (tallies_type bound).cons (tallies_types bound count)

end

theorem tallies_functionRef : Tallies 1 0 Tallying.functionRef readFunctionRef := by
  apply tallies_texts.lead
  intro path
  exact (Tallies.plain composed_text).any.map _

theorem tallies_binding : Tallies 1 0 Tallying.binding readBinding := by
  apply (Tallies.plain composed_flag).lead
  intro bound
  split
  · apply (Tallies.plain composed_text).any.lead
    intro name
    apply (Tallies.plain composed_varint).any.lead
    intro count
    apply Tallies.announced
    apply (Tallies.plain composed_typeBound).follow
    intro bound
    exact (tallies_types bound count).map _
  · exact .pure _

/-! ## Instructions -/

section Opcodes

variable {opcode : Nat}

/-- A reader with a tally that looks at the next byte first. -/
theorem tallies_ahead {α : Type} {next : Option Nat → Tallying α} {reader : Read α}
    (ended : Tallies 1 0 (next none) reader)
    (continues : ∀ opcode, ∃ other, Tallies 1 0 (next (some opcode)) other ∧
      ∀ start, start.rest.head?.map UInt8.toNat = some opcode →
        reader.run start = other.run start) :
    Tallies 1 0 (Tallying.ahead >>= next) reader where
  ok := by
    intro start value later read tally
    change ∃ after, (next (start.rest.head?.map UInt8.toNat)).run (start, tally) = _ ∧ _
    rcases first : start.rest.head?.map UInt8.toNat with _ | opcode
    · exact ended.ok read tally
    · rcases continues opcode with ⟨other, tallies, same⟩
      rw [same start first] at read
      exact tallies.ok read tally
  error := by
    intro start error later read tally
    change ∃ after, (next (start.rest.head?.map UInt8.toNat)).run (start, tally) = _ ∧ _
    rcases first : start.rest.head?.map UInt8.toNat with _ | opcode
    · exact ended.error read tally
    · rcases continues opcode with ⟨other, tallies, same⟩
      rw [same start first] at read
      exact tallies.error read tally

/-- An opcode that is next is the one that is read. -/
theorem run_discriminator {start : ByteReader}
    (next : start.rest.head?.map UInt8.toNat = some opcode) :
    discriminator.run start =
      (.ok (opcode, start.offset), ⟨start.rest.tail, start.offset + 1⟩) := by
  rcases start with ⟨_ | ⟨first, rest⟩, offset⟩
  · cases next
  · cases next
    rfl

/-- A reader that reads an opcode first does what it does for the one that is next. -/
theorem run_opcode {α : Type} {start : ByteReader} {next : Nat × Nat → Read α} {operands : Read α}
    (first : start.rest.head?.map UInt8.toNat = some opcode)
    (same : ∀ offset, next (opcode, offset) = operands) :
    (discriminator >>= next).run start = (discriminator >>= fun _ => operands).run start := by
  apply run_bind_congr
  intro value later read
  rw [run_discriminator first] at read
  cases read
  rw [same]

end Opcodes

theorem tallies_instruction : Tallies 1 0 Tallying.instruction readInstruction := by
  have text := (Tallies.plain composed_text).any
  have word := (Tallies.plain composed_word32).any
  have operands {α : Type} {tallying : Tallying α} {reader : Read α}
      (tallies : Tallies 0 0 tallying reader) :=
    (Tallies.plain composed_discriminator).lead fun _ => tallies
  apply tallies_ahead
  · exact .plain composed_instruction
  · intro opcode
    split
    case h_1 same =>
      cases same
      refine ⟨_, operands (tallies_functionRef.any.lead fun _ => word.map _), ?_⟩
      intro start first
      exact run_opcode first fun _ => rfl
    case h_2 same =>
      cases same
      refine ⟨_, operands (text.lead fun _ => word.lead fun _ => tallies_binding.any.map _), ?_⟩
      intro start first
      exact run_opcode first fun _ => rfl
    case h_3 same =>
      cases same
      refine ⟨_, operands (tallies_functionRef.any.map _), ?_⟩
      intro start first
      exact run_opcode first fun _ => rfl
    case h_4 => exact ⟨_, .plain composed_instruction, fun _ _ => rfl⟩

/-! ## Images -/

theorem tallies_node : Tallies 1 0 Tallying.node readNode := by
  apply (tallies_counted (.plain composed_entry)).lead
  intro functions
  exact (tallies_counted (.plain composed_child)).any.map _

theorem tallies_namespaces : Tallies 1 0 Tallying.namespaces readNamespaces := by
  apply (tallies_counted tallies_node).lead
  intro nodes
  exact .plain (.lift _)

theorem tallies_header : Tallies 0 0 Tallying.header readHeader := by
  apply (Tallies.plain .look).lead
  intro reader
  cases Read.split? mark.length reader.rest with
  | none => exact .throw _
  | some _ =>
      apply (Tallies.plain (.raw _)).any.lead
      intro start
      dsimp only
      split
      · exact .throw _
      · apply (Tallies.plain composed_varint).any.lead
        intro found
        split
        · exact .throw _
        · exact (tallies_counted (.plain composed_metadataEntry)).any.map _

theorem tallies_body (trusted : Bool) (metadata : Dictionary String) :
    Tallies 0 0 (Tallying.body trusted metadata) (readBody trusted metadata) := by
  rw [readBody_eq, readParts]
  simp only [bind_assoc, pure_bind]
  apply tallies_texts.any.lead
  intro globals
  apply tallies_namespaces.any.lead
  intro namespaces
  apply (tallies_counted tallies_instruction).any.lead
  intro instructions
  exact .plain (composed_end trusted _)

theorem tallies_program (trusted : Bool) :
    Tallies 0 0 (Tallying.program trusted) (readProgram trusted) := by
  rw [readProgram_eq, Tallying.program]
  apply Tallies.lead
  · split
    · exact .pure _
    · exact tallies_header
  · exact tallies_body trusted

/-- What the reading of an image comes to. -/
structure StaysInside (bytes : Bytes) (trusted : Bool) : Prop where
  /-- Reading is put together from operations that take bytes or look. -/
  composed : Composed 0 (readProgram trusted)
  /-- None of them moves back, or out of the bytes. -/
  forward : ∀ {α : Type} {least : Nat} {reader : Read α}, Composed least reader →
    ∀ start, Ahead 0 start (reader.run start).2
  /-- The bound on types is never reached. -/
  unbounded : ∀ start bound count, 2 * start.remaining + 2 ≤ bound →
    (typeBound >>= fun bound => readTypes bound count).run start = (readTypes bound count).run start
  /-- However it ends, no more elements were met than there are bytes. If it succeeds, no more were
  announced either. -/
  ends : ∃ result later tally,
    (readProgram trusted).run (.ofBytes bytes) = (result, later) ∧
      (Tallying.program trusted).run (.ofBytes bytes, ⟨0, 0⟩) = (result, later, tally) ∧
      read bytes trusted = result ∧ later.offset ≤ bytes.length ∧ tally.met ≤ later.offset ∧
      ∀ program, result = .ok program →
        tally.announced = tally.met ∧ tally.announced ≤ bytes.length
  /-- A loop over more elements than bytes fails. -/
  short : ∀ {α : Type} {count : Nat} {loop : Read α}, Loop count loop →
    ∀ start, start.remaining < count → ∃ error, (loop.run start).1 = .error error

end Image

open Image in
/-- An image is read from its start towards its end, and never beyond. What it announces is not more
than it has bytes, or else it is refused. -/
theorem images_stay_inside (bytes : Bytes) (trusted : Bool) : Image.StaysInside bytes trusted where
  composed := composed_program trusted
  forward := Read.Composed.ahead_end
  unbounded := fun _ _ count enough => run_signature enough count
  ends := by
    have forward := (composed_program trusted).ahead_end (.ofBytes bytes)
    have inside : ((readProgram trusted).run (.ofBytes bytes)).2.offset ≤ bytes.length := by
      have place : _ + _ = 0 + bytes.length := forward.total_eq
      omega
    rcases ended : (readProgram trusted).run (.ofBytes bytes) with ⟨error | program, later⟩
    · rw [ended] at inside
      rcases (tallies_program trusted).error ended ⟨0, 0⟩ with ⟨after, same, enough⟩
      simp only [ByteReader.ofBytes] at enough
      refine ⟨_, later, after, rfl, same, congrArg Prod.fst ended, inside, by omega, ?_⟩
      rintro _ ⟨⟩
    · rw [ended] at inside
      rcases (tallies_program trusted).ok ended ⟨0, 0⟩ with ⟨after, same, all, enough⟩
      simp only [ByteReader.ofBytes] at enough
      refine ⟨_, later, after, rfl, same, congrArg Prod.fst ended, inside, by omega, ?_⟩
      intro _ _
      dsimp only at all inside
      exact ⟨by omega, by omega⟩
  short := fun isLoop _ short => isLoop.composed.fails_of_remaining_lt short

end ScriptMachine
