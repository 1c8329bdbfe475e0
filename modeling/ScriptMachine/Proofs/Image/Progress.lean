import ScriptMachine.Proofs.Image.Prefixes

/-!
# Readers move forward

The operations of a reader are put together from two that take bytes and from one that only looks.
Whatever is put together from them moves forward within the bytes that there are, and takes at least
as many as its parts take, if it succeeds. Each element of an image takes at least one byte, so a
loop over more elements than bytes fails.

Types nest, and the bound on how deep is never reached: there are fewer bytes than that.
-/

namespace ScriptMachine

namespace Read

variable {α β : Type} {least more : Nat}

/-- A place that is at least so many bytes ahead of another. -/
def Ahead (least : Nat) (start later : ByteReader) : Prop :=
  ∃ taken : Bytes, start.rest = taken ++ later.rest ∧
    later.offset = start.offset + taken.length ∧ least ≤ taken.length

/-- An operation that is put together from those that take bytes or look, and takes at least so many
bytes if it succeeds. -/
inductive Composed : {α : Type} → Nat → Read α → Prop
  | pure {α : Type} (value : α) : Composed 0 (pure value : Read α)
  | throw {α : Type} (least : Nat) (error : ImageError) : Composed least (throw error : Read α)
  | look : Composed 0 (get : Read ByteReader)
  | byte : Composed 1 byte
  | raw (count : Nat) : Composed count (raw count)
  | bind {α β : Type} {least more : Nat} {first : Read α} {next : α → Read β}
      (one : Composed least first) (two : ∀ value, Composed more (next value)) :
      Composed (least + more) (first >>= next)
  | fewer {α : Type} {less least : Nat} {reader : Read α} (composed : Composed least reader)
      (fewer : less ≤ least) : Composed less reader

/-! ## Places -/

section Places

variable {start middle later : ByteReader}

theorem Ahead.refl (start : ByteReader) : Ahead 0 start start := ⟨[], rfl, rfl, Nat.le_refl 0⟩

theorem Ahead.trans (one : Ahead least start middle) (two : Ahead more middle later) :
    Ahead (least + more) start later := by
  rcases one with ⟨taken, rest, offset, enough⟩
  rcases two with ⟨others, restToo, offsetToo, enoughToo⟩
  refine ⟨taken ++ others, ?_, ?_, ?_⟩
  · rw [rest, restToo, List.append_assoc]
  · rw [offsetToo, offset, List.length_append, Nat.add_assoc]
  · rw [List.length_append]
    exact Nat.add_le_add enough enoughToo

theorem Ahead.fewer (ahead : Ahead least start later) (fewer : more ≤ least) :
    Ahead more start later := by
  rcases ahead with ⟨taken, rest, offset, enough⟩
  exact ⟨taken, rest, offset, Nat.le_trans fewer enough⟩

theorem Ahead.offset_le (ahead : Ahead least start later) :
    start.offset + least ≤ later.offset := by
  rcases ahead with ⟨taken, _, offset, enough⟩
  omega

theorem Ahead.remaining_le (ahead : Ahead least start later) :
    later.remaining + least ≤ start.remaining := by
  rcases ahead with ⟨taken, rest, _, enough⟩
  rw [ByteReader.remaining, ByteReader.remaining, rest, List.length_append]
  omega

theorem Ahead.total_eq (ahead : Ahead least start later) : later.total = start.total := by
  rcases ahead with ⟨taken, rest, offset, _⟩
  rw [ByteReader.total, ByteReader.total, rest, offset, List.length_append, Nat.add_assoc]

end Places

/-! ## Moving forward -/

namespace Composed

/-- Where an operation ends that is put together. If it fails it stays ahead as well. -/
theorem ahead {reader : Read α} (composed : Composed least reader) (start : ByteReader) :
    match reader.run start with
    | (.ok _, later) => Ahead least start later
    | (.error _, later) => Ahead 0 start later := by
  induction composed generalizing start with
  | pure value => exact .refl start
  | throw least error => exact .refl start
  | look => exact .refl start
  | byte =>
      rcases start with ⟨_ | ⟨first, rest⟩, offset⟩
      · exact .refl _
      · exact ⟨[first], rfl, rfl, Nat.le_refl 1⟩
  | raw count =>
      rcases start with ⟨bytes, offset⟩
      rcases found : split? count bytes with _ | ⟨taken, rest⟩
      · simp only [Read.raw, ExceptT.run, ExceptT.mk, found]
        exact .refl _
      · simp only [Read.raw, ExceptT.run, ExceptT.mk, found]
        rcases split?_eq_some_iff.mp found with ⟨rfl, rfl⟩
        exact ⟨taken, rfl, rfl, Nat.le_refl _⟩
  | @bind _ _ _ _ first next _ _ one two =>
      specialize one start
      rw [run_bind]
      rcases found : first.run start with ⟨_ | value, middle⟩
      · rw [found] at one
        exact one
      · rw [found] at one
        specialize two value middle
        dsimp only at one ⊢
        rcases ended : (next value).run middle with ⟨_ | result, later⟩
        · rw [ended] at two
          exact (one.trans two).fewer (Nat.zero_le _)
        · rw [ended] at two
          exact one.trans two
  | @fewer _ _ _ reader _ fewer ih =>
      specialize ih start
      rcases ended : reader.run start with ⟨_ | result, later⟩
      · rw [ended] at ih
        exact ih
      · rw [ended] at ih
        exact ih.fewer fewer

section Runs

variable {reader : Read α} {start later : ByteReader}

theorem ahead_ok {value : α} (composed : Composed least reader)
    (read : reader.run start = (.ok value, later)) : Ahead least start later := by
  have ahead := composed.ahead start
  rwa [read] at ahead

theorem ahead_error {error : ImageError} (composed : Composed least reader)
    (read : reader.run start = (.error error, later)) : Ahead 0 start later := by
  have ahead := composed.ahead start
  rwa [read] at ahead

theorem ahead_end (composed : Composed least reader) (start : ByteReader) :
    Ahead 0 start (reader.run start).2 := by
  rcases ended : reader.run start with ⟨_ | result, later⟩
  · exact composed.ahead_error ended
  · exact (composed.ahead_ok ended).fewer (Nat.zero_le _)

/-- An operation that would take more bytes than there are fails. -/
theorem fails_of_remaining_lt (composed : Composed least reader) (short : start.remaining < least) :
    ∃ error, (reader.run start).1 = .error error := by
  rcases ended : reader.run start with ⟨error | value, later⟩
  · exact ⟨error, rfl⟩
  · have left := (composed.ahead_ok ended).remaining_le
    omega

end Runs

/-- Behind an operation that takes bytes others need not. -/
theorem lead {first : Read α} {next : α → Read β} (one : Composed least first)
    (two : ∀ value, Composed 0 (next value)) : Composed least (first >>= next) :=
  one.bind two

/-- Before an operation that takes bytes others need not. -/
theorem follow {first : Read α} {next : α → Read β} (one : Composed more first)
    (two : ∀ value, Composed least (next value)) : Composed least (first >>= next) :=
  (one.bind two).fewer (Nat.le_add_left least more)

theorem map {reader : Read α} (composed : Composed least reader) (wrap : α → β) :
    Composed least (reader >>= fun value => Pure.pure (wrap value)) :=
  composed.lead fun value => .pure (wrap value)

theorem any {reader : Read α} (composed : Composed least reader) : Composed 0 reader :=
  composed.fewer (Nat.zero_le _)

theorem lift (result : Except ImageError α) : Composed 0 (liftM result : Read α) := by
  cases result with
  | ok value => exact .pure value
  | error error => exact .throw 0 error

end Composed

/-! ## Bytes and numbers -/

theorem composed_offset : Composed 0 offset := Composed.look.map ByteReader.offset

theorem composed_remaining : Composed 0 remaining := Composed.look.map ByteReader.remaining

theorem composed_flag : Composed 1 flag := by
  apply composed_offset.follow
  intro start
  apply Composed.byte.lead
  intro value
  split
  · exact .pure _
  · split
    · exact .pure _
    · exact .throw _ _

theorem composed_groups (start bound shift low : Nat) :
    Composed 1 (groups start bound shift low) := by
  induction bound generalizing shift low with
  | zero => exact .throw _ _
  | succ bound ih =>
      apply Composed.byte.lead
      intro group
      dsimp only
      split
      · exact .pure _
      · exact (ih _ _).any

theorem composed_varint : Composed 1 varint :=
  composed_offset.follow fun start => composed_groups start 10 0 0

theorem composed_word32 : Composed 1 word32 := by
  apply composed_offset.follow
  intro start
  apply composed_varint.lead
  intro value
  split
  · exact .pure _
  · exact .throw _ _

theorem composed_zigzag : Composed 1 zigzag := composed_varint.map _

theorem composed_binary64 : Composed 8 binary64 := (Composed.raw 8).map _

theorem composed_text : Composed 1 text := by
  apply composed_varint.lead
  intro length
  apply composed_offset.follow
  intro start
  apply (Composed.raw length).any.lead
  intro bytes
  split
  · exact .pure _
  · exact .throw _ _

theorem composed_many {element : Read α} (composed : Composed 1 element) (count : Nat) :
    Composed count (many element count) := by
  induction count with
  | zero => exact .pure _
  | succ count ih =>
      rw [many, Nat.add_comm]
      apply composed.bind
      intro first
      exact ih.map _

theorem composed_counted {element : Read α} (composed : Composed 1 element) :
    Composed 1 (counted element) :=
  composed_varint.lead fun count => (composed_many composed count).any

theorem composed_texts : Composed 1 texts := composed_counted composed_text

end Read

namespace Image

open Read

/-! ## Instructions -/

theorem composed_discriminator : Composed 1 discriminator :=
  composed_offset.follow fun start => Composed.byte.map fun value => (value.toNat, start)

mutual

theorem composed_readType : ∀ bound, Composed 1 (readType bound)
  | 0 => by
      rw [readType]
      exact Composed.look.follow fun _ => .throw _ _
  | bound + 1 => by
      have inner := composed_readType bound
      have list := composed_readTypes bound
      rw [readType]
      apply composed_discriminator.lead
      rintro ⟨tag, start⟩
      dsimp only
      split
      · exact .pure _
      · exact (composed_text.map _).any
      · exact (inner.map _).any
      · exact (composed_text.map _).any
      · apply composed_text.any.lead
        intro base
        apply composed_varint.any.lead
        intro count
        exact ((list count).map _).any
      · exact .throw _ _

theorem composed_readTypes : ∀ bound count, Composed count (readTypes bound count)
  | bound, 0 => by
      rw [readTypes]
      exact .pure _
  | 0, count + 1 => by
      rw [readTypes]
      exact Composed.look.follow fun _ => .throw _ _
  | bound + 1, count + 1 => by
      have one := composed_readType bound
      have others := composed_readTypes bound count
      rw [readTypes, Nat.add_comm count]
      apply one.bind
      intro first
      exact others.map _

end

theorem composed_typeBound : Composed 0 typeBound := composed_remaining.map _

theorem composed_constant : Composed 1 readConstant := by
  apply composed_discriminator.lead
  rintro ⟨tag, start⟩
  dsimp only
  split
  · exact .pure _
  · exact (composed_flag.map _).any
  · exact (composed_zigzag.map _).any
  · exact (composed_binary64.map _).any
  · exact (composed_text.map _).any
  · exact .throw _ _

theorem composed_functionRef : Composed 1 readFunctionRef :=
  composed_texts.lead fun _ => (composed_text.map _).any

theorem composed_binding : Composed 1 readBinding := by
  apply composed_flag.lead
  intro bound
  split
  · apply composed_text.any.lead
    intro name
    apply composed_varint.any.lead
    intro count
    apply composed_typeBound.lead
    intro bound
    exact ((composed_readTypes bound count).map _).any
  · exact .pure _

theorem composed_position : Composed 1 readPosition :=
  composed_word32.lead fun _ => (composed_word32.map _).any

theorem composed_context : Composed 1 readContext := by
  apply composed_text.lead
  intro unit
  apply composed_text.any.lead
  intro function
  apply composed_position.any.lead
  intro start
  exact (composed_position.map _).any

theorem composed_binaryOp : Composed 1 readBinaryOp := by
  apply composed_discriminator.lead
  rintro ⟨tag, start⟩
  dsimp only
  split
  · exact .pure _
  · exact .throw _ _

theorem composed_unaryOp : Composed 1 readUnaryOp := by
  apply composed_discriminator.lead
  rintro ⟨tag, start⟩
  dsimp only
  split
  · exact .pure _
  · exact .throw _ _

theorem composed_instruction : Composed 1 readInstruction := by
  apply composed_discriminator.lead
  rintro ⟨opcode, start⟩
  have text := composed_text.any
  have word := composed_word32.any
  dsimp only
  split
  case h_1 | h_7 | h_23 | h_24 | h_26 | h_27 | h_28 | h_29 | h_33 | h_34 => exact .pure _
  case h_3 | h_4 | h_5 | h_6 | h_18 | h_25 | h_30 | h_31 => exact word.map _
  case h_10 | h_11 | h_12 | h_13 => exact composed_varint.any.map _
  case h_20 | h_21 => exact text.map _
  case h_2 => exact composed_constant.any.map _
  case h_8 => exact composed_binaryOp.any.map _
  case h_9 => exact composed_unaryOp.any.map _
  case h_14 => exact composed_functionRef.any.lead fun _ => word.map _
  case h_15 => exact text.lead fun _ => word.lead fun _ => composed_binding.any.map _
  case h_16 => exact text.lead fun _ => word.map _
  case h_17 =>
    exact text.lead fun _ => text.lead fun _ => word.lead fun _ => composed_flag.any.map _
  case h_19 => exact composed_functionRef.any.map _
  case h_22 => exact text.lead fun _ => text.lead fun _ => composed_flag.any.map _
  case h_32 => exact composed_context.any.map _
  case h_35 => exact .throw _ _

/-! ## Programs -/

theorem composed_entry : Composed 1 readEntry := by
  apply composed_text.lead
  intro name
  apply composed_varint.any.lead
  intro offset
  exact (composed_word32.map _).any

theorem composed_child : Composed 1 readChild :=
  composed_text.lead fun _ => (composed_varint.map _).any

theorem composed_node : Composed 1 readNode :=
  (composed_counted composed_entry).lead fun _ => ((composed_counted composed_child).map _).any

theorem composed_metadataEntry : Composed 1 readMetadataEntry :=
  composed_text.lead fun _ => (composed_text.map _).any

theorem composed_header : Composed 0 readHeader := by
  apply Composed.look.lead
  intro reader
  split
  · exact .throw _ _
  · apply (Composed.raw _).any.lead
    intro start
    split
    · exact .throw _ _
    · apply composed_varint.any.lead
      intro found
      split
      · exact .throw _ _
      · exact ((composed_counted composed_metadataEntry).map _).any

theorem composed_end (trusted : Bool) (program : Program) :
    Composed 0 (readEnd trusted program) := by
  apply composed_remaining.lead
  intro remaining
  have refused {α : Type} (error : ImageError) (next : PUnit → Read α) :
      Composed 0 (throw error >>= next) := Composed.throw 0 error
  dsimp only
  repeat' split
  all_goals first | exact refused _ _ | exact .pure _

theorem composed_program (trusted : Bool) : Composed 0 (readProgram trusted) := by
  have parts (metadata : Dictionary String) : Composed 0 (readBody trusted metadata) := by
    rw [readBody_eq]
    apply Composed.lead
    · apply composed_texts.any.lead
      intro globals
      apply ((composed_counted composed_node).any.lead fun _ => .lift _).lead
      intro namespaces
      exact ((composed_counted composed_instruction).map _).any
    · exact composed_end trusted
  rw [readProgram_eq]
  apply Composed.lead
  · split
    · exact .pure _
    · exact composed_header
  · exact parts

/-! ## The bound on types -/

section Bounds

variable {α β : Type} {start : ByteReader} {bound more : Nat}

/-- Readers that go on alike after the same beginning. -/
theorem run_bind_congr {first : Read α} {next other : α → Read β}
    (alike : ∀ value later, first.run start = (.ok value, later) →
      (next value).run later = (other value).run later) :
    (first >>= next).run start = (first >>= other).run start := by
  rw [run_bind, run_bind]
  rcases found : first.run start with ⟨_ | value, later⟩
  · rfl
  · exact alike value later found

theorem run_map_congr {reader other : Read α} {wrap : α → β}
    (alike : reader.run start = other.run start) :
    (reader >>= fun value => pure (wrap value)).run start =
      (other >>= fun value => pure (wrap value)).run start := by
  rw [run_bind, run_bind, alike]

mutual

/-- A bound above the number of bytes is never reached, so it does not matter which it is. Each type
takes a byte, and what nests in it has two fewer to reach it. -/
theorem run_readType : ∀ {bound more : Nat} {start : ByteReader}, 2 * start.remaining + 1 ≤ bound →
    2 * start.remaining + 1 ≤ more → (readType bound).run start = (readType more).run start
  | 0, _, _, enough, _ => absurd enough (Nat.not_succ_le_zero _)
  | _ + 1, 0, _, _, enough => absurd enough (Nat.not_succ_le_zero _)
  | bound + 1, more + 1, start, enough, enoughToo => by
      rw [readType, readType]
      apply run_bind_congr
      rintro ⟨tag, place⟩ later found
      have left := (composed_discriminator.ahead_ok found).remaining_le
      dsimp only
      split
      · rfl
      · rfl
      · apply run_map_congr
        exact run_readType (by omega) (by omega)
      · rfl
      · apply run_bind_congr
        intro base behind named
        have fewer := (composed_text.ahead_ok named).remaining_le
        apply run_bind_congr
        intro count inside counted
        have fewest := (composed_varint.ahead_ok counted).remaining_le
        apply run_map_congr
        exact run_readTypes count (by omega) (by omega)
      · rfl

theorem run_readTypes : ∀ {bound more : Nat} {start : ByteReader} (count : Nat),
    2 * start.remaining + 2 ≤ bound → 2 * start.remaining + 2 ≤ more →
      (readTypes bound count).run start = (readTypes more count).run start
  | _, _, _, 0, _, _ => by rw [readTypes, readTypes]
  | 0, _, _, _ + 1, enough, _ => absurd enough (Nat.not_succ_le_zero _)
  | _ + 1, 0, _, _ + 1, _, enough => absurd enough (Nat.not_succ_le_zero _)
  | bound + 1, more + 1, start, count + 1, enough, enoughToo => by
      have one := @run_readType bound more start (by omega) (by omega)
      rw [readTypes, readTypes, run_bind, run_bind, one]
      rcases found : (readType more).run start with ⟨_ | first, later⟩
      · rfl
      · have left := ((composed_readType more).ahead_ok found).remaining_le
        apply run_map_congr
        exact run_readTypes count (by omega) (by omega)

end

/-- The bound that a signature is read with is as good as any larger one. -/
theorem run_signature (enough : 2 * start.remaining + 2 ≤ bound) (count : Nat) :
    (typeBound >>= fun bound => readTypes bound count).run start =
      (readTypes bound count).run start :=
  run_readTypes count (Nat.le_refl _) enough

end Bounds

/-! ## Loops -/

/-- The loops of an image, with the counts that they are given. -/
inductive Loop : {α : Type} → Nat → Read α → Prop
  | metadata (count : Nat) : Loop count (many readMetadataEntry count)
  | texts (count : Nat) : Loop count (many text count)
  | nodes (count : Nat) : Loop count (many readNode count)
  | entries (count : Nat) : Loop count (many readEntry count)
  | children (count : Nat) : Loop count (many readChild count)
  | instructions (count : Nat) : Loop count (many readInstruction count)
  | types (bound count : Nat) : Loop count (readTypes bound count)

theorem Loop.composed {α : Type} {count : Nat} {loop : Read α} (isLoop : Loop count loop) :
    Composed count loop := by
  cases isLoop with
  | metadata => exact composed_many composed_metadataEntry count
  | texts => exact composed_many composed_text count
  | nodes => exact composed_many composed_node count
  | entries => exact composed_many composed_entry count
  | children => exact composed_many composed_child count
  | instructions => exact composed_many composed_instruction count
  | types bound => exact composed_readTypes bound count

end Image

end ScriptMachine
