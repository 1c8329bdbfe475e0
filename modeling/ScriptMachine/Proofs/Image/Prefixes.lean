import ScriptMachine.Proofs.Image.RoundTrip

/-!
# Images end where they say

A reader that has come to an end, well or badly, would have come to the same end with more bytes
behind those it was given, unless it ran out of them. This holds of the readers that an image is
made of one by one and is kept by putting them together, so it holds of the reader of a whole image,
the mark at its start apart.

It follows that an accepted image says itself where it ends: with any of its last bytes missing the
reader runs out exactly where the rest ends, and whatever stands behind it is counted as too much.
-/

namespace ScriptMachine

namespace Read

variable {α β : Type}

/-- What the first reader does with some bytes the second one does with more, unless the first one
ran out of bytes. The two differ only where a bound depends on how many bytes are left. -/
structure Continues (short long : Read α) : Prop where
  ok : ∀ {front offset value later}, short.run ⟨front, offset⟩ = (.ok value, later) →
    later.total = offset + front.length ∧
      ∀ behind, long.run ⟨front ++ behind, offset⟩ =
        (.ok value, ⟨later.rest ++ behind, later.offset⟩)
  error : ∀ {front offset error later}, short.run ⟨front, offset⟩ = (.error error, later) →
    error = .unexpectedEof (offset + front.length) ∨
      ∀ behind, (long.run ⟨front ++ behind, offset⟩).1 = .error error

/-- A reader that does with more bytes what it does with fewer. -/
abbrev Steady (reader : Read α) : Prop := Continues reader reader

/-! ## Putting readers together -/

namespace Continues

protected theorem bind {short long : Read α} {shortNext longNext : α → Read β}
    (first : Continues short long) (next : ∀ value, Continues (shortNext value) (longNext value)) :
    Continues (short >>= shortNext) (long >>= longNext) where
  ok := by
    intro front offset result later read
    rcases run_bind_ok_iff.mp read with ⟨value, middle, one, two⟩
    rcases first.ok one with ⟨place, oneLonger⟩
    rcases (next value).ok two with ⟨further, twoLonger⟩
    refine ⟨further.trans place, fun behind => ?_⟩
    rw [run_bind, oneLonger behind]
    exact twoLonger behind
  error := by
    intro front offset error later read
    rw [run_bind] at read
    rcases one : short.run ⟨front, offset⟩ with ⟨early | value, middle⟩
    · rw [one] at read
      cases read
      apply (first.error one).imp_right
      intro longer behind
      specialize longer behind
      rw [run_bind]
      rcases found : long.run ⟨front ++ behind, offset⟩ with ⟨_ | _, _⟩
      · rw [found] at longer
        cases longer
        rfl
      · rw [found] at longer
        cases longer
    · rw [one] at read
      rcases first.ok one with ⟨place, oneLonger⟩
      rcases (next value).error read with ended | longer
      · left
        rw [ended]
        exact congrArg _ place
      · right
        intro behind
        rw [run_bind, oneLonger behind]
        exact longer behind

protected theorem pure (value : α) : Steady (pure value : Read α) where
  ok := by
    rintro front offset _ _ ⟨⟩
    exact ⟨rfl, fun _ => rfl⟩
  error := by rintro _ _ _ _ ⟨⟩

protected theorem throw (error : ImageError) : Steady (throw error : Read α) where
  ok := by rintro _ _ _ _ ⟨⟩
  error := by
    rintro front offset _ _ ⟨⟩
    exact .inr fun _ => rfl

theorem map {short long : Read α} (continues : Continues short long) (wrap : α → β) :
    Continues (short >>= fun value => pure (wrap value))
      (long >>= fun value => pure (wrap value)) :=
  continues.bind fun _ => .pure _

theorem lift (result : Except ImageError α) : Steady (liftM result : Read α) := by
  cases result with
  | ok value => exact .pure value
  | error error => exact .throw error

/-- A reader that gives up as if it had run out of bytes. -/
theorem eof (long : Read α) : Continues (do throw (.unexpectedEof (← get).total)) long where
  ok := by rintro _ _ _ _ ⟨⟩
  error := by
    rintro front offset error later ⟨⟩
    exact .inl rfl

end Continues

/-! ## Bytes and numbers -/

theorem steady_offset : Steady Read.offset where
  ok := by
    rintro front offset _ _ ⟨⟩
    exact ⟨rfl, fun _ => rfl⟩
  error := by rintro _ _ _ _ ⟨⟩

theorem steady_byte : Steady byte where
  ok := by
    rintro (_ | ⟨first, front⟩) offset value later ⟨⟩
    refine ⟨?_, fun _ => rfl⟩
    simp only [ByteReader.total, List.length_cons]
    omega
  error := by
    rintro (_ | ⟨first, front⟩) offset error later ⟨⟩
    exact .inl rfl

theorem split?_eq_some_iff {count : Nat} {bytes taken rest : Bytes} :
    split? count bytes = some (taken, rest) ↔ bytes = taken ++ rest ∧ taken.length = count := by
  constructor
  · intro found
    induction count generalizing bytes taken with
    | zero =>
        cases found
        exact ⟨rfl, rfl⟩
    | succ count ih =>
        cases bytes with
        | nil => cases found
        | cons first bytes =>
            rcases Option.map_eq_some_iff.mp found with ⟨⟨more, others⟩, again, ⟨⟩⟩
            rcases ih again with ⟨rfl, rfl⟩
            exact ⟨rfl, rfl⟩
  · rintro ⟨rfl, rfl⟩
    exact split?_append taken rest

theorem steady_raw (count : Nat) : Steady (raw count) where
  ok := by
    intro front offset value later read
    rcases found : split? count front with _ | ⟨taken, rest⟩
    · simp only [raw, ExceptT.run, ExceptT.mk, found] at read
      cases read
    · simp only [raw, ExceptT.run, ExceptT.mk, found] at read
      cases read
      rcases split?_eq_some_iff.mp found with ⟨rfl, rfl⟩
      refine ⟨?_, fun behind => ?_⟩
      · simp only [ByteReader.total, List.length_append]
        omega
      · simp only [raw, ExceptT.run, ExceptT.mk, List.append_assoc, split?_append]
  error := by
    intro front offset error later read
    rcases found : split? count front with _ | ⟨taken, rest⟩
    · simp only [raw, ExceptT.run, ExceptT.mk, found] at read
      cases read
      exact .inl rfl
    · simp only [raw, ExceptT.run, ExceptT.mk, found] at read
      cases read

theorem steady_flag : Steady flag := by
  refine steady_offset.bind fun start => steady_byte.bind fun value => ?_
  split
  · exact .pure _
  · split
    · exact .pure _
    · exact .throw _

theorem steady_groups (start bound shift low : Nat) : Steady (groups start bound shift low) := by
  induction bound generalizing shift low with
  | zero => exact .throw _
  | succ bound ih =>
      refine steady_byte.bind fun group => ?_
      dsimp only
      split
      · exact .pure _
      · exact ih _ _

theorem steady_varint : Steady varint := steady_offset.bind fun start => steady_groups start 10 0 0

theorem steady_word32 : Steady word32 := by
  refine steady_offset.bind fun start => steady_varint.bind fun value => ?_
  split
  · exact .pure _
  · exact .throw _

theorem steady_zigzag : Steady zigzag := steady_varint.map _

theorem steady_binary64 : Steady binary64 := (steady_raw 8).map _

theorem steady_text : Steady text := by
  refine steady_varint.bind fun length => steady_offset.bind fun start =>
    (steady_raw length).bind fun bytes => ?_
  split
  · exact .pure _
  · exact .throw _

theorem steady_many {element : Read α} (steady : Steady element) (count : Nat) :
    Steady (many element count) := by
  induction count with
  | zero => exact .pure _
  | succ count ih => exact steady.bind fun first => ih.map _

theorem steady_counted {element : Read α} (steady : Steady element) : Steady (counted element) :=
  steady_varint.bind fun count => steady_many steady count

theorem steady_texts : Steady texts := steady_counted steady_text

end Read

namespace Image

open Read

/-! ## Instructions -/

theorem steady_discriminator : Steady discriminator :=
  steady_offset.bind fun _ => steady_byte.map _

mutual

/-- More bytes allow types to nest deeper, and those that did not nest too deep are read alike. -/
theorem continues_readType : ∀ {bound more : Nat}, bound ≤ more →
    Continues (readType bound) (readType more)
  | 0, _, _ => by
      rw [readType]
      exact .eof _
  | bound + 1, 0, less => absurd less (Nat.not_succ_le_zero bound)
  | bound + 1, more + 1, less => by
      have inner := continues_readType (Nat.le_of_succ_le_succ less)
      have list := @continues_readTypes bound more (Nat.le_of_succ_le_succ less)
      rw [readType, readType]
      refine Continues.bind steady_discriminator ?_
      rintro ⟨tag, start⟩
      dsimp only
      split
      · exact .pure _
      · exact steady_text.map _
      · exact inner.map _
      · exact steady_text.map _
      · exact steady_text.bind fun _ => steady_varint.bind fun count => (list count).map _
      · exact .throw _

theorem continues_readTypes : ∀ {bound more : Nat}, bound ≤ more →
    ∀ count, Continues (readTypes bound count) (readTypes more count)
  | bound, more, _, 0 => by
      rw [readTypes, readTypes]
      exact .pure _
  | 0, _, _, count + 1 => by
      rw [readTypes]
      exact .eof _
  | bound + 1, 0, less, _ => absurd less (Nat.not_succ_le_zero bound)
  | bound + 1, more + 1, less, count + 1 => by
      have one := continues_readType (Nat.le_of_succ_le_succ less)
      have others := continues_readTypes (Nat.le_of_succ_le_succ less) count
      rw [readTypes, readTypes]
      exact one.bind fun _ => others.map _

end

theorem steady_signature (count : Nat) :
    Steady (typeBound >>= fun bound => readTypes bound count) where
  ok := by
    intro front offset types later read
    have room (behind : Bytes) : 2 * front.length + 2 ≤ 2 * (front ++ behind).length + 2 := by
      rw [List.length_append]
      omega
    rw [run_bind] at read
    exact ⟨((continues_readTypes (room []) count).ok read).1, fun behind =>
      ((continues_readTypes (room behind) count).ok read).2 behind⟩
  error := by
    intro front offset error later read
    by_cases ended : error = .unexpectedEof (offset + front.length)
    · exact .inl ended
    · right
      intro behind
      have room : 2 * front.length + 2 ≤ 2 * (front ++ behind).length + 2 := by
        rw [List.length_append]
        omega
      rw [run_bind] at read ⊢
      exact ((continues_readTypes room count).error read).resolve_left ended behind

theorem steady_constant : Steady readConstant := by
  refine steady_discriminator.bind ?_
  rintro ⟨tag, start⟩
  dsimp only
  split
  · exact .pure _
  · exact steady_flag.map _
  · exact steady_zigzag.map _
  · exact steady_binary64.map _
  · exact steady_text.map _
  · exact .throw _

theorem steady_functionRef : Steady readFunctionRef :=
  steady_texts.bind fun _ => steady_text.map _

theorem steady_binding : Steady readBinding := by
  refine steady_flag.bind fun bound => ?_
  split
  · refine steady_text.bind fun name => steady_varint.bind fun count => ?_
    have signature := (steady_signature count).map fun signature =>
      some (⟨name, signature⟩ : HostFunctionRef)
    simp only [bind_assoc] at signature
    exact signature
  · exact .pure _

theorem steady_position : Steady readPosition :=
  steady_word32.bind fun _ => steady_word32.map _

theorem steady_context : Steady readContext :=
  steady_text.bind fun _ => steady_text.bind fun _ => steady_position.bind fun _ =>
    steady_position.map _

theorem steady_binaryOp : Steady readBinaryOp := by
  refine steady_discriminator.bind ?_
  rintro ⟨tag, start⟩
  dsimp only
  split
  · exact .pure _
  · exact .throw _

theorem steady_unaryOp : Steady readUnaryOp := by
  refine steady_discriminator.bind ?_
  rintro ⟨tag, start⟩
  dsimp only
  split
  · exact .pure _
  · exact .throw _

theorem steady_instruction : Steady readInstruction := by
  refine steady_discriminator.bind ?_
  rintro ⟨opcode, start⟩
  dsimp only
  split
  case h_1 | h_7 | h_23 | h_24 | h_26 | h_27 | h_28 | h_29 | h_33 | h_34 => exact .pure _
  case h_3 | h_4 | h_5 | h_6 | h_18 | h_25 | h_30 | h_31 => exact steady_word32.map _
  case h_10 | h_11 | h_12 | h_13 => exact steady_varint.map _
  case h_20 | h_21 => exact steady_text.map _
  case h_2 => exact steady_constant.map _
  case h_8 => exact steady_binaryOp.map _
  case h_9 => exact steady_unaryOp.map _
  case h_14 => exact steady_functionRef.bind fun _ => steady_word32.map _
  case h_15 =>
    exact steady_text.bind fun _ => steady_word32.bind fun _ => steady_binding.map _
  case h_16 => exact steady_text.bind fun _ => steady_word32.map _
  case h_17 =>
    exact steady_text.bind fun _ => steady_text.bind fun _ => steady_word32.bind fun _ =>
      steady_flag.map _
  case h_19 => exact steady_functionRef.map _
  case h_22 => exact steady_text.bind fun _ => steady_text.bind fun _ => steady_flag.map _
  case h_32 => exact steady_context.map _
  case h_35 => exact .throw _

/-! ## Programs -/

theorem steady_entry : Steady readEntry :=
  steady_text.bind fun _ => steady_varint.bind fun _ => steady_word32.map _

theorem steady_child : Steady readChild := steady_text.bind fun _ => steady_varint.map _

theorem steady_node : Steady readNode :=
  (steady_counted steady_entry).bind fun _ => (steady_counted steady_child).map _

theorem steady_namespaces : Steady readNamespaces :=
  (steady_counted steady_node).bind fun _ => .lift _

theorem steady_metadataEntry : Steady readMetadataEntry :=
  steady_text.bind fun _ => steady_text.map _

/-- Reads the start of a full image from which the length of the mark is not missing. -/
def readMarked : Read (Dictionary String) := do
  let start ← Read.raw mark.length
  if start ≠ mark then throw .invalidHeader
  let found ← Read.varint
  if found ≠ version then throw (.unsupportedVersion found)
  return Dictionary.ofPairs (← Read.counted readMetadataEntry)

theorem steady_marked : Steady readMarked := by
  refine (steady_raw _).bind fun start => ?_
  split
  · exact .throw _
  · refine steady_varint.bind fun found => ?_
    split
    · exact .throw _
    · exact (steady_counted steady_metadataEntry).map _

/-- Reads all of a program, whatever is behind it. -/
def readParts (metadata : Dictionary String) : Read Program := do
  let globals ← Read.texts
  let namespaces ← readNamespaces
  let instructions ← Read.counted readInstruction
  return ⟨instructions.toArray, namespaces, globals, metadata⟩

/-- Refuses bytes behind a program, and jumps out of one that is not trusted. -/
def readEnd (trusted : Bool) (program : Program) : Read Program := do
  let remaining ← Read.remaining
  if 0 < remaining then throw (.trailingBytes remaining)
  if !trusted then
    if let some (index, target) :=
        firstStrayJump? program.instructions.size 0 program.instructions.toList then
      throw (.invalidJumpTarget index target)
  return program

theorem readBody_eq (trusted : Bool) (metadata : Dictionary String) :
    readBody trusted metadata = readParts metadata >>= readEnd trusted := by
  simp only [readBody, readParts, readEnd, bind_assoc, pure_bind]
  rfl

theorem steady_parts (metadata : Dictionary String) : Steady (readParts metadata) :=
  steady_texts.bind fun _ => steady_namespaces.bind fun _ =>
    (steady_counted steady_instruction).map _

/-! ## Where an image ends -/

/-- Reads all of an image that is long enough to have a start. -/
def readWhole (trusted : Bool) : Read Program :=
  (if trusted then pure [] else readMarked) >>= readParts

theorem steady_whole (trusted : Bool) : Steady (readWhole trusted) := by
  unfold readWhole
  split
  · exact Continues.bind (.pure _) steady_parts
  · exact steady_marked.bind steady_parts

variable {reader : ByteReader} {bytes : Bytes} {trusted : Bool} {program : Program}

theorem split?_isSome (count : Nat) (bytes : Bytes) :
    (split? count bytes).isSome = decide (count ≤ bytes.length) := by
  by_cases enough : count ≤ bytes.length
  · have split : split? count bytes = some (bytes.take count, bytes.drop count) :=
      split?_eq_some_iff.mpr ⟨(List.take_append_drop count bytes).symm,
        List.length_take_of_le enough⟩
    simp [split, enough]
  · rcases found : split? count bytes with _ | ⟨taken, rest⟩
    · simp [enough]
    · rcases split?_eq_some_iff.mp found with ⟨rfl, rfl⟩
      simp at enough

theorem run_header : readHeader.run reader =
    if mark.length ≤ reader.rest.length then readMarked.run reader
    else (.error .invalidHeader, reader) := by
  have enough_iff := split?_isSome mark.length reader.rest
  rw [readHeader, run_get_bind]
  split
  · rename_i missing
    rw [missing, Option.isSome_none, eq_comm, decide_eq_false_iff_not] at enough_iff
    rw [if_neg enough_iff]
    rfl
  · rename_i found
    rw [found, Option.isSome_some, eq_comm, decide_eq_true_eq] at enough_iff
    rw [if_pos enough_iff]
    rfl

theorem run_program (enough : trusted = false → mark.length ≤ reader.rest.length) :
    (readProgram trusted).run reader = (readWhole trusted >>= readEnd trusted).run reader := by
  have body : readBody trusted = fun metadata => readParts metadata >>= readEnd trusted :=
    funext (readBody_eq trusted)
  rw [readProgram_eq, readWhole, bind_assoc, body]
  cases trusted with
  | true => rfl
  | false =>
      simp only [Bool.false_eq_true, if_false]
      rw [run_bind, run_bind, run_header, if_pos (enough rfl)]

theorem read_short (short : bytes.length < mark.length) :
    read bytes false = .error .invalidHeader := by
  rw [read, readProgram_eq]
  simp only [Bool.false_eq_true, if_false]
  have missing : ¬mark.length ≤ (ByteReader.ofBytes bytes).rest.length := Nat.not_le.mpr short
  rw [run_bind, run_header, if_neg missing]

/-- Behind a program nothing is admitted. -/
theorem run_end (some : reader.rest ≠ []) :
    ((readEnd trusted program).run reader).1 = .error (.trailingBytes reader.rest.length) := by
  have more : 0 < reader.remaining := List.length_pos_iff.mpr some
  rw [readEnd, run_remaining_bind]
  dsimp only
  rw [if_pos more]
  rfl

/-- What is read is not changed by the checks at the end. -/
theorem run_end_ok {result : Program}
    (ended : ((readEnd trusted program).run reader).1 = .ok result) :
    reader.rest = [] ∧ result = program := by
  by_cases none : reader.rest = []
  · refine ⟨none, ?_⟩
    have finished : ¬0 < reader.remaining := by simp [ByteReader.remaining, none]
    rw [readEnd, run_remaining_bind] at ended
    dsimp only at ended
    rw [if_neg finished] at ended
    split at ended
    · split at ended
      · cases ended
      · cases ended
        rfl
    · cases ended
      rfl
  · rw [run_end none] at ended
    cases ended

/-- An image is accepted only if all of it is read as the program. -/
theorem run_whole_of_ok (accepted : read bytes trusted = .ok program) :
    (trusted = false → mark.length ≤ bytes.length) ∧
      ∃ offset, (readWhole trusted).run (.ofBytes bytes) = (.ok program, ⟨[], offset⟩) := by
  have enough : trusted = false → mark.length ≤ bytes.length := by
    rintro rfl
    by_cases short : bytes.length < mark.length
    · rw [read_short short] at accepted
      cases accepted
    · exact Nat.not_lt.mp short
  refine ⟨enough, ?_⟩
  rw [read, run_program enough, run_bind] at accepted
  rcases whole : (readWhole trusted).run (.ofBytes bytes) with ⟨error | found, rest, offset⟩
  · rw [whole] at accepted
    cases accepted
  · rw [whole] at accepted
    rcases run_end_ok accepted with ⟨none, rfl⟩
    exact ⟨offset, by rw [← none]⟩

/-- An accepted image with some of its last bytes missing. -/
theorem read_take_of_ok (accepted : read bytes trusted = .ok program) {count : Nat}
    (fewer : count < bytes.length) :
    read (bytes.take count) trusted =
      .error (if trusted = false ∧ count < mark.length then .invalidHeader
        else .unexpectedEof count) := by
  have length : (bytes.take count).length = count := List.length_take_of_le (Nat.le_of_lt fewer)
  by_cases short : trusted = false ∧ count < mark.length
  · rcases short with ⟨rfl, short⟩
    rw [if_pos ⟨rfl, short⟩]
    exact read_short (by rwa [length])
  · rcases run_whole_of_ok accepted with ⟨_, offset, whole⟩
    have enough : trusted = false → mark.length ≤ (bytes.take count).length := by
      intro untrusted
      rw [length]
      exact Nat.not_lt.mp fun less => short ⟨untrusted, less⟩
    rw [if_neg short, read, run_program enough, run_bind]
    rcases part : (readWhole trusted).run (.ofBytes (bytes.take count)) with ⟨error | found, later⟩
    · rcases (steady_whole trusted).error part with ended | longer
      · rw [ended, length, Nat.zero_add]
      · specialize longer (bytes.drop count)
        rw [List.take_append_drop] at longer
        cases (congrArg Prod.fst whole).symm.trans longer
    · have longer := ((steady_whole trusted).ok part).2 (bytes.drop count)
      rw [List.take_append_drop] at longer
      have none : later.rest ++ bytes.drop count = [] :=
        (congrArg (fun result => result.2.rest) (whole.symm.trans longer)).symm
      have all := List.drop_eq_nil_iff.mp (List.append_eq_nil_iff.mp none).2
      exact absurd fewer (Nat.not_lt.mpr all)

/-- An accepted image with something behind it. -/
theorem read_append_of_ok (accepted : read bytes trusted = .ok program) {extra : Bytes}
    (some : extra ≠ []) :
    read (bytes ++ extra) trusted = .error (.trailingBytes extra.length) := by
  rcases run_whole_of_ok accepted with ⟨enough, offset, whole⟩
  have longer := ((steady_whole trusted).ok whole).2 extra
  have enoughToo : trusted = false → mark.length ≤ (bytes ++ extra).length := by
    intro untrusted
    rw [List.length_append]
    exact Nat.le_add_right_of_le (enough untrusted)
  rw [read, run_program enoughToo, run_bind]
  rw [ByteReader.ofBytes, longer]
  exact run_end some

theorem length_mark : mark.length = 4 := by
  rw [mark, toList_byteArray]
  decide

theorem four_lt_length_full (program : Program) : 4 < (encode program false).length := by
  have one : (Bytes.varint version).length = 1 := by simp [Bytes.varint, version]
  simp only [encode, Bool.false_eq_true, if_false, List.length_append, length_mark, one]
  omega

end Image

/-- An image of a program that is read with any of its last bytes missing is found to end early, at
the place where it ends, unless even the mark of a full image is not all there. With anything behind
it, it is found to be followed by just as many bytes. -/
theorem images_delimit_themselves {program : Program} (fits : program.Fits) :
    (program.JumpsInside →
      (∀ count < (Image.encode program false).length,
        Image.read ((Image.encode program false).take count) false =
          .error (if count < 4 then .invalidHeader else .unexpectedEof count)) ∧
      ∀ extra ≠ [], Image.read (Image.encode program false ++ extra) false =
        .error (.trailingBytes extra.length)) ∧
    (∀ count < (Image.encode program true).length,
      Image.read ((Image.encode program true).take count) true =
        .error (.unexpectedEof count)) ∧
    ∀ extra ≠ [], Image.read (Image.encode program true ++ extra) true =
      .error (.trailingBytes extra.length) := by
  have compact := Image.read_compact fits
  refine ⟨fun inside => ?_, fun count fewer => ?_, fun extra => Image.read_append_of_ok compact⟩
  · have full := Image.read_full fits inside
    refine ⟨fun count fewer => ?_, fun extra => Image.read_append_of_ok full⟩
    rw [Image.read_take_of_ok full fewer, Image.length_mark]
    simp only [true_and]
  · rw [Image.read_take_of_ok compact fewer]
    simp only [Bool.true_eq_false, false_and, if_false]

namespace Sample

theorem hosted_jumps_inside (binding : Option HostFunctionRef) (bound : Bool) :
    (hosted binding bound).JumpsInside := by
  simp [Program.JumpsInside, hosted, Instruction.jumpTarget?, Program.size]

end Sample

theorem images_delimit_themselves_hosted :
    (Sample.hosted (some Sample.beep.reference) true).Fits ∧
      (Sample.hosted (some Sample.beep.reference) true).JumpsInside ∧
      Image.read ((Image.encode (Sample.hosted (some Sample.beep.reference) true) false).take 4)
        false = .error (.unexpectedEof 4) ∧
      Image.read (Image.encode (Sample.hosted (some Sample.beep.reference) true) true ++ [0, 0])
        true = .error (.trailingBytes 2) := by
  have delimited := images_delimit_themselves Sample.hosted_fits
  have inside := Sample.hosted_jumps_inside (some Sample.beep.reference) true
  refine ⟨Sample.hosted_fits, inside, ?_, delimited.2.2 [0, 0] (by decide)⟩
  exact (delimited.1 inside).1 4 (Image.four_lt_length_full _)

end ScriptMachine
