import ScriptMachine.Image.Bytes

/-!
# Reading what was written

A reader reads a piece of bytes as a value if, wherever the piece stands, it takes exactly the piece
and gives the value. Readers that are put together read pieces that are put together, so each part
of an image needs one lemma, and the order of its fields is the order in the proof.
-/

namespace ScriptMachine

/-- A reader that takes exactly some bytes and gives a value, whatever follows them. -/
def ReadsAs {α : Type} (reader : Read α) (bytes : Bytes) (value : α) : Prop :=
  ∀ rest offset, reader.run ⟨bytes ++ rest, offset⟩ =
    (.ok value, ⟨rest, offset + bytes.length⟩)

namespace Read

variable {α β : Type} {reader : ByteReader}

theorem run_bind (first : Read α) (next : α → Read β) :
    (first >>= next).run reader =
      match first.run reader with
      | (.ok value, later) => (next value).run later
      | (.error error, later) => (.error error, later) := by
  change (ExceptT.bindCont next (first.run reader).1 : StateM ByteReader _)
    (first.run reader).2 = _
  generalize first.run reader = result
  rcases result with ⟨_ | _, _⟩ <;> rfl

theorem run_bind_ok_iff {first : Read α} {next : α → Read β} {result : β} {later : ByteReader} :
    (first >>= next).run reader = (.ok result, later) ↔
      ∃ value middle, first.run reader = (.ok value, middle) ∧
        (next value).run middle = (.ok result, later) := by
  rw [run_bind]
  generalize first.run reader = found
  rcases found with ⟨error | value, middle⟩
  · constructor
    · rintro ⟨⟩
    · rintro ⟨_, _, ⟨⟩, _⟩
  · constructor
    · intro continues
      exact ⟨value, middle, rfl, continues⟩
    · rintro ⟨_, _, ⟨⟩, continues⟩
      exact continues

theorem run_offset_bind (next : Nat → Read α) :
    (Read.offset >>= next).run reader = (next reader.offset).run reader := rfl

end Read

namespace ReadsAs

variable {α β : Type} {first : Read α} {next : α → Read β} {one two : Bytes} {value : α}
  {result : β}

theorem pure (value : α) : ReadsAs (Pure.pure value) [] value := by
  intro rest offset
  rfl

theorem bind (reads : ReadsAs first one value) (continues : ReadsAs (next value) two result) :
    ReadsAs (first >>= next) (one ++ two) result := by
  intro rest offset
  rw [List.append_assoc, Read.run_bind, reads, List.length_append, ← Nat.add_assoc]
  apply continues

/-- A reader behind which nothing more is read. -/
theorem last (reads : ReadsAs first one value) (continues : ReadsAs (next value) [] result) :
    ReadsAs (first >>= next) one result := by
  have both := reads.bind continues
  rwa [List.append_nil] at both

/-- A reader that is the last one and whose value is wrapped. -/
theorem map (reads : ReadsAs first one value) (wrap : α → β) :
    ReadsAs (first >>= fun value => Pure.pure (wrap value)) one (wrap value) :=
  reads.last (pure (wrap value))

/-- A reader that looks at the offset before it starts. -/
theorem offset {next : Nat → Read β} (reads : ∀ start, ReadsAs (next start) one result) :
    ReadsAs (Read.offset >>= next) one result := by
  intro rest start
  rw [Read.run_bind]
  apply reads

theorem byte (group : UInt8) : ReadsAs Read.byte [group] group := by
  intro rest offset
  rfl

end ReadsAs

/-! ## Numbers -/

theorem toNat_byte {value : Nat} (small : value < 256) : (UInt8.ofNat value).toNat = value := by
  rw [UInt8.toNat_ofNat']
  exact Nat.mod_eq_of_lt small

theorem reads_flag (value : Bool) : ReadsAs Read.flag (Bytes.flag value) value := by
  intro rest offset
  cases value <;> rfl

theorem twoTo_add_seven (shift : Nat) : twoTo (shift + 7) = 128 * twoTo shift := by
  change 2 ^ (shift + 7) = 128 * 2 ^ shift
  rw [Nat.pow_add]
  omega

/-- The groups of a number on top of bits that are there already. -/
theorem reads_groups {start bound value shift low : Nat} (fits : low + value * twoTo shift < twoTo 64)
    (short : value < twoTo (7 * bound)) (some : 0 < bound) :
    ReadsAs (Read.groups start bound shift low) (Bytes.varint value)
      (low + value * twoTo shift) := by
  induction bound generalizing value shift low with
  | zero => exact absurd some (Nat.lt_irrefl 0)
  | succ bound ih =>
      rw [Bytes.varint, Read.groups]
      rcases Nat.lt_or_ge value 128 with last | more
      · rw [if_pos last]
        intro rest offset
        rw [Read.run_bind, ReadsAs.byte]
        have group : (UInt8.ofNat value).toNat = value := toNat_byte (by omega)
        simp only [group, Nat.mod_eq_of_lt last, Nat.mod_eq_of_lt fits, last, if_true]
        rfl
      · rw [if_neg (Nat.not_lt.mpr more)]
        have group : (UInt8.ofNat (value % 128 + 128)).toNat = value % 128 + 128 :=
          toNat_byte (by omega)
        have whole : low + value % 128 * twoTo shift + value / 128 * twoTo (shift + 7) =
            low + value * twoTo shift := by
          rw [twoTo_add_seven, ← Nat.mul_assoc, Nat.mul_comm (value / 128) 128, Nat.add_assoc,
            ← Nat.add_mul, Nat.mod_add_div]
        have lower : low + value % 128 * twoTo shift < twoTo 64 := by
          rw [← whole] at fits
          exact Nat.lt_of_le_of_lt (Nat.le_add_right _ _) fits
        have fewer : value / 128 < twoTo (7 * bound) := by
          have split := twoTo_add_seven (7 * bound)
          rw [Nat.mul_succ, split] at short
          exact Nat.div_lt_of_lt_mul short
        have again : 0 < bound := by
          rcases Nat.eq_zero_or_pos bound with rfl | positive
          · simp only [Nat.mul_zero] at fewer
            change value / 128 < 1 at fewer
            omega
          · exact positive
        have continues := @ih (value / 128) (shift + 7) (low + value % 128 * twoTo shift)
          (by rw [whole]; exact fits) fewer again
        rw [whole] at continues
        refine @ReadsAs.bind _ _ _ _ [_] _ _ _ (.byte _) ?_
        simp only [group, Nat.add_mod_right, Nat.mod_mod, Nat.mod_eq_of_lt lower]
        rw [if_neg (by omega)]
        exact continues

theorem reads_varint {value : Nat} (fits : value < twoTo 64) :
    ReadsAs Read.varint (Bytes.varint value) value := by
  apply ReadsAs.offset
  intro start
  have reads := @reads_groups start 10 value 0 0 (by simpa using fits)
    (Nat.lt_trans fits (by decide)) (by decide)
  simpa using reads

theorem reads_word32 {value : Nat} (fits : value < twoTo 32) :
    ReadsAs Read.word32 (Bytes.varint value) value := by
  apply ReadsAs.offset
  intro start
  have reads := @ReadsAs.bind _ Nat _ (fun value =>
      if value < twoTo 32 then pure value else throw (.invalidVarint start)) _ [] _ value
    (reads_varint (Nat.lt_trans fits (by decide))) (by rw [if_pos fits]; exact .pure value)
  rw [List.append_nil] at reads
  exact reads

/-! ## Signs -/

theorem unalternate_alternate (value : Int) : Bytes.unalternate (Bytes.alternate value) = value := by
  unfold Bytes.alternate Bytes.unalternate
  split
  · rw [if_pos (by omega)]
    omega
  · rw [if_neg (by omega)]
    omega

theorem alternate_lt (value : Int64) : Bytes.alternate value.toInt < twoTo 64 := by
  have above := value.le_toInt
  have below := value.toInt_lt
  unfold Bytes.alternate
  split <;> simp only [twoTo, Nat.reducePow, Nat.pow_eq] at * <;> omega

theorem reads_zigzag (value : Int64) : ReadsAs Read.zigzag (Bytes.zigzag value) value := by
  have reads := (reads_varint (alternate_lt value)).map fun place =>
    Int64.ofInt (Bytes.unalternate place)
  rw [unalternate_alternate, Int64.ofInt_toInt] at reads
  exact reads

/-! ## Bytes in a row -/

theorem split?_append (front rest : Bytes) :
    Read.split? front.length (front ++ rest) = some (front, rest) := by
  induction front with
  | nil => rfl
  | cons first front ih => simp [Read.split?, ih]

theorem reads_raw (bytes : Bytes) : ReadsAs (Read.raw bytes.length) bytes bytes := by
  intro rest offset
  simp only [Read.raw, ExceptT.run, ExceptT.mk, split?_append]

theorem length_littleEndian (count value : Nat) : (Bytes.littleEndian count value).length = count := by
  induction count generalizing value with
  | zero => rfl
  | succ count ih => simp [Bytes.littleEndian, ih]

theorem fromLittleEndian_littleEndian {count value : Nat} (fits : value < twoTo (8 * count)) :
    Bytes.fromLittleEndian (Bytes.littleEndian count value) = value := by
  induction count generalizing value with
  | zero =>
      have zero : value = 0 := by
        change value < 1 at fits
        omega
      simp [Bytes.littleEndian, Bytes.fromLittleEndian, zero]
  | succ count ih =>
      have fewer : value / 256 < twoTo (8 * count) := by
        have split : twoTo (8 * (count + 1)) = 256 * twoTo (8 * count) := by
          change 2 ^ (8 * count + 8) = 256 * 2 ^ (8 * count)
          rw [Nat.pow_add]
          omega
        rw [split] at fits
        exact Nat.div_lt_of_lt_mul fits
      have lowest : (UInt8.ofNat (value % 256)).toNat = value % 256 := toNat_byte (by omega)
      rw [Bytes.littleEndian, Bytes.fromLittleEndian, lowest, ih fewer]
      omega

theorem reads_binary64 (value : Binary64) : ReadsAs Read.binary64 (Bytes.binary64 value) value := by
  have raw := reads_raw (Bytes.binary64 value)
  have length : (Bytes.binary64 value).length = 8 := length_littleEndian 8 value.word
  rw [length] at raw
  have reads := raw.map fun bytes => (⟨UInt64.ofNat (Bytes.fromLittleEndian bytes)⟩ : Binary64)
  have word : Bytes.fromLittleEndian (Bytes.binary64 value) = value.word :=
    fromLittleEndian_littleEndian (Nat.lt_of_lt_of_eq value.bits.toNat_lt rfl)
  rw [word, Binary64.word, UInt64.ofNat_toNat] at reads
  exact reads

/-! ## Texts -/

theorem toList_loop (bytes : ByteArray) (index : Nat) (before : List UInt8) :
    ByteArray.toList.loop bytes index before = before.reverse ++ bytes.data.toList.drop index := by
  fun_induction ByteArray.toList.loop bytes index before with
  | case1 index before inside ih =>
      have bound : index < bytes.data.toList.length := inside
      have here : bytes.get! index = bytes.data.toList[index] := by
        rcases bytes with ⟨data⟩
        simp only [ByteArray.get!]
        exact getElem!_pos data index inside
      rw [ih, List.drop_eq_getElem_cons bound, here]
      simp
  | case2 index before outside =>
      have none : bytes.data.toList.drop index = [] :=
        List.drop_eq_nil_of_le (Nat.not_lt.mp outside)
      simp [none]

theorem toList_byteArray (bytes : ByteArray) : bytes.toList = bytes.data.toList := by
  rw [ByteArray.toList, toList_loop]
  rfl

theorem fromUTF8?_toList (value : String) :
    String.fromUTF8? (ByteArray.mk value.toUTF8.toList.toArray) = some value := by
  have bytes : ByteArray.mk value.toUTF8.toList.toArray = value.toUTF8 := by
    rw [toList_byteArray]
  have valid : value.toUTF8.IsValidUTF8 := value.isValidUTF8
  rw [bytes, String.fromUTF8?, dif_pos valid]
  rfl

/-- A text whose length can be written. -/
def Text.Fits (value : String) : Prop := value.toUTF8.size < twoTo 64

theorem reads_text {value : String} (fits : Text.Fits value) :
    ReadsAs Read.text (Bytes.text value) value := by
  have length : value.toUTF8.toList.length = value.toUTF8.size := by
    rw [toList_byteArray]
    rfl
  refine (reads_varint (by rw [length]; exact fits)).bind ?_
  apply ReadsAs.offset
  intro start
  refine (reads_raw value.toUTF8.toList).last ?_
  rw [fromUTF8?_toList]
  exact .pure value

/-! ## Elements in a row -/

section Elements

variable {α : Type} {element : Read α} {encode : α → Bytes} {values : List α}

theorem reads_many (reads : ∀ value ∈ values, ReadsAs element (encode value) value) :
    ReadsAs (Read.many element values.length) (values.flatMap encode) values := by
  induction values with
  | nil => exact .pure []
  | cons first rest ih =>
      have others := ih fun value member => reads value (List.mem_cons_of_mem _ member)
      exact (reads first List.mem_cons_self).bind (others.map fun rest => first :: rest)

theorem reads_counted (fits : values.length < twoTo 64)
    (reads : ∀ value ∈ values, ReadsAs element (encode value) value) :
    ReadsAs (Read.counted element) (Bytes.varint values.length ++ values.flatMap encode) values :=
  (reads_varint fits).bind (reads_many reads)

end Elements

theorem reads_texts {values : List String} (count : values.length < twoTo 64)
    (fits : ∀ value ∈ values, Text.Fits value) :
    ReadsAs Read.texts (Bytes.texts values) values :=
  reads_counted count fun value member => reads_text (fits value member)

end ScriptMachine
