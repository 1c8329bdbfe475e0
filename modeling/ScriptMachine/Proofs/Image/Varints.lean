import Mathlib.Algebra.BigOperators.Fin
import Mathlib.Tactic.Ring
import ScriptMachine.Proofs.Image.Reading

/-!
# Numbers in an image

A number stands in groups of seven bits, the lowest first, and every byte but the last tells that
another follows. A reader admits ten groups, which have room for seventy bits, but keeps only the
first sixty-four. Six bits of a tenth group are lost without notice, so what is read is the number
of the groups modulo the word, and the number itself exactly if the tenth group is at most one.

Counts, places and lengths are read as they are. Slots and signed numbers are made from such a
number, so they are off in the same cases.
-/

namespace ScriptMachine

namespace Bytes

/-- A number in groups: every byte but the last tells that another follows. -/
inductive Grouped : Bytes → Prop
  | last {group : UInt8} (ends : group.toNat < 128) : Grouped [group]
  | more {group : UInt8} {rest : Bytes} (goesOn : 128 ≤ group.toNat) (grouped : Grouped rest) :
      Grouped (group :: rest)

/-- The number that groups of seven bits stand for, however large it is. -/
def groupSum (groups : Bytes) : Nat :=
  ∑ place : Fin groups.length, groups[place].toNat % 128 * 128 ^ place.val

theorem groupSum_nil : groupSum [] = 0 := rfl

theorem groupSum_cons (group : UInt8) (rest : Bytes) :
    groupSum (group :: rest) = group.toNat % 128 + 128 * groupSum rest := by
  change ∑ place : Fin (rest.length + 1), _ = _
  rw [Fin.sum_univ_succ, groupSum, Finset.mul_sum]
  congr 1
  · simp
  · apply Finset.sum_congr rfl
    intro place _
    change rest[place].toNat % 128 * 128 ^ (place.val + 1) = _
    ring

theorem groupSum_append (front rest : Bytes) :
    groupSum (front ++ rest) = groupSum front + 128 ^ front.length * groupSum rest := by
  induction front with
  | nil => simp [groupSum_nil]
  | cons group front ih =>
      rw [List.cons_append, groupSum_cons, groupSum_cons, ih, List.length_cons]
      ring

theorem groupSum_lt (groups : Bytes) : groupSum groups < 128 ^ groups.length := by
  induction groups with
  | nil => decide
  | cons group rest ih =>
      rw [groupSum_cons, List.length_cons, Nat.pow_succ]
      omega

namespace Grouped

variable {taken : Bytes}

theorem ne_nil (grouped : Grouped taken) : taken ≠ [] := by
  cases grouped <;> simp

/-- A group above so many empty ones. -/
theorem replicate {group : UInt8} (ends : group.toNat < 128) (count : Nat) :
    Grouped (List.replicate count 0x80 ++ [group]) := by
  induction count with
  | zero => exact .last ends
  | succ count ih => exact .more (by decide) ih

/-- Every byte but the last is in front of another number in groups. -/
theorem drop (grouped : Grouped taken) {place : Nat} (inside : place < taken.length) :
    Grouped (taken.drop place) := by
  induction place generalizing taken with
  | zero => exact grouped
  | succ place ih =>
      cases grouped with
      | last => simp at inside
      | more _ grouped => exact ih grouped (by simpa using inside)

/-- A number of at most ten groups fits a word exactly if its tenth group is at most one. -/
theorem groupSum_lt_iff (grouped : Grouped taken) (short : taken.length ≤ 10) :
    groupSum taken < twoTo 64 ↔ ∀ tenth, taken[9]? = some tenth → tenth.toNat < 2 := by
  have low : groupSum (taken.take 9) < 128 ^ 9 :=
    (groupSum_lt _).trans_le (Nat.pow_le_pow_right (by decide) (List.length_take_le 9 taken))
  have word : twoTo 64 = 2 * 128 ^ 9 := by decide
  rcases Nat.lt_or_ge taken.length 10 with fewer | ten
  · have all : taken.take 9 = taken := List.take_of_length_le (by omega)
    have none : taken[9]? = none := List.getElem?_eq_none (by omega)
    rw [all] at low
    simp only [none, reduceCtorEq, false_implies, implies_true, iff_true]
    omega
  · have last := grouped.drop (show 9 < taken.length by omega)
    have split : groupSum taken = groupSum (taken.take 9) + 128 ^ 9 * groupSum (taken.drop 9) := by
      have whole := groupSum_append (taken.take 9) (taken.drop 9)
      rw [List.take_append_drop, List.length_take_of_le (by omega)] at whole
      exact whole
    have single : taken.drop 9 = [taken[9]] := by
      rw [List.drop_eq_getElem_cons (by omega), List.drop_of_length_le (by omega)]
    rw [single] at last split
    cases last with
    | more _ rest => exact absurd rfl rest.ne_nil
    | last small =>
        rw [groupSum_cons, groupSum_nil, Nat.mod_eq_of_lt small] at split
        simp only [List.getElem?_eq_getElem (show 9 < taken.length by omega), Option.some.injEq,
          forall_eq']
        omega

end Grouped

/-- Bytes either start with a number in groups or go on to their end. -/
theorem exists_grouped_or (bytes : Bytes) :
    (∃ taken behind, bytes = taken ++ behind ∧ Grouped taken) ∨
      ∀ group ∈ bytes, 128 ≤ group.toNat := by
  induction bytes with
  | nil => exact .inr (by simp)
  | cons group rest ih =>
      rcases Nat.lt_or_ge group.toNat 128 with ends | goesOn
      · exact .inl ⟨[group], rest, rfl, .last ends⟩
      · rcases ih with ⟨taken, behind, rfl, grouped⟩ | endless
        · exact .inl ⟨group :: taken, behind, rfl, .more goesOn grouped⟩
        · exact .inr (by simpa [goesOn] using endless)

end Bytes

/-- A number in groups that stands between two places. -/
structure ByteReader.Takes (reader : ByteReader) (taken : Bytes) (later : ByteReader) : Prop where
  bytes : reader.rest = taken ++ later.rest
  offset : later.offset = reader.offset + taken.length
  grouped : taken.Grouped

namespace Read

open Bytes (Grouped groupSum groupSum_cons groupSum_nil)

variable {start bound shift low offset : Nat} {taken behind : Bytes}

/-- A group that another follows is put on top of the bits that are there. -/
theorem run_groups_more {group : UInt8} (goesOn : 128 ≤ group.toNat) :
    (groups start (bound + 1) shift low).run ⟨group :: behind, offset⟩ =
      (groups start bound (shift + 7)
        ((low + group.toNat % 128 * twoTo shift) % twoTo 64)).run ⟨behind, offset + 1⟩ := by
  rw [groups, run_bind]
  change (if group.toNat < 128 then _ else _ : Read Nat).run _ = _
  rw [if_neg (by omega)]

theorem run_groups (grouped : Grouped taken) (short : taken.length ≤ bound) :
    (groups start bound shift low).run ⟨taken ++ behind, offset⟩ =
      (.ok ((low + groupSum taken * twoTo shift) % twoTo 64),
        ⟨behind, offset + taken.length⟩) := by
  induction grouped generalizing bound shift low offset with
  | @last group ends =>
      obtain ⟨bound, rfl⟩ : ∃ fewer, bound = fewer + 1 := Nat.exists_eq_add_of_le' short
      rw [groups, run_bind]
      change (if group.toNat < 128 then _ else _ : Read Nat).run _ = _
      rw [if_pos ends, groupSum_cons, groupSum_nil]
      rfl
  | @more group rest goesOn _ ih =>
      obtain ⟨bound, rfl⟩ : ∃ fewer, bound = fewer + 1 :=
        Nat.exists_eq_add_of_le' (Nat.le_trans (Nat.le_add_left 1 _) short)
      have whole : low + group.toNat % 128 * twoTo shift + groupSum rest * twoTo (shift + 7) =
          low + groupSum (group :: rest) * twoTo shift := by
        rw [groupSum_cons, twoTo_add_seven]
        ring
      rw [List.cons_append, run_groups_more goesOn, ih (Nat.le_of_succ_le_succ short),
        Nat.mod_add_mod, whole, List.length_cons, Nat.add_assoc offset 1, Nat.add_comm 1]

/-- A number in more groups than the reader admits. -/
theorem run_groups_long (grouped : Grouped taken) (long : bound < taken.length) :
    ((groups start bound shift low).run ⟨taken ++ behind, offset⟩).1 =
      .error (.invalidVarint start) := by
  induction grouped generalizing bound shift low offset with
  | last =>
      obtain rfl : bound = 0 := by simpa using long
      rfl
  | more goesOn _ ih =>
      cases bound with
      | zero => rfl
      | succ bound =>
          rw [List.cons_append, run_groups_more goesOn]
          exact ih (by simpa using long)

/-- Bytes that go on to their end. -/
theorem run_groups_endless (endless : ∀ group ∈ behind, 128 ≤ group.toNat) :
    ∃ error, ((groups start bound shift low).run ⟨behind, offset⟩).1 = .error error := by
  induction behind generalizing bound shift low offset with
  | nil => cases bound <;> exact ⟨_, rfl⟩
  | cons group rest ih =>
      cases bound with
      | zero => exact ⟨_, rfl⟩
      | succ bound =>
          rw [run_groups_more (endless group List.mem_cons_self)]
          exact ih fun other member => endless other (List.mem_cons_of_mem _ member)

variable {reader later : ByteReader} {value : Nat}

theorem run_varint : varint.run reader = (groups reader.offset 10 0 0).run reader :=
  run_offset_bind _

theorem run_varint_of_takes (takes : reader.Takes taken later) (short : taken.length ≤ 10) :
    varint.run reader = (.ok (groupSum taken % twoTo 64), later) := by
  rcases reader with ⟨rest, offset⟩
  rcases later with ⟨behind, further⟩
  rcases takes with ⟨bytes, place, grouped⟩
  dsimp only at bytes place
  subst bytes place
  rw [run_varint, run_groups grouped short, Nat.zero_add, Nat.mul_one]

theorem run_varint_long (takes : reader.Takes taken later) (long : 10 < taken.length) :
    (varint.run reader).1 = .error (.invalidVarint reader.offset) := by
  rcases reader with ⟨rest, offset⟩
  rcases takes with ⟨rfl, _, grouped⟩
  rw [run_varint, run_groups_long grouped long]

/-- What is read is the number of at most ten groups, as far as it fits a word. -/
theorem run_varint_iff :
    varint.run reader = (.ok value, later) ↔
      ∃ taken, reader.Takes taken later ∧ taken.length ≤ 10 ∧
        value = groupSum taken % twoTo 64 := by
  constructor
  · intro read
    rcases reader with ⟨rest, offset⟩
    rcases Bytes.exists_grouped_or rest with ⟨taken, behind, rfl, grouped⟩ | endless
    · have takes : ByteReader.Takes ⟨taken ++ behind, offset⟩ taken
          ⟨behind, offset + taken.length⟩ := ⟨rfl, rfl, grouped⟩
      rcases Nat.lt_or_ge 10 taken.length with long | short
      · have refused := run_varint_long takes long
        rw [read] at refused
        cases refused
      · have here := run_varint_of_takes takes short
        rw [read] at here
        cases here
        exact ⟨taken, takes, short, rfl⟩
    · rcases @run_groups_endless offset 10 0 0 offset rest endless with ⟨error, refused⟩
      have same := @run_varint ⟨rest, offset⟩
      rw [read] at same
      rw [← same] at refused
      cases refused
  · rintro ⟨taken, takes, short, rfl⟩
    exact run_varint_of_takes takes short

theorem run_word32_iff :
    word32.run reader = (.ok value, later) ↔
      varint.run reader = (.ok value, later) ∧ value < twoTo 32 := by
  rw [word32, run_offset_bind, run_bind_ok_iff]
  constructor
  · rintro ⟨found, middle, read, continues⟩
    split at continues
    · cases continues
      exact ⟨read, ‹_›⟩
    · cases continues
  · rintro ⟨read, small⟩
    refine ⟨value, later, read, ?_⟩
    rw [if_pos small]
    rfl

theorem toInt_unalternate {place : Nat} (fits : place < twoTo 64) :
    (Int64.ofInt (Bytes.unalternate place)).toInt = Bytes.unalternate place := by
  have bounds : -2 ^ 63 ≤ Bytes.unalternate place ∧ Bytes.unalternate place < 2 ^ 63 := by
    simp only [twoTo, Nat.reducePow, Nat.pow_eq] at fits
    unfold Bytes.unalternate
    split <;> constructor <;> omega
  exact Int64.toInt_ofInt_of_le bounds.1 bounds.2

theorem unalternate_injective : Function.Injective Bytes.unalternate := by
  intro left right same
  unfold Bytes.unalternate at same
  split at same <;> split at same <;> omega

theorem run_zigzag_iff {number : Int64} :
    zigzag.run reader = (.ok number, later) ↔
      ∃ place, varint.run reader = (.ok place, later) ∧
        number = Int64.ofInt (Bytes.unalternate place) := by
  rw [zigzag, run_bind_ok_iff]
  constructor
  · rintro ⟨place, middle, read, ⟨⟩⟩
    exact ⟨place, read, rfl⟩
  · rintro ⟨place, read, rfl⟩
    exact ⟨place, later, read, rfl⟩

end Read

/-- A number, a slot and a signed number are read as the number that their groups stand for, as far
as it fits a word. Of ten groups at most, all of it fits exactly if the tenth group is at most one,
and then nothing else is read; a number in more groups is refused at its first byte. -/
theorem numbers_read_modulo_word (reader : ByteReader) :
    (∀ value later, Read.varint.run reader = (.ok value, later) ↔
      ∃ taken, reader.Takes taken later ∧ taken.length ≤ 10 ∧
        value = Bytes.groupSum taken % twoTo 64) ∧
    (∀ value later, Read.word32.run reader = (.ok value, later) ↔
      ∃ taken, reader.Takes taken later ∧ taken.length ≤ 10 ∧
        value = Bytes.groupSum taken % twoTo 64 ∧ value < twoTo 32) ∧
    (∀ value later, Read.zigzag.run reader = (.ok value, later) ↔
      ∃ taken, reader.Takes taken later ∧ taken.length ≤ 10 ∧
        value.toInt = Bytes.unalternate (Bytes.groupSum taken % twoTo 64)) ∧
    ∀ taken later, reader.Takes taken later →
      (10 < taken.length → (Read.varint.run reader).1 = .error (.invalidVarint reader.offset)) ∧
      (taken.length ≤ 10 →
        ((Bytes.groupSum taken % twoTo 64 = Bytes.groupSum taken ↔
            ∀ tenth, taken[9]? = some tenth → tenth.toNat < 2) ∧
          (Bytes.unalternate (Bytes.groupSum taken % twoTo 64) =
              Bytes.unalternate (Bytes.groupSum taken) ↔
            ∀ tenth, taken[9]? = some tenth → tenth.toNat < 2))) := by
  refine ⟨fun _ _ => Read.run_varint_iff, ?_, ?_, ?_⟩
  · intro value later
    rw [Read.run_word32_iff, Read.run_varint_iff]
    constructor
    · rintro ⟨⟨taken, takes, short, read⟩, small⟩
      exact ⟨taken, takes, short, read, small⟩
    · rintro ⟨taken, takes, short, read, small⟩
      exact ⟨⟨taken, takes, short, read⟩, small⟩
  · intro value later
    have below (sum : Nat) : sum % twoTo 64 < twoTo 64 := Nat.mod_lt _ (by decide)
    rw [Read.run_zigzag_iff]
    constructor
    · rintro ⟨place, read, rfl⟩
      rcases Read.run_varint_iff.mp read with ⟨taken, takes, short, rfl⟩
      exact ⟨taken, takes, short, Read.toInt_unalternate (below _)⟩
    · rintro ⟨taken, takes, short, read⟩
      refine ⟨_, Read.run_varint_iff.mpr ⟨taken, takes, short, rfl⟩, ?_⟩
      rw [← Int64.toInt_inj, read, Read.toInt_unalternate (below _)]
  · intro taken later takes
    refine ⟨Read.run_varint_long takes, fun short => ?_⟩
    have exact_iff := (Nat.mod_eq_iff_lt (m := Bytes.groupSum taken) (by decide)).trans
      (takes.grouped.groupSum_lt_iff short)
    exact ⟨exact_iff, Read.unalternate_injective.eq_iff.trans exact_iff⟩

/-- Ten groups of which the last is one are read as the number that they stand for. -/
theorem numbers_read_modulo_word_highest :
    let bytes : Bytes := List.replicate 9 0x80 ++ [0x01]
    ByteReader.Takes (.ofBytes bytes) bytes ⟨[], 10⟩ ∧
      Read.varint.run (.ofBytes bytes) = (.ok (Bytes.groupSum bytes), ⟨[], 10⟩) := by
  intro bytes
  have takes : ByteReader.Takes (.ofBytes bytes) bytes ⟨[], 10⟩ :=
    ⟨(List.append_nil bytes).symm, rfl, .replicate (by decide) 9⟩
  rcases numbers_read_modulo_word (.ofBytes bytes) with ⟨varint, _, _, groups⟩
  have fits := ((groups bytes ⟨[], 10⟩ takes).2 (by decide)).1.mpr (by simp [bytes])
  exact ⟨takes, (varint _ _).mpr ⟨bytes, takes, by decide, fits.symm⟩⟩

/-- Ten groups that stand for the first number beyond the word are read as zero, though no group is
missing and none is too many. -/
theorem tenth_group_wraps :
    let bytes : Bytes := List.replicate 9 0x80 ++ [0x02]
    Read.varint.run (.ofBytes bytes) = (.ok 0, ⟨[], 10⟩) ∧ Bytes.groupSum bytes = twoTo 64 := by
  intro bytes
  have sum : Bytes.groupSum bytes = twoTo 64 := by
    simp [bytes, List.replicate, Bytes.groupSum_cons, Bytes.groupSum_nil]
  have takes : ByteReader.Takes (.ofBytes bytes) bytes ⟨[], 10⟩ :=
    ⟨(List.append_nil bytes).symm, rfl, .replicate (by decide) 9⟩
  have read := Read.run_varint_of_takes takes (by decide)
  rw [sum, Nat.mod_self] at read
  exact ⟨read, sum⟩

end ScriptMachine
