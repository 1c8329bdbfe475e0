import Mathlib.Data.Finset.Card
import Mathlib.Data.Fintype.Prod
import Mathlib.Data.Fintype.Basic
import Mathlib.Order.Monotone.Basic
import ScriptMachine.Proofs.Value.Pairings
import ScriptMachine.Proofs.Value.Texts

/-!
# What twins have in common

Everything that a program can find out about a value is the same for its twin in another store: the
name of its type, its text, whether it equals another one.

Comparisons go down into arrays as far as a bound that comes from the number of arrays in the store,
and two stores need not have as many. But the bound is large enough: with a larger one nothing
changes.
-/

namespace ScriptMachine

/-! ## Comparisons -/

namespace Value

variable {store : Store} {bound : Nat} {left right : Value}

/-- What is found equal is so with a larger bound. -/
theorem equalWithin_succ (equal : left.equalWithin store bound right = true) :
    left.equalWithin store (bound + 1) right = true := by
  induction bound generalizing left right with
  | zero =>
      cases left with
      | array first =>
          cases right with
          | array second => exact (Bool.or_eq_true _ _).mpr (.inl equal)
          | _ => cases equal
      | _ => cases right <;> exact equal
  | succ bound ih =>
      cases left with
      | array first =>
          cases right with
          | array second =>
              simp only [equalWithin, Bool.or_eq_true, Bool.and_eq_true, List.all_eq_true] at equal ⊢
              exact equal.imp_right fun same => same.imp_right fun all pair present =>
                ih (all pair present)
          | _ => cases equal
      | _ => cases right <;> exact equal

end Value

/-- The pairs of arrays that are found equal within a bound. -/
def Store.equalPairs (store : Store) (bound : Nat) :
    Finset (Fin store.arrays.size × Fin store.arrays.size) :=
  Finset.univ.filter fun pair =>
    (Value.array ⟨pair.1⟩).equalWithin store (bound + 1) (.array ⟨pair.2⟩) = true

section Bounds

variable {store : Store} {bound other : Nat}

/-- What is found equal depends on the pairs of arrays alone. -/
theorem Value.equalWithin_of_equalPairs (same : store.equalPairs bound = store.equalPairs other)
    (left right : Value) :
    left.equalWithin store (bound + 1) right = left.equalWithin store (other + 1) right := by
  cases left with
  | array first =>
      cases right with
      | array second =>
          rcases Nat.lt_or_ge first.index store.arrays.size with inside | absent
          · rcases Nat.lt_or_ge second.index store.arrays.size with insideOther | absent
            · have members := Finset.ext_iff.mp same ⟨⟨_, inside⟩, ⟨_, insideOther⟩⟩
              simp only [Store.equalPairs, Finset.mem_filter, Finset.mem_univ, true_and] at members
              exact Bool.eq_iff_iff.mpr members
            · simp [equalWithin, Store.array_eq_empty absent]
          · simp [equalWithin, Store.array_eq_empty absent]
      | _ => rfl
  | _ => cases right <;> rfl

theorem Store.equalPairs_mono : Monotone store.equalPairs := by
  refine monotone_nat_of_le_succ fun bound pair member => ?_
  simp only [equalPairs, Finset.mem_filter, Finset.mem_univ, true_and] at member ⊢
  exact Value.equalWithin_succ member

theorem Store.equalPairs_succ (same : store.equalPairs bound = store.equalPairs (bound + 1)) :
    store.equalPairs (bound + 1) = store.equalPairs (bound + 2) := by
  ext pair
  simp only [equalPairs, Value.equalWithin, Value.equalWithin_of_equalPairs same]
  exact Iff.rfl

/-- A larger bound makes no difference to a comparison. -/
theorem Store.equalPairs_large (large : store.arrays.size * store.arrays.size ≤ bound) :
    store.equalPairs bound = store.equalPairs (store.arrays.size * store.arrays.size) := by
  have grows {few many : Nat} (fewer : few ≤ many)
      (same : (store.equalPairs few).card = (store.equalPairs many).card) :
      store.equalPairs few = store.equalPairs many :=
    Finset.eq_of_subset_of_card_le (equalPairs_mono fewer) (Nat.le_of_eq same.symm)
  have cards := @Nat.stabilises_of_monotone (fun bound => (store.equalPairs bound).card)
    (store.arrays.size * store.arrays.size) bound
    (fun _ _ fewer => Finset.card_le_card (equalPairs_mono fewer))
    (fun bound => by simpa using Finset.card_le_univ (store.equalPairs bound))
    (fun bound same => by rw [equalPairs_succ (grows (Nat.le_succ bound) same)]) large
  exact (grows large cards.symm).symm

theorem Value.equalWithin_large {left right : Value}
    (large : store.arrays.size * store.arrays.size < bound) :
    left.equalWithin store bound right = left.equal store right := by
  cases bound with
  | zero => exact absurd large (Nat.not_lt_zero _)
  | succ bound =>
      exact equalWithin_of_equalPairs (Store.equalPairs_large (Nat.le_of_lt_succ large)) left right

end Bounds

/-! ## Twins -/

section Twins

variable {pairs : Pairing} {first second : Store} {one other left leftTwin right rightTwin : Value}
  {bound : Nat}

theorem Value.Twins.isTruthy (twins : one.Twins pairs other) : one.isTruthy = other.isTruthy := by
  cases twins <;> rfl

theorem Value.Twins.of_isPlain (plain : one.IsPlain) : one.Twins pairs one := by
  cases one with
  | array | closure | iterator | object => cases plain
  | unit | bool | int | float | str | useDefault => constructor

theorem Value.Twins.unary (twins : one.Twins pairs other) (operator : UnaryOp) :
    one.unary operator = other.unary operator := by
  cases twins <;> cases operator <;> rfl

variable (joins : pairs.Joins first second)

include joins

theorem Value.Twins.typeName (twins : one.Twins pairs other) :
    one.typeName first = other.typeName second := by
  cases twins with
  | object paired => exact (joins.object paired).1
  | _ => rfl

theorem Value.Twins.runtimeType (twins : one.Twins pairs other) :
    one.runtimeType first = other.runtimeType second := by
  cases twins with
  | object paired =>
      rcases joins.object paired with ⟨name, args, _⟩
      simp only [Value.runtimeType, name, args]
  | _ => rfl

theorem Store.looksLike_of_joins :
    first.LooksLike second (fun here there => pairs .array here.index there.index)
      (Value.Twins pairs) where
  one_to_one paired pairedOther := by
    simpa using congrArg (· = true) (joins.beq ArrayId.ext paired pairedOther)
  items paired := joins.array paired
  split twins := by
    cases twins with
    | array paired => exact .inl ⟨_, _, paired, rfl, rfl⟩
    | closure paired =>
        refine .inr ⟨nofun, nofun, fun form => ?_⟩
        cases form <;> simp only [Value.surface, (joins.closure paired).1]
    | object paired =>
        refine .inr ⟨nofun, nofun, fun form => ?_⟩
        cases form <;> simp only [Value.surface, (joins.object paired).1]
    | _ => exact .inr ⟨nofun, nofun, fun form => by cases form <;> rfl⟩

theorem Value.Twins.display (twins : one.Twins pairs other) :
    one.display first = other.display second :=
  (Store.looksLike_of_joins joins).text_eq .plain twins

theorem Value.Twins.equalWithin_zero (twins : left.Twins pairs leftTwin)
    (rights : right.Twins pairs rightTwin) :
    left.equalWithin first 0 right = leftTwin.equalWithin second 0 rightTwin := by
  cases twins with
  | array paired =>
      cases rights with
      | array pairedOther => exact joins.beq ArrayId.ext paired pairedOther
      | _ => rfl
  | closure paired =>
      cases rights with
      | closure pairedOther => exact joins.beq ClosureId.ext paired pairedOther
      | _ => rfl
  | iterator paired =>
      cases rights with
      | iterator pairedOther => exact joins.beq IteratorId.ext paired pairedOther
      | _ => rfl
  | object paired =>
      cases rights with
      | object pairedOther => exact joins.beq ObjectId.ext paired pairedOther
      | _ => rfl
  | unit | bool | int | float | str | useDefault => cases rights <;> rfl

theorem Value.Twins.equalWithin (twins : left.Twins pairs leftTwin)
    (rights : right.Twins pairs rightTwin) :
    left.equalWithin first bound right = leftTwin.equalWithin second bound rightTwin := by
  induction bound generalizing left leftTwin right rightTwin with
  | zero => exact twins.equalWithin_zero joins rights
  | succ bound ih =>
      -- Only a comparison of two arrays depends on the bound.
      have flat := twins.equalWithin_zero joins rights
      cases twins with
      | @array here there paired =>
          cases rights with
          | @array also alsoThere pairedOther =>
              have all : ((first.array here).toList.zip (first.array also).toList).all
                    (fun pair => pair.1.equalWithin first bound pair.2) =
                  ((second.array there).toList.zip (second.array alsoThere).toList).all
                    fun pair => pair.1.equalWithin second bound pair.2 := by
                have items := joins.array paired
                have others := joins.array pairedOther
                generalize (first.array here).toList = lefts at items
                generalize (second.array there).toList = leftTwins at items
                generalize (first.array also).toList = rights at others
                generalize (second.array alsoThere).toList = rightTwins at others
                induction items generalizing rights rightTwins with
                | nil => rfl
                | cons item _ rest =>
                    cases others with
                    | nil => rfl
                    | cons another others =>
                        rw [List.zip_cons_cons, List.zip_cons_cons, List.all_cons, List.all_cons,
                          ih item another, rest _ _ others]
              rw [Value.equalWithin, Value.equalWithin, joins.beq ArrayId.ext paired pairedOther,
                joins.size_array paired, joins.size_array pairedOther, all]
          | _ => exact flat
      | _ => cases rights <;> exact flat

theorem Value.Twins.equal (twins : left.Twins pairs leftTwin) (rights : right.Twins pairs rightTwin) :
    left.equal first right = leftTwin.equal second rightTwin := by
  let pairsHere := first.arrays.size * first.arrays.size
  let pairsThere := second.arrays.size * second.arrays.size
  have enough : pairsHere < max pairsHere pairsThere + 1 := by omega
  have enoughTwin : pairsThere < max pairsHere pairsThere + 1 := by omega
  rw [← Value.equalWithin_large enough, ← Value.equalWithin_large enoughTwin]
  exact twins.equalWithin joins rights

/-- The built-in meaning of an operator is the same. -/
theorem Value.Twins.binary (twins : left.Twins pairs leftTwin)
    (rights : right.Twins pairs rightTwin) (operator : BinaryOp) :
    left.binary first operator right = leftTwin.binary second operator rightTwin := by
  have equal := twins.equal joins rights
  have text := twins.display joins
  have texts := rights.display joins
  cases operator with
  | eq => exact congrArg (fun same => some (Except.ok (Value.bool same))) equal
  | ne => exact congrArg (fun same => some (Except.ok (Value.bool !same))) equal
  | add =>
      cases twins with
      | @str left => exact congrArg (fun shown => some (Except.ok (Value.str (left ++ shown)))) texts
      | object => cases rights <;> rfl
      | _ =>
          cases rights with
          | @str right =>
              exact congrArg (fun shown => some (Except.ok (Value.str (shown ++ right)))) text
          | _ => rfl
  | _ =>
      -- An operator without a meaning for its left operand has none at all.
      cases twins with
      | bool | int | float | str => cases rights <;> rfl
      | _ => rfl

theorem Value.Twins.elementIndex (twins : one.Twins pairs other) (length : Nat) :
    Step.elementIndex first one length = Step.elementIndex second other length := by
  have name := twins.typeName joins
  cases twins with
  | int => rfl
  | _ => simp only [Step.elementIndex, name]

end Twins

end ScriptMachine
