import Mathlib.Algebra.BigOperators.Group.List.Basic
import Mathlib.Data.List.Induction
import Mathlib.Data.List.Nodup
import ScriptMachine.Proofs.Image.Namespaces
import ScriptMachine.Proofs.Value.Dictionary

/-!
# Dictionaries of pairs

A list of pairs makes a dictionary in which the last pair of each name is left. It is all there
exactly if no name stands twice, which shows in the number of entries, and in the sum of any
positive number over them.
-/

namespace ScriptMachine

namespace Dictionary

variable {α : Type} {dictionary : Dictionary α} {name other : String} {value : α}
  {pairs : List (String × α)} {weigh : α → Nat}

/-! ## Names -/

theorem mem_names_insert :
    other ∈ (dictionary.insert name value).names ↔ other = name ∨ other ∈ dictionary.names := by
  induction dictionary with
  | nil => simp [insert, names]
  | cons entry rest ih =>
      rcases entry with ⟨key, old⟩
      simp only [names, List.map_cons, List.mem_cons] at ih ⊢
      rw [insert]
      split
      · rename_i same
        simp [same]
      · split
        · simp
        · simp only [List.map_cons, List.mem_cons, ih]
          exact or_left_comm

theorem lt_of_not_lt {left right : String} (differ : left ≠ right) (notLess : ¬left < right) :
    right < left := by
  by_cases less : right < left
  · exact less
  · exact absurd (String.le_antisymm less notLess) differ

theorem Ordered.insert (ordered : dictionary.Ordered) : (dictionary.insert name value).Ordered := by
  induction dictionary with
  | nil => simp [Ordered, names, Dictionary.insert]
  | cons entry rest ih =>
      rcases entry with ⟨key, old⟩
      unfold Ordered at ordered ih ⊢
      rw [names, List.map_cons, List.pairwise_cons] at ordered
      rcases ordered with ⟨first, others⟩
      rw [Dictionary.insert]
      split
      · rename_i same
        subst same
        exact List.pairwise_cons.mpr ⟨first, others⟩
      · rename_i differ
        split
        · rename_i less
          refine List.pairwise_cons.mpr ⟨?_, List.pairwise_cons.mpr ⟨first, others⟩⟩
          intro other member
          rcases List.mem_cons.mp member with rfl | behind
          · exact less
          · exact String.lt_trans less (first other behind)
        · rename_i notLess
          refine List.pairwise_cons.mpr ⟨?_, ih others⟩
          intro other member
          rcases mem_names_insert.mp member with rfl | behind
          · exact lt_of_not_lt differ notLess
          · exact first other behind

theorem find?_eq_none_iff : dictionary.find? name = none ↔ name ∉ dictionary.names := by
  have contained := @contains_names _ dictionary name
  rw [contains, List.contains_eq_mem] at contained
  rw [← Option.not_isSome_iff_eq_none, contained, decide_eq_true_iff]

theorem ofPairs_append_singleton (pair : String × α) :
    ofPairs (pairs ++ [pair]) = (ofPairs pairs).insert pair.1 pair.2 :=
  List.foldl_append ..

theorem ordered_ofPairs (pairs : List (String × α)) : (ofPairs pairs).Ordered := by
  induction pairs using List.reverseRecOn with
  | nil => exact List.Pairwise.nil
  | append_singleton pairs pair ih =>
      rw [ofPairs_append_singleton]
      exact ih.insert

theorem mem_names_ofPairs : name ∈ (ofPairs pairs).names ↔ name ∈ pairs.map Prod.fst := by
  induction pairs using List.reverseRecOn with
  | nil => rfl
  | append_singleton pairs pair ih =>
      rw [ofPairs_append_singleton, mem_names_insert, ih, List.map_append, List.mem_append, or_comm]
      simp

theorem nodup_names_append_singleton {pair : String × α} :
    ((pairs ++ [pair]).map Prod.fst).Nodup ↔
      (pairs.map Prod.fst).Nodup ∧ pair.1 ∉ (ofPairs pairs).names := by
  rw [mem_names_ofPairs, List.map_append, List.map_singleton, ← List.concat_eq_append,
    List.nodup_concat, and_comm]

/-- With every name once, a dictionary holds just the pairs that it was made of. -/
theorem find?_ofPairs (apart : (pairs.map Prod.fst).Nodup) :
    (ofPairs pairs).find? name = some value ↔ (name, value) ∈ pairs := by
  induction pairs using List.reverseRecOn with
  | nil => simp [ofPairs, find?]
  | append_singleton pairs pair ih =>
      rcases pair with ⟨last, newest⟩
      rcases nodup_names_append_singleton.mp apart with ⟨apart, absent⟩
      rw [mem_names_ofPairs] at absent
      rw [ofPairs_append_singleton, find?_insert, List.mem_append, List.mem_singleton]
      by_cases same : name = last
      · subst same
        have missing : (name, value) ∉ pairs := fun present =>
          absent (List.mem_map.mpr ⟨_, present, rfl⟩)
        simp [missing, eq_comm]
      · simp [same, ih apart]

theorem Ordered.nodup (ordered : dictionary.Ordered) : dictionary.names.Nodup :=
  ordered.imp String.ne_of_lt

theorem Ordered.find?_eq_some_iff (ordered : dictionary.Ordered) :
    dictionary.find? name = some value ↔ (name, value) ∈ dictionary := by
  have found : (ofPairs dictionary).find? name = some value ↔ (name, value) ∈ dictionary :=
    find?_ofPairs ordered.nodup
  rwa [ofPairs_ordered ordered] at found

/-! ## Sums -/

/-- The sum of a number over the values of some pairs. -/
def total (weigh : α → Nat) (pairs : List (String × α)) : Nat :=
  (pairs.map fun pair => weigh pair.2).sum

theorem total_cons (pair : String × α) :
    total weigh (pair :: pairs) = weigh pair.2 + total weigh pairs := by
  simp [total]

theorem total_append_singleton (pair : String × α) :
    total weigh (pairs ++ [pair]) = total weigh pairs + weigh pair.2 := by
  simp [total]

/-- An entry comes in addition to the others but for the one that it replaces. -/
theorem total_insert (weigh : α → Nat) (ordered : dictionary.Ordered) (name : String) (value : α) :
    total weigh (dictionary.insert name value) + ((dictionary.find? name).map weigh).getD 0 =
      total weigh dictionary + weigh value := by
  induction dictionary with
  | nil => simp [insert, find?, total]
  | cons entry rest ih =>
      rcases entry with ⟨key, old⟩
      unfold Ordered at ordered ih
      rw [names, List.map_cons, List.pairwise_cons] at ordered
      rcases ordered with ⟨first, others⟩
      rw [insert]
      split
      · rename_i same
        subst same
        simp only [find?, if_true, Option.map_some, Option.getD_some, total_cons]
        omega
      · rename_i differ
        split
        · rename_i less
          have absent : name ∉ names ((key, old) :: rest) := by
            intro member
            rcases List.mem_cons.mp member with same | behind
            · exact differ same
            · exact String.lt_asymm less (first name behind)
          simp only [find?_eq_none_iff.mpr absent, Option.map_none, Option.getD_none, total_cons]
          omega
        · have rest := ih others
          simp only [find?, Ne.symm differ, if_false, total_cons]
          omega

theorem total_ofPairs_of_nodup (weigh : α → Nat) (apart : (pairs.map Prod.fst).Nodup) :
    total weigh (ofPairs pairs) = total weigh pairs := by
  induction pairs using List.reverseRecOn with
  | nil => rfl
  | append_singleton pairs pair ih =>
      rcases nodup_names_append_singleton.mp apart with ⟨apart, absent⟩
      have inserted := total_insert weigh (ordered_ofPairs pairs) pair.1 pair.2
      rw [find?_eq_none_iff.mpr absent] at inserted
      simp only [Option.map_none, Option.getD_none, Nat.add_zero] at inserted
      rw [ofPairs_append_singleton, total_append_singleton, inserted, ih apart]

theorem total_ofPairs_le (weigh : α → Nat) (pairs : List (String × α)) :
    total weigh (ofPairs pairs) ≤ total weigh pairs := by
  induction pairs using List.reverseRecOn with
  | nil => exact Nat.le_refl _
  | append_singleton pairs pair ih =>
      have inserted := total_insert weigh (ordered_ofPairs pairs) pair.1 pair.2
      rw [ofPairs_append_singleton, total_append_singleton]
      omega

/-- Where every value counts, nothing is lost exactly if no name stands twice. -/
theorem total_ofPairs_iff (positive : ∀ value, 0 < weigh value) :
    total weigh (ofPairs pairs) = total weigh pairs ↔ (pairs.map Prod.fst).Nodup := by
  refine ⟨fun kept => ?_, total_ofPairs_of_nodup weigh⟩
  induction pairs using List.reverseRecOn with
  | nil => exact List.nodup_nil
  | append_singleton pairs pair ih =>
      have inserted := total_insert weigh (ordered_ofPairs pairs) pair.1 pair.2
      have fewer := total_ofPairs_le weigh pairs
      rw [ofPairs_append_singleton, total_append_singleton] at kept
      rcases found : (ofPairs pairs).find? pair.1 with _ | old
      · rw [found] at inserted
        simp only [Option.map_none, Option.getD_none] at inserted
        exact nodup_names_append_singleton.mpr ⟨ih (by omega), find?_eq_none_iff.mp found⟩
      · rw [found] at inserted
        simp only [Option.map_some, Option.getD_some] at inserted
        have counts := positive old
        omega

theorem length_eq_total (pairs : List (String × α)) :
    pairs.length = total (fun _ => 1) pairs := by
  simp [total]

theorem length_ofPairs_le (pairs : List (String × α)) : (ofPairs pairs).length ≤ pairs.length := by
  rw [length_eq_total, length_eq_total]
  exact total_ofPairs_le _ pairs

theorem length_ofPairs_iff :
    (ofPairs pairs).length = pairs.length ↔ (pairs.map Prod.fst).Nodup := by
  rw [length_eq_total, length_eq_total]
  exact total_ofPairs_iff fun _ => Nat.one_pos

end Dictionary

end ScriptMachine
