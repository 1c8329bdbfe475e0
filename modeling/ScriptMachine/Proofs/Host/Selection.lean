import ScriptMachine.Host.Overload

/-!
# Which overload is chosen

Candidates are compared two at a time, and the comparison is not transitive: three candidates can
beat each other in a cycle. One scan from left to right is enough all the same. The comparison has
opposite signs from its two ends, so a candidate that beats all others takes the lead when the scan
meets it, and keeps it from then on. A leader that does not beat all others is found out by looking
at the whole list once more.

So the choice depends on which candidates fit, and not on their order.
-/

namespace ScriptMachine

namespace ParamMatch

theorem compare_swap (left right : ParamMatch) : left.compare right = -right.compare left := by
  unfold compare
  dsimp only
  by_cases same : left.category.rank = right.category.rank
  · have category : left.category = right.category := by
      cases first : left.category <;> cases second : right.category <;>
        simp [MatchCategory.rank, first, second] at same ⊢
    simp only [category, ne_eq, not_true_eq_false, if_false]
    cases right.category <;> dsimp only <;> repeat' split
    all_goals omega
  · simp only [ne_eq, same, Ne.symm same, not_false_eq_true, if_true]
    repeat' split
    all_goals omega

end ParamMatch

namespace Overload

variable {hierarchy : TypeHierarchy} {store : Store} {args : List Value} {name : String}

/-- The candidates that fit the arguments. -/
def viable (hierarchy : TypeHierarchy) (store : Store) (args : List Value)
    (candidates : List HostFunction) : List Candidate :=
  candidates.filterMap (evaluate? hierarchy store args)

/-- One of the candidates is better than each of the others. -/
def Wins (winner : Candidate) (candidates : List Candidate) : Prop :=
  ∃ before after, candidates = before ++ winner :: after ∧
    ∀ other ∈ before ++ after, 0 < compare winner other

/-- The call that is prepared for a candidate. -/
def Candidate.prepared (candidate : Candidate) (args : List Value) : Resolved :=
  ⟨candidate.function,
    ⟨convertArgs candidate.function.params candidate.fits args, candidate.bindings⟩⟩

/-! ## Comparison -/

theorem foldl_compare_swap (left right : List ParamMatch) (total : Int) :
    (left.zip right).foldl (fun total pair => total + pair.1.compare pair.2) total =
      -(right.zip left).foldl (fun total pair => total + pair.1.compare pair.2) (-total) := by
  induction left generalizing right total with
  | nil => simp
  | cons first rest ih =>
      cases right with
      | nil => simp
      | cons other others =>
          simp only [List.zip_cons_cons, List.foldl_cons]
          rw [ih, first.compare_swap other, Int.neg_add, Int.neg_neg]

/-- The better of two candidates is the same from both ends. -/
theorem compare_swap (left right : Candidate) : compare left right = -compare right left :=
  foldl_compare_swap left.fits right.fits 0

/-! ## The scan -/

/-- A leader that beats all that follow keeps the lead. -/
theorem leader_keeps {best : Candidate} {place index : Nat} {rest : List Candidate}
    (beats : ∀ other ∈ rest, 0 < compare best other) :
    leader best place index rest = (best, place) := by
  induction rest generalizing index with
  | nil => rfl
  | cons next rest ih =>
      have ahead := beats next List.mem_cons_self
      rw [leader, if_neg (by omega)]
      exact ih fun other later => beats other (List.mem_cons_of_mem _ later)

/-- A candidate that beats whoever leads and all that follow takes the lead and keeps it. -/
theorem leader_takes {best winner : Candidate} {place index : Nat} {before after : List Candidate}
    (beats : ∀ other ∈ best :: before ++ after, 0 < compare winner other) :
    leader best place index (before ++ winner :: after) = (winner, index + before.length) := by
  induction before generalizing best place index with
  | nil =>
      have behind := beats best (by simp)
      rw [compare_swap] at behind
      rw [List.nil_append, leader, if_pos (by omega)]
      exact leader_keeps fun other later => beats other (by simp [later])
  | cons next rest ih =>
      have taken (leading : Candidate) (place : Nat)
          (leads : leading = best ∨ leading = next) :
          leader leading place (index + 1) (rest ++ winner :: after) =
            (winner, index + (next :: rest).length) := by
        rw [ih, List.length_cons, Nat.add_assoc, Nat.add_comm 1]
        intro other present
        apply beats
        rcases leads with rfl | rfl <;> simp at present ⊢ <;> grind
      rw [List.cons_append, leader]
      split
      · exact taken next _ (.inr rfl)
      · exact taken best _ (.inl rfl)

/-- The leader is the candidate at the place that the scan gives. -/
theorem exists_split_leader {best : Candidate} {index : Nat} {before between rest : List Candidate}
    (counted : index = before.length + 1 + between.length) :
    ∃ first second, before ++ best :: between ++ rest =
        first ++ (leader best before.length index rest).1 :: second ∧
      (leader best before.length index rest).2 = first.length := by
  induction rest generalizing best index before between with
  | nil => exact ⟨before, between, by simp [leader], rfl⟩
  | cons next rest ih =>
      rw [leader]
      split
      · have place : index = (before ++ best :: between).length := by
          simp only [List.length_append, List.length_cons]
          omega
        have found := @ih next (index + 1) (before ++ best :: between) [] (by simp [← place])
        rw [← place] at found
        simpa using found
      · have found := @ih best (index + 1) before (between ++ [next]) (by simp; omega)
        simpa using found

/-- What stands at the other places of a list are the candidates before and behind. -/
theorem mem_iff_other_place {winner other : Candidate} {before after : List Candidate} :
    other ∈ before ++ after ↔
      ∃ index, index ≠ before.length ∧ (before ++ winner :: after)[index]? = some other := by
  constructor
  · intro present
    rcases List.mem_append.mp present with early | late
    · rcases List.mem_iff_getElem?.mp early with ⟨index, found⟩
      have inside := (List.getElem?_eq_some_iff.mp found).1
      exact ⟨index, by omega, by rw [List.getElem?_append_left inside, found]⟩
    · rcases List.mem_iff_getElem?.mp late with ⟨index, found⟩
      refine ⟨before.length + (index + 1), by omega, ?_⟩
      rw [List.getElem?_append_right (by omega), Nat.add_sub_cancel_left, List.getElem?_cons_succ,
        found]
  · rintro ⟨index, different, found⟩
    rcases Nat.lt_or_ge index before.length with early | late
    · rw [List.getElem?_append_left early] at found
      exact List.mem_append_left _ (List.mem_of_getElem? found)
    · obtain ⟨further, rfl⟩ : ∃ further, index = before.length + (further + 1) :=
        ⟨index - before.length - 1, by omega⟩
      rw [List.getElem?_append_right (by omega), Nat.add_sub_cancel_left,
        List.getElem?_cons_succ] at found
      exact List.mem_append_right _ (List.mem_of_getElem? found)

theorem rivals_eq_nil_iff {winner : Candidate} {before after : List Candidate} :
    rivals winner before.length (before ++ winner :: after) = [] ↔
      ∀ other ∈ before ++ after, 0 < compare winner other := by
  have rival (other : Candidate) :
      other ∈ rivals winner before.length (before ++ winner :: after) ↔
        other ∈ before ++ after ∧ compare winner other ≤ 0 := by
    simp only [rivals, List.mem_map, List.mem_filter, Bool.and_eq_true, decide_eq_true_eq,
      Prod.exists, exists_and_right, exists_eq_right, List.mem_zipIdx_iff_getElem?,
      @mem_iff_other_place winner other before after]
    constructor
    · rintro ⟨index, found, different, worse⟩
      exact ⟨⟨index, different, found⟩, worse⟩
    · rintro ⟨⟨index, different, found⟩, worse⟩
      exact ⟨index, found, different, worse⟩
  rw [List.eq_nil_iff_forall_not_mem]
  constructor
  · intro none other present
    apply Int.not_le.mp
    exact fun worse => none other ((rival other).mpr ⟨present, worse⟩)
  · intro beats other present
    rcases (rival other).mp present with ⟨present, worse⟩
    have better := beats other present
    omega

/-- The scan and the second look together find the winner, if there is one. -/
theorem wins_iff {first winner : Candidate} {rest : List Candidate} :
    Wins winner (first :: rest) ↔
      (leader first 0 1 rest).1 = winner ∧
        rivals (leader first 0 1 rest).1 (leader first 0 1 rest).2 (first :: rest) = [] := by
  constructor
  · rintro ⟨before, after, same, beats⟩
    have leads : leader first 0 1 rest = (winner, before.length) := by
      cases before with
      | nil =>
          cases same
          exact leader_keeps beats
      | cons head before =>
          rw [List.cons_append, List.cons.injEq] at same
          rcases same with ⟨rfl, rfl⟩
          rw [leader_takes beats, List.length_cons, Nat.add_comm]
    rw [leads, same]
    exact ⟨rfl, rivals_eq_nil_iff.mpr beats⟩
  · rintro ⟨rfl, none⟩
    rcases @exists_split_leader first 1 [] [] rest rfl with ⟨before, after, same, place⟩
    rw [List.length_nil] at same place
    simp only [List.nil_append, List.cons_append] at same
    refine ⟨before, after, same, rivals_eq_nil_iff.mp ?_⟩
    rw [← place, ← same]
    exact none

theorem Wins.ne_nil {winner : Candidate} {candidates : List Candidate}
    (wins : Wins winner candidates) : candidates ≠ [] := by
  rintro rfl
  rcases wins with ⟨before, after, same, _⟩
  simp at same

/-! ## The choice -/

theorem resolveOverload_of_wins {candidates : List HostFunction} {winner : Candidate}
    (wins : Wins winner (viable hierarchy store args candidates)) :
    resolveOverload name candidates args hierarchy store = .ok (winner.prepared args) := by
  unfold viable at wins
  unfold resolveOverload
  cases fitting : candidates.filterMap (evaluate? hierarchy store args) with
  | nil => exact absurd fitting wins.ne_nil
  | cons first rest =>
      rw [fitting] at wins
      rcases wins_iff.mp wins with ⟨rfl, none⟩
      dsimp only
      rw [none]
      rfl

theorem resolveOverload_of_nil {candidates : List HostFunction}
    (none : viable hierarchy store args candidates = []) :
    resolveOverload name candidates args hierarchy store =
      .error (.noMatchingOverload name
        (args.map fun value => (value.runtimeType store).render)) := by
  unfold viable at none
  unfold resolveOverload
  rw [none]

theorem resolveOverload_of_no_winner {candidates : List HostFunction}
    (fits : viable hierarchy store args candidates ≠ [])
    (undecided : ¬∃ winner, Wins winner (viable hierarchy store args candidates)) :
    ∃ names, resolveOverload name candidates args hierarchy store =
      .error (.ambiguousOverload name names) := by
  unfold viable at fits undecided
  unfold resolveOverload
  cases fitting : candidates.filterMap (evaluate? hierarchy store args) with
  | nil => exact absurd fitting fits
  | cons first rest =>
      rw [fitting] at undecided
      dsimp only
      split
      · rename_i none
        exact absurd ⟨_, wins_iff.mpr ⟨rfl, none⟩⟩ undecided
      · exact ⟨_, rfl⟩

/-- Of three candidates that beat each other in a cycle none is chosen. -/
example :
    let function (types : List String) : HostFunction :=
      .ofTypes "f" (types.map .named) fun _ store => (.ok .unit, store)
    let cycle := [function ["int", "float", "i32"], function ["i32", "int", "float"],
      function ["float", "i32", "int"]]
    (resolveOverload "f" cycle [.int 0, .int 0, .int 0] (fun _ => []) .empty).mapError
      RuntimeFault.kind = .error "AmbiguousOverload" := rfl

/-- The three ways in which a choice ends. -/
theorem resolveOverload_cases (candidates : List HostFunction) :
    (∃ winner, Wins winner (viable hierarchy store args candidates) ∧
        resolveOverload name candidates args hierarchy store = .ok (winner.prepared args)) ∨
      (viable hierarchy store args candidates = [] ∧
        resolveOverload name candidates args hierarchy store =
          .error (.noMatchingOverload name
            (args.map fun value => (value.runtimeType store).render))) ∨
      (viable hierarchy store args candidates ≠ [] ∧
        (¬∃ winner, Wins winner (viable hierarchy store args candidates)) ∧
        ∃ names, resolveOverload name candidates args hierarchy store =
          .error (.ambiguousOverload name names)) := by
  by_cases decided : ∃ winner, Wins winner (viable hierarchy store args candidates)
  · rcases decided with ⟨winner, wins⟩
    exact .inl ⟨winner, wins, resolveOverload_of_wins wins⟩
  · by_cases none : viable hierarchy store args candidates = []
    · exact .inr (.inl ⟨none, resolveOverload_of_nil none⟩)
    · exact .inr (.inr ⟨none, decided, resolveOverload_of_no_winner none decided⟩)

/-- What is chosen is a candidate that fits, with the call that is prepared for it. -/
theorem exists_of_chosen {candidates : List HostFunction} {resolved : Resolved}
    (chosen : resolveOverload name candidates args hierarchy store = .ok resolved) :
    ∃ function ∈ candidates, ∃ fits bindings,
      function.required ≤ args.length ∧ args.length ≤ function.params.length ∧
      evaluateArgs hierarchy store [] args function.params = some (fits, bindings) ∧
      resolved = Candidate.prepared ⟨function, fits, bindings⟩ args := by
  rcases @resolveOverload_cases hierarchy store args name candidates with
    ⟨winner, wins, here⟩ | ⟨_, refused⟩ | ⟨_, _, _, refused⟩
  · cases chosen.symm.trans here
    rcases wins with ⟨before, after, fitting, _⟩
    have among : winner ∈ viable hierarchy store args candidates := by
      rw [fitting]
      simp
    rcases List.mem_filterMap.mp among with ⟨function, member, evaluated⟩
    rw [evaluate?] at evaluated
    split at evaluated
    · cases evaluated
    · rename_i counted
      rcases Option.map_eq_some_iff.mp evaluated with ⟨⟨fits, bindings⟩, found, rfl⟩
      simp only [Bool.or_eq_true, decide_eq_true_eq, not_or, Nat.not_lt] at counted
      exact ⟨function, member, fits, bindings, counted.1, counted.2, found, rfl⟩
  · cases chosen.symm.trans refused
  · cases chosen.symm.trans refused

/-! ## Order and additions -/

/-- Whoever wins does so in every order of the candidates. -/
theorem Wins.perm {winner : Candidate} {candidates permuted : List Candidate}
    (wins : Wins winner candidates) (same : candidates.Perm permuted) : Wins winner permuted := by
  rcases wins with ⟨before, after, rfl, beats⟩
  have member : winner ∈ permuted := same.subset (by simp)
  rcases List.append_of_mem member with ⟨first, second, rfl⟩
  refine ⟨first, second, rfl, ?_⟩
  have others : (before ++ after).Perm (first ++ second) :=
    (List.perm_middle.symm.trans (same.trans List.perm_middle)).cons_inv
  exact fun other present => beats other (others.symm.subset present)

theorem exists_wins_perm {candidates permuted : List Candidate}
    (same : candidates.Perm permuted) :
    (∃ winner, Wins winner permuted) ↔ ∃ winner, Wins winner candidates :=
  ⟨fun ⟨winner, wins⟩ => ⟨winner, wins.perm same.symm⟩, fun ⟨winner, wins⟩ => ⟨winner, wins.perm same⟩⟩

theorem resolveOverload_perm {candidates permuted : List HostFunction}
    (same : candidates.Perm permuted) :
    (resolveOverload name permuted args hierarchy store).mapError RuntimeFault.kind =
      (resolveOverload name candidates args hierarchy store).mapError RuntimeFault.kind := by
  have fitting : (viable hierarchy store args candidates).Perm
      (viable hierarchy store args permuted) := same.filterMap _
  rcases @resolveOverload_cases hierarchy store args name candidates with
    ⟨winner, wins, chosen⟩ | ⟨none, refused⟩ | ⟨fits, undecided, names, refused⟩
  · rw [chosen, resolveOverload_of_wins (wins.perm fitting)]
  · rw [refused, resolveOverload_of_nil (List.Perm.eq_nil (none ▸ fitting.symm))]
  · have undecidedToo := mt (exists_wins_perm fitting).mp undecided
    have fitsToo : viable hierarchy store args permuted ≠ [] :=
      fun none => fits (List.Perm.eq_nil (none ▸ fitting))
    rcases @resolveOverload_of_no_winner hierarchy store args name permuted fitsToo undecidedToo with
      ⟨others, again⟩
    rw [refused, again]
    rfl

/-- A candidate that does not fit is as good as not there. -/
theorem viable_insert_of_none {first second : List HostFunction} {function : HostFunction}
    (unfit : evaluate? hierarchy store args function = none) :
    viable hierarchy store args (first ++ function :: second) =
      viable hierarchy store args (first ++ second) := by
  simp [viable, unfit]

theorem viable_insert_of_some {first second : List HostFunction} {function : HostFunction}
    {extra : Candidate} (fits : evaluate? hierarchy store args function = some extra) :
    viable hierarchy store args (first ++ function :: second) =
      viable hierarchy store args first ++ extra :: viable hierarchy store args second := by
  simp [viable, fits]

/-- The winner still wins with one more candidate that it beats. -/
theorem Wins.insert {winner extra : Candidate} {first second : List Candidate}
    (wins : Wins winner (first ++ second)) (loses : compare extra winner < 0) :
    Wins winner (first ++ extra :: second) := by
  have longer : Wins winner (extra :: (first ++ second)) := by
    rcases wins with ⟨before, after, same, beats⟩
    refine ⟨extra :: before, after, by rw [same]; rfl, ?_⟩
    intro other present
    rcases List.mem_cons.mp present with rfl | present
    · rw [compare_swap]
      omega
    · exact beats other present
  exact longer.perm List.perm_middle.symm

/-- The choice is the same wherever the same candidates fit in the same order. -/
theorem resolveOverload_congr {candidates others : List HostFunction}
    (same : viable hierarchy store args candidates = viable hierarchy store args others) :
    resolveOverload name candidates args hierarchy store =
      resolveOverload name others args hierarchy store := by
  unfold viable at same
  unfold resolveOverload
  rw [same]

/-- A candidate is chosen exactly if it beats every other one that fits. No candidate that fits, and
no such winner, are the two ways to fail. So the order of the candidates does not matter for who is
chosen or how the choice fails, and a further candidate that does not fit or loses against the winner
changes nothing. -/
theorem overload_selection (name : String) (candidates : List HostFunction) (args : List Value)
    (hierarchy : TypeHierarchy) (store : Store) :
    (∀ resolved, resolveOverload name candidates args hierarchy store = .ok resolved ↔
      ∃ winner, Wins winner (viable hierarchy store args candidates) ∧
        resolved = winner.prepared args) ∧
    ((∃ types, resolveOverload name candidates args hierarchy store =
        .error (.noMatchingOverload name types)) ↔
      viable hierarchy store args candidates = []) ∧
    ((∃ names, resolveOverload name candidates args hierarchy store =
        .error (.ambiguousOverload name names)) ↔
      viable hierarchy store args candidates ≠ [] ∧
        ¬∃ winner, Wins winner (viable hierarchy store args candidates)) ∧
    (∀ permuted, candidates.Perm permuted →
      (resolveOverload name permuted args hierarchy store).mapError RuntimeFault.kind =
        (resolveOverload name candidates args hierarchy store).mapError RuntimeFault.kind) ∧
    (∀ first second function, candidates = first ++ second →
      (evaluate? hierarchy store args function = none ∨
        ∃ extra winner, evaluate? hierarchy store args function = some extra ∧
          Wins winner (viable hierarchy store args candidates) ∧ compare extra winner < 0) →
      resolveOverload name (first ++ function :: second) args hierarchy store =
        resolveOverload name candidates args hierarchy store) := by
  refine ⟨?_, ?_, ?_, fun _ same => resolveOverload_perm same, ?_⟩
  · intro resolved
    constructor
    · intro chosen
      rcases @resolveOverload_cases hierarchy store args name candidates with
        ⟨winner, wins, here⟩ | ⟨_, refused⟩ | ⟨_, _, names, refused⟩
      · exact ⟨winner, wins, Except.ok.inj (chosen.symm.trans here)⟩
      · cases chosen.symm.trans refused
      · cases chosen.symm.trans refused
    · rintro ⟨winner, wins, rfl⟩
      exact resolveOverload_of_wins wins
  · constructor
    · rintro ⟨types, refused⟩
      rcases @resolveOverload_cases hierarchy store args name candidates with
        ⟨winner, _, chosen⟩ | ⟨none, _⟩ | ⟨_, _, names, ambiguous⟩
      · cases refused.symm.trans chosen
      · exact none
      · cases refused.symm.trans ambiguous
    · exact fun none => ⟨_, resolveOverload_of_nil none⟩
  · constructor
    · rintro ⟨names, ambiguous⟩
      rcases @resolveOverload_cases hierarchy store args name candidates with
        ⟨winner, _, chosen⟩ | ⟨_, refused⟩ | ⟨fits, undecided, _⟩
      · cases ambiguous.symm.trans chosen
      · cases ambiguous.symm.trans refused
      · exact ⟨fits, undecided⟩
    · exact fun ⟨fits, undecided⟩ => resolveOverload_of_no_winner fits undecided
  · rintro first second function rfl (unfit | ⟨extra, winner, fits, wins, loses⟩)
    · exact resolveOverload_congr (viable_insert_of_none unfit)
    · have longer : Wins winner (viable hierarchy store args (first ++ function :: second)) := by
        rw [viable_insert_of_some fits]
        rw [viable, List.filterMap_append] at wins
        exact wins.insert loses
      rw [resolveOverload_of_wins wins, resolveOverload_of_wins longer]

end Overload

end ScriptMachine
