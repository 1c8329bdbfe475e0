import Mathlib.Data.List.Nodup
import Mathlib.Data.List.Range
import ScriptMachine.Proofs.Image.Namespaces

/-!
# Which listed namespaces are a tree

An image lists the nodes of its namespaces one after the other, each with its functions and with the
places of its children. The reader goes from the last node to the first, and each takes its children
out of those behind it. The invariant is that the trees that are left behind a place are those that
no node from there on has as its child. So a list is accepted if every node but the first is the
child of exactly one other that comes before it, and every other list is refused as malformed.
-/

namespace ScriptMachine

namespace Image

/-- The places that some nodes give to their children. -/
def childPlaces (nodes : List ListedNode) : List Nat :=
  nodes.flatMap fun node => node.children.map Prod.snd

/-- The children of every node stand behind it, where the first node is at a place. -/
def Behind (place : Nat) (nodes : List ListedNode) : Prop :=
  ∀ index node, nodes[index]? = some node → ∀ child ∈ node.children, place + index < child.2

/-- Every node but the first is the child of exactly one other, and stands behind it. -/
structure Arranged (nodes : List ListedNode) : Prop where
  nonempty : nodes ≠ []
  behind : Behind 0 nodes
  once : (childPlaces nodes).Perm (List.range' 1 (nodes.length - 1))

variable {nodes rest : List ListedNode} {node : ListedNode} {place size : Nat}
  {taken : List Nat} {trees : List NamespaceNode} {children : List (String × Nat)}

theorem childPlaces_cons (node : ListedNode) (rest : List ListedNode) :
    childPlaces (node :: rest) = node.children.map Prod.snd ++ childPlaces rest := rfl

theorem behind_cons_iff :
    Behind place (node :: rest) ↔
      (∀ child ∈ node.children, place < child.2) ∧ Behind (place + 1) rest := by
  constructor
  · intro behind
    refine ⟨fun child member => behind 0 node rfl child member, ?_⟩
    intro index later found child member
    have after := behind (index + 1) later found child member
    omega
  · rintro ⟨first, behind⟩ index later found child member
    cases index with
    | zero =>
        cases found
        exact first child member
    | succ index =>
        have after := behind index later found child member
        omega

theorem Behind.lt_of_mem_childPlaces (behind : Behind place nodes) :
    ∀ child ∈ childPlaces nodes, place < child := by
  intro child member
  rcases List.mem_flatMap.mp member with ⟨node, listed, below⟩
  rcases List.mem_map.mp below with ⟨pair, isChild, rfl⟩
  rcases List.mem_iff_getElem?.mp listed with ⟨index, found⟩
  have after := behind index node found pair isChild
  omega

/-! ## Taking children out of the nodes behind -/

/-- The trees that are nobody's child, at the places from a given one on. -/
def unclaimed (taken : List Nat) (place : Nat) (trees : List NamespaceNode) :
    List (Option NamespaceNode) :=
  trees.mapIdx fun index tree => if place + index ∈ taken then none else some tree

/-- The children of a node at a place can be taken from so many nodes behind it. -/
def Free (place size : Nat) (taken : List Nat) (children : List (String × Nat)) : Prop :=
  (∀ child ∈ children, place < child.2 ∧ child.2 ≤ place + size ∧ child.2 ∉ taken) ∧
    (children.map Prod.snd).Nodup

theorem free_cons_iff {child : String × Nat} :
    Free place size taken (child :: children) ↔
      (place < child.2 ∧ child.2 ≤ place + size ∧ child.2 ∉ taken) ∧
        Free place size (child.2 :: taken) children := by
  unfold Free
  rw [List.forall_mem_cons, List.map_cons, List.nodup_cons]
  constructor
  · rintro ⟨⟨first, others⟩, apart, nodup⟩
    refine ⟨first, fun other member => ⟨(others other member).1, (others other member).2.1, ?_⟩,
      nodup⟩
    intro before
    rcases List.mem_cons.mp before with same | before
    · exact apart (List.mem_map.mpr ⟨other, member, same⟩)
    · exact (others other member).2.2 before
  · rintro ⟨first, others, nodup⟩
    refine ⟨⟨first, fun other member => ?_⟩, ?_, nodup⟩
    · rcases others other member with ⟨after, inside, free⟩
      exact ⟨after, inside, fun before => free (List.mem_cons_of_mem _ before)⟩
    · intro again
      rcases List.mem_map.mp again with ⟨other, member, same⟩
      exact (others other member).2.2 (List.mem_cons.mpr (.inl same))

theorem unclaimed_cons (tree : NamespaceNode) (others : List NamespaceNode) :
    unclaimed taken place (tree :: others) =
      (if place ∈ taken then none else some tree) :: unclaimed taken (place + 1) others := by
  simp only [unclaimed, List.mapIdx_cons, Nat.add_zero, Nat.add_assoc, Nat.add_comm 1]

theorem unclaimed_set (index : Nat) :
    (unclaimed taken place trees).set index none =
      unclaimed ((place + index) :: taken) place trees := by
  refine List.ext_getElem? fun other => ?_
  rw [List.getElem?_set, unclaimed, unclaimed, List.getElem?_mapIdx, List.getElem?_mapIdx,
    List.length_mapIdx]
  by_cases same : index = other
  · subst same
    by_cases inside : index < trees.length
    · simp [inside]
    · simp [inside]
  · simp [same, Ne.symm same]

theorem unclaimed_congr {others : List Nat} (same : ∀ child, child ∈ taken ↔ child ∈ others) :
    unclaimed taken place trees = unclaimed others place trees := by
  simp only [unclaimed, same]

/-- A child that can be taken is the tree at its place. -/
theorem getElem?_unclaimed_iff {tree : NamespaceNode} {child : Nat} (behind : place < child) :
    (unclaimed taken (place + 1) trees)[child - place - 1]? = some (some tree) ↔
      child ∉ taken ∧ trees[child - place - 1]? = some tree := by
  have index : place + 1 + (child - place - 1) = child := by omega
  rw [unclaimed, List.getElem?_mapIdx, index]
  by_cases claimed : child ∈ taken
  · simp [claimed]
  · simp [claimed]

/-- The trees that a node at a place gets as its children. -/
def below (place : Nat) (trees : List NamespaceNode) (children : List (String × Nat)) :
    List (String × NamespaceNode) :=
  children.map fun child => (child.1, trees.getD (child.2 - place - 1) .empty)

theorem claimChildren_of_free {done : Dictionary NamespaceNode}
    (free : Free place trees.length taken children) :
    claimChildren place children done (unclaimed taken (place + 1) trees) =
      .ok ((below place trees children).foldl (fun done pair => done.insert pair.1 pair.2) done,
        unclaimed (children.map Prod.snd ++ taken) (place + 1) trees) := by
  induction children generalizing done taken with
  | nil => rfl
  | cons child others ih =>
      rcases child with ⟨name, index⟩
      rcases free_cons_iff.mp free with ⟨⟨behind, inside, notTaken⟩, free⟩
      have short : index - place - 1 < trees.length := by
        dsimp only at behind inside
        omega
      have tree : trees[index - place - 1]? = some (trees.getD (index - place - 1) .empty) := by
        simp [short]
      have found : (unclaimed taken (place + 1) trees)[index - place - 1]? = some (some _) :=
        (getElem?_unclaimed_iff behind).mpr ⟨notTaken, tree⟩
      have at_place : place + 1 + (index - place - 1) = index := by
        dsimp only at behind
        omega
      simp only [claimChildren, behind, if_true, found, unclaimed_set, at_place, ih free, below,
        List.map_cons, List.foldl_cons]
      -- The place just taken is in front of those before it, but only membership counts.
      rw [unclaimed_congr]
      intro other
      simp only [List.mem_append, List.mem_cons]
      rw [or_left_comm, or_assoc]

theorem claimChildren_of_not_free (done : Dictionary NamespaceNode)
    (notFree : ¬Free place trees.length taken children) :
    ∃ detail, claimChildren place children done (unclaimed taken (place + 1) trees) =
      .error (.malformedNamespaceTable detail) := by
  induction children generalizing done taken with
  | nil => exact absurd ⟨by simp, List.nodup_nil⟩ notFree
  | cons child others ih =>
      rcases child with ⟨name, index⟩
      rw [free_cons_iff] at notFree
      rw [claimChildren]
      split
      · rename_i tree found
        split at found
        · rename_i behind
          rcases (getElem?_unclaimed_iff behind).mp found with ⟨notTaken, present⟩
          have short := (List.getElem?_eq_some_iff.mp present).1
          have at_place : place + 1 + (index - place - 1) = index := by omega
          rw [unclaimed_set, at_place]
          exact ih _ fun free => notFree ⟨⟨behind, by dsimp only; omega, notTaken⟩, free⟩
        · cases found
      · exact ⟨_, rfl⟩

/-! ## The trees below the nodes -/

/-- The tree below each of some nodes, the first of which is at a place. -/
def treesFrom (place : Nat) : List ListedNode → List NamespaceNode
  | [] => []
  | node :: rest =>
      let later := treesFrom (place + 1) rest
      .mk (Dictionary.ofPairs node.functions)
        (Dictionary.ofPairs (below place later node.children)) :: later

theorem length_treesFrom (place : Nat) (nodes : List ListedNode) :
    (treesFrom place nodes).length = nodes.length := by
  induction nodes generalizing place with
  | nil => rfl
  | cons node rest ih => simp [treesFrom, ih]

/-- The children of each of some nodes can be taken from the nodes behind it. -/
def Linked : Nat → List ListedNode → Prop
  | _, [] => True
  | place, node :: rest =>
      Linked (place + 1) rest ∧ Free place rest.length (childPlaces rest) node.children

theorem linked_iff :
    Linked place nodes ↔
      Behind place nodes ∧ (∀ child ∈ childPlaces nodes, child < place + nodes.length) ∧
        (childPlaces nodes).Nodup := by
  induction nodes generalizing place with
  | nil => simp [Linked, Behind, childPlaces]
  | cons node rest ih =>
      rw [Linked, ih, behind_cons_iff, childPlaces_cons, List.nodup_append', List.length_cons,
        List.forall_mem_append, List.forall_mem_map]
      constructor
      · rintro ⟨⟨behind, inside, nodup⟩, free, apart⟩
        refine ⟨⟨fun child member => (free child member).1, behind⟩, ⟨?_, ?_⟩, apart, nodup, ?_⟩
        · intro child member
          have last := (free child member).2.1
          omega
        · intro child member
          have last := inside child member
          omega
        · intro child member again
          rcases List.mem_map.mp member with ⟨pair, isChild, rfl⟩
          exact (free pair isChild).2.2 again
      · rintro ⟨⟨first, behind⟩, ⟨insideFirst, inside⟩, apart, nodup, disjoint⟩
        refine ⟨⟨behind, fun child member => ?_, nodup⟩, fun child member => ?_, apart⟩
        · have last := inside child member
          omega
        · have last := insideFirst child member
          exact ⟨first child member, by omega, fun again =>
            disjoint (List.mem_map.mpr ⟨child, member, rfl⟩) again⟩

/-- The reader holds the trees that nobody has taken yet. -/
theorem buildNodes_of_linked (linked : Linked place nodes) :
    buildNodes place nodes =
      .ok (unclaimed (childPlaces nodes) place (treesFrom place nodes)) := by
  induction nodes generalizing place with
  | nil => rfl
  | cons node rest ih =>
      have behind := (linked_iff.mp linked).1
      rcases linked with ⟨linked, free⟩
      rw [← length_treesFrom (place + 1)] at free
      have mine : place ∉ childPlaces (node :: rest) := fun member =>
        Nat.lt_irrefl _ (behind.lt_of_mem_childPlaces place member)
      simp only [buildNodes, ih linked, bind, Except.bind, claimChildren_of_free free]
      rw [treesFrom, unclaimed_cons, if_neg mine]
      rfl

theorem buildNodes_of_not_linked (notLinked : ¬Linked place nodes) :
    ∃ detail, buildNodes place nodes = .error (.malformedNamespaceTable detail) := by
  induction nodes generalizing place with
  | nil => exact absurd trivial notLinked
  | cons node rest ih =>
      by_cases linked : Linked (place + 1) rest
      · have notFree : ¬Free place (treesFrom (place + 1) rest).length (childPlaces rest)
            node.children := fun free =>
          notLinked ⟨linked, by rwa [length_treesFrom] at free⟩
        rcases claimChildren_of_not_free [] notFree with ⟨detail, failed⟩
        refine ⟨detail, ?_⟩
        simp only [buildNodes, buildNodes_of_linked linked, bind, Except.bind, failed]
      · rcases ih linked with ⟨detail, failed⟩
        refine ⟨detail, ?_⟩
        simp only [buildNodes, failed, bind, Except.bind]

/-! ## Lists that are accepted -/

theorem firstOrphan?_eq_none_iff {waiting : List (Option NamespaceNode)} :
    firstOrphan? place waiting = none ↔ ∀ tree ∈ waiting, tree = none := by
  induction waiting generalizing place with
  | nil => simp [firstOrphan?]
  | cons first others ih =>
      cases first with
      | none => simp [firstOrphan?, ih]
      | some tree => simp [firstOrphan?]

theorem unclaimed_eq_none_iff :
    (∀ tree ∈ unclaimed taken place trees, tree = none) ↔
      ∀ child ∈ List.range' place trees.length, child ∈ taken := by
  induction trees generalizing place with
  | nil => simp [unclaimed]
  | cons tree others ih =>
      rw [unclaimed_cons, List.forall_mem_cons, ih, List.length_cons, List.range'_succ,
        List.forall_mem_cons]
      by_cases claimed : place ∈ taken
      · simp [claimed]
      · simp [claimed]

/-- The places behind the first are all children, and each once, if there are no others. -/
theorem perm_range'_iff (behind : ∀ child ∈ taken, place ≤ child) :
    taken.Perm (List.range' place size) ↔
      ((∀ child ∈ taken, child < place + size) ∧ taken.Nodup) ∧
        ∀ child ∈ List.range' place size, child ∈ taken := by
  constructor
  · intro perm
    have nodup := perm.nodup_iff.mpr List.nodup_range'
    refine ⟨⟨fun child member => ?_, nodup⟩, fun child => perm.mem_iff.mpr⟩
    exact (List.mem_range'_1.mp (perm.mem_iff.mp member)).2
  · rintro ⟨⟨inside, nodup⟩, all⟩
    refine (List.perm_ext_iff_of_nodup nodup List.nodup_range').mpr fun child => ?_
    exact ⟨fun member => List.mem_range'_1.mpr ⟨behind child member, inside child member⟩,
      all child⟩

theorem arranged_cons_iff :
    Arranged (node :: rest) ↔
      Linked 0 (node :: rest) ∧
        ∀ child ∈ List.range' 1 rest.length, child ∈ childPlaces (node :: rest) := by
  have places (behind : Behind 0 (node :: rest)) :=
    @perm_range'_iff 1 rest.length (childPlaces (node :: rest)) fun child member =>
      behind.lt_of_mem_childPlaces child member
  have length : 0 + (node :: rest).length = 0 + 1 + rest.length := by
    rw [List.length_cons]
    omega
  rw [linked_iff, length]
  constructor
  · rintro ⟨_, behind, once⟩
    rcases (places behind).mp once with ⟨inside, all⟩
    exact ⟨⟨behind, inside⟩, all⟩
  · rintro ⟨⟨behind, inside⟩, all⟩
    exact ⟨List.cons_ne_nil _ _, behind, (places behind).mpr ⟨inside, all⟩⟩

/-- The tree below the node at a place. -/
def treeAt (nodes : List ListedNode) (place : Nat) : NamespaceNode :=
  (treesFrom 0 nodes).getD place .empty

theorem buildNamespaces_of_arranged (arranged : Arranged nodes) :
    buildNamespaces nodes = .ok (treeAt nodes 0) := by
  cases nodes with
  | nil => exact absurd rfl arranged.nonempty
  | cons node rest =>
      have root : 0 ∉ childPlaces (node :: rest) := fun member =>
        Nat.lt_irrefl _ (arranged.behind.lt_of_mem_childPlaces 0 member)
      rcases arranged_cons_iff.mp arranged with ⟨linked, all⟩
      rw [← length_treesFrom (0 + 1)] at all
      have taken : firstOrphan? 1 _ = none :=
        firstOrphan?_eq_none_iff.mpr (unclaimed_eq_none_iff.mpr all)
      rw [buildNamespaces, buildNodes_of_linked linked, treesFrom, unclaimed_cons, if_neg root]
      simp only [bind, Except.bind, taken]
      rfl

theorem buildNamespaces_of_not_arranged (disarranged : ¬Arranged nodes) :
    ∃ detail, buildNamespaces nodes = .error (.malformedNamespaceTable detail) := by
  cases nodes with
  | nil => exact ⟨_, rfl⟩
  | cons node rest =>
      by_cases linked : Linked 0 (node :: rest)
      · have root : 0 ∉ childPlaces (node :: rest) := fun member =>
          Nat.lt_irrefl _ ((linked_iff.mp linked).1.lt_of_mem_childPlaces 0 member)
        have notAll : ¬firstOrphan? 1 (unclaimed (childPlaces (node :: rest)) (0 + 1)
            (treesFrom (0 + 1) rest)) = none := by
          rw [firstOrphan?_eq_none_iff, unclaimed_eq_none_iff, length_treesFrom]
          exact fun all => disarranged (arranged_cons_iff.mpr ⟨linked, all⟩)
        rcases Option.ne_none_iff_exists'.mp notAll with ⟨orphan, found⟩
        refine ⟨"node " ++ toString orphan ++ " is unreachable", ?_⟩
        rw [buildNamespaces, buildNodes_of_linked linked, treesFrom, unclaimed_cons, if_neg root]
        simp only [bind, Except.bind, found]
        rfl
      · rcases buildNodes_of_not_linked linked with ⟨detail, failed⟩
        refine ⟨detail, ?_⟩
        rw [buildNamespaces, failed]
        rfl

theorem getElem?_treesFrom (behind : Behind place nodes) {index : Nat}
    (found : nodes[index]? = some node) :
    (treesFrom place nodes)[index]? =
      some (.mk (Dictionary.ofPairs node.functions) (Dictionary.ofPairs (node.children.map
        fun child => (child.1, (treesFrom place nodes).getD (child.2 - place) .empty)))) := by
  induction nodes generalizing place index with
  | nil => cases found
  | cons first rest ih =>
      rcases behind_cons_iff.mp behind with ⟨after, behindRest⟩
      have later : ∀ child, place < child →
          (treesFrom place (first :: rest)).getD (child - place) .empty =
            (treesFrom (place + 1) rest).getD (child - (place + 1)) .empty := by
        intro child less
        have index : child - place = child - (place + 1) + 1 := by omega
        rw [index]
        rfl
      cases index with
      | zero =>
          cases found
          have same : below place (treesFrom (place + 1) rest) node.children =
              node.children.map fun child =>
                (child.1, (treesFrom place (node :: rest)).getD (child.2 - place) .empty) :=
            List.map_congr_left fun child member => by
              rw [later child.2 (after child member), Nat.sub_sub]
          rw [← same]
          rfl
      | succ index =>
          have same : (node.children.map fun child =>
                (child.1, (treesFrom place (first :: rest)).getD (child.2 - place) .empty)) =
              node.children.map fun child =>
                (child.1, (treesFrom (place + 1) rest).getD (child.2 - (place + 1)) .empty) :=
            List.map_congr_left fun child member => by
              have after := behind (index + 1) node found child member
              rw [later child.2 (by omega)]
          rw [same]
          exact ih behindRest found

/-- A node has the functions that are listed for it and the trees at the places of its children. -/
theorem treeAt_eq (behind : Behind 0 nodes) (found : nodes[place]? = some node) :
    treeAt nodes place =
      .mk (Dictionary.ofPairs node.functions)
        (Dictionary.ofPairs (node.children.map fun child => (child.1, treeAt nodes child.2))) := by
  rw [treeAt, List.getD_eq_getElem?_getD, getElem?_treesFrom behind found]
  rfl

end Image

end ScriptMachine
