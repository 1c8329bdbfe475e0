import Mathlib.Algebra.BigOperators.Fin
import Mathlib.Algebra.Order.BigOperators.Group.Finset
import ScriptMachine.Proofs.Image.Arrangements
import ScriptMachine.Proofs.Program.Walk
import ScriptMachine.Proofs.Value.PairLists

/-!
# What becomes of listed namespaces

In a list that is accepted each node is reached from the first one in exactly one way. But a node
holds its functions and its children by name, and nothing keeps a list from giving two of them one
name. Only the last of these is left, and a child that is lost takes all below it along. The tree
has every node and every function of the list exactly if no name stands twice in a node: no tree
weighs more than its node and its children together, and over all nodes the children cancel out.
-/

namespace ScriptMachine

namespace Image

/-- The names that lead from the first node to a place. -/
inductive Leads (nodes : List ListedNode) : List String → Nat → Prop
  | root : Leads nodes [] 0
  | child {path : List String} {place : Nat} {node : ListedNode} {name : String} {index : Nat}
      (leads : Leads nodes path place) (here : nodes[place]? = some node)
      (below : (name, index) ∈ node.children) : Leads nodes (path ++ [name]) index

/-- No two functions and no two children of a node have one name. -/
def ListedNode.NamesApart (node : ListedNode) : Prop :=
  (node.functions.map Prod.fst).Nodup ∧ (node.children.map Prod.fst).Nodup

variable {nodes : List ListedNode} {node : ListedNode} {place : Nat}

/-! ## Counting -/

theorem sum_childPlaces (weigh : Nat → Nat) (nodes : List ListedNode) :
    ((childPlaces nodes).map weigh).sum =
      (nodes.map fun node => Dictionary.total weigh node.children).sum := by
  induction nodes with
  | nil => rfl
  | cons node rest ih =>
      rw [childPlaces_cons, List.map_append, List.sum_append, ih, List.map_cons, List.sum_cons,
        List.map_map]
      rfl

/-- Summing over the children of all nodes leaves out only the first node. -/
theorem Arranged.sum_children (arranged : Arranged nodes) (weigh : Nat → Nat) :
    weigh 0 + (nodes.map fun node => Dictionary.total weigh node.children).sum =
      ∑ place : Fin nodes.length, weigh place := by
  rcases Nat.exists_eq_succ_of_ne_zero (mt List.length_eq_zero_iff.mp arranged.nonempty) with
    ⟨size, length⟩
  have once := arranged.once
  rw [length, Nat.succ_sub_one] at once
  have places : (List.range (size + 1)).map weigh =
      weigh 0 :: (List.range' 1 size).map weigh := by
    rw [List.range_eq_range', List.range'_succ, List.map_cons]
  rw [Fin.sum_univ_eq_sum_range weigh, length]
  change _ = ((List.range (size + 1)).map weigh).sum
  rw [places, List.sum_cons, ← sum_childPlaces, (once.map weigh).sum_eq]

/-- The children of a node as the tree has them. -/
def placed (nodes : List ListedNode) (node : ListedNode) : List (String × NamespaceNode) :=
  node.children.map fun child => (child.1, treeAt nodes child.2)

theorem names_placed (nodes : List ListedNode) (node : ListedNode) :
    (placed nodes node).map Prod.fst = node.children.map Prod.fst :=
  List.map_map

theorem total_placed (weigh : NamespaceNode → Nat) (nodes : List ListedNode) (node : ListedNode) :
    Dictionary.total (fun place => weigh (treeAt nodes place)) node.children =
      Dictionary.total weigh (placed nodes node) := by
  rw [Dictionary.total, Dictionary.total, placed, List.map_map]
  rfl

/-- A tree that weighs what its functions and its children weigh weighs no more than the functions
of all nodes, and as much only if no node loses functions or children that count. -/
theorem Arranged.weigh_root (arranged : Arranged nodes) (weigh : NamespaceNode → Nat)
    (own : List (String × FunctionEntry) → Nat)
    (parts : ∀ functions children,
      weigh (.mk functions children) = own functions + Dictionary.total weigh children)
    (fewer : ∀ functions, own (Dictionary.ofPairs functions) ≤ own functions) :
    weigh (treeAt nodes 0) ≤ (nodes.map fun node => own node.functions).sum ∧
      (weigh (treeAt nodes 0) = (nodes.map fun node => own node.functions).sum ↔
        ∀ node ∈ nodes, own (Dictionary.ofPairs node.functions) = own node.functions ∧
          Dictionary.total weigh (Dictionary.ofPairs (placed nodes node)) =
            Dictionary.total weigh (placed nodes node)) := by
  have tree (place : Fin nodes.length) : weigh (treeAt nodes place) =
      own (Dictionary.ofPairs nodes[place].functions) +
        Dictionary.total weigh (Dictionary.ofPairs (placed nodes nodes[place])) := by
    rw [treeAt_eq arranged.behind (List.getElem?_eq_getElem place.isLt), parts]
    rfl
  have below (place : Fin nodes.length) (_ : place ∈ Finset.univ) : weigh (treeAt nodes place) ≤
      own nodes[place].functions + Dictionary.total weigh (placed nodes nodes[place]) := by
    have functions := fewer nodes[place].functions
    have children := Dictionary.total_ofPairs_le weigh (placed nodes nodes[place])
    rw [tree place]
    omega
  have least := Finset.sum_le_sum below
  have equal := Finset.sum_eq_sum_iff_of_le below
  have listed : ∑ place : Fin nodes.length,
      (own nodes[place].functions + Dictionary.total weigh (placed nodes nodes[place])) =
        (nodes.map fun node => own node.functions).sum +
          (nodes.map fun node => Dictionary.total weigh (placed nodes node)).sum := by
    rw [← List.sum_map_add]
    exact Fin.sum_univ_fun_getElem nodes
      fun node => own node.functions + Dictionary.total weigh (placed nodes node)
  have all := arranged.sum_children fun place => weigh (treeAt nodes place)
  simp only [total_placed] at all
  -- The children weigh as much as all trees but the first, so they cancel out.
  have kept : weigh (treeAt nodes 0) = (nodes.map fun node => own node.functions).sum ↔
      ∑ place : Fin nodes.length, weigh (treeAt nodes place) = ∑ place : Fin nodes.length,
        (own nodes[place].functions + Dictionary.total weigh (placed nodes nodes[place])) := by
    omega
  refine ⟨by omega, kept.trans (equal.trans ⟨fun every node member => ?_, fun every place _ => ?_⟩)⟩
  · rcases List.mem_iff_getElem.mp member with ⟨place, inside, rfl⟩
    have same := every ⟨place, inside⟩ (Finset.mem_univ _)
    have functions := fewer nodes[place].functions
    have children := Dictionary.total_ofPairs_le weigh (placed nodes nodes[place])
    rw [tree ⟨place, inside⟩] at same
    dsimp only [Fin.getElem_fin] at same
    omega
  · rcases every nodes[place] (List.getElem_mem _) with ⟨functions, children⟩
    rw [tree place, functions, children]

theorem nodeCount_mk (functions : List (String × FunctionEntry))
    (children : List (String × NamespaceNode)) :
    nodeCount (.mk functions children) = 1 + Dictionary.total nodeCount children := by
  rw [nodeCount_eq, forestCount, List.map_map]
  rfl

theorem nodeCount_pos (tree : NamespaceNode) : 0 < nodeCount tree := by
  rw [nodeCount_eq]
  omega

/-- The tree has as many nodes as are listed exactly if all children of a node have other names. -/
theorem Arranged.nodeCount_root (arranged : Arranged nodes) :
    nodeCount (treeAt nodes 0) ≤ nodes.length ∧
      (nodeCount (treeAt nodes 0) = nodes.length ↔
        ∀ node ∈ nodes, (node.children.map Prod.fst).Nodup) := by
  have ones : (nodes.map fun _ => 1).sum = nodes.length := by simp
  have weighed := arranged.weigh_root nodeCount (fun _ => 1) nodeCount_mk fun _ => Nat.le_refl 1
  rw [ones] at weighed
  refine ⟨weighed.1, weighed.2.trans (forall₂_congr fun node _ => ?_)⟩
  rw [Dictionary.total_ofPairs_iff nodeCount_pos, names_placed]
  exact and_iff_right rfl

mutual

theorem length_listFrom (path : List String) : ∀ tree : NamespaceNode,
    (tree.listFrom path).length = tree.list.length
  | .mk functions children => by
      simp only [NamespaceNode.list_eq_listFrom, NamespaceNode.listFrom, List.length_append,
        NamespaceNode.functionsAt, List.length_map, length_listChildren path children,
        length_listChildren [] children]

theorem length_listChildren (path : List String) : ∀ children : List (String × NamespaceNode),
    (NamespaceNode.listChildren path children).length =
      Dictionary.total (fun tree => tree.list.length) children
  | [] => rfl
  | (name, tree) :: others => by
      rw [NamespaceNode.listChildren, List.length_append, length_listFrom (path ++ [name]) tree,
        length_listChildren path others, Dictionary.total_cons]

end

theorem length_list_mk (functions : List (String × FunctionEntry))
    (children : List (String × NamespaceNode)) :
    (NamespaceNode.mk functions children).list.length =
      functions.length + Dictionary.total (fun tree => tree.list.length) children := by
  rw [NamespaceNode.list_eq_listFrom, NamespaceNode.listFrom, List.length_append,
    NamespaceNode.functionsAt, List.length_map, length_listChildren]

/-- With all nodes, the tree has as many functions as are listed exactly if all functions of a node
have other names. -/
theorem Arranged.length_list_root (arranged : Arranged nodes) :
    (treeAt nodes 0).list.length ≤ (nodes.map fun node => node.functions.length).sum ∧
      ((∀ node ∈ nodes, (node.children.map Prod.fst).Nodup) →
        ((treeAt nodes 0).list.length = (nodes.map fun node => node.functions.length).sum ↔
          ∀ node ∈ nodes, (node.functions.map Prod.fst).Nodup)) := by
  have weighed := arranged.weigh_root (fun tree => tree.list.length) List.length length_list_mk
    Dictionary.length_ofPairs_le
  refine ⟨weighed.1, fun apart => weighed.2.trans (forall₂_congr fun node member => ?_)⟩
  have names : ((placed nodes node).map Prod.fst).Nodup := by
    rw [names_placed]
    exact apart node member
  rw [and_iff_left (Dictionary.total_ofPairs_of_nodup _ names), Dictionary.length_ofPairs_iff]

/-! ## Paths -/

theorem leads_append_singleton_iff {path : List String} {name : String} {index : Nat} :
    Leads nodes (path ++ [name]) index ↔ ∃ place node, Leads nodes path place ∧
      nodes[place]? = some node ∧ (name, index) ∈ node.children := by
  constructor
  · generalize whole : path ++ [name] = names
    intro leads
    cases leads with
    | root => exact absurd whole (List.append_ne_nil_of_right_ne_nil _ (List.cons_ne_nil _ _))
    | child leads here below =>
        rcases List.append_inj' whole rfl with ⟨rfl, same⟩
        cases same
        exact ⟨_, _, leads, here, below⟩
  · rintro ⟨place, node, leads, here, below⟩
    exact .child leads here below

theorem leads_nil_iff : Leads nodes [] place ↔ place = 0 := by
  constructor
  · generalize whole : ([] : List String) = names
    intro leads
    cases leads with
    | root => rfl
    | child => exact absurd whole.symm (List.append_ne_nil_of_right_ne_nil _ (List.cons_ne_nil _ _))
  · rintro rfl
    exact .root

namespace Arranged

theorem mem_childPlaces_iff (arranged : Arranged nodes) :
    place ∈ childPlaces nodes ↔ 0 < place ∧ place < nodes.length := by
  have some := List.length_pos_iff.mpr arranged.nonempty
  rw [arranged.once.mem_iff, List.mem_range'_1]
  omega

theorem lt_of_leads (arranged : Arranged nodes) {path : List String}
    (leads : Leads nodes path place) : place < nodes.length := by
  cases leads with
  | root => exact List.length_pos_iff.mpr arranged.nonempty
  | child _ here below =>
      refine (arranged.mem_childPlaces_iff.mp ?_).2
      exact List.mem_flatMap.mpr
        ⟨_, List.mem_of_getElem? here, List.mem_map.mpr ⟨_, below, rfl⟩⟩

theorem exists_leads (arranged : Arranged nodes) :
    ∀ {place : Nat}, place < nodes.length → ∃ path, Leads nodes path place := by
  intro place
  induction place using Nat.strong_induction_on with
  | _ place ih =>
      intro inside
      rcases Nat.eq_zero_or_pos place with rfl | positive
      · exact ⟨[], .root⟩
      · rcases List.mem_flatMap.mp (arranged.mem_childPlaces_iff.mpr ⟨positive, inside⟩) with
          ⟨node, listed, below⟩
        rcases List.mem_map.mp below with ⟨⟨name, index⟩, isChild, rfl⟩
        rcases List.mem_iff_getElem?.mp listed with ⟨parent, here⟩
        have before := arranged.behind parent node here _ isChild
        rw [Nat.zero_add] at before
        rcases ih parent before (List.getElem?_eq_some_iff.mp here).1 with ⟨path, leads⟩
        exact ⟨path ++ [name], .child leads here isChild⟩

/-- No place is given twice. -/
theorem parent_unique (arranged : Arranged nodes) {one two : Nat} {left right : ListedNode}
    {name other : String} (hereLeft : nodes[one]? = some left)
    (hereRight : nodes[two]? = some right)
    (belowLeft : (name, place) ∈ left.children) (belowRight : (other, place) ∈ right.children) :
    one = two ∧ name = other := by
  rcases List.nodup_flatMap.mp (arranged.once.nodup_iff.mpr List.nodup_range') with
    ⟨within, between⟩
  have inLeft : place ∈ left.children.map Prod.snd := List.mem_map.mpr ⟨_, belowLeft, rfl⟩
  have inRight : place ∈ right.children.map Prod.snd := List.mem_map.mpr ⟨_, belowRight, rfl⟩
  rcases List.getElem?_eq_some_iff.mp hereLeft with ⟨insideLeft, atLeft⟩
  rcases List.getElem?_eq_some_iff.mp hereRight with ⟨insideRight, atRight⟩
  rcases Nat.lt_trichotomy one two with less | rfl | less
  · have disjoint := List.pairwise_iff_getElem.mp between one two insideLeft insideRight less
    rw [atLeft, atRight] at disjoint
    exact absurd inRight (disjoint inLeft)
  · have same : left = right := Option.some.inj (hereLeft.symm.trans hereRight)
    subst same
    have pairs := List.inj_on_of_nodup_map (within left (List.mem_of_getElem? hereLeft))
      belowLeft belowRight rfl
    exact ⟨rfl, congrArg Prod.fst pairs⟩
  · have disjoint := List.pairwise_iff_getElem.mp between two one insideRight insideLeft less
    rw [atLeft, atRight] at disjoint
    exact absurd inLeft (disjoint inRight)

theorem leads_unique (arranged : Arranged nodes) {path other : List String}
    (leads : Leads nodes path place) (leadsToo : Leads nodes other place) : path = other := by
  have notRoot {parent index : Nat} {node : ListedNode} {name : String}
      (here : nodes[parent]? = some node) (below : (name, index) ∈ node.children) : index ≠ 0 := by
    have after := arranged.behind parent node here _ below
    dsimp only at after
    omega
  induction leads generalizing other with
  | root =>
      generalize first : 0 = index at leadsToo
      cases leadsToo with
      | root => rfl
      | child _ here below => exact absurd first.symm (notRoot here below)
  | child leads here below ih =>
      cases leadsToo with
      | root => exact absurd rfl (notRoot here below)
      | child leadsToo hereToo belowToo =>
          rcases arranged.parent_unique here hereToo below belowToo with ⟨rfl, rfl⟩
          rw [ih leadsToo]

end Arranged

theorem descend?_append_singleton (tree : NamespaceNode) (path : List String) (name : String) :
    tree.descend? (path ++ [name]) =
      (tree.descend? path).bind fun target => target.children.find? name := by
  induction path generalizing tree with
  | nil =>
      simp only [List.nil_append, NamespaceNode.descend?, Option.bind_some]
      cases tree.children.find? name <;> rfl
  | cons segment path ih =>
      simp only [List.cons_append, NamespaceNode.descend?, Option.bind_assoc, ih]

/-- Where no name stands twice, the nodes of the tree are those that the listed names lead to. -/
theorem Arranged.descend?_root (arranged : Arranged nodes)
    (apart : ∀ node ∈ nodes, (node.children.map Prod.fst).Nodup) {path : List String}
    {tree : NamespaceNode} :
    (treeAt nodes 0).descend? path = some tree ↔
      ∃ place, Leads nodes path place ∧ treeAt nodes place = tree := by
  induction path using List.reverseRecOn generalizing tree with
  | nil => simp [NamespaceNode.descend?, leads_nil_iff]
  | append_singleton path name ih =>
      have step {place : Nat} {node : ListedNode} (here : nodes[place]? = some node) :
          (treeAt nodes place).children.find? name = some tree ↔
            ∃ index, (name, index) ∈ node.children ∧ treeAt nodes index = tree := by
        have kept : ((placed nodes node).map Prod.fst).Nodup :=
          (names_placed nodes node).symm ▸ apart node (List.mem_of_getElem? here)
        rw [treeAt_eq arranged.behind here]
        refine (Dictionary.find?_ofPairs kept).trans ?_
        simp [placed]
      rw [descend?_append_singleton, Option.bind_eq_some_iff]
      constructor
      · rintro ⟨parent, reached, found⟩
        rcases ih.mp reached with ⟨place, leads, rfl⟩
        have here := List.getElem?_eq_getElem (arranged.lt_of_leads leads)
        rcases (step here).mp found with ⟨index, below, same⟩
        exact ⟨index, .child leads here below, same⟩
      · rintro ⟨index, leads, same⟩
        rcases leads_append_singleton_iff.mp leads with ⟨place, node, leads, here, below⟩
        exact ⟨treeAt nodes place, ih.mpr ⟨place, leads, rfl⟩, (step here).mpr ⟨index, below, same⟩⟩

/-- With all names apart, a function is where the listed names lead to. -/
theorem Arranged.lookup?_root (arranged : Arranged nodes)
    (apart : ∀ node ∈ nodes, node.NamesApart) {path : List String} {name : String}
    {entry : FunctionEntry} :
    (treeAt nodes 0).lookup? path name = some entry ↔
      ∃ place node, Leads nodes path place ∧ nodes[place]? = some node ∧
        (name, entry) ∈ node.functions := by
  have functions {place : Nat} {node : ListedNode} (here : nodes[place]? = some node) :
      (treeAt nodes place).functions.find? name = some entry ↔ (name, entry) ∈ node.functions := by
    rw [treeAt_eq arranged.behind here]
    exact Dictionary.find?_ofPairs (apart node (List.mem_of_getElem? here)).1
  rw [NamespaceNode.lookup?, Option.bind_eq_some_iff]
  constructor
  · rintro ⟨tree, reached, found⟩
    rcases (arranged.descend?_root fun node member => (apart node member).2).mp reached with
      ⟨place, leads, rfl⟩
    have here := List.getElem?_eq_getElem (arranged.lt_of_leads leads)
    exact ⟨place, _, leads, here, (functions here).mp found⟩
  · rintro ⟨place, node, leads, here, member⟩
    exact ⟨treeAt nodes place,
      (arranged.descend?_root fun node member => (apart node member).2).mpr ⟨place, leads, rfl⟩,
      (functions here).mpr member⟩

/-! ## The reader -/

theorem length_of_run_many {α : Type} {element : Read α} {count : Nat} {values : List α}
    {reader later : ByteReader}
    (read : (Read.many element count).run reader = (.ok values, later)) :
    values.length = count := by
  induction count generalizing reader values with
  | zero =>
      cases read
      rfl
  | succ count ih =>
      rcases Read.run_bind_ok_iff.mp read with ⟨first, middle, _, others⟩
      rcases Read.run_bind_ok_iff.mp others with ⟨others, last, read, ends⟩
      cases ends
      rw [List.length_cons, ih read]

theorem run_varint_of_counted {α : Type} {element : Read α} {values : List α}
    {reader later : ByteReader} (read : (Read.counted element).run reader = (.ok values, later)) :
    (Read.varint.run reader).1 = .ok values.length := by
  rcases Read.run_bind_ok_iff.mp read with ⟨count, middle, counted, read⟩
  rw [counted, length_of_run_many read]

theorem run_namespaces_of_counted {reader later : ByteReader}
    (read : (Read.counted readNode).run reader = (.ok nodes, later)) :
    readNamespaces.run reader = (buildNamespaces nodes, later) := by
  rw [readNamespaces, Read.run_bind, read]
  rfl

/-- A tree has as many nodes and functions as are listed. -/
structure Complete (nodes : List ListedNode) (root : NamespaceNode) : Prop where
  count : nodeCount root = nodes.length
  functions : root.list.length = (nodes.map fun node => node.functions.length).sum

/-- The nodes and the functions of a tree are where the listed names lead to. -/
structure Faithful (nodes : List ListedNode) (root : NamespaceNode) : Prop where
  paths : ∀ path, (root.descend? path).isSome ↔ ∃ place, Leads nodes path place
  functions : ∀ path name entry, root.lookup? path name = some entry ↔
    ∃ place node, Leads nodes path place ∧ nodes[place]? = some node ∧
      (name, entry) ∈ node.functions

namespace Arranged

theorem leads_existsUnique (arranged : Arranged nodes) (inside : place < nodes.length) :
    ∃! path, Leads nodes path place := by
  rcases arranged.exists_leads inside with ⟨path, leads⟩
  exact ⟨path, leads, fun other leadsToo => arranged.leads_unique leadsToo leads⟩

theorem complete_iff (arranged : Arranged nodes) :
    Complete nodes (treeAt nodes 0) ↔ ∀ node ∈ nodes, node.NamesApart := by
  constructor
  · rintro ⟨all, functions⟩
    have apart := arranged.nodeCount_root.2.mp all
    have functionsApart := (arranged.length_list_root.2 apart).mp functions
    exact fun node member => ⟨functionsApart node member, apart node member⟩
  · intro apart
    have children := fun node member => (apart node member).2
    exact ⟨arranged.nodeCount_root.2.mpr children,
      (arranged.length_list_root.2 children).mpr fun node member => (apart node member).1⟩

theorem faithful (arranged : Arranged nodes) (apart : ∀ node ∈ nodes, node.NamesApart) :
    Faithful nodes (treeAt nodes 0) := by
  refine ⟨fun path => ?_, fun _ _ _ => arranged.lookup?_root apart⟩
  rw [Option.isSome_iff_exists]
  constructor
  · rintro ⟨tree, reached⟩
    rcases (arranged.descend?_root fun node member => (apart node member).2).mp reached with
      ⟨place, leads, _⟩
    exact ⟨place, leads⟩
  · rintro ⟨place, leads⟩
    exact ⟨treeAt nodes place,
      (arranged.descend?_root fun node member => (apart node member).2).mpr ⟨place, leads, rfl⟩⟩

end Arranged

end Image

open Image

/-- Listed namespaces are accepted exactly if they are arranged as a tree, in which each is reached
over one path, and are else refused as malformed. Of those that are accepted, no node and no
function is lost exactly if no name stands twice in a node; each is then found at its path. -/
theorem namespaces_kept_iff_names_apart (reader : ByteReader) :
    (∀ root later, readNamespaces.run reader = (.ok root, later) →
      ∃ nodes, (Read.counted readNode).run reader = (.ok nodes, later) ∧
        (Read.varint.run reader).1 = .ok nodes.length ∧
        (∀ place < nodes.length, ∃! path, Leads nodes path place) ∧
        nodeCount root ≤ nodes.length ∧
        root.list.length ≤ (nodes.map fun node => node.functions.length).sum ∧
        (Complete nodes root ↔ ∀ node ∈ nodes, node.NamesApart) ∧
        ((∀ node ∈ nodes, node.NamesApart) → Faithful nodes root)) ∧
    ∀ nodes later, (Read.counted readNode).run reader = (.ok nodes, later) →
      ((∃ root, readNamespaces.run reader = (.ok root, later)) ↔ Arranged nodes) ∧
      ((∃ detail, readNamespaces.run reader = (.error (.malformedNamespaceTable detail), later)) ↔
        ¬Arranged nodes) := by
  have accepts {nodes later} (read : (Read.counted readNode).run reader = (.ok nodes, later))
      (arranged : Arranged nodes) :
      readNamespaces.run reader = (.ok (treeAt nodes 0), later) := by
    rw [run_namespaces_of_counted read, buildNamespaces_of_arranged arranged]
  have refuses {nodes later} (read : (Read.counted readNode).run reader = (.ok nodes, later))
      (disarranged : ¬Arranged nodes) : ∃ detail,
        readNamespaces.run reader = (.error (.malformedNamespaceTable detail), later) := by
    rcases buildNamespaces_of_not_arranged disarranged with ⟨detail, failed⟩
    exact ⟨detail, by rw [run_namespaces_of_counted read, failed]⟩
  constructor
  · intro root later accepted
    rcases Read.run_bind_ok_iff.mp accepted with ⟨nodes, middle, read, _⟩
    by_cases arranged : Arranged nodes
    · cases (accepts read arranged).symm.trans accepted
      exact ⟨nodes, read, run_varint_of_counted read, fun place => arranged.leads_existsUnique,
        arranged.nodeCount_root.1, arranged.length_list_root.1, arranged.complete_iff,
        arranged.faithful⟩
    · rcases refuses read arranged with ⟨detail, refused⟩
      cases refused.symm.trans accepted
  · intro nodes later read
    by_cases arranged : Arranged nodes
    · have accepted := accepts read arranged
      refine ⟨⟨fun _ => arranged, fun _ => ⟨_, accepted⟩⟩, ?_, fun disarranged =>
        absurd arranged disarranged⟩
      rintro ⟨detail, refused⟩
      cases accepted.symm.trans refused
    · rcases refuses read arranged with ⟨detail, refused⟩
      refine ⟨⟨?_, fun isArranged => absurd isArranged arranged⟩, fun _ => arranged, fun _ =>
        ⟨detail, refused⟩⟩
      rintro ⟨root, accepted⟩
      cases refused.symm.trans accepted

/-- A node below the first one is kept with its function. -/
theorem namespaces_kept_iff_names_apart_nested :
    let bytes : Bytes := [2, 0, 1, 1, 0x61, 1, 1, 1, 0x66, 0, 0, 0]
    let nodes : List ListedNode := [⟨[], [("a", 1)]⟩, ⟨[("f", ⟨0, 0⟩)], []⟩]
    let root : NamespaceNode := .mk [] [("a", .mk [("f", ⟨0, 0⟩)] [])]
    readNamespaces.run (.ofBytes bytes) = (.ok root, ⟨[], 12⟩) ∧
      Complete nodes root ∧ Faithful nodes root := by
  intro bytes nodes root
  have listed : (Read.counted readNode).run (.ofBytes bytes) = (.ok nodes, ⟨[], 12⟩) := by
    dsimp only [bytes, nodes]
    rfl
  have accepted : readNamespaces.run (.ofBytes bytes) = (.ok root, ⟨[], 12⟩) := by
    rw [run_namespaces_of_counted listed]
    rfl
  have apart : ∀ node ∈ nodes, node.NamesApart := by simp [nodes, ListedNode.NamesApart]
  rcases (namespaces_kept_iff_names_apart (.ofBytes bytes)).1 root ⟨[], 12⟩ accepted with
    ⟨found, read, _, _, _, _, complete, faithful⟩
  cases read.symm.trans listed
  exact ⟨accepted, complete.mpr apart, faithful apart⟩

/-- Two children of the first node have one name. The second of them is left, and the function of
the first is lost, though each node is the child of one that comes before it. -/
theorem namesake_loses_function :
    let bytes : Bytes := [3, 0, 2, 1, 0x61, 1, 1, 0x61, 2, 1, 1, 0x66, 0, 0, 0, 0, 0]
    (Read.counted readNode).run (.ofBytes bytes) =
        (.ok [⟨[], [("a", 1), ("a", 2)]⟩, ⟨[("f", ⟨0, 0⟩)], []⟩, ⟨[], []⟩], ⟨[], 17⟩) ∧
      readNamespaces.run (.ofBytes bytes) = (.ok (.mk [] [("a", .mk [] [])]), ⟨[], 17⟩) :=
  ⟨rfl, rfl⟩

end ScriptMachine
