import Mathlib.Algebra.GroupWithZero.Nat
import ScriptMachine.Image.Decode
import ScriptMachine.Proofs.Image.Reading

/-!
# Namespaces in an image

Namespaces are written level by level and put together from the back. The invariant of the reader is
that the nodes behind a place are the trees that wait there for their parents, in the order of the
queue that the writer had at that place, followed by nodes that have their parents already.
-/

namespace ScriptMachine

/-- A dictionary as insertions make it: every name is less than the names behind it. -/
def Dictionary.Ordered {α : Type} (dictionary : Dictionary α) : Prop :=
  dictionary.names.Pairwise (· < ·)

namespace Dictionary

variable {α : Type} {dictionary : Dictionary α} {name : String} {value : α}

theorem insert_last (last : ∀ other ∈ dictionary.names, other < name) :
    dictionary.insert name value = dictionary ++ [(name, value)] := by
  induction dictionary with
  | nil => rfl
  | cons entry rest ih =>
      rcases entry with ⟨key, old⟩
      have less : key < name := last key List.mem_cons_self
      have others := ih fun other member => last other (List.mem_cons_of_mem _ member)
      have differs : name ≠ key := by
        rintro rfl
        exact String.lt_irrefl _ less
      have notLess : ¬ name < key := String.lt_asymm less
      simp [insert, differs, notLess, others]

/-- In an ordered dictionary all names of the front are less than the first one behind. -/
theorem Ordered.front {front rest : Dictionary α} (ordered : Ordered (front ++ (name, value) :: rest)) :
    ∀ other ∈ front.names, other < name := by
  intro other member
  unfold Ordered names at ordered
  rw [List.map_append, List.pairwise_append] at ordered
  exact ordered.2.2 other member name List.mem_cons_self

theorem foldl_insert (front rest : Dictionary α) (ordered : Ordered (front ++ rest)) :
    rest.foldl (fun dictionary pair => dictionary.insert pair.1 pair.2) front = front ++ rest := by
  induction rest generalizing front with
  | nil => simp
  | cons entry rest ih =>
      rw [List.foldl_cons, insert_last ordered.front, ih _ (by simpa using ordered)]
      simp

theorem ofPairs_ordered (ordered : Ordered dictionary) : ofPairs dictionary = dictionary :=
  foldl_insert [] dictionary ordered

end Dictionary

/-! ## Trees that fit -/

/-- A function of a namespace whose name and numbers can be written. -/
def FunctionEntry.Fits (function : String × FunctionEntry) : Prop :=
  Text.Fits function.1 ∧ function.2.offset < twoTo 64 ∧ function.2.arity < twoTo 32

mutual

/-- A tree of ordered dictionaries whose names and numbers can be written. -/
def NamespaceNode.Fits : NamespaceNode → Prop
  | .mk functions children =>
      Dictionary.Ordered functions ∧ functions.length < twoTo 64 ∧
        (∀ function ∈ functions, FunctionEntry.Fits function) ∧
        Dictionary.Ordered children ∧ NamespaceNode.AllFit children

def NamespaceNode.AllFit : List (String × NamespaceNode) → Prop
  | [] => True
  | (name, child) :: rest => (Text.Fits name ∧ child.Fits) ∧ NamespaceNode.AllFit rest

end

namespace NamespaceNode

theorem AllFit.of_mem {children : List (String × NamespaceNode)} (fits : AllFit children) :
    ∀ child ∈ children, Text.Fits child.1 ∧ child.2.Fits := by
  induction children with
  | nil => simp
  | cons first rest ih =>
      intro child member
      rcases List.mem_cons.mp member with rfl | behind
      · exact fits.1
      · exact ih fits.2 child behind

variable {node : NamespaceNode}

theorem Fits.functions (fits : node.Fits) :
    node.functions.Ordered ∧ node.functions.length < twoTo 64 ∧
      ∀ function ∈ node.functions, FunctionEntry.Fits function := by
  cases node
  exact ⟨fits.1, fits.2.1, fits.2.2.1⟩

theorem Fits.children (fits : node.Fits) :
    node.children.Ordered ∧ ∀ child ∈ node.children, Text.Fits child.1 ∧ child.2.Fits := by
  cases node
  exact ⟨fits.2.2.2.1, fits.2.2.2.2.of_mem⟩

end NamespaceNode

namespace Image

/-! ## The nodes in order -/

/-- The number of nodes of some trees. -/
def forestCount (queue : List NamespaceNode) : Nat := (queue.map nodeCount).sum

theorem childCount_eq (children : List (String × NamespaceNode)) :
    childCount children = forestCount (children.map Prod.snd) := by
  induction children with
  | nil => rfl
  | cons first rest ih => simp [childCount, forestCount, ih]

theorem nodeCount_eq (node : NamespaceNode) :
    nodeCount node = 1 + forestCount (node.children.map Prod.snd) := by
  cases node
  rw [nodeCount, childCount_eq]
  rfl

theorem forestCount_cons (node : NamespaceNode) (rest : List NamespaceNode) :
    forestCount (node :: rest) = 1 + forestCount (rest ++ node.children.map Prod.snd) := by
  simp only [forestCount, List.map_cons, List.sum_cons, List.map_append, List.sum_append]
  rw [nodeCount_eq, forestCount]
  omega

/-- How many children some nodes have. -/
def childTotal (nodes : List NamespaceNode) : Nat :=
  (nodes.map fun node => node.children.length).sum

/-- Every node is a child of another or was in the queue at the start. -/
theorem levelOrder_counts {bound : Nat} {queue : List NamespaceNode}
    (enough : forestCount queue ≤ bound) :
    (levelOrder bound queue).length = forestCount queue ∧
      queue.length + childTotal (levelOrder bound queue) = forestCount queue := by
  induction bound generalizing queue with
  | zero =>
      cases queue with
      | nil => exact ⟨rfl, rfl⟩
      | cons node rest =>
          rw [forestCount_cons] at enough
          omega
  | succ bound ih =>
      cases queue with
      | nil => exact ⟨rfl, rfl⟩
      | cons node rest =>
          rw [forestCount_cons] at enough ⊢
          have counts := @ih (rest ++ node.children.map Prod.snd) (by omega)
          simp only [List.length_append, List.length_map] at counts
          simp only [levelOrder, childTotal, List.length_cons, List.map_cons, List.sum_cons]
          unfold childTotal at counts
          omega

/-- The queue still fits when a node has made way for its children. -/
theorem queue_fits {first : NamespaceNode} {rest : List NamespaceNode}
    (fits : ∀ node ∈ first :: rest, node.Fits) :
    ∀ node ∈ rest ++ first.children.map Prod.snd, node.Fits := by
  intro node member
  rcases List.mem_append.mp member with waiting | below
  · exact fits node (List.mem_cons_of_mem _ waiting)
  · rcases List.mem_map.mp below with ⟨child, isChild, rfl⟩
    exact ((fits first List.mem_cons_self).children.2 child isChild).2

theorem levelOrder_fits {bound : Nat} {queue : List NamespaceNode}
    (fits : ∀ node ∈ queue, node.Fits) : ∀ node ∈ levelOrder bound queue, node.Fits := by
  induction bound generalizing queue with
  | zero => simp [levelOrder]
  | succ bound ih =>
      cases queue with
      | nil => simp [levelOrder]
      | cons first rest =>
          intro node member
          rcases List.mem_cons.mp member with rfl | behind
          · exact fits node List.mem_cons_self
          · exact ih (queue_fits fits) node behind

/-! ## The listed nodes -/

/-- The nodes as an image lists them; `place` is that of the next child. -/
def listed : Nat → List NamespaceNode → List ListedNode
  | _, [] => []
  | place, node :: rest =>
      ⟨node.functions, node.children.names.zipIdx place⟩ ::
        listed (place + node.children.length) rest

theorem reads_entry {function : String × FunctionEntry} (fits : FunctionEntry.Fits function) :
    ReadsAs readEntry (encodeEntry function) function := by
  unfold encodeEntry
  rw [List.append_assoc]
  exact (reads_text fits.1).bind ((reads_varint fits.2.1).bind ((reads_word32 fits.2.2).map _))

theorem reads_children {names : List String} {place : Nat} (fits : ∀ name ∈ names, Text.Fits name)
    (places : place + names.length ≤ twoTo 64) :
    ReadsAs (Read.many readChild names.length) (encodeChildren place names) (names.zipIdx place) := by
  induction names generalizing place with
  | nil => exact .pure []
  | cons name rest ih =>
      rw [List.length_cons] at places
      have child : ReadsAs readChild (Bytes.text name ++ Bytes.varint place) (name, place) :=
        (reads_text (fits name List.mem_cons_self)).bind ((reads_varint (by omega)).map _)
      have others := @ih (place + 1) (fun other member => fits other (List.mem_cons_of_mem _ member))
        (by omega)
      exact child.bind (others.map _)

theorem reads_node {node : NamespaceNode} {place : Nat} (fits : node.Fits)
    (places : place + node.children.length < twoTo 64) :
    ReadsAs readNode
      (Bytes.varint node.functions.length ++ node.functions.flatMap encodeEntry ++
        Bytes.varint node.children.length ++ encodeChildren place node.children.names)
      ⟨node.functions, node.children.names.zipIdx place⟩ := by
  rcases fits.functions with ⟨_, count, fitsFunctions⟩
  have names : ∀ name ∈ node.children.names, Text.Fits name := by
    intro name member
    rcases List.mem_map.mp member with ⟨child, isChild, rfl⟩
    exact (fits.children.2 child isChild).1
  have functions := reads_counted count fun function member =>
    reads_entry (fitsFunctions function member)
  have length : node.children.names.length = node.children.length := List.length_map ..
  have children : ReadsAs (Read.counted readChild)
      (Bytes.varint node.children.length ++ encodeChildren place node.children.names)
      (node.children.names.zipIdx place) := by
    rw [← length]
    exact (reads_varint (by omega)).bind (reads_children names (by omega))
  rw [List.append_assoc (_ ++ _)]
  exact functions.bind (children.map _)

theorem reads_nodes {nodes : List NamespaceNode} {place : Nat} (fits : ∀ node ∈ nodes, node.Fits)
    (places : place + childTotal nodes < twoTo 64) :
    ReadsAs (Read.many readNode nodes.length) (encodeNodes place nodes) (listed place nodes) := by
  induction nodes generalizing place with
  | nil => exact .pure []
  | cons node rest ih =>
      simp only [childTotal, List.map_cons, List.sum_cons] at places
      have one := @reads_node node place (fits node List.mem_cons_self) (by omega)
      have others := @ih (place + node.children.length)
        (fun other member => fits other (List.mem_cons_of_mem _ member))
        (by unfold childTotal; omega)
      exact one.bind (others.map _)

/-! ## The tree from its nodes -/

/-- A node takes its children out of the nodes behind it and leaves the others. -/
theorem claimChildren_ok (place : Nat) (children : Dictionary NamespaceNode)
    (done : Dictionary NamespaceNode) (front tail : List (Option NamespaceNode))
    (ordered : (done ++ children).Ordered) :
    claimChildren place (children.names.zipIdx (place + 1 + front.length)) done
        (front ++ (children.map fun child => some child.2) ++ tail) =
      .ok (done ++ children, front ++ List.replicate children.length none ++ tail) := by
  induction children generalizing done front with
  | nil => simp [Dictionary.names, claimChildren]
  | cons entry rest ih =>
      rcases entry with ⟨name, child⟩
      have again := ih (done ++ [(name, child)]) (front ++ [none]) (by simpa using ordered)
      have behind : place < place + 1 + front.length := by omega
      have index : place + 1 + front.length - place - 1 = front.length := by omega
      have next : place + 1 + (front ++ [none]).length = place + 1 + front.length + 1 := by
        rw [List.length_append, List.length_singleton]
        omega
      rw [next] at again
      simp only [List.append_assoc, List.singleton_append] at again
      simp only [Dictionary.names, List.map_cons, List.zipIdx_cons, claimChildren, behind, if_true,
        index, List.append_assoc, List.cons_append, List.length_cons, List.replicate_succ,
        List.getElem?_append_right (Nat.le_refl _), Nat.sub_self, List.getElem?_cons_zero,
        List.set_append_right _ _ (Nat.le_refl _), List.set_cons_zero,
        Dictionary.insert_last ordered.front]
      exact again

/-- Behind any place stand the trees of the writer's queue, and then nodes that are taken. -/
theorem buildNodes_listed {bound place : Nat} {queue : List NamespaceNode}
    (enough : forestCount queue ≤ bound) (fits : ∀ node ∈ queue, node.Fits) :
    ∃ taken, buildNodes place (listed (place + queue.length) (levelOrder bound queue)) =
      .ok (queue.map some ++ List.replicate taken none) := by
  induction bound generalizing place queue with
  | zero =>
      cases queue with
      | nil => exact ⟨0, rfl⟩
      | cons node rest =>
          rw [forestCount_cons] at enough
          omega
  | succ bound ih =>
      cases queue with
      | nil => exact ⟨0, rfl⟩
      | cons node rest =>
          rw [forestCount_cons] at enough
          have fitsNode := fits node List.mem_cons_self
          rcases @ih (place + 1) (rest ++ node.children.map Prod.snd) (by omega)
            (queue_fits fits) with ⟨taken, built⟩
          have claimed := claimChildren_ok place node.children [] (rest.map some)
            (List.replicate taken none) fitsNode.children.1
          have first : place + (node :: rest).length = place + 1 + (rest.map some).length := by
            simp only [List.length_cons, List.length_map]
            omega
          have behind : place + 1 + (rest.map some).length + node.children.length =
              place + 1 + (rest ++ node.children.map Prod.snd).length := by
            simp only [List.length_append, List.length_map]
            omega
          refine ⟨node.children.length + taken, ?_⟩
          rw [levelOrder, listed, buildNodes, first, behind, built]
          have waiting : (rest ++ node.children.map Prod.snd).map some =
              rest.map some ++ node.children.map fun child => some child.2 := by
            simp
          change (do
            let __x ← claimChildren place _ [] (_ ++ List.replicate taken none)
            pure (some (NamespaceNode.mk (Dictionary.ofPairs node.functions) __x.1) :: __x.2)) = _
          rw [waiting, claimed, Dictionary.ofPairs_ordered fitsNode.functions.1]
          simp only [List.nil_append, List.append_assoc, List.replicate_append_replicate]
          cases node
          rfl

theorem firstOrphan?_replicate (place taken : Nat) :
    firstOrphan? place (List.replicate taken none) = none := by
  induction taken generalizing place with
  | zero => rfl
  | succ taken ih => exact ih (place + 1)

theorem buildNamespaces_listed {root : NamespaceNode} (fits : root.Fits) :
    buildNamespaces (listed 1 (levelOrder (nodeCount root) [root])) = .ok root := by
  have count : forestCount [root] = nodeCount root := by simp [forestCount]
  rcases @buildNodes_listed (nodeCount root) 0 [root] (by omega) (by simpa using fits) with
    ⟨taken, built⟩
  simp only [List.length_singleton, Nat.zero_add] at built
  simp only [buildNamespaces, built, bind, Except.bind, List.map_cons, List.map_nil,
    List.cons_append, List.nil_append, firstOrphan?_replicate]
  rfl

/-- A tree is read as what was written. -/
theorem reads_namespaces {root : NamespaceNode} (fits : root.Fits)
    (count : nodeCount root < twoTo 64) :
    ReadsAs readNamespaces (encodeNamespaces root) root := by
  have single : forestCount [root] = nodeCount root := by simp [forestCount]
  rcases @levelOrder_counts (nodeCount root) [root] (by omega) with ⟨length, places⟩
  rw [List.length_singleton] at places
  have nodes := @reads_nodes (levelOrder (nodeCount root) [root]) 1
    (levelOrder_fits (by simpa using fits)) (by omega)
  have counted : ReadsAs (Read.counted readNode) (encodeNamespaces root)
      (listed 1 (levelOrder (nodeCount root) [root])) :=
    (reads_varint (by omega)).bind nodes
  intro rest offset
  unfold readNamespaces
  rw [Read.run_bind, counted rest offset]
  dsimp only
  rw [buildNamespaces_listed fits]
  rfl

end Image

end ScriptMachine
