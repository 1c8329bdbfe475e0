import ScriptMachine.Proofs.Compiler.Directories

/-!
# Laws of the namespaces

Functions are entered one after the other into namespaces that are empty at first. Looking a name up
gives what was entered last under it, and so does entering it once more. The list of all functions
has exactly the names that are found, each once, in order of paths and names.

The nodes of the tree hold functions and children in the order of their names, and entering keeps
them so. A node's functions have its own path, and those further down have longer ones: this is what
puts the list in order.
-/

namespace ScriptMachine

/-- One function stands before another by their paths, and under one path by their names. Paths are
compared segment by segment, and a path stands before those that go on from it. -/
def FunctionListing.Precedes (first second : FunctionListing) : Prop :=
  List.Lex (· < ·) first.path second.path ∨ (first.path = second.path ∧ first.name < second.name)

/-- The path and the name of a function. -/
def FunctionListing.key (listing : FunctionListing) : List String × String :=
  (listing.path, listing.name)

/-! ## Order of paths -/

section Paths

variable {above first second : List String}

theorem lex_append_left (less : List.Lex (· < ·) first second) :
    List.Lex (· < ·) (above ++ first) (above ++ second) := by
  induction above with
  | nil => exact less
  | cons segment above ih => exact .cons ih

theorem lex_irrefl (path : List String) : ¬List.Lex (· < ·) path path := by
  intro less
  induction path with
  | nil => cases less
  | cons segment path ih =>
      cases less with
      | rel less => exact String.lt_irrefl _ less
      | cons less => exact ih less

end Paths

theorem FunctionListing.Precedes.key_ne {first second : FunctionListing}
    (precedes : first.Precedes second) : first.key ≠ second.key := by
  intro same
  have path : first.path = second.path := congrArg Prod.fst same
  have name : first.name = second.name := congrArg Prod.snd same
  rcases precedes with less | ⟨-, less⟩
  · exact lex_irrefl _ (path ▸ less)
  · exact String.lt_irrefl _ (name ▸ less)

namespace NamespaceNode

/-! ## What is listed -/

theorem listChildren_eq (path : List String) (children : List (String × NamespaceNode)) :
    listChildren path children =
      children.flatMap fun child => child.2.listFrom (path ++ [child.1]) := by
  induction children with
  | nil => rfl
  | cons child rest ih => rw [listChildren, ih, List.flatMap_cons]

/-- The functions listed below a path are those that are found from there. -/
theorem Sorted.mem_listFrom {node : NamespaceNode} (sorted : node.Sorted) {above : List String}
    {listing : FunctionListing} :
    listing ∈ node.listFrom above ↔ ∃ path, listing.path = above ++ path ∧
      node.lookup? path listing.name = some listing.entry := by
  induction sorted generalizing above with
  | @mk functions children named ordered below ih =>
      rw [listFrom, List.mem_append, listChildren_eq, functionsAt, List.mem_map, List.mem_flatMap]
      constructor
      · rintro (⟨⟨name, entry⟩, among, rfl⟩ | ⟨⟨segment, child⟩, among, listed⟩)
        · exact ⟨[], (List.append_nil _).symm, named.find?_eq_some_iff.mpr among⟩
        · rcases (ih _ among).mp listed with ⟨path, same, found⟩
          refine ⟨segment :: path, by simpa using same, ?_⟩
          rw [lookup?_cons, children_mk, ordered.find?_eq_some_iff.mpr among]
          exact found
      · rintro ⟨path, same, found⟩
        cases path with
        | nil =>
            left
            refine ⟨(listing.name, listing.entry), named.find?_eq_some_iff.mp found, ?_⟩
            rw [List.append_nil] at same
            rw [← same]
        | cons segment path =>
            right
            rw [lookup?_cons, children_mk, Option.bind_eq_some_iff] at found
            rcases found with ⟨child, among, found⟩
            have among := ordered.find?_eq_some_iff.mp among
            refine ⟨(segment, child), among, (ih _ among).mpr ⟨path, ?_, found⟩⟩
            simpa using same

theorem Sorted.mem_list {node : NamespaceNode} (sorted : node.Sorted) {listing : FunctionListing} :
    listing ∈ node.list ↔ node.lookup? listing.path listing.name = some listing.entry := by
  rw [list_eq_listFrom, sorted.mem_listFrom]
  simp

/-! ## The order of the list -/

/-- All that is listed below a path has it in front. -/
theorem Sorted.prefix_of_mem_listFrom {node : NamespaceNode} (sorted : node.Sorted)
    {above : List String} {listing : FunctionListing} (listed : listing ∈ node.listFrom above) :
    above <+: listing.path := by
  rcases sorted.mem_listFrom.mp listed with ⟨path, same, -⟩
  exact ⟨path, same.symm⟩

/-- What lies below a child stands behind the functions of the node. -/
theorem precedes_of_child {above : List String} {segment : String} {first second : FunctionListing}
    (here : first.path = above) (further : above ++ [segment] <+: second.path) :
    first.Precedes second := by
  rcases further with ⟨path, same⟩
  have longer : List.Lex (· < ·) (above ++ []) (above ++ segment :: path) := lex_append_left .nil
  left
  rw [here, ← same]
  simpa using longer

/-- What lies below an earlier child stands before what lies below a later one. -/
theorem precedes_of_children {above : List String} {earlier later : String}
    {first second : FunctionListing} (less : earlier < later)
    (one : above ++ [earlier] <+: first.path) (other : above ++ [later] <+: second.path) :
    first.Precedes second := by
  rcases one with ⟨path, same⟩
  rcases other with ⟨path', same'⟩
  left
  rw [← same, ← same', List.append_assoc, List.append_assoc]
  exact lex_append_left (.rel less)

theorem Sorted.pairwise_listFrom {node : NamespaceNode} (sorted : node.Sorted)
    (above : List String) : (node.listFrom above).Pairwise FunctionListing.Precedes := by
  induction sorted generalizing above with
  | @mk functions children named ordered below ih =>
      rw [listFrom, listChildren_eq, List.pairwise_append, functionsAt]
      refine ⟨?_, ?_, ?_⟩
      · unfold Dictionary.Ordered at named
        rw [Dictionary.names, List.pairwise_map] at named
        exact List.pairwise_map.mpr (named.imp fun less => .inr ⟨rfl, less⟩)
      · rw [List.pairwise_flatMap]
        refine ⟨fun child among => ih child among _, ?_⟩
        unfold Dictionary.Ordered at ordered
        rw [Dictionary.names, List.pairwise_map] at ordered
        refine ordered.imp_of_mem fun one other less first listed second listed' => ?_
        exact precedes_of_children less ((below _ one).prefix_of_mem_listFrom listed)
          ((below _ other).prefix_of_mem_listFrom listed')
      · intro first here second there
        rcases List.mem_map.mp here with ⟨entry, -, rfl⟩
        rcases List.mem_flatMap.mp there with ⟨child, among, listed⟩
        exact precedes_of_child rfl ((below child among).prefix_of_mem_listFrom listed)

/-! ## Entering one function after the other -/

theorem exchange_eq (node : NamespaceNode) (path : List String) (name : String)
    (entry : FunctionEntry) :
    node.exchange path name entry = (node.lookup? path name, node.insert path name entry) := by
  induction path generalizing node with
  | nil => rfl
  | cons segment path ih =>
      rw [exchange, ih, lookup?_cons, NamespaceNode.insert]
      cases node.children.find? segment with
      | none => simp [lookup?_empty]
      | some child => rfl

/-- Enters functions one after the other and gives, for each, what it replaced. -/
def exchangeAll (node : NamespaceNode) :
    List FunctionListing → List (Option FunctionEntry) × NamespaceNode
  | [] => ([], node)
  | first :: rest =>
      let (replaced, node) := node.exchange first.path first.name first.entry
      let (others, node) := node.exchangeAll rest
      (replaced :: others, node)

theorem exchangeAll_cons (node : NamespaceNode) (first : FunctionListing)
    (rest : List FunctionListing) :
    node.exchangeAll (first :: rest) =
      let entered := (node.insert first.path first.name first.entry).exchangeAll rest
      (node.lookup? first.path first.name :: entered.1, entered.2) := by
  rw [exchangeAll, exchange_eq]

theorem exchangeAll_append (node : NamespaceNode) (before after : List FunctionListing) :
    node.exchangeAll (before ++ after) =
      let entered := (node.exchangeAll before).2.exchangeAll after
      ((node.exchangeAll before).1 ++ entered.1, entered.2) := by
  induction before generalizing node with
  | nil => rfl
  | cons first before ih => simp only [List.cons_append, exchangeAll_cons, ih]

theorem length_exchangeAll (node : NamespaceNode) (entered : List FunctionListing) :
    (node.exchangeAll entered).1.length = entered.length := by
  induction entered generalizing node with
  | nil => rfl
  | cons first rest ih => simp only [exchangeAll_cons, List.length_cons, ih]

theorem Sorted.exchangeAll {node : NamespaceNode} (sorted : node.Sorted)
    (entered : List FunctionListing) : (node.exchangeAll entered).2.Sorted := by
  induction entered generalizing node with
  | nil => exact sorted
  | cons first rest ih =>
      rw [exchangeAll_cons]
      exact ih (sorted.insert _ _ _)

end NamespaceNode

/-- The entry of the last one of some functions under a path and a name. -/
def latest (entered : List FunctionListing) (path : List String) (name : String) :
    Option FunctionEntry :=
  (entered.reverse.find? fun listing => listing.key = (path, name)).map FunctionListing.entry

theorem latest_cons (first : FunctionListing) (rest : List FunctionListing) (path : List String)
    (name : String) :
    latest (first :: rest) path name =
      (latest rest path name).or (if first.key = (path, name) then some first.entry else none) := by
  unfold latest
  rw [List.reverse_cons, List.find?_append, Option.map_or]
  by_cases same : first.key = (path, name) <;> simp [same]

/-- Looking up gives what was entered last, and what was there before if nothing was. -/
theorem NamespaceNode.lookup?_exchangeAll (node : NamespaceNode) (entered : List FunctionListing)
    (path : List String) (name : String) :
    (node.exchangeAll entered).2.lookup? path name =
      (latest entered path name).or (node.lookup? path name) := by
  induction entered generalizing node with
  | nil => rfl
  | cons first rest ih =>
      rw [exchangeAll_cons, ih, lookup?_insert, latest_cons, Option.or_assoc]
      congr 1
      by_cases same : first.key = (path, name)
      · have there : path = first.path ∧ name = first.name := by
          simpa [FunctionListing.key, eq_comm] using same
        rw [if_pos same, if_pos there, Option.some_or]
      · have elsewhere : ¬(path = first.path ∧ name = first.name) := by
          simpa [FunctionListing.key, eq_comm] using same
        rw [if_neg same, if_neg elsewhere, Option.none_or]

/-- The laws of the namespaces that functions are entered into, which are empty at first: a name
leads to what was entered last under it; each entry gives what was there before; and the list has
each name that leads to something once, with what it leads to, in order of paths and names. -/
theorem entered_functions_found_and_listed (entered : List FunctionListing) :
    let (replaced, table) := NamespaceNode.empty.exchangeAll entered
    (∀ path name, table.lookup? path name = latest entered path name) ∧
    replaced.length = entered.length ∧
    (∀ before listing after, entered = before ++ listing :: after →
      replaced[before.length]? = some (latest before listing.path listing.name)) ∧
    (∀ listing : FunctionListing,
      listing ∈ table.list ↔ table.lookup? listing.path listing.name = some listing.entry) ∧
    (table.list.map FunctionListing.key).Nodup ∧
    table.list.Pairwise FunctionListing.Precedes := by
  have found (entered : List FunctionListing) (path : List String) (name : String) :
      (NamespaceNode.empty.exchangeAll entered).2.lookup? path name = latest entered path name := by
    rw [NamespaceNode.lookup?_exchangeAll, NamespaceNode.lookup?_empty, Option.or_none]
  have sorted := NamespaceNode.Sorted.empty.exchangeAll entered
  have ordered : (NamespaceNode.empty.exchangeAll entered).2.list.Pairwise
      FunctionListing.Precedes := by
    rw [NamespaceNode.list_eq_listFrom]
    exact sorted.pairwise_listFrom []
  refine ⟨found entered, NamespaceNode.length_exchangeAll _ entered, ?_, fun _ => sorted.mem_list,
    ?_, ordered⟩
  · rintro before listing after rfl
    have place := NamespaceNode.length_exchangeAll .empty before
    rw [NamespaceNode.exchangeAll_append, NamespaceNode.exchangeAll_cons]
    simp [← place, found]
  · rw [List.nodup_iff_pairwise_ne, List.pairwise_map]
    exact ordered.imp FunctionListing.Precedes.key_ne

end ScriptMachine
