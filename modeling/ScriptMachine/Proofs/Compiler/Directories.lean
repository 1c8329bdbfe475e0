import ScriptMachine.Proofs.Compiler.Layout
import ScriptMachine.Proofs.Program.Walk
import ScriptMachine.Proofs.Value.PairLists

/-!
# The list of all functions

A name that is entered into the namespaces for the first time adds one function to their list, and
the others stay. So namespaces that a row of functions with different names is entered into list
just these functions, in order of paths and names and not in that of the row.

The function whose code holds an offset is found by the offsets alone: it is the last one in the row
that starts at or before that offset. If no other starts in between, the list gives this one, in
whatever order it is.
-/

namespace ScriptMachine

namespace Dictionary

variable {α : Type} {dictionary : Dictionary α} {name : String} {value old : α}

/-- A new name adds its entry. -/
theorem perm_insert_of_absent (absent : dictionary.find? name = none) :
    List.Perm (dictionary.insert name value) ((name, value) :: dictionary) := by
  induction dictionary with
  | nil => exact .refl _
  | cons entry rest ih =>
      rcases entry with ⟨key, other⟩
      rw [find?] at absent
      split at absent
      · cases absent
      · rename_i differ
        rw [insert, if_neg (Ne.symm differ)]
        split
        · exact .refl _
        · exact ((ih absent).cons _).trans (.swap _ _ _)

/-- A name that is there gets its new entry where the old one was. -/
theorem Ordered.insert_of_present (ordered : dictionary.Ordered)
    (present : dictionary.find? name = some old) :
    ∃ front back, dictionary = front ++ (name, old) :: back ∧
      ∀ value, dictionary.insert name value = front ++ (name, value) :: back := by
  induction dictionary with
  | nil => cases present
  | cons entry rest ih =>
      rcases entry with ⟨key, other⟩
      unfold Ordered at ordered ih
      rw [names, List.map_cons, List.pairwise_cons] at ordered
      rw [find?] at present
      split at present
      · rename_i same
        cases same
        cases present
        exact ⟨[], rest, rfl, fun value => if_pos rfl⟩
      · rename_i differ
        have less : key < name := ordered.1 name (List.mem_map_of_mem (mem_of_find? present))
        rcases ih ordered.2 present with ⟨front, back, same, inserted⟩
        refine ⟨(key, other) :: front, back, congrArg _ same, fun value => ?_⟩
        rw [Dictionary.insert, if_neg (Ne.symm differ), if_neg (String.lt_asymm less), inserted]
        rfl

end Dictionary

namespace NamespaceNode

/-- A tree whose nodes all have their functions and their children in order. -/
inductive Sorted : NamespaceNode → Prop
  | mk {functions : Dictionary FunctionEntry} {children : Dictionary NamespaceNode}
      (named : functions.Ordered) (ordered : children.Ordered)
      (below : ∀ child ∈ children, Sorted child.2) : Sorted (.mk functions children)

theorem Sorted.empty : Sorted .empty := .mk .nil .nil nofun

theorem Sorted.named {node : NamespaceNode} (sorted : node.Sorted) : node.functions.Ordered := by
  cases sorted
  assumption

theorem Sorted.ordered {node : NamespaceNode} (sorted : node.Sorted) : node.children.Ordered := by
  cases sorted
  assumption

theorem Sorted.child {node : NamespaceNode} (sorted : node.Sorted) :
    ∀ child ∈ node.children, child.2.Sorted := by
  cases sorted
  assumption

/-- The node that insertion goes on with. -/
theorem Sorted.next {node : NamespaceNode} (sorted : node.Sorted) (segment : String) :
    ((node.children.find? segment).getD .empty).Sorted := by
  cases found : node.children.find? segment with
  | none => exact .empty
  | some child => exact sorted.child _ (Dictionary.mem_of_find? found)

theorem Sorted.insert {node : NamespaceNode} (sorted : node.Sorted) (path : List String)
    (name : String) (entry : FunctionEntry) : (node.insert path name entry).Sorted := by
  induction path generalizing node with
  | nil => exact .mk sorted.named.insert sorted.ordered sorted.child
  | cons segment path ih =>
      refine .mk sorted.named sorted.ordered.insert fun child member => ?_
      rcases Dictionary.mem_insert member with rfl | old
      · exact ih (sorted.next segment)
      · exact sorted.child child old

/-! ## Listing -/

theorem listChildren_append (path : List String) (first second : List (String × NamespaceNode)) :
    listChildren path (first ++ second) = listChildren path first ++ listChildren path second := by
  induction first with
  | nil => rfl
  | cons child rest ih =>
      rw [List.cons_append, listChildren, listChildren, ih, List.append_assoc]

theorem perm_listChildren {path : List String} {first second : List (String × NamespaceNode)}
    (same : first.Perm second) : (listChildren path first).Perm (listChildren path second) := by
  induction same with
  | nil => exact .nil
  | cons child _ ih =>
      rw [listChildren, listChildren]
      exact ih.append_left _
  | swap one other rest =>
      simp only [listChildren]
      rw [← List.append_assoc, ← List.append_assoc]
      exact List.perm_append_comm.append_right _
  | trans _ _ one two => exact one.trans two

theorem listFrom_eq (path : List String) (node : NamespaceNode) :
    node.listFrom path =
      node.functions.map (fun entry => ⟨path, entry.1, entry.2⟩) ++
        listChildren path node.children := by
  cases node
  rw [listFrom]
  rfl

theorem listFrom_empty (path : List String) : empty.listFrom path = [] := by
  rw [listFrom_eq]
  rfl

theorem list_empty : empty.list = [] := by
  rw [list_eq_listFrom, listFrom_empty]

/-- A function that is entered under a new name is listed besides the others. -/
theorem Sorted.perm_listFrom_insert {node : NamespaceNode} (sorted : node.Sorted)
    {path : List String} {name : String} {entry : FunctionEntry}
    (absent : node.lookup? path name = none) (above : List String) :
    ((node.insert path name entry).listFrom above).Perm
      (⟨above ++ path, name, entry⟩ :: node.listFrom above) := by
  induction path generalizing node above with
  | nil =>
      rw [lookup?_nil] at absent
      rw [List.append_nil, NamespaceNode.insert, listFrom_eq, listFrom_eq]
      exact ((Dictionary.perm_insert_of_absent absent).map _).append_right _
  | cons segment path ih =>
      rw [lookup?_cons] at absent
      rw [NamespaceNode.insert, listFrom_eq, listFrom_eq]
      have below := fun missing => @ih _ (sorted.next segment) missing (above ++ [segment])
      rw [List.append_assoc, List.singleton_append] at below
      refine .trans (.append_left _ ?_) List.perm_middle
      cases found : node.children.find? segment with
      | none =>
          rw [found, Option.getD_none] at below
          refine (perm_listChildren (Dictionary.perm_insert_of_absent found)).trans ?_
          rw [listChildren]
          refine ((below (lookup?_empty path name)).append_right _).trans ?_
          rw [listFrom_empty]
          exact .refl _
      | some child =>
          rw [found, Option.bind_some] at absent
          rw [found, Option.getD_some] at below
          rcases sorted.ordered.insert_of_present found with ⟨front, back, same, inserted⟩
          simp only [children_mk, Option.getD_some]
          rw [inserted, same, listChildren_append, listChildren_append, listChildren, listChildren]
          refine .trans (.append_left _ ((below absent).append_right _)) ?_
          exact List.perm_middle

/-! ## Owners of offsets -/

variable {listing : FunctionListing} {listings : List FunctionListing} {offset : Nat}

/-- The scan keeps or takes a function that starts behind all others that start early enough. -/
theorem foldl_laterStart {best : Option FunctionListing} (starts : listing.entry.offset ≤ offset)
    (last : ∀ other ∈ listings, other.entry.offset ≤ offset →
      other = listing ∨ other.entry.offset < listing.entry.offset)
    (leads : best = some listing ∨ listing ∈ listings ∧
      ∀ previous, best = some previous → previous.entry.offset < listing.entry.offset) :
    listings.foldl (laterStart offset) best = some listing := by
  induction listings generalizing best with
  | nil =>
      rcases leads with rfl | ⟨none, _⟩
      · rfl
      · cases none
  | cons next rest ih =>
      rw [List.forall_mem_cons] at last
      rw [List.foldl_cons]
      refine ih last.2 ?_
      unfold laterStart
      split
      · rename_i early
        rcases last.1 early with rfl | below
        -- The function itself takes the lead from any other, and from itself.
        · left
          split
          · rfl
          · rename_i previous
            refine if_pos ?_
            rcases leads with same | ⟨_, behind⟩
            · cases same
              exact Nat.le_refl _
            · exact Nat.le_of_lt (behind previous rfl)
        · rcases leads with rfl | ⟨member, behind⟩
          · exact .inl (if_neg (Nat.not_le.mpr below))
          · have different : listing ≠ next := by
              rintro rfl
              exact Nat.lt_irrefl _ below
            refine .inr ⟨(List.mem_cons.mp member).resolve_left different, ?_⟩
            intro previous lead
            split at lead
            · cases lead
              exact below
            · split at lead
              · cases lead
                exact below
              · cases lead
                exact behind previous rfl
      · rename_i late
        refine leads.imp_right fun ⟨member, behind⟩ => ⟨?_, behind⟩
        refine (List.mem_cons.mp member).resolve_left ?_
        rintro rfl
        exact late starts

/-- An offset belongs to the function that is the last to start at or before it. -/
theorem functionAt?_eq_some {node : NamespaceNode} (member : listing ∈ node.list)
    (starts : listing.entry.offset ≤ offset)
    (last : ∀ other ∈ node.list, other.entry.offset ≤ offset →
      other = listing ∨ other.entry.offset < listing.entry.offset) :
    node.functionAt? offset = some listing :=
  foldl_laterStart starts last (.inr ⟨member, nofun⟩)

end NamespaceNode

end ScriptMachine
