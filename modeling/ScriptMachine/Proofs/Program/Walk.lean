import ScriptMachine.Program.Namespace

/-!
# The walk through the namespaces

The walk that lists the functions takes the top node off a stack, lists what the node holds, and puts
its children on top in their order. So all of a subtree is listed before anything else that was
pending, and the list is the one that is read off the tree by recursion.
-/

namespace ScriptMachine

namespace NamespaceNode

mutual

/-- Every function of the tree below a path. -/
def listFrom (path : List String) : NamespaceNode → List FunctionListing
  | .mk functions children =>
      functionsAt path functions ++ listChildren path children

/-- Every function of the trees of some children. -/
def listChildren (path : List String) : List (String × NamespaceNode) → List FunctionListing
  | [] => []
  | (segment, child) :: rest => child.listFrom (path ++ [segment]) ++ listChildren path rest

end

/-- Pending children come to all functions below their node. -/
theorem flatMap_childrenAt (path : List String) (children : List (String × NamespaceNode)) :
    (childrenAt path children).flatMap (fun entry => entry.2.listFrom entry.1) =
      listChildren path children := by
  induction children with
  | nil => rfl
  | cons child rest ih =>
      simp only [childrenAt, List.map_cons, List.flatMap_cons, listChildren] at ih ⊢
      rw [ih]

/-- The walk lists the pending trees one after the other, from the top of the stack. -/
theorem walk_eq (listed : List FunctionListing) (pending : List (List String × NamespaceNode)) :
    walk listed pending = listed ++ pending.flatMap fun entry => entry.2.listFrom entry.1 := by
  induction listed, pending using walk.induct with
  | case1 listed => simp [walk]
  | case2 listed path functions children pending ih =>
      rw [walk, ih, List.flatMap_append, flatMap_childrenAt, List.flatMap_cons, listFrom]
      simp only [List.append_assoc]

theorem list_eq_listFrom (node : NamespaceNode) : node.list = node.listFrom [] := by
  rw [list, walk_eq]
  simp

end NamespaceNode

end ScriptMachine
