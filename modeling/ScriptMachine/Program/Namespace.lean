import ScriptMachine.Dictionary

/-!
# Namespaces

The functions of a program form a tree: a node holds functions and further nodes, both by name. The
tree is listed from the root, a node's own functions before those of its children, so that the list
is in order of paths and names. The walk keeps the nodes that it has yet to visit on a stack.
-/

namespace ScriptMachine

/-- Where the code of a function starts, and how many arguments it takes. -/
structure FunctionEntry where
  offset : Nat
  arity : Nat
deriving DecidableEq, Inhabited

/-- The functions and the nested namespaces of a namespace. -/
inductive NamespaceNode where
  | mk (functions : List (String × FunctionEntry)) (children : List (String × NamespaceNode))
deriving Inhabited

/-- A function with its place in the tree. -/
structure FunctionListing where
  path : List String
  name : String
  entry : FunctionEntry
deriving DecidableEq

namespace NamespaceNode

def empty : NamespaceNode := .mk [] []

def functions : NamespaceNode → Dictionary FunctionEntry
  | .mk functions _ => functions

def children : NamespaceNode → Dictionary NamespaceNode
  | .mk _ children => children

def isEmpty (node : NamespaceNode) : Bool := node.functions.isEmpty && node.children.isEmpty

/-- The node at the end of a path. -/
def descend? : NamespaceNode → List String → Option NamespaceNode
  | node, [] => some node
  | node, segment :: path => (node.children.find? segment).bind fun child => child.descend? path

/-- The entry of a function. -/
def lookup? (node : NamespaceNode) (path : List String) (name : String) : Option FunctionEntry :=
  (node.descend? path).bind fun target => target.functions.find? name

/-- Enters a function, with the nodes on its path that are not there yet. -/
def insert (node : NamespaceNode) (path : List String) (name : String) (entry : FunctionEntry) :
    NamespaceNode :=
  match path with
  | [] => .mk (node.functions.insert name entry) node.children
  | segment :: path =>
      let child := (node.children.find? segment).getD .empty
      .mk node.functions (node.children.insert segment (child.insert path name entry))

/-- Enters a function and gives the entry that it replaces, if there is one of its name. -/
def exchange (node : NamespaceNode) (path : List String) (name : String) (entry : FunctionEntry) :
    Option FunctionEntry × NamespaceNode :=
  match path with
  | [] => (node.functions.find? name, .mk (node.functions.insert name entry) node.children)
  | segment :: path =>
      let child := (node.children.find? segment).getD .empty
      let (replaced, child) := child.exchange path name entry
      (replaced, .mk node.functions (node.children.insert segment child))

mutual

/-- How many nodes the walk visits in a tree. -/
def visits : NamespaceNode → Nat
  | .mk _ children => childVisits children + 1

def childVisits : List (String × NamespaceNode) → Nat
  | [] => 0
  | (_, child) :: rest => child.visits + childVisits rest

end

/-- How many nodes the walk visits from the pending ones on. -/
def pendingVisits : List (List String × NamespaceNode) → Nat
  | [] => 0
  | (_, node) :: rest => node.visits + pendingVisits rest

/-- The functions of the node at a path with their places. -/
def functionsAt (path : List String) (functions : List (String × FunctionEntry)) :
    List FunctionListing :=
  functions.map fun entry => ⟨path, entry.1, entry.2⟩

/-- The children of the node at a path with their places, the first one on top. -/
def childrenAt (path : List String) (children : List (String × NamespaceNode)) :
    List (List String × NamespaceNode) :=
  children.map fun child => (path ++ [child.1], child.2)

theorem pendingVisits_childrenAt (path : List String) (children : List (String × NamespaceNode))
    (pending : List (List String × NamespaceNode)) :
    pendingVisits (childrenAt path children ++ pending) =
      childVisits children + pendingVisits pending := by
  induction children with
  | nil => simp [childrenAt, childVisits]
  | cons child rest ih =>
      simp only [childrenAt, List.map_cons, List.cons_append, pendingVisits, childVisits] at ih ⊢
      rw [ih, Nat.add_assoc]

/-- Lists the functions of the pending nodes, from the top, and of all nodes below them, behind those
listed so far. -/
def walk (listed : List FunctionListing) :
    List (List String × NamespaceNode) → List FunctionListing
  | [] => listed
  | (path, .mk functions children) :: pending =>
      walk (listed ++ functionsAt path functions) (childrenAt path children ++ pending)
termination_by pending => pendingVisits pending
decreasing_by
  rw [pendingVisits_childrenAt, pendingVisits, visits]
  omega

/-- Every function with its place, in order of paths and names. -/
def list (node : NamespaceNode) : List FunctionListing := walk [] [([], node)]

/-- The later of two functions that start at or before a place, the second one if they start
together. -/
def laterStart (offset : Nat) (best : Option FunctionListing) (next : FunctionListing) :
    Option FunctionListing :=
  if next.entry.offset ≤ offset then
    match best with
    | none => some next
    | some previous =>
        if previous.entry.offset ≤ next.entry.offset then some next else some previous
  else best

/-- The function whose code holds an offset: the last one to start at or before it. -/
def functionAt? (node : NamespaceNode) (offset : Nat) : Option FunctionListing :=
  node.list.foldl (laterStart offset) none

end NamespaceNode

end ScriptMachine
