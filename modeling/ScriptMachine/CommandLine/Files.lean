import ScriptMachine.Image.Bytes

/-!
# Files

The tools see files through a `FileAccess`: what reading a path gives, and whether a path can be
written. A `FileTree` is the access in which everything is known: the files of the directory that
the tools are started in. A path leads through directories from left to right, and each of them has
to be there. What lies outside that directory is not known, except that the directories above it are
there, and a few that every system has.
-/

namespace ScriptMachine

/-- Why a file cannot be read or written. -/
inductive FileFailure where
  | notFound
  | notDirectory
  | isDirectory
  | nameTooLong
  /-- The bytes of the file are no text. -/
  | notText
  /-- Any other failure, with its own words. -/
  | other (text : String)
deriving DecidableEq

def FileFailure.message : FileFailure → String
  | .notFound => "No such file or directory (os error 2)"
  | .notDirectory => "Not a directory (os error 20)"
  | .isDirectory => "Is a directory (os error 21)"
  | .nameTooLong => "File name too long (os error 36)"
  | .notText => "stream did not contain valid UTF-8"
  | .other text => text

/-- How tools get at files. -/
structure FileAccess where
  /-- The bytes of the file at a path. -/
  read : String → Except FileFailure Bytes
  /-- Why nothing can be written to a path, if so. -/
  writeFailure? : String → Option FileFailure

/-- The text of a file. -/
def FileAccess.readText (files : FileAccess) (path : String) : Except FileFailure String := do
  let bytes ← files.read path
  match String.fromUTF8? (ByteArray.mk bytes.toArray) with
  | some text => .ok text
  | none => .error .notText

namespace Path

/-- The steps of a path, `.` and `..` among them. -/
def steps (path : String) : List String := (path.splitOn "/").filter fun step => step ≠ ""

/-- The steps that lead somewhere. -/
def names (path : String) : List String := (steps path).filter fun step => step ≠ "."

/-- Whether the path sets out from the top of all directories. -/
def isAbsolute (path : String) : Bool := path.startsWith "/"

/-- Whether the path says that it ends at a directory. -/
def endsAtDirectory (path : String) : Bool := path.endsWith "/"

/-- A file name split at its last point. A point in front belongs to the name. -/
def splitName (name : String) : String × Option String :=
  let characters := name.toList
  let ending := (characters.reverse.takeWhile (· ≠ '.')).reverse
  let stem := characters.take (characters.length - ending.length - 1)
  if ending.length = characters.length ∨ stem.isEmpty then (name, none)
  else (.ofList stem, some (.ofList ending))

/-- The last name of a path, if it names a file. -/
def fileName? (path : String) : Option String :=
  (names path).getLast?.filter fun name => name ≠ ".."

/-- What stands behind the last point of the file name. -/
def ending? (path : String) : Option String := (fileName? path).bind fun name => (splitName name).2

/-- The path of a file with another ending. A path from which only the way up is left when its
ending is gone gets none. -/
def withEnding (path ending : String) : String :=
  match ending? path with
  | none => path ++ "." ++ ending
  | some old =>
      let kept : String := .ofList (path.toList.take (path.length - old.length))
      if (fileName? kept).isNone then kept else kept ++ ending

end Path

/-- Where a path sets out. -/
inductive Origin where
  /-- The directory that the tools are started in. -/
  | workingDirectory
  /-- A directory above it. -/
  | above
  /-- The top of all directories. -/
  | root
deriving DecidableEq

/-- A place among the directories, by the names that lead to it. -/
structure Place where
  origin : Origin
  names : List String
deriving DecidableEq

namespace Place

/-- The directory that holds a place. The top of all directories holds itself. -/
def parent (place : Place) : Place :=
  match place with
  | ⟨.workingDirectory, []⟩ => ⟨.above, []⟩
  | ⟨origin, names⟩ => ⟨origin, names.dropLast⟩

/-- How many bytes a name may have. -/
def nameLimit : Nat := 255

/-- The place one step further. -/
def step (place : Place) (name : String) : Except FileFailure Place :=
  if name = "." then .ok place
  else if name = ".." then .ok place.parent
  else if nameLimit < name.utf8ByteSize then .error .nameTooLong
  else .ok { place with names := place.names ++ [name] }

/-- Where a path sets out. -/
def start (path : String) : Place :=
  if Path.isAbsolute path then ⟨.root, []⟩ else ⟨.workingDirectory, []⟩

end Place

/-- What is found at a place. -/
inductive FileEntry where
  | directory
  | file (bytes : Bytes)
  | nothing

/-- The files, by their paths from the directory that the tools are started in. -/
structure FileTree where
  files : List (String × Bytes)

namespace FileTree

/-- The directories that every system has. -/
def systemDirectories : List (List String) :=
  [["bin"], ["dev"], ["etc"], ["home"], ["lib"], ["mnt"], ["opt"], ["proc"], ["root"], ["run"],
   ["sbin"], ["srv"], ["sys"], ["tmp"], ["usr"], ["var"]]

/-- What is found below the directory that the tools are started in. -/
def entryBelow (tree : FileTree) (names : List String) : FileEntry :=
  match tree.files.find? fun file => Path.names file.1 == names with
  | some file => .file file.2
  | none =>
      if names.isEmpty || tree.files.any fun file => names.isPrefixOf (Path.names file.1) then
        .directory
      else .nothing

/-- What is found at a place. The file that swallows what is written to it always is empty. -/
def entry (tree : FileTree) (place : Place) : FileEntry :=
  match place with
  | ⟨.workingDirectory, names⟩ => tree.entryBelow names
  | ⟨_, []⟩ => .directory
  | ⟨.above, _⟩ => .nothing
  | ⟨.root, names⟩ =>
      if systemDirectories.contains names then .directory
      else if names = ["dev", "null"] then .file []
      else .nothing

/-- A place that has to be a directory. -/
def directoryAt (tree : FileTree) (place : Place) : Except FileFailure Place :=
  match tree.entry place with
  | .directory => .ok place
  | .file _ => .error .notDirectory
  | .nothing => .error .notFound

/-- The place that steps lead to. All places on the way have to be directories. -/
def walk (tree : FileTree) : Place → List String → Except FileFailure Place
  | place, [] => .ok place
  | place, name :: rest => do
      let directory ← tree.directoryAt place
      tree.walk (← directory.step name) rest

/-- How many bytes a path may have. -/
def pathLimit : Nat := 4095

/-- The place that a path leads to. -/
def place (tree : FileTree) (path : String) : Except FileFailure Place :=
  if path.isEmpty then .error .notFound
  else if pathLimit < path.utf8ByteSize then .error .nameTooLong
  else tree.walk (.start path) (Path.steps path)

/-- The bytes of a file. -/
def read (tree : FileTree) (path : String) : Except FileFailure Bytes := do
  let place ← tree.place path
  match tree.entry place with
  | .directory => .error .isDirectory
  | .file bytes => if Path.endsAtDirectory path then .error .notDirectory else .ok bytes
  | .nothing => .error .notFound

/-- Whether the last step of a path can only lead to a directory. -/
def leadsToDirectory (path : String) : Bool :=
  Path.endsAtDirectory path || [some ".", some "..", none].contains (Path.steps path).getLast?

/-- The place that a path names for writing. All but the last step have to lead to directories. -/
def target (tree : FileTree) (path : String) : Except FileFailure Place := do
  if path.isEmpty then .error .notFound
  else if pathLimit < path.utf8ByteSize then .error .nameTooLong
  else
    let holder ← tree.walk (.start path) (Path.steps path).dropLast
    let holder ← tree.directoryAt holder
    if leadsToDirectory path then .error .isDirectory
    else
      let place ← holder.step ((Path.steps path).getLastD ".")
      match tree.entry place with
      | .directory => .error .isDirectory
      | .file _ | .nothing => .ok place

/-- The tree as the tools see it. -/
def access (tree : FileTree) : FileAccess where
  read := tree.read
  writeFailure? path :=
    match tree.target path with
    | .ok _ => none
    | .error failure => some failure

/-- The files among those written that are new in the tree or change there. -/
def changes (tree : FileTree) (writes : List (String × Bytes)) : List (String × Bytes) :=
  writes.filterMap fun (path, bytes) =>
    match tree.target path with
    | .ok ⟨.workingDirectory, names⟩ =>
        match tree.entryBelow names with
        | .file old => if old = bytes then none else some ("/".intercalate names, bytes)
        | _ => some ("/".intercalate names, bytes)
    | _ => none

end FileTree

end ScriptMachine
