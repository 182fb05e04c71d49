import Containment.Access.FileGuard
import Containment.Settings.Section

/-!
# Paths

A file system as its entries, given by the names on the way to each, and what looking a path up in
it answers. A relative path starts in a working directory in which there is nothing.
-/

namespace Containment

inductive PathError where
  | notFound
  | notDirectory
  | nameTooLong
  | interiorNul
  | addressInUse
  | socketInteriorNul
  | socketTooLong
  | socketNameTooLong
  deriving DecidableEq

def PathError.message : PathError → String
  | .notFound => "No such file or directory (os error 2)"
  | .notDirectory => "Not a directory (os error 20)"
  | .nameTooLong => "File name too long (os error 36)"
  | .interiorNul => "file name contained an unexpected NUL byte"
  | .addressInUse => "Address already in use (os error 98)"
  | .socketInteriorNul => "paths must not contain interior null bytes"
  | .socketTooLong => "path must be shorter than SUN_LEN"
  | .socketNameTooLong => "abstract socket name must be shorter than SUN_LEN"

inductive NodeKind where
  | directory
  /-- A directory in which nothing can be made. -/
  | closedDirectory
  | socket
  /-- A file or device, with the text that reading it gives. -/
  | readable (content : String)
  /-- A file or device of which no text is read. -/
  | binary
  deriving DecidableEq

structure Node where
  kind : NodeKind
  id : FileId
  deriving DecidableEq

def Node.isDirectory (node : Node) : Bool :=
  node.kind = .directory || node.kind = .closedDirectory

/-- The entries below the root directory. -/
structure Filesystem where
  root : FileId
  entries : List (List String × Node)

namespace Filesystem

def maxPathLength : Nat := 4095

def maxNameLength : Nat := 255

def node? (fs : Filesystem) (names : List String) : Option Node :=
  if names.isEmpty then some ⟨.directory, fs.root⟩ else fs.entries.lookup names

def walk (fs : Filesystem) (here : List String) (node : Node) :
    List String → Except PathError (List String × Node)
  | [] => .ok (here, node)
  | name :: names =>
    if !node.isDirectory then .error .notDirectory
    else if name = "" || name = "." then walk fs here node names
    else if name = ".." then
      let above := here.dropLast
      walk fs above ((fs.node? above).getD node) names
    else if maxNameLength < name.utf8ByteSize then .error .nameTooLong
    else
      match fs.node? (here ++ [name]) with
      | none => .error .notFound
      | some node => walk fs (here ++ [name]) node names

def workingDirectory : List String := ["work"]

def names (path : String) : List String :=
  (Section.splitAt '/' path.toList).map String.ofList

def lookup (fs : Filesystem) (path : String) : Except PathError Node :=
  if path.contains '\x00' then .error .interiorNul
  else if path.isEmpty then .error .notFound
  else if maxPathLength < path.utf8ByteSize then .error .nameTooLong
  else
    let start := if path.startsWith "/" then [] else workingDirectory
    let node := (fs.node? start).getD ⟨.directory, fs.root⟩
    (fs.walk start node (names path)).map Prod.snd

def isDirectory (fs : Filesystem) (path : String) : Bool :=
  match fs.lookup path with
  | .ok node => node.isDirectory
  | .error _ => false

/-- The file guard's view, in which a file is identified by the entry it is. -/
def view (fs : Filesystem) : PathView where
  identify path := (fs.lookup path).map Node.id |>.mapError PathError.message
  isDirectory := fs.isDirectory

def maxSocketLength : Nat := 107

/-- The most bytes of a name outside of the file system, with the zero in front. -/
def maxSocketNameLength : Nat := 108

def withoutEnd (path : String) : String :=
  String.ofList (path.toList.reverse.dropWhile (· = '/')).reverse

def parentOf (path : String) : String :=
  let parent := "/".intercalate ((names path).dropLast ++ [""])
  if parent.isEmpty then "." else parent

/-- Whether a new entry can be made at a path that leads nowhere. -/
def creatable (fs : Filesystem) (path : String) : Except PathError Unit := do
  let parent ← fs.lookup (parentOf path)
  if parent.kind = .closedDirectory then .error .notFound

def bindableEntry (fs : Filesystem) (path : String) : Except PathError Unit :=
  match fs.lookup path, fs.lookup (withoutEnd path) with
  | .ok _, _ | _, .ok _ => .error .addressInUse
  | _, .error .notFound => fs.creatable path
  | _, .error e => .error e

/-- Whether a new socket can be bound to a path. A path that begins with a zero character is a name
outside of the file system, and so is the one given for an empty path. -/
def bindable (fs : Filesystem) (path : String) : Except PathError Unit :=
  if path.startsWith "\x00" then
    if maxSocketNameLength < path.utf8ByteSize then .error .socketNameTooLong else .ok ()
  else if path.isEmpty then .ok ()
  else if path.contains '\x00' then .error .socketInteriorNul
  else if maxSocketLength < path.utf8ByteSize then .error .socketTooLong
  else fs.bindableEntry path

def step (here : List String) (name : String) : List String :=
  if name = "" || name = "." then here
  else if name = ".." then here.dropLast
  else here ++ [name]

/-- Adds an entry, with the directories on the way to it that are not there. -/
def add (fs : Filesystem) (path : String) (node : Node) : Filesystem :=
  let start := if path.startsWith "/" then [] else workingDirectory
  let names := (names path).foldl step start
  let above := (List.range names.length).map fun n => names.take n
  let missing := above.filter fun names => (fs.node? names).isNone
  { fs with
    entries := (names, node) ::
      (missing.map fun names => (names, ⟨.directory, .invalid⟩)) ++ fs.entries }

/-! ## The standard file system -/

def standardDirectories : List (List String) :=
  [["bin"], ["boot"], ["dev"], ["dev", "shm"], ["etc"], ["home"], ["lib"], ["media"], ["mnt"],
    ["opt"], ["root"], ["run"], ["sbin"], ["srv"], ["sys"], ["tmp"], ["usr"], ["usr", "bin"],
    ["usr", "lib"], ["usr", "local"], ["usr", "sbin"], ["usr", "share"], ["var"], ["var", "lib"],
    ["var", "log"], ["var", "run"], ["var", "tmp"], workingDirectory]

def standardTexts : List (List String) :=
  [["dev", "null"], ["etc", "group"], ["etc", "hosts"], ["etc", "passwd"]]

def standardBinaries : List (List String) :=
  [["bin", "sh"], ["dev", "full"], ["dev", "random"], ["dev", "urandom"], ["dev", "zero"],
    ["usr", "bin", "env"]]

/-- Entries of one kind, with file ids that follow one another. -/
def numbered (kind : NodeKind) (first : Nat) (entries : List (List String)) :
    List (List String × Node) :=
  entries.zipIdx.map fun (names, n) => (names, ⟨kind, ⟨UInt64.ofNat (first + n)⟩⟩)

/-- The directories and files that every host has. What the texts say does not matter here. -/
def standard : Filesystem where
  root := ⟨UInt64.ofNat 0xFFFFFFFF00000000⟩
  entries :=
    numbered .directory 0xFFFFFFFF00000001 standardDirectories ++
      numbered .closedDirectory 0xFFFFFFFF00010000 [["proc"], ["proc", "self"]] ++
      numbered (.readable "") 0xFFFFFFFF00020000 standardTexts ++
      numbered .binary 0xFFFFFFFF00030000 standardBinaries

end Filesystem

end Containment
