import Footprint.Errno

/-!
# Files

The files and directories of a machine as far as a discovery service uses them: reading a file,
creating directories and opening a file to append to it. Paths are resolved name by name, and
refusals are those of the operating system in the order in which it finds them.
-/

namespace Footprint

/-- Why a file cannot be used. -/
inductive FileCause where
  | refused (errno : Errno)
  | notText
  -- The path holds a zero byte, so the operating system is not even asked.
  | zeroByte
deriving DecidableEq, Repr

namespace FileCause

def text : FileCause → String
  | refused errno => errno.fileText
  | notText => "stream did not contain valid UTF-8"
  | zeroByte => "file name contained an unexpected NUL byte"

end FileCause

/-- A file with its bytes, or a directory. -/
inductive FileNode where
  | file (bytes : ByteArray)
  | directory

/-- The files and directories that there are, by their names from the root on. -/
structure Files where
  nodes : List (List String × FileNode)

namespace Files

/-- The working directory, from which relative paths start. -/
def home : List String := ["tmp", "work"]

/-- A machine whose working directory is empty. -/
def empty : Files := ⟨[(["tmp"], .directory), (home, .directory)]⟩

instance : Inhabited Files := ⟨empty⟩

/-- The node of a list of names. The root has no names. -/
def find? (files : Files) (names : List String) : Option FileNode :=
  if names.isEmpty then some .directory
  else (files.nodes.find? fun entry => entry.1 == names).map (·.2)

/-- The files with another node at a list of names. -/
def put (files : Files) (names : List String) (node : FileNode) : Files :=
  ⟨(names, node) :: files.nodes.filter fun entry => entry.1 != names⟩

/-- The longest name of a file in bytes. -/
def longestName : Nat := 255

/-- The longest path in bytes. -/
def longestPath : Nat := 4095

/-- Where a name leads to from a directory, whether something is there or not. -/
def enter (files : Files) (directory : List String) (name : String) :
    Except Errno (List String) :=
  match files.find? directory with
  | none => .error .noEntry
  | some (.file _) => .error .notDirectory
  | some .directory =>
    if name = "." then .ok directory
    else if name = ".." then .ok directory.dropLast
    else if longestName < name.utf8ByteSize then .error .nameTooLong
    else .ok (directory ++ [name])

/-- Where names lead to from a directory. -/
def follow (files : Files) (directory : List String) (names : List String) :
    Except Errno (List String) :=
  names.foldlM files.enter directory

def namesOf (path : String) : List String :=
  (path.splitOn "/").filter (· != "")

/-- The directory that a path starts from. -/
def startOf (path : String) : List String :=
  if path.startsWith "/" then [] else home

/-- Refuses a path that is nothing to look for. -/
def checkPath (path : String) : Except FileCause Unit :=
  if path.contains '\x00' then .error .zeroByte
  else if path = "" then .error (.refused .noEntry)
  else if longestPath < path.utf8ByteSize then .error (.refused .nameTooLong)
  else .ok ()

def readNode (files : Files) (path : String) : Except Errno ByteArray := do
  let names ← files.follow (startOf path) (namesOf path)
  match files.find? names with
  | some .directory => throw .isDirectory
  | some (.file bytes) => if path.endsWith "/" then throw .notDirectory else return bytes
  | none => throw .noEntry

def read (files : Files) (path : String) : Except FileCause ByteArray := do
  checkPath path
  (files.readNode path).mapError .refused

/-- The directory of a path as a path: the last name that counts is left out, and so is every empty
name or name of the same directory that then stands at the end. The path itself may start with the
name of the same directory. -/
def directoryOf (path : String) : String :=
  let idle (entry : String × Nat) : Bool := entry.1 = "" || (entry.1 = "." && entry.2 != 0)
  let names := ((path.splitOn "/").zipIdx.reverse.dropWhile idle).drop 1
  "/".intercalate ((names.dropWhile idle).reverse.map (·.1))

/-- Creates a directory at names, the last of which must not be there yet. -/
def createDirectory (files : Files) (start names : List String) : Except Errno Files := do
  let parent ← files.follow start names.dropLast
  let place ← files.enter parent (names.getLastD ".")
  match files.find? place with
  | some _ => throw .alreadyExists
  | none => return files.put place .directory

def isDirectory (files : Files) (start names : List String) : Bool :=
  match (files.follow start names).toOption.bind files.find? with
  | some .directory => true
  | _ => false

/-- Creates the directory at reversed names. If its own directory is missing, that is created first.
A directory that is there already is no obstacle. -/
def createDirectories (files : Files) (start : List String) : List String → Except Errno Files
  | [] => .ok files
  | last :: before =>
    let names := (last :: before).reverse
    let tolerant (files : Files) (errno : Errno) : Except Errno Files :=
      if files.isDirectory start names then .ok files else .error errno
    match files.createDirectory start names with
    | .ok files => .ok files
    | .error errno =>
      if errno = .noEntry then do
        let files ← files.createDirectories start before
        match files.createDirectory start names with
        | .ok files => return files
        | .error errno => tolerant files errno
      else
        tolerant files errno

/-- Creates the directory of a path and those it lies in, as far as they are missing. -/
def createPath (files : Files) (path : String) : Except FileCause Files := do
  checkPath path
  (files.createDirectories (startOf path) ((namesOf path).filter (· != ".")).reverse).mapError
    .refused

/-- The files with a node at a path, whose directories are created if that is possible. -/
def add (files : Files) (path : String) (node : FileNode) : Files :=
  let names := namesOf path
  match files.createDirectories (startOf path) names.dropLast.reverse with
  | .ok files => files.put (startOf path ++ names) node
  | .error _ => files

/-- Opens the file at names to append to it, and creates it if it is missing. A path that ends like
that of a directory leads to none but a directory. -/
def openNode (files : Files) (path : String) : Except Errno Files := do
  let names := namesOf path
  let last := if path.endsWith "/" then "." else names.getLastD "."
  let directory ← files.follow (startOf path) names.dropLast
  let place ← files.enter directory last
  match files.find? place with
  | some .directory => throw .isDirectory
  | some (.file _) => return files
  | none => return files.put place (.file .empty)

/-- Opens the file of a path to append to it, and creates it if it is missing. -/
def openAppending (files : Files) (path : String) : Except FileCause Files := do
  checkPath path
  (files.openNode path).mapError .refused

end Files

end Footprint
