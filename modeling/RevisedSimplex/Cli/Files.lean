import RevisedSimplex.Source.Load
import RevisedSimplex.Cli.Host
/-!
Files as the command line sees them.

A `FileTree` holds files by their path components, with their bytes, and directories; a file
inside a directory implies the directory. A path is cut at `/` into parts and followed from the
top directory, or from the root of the host system for a path that starts with `/`: `.` stays
where it is, `..` goes up, and a name goes in; a trailing `/` is one more `.`. Every part is
taken from a directory, so a part after a file fails with `notDirectory` and one after a missing
name with `notFound`; a name longer than 255 bytes is `nameTooLong`. A path with a NUL
character is refused before it is followed, and so is one of 4096 bytes or more.

The tree lies in a directory of the host system, which `Cli.Host` describes, and going up
from its top leads there. What is written outside the tree is not kept.

Reading fails when the path is missing or names a directory. Creating truncates a file or makes
a new one in an existing directory, and fails on a path that names a directory or ends in `/`.
Read text must be UTF-8. The messages of the faults are those of the operating system.

The command line asks its files through `FileSystem`. A `FileTree` in a state monad is one
instance, and the program's entry point gives another over the real files.

Main definitions: `Place`, `FileTree`, `FileSystem`, `readText`, `loadFile`.
-/

namespace RevisedSimplex.Cli

def pathFault? (path : String) : Option IoFault :=
  if path.toList.contains '\x00' then some .nulInName
  else if 4096 ≤ path.utf8ByteSize then some .nameTooLong
  else none

def tooLong (name : String) : Bool := 255 < name.utf8ByteSize

def components (path : String) : List String :=
  (path.splitOn "/").filter fun c => c ≠ "" ∧ c ≠ "."

def parts (path : String) : List String :=
  (path.splitOn "/").filter (· ≠ "")

def steps (path : String) : List String :=
  parts path ++ (if path.endsWith "/" then ["."] else [])

/-- A place a path leads to. -/
inductive Place where
  /-- in the tree, by the names from its top -/
  | tree (names : List String)
  /-- in the host system, by the names from its root, links followed -/
  | host (names : List String)
  deriving DecidableEq, Repr

def Place.start (path : String) : Place :=
  if path.startsWith "/" then .host [] else .tree []

def Place.enter (p : Place) (step : String) : Place :=
  if step = "." then p
  else if step = ".." then
    match p with
    | .tree [] => .host treeParent
    | .tree names => .tree names.dropLast
    | .host names => .host names.dropLast
  else
    match p with
    | .tree names => .tree (names ++ [step])
    | .host names =>
      if names ++ [step] = hostWorkingDirectory then .tree [] else .host (hostLink (names ++ [step]))

/-- Files by their path components, and directories, with what the standard streams showed. -/
structure FileTree where
  files : List (List String × ByteArray)
  directories : List (List String)
  /-- the text written to standard output through its device -/
  shownOut : String
  /-- the text written to standard error through its device, or about a refused write -/
  shownErr : String

namespace FileTree

def empty : FileTree := ⟨[], [], "", ""⟩

def node (t : FileTree) (cs : List String) : Node :=
  if cs = [] then .directory
  else match t.files.find? (·.1 = cs) with
    | some (_, b) => .file b
    | none => if t.directories.contains cs then .directory else .missing

def nodeAt (t : FileTree) : Place → Node
  | .tree names => t.node names
  | .host names => hostNode names

def follow (t : FileTree) (p : Place) : List String → Except IoFault Place
  | [] => .ok p
  | step :: rest =>
    match t.nodeAt p with
    | .directory =>
      if step ≠ "." ∧ step ≠ ".." ∧ tooLong step then .error .nameTooLong
      else t.follow (p.enter step) rest
    | .missing => .error .notFound
    | _ => .error .notDirectory

def locate (t : FileTree) (path : String) : Except IoFault Place :=
  match pathFault? path with
  | some f => .error f
  | none => if path.isEmpty then .error .notFound else t.follow (.start path) (steps path)

def read (t : FileTree) (path : String) : Except IoFault ByteArray :=
  match t.locate path with
  | .error f => .error f
  | .ok p =>
    match t.nodeAt p with
    | .file b => .ok b
    | .device .detached => .error .noDevice
    | .device _ => .ok .empty
    | .directory => .error .isDirectory
    | .missing => .error .notFound

def present (t : FileTree) (path : String) : Bool :=
  match t.read path with
  | .ok _ => true
  | .error .isDirectory => true
  | .error _ => false

def put (t : FileTree) (cs : List String) (b : ByteArray) : FileTree :=
  if t.files.any (·.1 = cs) then
    { t with files := t.files.map fun (p, old) => if p = cs then (p, b) else (p, old) }
  else { t with files := t.files ++ [(cs, b)] }

def create (t : FileTree) (path : String) : Except IoFault FileTree :=
  match pathFault? path, (parts path).getLast? with
  | some f, _ => .error f
  | none, none => .error (if path.isEmpty then .notFound else .isDirectory)
  | none, some last =>
    if last = "." ∨ last = ".." then
      match t.follow (.start path) (parts path) with
      | .error f => .error f
      | .ok _ => .error .isDirectory
    else
      match t.follow (.start path) (parts path).dropLast with
      | .error f => .error f
      | .ok p =>
        match t.nodeAt p with
        | .missing => .error .notFound
        | .directory =>
          if path.endsWith "/" then .error .isDirectory
          else if tooLong last then .error .nameTooLong
          else
            match t.nodeAt (p.enter last), p.enter last, p with
            | .directory, _, _ => .error .isDirectory
            | .device .detached, _, _ => .error .noDevice
            | .device _, _, _ => .ok t
            | _, .tree names, _ => .ok (t.put names .empty)
            | .missing, _, .host dir => (hostMakes dir).map fun _ => t
            | _, _, _ => .ok t
        | _ => .error .notDirectory

def append (t : FileTree) (path : String) (text : String) : Except IoFault FileTree :=
  match t.locate path with
  | .ok p =>
    match t.nodeAt p, p with
    | .file b, .tree names => .ok (t.put names (b ++ text.toUTF8))
    | .device .output, _ => .ok { t with shownOut := t.shownOut ++ text }
    | .device .errors, _ => .ok { t with shownErr := t.shownErr ++ text }
    | .device .full, _ => .error .noSpace
    | .device .detached, _ => .error .noDevice
    | _, _ => .ok t
  | .error f => .error f

def add (t : FileTree) (name : String) (bytes : ByteArray) : FileTree :=
  let cs := components name
  let dirs := (List.range (cs.length + 1)).filterMap fun k =>
    if k = 0 then none
    else if k = cs.length ∧ ¬ name.endsWith "/" then none
    else some (cs.take k)
  let t := { t with directories := t.directories ++ dirs.filter (fun d => !t.directories.contains d) }
  if name.endsWith "/" then t else t.put cs bytes

def ofList (entries : List (String × ByteArray)) : FileTree :=
  entries.foldl (fun t (name, b) => t.add name b) empty

def changedSince (t before : FileTree) : List (String × ByteArray) :=
  (t.files.filter fun (cs, b) =>
    match before.files.find? (·.1 = cs) with
    | some (_, old) => old.data != b.data
    | none => true).map fun (cs, b) => ("/".intercalate cs, b)

end FileTree

/-- What the command line asks of the files and of standard error. -/
class FileSystem (m : Type → Type) where
  /-- whether a path names a file or directory -/
  present : String → m Bool
  /-- the bytes of a file -/
  readBytes : String → m (Except IoFault ByteArray)
  /-- creates an empty file, or empties an existing one -/
  create : String → m (Except IoFault Unit)
  /-- appends text to a file -/
  append : String → String → m (Except IoFault Unit)
  /-- shows text on standard error at once -/
  warn : String → m Unit

instance : FileSystem (StateM FileTree) where
  present path := do return (← get).present path
  readBytes path := do return (← get).read path
  create path := do
    match (← get).create path with
    | .ok t => set t; return .ok ()
    | .error e => return .error e
  append path text := do
    match (← get).append path text with
    | .ok t => set t; return .ok ()
    | .error e => return .error e
  warn text := modify fun t => { t with shownErr := t.shownErr ++ text }

variable {m : Type → Type} [Monad m] [FileSystem m]

def readText (path : String) : m (Except IoFault String) := do
  match ← FileSystem.readBytes path with
  | .error e => return .error e
  | .ok b =>
    match String.fromUTF8? b with
    | some s => return .ok s
    | none => return .error .invalidText

/-- Reads and loads a problem file; a file that cannot be read is an `io` load error naming
the path. -/
def loadFile (path : String) : m (Except Source.LoadError (LinearProgram Float)) := do
  match ← readText path with
  | .error e => return .error (.io (path ++ ": " ++ e.message))
  | .ok s => return Source.loadText s

end RevisedSimplex.Cli
