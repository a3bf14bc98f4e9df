import SchemaDart.Command.Path
import SchemaDart.Table

/-!
# File systems

What the command line does with files, in two layers: the class of monads with files, and a file system as a value,
which is a table from places to files and directories.  A place is the list of names on the way to it, from the root
or from the working directory, both of which are always there.
-/

namespace SchemaDart
namespace Command

/-- Why a file or directory could not be used. -/
inductive FileFault where
  | notFound
  | alreadyExists
  | notDirectory
  | isDirectory
  | notText
  | other (message : String)
deriving DecidableEq

def FileFault.message : FileFault → String
  | .notFound => "No such file or directory (os error 2)"
  | .alreadyExists => "File exists (os error 17)"
  | .notDirectory => "Not a directory (os error 20)"
  | .isDirectory => "Is a directory (os error 21)"
  | .notText => "stream did not contain valid UTF-8"
  | .other message => message

/-- Monads in which text files can be read and written. -/
class MonadFiles (m : Type → Type) where
  /-- The contents of a file. -/
  readText : String → m (Except FileFault String)
  /-- Makes a directory and those above it, as far as they are missing. -/
  makeDirectories : String → m (Except FileFault Unit)
  /-- Makes or replaces a file. -/
  writeText : String → String → m (Except FileFault Unit)

/-- What stands at a place. -/
inductive Node where
  | directory
  | file (bytes : ByteArray)

/-- Places with what stands there, the working directory and the root apart. -/
structure FileSystem where
  nodes : Table (List String) Node

namespace FileSystem

/-- Nothing but the working directory and the root. -/
def empty : FileSystem := ⟨[]⟩

/-- What stands at a place; at the empty one the working directory does. -/
def node? (fs : FileSystem) (place : List String) : Option Node :=
  if place = [] ∨ place = [Path.root] then some .directory else Table.get? place fs.nodes

/-- Puts something at a place. -/
def put (fs : FileSystem) (place : List String) (node : Node) : FileSystem :=
  ⟨Table.insert place node fs.nodes⟩

/-- Whether one gets from the directory `place` through all `names`. -/
def walk (fs : FileSystem) (place : List String) : List String → Except FileFault Unit
  | [] => .ok ()
  | name :: names =>
    match fs.node? (place ++ [name]) with
    | none => .error .notFound
    | some (.file _) => .error .notDirectory
    | some .directory => fs.walk (place ++ [name]) names

/-- The bytes of a file. -/
def read (fs : FileSystem) (path : String) : Except FileFault ByteArray :=
  if path.isEmpty then .error .notFound
  else do
    let place := Path.components path
    fs.walk [] place.dropLast
    match fs.node? place with
    | none => .error .notFound
    | some .directory => .error .isDirectory
    | some (.file bytes) => if Path.ending path = .name then .ok bytes else .error .notDirectory

/-- The text of a file. -/
def readText (fs : FileSystem) (path : String) : Except FileFault String := do
  match String.fromUTF8? (← fs.read path) with
  | some text => return text
  | none => .error .notText

/-- Makes the directories `names` below the directory `place`, as far as they are missing. -/
def makeBelow (fs : FileSystem) (place : List String) : List String → Except FileFault FileSystem
  | [] => .ok fs
  | name :: names =>
    match fs.node? (place ++ [name]) with
    | none => (fs.put (place ++ [name]) .directory).makeBelow (place ++ [name]) names
    | some .directory => fs.makeBelow (place ++ [name]) names
    | some (.file _) => .error (if names.isEmpty then .alreadyExists else .notDirectory)

/-- Makes a directory and those above it. -/
def makeDirectories (fs : FileSystem) (path : String) : Except FileFault FileSystem :=
  fs.makeBelow [] (Path.components path)

/-- Makes or replaces a file. -/
def write (fs : FileSystem) (path : String) (bytes : ByteArray) : Except FileFault FileSystem :=
  if path.isEmpty then .error .notFound
  else do
    let place := Path.components path
    fs.walk [] place.dropLast
    match Path.ending path, fs.node? place with
    | _, some .directory => .error .isDirectory
    | .slash, _ => .error .isDirectory
    | .dot, none => .error .notFound
    | .dot, some (.file _) => .error .notDirectory
    | .name, _ => .ok (fs.put place (.file bytes))

/-- Carries out a change that may fail; if it fails nothing is changed. -/
def attempt (change : FileSystem → Except FileFault FileSystem) : StateM FileSystem (Except FileFault Unit) :=
  fun fs =>
    match change fs with
    | .ok fs' => (.ok (), fs')
    | .error fault => (.error fault, fs)

instance : MonadFiles (StateM FileSystem) where
  readText path fs := (fs.readText path, fs)
  makeDirectories path := attempt (·.makeDirectories path)
  writeText path text := attempt (·.write path text.toUTF8)

/-! ### What has changed -/

/-- The files that are not in `before` as they are in `fs`, by path. -/
def changedFiles (before : FileSystem) (fs : FileSystem) : List (String × ByteArray) :=
  fs.nodes.filterMap fun (place, node) =>
    match node, before.node? place with
    | .directory, _ => none
    | .file bytes, some (.file old) => if bytes.data = old.data then none else some (Path.join place, bytes)
    | .file bytes, _ => some (Path.join place, bytes)

/-- The paths of the directories that are not in `before`, in order. -/
def newDirectories (before : FileSystem) (fs : FileSystem) : List String :=
  let places := fs.nodes.filterMap fun (place, node) =>
    match node, before.node? place with
    | .directory, none => some (Path.join place)
    | _, _ => none
  places.mergeSort (· ≤ ·)

end FileSystem
end Command
end SchemaDart
