import Depends.Failure
import Depends.History.Archive
import Depends.Path
import Depends.Text.Utf8

/-!
A file system as a value: folders of named entries, seen from a working directory. Paths are walked
element by element, so every element before the last must be a folder that exists.
-/
namespace Depends

/-- What a file holds. -/
inductive Content where
  | bytes (data : List UInt8)
  | database (ledger : Ledger)
  deriving DecidableEq, Repr

/-- The bytes of a content. Those of a database are its text form. -/
def Content.data : Content → List UInt8
  | .bytes data => data
  | .database ledger => Text.encode ledger.archive

/-- The size of a content in bytes. -/
def Content.size (content : Content) : Nat := content.data.length

/-- A file: its content and the second of its last change. -/
structure File where
  content : Content
  modified : Int
  deriving DecidableEq, Repr

/-- What the system tells of a file or a folder without opening it: the second of its last change and its
size. -/
structure FileInfo where
  modified : Int
  size : Nat
  deriving DecidableEq, Repr

/-- What the system tells of a file. -/
def File.info (file : File) : FileInfo := ⟨file.modified, file.content.size⟩

/-- A file or a folder. The entries of a folder are in ascending order of their distinct names. -/
inductive Tree where
  | file (file : File)
  | folder (entries : List (String × Tree))
  deriving Repr

namespace Tree

/-- A folder. -/
def isFolder : Tree → Bool
  | folder _ => true
  | file _ => false

/-- What stands at a place below. -/
def find (tree : Tree) : List String → Except Refusal Tree
  | [] => .ok tree
  | name :: names =>
    match tree with
    | file _ => .error .notDirectory
    | folder entries =>
      match entries.lookup name with
      | none => .error .missing
      | some below => below.find names

/-- Sets the entry of a name, keeping the names in order. -/
def insertEntry (name : String) (tree : Tree) : List (String × Tree) → List (String × Tree)
  | [] => [(name, tree)]
  | entry :: entries =>
    if name == entry.1 then (name, tree) :: entries
    else if name < entry.1 then (name, tree) :: entry :: entries
    else entry :: insertEntry name tree entries

/-- Puts something at a place below; missing folders on the way are made, and nothing is put below a
file. -/
def put (item : Tree) : List String → Tree → Tree
  | [], _ => item
  | name :: names, folder entries =>
    folder (insertEntry name (put item names ((entries.lookup name).getD (folder []))) entries)
  | _ :: _, file old => file old

/-- Removes what stands at a place below. -/
def erase : List String → Tree → Tree
  | [], tree => tree
  | _ :: _, file old => file old
  | [name], folder entries => folder (entries.filter (·.1 != name))
  | name :: names, folder entries =>
    folder (entries.map fun entry => if entry.1 == name then (name, erase names entry.2) else entry)

end Tree

/-- A file system seen from a working directory, given by its elements. Parameters of it are what the system
tells of the folder at a place, why it refuses to open the file at a place, and why it refuses to watch a
path for changes, where it does. The entries of a folder can always be listed. -/
structure Files where
  root : Tree
  directory : List String
  folderInfo : List String → FileInfo := fun _ => ⟨0, 4096⟩
  openRefusal : List String → Option Refusal := fun _ => none
  watchRefusal : String → Option Failure := fun _ => none

namespace Files

/-- An empty file system with its working directory. -/
def empty (directory : String) : Files :=
  let elements := Path.elements directory
  { root := Tree.put (.folder []) elements (.folder []), directory := elements }

/-- The working directory as a path. -/
def workingDirectory (files : Files) : String := "/" ++ Text.join "/" files.directory

/-- Walks path elements from a place. Each step leads on from an existing folder. -/
def walk (root : Tree) : List String → List String → Except Refusal (List String)
  | place, [] => .ok place
  | place, element :: rest =>
    match root.find place with
    | .error refusal => .error refusal
    | .ok (.file _) => .error .notDirectory
    | .ok (.folder _) =>
      if element == "" || element == "." then walk root place rest
      else if element == ".." then walk root place.dropLast rest
      else walk root (place ++ [element]) rest

/-- The place that a path names. -/
def locate (files : Files) (path : String) : Except Refusal (List String) :=
  if path == "" then .error .missing
  else walk files.root (if Path.isAbsolute path then [] else files.directory) (Text.split '/' path)

/-- What stands at a path. -/
def stat (files : Files) (path : String) : Except Refusal Tree :=
  match files.locate path with
  | .error refusal => .error refusal
  | .ok place => files.root.find place

/-- Something stands at a path. -/
def has (files : Files) (path : String) : Bool :=
  match files.stat path with
  | .ok _ => true
  | .error _ => false

/-- A folder stands at a path. -/
def isFolder (files : Files) (path : String) : Bool :=
  match files.stat path with
  | .ok tree => tree.isFolder
  | .error _ => false

/-- What the system tells of what stands at a path. -/
def info (files : Files) (path : String) : Except Refusal FileInfo := do
  let place ← files.locate path
  match ← files.root.find place with
  | .file file => return file.info
  | .folder _ => return files.folderInfo place

/-- What stands at a path, for a reader that opens it. -/
def opened (files : Files) (path : String) : Except Refusal Tree := do
  let place ← files.locate path
  let tree ← files.root.find place
  match tree, files.openRefusal place with
  | .file _, some refusal => .error refusal
  | _, _ => .ok tree

/-- The file at a path; a folder can be opened but not read. -/
def open? (files : Files) (path : String) : Except Failure File :=
  match files.opened path with
  | .error refusal => .error (.file "open" path refusal)
  | .ok (.folder _) => .error (.file "read" path .isDirectory)
  | .ok (.file file) => .ok file

/-- The bytes of the file at a path. -/
def read (files : Files) (path : String) : Except Failure (List UInt8) :=
  (files.open? path).map (·.content.data)

/-- Writes a file into an existing folder. -/
def write (files : Files) (path : String) (file : File) : Except Failure Files :=
  match files.locate path with
  | .error refusal => .error (.file "open" path refusal)
  | .ok place =>
    match files.root.find place, files.openRefusal place with
    | .ok (.folder _), _ => .error (.file "open" path .isDirectory)
    | .ok (.file _), some refusal => .error (.file "open" path refusal)
    | _, _ => .ok { files with root := Tree.put (.file file) place files.root }

/-- The paths of the folders from the outermost to the one at a path. -/
def ancestors (path : String) : List String :=
  let chars := path.toList
  let cuts := (List.range (chars.length + 1)).filter fun n =>
    0 < n && chars[n]?.getD '/' == '/' && chars[n - 1]? != some '/'
  cuts.map fun n => String.ofList (chars.take n)

/-- Makes one folder unless it is there. -/
def makeFolder (files : Files) (path : String) : Except Failure Files :=
  match files.stat path with
  | .ok (.folder _) => .ok files
  | .ok (.file _) => .error (.file "mkdir" path .notDirectory)
  | .error _ =>
    match files.locate path with
    | .error refusal => .error (.file "mkdir" path refusal)
    | .ok place => .ok { files with root := Tree.put (.folder []) place files.root }

/-- Makes a folder and the folders around it. -/
def makeFolders (files : Files) (path : String) : Except Failure Files :=
  (ancestors path).foldlM makeFolder files

/-- Writes a file and makes the folders around it. -/
def writeWithFolders (files : Files) (path : String) (file : File) : Except Failure Files := do
  let folder := Path.parent path
  let files ← if folder != "" && folder != "." then files.makeFolders folder else pure files
  files.write path file

/-- Puts a file at a path, whatever was there, making folders as needed. -/
def place (files : Files) (path : String) (file : File) : Files :=
  let elements := Path.elements (Path.absolute files.workingDirectory path)
  { files with root := Tree.put (.file file) elements files.root }

/-- Puts a folder at a path unless one is there. -/
def placeFolder (files : Files) (path : String) : Files :=
  if files.isFolder path then files
  else
    let elements := Path.elements (Path.absolute files.workingDirectory path)
    { files with root := Tree.put (.folder []) elements files.root }

/-- Removes what stands at a path, if anything does. -/
def remove (files : Files) (path : String) : Files :=
  match files.locate path with
  | .error _ => files
  | .ok place => { files with root := Tree.erase place files.root }

end Files

end Depends
