import PklAnalysis.Workspace.Store

/-!
Directories of files, and opening all modules in one.
-/

namespace PklAnalysis

/-- Files and directories below a root directory. Paths are lists of names. -/
structure Directory where
  /-- The absolute path of the root. -/
  root : String
  /-- Directories that are there whether they hold files or not. -/
  subdirectories : List (List String)
  /-- The bytes of the files; no path occurs twice. -/
  files : List (List String × ByteArray)

namespace Directory

inductive Failure
  | missing (path : String)
  | notText (path : List String)
deriving DecidableEq, Repr

def empty (root : String) : Directory :=
  { root, subdirectories := [], files := [] }

/-- The directory with one more file; a file at the same path gives way. -/
def insert (directory : Directory) (path : List String) (bytes : ByteArray) :
    Directory :=
  { directory with
    files :=
      (directory.files.filter fun entry => entry.1 ≠ path) ++ [(path, bytes)] }

def isFile (directory : Directory) (path : List String) : Bool :=
  directory.files.any fun entry => entry.1 = path

/-- Whether there is a directory at a path: the root, a directory of its own, or
one on the way to another or to a file. -/
def isDirectory (directory : Directory) (path : List String) : Bool :=
  path.isEmpty ||
    directory.subdirectories.any (fun other => path.isPrefixOf other) ||
    directory.files.any fun entry => path.isPrefixOf entry.1 && path ≠ entry.1

/-- One step along a path: a name leads to what is there, two dots lead back,
and a single dot or nothing stays. Steps lead only from directories. -/
def step? (directory : Directory) (path : List String) (name : String) :
    Option (List String) :=
  if directory.isDirectory path then
    if name = "" || name = "." then some path
    else if name = ".." then if path.isEmpty then none else some path.dropLast
    else
      let next := path ++ [name]
      if directory.isDirectory next || directory.isFile next then some next
        else none
  else
    none

def resolve? (directory : Directory) (target : String) : Option (List String) :=
  (target.splitOn "/").foldlM (step? directory) []

/-- Whether a file holds a module: its name has more than the ending `.pkl`. -/
def isModule (path : List String) : Bool :=
  match path.getLast? with
  | some name =>
      (Text.before? ".pkl".toList name.toList).any fun stem => !stem.isEmpty
  | none => false

/-- The module files at or below a path, by name, directory by directory. -/
def modules (directory : Directory) (path : List String) :
    List (List String × ByteArray) :=
  let below :=
    directory.files.filter fun entry => path.isPrefixOf entry.1 &&
      isModule entry.1
  below.mergeSort fun left right => !decide (right.1 < left.1)

def uri (directory : Directory) (path : List String) : String :=
  Uri.ofPath (String.intercalate "/" (directory.root :: path))

end Directory

namespace Store

/-- Opens files in order, and gives their uris, up to the first that is no
text. -/
def openFiles (directory : Directory) (store : Store) :
    List (List String × ByteArray) →
      Except Token.Literal.Unreadable
        (Store × Except Directory.Failure (List String))
  | [] => .ok (store, .ok [])
  | (path, bytes) :: rest =>
      match String.fromUTF8? bytes with
      | none => .ok (store, .error (.notText path))
      | some text => do
          let uri := directory.uri path
          let update ← store.update uri 0 text
          let (store, loaded) ← openFiles directory update.store rest
          return (store, loaded.map (uri :: ·))

/-- Opens all modules at or below a target, and gives their uris, sorted. -/
def load (store : Store) (directory : Directory) (target : String) :
    Except Token.Literal.Unreadable
      (Store × Except Directory.Failure (List String)) :=
  match directory.resolve? target with
  | none => .ok (store, .error (.missing target))
  | some path => do
      let (store, loaded) ← openFiles directory store (directory.modules path)
      return (store, loaded.map fun uris => uris.mergeSort fun left right =>
        left ≤ right)

end Store

end PklAnalysis
