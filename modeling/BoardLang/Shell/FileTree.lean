import BoardLang.Shell.ReadError

/-!
# File trees in memory

A small file system to run commands in. It holds files and directories below a start directory;
of what lies outside of that, only the directories on the way up are known.
-/

namespace BoardLang.Shell

/-- The files and directories below a start directory, by the names on the way to them. -/
structure FileTree where
  files : List (List String × ByteArray)
  directories : List (List String)

namespace FileTree

/-- What stands between the slashes of a path. -/
def segments (path : String) : List String := (path.toList.splitOn '/').map String.ofList

/-- The names in a path. Empty names and single dots lead nowhere. -/
def names (path : String) : List String :=
  (segments path).filter fun name => name ≠ "" && name ≠ "."

def empty : FileTree := ⟨[], []⟩

def addFile (tree : FileTree) (path : String) (content : ByteArray) : FileTree :=
  { tree with files := tree.files ++ [(names path, content)] }

def addDirectory (tree : FileTree) (path : String) : FileTree :=
  { tree with directories := tree.directories ++ [names path] }

def file? (tree : FileTree) (path : List String) : Option ByteArray :=
  (tree.files.find? fun entry => entry.1 = path).map Prod.snd

/-- Whether there is a directory at `path`: a named one, or one on the way to something. -/
def isDirectory (tree : FileTree) (path : List String) : Bool :=
  tree.directories.any (path.isPrefixOf ·) ||
    tree.files.any fun entry => path.isPrefixOf entry.1 && path ≠ entry.1

/-- Where a walk along a path has come to. -/
inductive Place where
  | directory (path : List String)
  /-- A directory outside of the tree. -/
  | outside
  | file (content : ByteArray)

def step (tree : FileTree) (place : Place) (name : String) : Except ReadError Place :=
  match place with
  | .file _ => .error .notDirectory
  | .outside =>
    -- There is nothing to be found here but the way up.
    if name = "" || name = "." || name = ".." then .ok .outside else .error .missing
  | .directory path =>
    if name = "" || name = "." then .ok place
    else if name = ".." then
      match path with
      | [] => .ok .outside
      | _ => .ok (.directory path.dropLast)
    else
      match tree.file? (path ++ [name]) with
      | some content => .ok (.file content)
      | none =>
        if tree.isDirectory (path ++ [name]) then .ok (.directory (path ++ [name]))
        else .error .missing

/-- Where a path begins: at the root of everything if it starts with a slash. -/
def origin (path : String) : Place :=
  if path.toList.head? = some '/' then .outside else .directory []

def read (tree : FileTree) (path : String) : Except ReadError String :=
  if path = "" then .error .missing
  else
    match (segments path).foldlM tree.step (origin path) with
    | .ok (.file content) => decodeText content
    | .ok _ => .error .isDirectory
    | .error e => .error e

end FileTree

end BoardLang.Shell
