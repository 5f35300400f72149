import Flipbook.Text.Split

/-!
# Files and paths

A `FileTree` is what a directory holds: files with texts, at paths below it. A
path is looked up by going down its components; empty components and single dots
stay where they are, double dots go up.
-/
namespace Flipbook.Command

/-- Why a path has no text. -/
inductive FileProblem where
  | missing
  | isDirectory
  /-- A file stands where the path goes on. -/
  | notDirectory
  /-- A file that holds no text. -/
  | notText
deriving DecidableEq, Repr

/-- The words for a problem. -/
def FileProblem.text : FileProblem → String
  | .missing => "No such file or directory (os error 2)"
  | .isDirectory => "Is a directory (os error 21)"
  | .notDirectory => "Not a directory (os error 20)"
  | .notText => "stream did not contain valid UTF-8"

/-- A file below a directory, by the components of its path. -/
structure File where
  path : List String
  /-- The text of the file, if it can be read. -/
  content : Except FileProblem String

/-- The files below a directory. -/
structure FileTree where
  files : List File

/-- What stands at a path. -/
inductive Place where
  | file (content : Except FileProblem String)
  | directory (path : List String)

/-- The components of a path. -/
def components (path : String) : List String :=
  (Text.splitOn '/' path.toList).map String.ofList

namespace FileTree

/-- The file at a path. -/
def file? (tree : FileTree) (path : List String) : Option File :=
  tree.files.find? (·.path == path)

/-- Whether there are files below a path. -/
def hasBelow (tree : FileTree) (path : List String) : Bool :=
  tree.files.any fun f => path.isPrefixOf f.path && path.length < f.path.length

/-- Goes down from a directory. -/
def descend (tree : FileTree) (directory : List String) : List String → Except FileProblem Place
  | [] => .ok (.directory directory)
  | name :: rest =>
    if name = "" || name = "." then tree.descend directory rest
    else if name = ".." then
      if directory.isEmpty then .error .missing else tree.descend directory.dropLast rest
    else
      let path := directory ++ [name]
      match tree.file? path with
      | some f => if rest.isEmpty then .ok (.file f.content) else .error .notDirectory
      | none => if tree.hasBelow path then tree.descend path rest else .error .missing

/-- What stands at a path. The tree knows no place outside. -/
def find (tree : FileTree) (path : String) : Except FileProblem Place :=
  if path.startsWith "/" then .error .missing else tree.descend [] (components path)

/-- The text at a path. -/
def read (tree : FileTree) (path : String) : Except FileProblem String :=
  match tree.find path with
  | .ok (.file content) => content
  | .ok (.directory _) => .error .isDirectory
  | .error problem => .error problem

/-- The files below a directory, by their paths from there. -/
def below? (tree : FileTree) (path : String) : Option (List File) :=
  match tree.find path with
  | .ok (.directory directory) =>
    some (tree.files.filterMap fun f =>
      (directory.isPrefixOf? f.path).map fun relative => { f with path := relative })
  | _ => none

end FileTree
end Flipbook.Command
