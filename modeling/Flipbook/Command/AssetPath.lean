import Flipbook.Command.Files
import Flipbook.Texture

/-!
# Descriptions among the assets

Animation descriptions lie beside the textures that they are for. Two endings
mark them, and the path of a description tells its texture: either the texture
has a directory of its own, or the endings are left out.
-/
namespace Flipbook.Command

/-- The endings of descriptions. -/
def descriptionEndings : List String := ["mcmeta", "mcmetax"]

/-- The ending of the name of a file: what follows its last point, unless the name
starts with that point. -/
def ending? (name : String) : Option String :=
  let back := name.toList.reverse
  match back.dropWhile (· != '.') with
  | '.' :: _ :: _ => some (String.ofList (back.takeWhile (· != '.')).reverse)
  | _ => none

/-- Whether a file is a description. -/
def File.isDescription (f : File) : Bool :=
  match f.path.getLast? with
  | some name => (ending? name).any (descriptionEndings.contains ·)
  | none => false

/-- What the name of a directory that belongs to one texture ends in. -/
def directoryEnding : List Char := ".etta/".toList

/-- The texture of the description at a path. -/
def textureAt (path : String) : Texture :=
  let text := path.toList.map fun c => if c = '\\' then '/' else c
  let stem := match Text.breakOn directoryEnding text with
    | some (stem, _) => stem
    | none => Text.dropEndWord ".mcmeta".toList (Text.dropEndWord ".mcmetax".toList text)
  Texture.parse (String.ofList (Text.dropEndWord ".png".toList stem))

/-- The path of a file below a directory, from where the path of the directory
starts. -/
def pathBelow (directory : String) (f : File) : String :=
  directory ++ (if directory.endsWith "/" then "" else "/") ++ String.intercalate "/" f.path

end Flipbook.Command
