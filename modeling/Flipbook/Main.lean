import Flipbook.Command.Run

/-!
# The executable

Arguments and files come in, and the output of `Command.run` goes out. Only the
files that a request asks for are read. The system gives a seed for the random
numbers.
-/
namespace Flipbook.Command

/-- The problem behind an error of the system. -/
def problemOf : IO.Error → FileProblem
  | .noFileOrDirectory .. => .missing
  | .inappropriateType .. => .notDirectory
  | _ => .notText

/-- Whether a path leads to a directory. -/
def isDirectory (path : String) : IO Bool := do
  try (← IO.FS.realPath path).isDir catch _ => return false

/-- Reads the text at a path. -/
def readText (path : String) : IO (Except FileProblem String) := do
  try
    return .ok (← IO.FS.readFile path)
  catch e => return .error (if ← isDirectory path then .isDirectory else problemOf e)

/-- Reads the descriptions below a directory, if it is one. -/
def readBelow (path : String) : IO (Option (List File)) := do
  if !(← isDirectory path) then return none
  try
    let root ← IO.FS.realPath path
    let mut files := []
    for place in ← root.walkDir do
      let file : File := ⟨place.components.drop root.components.length, .error .missing⟩
      if file.isDescription && !(← place.isDir) then
        files := { file with content := ← readText place.toString } :: files
    return some files
  catch _ => return none

/-- The random numbers of the conditions in a run of the command. -/
def randomNumbers : IO (Nat → Expression.Random) := do
  let seed := hash (← IO.getRandomBytes 8)
  return fun place => ⟨fun n => hash (seed, place, n)⟩

/-- The output for a request. -/
def answer (request : Except Stop Request) : IO Output := do
  match request with
  | .error stop => return stopped stop
  | .ok (.validate options) => return validate options (← readBelow options.root)
  | .ok (.simulate options) =>
    return simulate options (← randomNumbers) (← readText options.file)

end Flipbook.Command

/-- Runs the command. -/
def main (args : List String) : IO UInt32 := do
  let output ← Flipbook.Command.answer (Flipbook.Command.Request.parse args)
  IO.print output.out
  IO.eprint output.err
  return output.code.toUInt32
