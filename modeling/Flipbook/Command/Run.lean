import Flipbook.Command.Simulate
import Flipbook.Command.Validate

/-!
# The command

`run` is the whole command on the files of a directory.
-/
namespace Flipbook.Command

/-- How the command is used. -/
def usage : String :=
  "Validate and simulate texture animation descriptions\n\n" ++
  "Usage: etta_utils validate [--strict] [--verbose] <DIR>\n" ++
  "       etta_utils simulate [--ticks <COUNT>] [--event <EVENT>]... [--health <HP>]\n" ++
  "                  [--hunger <FOOD>] [--json] <FILE>\n"

/-- The version of the command. -/
def version : String := "etta_utils 0.1.0\n"

/-- The output for arguments that are not read to their end. -/
def stopped : Stop → Output
  | .help => .ok usage
  | .version => .ok version
  | .misuse => .misused usage

/-- Runs the command in the directory of a tree. The random numbers are those of the
conditions in a simulation. -/
def run (random : Nat → Expression.Random) (tree : FileTree) (args : List String) : Output :=
  match Request.parse args with
  | .error stop => stopped stop
  | .ok (.validate options) => validate options (tree.below? options.root)
  | .ok (.simulate options) => simulate options random (tree.read options.file)

end Flipbook.Command
