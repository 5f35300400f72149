import Flipbook.Animation.Registry
import Flipbook.Animation.SnapshotJson
import Flipbook.Command.Arguments
import Flipbook.Command.AssetPath
import Flipbook.Command.Output

/-!
# Simulating a description

One description is played for some ticks against a scripted game. Each tick puts
out the frame shown or, on demand, a snapshot; a last report follows the frames.
-/
namespace Flipbook.Command

/-- The player of a simulation. -/
def SimulateOptions.player (options : SimulateOptions) : Player :=
  ⟨options.health, 20, options.hunger⟩

/-- The registry after each of some ticks, the first of which has the given
number. -/
def SimulateOptions.run (options : SimulateOptions) (tick : Nat) :
    Nat → Registry → List Registry
  | 0, _ => []
  | count + 1, r =>
    let next := (r.tick options.player (scripted options.windows tick) ()).value.1
    next :: options.run (tick + 1) count next

/-- A number in a column of five places. -/
def column (n : Nat) : String :=
  let ds := Nat.toDigits 10 n
  String.ofList (List.replicate (5 - ds.length) ' ' ++ ds)

/-- The line of a tick. -/
def tickLine (texture : Texture) (tick : Nat) (r : Registry) : String :=
  s!"{column tick}: {r.currentFrame texture}\n"

/-- The snapshot of a tick, on a line. -/
def snapshotLine (texture : Texture) (r : Registry) : String :=
  match r.snapshot? texture with
  | some snapshot => snapshot.json ++ "\n"
  | none => ""

/-- Simulates the description in a file with the given content. Its conditions are given
their random numbers. -/
def simulate (options : SimulateOptions) (random : Nat → Expression.Random)
    (content : Except FileProblem String) : Output :=
  match content with
  | .error problem => .failedBy s!"Failed to read {options.file}" problem.text
  | .ok content =>
    let texture := textureAt options.file
    let config : Document.Config := { Document.Config.standard with random }
    match (Registry.empty.load config texture content.toList).outcome.value with
    | .error e => .failedBy s!"Failed to parse {options.file}" e.message
    | .ok start =>
      let states := options.run 0 options.ticks start
      if options.json then .ok (String.join (states.map (snapshotLine texture)))
      else
        let lines := states.mapIdx (tickLine texture)
        let last := states.getLastD start
        .ok (String.join lines ++ "\n" ++ last.describe texture ++ "\n")

end Flipbook.Command
