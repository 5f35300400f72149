/-!
# The running game

Animations react to a game. A `Game σ` answers questions in a state `σ`, which
every question may change: a game that keeps a record of what it was asked is a
game like any other. A question may also make the game crash; then there is no
answer, only the state that it leaves.

The numbers that conditions read as variables come from a `Player`.
-/
namespace Flipbook

/-- What a game can be asked about by name beside its events. -/
inductive Probe where
  /-- The item in the main hand. -/
  | item
  /-- An effect on the player. -/
  | effect
  /-- The biome around the player. -/
  | biome
deriving DecidableEq, Repr

/-- What a game measures. -/
inductive Gauge where
  | armor
  | light
deriving DecidableEq, Repr

/-- A question to a game. -/
inductive Question where
  | event (name : String)
  | probe (kind : Probe) (name : String)
  | gauge (kind : Gauge)
deriving DecidableEq, Repr

/-- A game whose state has type `σ`. No answer means that the game crashed. -/
structure Game (σ : Type) where
  /-- Whether the named event is active. -/
  event : String → σ → Option Bool × σ
  /-- Whether something that the game knows under the probe bears the name. -/
  probe : Probe → String → σ → Option Bool × σ
  /-- The value of a gauge. -/
  gauge : Gauge → σ → Option Float × σ

/-- The game in which nothing goes on. -/
def Game.idle {σ : Type} : Game σ where
  event _ s := (some false, s)
  probe _ _ s := (some false, s)
  gauge _ s := (some 0, s)

/-- The player's numbers in one tick. -/
structure Player where
  health : Float
  maxHealth : Float
  hunger : Int

/-- The numbers where there is no player. -/
def Player.standard : Player := ⟨20, 20, 20⟩

instance : Inhabited Player := ⟨Player.standard⟩

end Flipbook
