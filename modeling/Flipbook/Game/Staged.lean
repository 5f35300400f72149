import Flipbook.Game.Basic
import Flipbook.Text.Split

/-!
# Staged games

A staged game gives fixed answers and keeps a record of the questions. It knows
the events that are active, the names of the items, effects and biomes around the
player, and the questions that make it crash.
-/
namespace Flipbook

/-- A question in words. -/
def Question.text : Question → String
  | .event name => "event:" ++ name
  | .probe .item name => "items:" ++ name
  | .probe .effect name => "effects:" ++ name
  | .probe .biome name => "biomes:" ++ name
  | .gauge .armor => "armor"
  | .gauge .light => "light"

/-- The answers of a staged game. -/
structure Stage where
  active : List String
  crashing : List Question
  items : List String
  effects : List String
  biomes : List String
  armor : Float
  light : Float

namespace Stage

/-- The names that a probe knows. -/
def known (stage : Stage) : Probe → List String
  | .item => stage.items
  | .effect => stage.effects
  | .biome => stage.biomes

/-- The value of a gauge. -/
def value (stage : Stage) : Gauge → Float
  | .armor => stage.armor
  | .light => stage.light

/-- Answers a question, unless it makes the game crash, and adds it to the record. -/
def reply {α : Type} (stage : Stage) (question : Question) (answer : α) (asked : List Question) :
    Option α × List Question :=
  (if question ∈ stage.crashing then none else some answer, asked ++ [question])

/-- The staged game. Its state is the record of the questions, oldest first.
A probe finds a name that occurs in one of the names it knows. -/
def game (stage : Stage) : Game (List Question) where
  event name := stage.reply (.event name) (name ∈ stage.active)
  probe kind name := stage.reply (.probe kind name)
    ((stage.known kind).any fun known => Text.occursIn name.toList known.toList)
  gauge kind := stage.reply (.gauge kind) (stage.value kind)

end Stage
end Flipbook
