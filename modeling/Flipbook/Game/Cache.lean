import Flipbook.Game.Basic
import Flipbook.Table
import Flipbook.Text.Case
import Flipbook.Text.Quoted

/-!
# One answer per event and tick

During a tick every animation sees the same events. `Game.cached` puts a memo in
front of a game: the first answer about an event, whose name is read in small
letters, is kept and given from then on. A crash is not kept. Questions about
anything else pass through.
-/
namespace Flipbook

/-- A game state with the answers about events given so far. -/
structure Cached (σ : Type) where
  answers : Table String Bool
  source : σ

namespace Cached

/-- A game state at the start of a tick. -/
def fresh {σ : Type} (source : σ) : Cached σ := ⟨∅, source⟩

/-- The number of events that were answered. -/
def lookups {σ : Type} (s : Cached σ) : Nat := s.answers.size

/-- The state in words. -/
def describe {σ : Type} (s : Cached σ) : String :=
  let entries := s.answers.entries.map fun (name, active) => s!"{Text.quoted name}: {active}"
  "EventCache \x7b events: \x7b" ++ String.intercalate ", " entries ++ "\x7d, .. \x7d"

end Cached

/-- The game behind a memo of its answers about events. -/
def Game.cached {σ : Type} (game : Game σ) : Game (Cached σ) where
  event name s :=
    let key := Text.toLower name
    match s.answers.get? key with
    | some active => (some active, s)
    | none =>
      match game.event key s.source with
      | (some active, source) => (some active, ⟨s.answers.insert key active, source⟩)
      | (none, source) => (none, ⟨s.answers, source⟩)
  probe kind name s :=
    let (found, source) := game.probe kind name s.source
    (found, { s with source })
  gauge kind s :=
    let (value, source) := game.gauge kind s.source
    (value, { s with source })

end Flipbook
