import Flipbook.Decimal.Numeral
import Flipbook.Game.Basic
import Flipbook.Text.Case
import Flipbook.Text.Split

/-!
# Scripted games

In a simulation events are active in windows of ticks, written
`name@start..end`: from the start on and before the end.
-/
namespace Flipbook.Command

/-- The ticks in which an event is active. -/
structure Window where
  /-- The name of the event, in small letters. -/
  event : String
  start : Nat
  stop : Nat
deriving DecidableEq, Repr

namespace Window

/-- Reads a tick. -/
def tick? (cs : List Char) : Option Nat := Decimal.natural? Decimal.wordBound (Text.trim cs)

/-- Reads a window. -/
def parse? (text : String) : Option Window := do
  let (name, ticks) ← Text.cut '@' text.toList
  let (start, stop) ← Text.breakOn "..".toList ticks
  return ⟨Text.toLower (String.ofList (Text.trim name)), ← tick? start, ← tick? (stop.drop 2)⟩

/-- Whether the window holds a tick. -/
def contains (w : Window) (tick : Nat) : Bool := w.start ≤ tick && tick < w.stop

end Window

/-- The game at a tick of a script. It knows nothing but events. -/
def scripted (windows : List Window) (tick : Nat) : Game Unit where
  event name s :=
    (some (windows.any fun w => w.event == Text.toLower name && w.contains tick), s)
  probe _ _ s := (some false, s)
  gauge _ s := (some 0, s)

end Flipbook.Command
