import Flipbook.Game.Basic
import Flipbook.Notice
import Flipbook.Table
import Flipbook.Text.Case

/-!
# Tables of events

A game can keep its events as conditions under names, read in small letters.
The conditions look at a world of type `ω`. `refresh` samples all of them at
once; until the next time questions are answered from that sample.
-/
namespace Flipbook

/-- Conditions on a world under event names, and the events that were active
when they were sampled last. -/
structure EventTable (ω : Type) where
  conditions : Table String (ω → Bool)
  active : Table String Unit

namespace EventTable

variable {ω : Type}

/-- The table without events. -/
def empty : EventTable ω := ⟨∅, ∅⟩

/-- Puts a condition under a name, in place of any it had before. -/
def register (t : EventTable ω) (name : String) (condition : ω → Bool) : Noted (EventTable ω) :=
  let key := Text.toLower name
  ⟨{ t with conditions := t.conditions.insert key condition }, [.eventRegistered key]⟩

/-- Removes a name at once, and tells whether it was there. -/
def unregister (t : EventTable ω) (name : String) : Bool × EventTable ω :=
  let key := Text.toLower name
  (t.conditions.contains key, ⟨t.conditions.erase key, t.active.erase key⟩)

/-- Samples every condition. Events that started are reported before events that
ended, each in the order of their names. -/
def refresh (t : EventTable ω) (world : ω) : Noted (EventTable ω) :=
  let active := (t.conditions.filter fun _ condition => condition world).mapValues fun _ _ => ()
  let started := active.keys.filter (!t.active.contains ·)
  let ended := t.active.keys.filter (!active.contains ·)
  ⟨{ t with active }, started.map .eventStarted ++ ended.map .eventEnded⟩

/-- The active events, in the order of their names. -/
def activeEvents (t : EventTable ω) : List String := t.active.keys

/-- Whether an event is active. -/
def isActive (t : EventTable ω) (name : String) : Bool := t.active.contains (Text.toLower name)

/-- The number of events under a condition. -/
def size (t : EventTable ω) : Nat := t.conditions.size

/-- Whether no event has a condition. -/
def isEmpty (t : EventTable ω) : Bool := t.conditions.isEmpty

/-- The table in words. -/
def describe (t : EventTable ω) : String :=
  let show' names := String.intercalate ", " (names.map Text.quoted)
  "EventTable \x7b events: [" ++ show' t.conditions.keys ++ "], active: \x7b" ++
    show' t.activeEvents ++ "\x7d \x7d"

/-- The table as a game, which knows nothing but events. -/
def game {σ : Type} (t : EventTable ω) : Game σ where
  event name s := (some (t.isActive name), s)
  probe _ _ s := (some false, s)
  gauge _ s := (some 0, s)

end EventTable
end Flipbook
