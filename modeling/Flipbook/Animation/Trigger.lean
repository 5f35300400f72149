import Flipbook.Expression.Condition

/-!
# Triggers

A `Trigger` decides in each tick whether its segment is wanted: by a condition,
by the name of an event, or by the default of its segment where it has neither.
A condition comes before an event.
-/
namespace Flipbook

open Expression (Condition Scope)

/-- What makes a segment play. -/
structure Trigger where
  event : Option String
  condition : Option Condition

/-- A decision, unless the game crashed, with all that has changed on the way. -/
structure Decision (σ : Type) where
  wanted : Option Bool
  trigger : Trigger
  game : σ
  notices : List Notice

namespace Trigger

/-- The trigger without event and condition. -/
def none : Trigger := ⟨.none, .none⟩

instance : Inhabited Trigger := ⟨none⟩

/-- The trigger by an event. -/
def ofEvent (name : String) : Trigger := ⟨some name, .none⟩

/-- The trigger by a condition. -/
def ofCondition (condition : Condition) : Trigger := ⟨.none, some condition⟩

/-- Whether the trigger has neither event nor condition. -/
def isNone (t : Trigger) : Bool := t.event.isNone && t.condition.isNone

/-- Decides whether the segment is wanted; `standing` is its default. -/
def decide {σ : Type} (t : Trigger) (scope : Scope) (standing : Bool) (game : Game σ) (s : σ) :
    Decision σ :=
  match t.condition with
  | some condition =>
    let done := condition.evaluate scope game s
    ⟨done.result, { t with condition := some done.condition }, done.game, done.notices⟩
  | .none =>
    match t.event with
    | some name =>
      let (active, s) := game.event name s
      ⟨active, t, s, []⟩
    | .none => ⟨some standing, t, s, []⟩

end Trigger
end Flipbook
