import Flipbook.Game.Basic

/-!
# Questions and replies

A game answers questions about events, probes and gauges. What they have in common is said
here of all of them: there is a reply, unless the game crashes, and the game is left in a state
from which it can be asked again.

* `Game.ask`: a question, its reply and the state that it leaves.
* `Game.Leads`: the states that questions can lead to.
-/
namespace Flipbook

/-- What a game replies to a question. There is no answer if it crashed. -/
inductive Reply where
  /-- Whether an event is active. -/
  | event (answer : Option Bool)
  /-- Whether a probe found something. -/
  | probe (answer : Option Bool)
  /-- The value of a gauge. -/
  | gauge (answer : Option Float)

/-- Whether a reply holds no answer because the game crashed. -/
def Reply.IsCrash : Reply → Prop
  | .event answer => answer = none
  | .probe answer => answer = none
  | .gauge answer => answer = none

namespace Game

variable {σ : Type} {game : Game σ} {s t u : σ}

/-- Puts a question to a game. -/
def ask (game : Game σ) (question : Question) (s : σ) : Reply × σ :=
  match question with
  | .event name => (.event (game.event name s).1, (game.event name s).2)
  | .probe kind name => (.probe (game.probe kind name s).1, (game.probe kind name s).2)
  | .gauge kind => (.gauge (game.gauge kind s).1, (game.gauge kind s).2)

/-- The states that questions can lead to. -/
inductive Leads (game : Game σ) (s : σ) : σ → Prop where
  | refl : Leads game s s
  | ask {t : σ} (question : Question) (h : Leads game s t) : Leads game s (game.ask question t).2

namespace Leads

theorem event (h : game.Leads s t) (name : String) : game.Leads s (game.event name t).2 :=
  h.ask (.event name)

theorem probe (h : game.Leads s t) (kind : Probe) (name : String) :
    game.Leads s (game.probe kind name t).2 :=
  h.ask (.probe kind name)

theorem gauge (h : game.Leads s t) (kind : Gauge) : game.Leads s (game.gauge kind t).2 :=
  h.ask (.gauge kind)

theorem trans (h : game.Leads s t) (h' : game.Leads t u) : game.Leads s u := by
  induction h' with
  | refl => exact h
  | ask question _ ih => exact ih.ask question

end Leads

end Game
end Flipbook
