import Flipbook.Game.Cache
import Flipbook.Game.Staged
import Flipbook.Proofs.Playback.Agreement

/-!
# Games whose answers stay

A game is steady in a state when no question, and no question after it, changes an
answer. Such a game may keep any record of what it was asked, and it may crash over
any questions; but whatever it says can be read off its first state, as `Answers`.

* `Game.Steady.agree`: steady games that give the same answers agree.
* `Game.Steady.agree_cached`: behind a memo a steady game agrees with the game that
  gives just these answers, with event names read in small letters. What the memo
  holds in between makes no difference.
* `Stage.steady`: staged games are steady.
-/
namespace Flipbook

/-- The answers of a game. -/
structure Answers where
  event : String → Option Bool
  probe : Probe → String → Option Bool
  gauge : Gauge → Option Float

namespace Answers

/-- The answers about events whose names are read in small letters. -/
def folded (a : Answers) : Answers := { a with event := fun name => a.event (Text.toLower name) }

/-- The game that gives the same answers for ever. -/
def game (a : Answers) : Game Unit where
  event name s := (a.event name, s)
  probe kind name s := (a.probe kind name, s)
  gauge kind s := (a.gauge kind, s)

end Answers

namespace Game

variable {σ : Type}

/-- The answers that a game would give in a state. -/
def answers (game : Game σ) (s : σ) : Answers where
  event name := (game.event name s).1
  probe kind name := (game.probe kind name s).1
  gauge kind := (game.gauge kind s).1

/-- Whether a game keeps to its answers from a state on. -/
def Steady (game : Game σ) (s : σ) : Prop := ∀ t, game.Leads s t → game.answers t = game.answers s

namespace Steady

variable {game : Game σ} {s t : σ}

theorem event_eq (h : game.Steady s) (ht : game.Leads s t) (name : String) :
    (game.event name t).1 = (game.event name s).1 :=
  congrFun (congrArg Answers.event (h t ht)) name

theorem probe_eq (h : game.Steady s) (ht : game.Leads s t) (kind : Probe) (name : String) :
    (game.probe kind name t).1 = (game.probe kind name s).1 :=
  congrFun (congrFun (congrArg Answers.probe (h t ht)) kind) name

theorem gauge_eq (h : game.Steady s) (ht : game.Leads s t) (kind : Gauge) :
    (game.gauge kind t).1 = (game.gauge kind s).1 :=
  congrFun (congrArg Answers.gauge (h t ht)) kind

/-- Steady games that give the same answers agree. -/
theorem agree {τ : Type} {other : Game τ} {t : τ} (h : game.Steady s) (hother : other.Steady t)
    (hanswers : game.answers s = other.answers t) :
    Agree (fun s' t' => game.Leads s s' ∧ other.Leads t t') game other where
  event name s' t' hleads := by
    refine ⟨?_, hleads.1.event name, hleads.2.event name⟩
    rw [h.event_eq hleads.1, hother.event_eq hleads.2]
    exact congrFun (congrArg Answers.event hanswers) name
  probe kind name s' t' hleads := by
    refine ⟨?_, hleads.1.probe kind name, hleads.2.probe kind name⟩
    rw [h.probe_eq hleads.1, hother.probe_eq hleads.2]
    exact congrFun (congrFun (congrArg Answers.probe hanswers) kind) name
  gauge kind s' t' hleads := by
    refine ⟨?_, hleads.1.gauge kind, hleads.2.gauge kind⟩
    rw [h.gauge_eq hleads.1, hother.gauge_eq hleads.2]
    exact congrFun (congrArg Answers.gauge hanswers) kind

end Steady

/-! ## Behind a memo -/

/-- What holds of a memo and of the game behind it during a tick that began in `s`: the
memo knows nothing but answers of the game. -/
structure Remembers (game : Game σ) (s : σ) (c : Cached σ) : Prop where
  leads : game.Leads s c.source
  answers : ∀ key active, c.answers.get? key = some active → (game.event key s).1 = some active

theorem remembers_fresh (game : Game σ) (s : σ) : game.Remembers s (.fresh s) :=
  ⟨.refl, fun _ _ h => by cases h⟩

/-- An answer from the memo, or one that goes into it, is an answer of the game. -/
theorem Steady.event_cached {game : Game σ} {s : σ} (h : game.Steady s) {c : Cached σ}
    (hc : game.Remembers s c) (name : String) :
    (game.cached.event name c).1 = (game.event (Text.toLower name) s).1 ∧
      game.Remembers s (game.cached.event name c).2 := by
  have hasked := h.event_eq hc.leads (Text.toLower name)
  have hleads := hc.leads.event (Text.toLower name)
  unfold cached
  dsimp only
  split
  · next active hknown => exact ⟨(hc.answers _ _ hknown).symm, hc⟩
  · split
    · next active source heq =>
      rw [heq] at hasked hleads
      refine ⟨hasked, hleads, fun key known hknown => ?_⟩
      rw [Table.get?_insert] at hknown
      split at hknown
      · next hkey =>
        obtain rfl := Std.LawfulEqCmp.eq_of_compare hkey
        exact hasked.symm.trans hknown
      · exact hc.answers key known hknown
    · next source heq =>
      rw [heq] at hasked hleads
      exact ⟨hasked, hleads, hc.answers⟩

theorem Steady.agree_cached {game : Game σ} {s : σ} (h : game.Steady s) :
    Agree (fun c (_ : Unit) => game.Remembers s c) game.cached (game.answers s).folded.game where
  event name _ _ hc := h.event_cached hc name
  probe kind name _ _ hc :=
    ⟨h.probe_eq hc.leads kind name, hc.leads.probe kind name, hc.answers⟩
  gauge kind _ _ hc := ⟨h.gauge_eq hc.leads kind, hc.leads.gauge kind, hc.answers⟩

end Game

/-- The answers of a staged game do not depend on what it was asked. -/
theorem Stage.steady (stage : Stage) (asked : List Question) : stage.game.Steady asked :=
  fun _ _ => rfl

end Flipbook
