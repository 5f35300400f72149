import Flipbook.Proofs.Game.Steady
import Flipbook.Proofs.Playback.Consistency

/-!
# Games that do not crash

A game is calm in a state when it answers whatever it is asked, then and after any
questions. Nothing that is played in a calm game breaks off.

* `Game.Calm.evaluate`: a condition comes to a result.
* `Game.Calm.playAll`, `Game.Calm.playAnimation`: a tick of tracks and of an animation
  comes to its end.
* `Game.Calm.cached`: behind a memo a calm game is calm.
-/
namespace Flipbook

open Expression (Condition Halt Scope)

namespace Game

variable {σ : Type} {game : Game σ} {s t u : σ}

/-- A game agrees with itself, and stays in the states that its questions lead to. -/
theorem agree_self (game : Game σ) (s : σ) :
    Agree (fun t u => t = u ∧ game.Leads s t) game game where
  event name _ _ h := ⟨h.1 ▸ rfl, h.1 ▸ rfl, h.2.event name⟩
  probe kind name _ _ h := ⟨h.1 ▸ rfl, h.1 ▸ rfl, h.2.probe kind name⟩
  gauge kind _ _ h := ⟨h.1 ▸ rfl, h.1 ▸ rfl, h.2.gauge kind⟩

theorem leads_play (game : Game σ) (s : σ) (track : Track) (header : Header)
    (others : List Track) (scope : Scope) :
    game.Leads s (track.play header others scope game s).game :=
  ((game.agree_self s).play scope ⟨rfl, .refl⟩ track header others).game.2

theorem leads_playAnimation (game : Game σ) (s : σ) (a : Animation) (player : Player) :
    game.Leads s (a.play player game s).game :=
  ((game.agree_self s).playAnimation ⟨rfl, .refl⟩ a player).game.2

/-- Whether a game answers all questions from a state on. -/
def Calm (game : Game σ) (s : σ) : Prop :=
  ∀ t, game.Leads s t → ∀ question, ¬(game.ask question t).1.IsCrash

namespace Calm

theorem of_leads (h : game.Calm s) (ht : game.Leads s t) : game.Calm t :=
  fun u hu => h u (ht.trans hu)

/-- The answers of a calm game make a calm game again. -/
theorem answers (h : game.Calm s) : (game.answers s).folded.game.Calm () := by
  intro _ _ question
  cases question with
  | event name => exact h s .refl (.event (Text.toLower name))
  | probe kind name => exact h s .refl (.probe kind name)
  | gauge kind => exact h s .refl (.gauge kind)

/-! ## What comes to its end -/

theorem evaluate (h : game.Calm s) (c : Condition) (scope : Scope) :
    (c.evaluate scope game s).result ≠ none := by
  cases hprogram : c.program with
  | none =>
    rw [Condition.evaluate_of_not_program hprogram]
    nofun
  | some program =>
    have hcrash : ∀ question t u, t = u ∧ game.Leads s t → (game.ask question t).1.IsCrash →
        Halt.crashed ≠ .crashed :=
      fun question t u ht hcrashed => absurd hcrashed (h t ht.2 question)
    obtain ⟨-, -, hhalt⟩ := (game.agree_self s).run (H := (· ≠ .crashed)) scope c.elapsed hcrash
      (fun _ heq => nomatch heq) program ⟨s, c.memory, ∅, []⟩ ⟨s, c.memory, ∅, []⟩
      ⟨⟨rfl, .refl⟩, rfl, rfl, rfl⟩
    rw [Condition.evaluate_of_program hprogram]
    exact c.result_conclude_ne_none fun hcrashed => hhalt _ hcrashed rfl

theorem decide (h : game.Calm s) (trigger : Trigger) (scope : Scope) (standing : Bool) :
    (trigger.decide scope standing game s).wanted ≠ none := by
  unfold Trigger.decide
  split
  · next condition _ => exact h.evaluate condition scope
  · split
    · next name _ => exact h s .refl (.event name)
    · nofun

theorem play (h : game.Calm s) (track : Track) (header : Header) (others : List Track)
    (scope : Scope) : (track.play header others scope game s).crashed = false := by
  obtain ⟨-, heq⟩ | ⟨trigger, done, -, rfl, -, ⟨hwanted, -, -⟩ | ⟨-, -, hcrashed, -⟩⟩ :=
    track.play_cases header others scope game s
  · rw [heq]
  · exact absurd hwanted (h.decide trigger _ _)
  · exact hcrashed

theorem playAll (h : game.Calm s) (header : Header) (scope : Scope) (before tracks : List Track) :
    (Track.playAll header scope game before tracks s).crashed = false := by
  induction tracks generalizing before s with
  | nil => rfl
  | cons track rest ih =>
    rw [Track.playAll_cons]
    dsimp only
    rw [h.play track header (before ++ rest) scope, if_neg Bool.false_ne_true]
    exact ih (h.of_leads (game.leads_play s track header (before ++ rest) scope)) _

theorem playAnimation (h : game.Calm s) (a : Animation) (player : Player) :
    (a.play player game s).crashed = false := by
  unfold Animation.play
  split
  · split <;> rfl
  · exact h.playAll a.header (a.scope player) [] a.tracks

end Calm

/-! ## Behind a memo -/

/-- Questions to a memo lead the game behind it to states that questions lead to. -/
theorem Leads.source {c d : Cached σ} (h : game.cached.Leads c d) :
    game.Leads c.source d.source := by
  induction h with
  | refl => exact .refl
  | @ask d question _ ih =>
    cases question with
    | probe kind name => exact ih.probe kind name
    | gauge kind => exact ih.gauge kind
    | event name =>
      show game.Leads c.source (game.cached.event name d).2.source
      unfold Game.cached
      dsimp only
      split
      · exact ih
      · have hasked := ih.event (Text.toLower name)
        split
        · next heq =>
          rw [heq] at hasked
          exact hasked
        · next heq =>
          rw [heq] at hasked
          exact hasked

theorem Calm.cached (h : game.Calm s) : game.cached.Calm (.fresh s) := by
  intro c hc question
  cases question with
  | probe kind name => exact h c.source hc.source (.probe kind name)
  | gauge kind => exact h c.source hc.source (.gauge kind)
  | event name =>
    have hanswer := h c.source hc.source (.event (Text.toLower name))
    show (game.cached.event name c).1 ≠ none
    unfold Game.cached
    dsimp only
    split
    · nofun
    · split
      · nofun
      · next heq =>
        rw [Game.ask, heq] at hanswer
        exact absurd rfl hanswer

end Game

/-- A staged game crashes over no questions but those that make it crash. -/
theorem Stage.calm {stage : Stage} (h : stage.crashing = []) (asked : List Question) :
    stage.game.Calm asked := by
  intro t _ question
  have hreply {α : Type} (question : Question) (answer : α) :
      (stage.reply question answer t).1 ≠ none := by
    rw [Stage.reply, h, if_neg List.not_mem_nil]
    exact Option.some_ne_none _
  cases question <;> exact hreply _ _

end Flipbook
