import Flipbook.Proofs.Game.Steady
import Flipbook.Proofs.Registry.History

/-!
# Textures do not disturb each other

All textures of a registry are ticked behind one memo of event answers, one after the
other, and some of their ticks may break off. As long as the game keeps to its answers
during the tick none of this can be seen in the animation of a texture, in its states
or in what its conditions remember.

* `Registry.visit`: a tick that visits the textures in any given order.
* `Registry.visit_eq_map`: what comes of each texture is its own matter.
* `Registry.tick_alone`: a texture comes out of a tick as it would if it were alone
  in the registry, and in any order of visits all textures come out the same.
-/
namespace Flipbook

/-- What a tick makes of an animation when the game gives some answers throughout. -/
def Animation.after (a : Animation) (player : Player) (answers : Answers) : Animation :=
  (a.play player answers.game ()).now

namespace Registry

variable {σ : Type}

/-- The registry that holds one texture alone. -/
def single (texture : Texture) (a : Animation) : Registry :=
  ⟨(∅ : Table Texture Animation).insert texture a⟩

theorem entries_single (texture : Texture) (a : Animation) :
    (single texture a).animations.entries = [(texture, a)] := rfl

/-- Plays animations for one tick, one after the other in the given order. -/
def visit (player : Player) (game : Game σ) (s : σ) (order : List (Texture × Animation)) :
    List (Texture × Animation) :=
  (Table.mapFoldEntries (playOne player game.cached) order (.fresh s, [])).1

/-- A tick visits the textures in their own order. -/
theorem entries_tick (r : Registry) (player : Player) (game : Game σ) (s : σ) :
    (r.tick player game s).value.1.animations.entries =
      visit player game s r.animations.entries := rfl

/-- In a steady game each visit does what it would do on its own, whatever the memo
holds by then: the induction carries along that it holds answers of the game only. -/
theorem mapFoldEntries_playOne {game : Game σ} {s : σ} (hs : game.Steady s) (player : Player)
    (order : List (Texture × Animation)) {c : Cached σ} (hc : game.Remembers s c)
    (notices : List Notice) :
    (Table.mapFoldEntries (playOne player game.cached) order (c, notices)).1 =
      order.map fun e => (e.1, e.2.after player (game.answers s).folded) := by
  induction order generalizing c notices with
  | nil => rfl
  | cons e order ih =>
    have hplayed : Played.Match _ (e.2.play player game.cached c)
        (e.2.play player (game.answers s).folded.game ()) :=
      hs.agree_cached.playAnimation hc e.2 player
    rw [List.map_cons, ← ih hplayed.game]
    show (e.1, (e.2.play player game.cached c).now) :: _ = _
    rw [hplayed.now]
    rfl

theorem visit_eq_map {game : Game σ} {s : σ} (hs : game.Steady s) (player : Player)
    (order : List (Texture × Animation)) :
    visit player game s order =
      order.map fun e => (e.1, e.2.after player (game.answers s).folded) :=
  mapFoldEntries_playOne hs player order (game.remembers_fresh s) []

/-- In a steady game a tick leaves every texture with the animation, its states and what
its conditions remember, that the same tick leaves it with in a registry of its own; a
crash over one texture is no exception. And in whatever order the textures are visited,
all of them come out the same. -/
theorem tick_alone {game : Game σ} {s : σ} (hs : game.Steady s) (r : Registry)
    (player : Player) :
    (∀ texture a, r.animations.get? texture = some a →
      ∃ b, (r.tick player game s).value.1.animations.get? texture = some b ∧
        ((single texture a).tick player game s).value.1.animations.get? texture = some b) ∧
    ∀ order : List (Texture × Animation), order.Perm r.animations.entries →
      (visit player game s order).Perm (r.tick player game s).value.1.animations.entries := by
  constructor
  · intro texture a ha
    refine ⟨a.after player (game.answers s).folded, ?_, ?_⟩
    · rw [Table.get?_eq_some_iff, entries_tick, visit_eq_map hs]
      exact List.mem_map_of_mem (Table.get?_eq_some_iff.1 ha)
    · rw [Table.get?_eq_some_iff, entries_tick, visit_eq_map hs, entries_single]
      exact List.mem_singleton_self _
  · intro order horder
    rw [entries_tick, visit_eq_map hs, visit_eq_map hs]
    exact horder.map _

/-- The game crashes over lightning, and with it the tick of a lamp; a clock goes on. -/
def stormyRegistry : Registry :=
  run
    [.register ⟨.plain ⟨"game", "clock"⟩ .sectioned,
      [.ofKind "spin" (.sequence ⟨0, 3⟩ true false .none)]⟩,
    .register ⟨.plain ⟨"game", "lamp"⟩ .sectioned,
      [.ofKind "flash" (.singleFrame 3 (.ofEvent "Lightning")), .fallback 1]⟩]

/-- The game in which lightning cannot be asked about. -/
def stormyGame : Game (List Question) :=
  Stage.game ⟨["rain"], [.event "lightning"], [], [], [], 0, 0⟩

theorem tick_alone_stormyRegistry :
    stormyGame.Steady [] ∧
    ∃ a b, stormyRegistry.animations.get? ⟨"game", "clock"⟩ = some a ∧
      (stormyRegistry.tick .standard stormyGame []).value.1.animations.get? ⟨"game", "clock"⟩ =
        some b ∧
      ((single ⟨"game", "clock"⟩ a).tick .standard stormyGame []).value.1.animations.get?
        ⟨"game", "clock"⟩ = some b ∧
      b.states = [⟨1, true, 0, false, 0⟩] ∧
      (stormyRegistry.tick .standard stormyGame []).notices =
        [.activated .sequence "spin" ⟨"game", "clock"⟩, .tickAborted ⟨"game", "lamp"⟩] := by
  have hsteady : stormyGame.Steady [] := Stage.steady _ _
  have hstart : (stormyRegistry.animations.get? ⟨"game", "clock"⟩).isSome = true := by
    decide +kernel
  have hstates : ((stormyRegistry.tick .standard stormyGame []).value.1.animations.get?
      ⟨"game", "clock"⟩).map Animation.states = some [⟨1, true, 0, false, 0⟩] := by
    decide +kernel
  obtain ⟨a, ha⟩ := Option.isSome_iff_exists.1 hstart
  obtain ⟨b, hb, halone⟩ := (tick_alone hsteady stormyRegistry .standard).1 _ a ha
  rw [hb] at hstates
  exact ⟨hsteady, a, b, ha, hb, halone, Option.some.inj hstates, by rfl⟩

end Registry
end Flipbook
