import Flipbook.Proofs.Playback.Fallback
import Flipbook.Proofs.Registry.Ticks

/-!
# Segments do not disturb each other

What a segment with a trigger does, and what its condition remembers, depends on that
segment alone, on the player and the game, and on the greatest frame at which a range of
the animation ends. The order in which the segments are visited does not matter, nor
does where a fallback stands among them: `Registry.tracks_eq_of_perm`.

* `Animation.Rearranged`: animations that have the same segments in another order.
* `Animation.Rearranged.exists_track`: a tick of both takes a track of both to one track
  again.
-/
namespace Flipbook

open Expression (Scope)

namespace Track

variable {σ : Type} {header header' : Header}

/-- Of the header a track takes nothing but the time of a frame. -/
theorem now_playWanted (h : header.frametime = header'.frametime) (t : Track) (trigger : Trigger)
    (scope : Scope) (game : Game σ) (s : σ) :
    (t.playWanted trigger header scope game s).now =
      (t.playWanted trigger header' scope game s).now := by
  simp only [playWanted, h]
  split <;> rfl

end Track

/-! ## Animations of the same segments -/

namespace Animation

/-- Animations that declare the same segments in any order, and the same time of a frame. -/
structure Rearranged (a b : Animation) : Prop where
  left : a.header.source ≠ .vanilla
  right : b.header.source ≠ .vanilla
  frametime : a.header.frametime = b.header.frametime
  outlines : a.outlines.Perm b.outlines

namespace Rearranged

variable {a b : Animation}

theorem after (h : a.Rearranged b) (player : Player) (answers : Answers) :
    (a.after player answers).Rearranged (b.after player answers) := by
  constructor
  · rw [Animation.after, header_play]
    exact h.left
  · rw [Animation.after, header_play]
    exact h.right
  · rw [Animation.after, Animation.after, header_play, header_play]
    exact h.frametime
  · rw [Animation.after, Animation.after, outlines_play, outlines_play]
    exact h.outlines

/-- A tick takes a track that both have to a track that both have, unless it is a fallback. -/
theorem exists_track (h : a.Rearranged b) (player : Player) {answers : Answers}
    (hcalm : answers.game.Calm ()) {i j : Nat} {t : Track} (hi : a.tracks[i]? = some t)
    (hj : b.tracks[j]? = some t) (ht : t.segment.isFallback = false) :
    ∃ u, (a.after player answers).tracks[i]? = some u ∧
      (b.after player answers).tracks[j]? = some u ∧ u.segment.isFallback = false := by
  obtain ⟨⟨⟩, hleft⟩ := getElem?_play h.left (hcalm.playAnimation a player) hi
  obtain ⟨⟨⟩, hright⟩ := getElem?_play h.right (hcalm.playAnimation b player) hj
  cases htrigger : t.segment.kind.trigger? with
  | none =>
    rw [Segment.trigger?_eq_none_iff, ht] at htrigger
    cases htrigger
  | some trigger =>
    refine ⟨_, hleft, ?_, ?_⟩
    · rw [Animation.after, hright, Track.play_of_trigger? htrigger, Track.play_of_trigger? htrigger,
        scope_eq_of_perm h.outlines, Track.now_playWanted h.frametime]
    · rw [← Segment.isFallback_outline, Track.outline_play, Segment.isFallback_outline]
      exact ht

end Rearranged

/-- Animations of two descriptions that have the same track wherever the descriptions have
the same segment, unless that is a fallback. -/
structure Alike (m m' : Metadata) (a b : Animation) : Prop extends a.Rearranged b where
  exists_common : ∀ (i j : Nat) (segment : Segment), m.segments[i]? = some segment →
    m'.segments[j]? = some segment → segment.isFallback = false →
    ∃ t, a.tracks[i]? = some t ∧ b.tracks[j]? = some t ∧ t.segment.isFallback = false

theorem alike_start {m m' : Metadata} (hsource : m.header.source ≠ .vanilla)
    (hsource' : m'.header.source ≠ .vanilla) (hframetime : m.header.frametime = m'.header.frametime)
    (hperm : m.segments.Perm m'.segments) : Alike m m' (start m) (start m') where
  left := hsource
  right := hsource'
  frametime := hframetime
  outlines := by
    rw [outlines_start, outlines_start]
    exact hperm.map _
  exists_common i j segment hi hj hsegment := by
    refine ⟨.start segment, ?_, ?_, hsegment⟩
    · rw [start, List.getElem?_map, hi]
      rfl
    · rw [start, List.getElem?_map, hj]
      rfl

theorem Alike.after {m m' : Metadata} {a b : Animation} (h : Alike m m' a b) (player : Player)
    {answers : Answers} (hcalm : answers.game.Calm ()) :
    Alike m m' (a.after player answers) (b.after player answers) where
  toRearranged := h.toRearranged.after player answers
  exists_common i j segment hi hj hsegment := by
    obtain ⟨t, ht, ht', hfallback⟩ := h.exists_common i j segment hi hj hsegment
    exact h.exists_track player hcalm ht ht' hfallback

end Animation

/-! ## Runs of ticks -/

namespace Registry

/-- Take two textures, in one registry or in two, that have just got animations of the same
segments in different orders, not vanilla ones, with the same time of a frame. However often
both tick, with the same players and in the same games, which keep to their answers within a
tick and do not crash: a segment with a trigger is in the same state in both, and what its
condition remembers is the same. -/
theorem tracks_eq_of_perm {r r' : Registry} {texture texture' : Texture} {m m' : Metadata}
    (hm : r.animations.get? texture = some (.start m))
    (hm' : r'.animations.get? texture' = some (.start m')) (hsource : m.header.source ≠ .vanilla)
    (hsource' : m'.header.source ≠ .vanilla) (hframetime : m.header.frametime = m'.header.frametime)
    (hperm : m.segments.Perm m'.segments) {ticks : List Operation}
    (hticks : ∀ op ∈ ticks, op.isTick = true ∧ op.Steady ∧ op.Calm) :
    ∃ a a', (ticks.foldl apply r).animations.get? texture = some a ∧
      (ticks.foldl apply r').animations.get? texture' = some a' ∧
      ∀ (i j : Nat) (segment : Segment), m.segments[i]? = some segment →
        m'.segments[j]? = some segment → segment.isFallback = false →
        ∃ t, a.tracks[i]? = some t ∧ a'.tracks[j]? = some t := by
  have hsteady : ∀ op ∈ ticks, op.Steady := fun op hop => (hticks op hop).2.1
  rw [get?_foldl_apply hsteady, get?_foldl_apply hsteady, hm, hm']
  obtain ⟨a, a', ha, ha', halike⟩ := Operation.exists_foldl_effect
    (fun op hop => (hticks op hop).1)
    (fun player game s hmem a b h => h.after player (Game.Calm.answers (hticks _ hmem).2.2))
    (Animation.alike_start hsource hsource' hframetime hperm) texture texture'
  refine ⟨a, a', ha, ha', fun i j segment hi hj hsegment => ?_⟩
  obtain ⟨t, ht, ht', -⟩ := halike.exists_common i j segment hi hj hsegment
  exact ⟨t, ht, ht'⟩

/-- A wheel that turns when a flash is over. -/
def wheel : Segment :=
  .ofKind "wheel" (.sequence ⟨1, 3⟩ true false
    (.ofCondition (Expression.Condition.read "event_end(flash)" .zeros).value))

/-- A frame that is shown at a flash. -/
def flash : Segment := .ofKind "flash" (.singleFrame 4 (.ofEvent "flash"))

/-- Two textures with the same segments in different orders. -/
def twinRegistry : Registry :=
  run
    [.register ⟨.plain ⟨"game", "clock"⟩ .sectioned, [.fallback 9, wheel, flash]⟩,
    .register ⟨.plain ⟨"game", "watch"⟩ .block, [flash, .fallback 9, wheel]⟩]

theorem states_twinRegistry :
    (([.staged ["flash"], .staged []].foldl apply twinRegistry).animations.get?
        ⟨"game", "clock"⟩).map Animation.states =
      some [⟨9, false, 0, false, 0⟩, ⟨2, true, 0, false, 0⟩, ⟨4, false, 0, false, 0⟩] ∧
    (([.staged ["flash"], .staged []].foldl apply twinRegistry).animations.get?
        ⟨"game", "watch"⟩).map Animation.states =
      some [⟨4, false, 0, false, 0⟩, ⟨9, true, 0, false, 0⟩, ⟨2, true, 0, false, 0⟩] := by
  decide +kernel

/-- Both wheels turn, in the same state and with the same memory of the flash, while only one
of the fallbacks is active. -/
theorem tracks_eq_of_perm_twinRegistry :
    ∃ a a' t,
      ([.staged ["flash"], .staged []].foldl apply twinRegistry).animations.get?
        ⟨"game", "clock"⟩ = some a ∧
      ([.staged ["flash"], .staged []].foldl apply twinRegistry).animations.get?
        ⟨"game", "watch"⟩ = some a' ∧
      a.tracks[1]? = some t ∧ a'.tracks[2]? = some t ∧
      a.states = [⟨9, false, 0, false, 0⟩, ⟨2, true, 0, false, 0⟩, ⟨4, false, 0, false, 0⟩] ∧
      a'.states = [⟨4, false, 0, false, 0⟩, ⟨9, true, 0, false, 0⟩, ⟨2, true, 0, false, 0⟩] := by
  have hclock : twinRegistry.animations.get? ⟨"game", "clock"⟩ = some
      (.start ⟨.plain ⟨"game", "clock"⟩ .sectioned, [.fallback 9, wheel, flash]⟩) := rfl
  have hwatch : twinRegistry.animations.get? ⟨"game", "watch"⟩ = some
      (.start ⟨.plain ⟨"game", "watch"⟩ .block, [flash, .fallback 9, wheel]⟩) := rfl
  have hperm : ([.fallback 9, wheel] ++ [flash]).Perm ([flash] ++ [.fallback 9, wheel]) :=
    List.perm_append_comm
  have hticks : ∀ op ∈ [Operation.staged ["flash"], .staged []],
      op.isTick = true ∧ op.Steady ∧ op.Calm :=
    List.forall_mem_cons.2 ⟨⟨rfl, Operation.steady_staged _, Operation.calm_staged _⟩,
      List.forall_mem_singleton.2 ⟨rfl, Operation.steady_staged _, Operation.calm_staged _⟩⟩
  obtain ⟨a, a', ha, ha', hcommon⟩ :=
    tracks_eq_of_perm hclock hwatch nofun nofun rfl hperm hticks
  obtain ⟨t, ht, ht'⟩ := hcommon 1 2 wheel rfl rfl rfl
  obtain ⟨hstates, hstates'⟩ := states_twinRegistry
  rw [ha] at hstates
  rw [ha'] at hstates'
  exact ⟨a, a', t, ha, ha', ht, ht', Option.some.inj hstates, Option.some.inj hstates'⟩

end Registry
end Flipbook
