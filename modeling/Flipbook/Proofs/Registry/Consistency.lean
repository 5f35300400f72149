import Flipbook.Game.Staged
import Flipbook.Proofs.Playback.Consistency
import Flipbook.Proofs.Registry.History

/-!
# The states of a registry

Whatever is done to a registry, and whatever games its animations are played in,
every state in it is consistent with its segment: `Registry.consistent_run`. All
that is asked of the descriptions that are put in is that their ranges are playable.
-/
namespace Flipbook

/-- Whether all segments of a description are playable. -/
def Metadata.Playable (m : Metadata) : Prop := ∀ segment ∈ m.segments, segment.kind.Playable

namespace Animation

/-- Whether an animation plays what a description declares. -/
def Plays (a : Animation) (m : Metadata) : Prop :=
  a.header = m.header ∧ a.outlines = m.segments.map Segment.outline

theorem plays_start (m : Metadata) : (start m).Plays m := ⟨rfl, outlines_start m⟩

theorem plays_play {σ : Type} {a : Animation} {m : Metadata} (h : a.Plays m) (player : Player)
    (game : Game σ) (s : σ) : (a.play player game s).now.Plays m :=
  ⟨(header_play player game s a).trans h.1, (outlines_play player game s a).trans h.2⟩

/-- Each segment of the description has a track of its own. -/
theorem Plays.exists_track {a : Animation} {m : Metadata} (h : a.Plays m) {place : Nat}
    {segment : Segment} (hsegment : m.segments[place]? = some segment) :
    ∃ t, a.tracks[place]? = some t ∧ t.segment.outline = segment.outline := by
  have houtline : a.outlines[place]? = some segment.outline := by
    rw [h.2, List.getElem?_map, hsegment]
    rfl
  rw [outlines, List.getElem?_map] at houtline
  exact Option.map_eq_some_iff.1 houtline

/-- Each track belongs to a segment of the description. -/
theorem Plays.exists_segment {a : Animation} {m : Metadata} (h : a.Plays m) {place : Nat}
    {t : Track} (ht : a.tracks[place]? = some t) :
    ∃ segment, m.segments[place]? = some segment ∧ t.segment.outline = segment.outline := by
  have houtline : (m.segments.map Segment.outline)[place]? = some t.segment.outline := by
    rw [← h.2, outlines, List.getElem?_map, ht]
    rfl
  rw [List.getElem?_map] at houtline
  obtain ⟨segment, hsegment, heq⟩ := Option.map_eq_some_iff.1 houtline
  exact ⟨segment, hsegment, heq.symm⟩

/-- In a consistent animation there is one state for each segment, and it is consistent
with that segment. -/
theorem Consistent.states {a : Animation} (h : a.Consistent) :
    a.states.length = a.metadata.segments.length ∧
      ∀ (index : Nat) (segment : Segment) (state : SegmentState),
        a.metadata.segments[index]? = some segment → a.states[index]? = some state →
        state.Consistent segment.kind (a.metadata.effectiveFrametime index) ∧
          ∀ range ∈ segment.kind.range?, state.frame + 1 < Decimal.frameBound := by
  refine ⟨by simp [Animation.states, metadata], ?_⟩
  intro index segment state hsegment hstate
  have heffective : a.metadata.effectiveFrametime index =
      segment.effectiveFrametime a.header.frametime := by
    rw [Metadata.effectiveFrametime, hsegment]
    rfl
  simp only [metadata, Animation.states, List.getElem?_map, Option.map_eq_some_iff]
    at hsegment hstate
  obtain ⟨t, ht, rfl⟩ := hsegment
  obtain ⟨u, hu, rfl⟩ := hstate
  obtain rfl : t = u := Option.some.inj (ht.symm.trans hu)
  have hconsistent := h t (List.mem_of_getElem? ht)
  rw [heffective]
  exact ⟨hconsistent.state, fun range hrange =>
    hconsistent.state.shows.lt_frameBound hconsistent.playable hrange⟩

end Animation

namespace Registry

/-- After any history every animation plays the description that was put in for its
texture. It has one state for each segment, and that keeps to what the segment
declares; no frame counter leaves its bound. So the frame to show is zero or one that
a segment of the texture declares. -/
theorem consistent_run {history : List Operation}
    (h : ∀ op ∈ history, ∀ m ∈ op.registers?, m.Playable) :
    (∀ texture a, (run history).animations.get? texture = some a →
      (∃ op ∈ history, ∃ m ∈ op.registers?, m.header.texture = texture ∧ a.Plays m) ∧
      a.states.length = a.metadata.segments.length ∧
      ∀ (index : Nat) (segment : Segment) (state : SegmentState),
        a.metadata.segments[index]? = some segment → a.states[index]? = some state →
        state.Consistent segment.kind (a.metadata.effectiveFrametime index) ∧
          ∀ range ∈ segment.kind.range?, state.frame + 1 < Decimal.frameBound) ∧
    ∀ texture, (run history).currentFrame texture = 0 ∨
      ∃ m ∈ (run history).metadata? texture, ∃ segment ∈ m.segments,
        segment.kind.Shows ((run history).currentFrame texture) := by
  have hconsistent : ∀ {texture a}, (run history).animations.get? texture = some a →
      a.Consistent := by
    intro texture a
    refine run_induction (P := fun _ a => a.Consistent) ?_ ?_
    · intro op hop m hm
      exact Animation.consistent_start (h op hop m hm)
    · intro texture a ha σ player game s
      exact Animation.consistent_play player game s ha
  have hplays : ∀ {texture a}, (run history).animations.get? texture = some a →
      ∃ op ∈ history, ∃ m ∈ op.registers?, m.header.texture = texture ∧ a.Plays m := by
    intro texture a
    refine run_induction (P := fun texture a =>
      ∃ op ∈ history, ∃ m ∈ op.registers?, m.header.texture = texture ∧ a.Plays m) ?_ ?_
    · intro op hop m hm
      exact ⟨op, hop, m, hm, rfl, Animation.plays_start m⟩
    · intro texture a ha σ player game s
      obtain ⟨op, hop, m, hm, htexture, hplays⟩ := ha
      exact ⟨op, hop, m, hm, htexture, Animation.plays_play hplays player game s⟩
  refine ⟨fun texture a ha => ⟨hplays ha, (hconsistent ha).states⟩, fun texture => ?_⟩
  unfold currentFrame metadata?
  cases ha : (run history).animations.get? texture with
  | none => exact .inl rfl
  | some a =>
    obtain hzero | ⟨segment, hsegment, hshows⟩ := Animation.shows_currentFrame (hconsistent ha)
    · exact .inl hzero
    · exact .inr ⟨a.metadata, rfl, segment, hsegment, hshows⟩

/-- The condition that the player holds an umbrella. -/
def umbrella : Expression.Condition :=
  .build "umbrella" (some (.flat (.call "holding_item" [.text "umbrella"]))) .zeros

/-- A hit plays once; then a tick breaks off because the game crashes over the storm, and one
because it crashes over the umbrella. -/
def stormyHistory : List Operation :=
  [.register ⟨.plain ⟨"game", "sky"⟩ .block,
      [.fallback 9, .ofKind "hit" (.oneShot ⟨0, 1⟩ (.ofEvent "hit")),
        .ofKind "storm" (.sequence ⟨3, 4⟩ true false (.ofEvent "storm")),
        .ofKind "dry" (.singleFrame 6 (.ofCondition umbrella))]⟩,
    .tick .standard (Stage.game ⟨["hit"], [], [], [], [], 0, 0⟩) [],
    .tick .standard (Stage.game ⟨["hit"], [.event "storm"], [], [], [], 0, 0⟩) [],
    .tick .standard (Stage.game ⟨["storm"], [.probe .item "umbrella"], [], [], [], 0, 0⟩) []]

theorem playable_stormyHistory : ∀ op ∈ stormyHistory, ∀ m ∈ op.registers?, m.Playable := by
  intro op hop m hm
  simp only [stormyHistory, List.mem_cons, List.not_mem_nil, or_false] at hop
  rcases hop with rfl | rfl | rfl | rfl
  · cases hm
    intro segment hsegment range hrange
    simp only [List.mem_cons, List.not_mem_nil, or_false] at hsegment
    rcases hsegment with rfl | rfl | rfl | rfl
    · cases hrange
    · cases hrange
      decide
    · cases hrange
      decide
    · cases hrange
  · cases hm
  · cases hm
  · cases hm

theorem consistent_run_stormyHistory :
    ∃ a, (run stormyHistory).animations.get? ⟨"game", "sky"⟩ = some a ∧
      a.states = [⟨9, true, 0, false, 0⟩, ⟨1, false, 0, true, 0⟩, ⟨4, true, 0, false, 0⟩,
        ⟨6, false, 0, false, 0⟩] ∧
      ∀ (index : Nat) (segment : Segment) (state : SegmentState),
        a.metadata.segments[index]? = some segment → a.states[index]? = some state →
        state.Consistent segment.kind (a.metadata.effectiveFrametime index) := by
  have hstates : ((run stormyHistory).animations.get? ⟨"game", "sky"⟩).map Animation.states =
      some [⟨9, true, 0, false, 0⟩, ⟨1, false, 0, true, 0⟩, ⟨4, true, 0, false, 0⟩,
        ⟨6, false, 0, false, 0⟩] := by
    decide +kernel
  obtain ⟨a, ha, hstates⟩ := Option.map_eq_some_iff.1 hstates
  obtain ⟨-, -, hall⟩ := (consistent_run playable_stormyHistory).1 _ a ha
  refine ⟨a, ha, hstates, fun index segment state hsegment hstate => ?_⟩
  exact (hall index segment state hsegment hstate).1

end Registry
end Flipbook
