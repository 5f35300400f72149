import Flipbook.Proofs.Playback.Fallback
import Flipbook.Proofs.Registry.Ticks

/-!
# Textures that go blank

A texture with a fallback can be left without an active segment: the fallback gives way
to a segment behind it that ends in the same tick. `Registry.blank_tick_iff` says that
this is the only way, and that the next tick ends it.
-/
namespace Flipbook

namespace Registry

/-- Take a texture that has just got an animation with a fallback, not a vanilla one, and
let it tick in games that do not crash. A tick leaves it without an active segment exactly
when all other segments are inactive afterwards while one behind the fallback, and of
higher priority, was active before. The next tick never does that again, and no tick does
it to a fallback that stands behind all segments of higher priority. Otherwise the frame of
an active segment is shown. -/
theorem blank_tick_iff {r : Registry} {texture : Texture} {m : Metadata}
    (hm : r.animations.get? texture = some (.start m)) (hsource : m.header.source ≠ .vanilla)
    {place : Nat} {fallback : Segment} (hplace : m.segments[place]? = some fallback)
    (hfallback : fallback.isFallback = true) {ticks : List Operation}
    (hticks : ∀ op ∈ ticks, op.isTick = true ∧ op.Calm) {tick : Operation}
    (htick : tick.isTick = true ∧ tick.Calm) :
    ∃ before after, (ticks.foldl apply r).animations.get? texture = some before ∧
      ((ticks.foldl apply r).apply tick).animations.get? texture = some after ∧
      (after.Blank ↔
        (∀ i t, i ≠ place → after.tracks[i]? = some t → t.state.active = false) ∧
        ∃ i t, place < i ∧ before.tracks[i]? = some t ∧ t.outranks fallback.priority = true) ∧
      (before.Blank → ¬after.Blank) ∧
      ((∀ i segment, place < i → m.segments[i]? = some segment →
        segment.priority ≤ fallback.priority) → ¬after.Blank) ∧
      (¬after.Blank →
        ∃ t ∈ after.tracks, t.state.active = true ∧ after.currentFrame = t.state.frame) := by
  obtain ⟨before, hbefore, hplays⟩ := exists_plays_foldl hticks hm (Animation.plays_start m)
  obtain ⟨σ, player, game, s, hcalm, hafter⟩ :=
    get?_apply_of_calm htick.1 htick.2 (ticks.foldl apply r) texture
  rw [hbefore] at hafter
  obtain ⟨t, ht, houtline⟩ := hplays.exists_track hplace
  have hpriority : t.segment.priority = fallback.priority := by
    rw [← Segment.priority_outline, houtline, Segment.priority_outline]
  have hidle : t.segment.kind.trigger? = none := by
    rw [Segment.trigger?_eq_none_iff, ← Segment.isFallback_outline, houtline,
      Segment.isFallback_outline]
    exact hfallback
  have hbeyond : before.header.source ≠ .vanilla := by
    rw [hplays.1]
    exact hsource
  have hblank := Animation.blank_play_iff hbeyond (hcalm.playAnimation before player) ht hidle
  rw [hpriority] at hblank
  refine ⟨before, _, hbefore, hafter, hblank, ?_, ?_, ?_⟩
  · intro hbefore hafter
    obtain ⟨-, i, u, -, hu, houtranks⟩ := hblank.1 hafter
    have hactive := (Bool.and_eq_true_iff.1 houtranks).2
    exact Bool.false_ne_true ((hbefore u (List.mem_of_getElem? hu)).symm.trans hactive)
  · intro hlast hafter
    obtain ⟨-, i, u, hi, hu, houtranks⟩ := hblank.1 hafter
    obtain ⟨segment, hsegment, heq⟩ := hplays.exists_segment hu
    have hle : u.segment.priority ≤ fallback.priority := by
      rw [← Segment.priority_outline, heq]
      exact hlast i segment hi hsegment
    have hlt := of_decide_eq_true (Bool.and_eq_true_iff.1 houtranks).1
    omega
  · refine Animation.currentFrame_of_not_blank ?_
    rw [Animation.header_play]
    exact hbeyond

/-! ## A flash behind a fallback -/

/-- A fallback, and behind it a frame that is shown at a flash. -/
def flashMetadata : Metadata :=
  ⟨.plain ⟨"minecraft", "item/clock"⟩ .sectioned,
    [.fallback 9, .ofKind "flash" (.singleFrame 4 (.ofEvent "flash"))]⟩

/-- The registry with the flash alone. -/
def flashRegistry : Registry := run [.register flashMetadata]

theorem states_flashRegistry :
    (([.staged ["flash"]].foldl apply flashRegistry).animations.get?
        ⟨"minecraft", "item/clock"⟩).map Animation.states =
      some [⟨9, true, 0, false, 0⟩, ⟨4, true, 0, false, 0⟩] ∧
    (([.staged ["flash"], .staged []].foldl apply flashRegistry).animations.get?
        ⟨"minecraft", "item/clock"⟩).map (fun a => (a.states, a.currentFrame)) =
      some ([⟨9, false, 0, false, 0⟩, ⟨4, false, 0, false, 0⟩], 0) := by
  decide +kernel

/-- When the flash ends, the fallback gives way to it once more. -/
theorem blank_tick_iff_flash :
    ∃ before after,
      ([.staged ["flash"]].foldl apply flashRegistry).animations.get?
        ⟨"minecraft", "item/clock"⟩ = some before ∧
      (([.staged ["flash"]].foldl apply flashRegistry).apply (.staged [])).animations.get?
        ⟨"minecraft", "item/clock"⟩ = some after ∧
      before.states = [⟨9, true, 0, false, 0⟩, ⟨4, true, 0, false, 0⟩] ∧
      after.states = [⟨9, false, 0, false, 0⟩, ⟨4, false, 0, false, 0⟩] ∧
      (after.Blank ↔
        (∀ i t, i ≠ 0 → after.tracks[i]? = some t → t.state.active = false) ∧
        ∃ i t, 0 < i ∧ before.tracks[i]? = some t ∧ t.outranks (-1000) = true) := by
  have hstart : flashRegistry.animations.get? ⟨"minecraft", "item/clock"⟩ =
      some (.start flashMetadata) := rfl
  have hplace : flashMetadata.segments[0]? = some (.fallback 9) := rfl
  have hticks : ∀ op ∈ [Operation.staged ["flash"]], op.isTick = true ∧ op.Calm :=
    List.forall_mem_singleton.2 ⟨rfl, Operation.calm_staged _⟩
  obtain ⟨before, after, hbefore, hafter, hblank, -, -, -⟩ :=
    blank_tick_iff hstart nofun hplace rfl hticks ⟨rfl, Operation.calm_staged _⟩
  obtain ⟨hlit, hdark⟩ := states_flashRegistry
  rw [hbefore] at hlit
  rw [List.foldl_cons, List.foldl_cons, List.foldl_nil] at hdark
  rw [List.foldl_cons, List.foldl_nil] at hafter
  rw [hafter] at hdark
  exact ⟨before, after, hbefore, hafter, Option.some.inj hlit,
    congrArg Prod.fst (Option.some.inj hdark), hblank⟩

/-- So a fallback does not keep a texture from going blank: it shows frame zero, which is
none of its own. -/
theorem not_forall_exists_active :
    ([.staged ["flash"], .staged []].foldl apply flashRegistry).currentFrame
        ⟨"minecraft", "item/clock"⟩ = 0 ∧
    ¬∀ (m : Metadata) (ticks : List Operation) (a : Animation), m.validated = .ok m →
      m.header.source ≠ .vanilla → (∃ segment ∈ m.segments, segment.isFallback = true) →
      (∀ op ∈ ticks, op.isTick = true ∧ op.Calm) →
      (ticks.foldl apply (run [.register m])).animations.get? m.header.texture = some a →
      ∃ t ∈ a.tracks, t.state.active = true := by
  obtain ⟨a, ha, hshown⟩ := Option.map_eq_some_iff.1 states_flashRegistry.2
  obtain ⟨hstates, hframe⟩ := Prod.mk.inj hshown
  constructor
  · rw [currentFrame, ha]
    exact hframe
  · intro hall
    have hticks : ∀ op ∈ [Operation.staged ["flash"], .staged []], op.isTick = true ∧ op.Calm :=
      List.forall_mem_cons.2
        ⟨⟨rfl, Operation.calm_staged _⟩, List.forall_mem_singleton.2 ⟨rfl, Operation.calm_staged _⟩⟩
    obtain ⟨t, ht, hactive⟩ := hall flashMetadata [.staged ["flash"], .staged []] a rfl
      nofun ⟨_, List.mem_cons_self, rfl⟩ hticks ha
    have hstate : t.state ∈ a.states := List.mem_map_of_mem ht
    rw [hstates] at hstate
    simp only [List.mem_cons, List.not_mem_nil, or_false] at hstate
    obtain h | h := hstate
    · rw [h] at hactive
      cases hactive
    · rw [h] at hactive
      cases hactive

end Registry
end Flipbook
