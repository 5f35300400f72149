import Flipbook.Proofs.Playback.Consistency

/-!
# When a fallback shows

A fallback is active unless some other track outranks it. It is decided in its turn: the
tracks before it count as they are after the tick, and those behind it as they were
before. So a tick can leave no track active.

* `Track.getElem?_playAll`: each track is played beside those already played and those
  still to be played.
* `Animation.getElem?_play_fallback`: what becomes of a fallback.
* `Animation.blank_play_iff`: when a tick leaves no track active.
-/
namespace Flipbook

open Expression (Scope)

variable {σ : Type}

namespace Segment

/-- Only a fallback has no trigger. -/
theorem trigger?_eq_none_iff {s : Segment} : s.kind.trigger? = none ↔ s.isFallback = true := by
  obtain ⟨name, priority, frametime, kind⟩ := s
  cases kind <;> simp [SegmentKind.trigger?, isFallback]

end Segment

namespace Track

/-- The track with another activity. -/
def withActive (t : Track) (active : Bool) : Track :=
  { t with state := { t.state with active } }

/-- In a tick that comes to its end each track is played beside those before it, which
have been played, and those behind it, which have not. The induction is on the tracks
still to be played. -/
theorem getElem?_playAll {header : Header} {scope : Scope} {game : Game σ}
    {before tracks : List Track} {s : σ}
    (h : (playAll header scope game before tracks s).crashed = false) {i : Nat} {t : Track}
    (ht : tracks[i]? = some t) :
    ∃ s', (playAll header scope game before tracks s).now[i]? =
      some (t.play header
        (before ++ ((playAll header scope game before tracks s).now.take i ++ tracks.drop (i + 1)))
        scope game s').now := by
  induction tracks generalizing before s i with
  | nil => cases ht
  | cons u rest ih =>
    rw [playAll_cons] at h ⊢
    dsimp only at h ⊢
    split at h
    · cases h
    · next hfirst =>
      rw [if_neg hfirst]
      cases i with
      | zero =>
        obtain rfl : u = t := Option.some.inj ht
        refine ⟨s, ?_⟩
        rw [List.take_zero, List.drop_succ_cons, List.drop_zero, List.nil_append,
          List.getElem?_cons_zero]
      | succ i =>
        obtain ⟨s', heq⟩ := ih h ht
        refine ⟨s', ?_⟩
        rw [List.getElem?_cons_succ, heq, List.take_succ_cons, List.drop_succ_cons,
          List.append_assoc, List.cons_append, List.nil_append, List.cons_append]

/-- No track leads exactly when none is active. -/
theorem leader?_eq_none_iff {tracks : List Track} :
    leader? tracks = none ↔ ∀ t ∈ tracks, t.state.active = false := by
  induction tracks with
  | nil => exact iff_of_true rfl (List.forall_mem_nil _)
  | cons t rest ih =>
    rw [List.forall_mem_cons, ← ih, leader?]
    split
    · next hnone => simp [hnone]
    · next u hsome =>
      rw [hsome]
      split <;> simp

end Track

namespace Animation

variable {a : Animation} {player : Player} {game : Game σ} {s : σ}

/-- Whether no track of an animation is active. -/
def Blank (a : Animation) : Prop := ∀ t ∈ a.tracks, t.state.active = false

/-- What is not blank shows the frame of an active track. -/
theorem currentFrame_of_not_blank (hsource : a.header.source ≠ .vanilla) (h : ¬a.Blank) :
    ∃ t ∈ a.tracks, t.state.active = true ∧ a.currentFrame = t.state.frame := by
  cases hleader : Track.leader? a.tracks with
  | none => exact absurd (Track.leader?_eq_none_iff.1 hleader) h
  | some t =>
    obtain ⟨hmem, hactive⟩ := Track.mem_of_leader? hleader
    refine ⟨t, hmem, hactive, ?_⟩
    rw [currentFrame_of_ne_vanilla hsource, hleader]
    rfl

variable {place : Nat} {t : Track}

theorem getElem?_play (hsource : a.header.source ≠ .vanilla)
    (hdone : (a.play player game s).crashed = false) (ht : a.tracks[place]? = some t) :
    ∃ s', (a.play player game s).now.tracks[place]? =
      some (t.play a.header
        ((a.play player game s).now.tracks.take place ++ a.tracks.drop (place + 1))
        (a.scope player) game s').now := by
  rw [play_of_ne_vanilla hsource] at hdone ⊢
  obtain ⟨s', heq⟩ := Track.getElem?_playAll hdone ht
  rw [List.nil_append] at heq
  exact ⟨s', heq⟩

/-- After a tick a fallback is active unless it is outranked by a track before it, as that
is now, or by a track behind it, as that was. -/
theorem getElem?_play_fallback (hsource : a.header.source ≠ .vanilla)
    (hdone : (a.play player game s).crashed = false) (ht : a.tracks[place]? = some t)
    (hfallback : t.segment.kind.trigger? = none) :
    (a.play player game s).now.tracks[place]? =
      some (t.withActive
        !((a.play player game s).now.tracks.take place ++ a.tracks.drop (place + 1)).any
          (Track.outranks t.segment.priority)) := by
  obtain ⟨s', heq⟩ := getElem?_play hsource hdone ht
  rw [heq, Track.play_of_not_trigger? hfallback]
  rfl

/-- Beside a fallback a tick leaves no track active when it ends all others, and one of
those behind the fallback was still active before and outranks it. -/
theorem blank_play_iff (hsource : a.header.source ≠ .vanilla)
    (hdone : (a.play player game s).crashed = false) (ht : a.tracks[place]? = some t)
    (hfallback : t.segment.kind.trigger? = none) :
    (a.play player game s).now.Blank ↔
      (∀ i u, i ≠ place → (a.play player game s).now.tracks[i]? = some u →
        u.state.active = false) ∧
      ∃ i u, place < i ∧ a.tracks[i]? = some u ∧ u.outranks t.segment.priority = true := by
  have hnow := getElem?_play_fallback hsource hdone ht hfallback
  simp only [Blank]
  generalize (a.play player game s).now.tracks = tracks at hnow ⊢
  constructor
  · intro hblank
    refine ⟨fun i u _ hu => hblank u (List.mem_of_getElem? hu), ?_⟩
    have hinactive := hblank _ (List.mem_of_getElem? hnow)
    simp only [Track.withActive, Bool.not_eq_false', List.any_append, Bool.or_eq_true] at hinactive
    obtain hbefore | hbehind := hinactive
    · -- nothing before the fallback is active any more
      obtain ⟨u, hu, houtranks⟩ := List.any_eq_true.1 hbefore
      have hactive := (Bool.and_eq_true_iff.1 houtranks).2
      exact absurd ((hblank u (List.mem_of_mem_take hu)).symm.trans hactive) Bool.false_ne_true
    · obtain ⟨u, hu, houtranks⟩ := List.any_eq_true.1 hbehind
      obtain ⟨j, hj⟩ := List.mem_iff_getElem?.1 hu
      rw [List.getElem?_drop] at hj
      exact ⟨place + 1 + j, u, by omega, hj, houtranks⟩
  · rintro ⟨hothers, i, u, hi, hu, houtranks⟩ v hv
    obtain ⟨j, hj⟩ := List.mem_iff_getElem?.1 hv
    by_cases hplace : j = place
    · obtain rfl : _ = v := Option.some.inj (hnow.symm.trans (hplace ▸ hj))
      have hmem : u ∈ a.tracks.drop (place + 1) := by
        refine List.mem_iff_getElem?.2 ⟨i - (place + 1), ?_⟩
        rw [List.getElem?_drop, Nat.add_sub_cancel' hi]
        exact hu
      have hany : (a.tracks.drop (place + 1)).any (Track.outranks t.segment.priority) = true :=
        List.any_eq_true.2 ⟨u, hmem, houtranks⟩
      simp [Track.withActive, hany]
    · exact hothers j v hplace hj

end Animation
end Flipbook
