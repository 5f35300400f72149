import Flipbook.Game.Staged
import Flipbook.Proofs.Playback.Fallback

/-!
# Which frame is shown

Of the active tracks the one of highest priority is shown, and the first of several. A
fallback is no exception. It takes part like any other track when it is active, and that is
settled in its turn, so that the tracks before it count as they are after the tick and those
behind it as they were before.

* `Track.LeadsAt`, `Track.leader?_eq_some_iff`: the track that leads.
* `Track.outranked_iff`: the tracks that keep a fallback inactive.
* `Animation.selection_play`: which tracks a tick leaves active, and which of them shows.
-/
namespace Flipbook

variable {σ : Type}

namespace Track

/-- Whether the track at a place leads: it is active, and what else is active has a lower
priority, or the same one and a later place. -/
structure LeadsAt (tracks : List Track) (place : Nat) (t : Track) : Prop where
  getElem? : tracks[place]? = some t
  active : t.state.active = true
  outmatches : ∀ i u, tracks[i]? = some u → u.state.active = true →
    u.segment.priority < t.segment.priority ∨
      u.segment.priority = t.segment.priority ∧ place ≤ i

/-- Only one track leads. -/
theorem LeadsAt.unique {tracks : List Track} {place place' : Nat} {t t' : Track}
    (h : LeadsAt tracks place t) (h' : LeadsAt tracks place' t') : t = t' := by
  have hle := h.outmatches place' t' h'.getElem? h'.active
  have hge := h'.outmatches place t h.getElem? h.active
  obtain rfl : place = place' := by omega
  exact Option.some.inj (h.getElem?.symm.trans h'.getElem?)

/-- A leader of the tracks behind an active one leads all of them unless that one has no
lower priority. -/
theorem LeadsAt.cons {t u : Track} {rest : List Track} {place : Nat} (h : LeadsAt rest place u)
    (ht : t.state.active = true → t.segment.priority < u.segment.priority) :
    LeadsAt (t :: rest) (place + 1) u := by
  refine ⟨h.getElem?, h.active, fun i v hv hactive => ?_⟩
  cases i with
  | zero =>
    obtain rfl : t = v := Option.some.inj hv
    exact .inl (ht hactive)
  | succ i =>
    exact (h.outmatches i v hv hactive).imp_right fun heq => ⟨heq.1, Nat.succ_le_succ heq.2⟩

/-- The first track leads if it is active and no active track has a higher priority. -/
theorem leadsAt_zero {t : Track} {rest : List Track} (ht : t.state.active = true)
    (h : ∀ u ∈ rest, u.state.active = true → u.segment.priority ≤ t.segment.priority) :
    LeadsAt (t :: rest) 0 t := by
  refine ⟨rfl, ht, fun i u hu hactive => ?_⟩
  cases i with
  | zero =>
    obtain rfl : t = u := Option.some.inj hu
    exact .inr ⟨rfl, Nat.le_refl 0⟩
  | succ i =>
    have hle := h u (List.mem_of_getElem? hu) hactive
    have hplace : 0 ≤ i + 1 := Nat.zero_le _
    omega

theorem exists_leadsAt {tracks : List Track} {t : Track} (h : leader? tracks = some t) :
    ∃ place, LeadsAt tracks place t := by
  induction tracks generalizing t with
  | nil => cases h
  | cons u rest ih =>
    unfold leader? at h
    split at h
    · next hnone =>
      split at h
      · next hactive =>
        obtain rfl : u = t := Option.some.inj h
        refine ⟨0, leadsAt_zero hactive fun v hv hv' => ?_⟩
        rw [leader?_eq_none_iff.1 hnone v hv] at hv'
        cases hv'
      · cases h
    · next v hv =>
      obtain ⟨place, hplace⟩ := ih hv
      split at h
      · next hfirst =>
        obtain rfl : u = t := Option.some.inj h
        obtain ⟨hactive, hle⟩ := Bool.and_eq_true_iff.1 hfirst
        refine ⟨0, leadsAt_zero hactive fun w hw hw' => ?_⟩
        obtain ⟨i, hi⟩ := List.mem_iff_getElem?.1 hw
        have hbound := hplace.outmatches i w hi hw'
        have hle := of_decide_eq_true hle
        omega
      · next hfirst =>
        obtain rfl : v = t := Option.some.inj h
        refine ⟨place + 1, hplace.cons fun hactive => ?_⟩
        simpa [hactive] using hfirst

/-- The leader is the active track of highest priority, and the first of several. -/
theorem leader?_eq_some_iff {tracks : List Track} {t : Track} :
    leader? tracks = some t ↔ ∃ place, LeadsAt tracks place t := by
  constructor
  · exact exists_leadsAt
  · rintro ⟨place, h⟩
    cases hleader : leader? tracks with
    | none =>
      have hidle := leader?_eq_none_iff.1 hleader t (List.mem_of_getElem? h.getElem?)
      rw [h.active] at hidle
      cases hidle
    | some u =>
      obtain ⟨place', h'⟩ := exists_leadsAt hleader
      rw [h'.unique h]

/-- An active track leads when no track outranks it and none before it that has the same
priority is active. -/
theorem leadsAt_of_not_outranked {tracks : List Track} {place : Nat} {t : Track}
    (ht : tracks[place]? = some t) (hactive : t.state.active = true)
    (hnone : ∀ u ∈ tracks, u.outranks t.segment.priority = false)
    (hequal : ∀ (i : Nat) (u : Track), i < place → tracks[i]? = some u →
      u.segment.priority = t.segment.priority → u.state.active = false) :
    LeadsAt tracks place t := by
  refine ⟨ht, hactive, fun i u hu hu' => ?_⟩
  have hle : u.segment.priority ≤ t.segment.priority := by
    have hnot := hnone u (List.mem_of_getElem? hu)
    simpa [outranks, hu'] using hnot
  have hlater : u.segment.priority = t.segment.priority → place ≤ i := by
    intro heq
    refine Nat.le_of_not_lt fun hi => ?_
    rw [hequal i u hi hu heq] at hu'
    cases hu'
  omega

/-- What outranks a priority among some tracks after a tick up to a place, and before it
behind that place. -/
theorem outranked_iff {after before : List Track} {place : Nat} {priority : Int} :
    (after.take place ++ before.drop (place + 1)).any (outranks priority) = true ↔
      ∃ i u, u.outranks priority = true ∧
        (i < place ∧ after[i]? = some u ∨ place < i ∧ before[i]? = some u) := by
  have htake (u : Track) : u ∈ after.take place ↔ ∃ i < place, after[i]? = some u := by
    simp only [List.mem_iff_getElem?, List.getElem?_take, Option.ite_none_right_eq_some]
  have hdrop (u : Track) :
      u ∈ before.drop (place + 1) ↔ ∃ i, place < i ∧ before[i]? = some u := by
    simp only [List.mem_iff_getElem?, List.getElem?_drop]
    constructor
    · rintro ⟨i, hu⟩
      exact ⟨place + 1 + i, by omega, hu⟩
    · rintro ⟨i, hi, hu⟩
      exact ⟨i - (place + 1), by rwa [Nat.add_sub_cancel' hi]⟩
  simp only [List.any_eq_true, List.mem_append, htake, hdrop]
  constructor
  · rintro ⟨u, ⟨i, hi, hu⟩ | ⟨i, hi, hu⟩, houtranks⟩
    · exact ⟨i, u, houtranks, .inl ⟨hi, hu⟩⟩
    · exact ⟨i, u, houtranks, .inr ⟨hi, hu⟩⟩
  · rintro ⟨i, u, houtranks, ⟨hi, hu⟩ | ⟨hi, hu⟩⟩
    · exact ⟨u, .inl ⟨i, hi, hu⟩, houtranks⟩
    · exact ⟨u, .inr ⟨i, hi, hu⟩, houtranks⟩

end Track

namespace Animation

variable {a : Animation} {player : Player} {game : Game σ} {s : σ} {place : Nat} {t : Track}

theorem currentFrame_of_leadsAt (hsource : a.header.source ≠ .vanilla)
    (h : Track.LeadsAt a.tracks place t) : a.currentFrame = t.state.frame := by
  rw [currentFrame_of_ne_vanilla hsource, Track.leader?_eq_some_iff.2 ⟨place, h⟩]
  rfl

theorem exists_leadsAt_or_blank (hsource : a.header.source ≠ .vanilla) :
    (∃ place t, Track.LeadsAt a.tracks place t) ∨ a.Blank ∧ a.currentFrame = 0 := by
  cases hleader : Track.leader? a.tracks with
  | none =>
    refine .inr ⟨Track.leader?_eq_none_iff.1 hleader, ?_⟩
    rw [currentFrame_of_ne_vanilla hsource, hleader]
    rfl
  | some t =>
    obtain ⟨place, h⟩ := Track.exists_leadsAt hleader
    exact .inl ⟨place, t, h⟩

/-- A fallback changes in a tick only in whether it is active. It is unless it is outranked
by a track before it, after the tick, or by one behind it, before the tick. -/
theorem exists_play_fallback (hsource : a.header.source ≠ .vanilla)
    (hdone : (a.play player game s).crashed = false) (ht : a.tracks[place]? = some t)
    (hfallback : t.segment.isFallback = true) :
    ∃ active, (a.play player game s).now.tracks[place]? = some (t.withActive active) ∧
      (active = true ↔ ¬∃ i u, u.outranks t.segment.priority = true ∧
        (i < place ∧ (a.play player game s).now.tracks[i]? = some u ∨
          place < i ∧ a.tracks[i]? = some u)) := by
  have hnow := getElem?_play_fallback hsource hdone ht (Segment.trigger?_eq_none_iff.2 hfallback)
  refine ⟨_, hnow, ?_⟩
  rw [← Track.outranked_iff, Bool.not_eq_true', Bool.not_eq_true]

/-- A consistent fallback shows the frame that it declares. -/
theorem frame_eq_of_isFallback {header : Header} (h : t.Consistent header)
    (hfallback : t.segment.isFallback = true) : t.state.frame = t.segment.kind.firstFrame := by
  obtain ⟨⟨name, priority, frametime, kind⟩, state⟩ := t
  cases kind with
  | fallback frame => exact Nat.le_antisymm h.state.shows.2 h.state.shows.1
  | singleFrame frame trigger => cases hfallback
  | sequence range looping pauses trigger => cases hfallback
  | oneShot range trigger => cases hfallback

/-- Take a tick that comes to its end, of an animation that is not vanilla, in any state.

Each fallback is active afterwards exactly when no track outranks it, where those before it
count as they are after the tick and those behind it as they were before. The frame to show
is that of the track that leads after the tick: the active one of highest priority, and the
first of several. It is zero if none is active.

So a fallback that nothing outranks after the tick, and nothing behind it outranked before,
shows its frame, unless a track before it of the same priority is active. -/
theorem selection_play (hsource : a.header.source ≠ .vanilla)
    (hdone : (a.play player game s).crashed = false) :
    let after := (a.play player game s).now
    (∀ (place : Nat) (t : Track), a.tracks[place]? = some t → t.segment.isFallback = true →
      ∃ active, after.tracks[place]? = some (t.withActive active) ∧
        (active = true ↔ ¬∃ (i : Nat) (u : Track), u.outranks t.segment.priority = true ∧
          (i < place ∧ after.tracks[i]? = some u ∨ place < i ∧ a.tracks[i]? = some u))) ∧
    (∀ place t, Track.LeadsAt after.tracks place t → after.currentFrame = t.state.frame) ∧
    ((∃ place t, Track.LeadsAt after.tracks place t) ∨ after.Blank ∧ after.currentFrame = 0) ∧
    ∀ (place : Nat) (t : Track), a.tracks[place]? = some t → t.segment.isFallback = true →
      (∀ u ∈ after.tracks, u.outranks t.segment.priority = false) →
      (∀ (i : Nat) (u : Track), place < i → a.tracks[i]? = some u →
        u.outranks t.segment.priority = false) →
      (∀ (i : Nat) (u : Track), i < place → after.tracks[i]? = some u →
        u.segment.priority = t.segment.priority → u.state.active = false) →
      after.currentFrame = t.state.frame ∧
        (t.Consistent a.header → after.currentFrame = t.segment.kind.firstFrame) := by
  intro after
  have hafter : after.header.source ≠ .vanilla := by
    rw [header_play]
    exact hsource
  refine ⟨fun place t ht hfallback => exists_play_fallback hsource hdone ht hfallback,
    fun place t h => currentFrame_of_leadsAt hafter h, exists_leadsAt_or_blank hafter, ?_⟩
  intro place t ht hfallback hnow hbehind hequal
  obtain ⟨active, hplace, hactive⟩ := exists_play_fallback hsource hdone ht hfallback
  obtain rfl : active = true := by
    refine hactive.2 ?_
    rintro ⟨i, u, houtranks, ⟨-, hu⟩ | ⟨hi, hu⟩⟩
    · rw [hnow u (List.mem_of_getElem? hu)] at houtranks
      cases houtranks
    · rw [hbehind i u hi hu] at houtranks
      cases houtranks
  have hleads : Track.LeadsAt after.tracks place (t.withActive true) :=
    Track.leadsAt_of_not_outranked hplace rfl hnow hequal
  have hframe : after.currentFrame = t.state.frame := by
    rw [currentFrame_of_leadsAt hafter hleads]
    rfl
  refine ⟨hframe, fun hconsistent => ?_⟩
  rw [hframe, frame_eq_of_isFallback hconsistent hfallback]

/-- A sky at dusk: the glow stands before the fallback, a flash behind it. -/
def duskySky : Animation :=
  ((start ⟨.plain ⟨"game", "sky"⟩ .sectioned,
    [.ofKind "glow" (.singleFrame 2 (.ofEvent "dusk")), .fallback 9,
      .ofKind "flash" (.singleFrame 4 (.ofEvent "flash"))]⟩).play .standard
    (Stage.game ⟨["dusk"], [], [], [], [], 0, 0⟩) []).now

/-- When the dusk is over, the fallback shows at once, since it comes behind the glow. -/
theorem selection_play_duskySky :
    duskySky.currentFrame = 2 ∧
      (duskySky.play .standard (Stage.game ⟨[], [], [], [], [], 0, 0⟩) []).now.currentFrame =
        9 := by
  have hdone : (duskySky.play .standard (Stage.game ⟨[], [], [], [], [], 0, 0⟩) []).crashed =
      false := by
    decide +kernel
  have ht : duskySky.tracks[1]? = some ⟨.fallback 9, ⟨9, false, 0, false, 0⟩⟩ := rfl
  obtain ⟨-, -, -, hshown⟩ := selection_play (a := duskySky) nofun hdone
  have hnow : ∀ u ∈ (duskySky.play .standard (Stage.game ⟨[], [], [], [], [], 0, 0⟩) []).now.tracks,
      u.outranks (-1000) = false := by
    decide +kernel
  refine ⟨by decide +kernel, (hshown 1 _ ht rfl hnow ?_ ?_).1⟩
  · intro i u hi hu
    have hall : ∀ u ∈ duskySky.tracks.drop 2, u.outranks (-1000) = false := by decide +kernel
    refine hall u (List.mem_iff_getElem?.2 ⟨i - 2, ?_⟩)
    rw [List.getElem?_drop, Nat.add_sub_cancel' hi]
    exact hu
  · intro i u hi hu hequal
    obtain rfl : i = 0 := by omega
    obtain rfl : _ = u := Option.some.inj hu
    cases hequal

end Animation
end Flipbook
