import Flipbook.Document.Read

/-!
# What descriptions hold

A document of any format either is refused or describes an animation that can be
played, however it is written: inverted ranges, empty frame lists, sections that fail
and values that cannot be read never leave a segment that breaks a rule.

* `Segment.WellFormed`, `Metadata.WellFormed`: the rules.
* `Declaration.wellFormed_segment`, `Draft.wellFormed_extend`: each declaration and
  each section keeps them.
* `wellFormed_of_read`: they hold for whatever is read.
-/
namespace Flipbook

/-! ## The rules -/

/-- Whether a trigger has no more than one of an event and a condition. -/
def Trigger.Single (t : Trigger) : Prop := t.event = .none ∨ t.condition = .none

/-- The rules for what a segment does. -/
structure SegmentKind.WellFormed (kind : SegmentKind) : Prop where
  range : ∀ r, kind.range? = some r → r.first ≤ r.last
  trigger : ∀ t, kind.trigger? = some t → t.Single

/-- The rules for a segment. -/
structure Segment.WellFormed (s : Segment) : Prop where
  kind : s.kind.WellFormed
  priority : s.isFallback = true → s.priority = -1000

/-- Whether an animation is nothing but one sequence that plays from frame zero on,
starts over and needs no trigger. -/
def Metadata.PlaysAlone (m : Metadata) : Prop :=
  ∃ s last pauses, m.segments = [s] ∧ s.kind = .sequence ⟨0, last⟩ true pauses .none

/-- The rules for an animation of a texture that is described in a format. -/
structure Metadata.WellFormed (texture : Texture) (format : Format) (m : Metadata) : Prop where
  texture : m.header.texture = texture
  source : m.header.source = format
  frametime : 1 ≤ m.header.frametime
  segments : m.segments ≠ []
  fallbacks : m.fallbacks ≤ 1
  segment : ∀ s ∈ m.segments, s.WellFormed
  vanilla : format = .vanilla → m.PlaysAlone

namespace Trigger

theorem single_none : none.Single := .inl rfl

theorem single_ofEvent (name : String) : (ofEvent name).Single := .inr rfl

theorem single_ofCondition (c : Expression.Condition) : (ofCondition c).Single := .inl rfl

end Trigger

/-- The least of some frames is not above the greatest. -/
theorem FrameRange.first_le_last_spanning (frames : List Nat) :
    (spanning frames).first ≤ (spanning frames).last := by
  cases frames with
  | nil => exact Nat.le_refl 0
  | cons frame frames =>
    have hmem : frame ∈ frame :: frames := List.mem_cons_self
    have hmin : (frame :: frames).min?.getD 0 ≤ frame := List.min?_getD_le_of_mem hmem
    have hmax : frame ≤ (frame :: frames).max?.getD 0 := List.le_max?_getD_of_mem hmem
    exact Nat.le_trans hmin hmax

namespace SegmentKind

variable {r : FrameRange} {t : Trigger}

theorem wellFormed_fallback (frame : Nat) : (fallback frame).WellFormed := ⟨nofun, nofun⟩

theorem wellFormed_singleFrame (frame : Nat) (ht : t.Single) :
    (singleFrame frame t).WellFormed := by
  refine ⟨nofun, fun t' h => ?_⟩
  cases h
  exact ht

theorem wellFormed_sequence (hr : r.first ≤ r.last) (looping pauses : Bool) (ht : t.Single) :
    (sequence r looping pauses t).WellFormed := by
  refine ⟨fun r' h => ?_, fun t' h => ?_⟩
  · cases h
    exact hr
  · cases h
    exact ht

theorem wellFormed_oneShot (hr : r.first ≤ r.last) (ht : t.Single) :
    (oneShot r t).WellFormed := by
  refine ⟨fun r' h => ?_, fun t' h => ?_⟩
  · cases h
    exact hr
  · cases h
    exact ht

end SegmentKind

namespace Document

open Reading (outcome_bind_eq_ok_iff)

variable {config : Config} {texture : Texture}

/-! ## Whole animations -/

/-- What passes the last check has segments and one fallback at most. -/
theorem validated_eq_ok_iff {m m' : Metadata} :
    m.validated = .ok m' ↔ m = m' ∧ m'.segments ≠ [] ∧ m'.fallbacks ≤ 1 := by
  unfold Metadata.validated
  by_cases hempty : m.segments = []
  · rw [if_pos (by simp [hempty])]
    refine iff_of_false nofun ?_
    rintro ⟨rfl, h, -⟩
    exact h hempty
  · rw [if_neg (by simpa using hempty)]
    by_cases hfallbacks : 1 < m.fallbacks
    · rw [if_pos hfallbacks]
      refine iff_of_false nofun ?_
      rintro ⟨rfl, -, h⟩
      omega
    · rw [if_neg hfallbacks, Except.ok.injEq]
      constructor
      · rintro rfl
        exact ⟨rfl, hempty, Nat.le_of_not_lt hfallbacks⟩
      · rintro ⟨rfl, -⟩
        rfl

/-- An animation that passes the last check keeps the rules if its header and its
segments do. -/
theorem wellFormed_of_validated {format : Format} {m m' : Metadata}
    (h : m.validated = .ok m') (htexture : m.header.texture = texture)
    (hsource : m.header.source = format) (hframetime : 1 ≤ m.header.frametime)
    (hsegment : ∀ s ∈ m.segments, s.WellFormed) (hvanilla : format = .vanilla → m.PlaysAlone) :
    m'.WellFormed texture format := by
  obtain ⟨rfl, hsegments, hfallbacks⟩ := validated_eq_ok_iff.1 h
  exact ⟨htexture, hsource, hframetime, hsegments, hfallbacks, hsegment, hvanilla⟩

/-! ## Game metadata -/

theorem VanillaAnimation.wellFormed_segment (a : VanillaAnimation) : a.segment.WellFormed :=
  ⟨SegmentKind.wellFormed_sequence (Nat.zero_le _) _ _ Trigger.single_none, nofun⟩

theorem wellFormed_of_readVanilla {content : List Char} {m : Metadata}
    (h : (readVanilla texture content).outcome.value = .ok m) :
    m.WellFormed texture .vanilla := by
  unfold readVanilla at h
  split at h
  · cases h
  · cases h
  · next animation _ =>
    obtain ⟨header, hheader, h⟩ := outcome_bind_eq_ok_iff.1 h
    cases hheader
    dsimp only at h
    rw [Reading.outcome_ofExcept] at h
    refine wellFormed_of_validated h rfl rfl (Nat.le_max_left _ _) ?_ fun _ => ?_
    · intro s hs
      rw [List.mem_singleton.1 hs]
      exact animation.wellFormed_segment
    · exact ⟨animation.segment, _, _, rfl, rfl⟩

/-! ## Block documents -/

theorem Config.first_le_last_of_checkRange {name : String} {first last : Nat} {r : FrameRange}
    (h : (config.checkRange name first last).outcome.value = .ok r) : r.first ≤ r.last := by
  unfold checkRange at h
  split at h
  · next hle =>
    cases h
    exact hle
  · split at h
    · cases h
    · cases h
      exact Nat.le_refl _

theorem Corrector.single_trigger (name : String) (random : Expression.Random) (c : Corrector) :
    (c.trigger name random).value.Single := by
  unfold trigger
  split
  · exact Trigger.single_ofEvent _
  · split
    · exact Trigger.single_ofCondition _
    · exact Trigger.single_none

/-- Whatever a declaration says, its segment keeps the rules. -/
theorem Declaration.wellFormed_segment {d : Declaration} {index : Nat} {s : Segment}
    (h : (d.segment config index).outcome.value = .ok s) : s.WellFormed := by
  obtain ⟨trigger, htrigger, h⟩ := outcome_bind_eq_ok_iff.1 h
  have hsingle : trigger.Single := by
    rw [Reading.outcome_ofNoted] at htrigger
    cases htrigger
    split
    · exact Corrector.single_trigger _ _ _
    · exact Trigger.single_none
  dsimp only at h
  cases hkind : d.kind with
  | fallback =>
    rw [hkind] at h
    cases h
    exact ⟨SegmentKind.wellFormed_fallback _, fun _ => rfl⟩
  | singleFrame =>
    rw [hkind] at h
    cases h
    exact ⟨SegmentKind.wellFormed_singleFrame _ hsingle, nofun⟩
  | sequence =>
    rw [hkind] at h
    obtain ⟨range, hrange, h⟩ := outcome_bind_eq_ok_iff.1 h
    cases h
    have hle := Config.first_le_last_of_checkRange hrange
    exact ⟨SegmentKind.wellFormed_sequence hle _ _ hsingle, nofun⟩
  | oneShot =>
    rw [hkind] at h
    obtain ⟨range, hrange, h⟩ := outcome_bind_eq_ok_iff.1 h
    cases h
    have hle := Config.first_le_last_of_checkRange hrange
    exact ⟨SegmentKind.wellFormed_oneShot hle hsingle, nofun⟩

theorem wellFormed_of_readSegment {index position : Nat} {text : List Char} {s : Segment}
    (h : (readSegment config texture index position text).value.segment = some s) :
    s.WellFormed := by
  unfold readSegment at h
  dsimp only at h
  rw [Noted.value_bind] at h
  split at h
  · next segment remainder hread =>
    cases h
    obtain ⟨⟨d, behind⟩, -, hread⟩ := outcome_bind_eq_ok_iff.1 hread
    obtain ⟨segment, hsegment, hread⟩ := outcome_bind_eq_ok_iff.1 hread
    cases hread
    exact Declaration.wellFormed_segment hsegment
  · cases h

/-- All the segments of a list keep the rules, wherever the search goes on after one
that fails. -/
theorem wellFormed_of_mem_readSegments {index position : Nat} {text : List Char} :
    ∀ s ∈ (readSegments config texture index position text).value, s.WellFormed := by
  induction hlength : text.length using Nat.strongRecOn generalizing index position text with
  | _ length ih =>
    intro s hs
    unfold readSegments at hs
    split at hs
    · cases hs
    · next left right hbreak =>
      rcases List.mem_append.1 hs with hs | hs
      · exact wellFormed_of_readSegment (Option.mem_toList.1 hs)
      · refine ih _ ?_ rfl s hs
        rw [← hlength]
        exact SegmentStep.length_rest_lt _ (length_drop_marker_lt hbreak)

theorem wellFormed_of_readBlock {content : List Char} {m : Metadata}
    (h : (readBlock config texture content).outcome.value = .ok m) :
    m.WellFormed texture .block := by
  obtain ⟨layout, -, h⟩ := outcome_bind_eq_ok_iff.1 h
  obtain ⟨segments, hsegments, h⟩ := outcome_bind_eq_ok_iff.1 h
  obtain ⟨header, hheader, h⟩ := outcome_bind_eq_ok_iff.1 h
  cases hsegments
  cases hheader
  rw [Reading.outcome_ofExcept] at h
  exact wellFormed_of_validated h rfl rfl (Nat.le_max_left _ _)
    wellFormed_of_mem_readSegments nofun

/-! ## Sectioned documents -/

namespace Draft

variable {d : Draft} {p : Properties}

theorem first_le_last_of_range {default : String} {r : FrameRange}
    (h : (d.range config p default).outcome.value = .ok r) : r.first ≤ r.last := by
  obtain ⟨frames, -, h⟩ := outcome_bind_eq_ok_iff.1 h
  cases h
  exact FrameRange.first_le_last_spanning frames

theorem single_trigger : (d.trigger config p).value.Single := by
  unfold trigger
  rw [Noted.value_bind]
  dsimp only
  split
  · exact Trigger.single_none
  · exact Trigger.single_ofCondition _

/-- A section for a segment describes no fallback, and what it describes keeps the
rules. -/
theorem wellFormed_segmentKind {name : String} {kind : SegmentKind}
    (h : (d.segmentKind config name p).outcome.value = .ok kind) :
    kind.WellFormed ∧ ∀ frame, kind ≠ .fallback frame := by
  unfold segmentKind at h
  obtain ⟨trigger, htrigger, h⟩ := outcome_bind_eq_ok_iff.1 h
  cases htrigger
  have hsingle : (d.trigger config p).value.Single := single_trigger
  have hdegraded {n : Notice} {default : String} {kind : SegmentKind}
      (h : (do
        Reading.note n
        return .sequence (← d.range config p default) true false
          (d.trigger config p).value : Reading SegmentKind).outcome.value = .ok kind) :
      kind.WellFormed ∧ ∀ frame, kind ≠ .fallback frame := by
    obtain ⟨_, -, h⟩ := outcome_bind_eq_ok_iff.1 h
    obtain ⟨range, hrange, h⟩ := outcome_bind_eq_ok_iff.1 h
    cases h
    exact ⟨SegmentKind.wellFormed_sequence (first_le_last_of_range hrange) _ _ hsingle, nofun⟩
  dsimp only at h
  split at h
  · obtain ⟨frame, -, h⟩ := outcome_bind_eq_ok_iff.1 h
    cases h
    exact ⟨SegmentKind.wellFormed_singleFrame _ hsingle, nofun⟩
  · obtain ⟨range, hrange, h⟩ := outcome_bind_eq_ok_iff.1 h
    cases h
    exact ⟨SegmentKind.wellFormed_sequence (first_le_last_of_range hrange) _ _ hsingle, nofun⟩
  · exact hdegraded h
  · exact hdegraded h
  · obtain ⟨range, hrange, h⟩ := outcome_bind_eq_ok_iff.1 h
    cases h
    exact ⟨SegmentKind.wellFormed_oneShot (first_le_last_of_range hrange) hsingle, nofun⟩
  · cases h

theorem wellFormed_segment {name : String} {s : Segment}
    (h : (d.segment config name p).outcome.value = .ok s) : s.WellFormed := by
  obtain ⟨kind, hkind, h⟩ := outcome_bind_eq_ok_iff.1 h
  obtain ⟨hwell, hne⟩ := wellFormed_segmentKind hkind
  cases h
  refine ⟨hwell, ?_⟩
  cases kind with
  | fallback frame => exact absurd rfl (hne frame)
  | singleFrame => exact nofun
  | sequence => exact nofun
  | oneShot => exact nofun

/-- Whether all the segments of a draft keep the rules. -/
def WellFormed (d : Draft) : Prop := ∀ s ∈ d.segments, s.WellFormed

theorem WellFormed.append {d : Draft} (h : d.WellFormed) {s : Segment} (hs : s.WellFormed) :
    ({ d with segments := d.segments ++ [s] } : Draft).WellFormed := by
  intro s' hs'
  rcases List.mem_append.1 hs' with hs' | hs'
  · exact h s' hs'
  · rw [List.mem_singleton.1 hs']
    exact hs

/-- A section that does not fail keeps the rules. -/
theorem wellFormed_extend {heading : Section} {d' : Draft} (hd : d.WellFormed)
    (h : (d.extend config texture heading p).outcome.value = .ok d') : d'.WellFormed := by
  cases heading with
  | animation =>
    cases h
    exact hd
  | variableTexts =>
    cases h
    exact hd
  | conditionTexts =>
    cases h
    exact hd
  | fallback =>
    obtain ⟨frame, -, h⟩ := outcome_bind_eq_ok_iff.1 h
    cases h
    exact hd.append ⟨SegmentKind.wellFormed_fallback frame, fun _ => rfl⟩
  | segment name =>
    obtain ⟨s, hs, h⟩ := outcome_bind_eq_ok_iff.1 h
    cases h
    exact hd.append (wellFormed_segment hs)
  | unknown name =>
    obtain ⟨_, -, h⟩ := outcome_bind_eq_ok_iff.1 h
    cases h
    exact hd

/-- A section keeps the rules, also one that fails. -/
theorem wellFormed_process (hd : d.WellFormed) (part : Section × List (List Char)) :
    (d.process config texture part).value.WellFormed := by
  unfold process
  rw [Noted.value_bind]
  split
  · next hextend => exact wellFormed_extend hd hextend
  · exact hd

theorem wellFormed_foldl (hd : d.WellFormed) (parts : List (Section × List (List Char))) :
    (parts.foldl (fun d part => (process config texture d part).value) d).WellFormed := by
  induction parts generalizing d with
  | nil => exact hd
  | cons part parts ih => exact ih (wellFormed_process hd part)

end Draft

theorem wellFormed_of_readSectioned {content : List Char} {m : Metadata}
    (h : (readSectioned config texture content).outcome.value = .ok m) :
    m.WellFormed texture .sectioned := by
  obtain ⟨_, -, h⟩ := outcome_bind_eq_ok_iff.1 h
  obtain ⟨draft, hdraft, h⟩ := outcome_bind_eq_ok_iff.1 h
  obtain ⟨header, hheader, h⟩ := outcome_bind_eq_ok_iff.1 h
  cases hdraft
  cases hheader
  rw [Reading.outcome_ofExcept] at h
  refine wellFormed_of_validated h rfl rfl (Nat.le_max_left _ _) ?_ nofun
  have hblank : Draft.blank.WellFormed := List.forall_mem_nil _
  rw [Noted.value_foldlM]
  exact Draft.wellFormed_foldl hblank _

/-! ## Any document -/

/-- Whatever is read is the animation of the texture that it is read for. -/
theorem texture_of_read {config : Config} {texture : Texture} {content : List Char} {m : Metadata}
    (h : (read config texture content).outcome.value = .ok m) : m.header.texture = texture := by
  rw [outcome_read] at h
  generalize formatOf content = format at h
  cases format with
  | vanilla => exact (wellFormed_of_readVanilla h).texture
  | sectioned => exact (wellFormed_of_readSectioned h).texture
  | block => exact (wellFormed_of_readBlock h).texture

/-- Whatever is read from a document is an animation of the texture, described in the
format that the content shows, and keeps all the rules. -/
theorem wellFormed_of_read (config : Config) (texture : Texture) (content : List Char)
    (m : Metadata) (h : (read config texture content).outcome.value = .ok m) :
    m.WellFormed texture (formatOf content) := by
  rw [outcome_read] at h
  cases hformat : formatOf content with
  | vanilla =>
    rw [hformat] at h
    exact wellFormed_of_readVanilla h
  | sectioned =>
    rw [hformat] at h
    exact wellFormed_of_readSectioned h
  | block =>
    rw [hformat] at h
    exact wellFormed_of_readBlock h

/-- A declaration of no known kind and one of an inverted range. -/
def invertedDocument : List Char :=
  ("segment!SPARKLE \x7b\x7d\n" ++
    "segment!SEQUENCE \x7b first_frame_index = 5; last_frame_index = 2 \x7d").toList

/-- The inverted range comes down to its first frame. -/
theorem wellFormed_of_read_invertedDocument :
    ∃ m, (read .standard ⟨"minecraft", "item/clock"⟩ invertedDocument).outcome.value = .ok m ∧
      m.segments.map (·.kind.range?) = [some ⟨5, 5⟩] ∧
      m.WellFormed ⟨"minecraft", "item/clock"⟩ (formatOf invertedDocument) := by
  have h : (match (read .standard ⟨"minecraft", "item/clock"⟩ invertedDocument).outcome.value with
      | .ok m => decide (m.segments.map (·.kind.range?) = [some ⟨5, 5⟩])
      | .error _ => false) = true := by
    decide +kernel
  cases hread : (read .standard ⟨"minecraft", "item/clock"⟩ invertedDocument).outcome.value with
  | error e =>
    rw [hread] at h
    cases h
  | ok m =>
    rw [hread] at h
    exact ⟨m, rfl, of_decide_eq_true h, wellFormed_of_read _ _ _ _ hread⟩

end Document
end Flipbook
